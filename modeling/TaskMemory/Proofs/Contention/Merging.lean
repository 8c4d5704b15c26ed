import Mathlib.Algebra.BigOperators.Group.List.Basic
import Mathlib.Algebra.GroupWithZero.Nat
import Mathlib.Data.List.Induction
import Mathlib.Order.Lattice
import TaskMemory.Contention.Tally

/-!
Tallies that are kept apart and merged. As numbers without a bound the figures of a tally add up in
any order and any grouping, and a tally is merged, and fed, as its figures are added. No figure on
the way is larger than the one for all entries: all of them fit a word if the last ones do, and
otherwise every way of merging breaks off.
-/
namespace TaskMemory

section

variable {a b : UInt64}

theorem addChecked_of_lt (h : a.toNat + b.toNat < 2 ^ 64) : addChecked a b = .ok (a + b) :=
  if_pos h

theorem addChecked_of_not_lt (h : ¬a.toNat + b.toNat < 2 ^ 64) :
    addChecked a b = .error .addOverflow :=
  if_neg h

theorem addChecked_zero (a : UInt64) : addChecked a 0 = .ok a :=
  (addChecked_of_lt (b := 0) a.toNat_lt).trans (congrArg _ a.add_zero)

/-- Two words are added as their numbers are, up to a multiple of `2 ^ 64`. -/
theorem ofNat_add_toNat (a b : UInt64) : UInt64.ofNat (a.toNat + b.toNat) = a + b := by
  rw [UInt64.ofNat_add, UInt64.ofNat_toNat, UInt64.ofNat_toNat]

theorem ofNat_max (a b : UInt64) : UInt64.ofNat (max a.toNat b.toNat) = max a b := by
  have hMax : max a b = if a ≤ b then b else a := rfl
  rw [hMax]
  split
  · next hLe => rw [Nat.max_eq_right (UInt64.le_iff_toNat_le.mp hLe), UInt64.ofNat_toNat]
  · next hLt =>
      have hLe : b.toNat ≤ a.toNat := Nat.le_of_not_le (mt UInt64.le_iff_toNat_le.mpr hLt)
      rw [Nat.max_eq_left hLe, UInt64.ofNat_toNat]

end

/-- What a tally says, as numbers without a bound. -/
@[ext]
structure Figures where
  ops : Nat := 0
  total : Nat := 0
  longest : Nat := 0
  slow : Nat := 0
  retries : Nat := 0

namespace Figures

instance : Zero Figures := ⟨{}⟩

instance : Add Figures where
  add f g :=
    { ops := f.ops + g.ops
      total := f.total + g.total
      longest := max f.longest g.longest
      slow := f.slow + g.slow
      retries := f.retries + g.retries }

section

variable (f g : Figures)

@[simp] theorem ops_add : (f + g).ops = f.ops + g.ops := rfl

@[simp] theorem total_add : (f + g).total = f.total + g.total := rfl

@[simp] theorem longest_add : (f + g).longest = max f.longest g.longest := rfl

@[simp] theorem slow_add : (f + g).slow = f.slow + g.slow := rfl

@[simp] theorem retries_add : (f + g).retries = f.retries + g.retries := rfl

end

instance : AddCommMonoid Figures where
  add_assoc _ _ _ := Figures.ext (add_assoc ..) (add_assoc ..) (max_assoc ..) (add_assoc ..)
    (add_assoc ..)
  zero_add _ := Figures.ext (zero_add _) (zero_add _) (Nat.zero_max _) (zero_add _) (zero_add _)
  add_zero _ := Figures.ext (add_zero _) (add_zero _) (Nat.max_zero _) (add_zero _) (add_zero _)
  add_comm _ _ := Figures.ext (add_comm ..) (add_comm ..) (max_comm ..) (add_comm ..) (add_comm ..)
  nsmul := nsmulRec

/-- Every figure is that of a word. -/
structure Fit (f : Figures) : Prop where
  ops : f.ops < 2 ^ 64
  total : f.total < 2 ^ 64
  longest : f.longest < 2 ^ 64
  slow : f.slow < 2 ^ 64
  retries : f.retries < 2 ^ 64

instance (f : Figures) : Decidable f.Fit :=
  decidable_of_iff (f.ops < 2 ^ 64 ∧ f.total < 2 ^ 64 ∧ f.longest < 2 ^ 64 ∧ f.slow < 2 ^ 64 ∧
      f.retries < 2 ^ 64)
    ⟨fun ⟨hOps, hTotal, hLongest, hSlow, hRetries⟩ => ⟨hOps, hTotal, hLongest, hSlow, hRetries⟩,
      fun ⟨hOps, hTotal, hLongest, hSlow, hRetries⟩ => ⟨hOps, hTotal, hLongest, hSlow, hRetries⟩⟩

def toTally (f : Figures) : Tally where
  ops := .ofNat f.ops
  total := .ofNat f.total
  longest := .ofNat f.longest
  slow := .ofNat f.slow
  retries := .ofNat f.retries

/-- The tally with these figures, unless one of them is too large. -/
def tally? (f : Figures) : Except Fault Tally :=
  if f.Fit then .ok f.toTally else .error .addOverflow

variable {f g : Figures}

/-- Figures that fit into words are those of a tally. -/
theorem tally?_of_fit (fit : f.Fit) : f.tally? = .ok f.toTally := if_pos fit

/-- Figures that do not fit break off, whichever of them it is. -/
theorem tally?_of_not_fit (h : ¬f.Fit) : f.tally? = .error .addOverflow := if_neg h

/-- Numbers only grow when they are added, so parts of what fits fit as well. -/
theorem Fit.of_add (fit : (f + g).Fit) : f.Fit ∧ g.Fit := by
  obtain ⟨hOps, hTotal, hLongest, hSlow, hRetries⟩ := fit
  exact ⟨⟨(Nat.le_add_right ..).trans_lt hOps, (Nat.le_add_right ..).trans_lt hTotal,
      (Nat.le_max_left ..).trans_lt hLongest, (Nat.le_add_right ..).trans_lt hSlow,
      (Nat.le_add_right ..).trans_lt hRetries⟩,
    ⟨(Nat.le_add_left ..).trans_lt hOps, (Nat.le_add_left ..).trans_lt hTotal,
      (Nat.le_max_right ..).trans_lt hLongest, (Nat.le_add_left ..).trans_lt hSlow,
      (Nat.le_add_left ..).trans_lt hRetries⟩⟩

end Figures

namespace Tally

def figures (t : Tally) : Figures where
  ops := t.ops.toNat
  total := t.total.toNat
  longest := t.longest.toNat
  slow := t.slow.toNat
  retries := t.retries.toNat

theorem fit_figures (t : Tally) : t.figures.Fit :=
  ⟨t.ops.toNat_lt, t.total.toNat_lt, t.longest.toNat_lt, t.slow.toNat_lt, t.retries.toNat_lt⟩

/-- A tally is told by its figures. -/
theorem tally?_figures (t : Tally) : t.figures.tally? = .ok t := by
  rw [Figures.tally?_of_fit t.fit_figures]
  simp only [Figures.toTally, figures, UInt64.ofNat_toNat]

/-- Every figure that fits is kept as it is. -/
theorem exists_of_fit {f : Figures} (fit : f.Fit) : ∃ t, f.tally? = .ok t ∧ t.figures = f := by
  refine ⟨_, Figures.tally?_of_fit fit, ?_⟩
  obtain ⟨hOps, hTotal, hLongest, hSlow, hRetries⟩ := fit
  exact Figures.ext (UInt64.toNat_ofNat_of_lt' hOps) (UInt64.toNat_ofNat_of_lt' hTotal)
    (UInt64.toNat_ofNat_of_lt' hLongest) (UInt64.toNat_ofNat_of_lt' hSlow)
    (UInt64.toNat_ofNat_of_lt' hRetries)

/-- Tallies whose figures do not fit together cannot be merged. -/
theorem merge_of_not_fit {t u : Tally} (h : ¬(t.figures + u.figures).Fit) :
    t.merge u = .error .addOverflow := by
  have hLongest : max t.longest.toNat u.longest.toNat < 2 ^ 64 :=
    Nat.max_lt.mpr ⟨t.longest.toNat_lt, u.longest.toNat_lt⟩
  rw [merge]
  -- The first sum that does not fit ends the merging.
  by_cases hOps : t.ops.toNat + u.ops.toNat < 2 ^ 64
  case neg => rw [addChecked_of_not_lt hOps]; rfl
  rw [addChecked_of_lt hOps]
  by_cases hTotal : t.total.toNat + u.total.toNat < 2 ^ 64
  case neg => rw [addChecked_of_not_lt hTotal]; rfl
  rw [addChecked_of_lt hTotal]
  by_cases hSlow : t.slow.toNat + u.slow.toNat < 2 ^ 64
  case neg => rw [addChecked_of_not_lt hSlow]; rfl
  rw [addChecked_of_lt hSlow]
  by_cases hRetries : t.retries.toNat + u.retries.toNat < 2 ^ 64
  case neg => rw [addChecked_of_not_lt hRetries]; rfl
  exact absurd ⟨hOps, hTotal, hLongest, hSlow, hRetries⟩ h

/-- Two tallies are merged as their figures are added. -/
theorem merge_eq (t u : Tally) : t.merge u = (t.figures + u.figures).tally? := by
  by_cases h : (t.figures + u.figures).Fit
  · have hTally : (t.figures + u.figures).toTally =
        ⟨t.ops + u.ops, t.total + u.total, max t.longest u.longest, t.slow + u.slow,
          t.retries + u.retries⟩ := by
      simp only [Figures.toTally, Figures.ops_add, Figures.total_add, Figures.longest_add,
        Figures.slow_add, Figures.retries_add, figures, ofNat_add_toNat, ofNat_max]
    rw [Figures.tally?_of_fit h, hTally, merge, addChecked_of_lt h.ops, addChecked_of_lt h.total,
      addChecked_of_lt h.slow, addChecked_of_lt h.retries]
    rfl
  · rw [Figures.tally?_of_not_fit h, merge_of_not_fit h]

end Tally

/-- Tallies that may not be there are merged as their figures are added. -/
theorem Figures.merge_tally? (f g : Figures) :
    (do (← f.tally?).merge (← g.tally?)) = (f + g).tally? := by
  by_cases hFirst : f.Fit
  · obtain ⟨t, hTally, rfl⟩ := Tally.exists_of_fit hFirst
    by_cases hSecond : g.Fit
    · obtain ⟨u, hTally', rfl⟩ := Tally.exists_of_fit hSecond
      rw [hTally, hTally']
      exact t.merge_eq u
    · have hSum : ¬(t.figures + g).Fit := fun fit => hSecond fit.of_add.2
      rw [hTally, tally?_of_not_fit hSecond, tally?_of_not_fit hSum]
      rfl
  · have hSum : ¬(f + g).Fit := fun fit => hFirst fit.of_add.1
    rw [tally?_of_not_fit hFirst, tally?_of_not_fit hSum]
    rfl

namespace Tally

/-- What is entered into a tally: the time of an operation, or so many retries. -/
inductive Entry where
  | operation (time : UInt64)
  | retries (count : UInt64)

def enter (t : Tally) : Entry → Except Fault Tally
  | .operation time => t.record time
  | .retries count => do return { t with retries := ← addChecked t.retries count }

/-- The tally that entries go into, one after the other. -/
def feed (entries : List Entry) : Except Fault Tally := entries.foldlM enter {}

def Entry.time? : Entry → Option UInt64
  | operation time => some time
  | retries _ => none

def Entry.count? : Entry → Option UInt64
  | operation _ => none
  | retries count => some count

/-- The times of the operations, in the order in which they were entered. -/
def times (entries : List Entry) : List UInt64 := entries.filterMap Entry.time?

def counts (entries : List Entry) : List UInt64 := entries.filterMap Entry.count?

/-- The figures of a list of entries. -/
def figuresOf (entries : List Entry) : Figures where
  ops := (times entries).length
  total := ((times entries).map UInt64.toNat).sum
  longest := ((times entries).map UInt64.toNat).foldr max 0
  slow := (times entries).countP (slowAfter < ·)
  retries := ((counts entries).map UInt64.toNat).sum

/-- The figures of two lists of entries are added. -/
theorem figuresOf_append (entries more : List Entry) :
    figuresOf (entries ++ more) = figuresOf entries + figuresOf more := by
  have hTimes : times (entries ++ more) = times entries ++ times more := List.filterMap_append
  have hCounts : counts (entries ++ more) = counts entries ++ counts more :=
    List.filterMap_append
  have hLongest : ∀ l m : List Nat, (l ++ m).foldr max 0 = max (l.foldr max 0) (m.foldr max 0) := by
    intro l m
    induction l with
    | nil => exact (Nat.zero_max _).symm
    | cons n l ih => rw [List.cons_append, List.foldr_cons, List.foldr_cons, ih, max_assoc]
  rw [figuresOf, hTimes, hCounts]
  apply Figures.ext
  · exact List.length_append
  · exact (congrArg _ List.map_append).trans List.sum_append
  · exact (congrArg _ List.map_append).trans (hLongest ..)
  · exact List.countP_append
  · exact (congrArg _ List.map_append).trans List.sum_append

/-- Every entry has its part in the figures. -/
theorem figuresOf_eq_sum (entries : List Entry) :
    figuresOf entries = (entries.map fun e => figuresOf [e]).sum := by
  induction entries with
  | nil => rfl
  | cons e rest ih =>
      rw [List.map_cons, List.sum_cons, ← ih]
      exact figuresOf_append [e] rest

/-- The order in which entries were made does not show in the figures. -/
theorem figuresOf_perm {entries more : List Entry} (h : entries.Perm more) :
    figuresOf entries = figuresOf more := by
  rw [figuresOf_eq_sum, figuresOf_eq_sum more]
  exact (h.map _).sum_eq

/-- However entries are distributed, their figures are the sum of those of the parts. -/
theorem figuresOf_flatten (parts : List (List Entry)) :
    figuresOf parts.flatten = (parts.map figuresOf).sum := by
  induction parts with
  | nil => rfl
  | cons part rest ih =>
      rw [List.flatten_cons, figuresOf_append, ih, List.map_cons, List.sum_cons]

/-- The tally of one entry. -/
def Entry.tally : Entry → Tally
  | operation time =>
    { ops := 1, total := time, longest := time, slow := if slowAfter < time then 1 else 0 }
  | retries count => { retries := count }

theorem figures_tally (e : Entry) : e.tally.figures = figuresOf [e] := by
  cases e with
  | operation time =>
      have hSlow : (if slowAfter < time then (1 : UInt64) else 0).toNat =
          [time].countP (slowAfter < ·) := by
        rw [List.countP_singleton]
        by_cases h : slowAfter < time <;> simp [h]
      exact Figures.ext rfl (Nat.add_zero _).symm (Nat.max_zero _).symm hSlow rfl
  | retries count => exact Figures.ext rfl rfl rfl rfl (Nat.add_zero _).symm

/-- To enter something is to merge with its tally. -/
theorem enter_eq_merge (t : Tally) (e : Entry) : t.enter e = t.merge e.tally := by
  cases e with
  | operation time =>
      rw [enter, record, merge, Entry.tally, addChecked_zero]
      rfl
  | retries count =>
      have hLongest : max t.longest 0 = t.longest := by
        rw [← ofNat_max]
        exact (congrArg _ (Nat.max_zero _)).trans t.longest.ofNat_toNat
      rw [enter, merge, Entry.tally, addChecked_zero, addChecked_zero, addChecked_zero, hLongest]
      rfl

/-- To enter something into a tally is to add to its figures. If these do not fit any longer, it
breaks off. -/
theorem enter_tally? (f : Figures) (e : Entry) :
    (do (← f.tally?).enter e) = (f + figuresOf [e]).tally? := by
  rw [← Figures.merge_tally?, ← figures_tally, tally?_figures]
  simp only [enter_eq_merge]
  rfl

/-- Entries that are fed one after the other make the tally of their figures, or break off if these
do not fit. Since figures only grow, no sum on the way is larger than the last. -/
theorem feed_eq (entries : List Entry) : feed entries = (figuresOf entries).tally? := by
  induction entries using List.reverseRecOn with
  | nil => exact (tally?_figures {}).symm
  | append_singleton entries e ih =>
      rw [figuresOf_append, ← enter_tally?, ← ih, feed, List.foldlM_append]
      simp only [List.foldlM_cons, List.foldlM_nil, bind_pure]
      rfl

/-- A tally that starts with its retries and then records the times of its operations. -/
theorem feed_eq_ofTimes (count : UInt64) (times : List UInt64) :
    feed (.retries count :: times.map .operation) = ofTimes count times := by
  have hFirst : enter {} (.retries count) = .ok { retries := count } := by
    rw [enter, addChecked_of_lt (a := 0) (by simpa using count.toNat_lt), UInt64.zero_add]
    rfl
  rw [feed, List.foldlM_cons, hFirst, ofTimes]
  exact List.foldlM_map

/-- Tallies that are merged one after the other make the tally of the sum of their figures. -/
theorem mergeAll_eq (tallies : List Tally) :
    mergeAll tallies = (tallies.map figures).sum.tally? := by
  induction tallies using List.reverseRecOn with
  | nil => exact (tally?_figures {}).symm
  | append_singleton tallies t ih =>
      rw [List.map_append, List.sum_append, List.map_singleton, List.sum_singleton,
        ← Figures.merge_tally?, ← ih, tally?_figures, mergeAll, List.foldlM_append]
      simp only [List.foldlM_cons, List.foldlM_nil, bind_pure]
      rfl

/-- Either all parts fit, or the whole does not. -/
theorem mapM_feed_cases (parts : List (List Entry)) :
    (∃ tallies, parts.mapM feed = .ok tallies ∧ tallies.map figures = parts.map figuresOf) ∨
      (parts.mapM feed = .error .addOverflow ∧ ¬(parts.map figuresOf).sum.Fit) := by
  induction parts with
  | nil => exact .inl ⟨[], rfl, rfl⟩
  | cons part rest ih =>
      rw [List.mapM_cons, List.map_cons, List.sum_cons, feed_eq]
      by_cases hFit : (figuresOf part).Fit
      · obtain ⟨t, hTally, hFigures⟩ := exists_of_fit hFit
        rw [hTally]
        obtain ⟨tallies, hRest, hSame⟩ | ⟨hRest, hOver⟩ := ih
        · refine .inl ⟨t :: tallies, ?_, ?_⟩
          · rw [hRest]
            rfl
          · rw [List.map_cons, hFigures, hSame]
        · refine .inr ⟨?_, fun fit => hOver fit.of_add.2⟩
          rw [hRest]
          rfl
      · refine .inr ⟨?_, fun fit => hFit fit.of_add.1⟩
        rw [Figures.tally?_of_not_fit hFit]
        rfl

/-- It does not matter whether entries are fed in parts whose tallies are merged, or all to one
tally. -/
theorem mergeAll_feed (parts : List (List Entry)) :
    (do mergeAll (← parts.mapM feed)) = feed parts.flatten := by
  rw [feed_eq, figuresOf_flatten]
  obtain ⟨tallies, hTallies, hSame⟩ | ⟨hOver, hFit⟩ := mapM_feed_cases parts
  · rw [hTallies, ← hSame]
    exact mergeAll_eq tallies
  · rw [hOver, Figures.tally?_of_not_fit hFit]
    rfl

/-- What can be done with tallies: begin one, enter something, and merge another one into it. -/
inductive Plan where
  | fresh
  | entered (plan : Plan) (e : Entry)
  | merged (plan other : Plan)

namespace Plan

/-- All that is entered, wherever it is. -/
def entries : Plan → List Entry
  | fresh => []
  | entered plan e => plan.entries ++ [e]
  | merged plan other => plan.entries ++ other.entries

def run : Plan → Except Fault Tally
  | fresh => .ok {}
  | entered plan e => do (← plan.run).enter e
  | merged plan other => do (← plan.run).merge (← other.run)

/-- Whatever a plan groups and in which order, its outcome depends on its entries only. -/
theorem run_eq (plan : Plan) : plan.run = (figuresOf plan.entries).tally? := by
  induction plan with
  | fresh => exact (tally?_figures {}).symm
  | entered plan e ih => rw [run, entries, figuresOf_append, ih, enter_tally?]
  | merged plan other ih ihOther =>
      rw [run, entries, figuresOf_append, ih, ihOther, Figures.merge_tally?]

end Plan

/-- Merging is associative and commutative, and a fresh tally adds nothing, also where a sum does
not fit. -/
structure MergeLaws : Prop where
  assoc : ∀ t u v : Tally, (do (← t.merge u).merge v) = (do t.merge (← u.merge v))
  comm : ∀ t u : Tally, t.merge u = u.merge t
  fresh_merge : ∀ t : Tally, merge {} t = .ok t
  merge_fresh : ∀ t : Tally, t.merge {} = .ok t

/-- Merging is associative and commutative, breaches included, with the empty tally as its unit. -/
theorem mergeLaws : MergeLaws where
  assoc t u v := by
    have hLeft := Figures.merge_tally? (t.figures + u.figures) v.figures
    have hRight := Figures.merge_tally? t.figures (u.figures + v.figures)
    rw [← merge_eq, tally?_figures] at hLeft hRight
    exact hLeft.trans ((congrArg _ (add_assoc ..)).trans hRight.symm)
  comm t u := by rw [merge_eq, merge_eq, add_comm]
  fresh_merge t := by
    rw [merge_eq]
    exact (congrArg _ (zero_add _)).trans t.tally?_figures
  merge_fresh t := by
    rw [merge_eq]
    exact (congrArg _ (add_zero _)).trans t.tally?_figures

/-- What becomes of entries that are distributed over several tallies. -/
structure Gathers (entries : List Entry) : Prop where
  /-- Every plan comes to the tally that all entries go into in turn. -/
  run_eq : ∀ plan : Plan, plan.entries.Perm entries → plan.run = feed entries
  /-- So do any number of tallies that are merged into a fresh one. -/
  mergeAll_eq : ∀ parts : List (List Entry), parts.flatten.Perm entries →
    (do mergeAll (← parts.mapM feed)) = feed entries
  /-- If all figures fit a word, there is such a tally, so no sum on the way is too large. -/
  fits : (figuresOf entries).Fit → ∃ t, feed entries = .ok t ∧ t.figures = figuresOf entries
  overflows : ¬(figuresOf entries).Fit → feed entries = .error .addOverflow

/-- It does not matter into which tallies entries go, and in which order and grouping these are
merged. -/
theorem gathers (entries : List Entry) : Gathers entries ∧ MergeLaws := by
  refine ⟨?_, mergeLaws⟩
  constructor
  case run_eq =>
    intro plan hPerm
    rw [plan.run_eq, feed_eq, figuresOf_perm hPerm]
  case mergeAll_eq =>
    intro parts hPerm
    rw [mergeAll_feed, feed_eq, feed_eq, figuresOf_perm hPerm]
  case fits =>
    intro fit
    rw [feed_eq]
    exact exists_of_fit fit
  case overflows =>
    intro h
    rw [feed_eq, Figures.tally?_of_not_fit h]

end Tally
end TaskMemory
