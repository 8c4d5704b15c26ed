import TaskMemory.Proofs.Pool.Alike

/-!
Slots that are used again. Which slots are vacant does not depend on the order in which they were
given back, so neither do the handles of the values to come. Whatever has been destroyed, its slot
is there for a further construction.
-/
namespace TaskMemory.Pool

variable {α : Type}

/-- The handle that a construction gets, if it gets one. -/
def nextHandle? (p : Pool α) : Option Handle :=
  (p.vacancy?.or (if p.atLimit then none else some ⟨p.slabCount, 0⟩)).map p.handle

/-- Pools with the same room give out the same handle next. -/
theorem SameRoom.nextHandle?_eq {p q : Pool α} {taken taken' : Place → Prop} (same : SameRoom p q)
    (tidy : p.Tidy taken) (tidy' : q.Tidy taken') : q.nextHandle? = p.nextHandle? := by
  rw [nextHandle?, same.vacancy?_eq tidy tidy', same.atLimit_eq, same.slabs, same.handle_eq,
    nextHandle?]

/-- Destroy these values one after the other; no code runs inside their drops. -/
def Program.discard (handles : List Handle) : Program α :=
  handles.foldr (fun h rest => .destroy h .done rest) .done

/-- These values are gone, and their slots have been given back. -/
structure Vacated (gone : List Handle) (a b : Host α (Book α)) : Prop where
  codec : b.pool.codec = a.pool.codec
  slabs : b.pool.slabCount = a.pool.slabCount
  occupied : ∀ site, site ∈ b.pool.occupied ↔ site ∈ a.pool.occupied ∧
    ∀ h ∈ gone, h ∈ a.state.handles → a.pool.place h ≠ site
  handles : b.state.handles = a.state.handles.filter (· ∉ gone)

namespace Vacated

variable {a b c : Host α (Book α)} {gone gone' : List Handle} {h : Handle}

theorem refl (a : Host α (Book α)) : Vacated [] a a where
  codec := rfl
  slabs := rfl
  occupied site := by simp
  handles := by simp

/-- A handle that cannot be used does not count. -/
theorem of_not_mem (hGone : h ∉ a.state.handles) : Vacated [h] a a where
  codec := rfl
  slabs := rfl
  occupied site := by simp [hGone]
  handles := by
    rw [eq_comm, List.filter_eq_self]
    rintro other hOther
    have hNe : other ≠ h := fun hEq => hGone (hEq ▸ hOther)
    simpa using hNe

theorem cons (head : Vacated [h] a b) (tail : Vacated gone b c) : Vacated (h :: gone) a c where
  codec := tail.codec.trans head.codec
  slabs := tail.slabs.trans head.slabs
  occupied site := by
    have hPlace : b.pool.place = a.pool.place := by
      funext other
      rw [place, head.codec, place]
    rw [tail.occupied, head.occupied, head.handles, hPlace]
    constructor
    · rintro ⟨⟨hSite, hHead⟩, hTail⟩
      refine ⟨hSite, fun other hOther hMem => ?_⟩
      by_cases hEq : other = h
      · exact hHead other (List.mem_singleton.mpr hEq) hMem
      · exact hTail other ((List.mem_cons.mp hOther).resolve_left hEq)
          (List.mem_filter.mpr ⟨hMem, by simpa using hEq⟩)
    · rintro ⟨hSite, hAll⟩
      refine ⟨⟨hSite, fun other hOther => ?_⟩, fun other hOther hMem => ?_⟩
      · exact hAll other (List.mem_cons.mpr (Or.inl (List.mem_singleton.mp hOther)))
      · exact hAll other (List.mem_cons_of_mem _ hOther) (List.mem_filter.mp hMem).1
  handles := by
    rw [tail.handles, head.handles, List.filter_filter]
    apply List.filter_congr
    intro other _
    simp [Bool.and_comm]

/-- The order does not matter. -/
theorem alike (vacated : Vacated gone a b) (vacated' : Vacated gone' a c)
    (hSame : gone.Perm gone') : Alike b c where
  room := {
    codec := vacated'.codec.trans vacated.codec.symm
    slabs := vacated'.slabs.trans vacated.slabs.symm
    occupied := fun site => by
      rw [vacated'.occupied, vacated.occupied]
      simp only [hSame.mem_iff] }
  handles := by
    rw [vacated'.handles, vacated.handles]
    apply List.filter_congr
    intro other _
    simp only [hSame.mem_iff]

end Vacated

variable [Stored α] {m₀ : Moment α} {env₀ : Environment} {a : Usage α} {claims : List Place}
  {closing : List (Holding α)} {r : Holding α}

/-- A pool may be used on from where a view was taken. -/
theorem Follows.resumed (follows : Follows m₀ env₀ claims closing a) :
    Follows m₀ env₀ claims a.state.book.closing (Usage.resume a.now) := by
  have reached : Reaches m₀ env₀ ⟨a.now.pool, a.now.state, claims⟩ a.now.env := follows.reached
  exact reached.resumed

/-- No drop ends in a fault while this program runs. -/
def Program.Quiet (program : Program α) (w : Usage α) : Prop := (program.run w).spoiled ≤ w.spoiled

instance (program : Program α) (w : Usage α) : Decidable (program.Quiet w) :=
  inferInstanceAs (Decidable (_ ≤ _))

/-- No handle is in the book twice. -/
theorem Moment.Fits.nodup_handles {m : Moment α} (fits : m.Fits) : m.book.handles.Nodup := by
  have hPlaces := fits.nodup_places
  rw [← Function.comp_def m.pool.place Holding.handle, ← List.map_map] at hPlaces
  exact hPlaces.of_map

/-- What a construction returns depends only on the room of the pool. -/
theorem Follows.toOption_made (follows : Follows m₀ env₀ claims closing a) (fits₀ : m₀.Fits)
    (v : α) (growing building : Program α) (same : SameRoom a.pool (growing.run a).pool) :
    (a.make v growing.run building.run none).1.made.toOption = a.pool.nextHandle? := by
  have housed : a.pool.Housed (a.moment claims).seats := (follows.fits fits₀).housed
  have tidy := follows.tidy fits₀
  rw [nextHandle?]
  cases hVacancy : a.pool.vacancy? with
  | some site =>
      have gets : Gets a v growing site _ :=
        follows.gets fits₀ (Host.acquire_of_vacancy _ housed hVacancy) rfl
          fun other => tidy.mem_occupied_unlink (offers_vacancy hVacancy)
      rw [gets.made]
      rfl
  | none =>
      have hFull := tidy.vacancy?_eq_none_iff.mp hVacancy
      cases hLimit : a.pool.atLimit with
      | true =>
          rw [(Usage.refuses growing building none hVacancy hLimit).made]
          rfl
      | false =>
          have hRoom := Nat.lt_of_not_le (of_decide_eq_false hLimit)
          rw [((follows.firstFit fits₀ v growing).grows hFull hRoom same).made]
          rfl

/-- A destruction in whose drop nothing is run gives the slot back and does nothing else. -/
theorem Follows.vacated (follows : Follows m₀ env₀ claims closing a) (fits₀ : m₀.Fits)
    (hFind : a.state.book.find? r.handle = some r)
    (hQuiet : (a.destroy r Program.done.run).spoiled ≤ a.spoiled) :
    Vacated [r.handle] a.now (a.destroy r Program.done.run).now := by
  obtain ⟨inside, -, hDestroy⟩ := follows.destroy_of_quiet fits₀ hFind .done rfl hQuiet
  have hPool : (a.inside r Program.done.run).pool =
      a.pool.update (a.pool.place r.handle) Slot.retire := by
    rw [Usage.inside]
    split <;> rfl
  have hBook : (a.inside r Program.done.run).state.book = a.state.book.close r := by
    rw [Usage.inside]
    split <;> rfl
  have tidy := follows.tidy fits₀
  have hTaken : ∃ s ∈ a.state.book.held, a.pool.place s.handle = a.pool.place r.handle :=
    ⟨r, Book.mem_held hFind, rfl⟩
  have hHandle : r.handle ∈ a.state.book.handles := Book.mem_handles.mpr ⟨r, hFind⟩
  have hPlace : (a.inside r Program.done.run).pool.place = a.pool.place := by
    rw [hPool]
    rfl
  rw [hDestroy, hPlace, hPool]
  constructor
  case codec => rfl
  case slabs => exact (slabCount_reclaim ..).trans (slabCount_update ..)
  case occupied =>
    intro site
    have retired := tidy.update (Or.inr hTaken) Slot.retire
    refine (retired.mem_occupied_reclaim (Or.inr hTaken)).trans ?_
    rw [tidy.mem_occupied_update (Or.inr hTaken)]
    refine and_congr_right fun _ => ?_
    simp only [List.mem_singleton, forall_eq]
    exact ⟨fun hNe _ hEq => hNe hEq.symm, fun hNe hEq => hNe hHandle hEq.symm⟩
  case handles =>
    have hErased : (a.inside r Program.done.run).state.book.settle.handles =
        a.state.book.handles.erase r.handle := by
      rw [hBook]
      exact a.state.book.handles_without r.handle
    have hNodup : a.state.book.handles.Nodup := (follows.fits fits₀).nodup_handles
    refine hErased.trans ?_
    rw [hNodup.erase_eq_filter]
    apply List.filter_congr
    intro other _
    by_cases hEq : other = r.handle <;> simp [hEq]

/-- One destruction after the other. -/
theorem Program.vacated (fits₀ : m₀.Fits) (handles : List Handle)
    (follows : Follows m₀ env₀ claims closing a) (hQuiet : (discard handles).Quiet a) :
    Vacated handles a.now ((discard handles).run a).now := by
  induction handles generalizing a with
  | nil => exact Vacated.refl _
  | cons h rest ih =>
      have hStep : (discard (h :: rest)).run a =
          (discard rest).run (a.look.through h (Usage.destroy · Program.done.run)) := rfl
      rw [Quiet, hStep] at hQuiet
      rw [hStep]
      cases hFind : a.look.state.book.find? h with
      | none =>
          have hThrough : a.look.through h (Usage.destroy · Program.done.run) = a.look := by
            simp only [Usage.through, hFind]
          rw [hThrough] at hQuiet ⊢
          have hGone : h ∉ a.now.state.handles := by
            rintro hMem
            obtain ⟨r, hSome⟩ := Book.mem_handles.mp hMem
            cases hFind.symm.trans hSome
          exact (Vacated.of_not_mem hGone).cons (ih follows.look hQuiet)
      | some r =>
          obtain ⟨rfl, -⟩ := Book.contents_perm hFind
          have hThrough : a.look.through r.handle (Usage.destroy · Program.done.run) =
              a.look.destroy r Program.done.run := by
            simp only [Usage.through, hFind]
          rw [hThrough] at hQuiet ⊢
          have hMore := Usage.spoiled_destroy (w := a.look) (r := r) Program.done.spoiled_le
          have head := follows.look.vacated fits₀ hFind (((discard rest).spoiled_le _).trans hQuiet)
          exact head.cons (ih (follows.look.destroy fits₀ hFind fun _ => Program.done.follows fits₀)
            (hQuiet.trans hMore))

/-- When a value has been destroyed, there is a slot for the next construction. -/
theorem Follows.made_of_destroy (follows : Follows m₀ env₀ claims closing a) (fits₀ : m₀.Fits)
    (hFind : a.state.book.find? r.handle = some r) (dropping : Program α)
    (hQuiet : (a.destroy r dropping.run).spoiled ≤ a.spoiled) (v : α)
    (growing building : Program α) : ∃ handle,
    ((a.destroy r dropping.run).make v growing.run building.run none).1.made = .ok handle := by
  obtain ⟨inside, -, hDestroy⟩ := follows.destroy_of_quiet fits₀ hFind dropping rfl hQuiet
  have destroyed : Follows m₀ env₀ claims closing (a.destroy r dropping.run) :=
    follows.destroy fits₀ hFind fun _ => dropping.follows fits₀
  have tidy := inside.tidy fits₀
  have hHeld := Book.mem_held_of_closing inside.closing
  generalize a.inside r dropping.run = u at hDestroy tidy hHeld
  let site := u.pool.place r.handle
  have hTaken : ∃ s ∈ u.state.book.held, u.pool.place s.handle = site := ⟨r, hHeld, rfl⟩
  have hPool : (a.destroy r dropping.run).pool = u.pool.recycled site := by rw [hDestroy]; rfl
  have hVacant : site ∈ (a.destroy r dropping.run).pool.vacant := by
    have tidy' := destroyed.tidy fits₀
    rw [tidy'.mem_vacant_iff, ← tidy'.mem_occupied_iff, hPool]
    constructor
    · have hWithin := tidy.within site (Or.inr hTaken)
      exact mem_places.mpr ⟨hWithin.1.trans_eq (slabCount_reclaim ..).symm, hWithin.2⟩
    · exact fun hMem => ((tidy.mem_occupied_reclaim (Or.inr hTaken)).mp hMem).2 rfl
  obtain ⟨first, -, -, gets⟩ :=
    (destroyed.firstFit fits₀ v growing).vacant (List.ne_nil_of_mem hVacant)
  exact ⟨_, gets.made building⟩

/-- Whatever runs next: at every point there are the same handles and there is the same room, as long
as no drop ends in a fault. -/
def Interchangeable (a b : Host α (Book α)) : Prop :=
  ∀ next : Program α, next.Quiet (Usage.resume a) → next.Quiet (Usage.resume b) →
    List.Forall₂ Alike (next.run (Usage.resume a)).state.views
      (next.run (Usage.resume b)).state.views

/-- The constructions that can follow. -/
structure Reuses (p : Pool α) (view : Host α (Book α)) : Prop where
  fit : ∀ v growing, FirstFit (Usage.resume view) v growing
  full_iff : view.pool.vacant = [] ∧ view.pool.codec.maxSlabs.toNat ≤ view.pool.slabCount ↔
    view.pool.live.toNat + view.state.inits =
      view.pool.codec.maxSlabs.toNat * view.pool.slabCapacity
  /-- With the same room another history leads to the same handle. -/
  made : ∀ env (program : Program α), ∀ other ∈ (program.run (Usage.start p env)).state.views,
    SameRoom view.pool other.pool → ∀ v v' (growing growing' building building' : Program α),
    SameRoom view.pool (growing.run (Usage.resume view)).pool →
    SameRoom other.pool (growing'.run (Usage.resume other)).pool →
    ((Usage.resume other).make v' growing'.run building'.run none).1.made.toOption =
      ((Usage.resume view).make v growing.run building.run none).1.made.toOption
  /-- With the same handles as well it leads to the same handles ever after. -/
  later : ∀ env (program : Program α), ∀ other ∈ (program.run (Usage.start p env)).state.views,
    Alike view other → Interchangeable view other
  orders : ∀ gone gone' : List Handle, gone.Perm gone' →
    (Program.discard gone).Quiet (Usage.resume view) →
    (Program.discard gone').Quiet (Usage.resume view) →
    Interchangeable ((Program.discard gone).run (Usage.resume view)).now
      ((Program.discard gone').run (Usage.resume view)).now
  succeeds : ∀ r ∈ view.state.contents, ∀ dropping : Program α,
    ((Usage.resume view).destroy r dropping.run).spoiled ≤ (Usage.resume view).spoiled →
    ∀ v (growing building : Program α), ∃ handle, (((Usage.resume view).destroy r
      dropping.run).make v growing.run building.run none).1.made = .ok handle

/-- Whatever has run, in whatever nesting: which slot a construction gets depends only on which slots
are occupied and on the number of slabs. It is the vacant slot with the smallest handle, or else the
first one of a new slab; there is none exactly if all slots that the pool may have are taken by
values and by constructions under way. -/
theorem Program.reuses {o : PoolOptions} {p : Pool α} (h : Pool.create o = .ok p)
    (env : Environment) (program : Program α) :
    ∀ view ∈ (program.run (Usage.start p env)).state.views, Reuses p view := by
  intro view hView
  have fits₀ := Moment.fits_initial (α := α) h
  obtain ⟨claims, reached⟩ := (program.follows_initial h env).views view hView
  have resumed := reached.resumed
  have fits : (⟨view.pool, view.state, claims⟩ : Moment α).Fits := resumed.fits fits₀
  constructor
  case fit => exact fun v growing => resumed.firstFit fits₀ v growing
  case full_iff => exact fits.full_iff
  case made =>
    intro env' program' other hOther same v v' growing growing' building building' kept kept'
    obtain ⟨claims', reached'⟩ := (program'.follows_initial h env').views other hOther
    have resumed' := reached'.resumed
    rw [resumed.toOption_made fits₀ v growing building kept,
      resumed'.toOption_made fits₀ v' growing' building' kept']
    exact same.nextHandle?_eq (resumed.tidy fits₀) (resumed'.tidy fits₀)
  case later =>
    intro env' program' other hOther alike next hQuiet hQuiet'
    obtain ⟨claims', reached'⟩ := (program'.follows_initial h env').views other hOther
    have begun : Alongside (Usage.resume view) (Usage.resume other) := ⟨alike, .nil⟩
    exact (next.alongside fits₀ fits₀ resumed reached'.resumed begun hQuiet hQuiet').views
  case orders =>
    intro gone gone' hSame hQuiet hQuiet' next hNext hNext'
    have first := ((Program.discard gone).follows fits₀ resumed).resumed
    have second := ((Program.discard gone').follows fits₀ resumed).resumed
    have alike := (Program.vacated fits₀ gone resumed hQuiet).alike
      (Program.vacated fits₀ gone' resumed hQuiet') hSame
    exact (next.alongside fits₀ fits₀ first second ⟨alike, .nil⟩ hNext hNext').views
  case succeeds =>
    intro r hr dropping hQuiet
    exact resumed.made_of_destroy fits₀ (fits.find?_eq hr) dropping hQuiet

/-- Three values are put into the pool. -/
def Program.three : Program UInt8 :=
  .construct 1 .done .done none (.construct 2 .done .done none (.construct 3 .done .done none .done))

/-- Two values are put into the pool. -/
def Program.two : Program UInt8 :=
  .construct 4 .done .done none (.construct 5 .done .done none .done)

/-- The first and the third of three values leave, in either order. The slots of the next values are
those of the first and the third one, in this order. -/
theorem Program.reuses_three : ∃ view ∈ (three.run (Usage.start (pair UInt8) untouched)).state.views,
    ∃ a b : Host UInt8 (Book UInt8),
      ((discard [⟨0⟩, ⟨2⟩]).run (Usage.resume view)).now = a ∧
      ((discard [⟨2⟩, ⟨0⟩]).run (Usage.resume view)).now = b ∧
      (two.run (Usage.resume a)).state.book.handles = [⟨1⟩, ⟨0⟩, ⟨2⟩] ∧
      List.Forall₂ Alike (two.run (Usage.resume a)).state.views
        (two.run (Usage.resume b)).state.views := by
  let w := three.run (Usage.start (pair UInt8) untouched)
  have hView : w.now ∈ w.state.views := List.mem_append_right _ List.mem_cons_self
  have reuses := Program.reuses create_pair untouched three w.now hView
  have hViews := reuses.orders [⟨0⟩, ⟨2⟩] [⟨2⟩, ⟨0⟩] (List.Perm.swap ..) (by decide +kernel)
    (by decide +kernel) two (by decide +kernel) (by decide +kernel)
  exact ⟨w.now, hView, _, _, rfl, rfl, by decide +kernel, hViews⟩

end TaskMemory.Pool
