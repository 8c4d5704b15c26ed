import Mathlib.Data.List.Forall2
import TaskMemory.Proofs.Pool.Acquisition
import TaskMemory.Proofs.Pool.Awaiting
import TaskMemory.Proofs.Pool.Refinement

/-!
Two runs of a program side by side. In the second one a value is already in the slot that is only
claimed in the first one. A program that does not use the handle of that value cannot tell this: it
is given the same answers, and its pools and books differ by the value at all times.
-/
namespace TaskMemory.Pool

variable {α : Type}

/-- No operation of the program uses this handle. -/
def Program.Avoids (h : Handle) : Program α → Prop
  | .done => True
  | .construct _ growing building _ rest => growing.Avoids h ∧ building.Avoids h ∧ rest.Avoids h
  | .get target rest | .edit target _ rest | .take target rest => target ≠ h ∧ rest.Avoids h
  | .destroy target dropping rest => target ≠ h ∧ dropping.Avoids h ∧ rest.Avoids h

variable [Stored α]

/-- The number of the drops that have ended in a fault. -/
def Usage.spoiled (w : Usage α) : Nat := w.state.book.spent.length

section Spoiling

variable {w : Usage α} {growing building dropping : Usage α → Usage α} {r : Holding α}

/-- A construction leaves a trace of every drop that has broken off in its callbacks. -/
theorem Usage.spoiled_construct (hGrowing : ∀ w : Usage α, w.spoiled ≤ (growing w).spoiled)
    (hBuilding : ∀ w : Usage α, w.spoiled ≤ (building w).spoiled) (v : α)
    (failure : Option Fault) : w.spoiled ≤ (w.construct v growing building failure).spoiled := by
  have hState := Host.construct_state (P := fun state : Journal α =>
      w.spoiled ≤ state.book.spent.length) (w := w) (fun w => ((), growing w))
    (fun w => ((), record Book.leave (building (record Book.enter w))))
    (fun u hLe => hLe.trans (hGrowing u)) (fun u hLe => hLe.trans (hBuilding (record Book.enter u)))
    v failure (Nat.le_refl _)
  rw [construct]
  split
  · next hOutcome =>
      rw [hOutcome] at hState
      exact hState
  · next hOutcome =>
      rw [hOutcome] at hState
      exact hState

/-- A destruction may add its own drop to those that have broken off. -/
theorem Usage.spoiled_destroy (hDropping : ∀ w : Usage α, w.spoiled ≤ (dropping w).spoiled) :
    w.spoiled ≤ (w.destroy r dropping).spoiled := by
  have hState := Host.destroy_state (P := fun state : Journal α =>
      w.spoiled ≤ state.book.spent.length) (w := w.close r) (fun w => ((), dropping w))
    (fun u hLe => hLe.trans (hDropping u)) r.handle (Nat.le_refl _)
  rw [destroy]
  split
  · next hOutcome =>
      rw [hOutcome] at hState
      exact hState
  · next u hOutcome =>
      rw [hOutcome] at hState
      have hMore : (record (·.spoil (leftover r u)) u).spoiled = Usage.spoiled u + 1 :=
        List.length_append
      rw [hMore]
      exact hState.trans (Nat.le_succ _)

theorem Usage.spoiled_take : (w.take r).spoiled = w.spoiled := by
  have hState := Host.take_state r.handle w
  exact congrArg (·.book.spent.length) hState

theorem Usage.spoiled_edit (change : α → α) : (w.edit r change).spoiled = w.spoiled := by
  rw [edit]
  split <;> rfl

omit [Stored α] in
/-- Whatever is done through a handle, drops that have broken off are not forgotten. -/
theorem Usage.spoiled_through {h : Handle} {work : Holding α → Usage α → Usage α}
    (hWork : ∀ r, w.spoiled ≤ (work r w).spoiled) : w.spoiled ≤ (w.through h work).spoiled := by
  rw [through]
  split
  · exact hWork _
  · exact Nat.le_refl _

/-- Drops that have ended in a fault stay counted. -/
theorem Program.spoiled_le (program : Program α) (w : Usage α) :
    w.spoiled ≤ (program.run w).spoiled := by
  induction program generalizing w with
  | done => exact Nat.le_refl _
  | construct v growing building failure rest ihGrowing ihBuilding ihRest =>
      exact (Usage.spoiled_construct (w := w.look) ihGrowing ihBuilding v failure).trans (ihRest _)
  | get h rest ih =>
      exact (Usage.spoiled_through (w := w.look) fun _ => Nat.le_refl _).trans (ih _)
  | edit h change rest ih =>
      exact (Usage.spoiled_through (w := w.look) fun _ =>
        (Usage.spoiled_edit change).ge).trans (ih _)
  | destroy h dropping rest ihDropping ihRest =>
      exact (Usage.spoiled_through (w := w.look) fun _ =>
        Usage.spoiled_destroy ihDropping).trans (ihRest _)
  | take h rest ih =>
      exact (Usage.spoiled_through (w := w.look) fun _ => Usage.spoiled_take.ge).trans (ih _)

end Spoiling

/-- Construct a value as a program does, with what the construction returns. -/
def Usage.make (v : α) (growing building : Usage α → Usage α) (failure : Option Fault)
    (w : Usage α) : Construction Unit Unit × Usage α :=
  match Host.construct v (fun w => ((), growing w))
      (fun w => ((), record Book.leave (building (record Book.enter w)))) failure w with
  | (done, w) => (done, match done.made with
    | .ok h => record (·.lodge h v) w
    | .error _ => record (·.refuse v) w)

section Making

variable {v : α} {growing building : Usage α → Usage α} {failure : Option Fault} {w u : Usage α}
  {site : Place} {seen : Option Unit}

/-- To make a value is to construct it and to look at the outcome. -/
theorem Usage.snd_make :
    (w.make v growing building failure).2 = w.construct v growing building failure := by
  rw [make, construct]
  rcases Host.construct v (fun w => ((), growing w))
    (fun w => ((), record Book.leave (building (record Book.enter w)))) failure w with
    ⟨⟨_ | h, seen, built⟩, u⟩
  · rfl
  · rfl

/-- The value is built in the slot of the construction. -/
theorem Usage.make_of_slot
    (h : Host.acquire (fun w => ((), growing w)) w = (.ok site, seen, u)) :
    w.make v growing building none =
      (⟨.ok ((building (record Book.enter u)).pool.handle site), seen, some ()⟩,
        record (fun b => b.leave.lodge ((building (record Book.enter u)).pool.handle site) v)
          { building (record Book.enter u) with
            pool := (building (record Book.enter u)).pool.publish site v
            env := (building (record Book.enter u)).env.raise (.constructed site.slab.toUInt32
              site.offset.toUInt32 ((building (record Book.enter u)).pool.handle site)) }) := by
  simp only [make, Host.construct, h]
  rfl

/-- The code that builds the value breaks off, and the slot of the construction is given back. -/
theorem Usage.make_of_fault {fault : Fault}
    (h : Host.acquire (fun w => ((), growing w)) w = (.ok site, seen, u)) :
    w.make v growing building (some fault) =
      (⟨.error (.fault fault), seen, some ()⟩,
        record (fun b => b.leave.refuse v)
          { building (record Book.enter u) with
            pool := (building (record Book.enter u)).pool.reclaim site
            env := (Stored.drop true v (building (record Book.enter u)).env).2.2 }) := by
  simp only [make, Host.construct, h]
  rfl

/-- There is no slot, so the code that builds the value does not run. -/
theorem Usage.make_of_refusal {refusal : Refusal}
    (h : Host.acquire (fun w => ((), growing w)) w = (.error refusal, seen, u)) :
    ∃ last env, ∀ building failure, w.make v growing building failure =
      (⟨.error last, seen, none⟩, record (·.refuse v) { u with env }) := by
  simp only [make, Host.construct, h]
  rcases Stored.drop refusal.isFault v u.env with ⟨_ | fault, rest, env⟩
  · exact ⟨_, _, fun _ _ => rfl⟩
  · exact ⟨_, _, fun _ _ => rfl⟩

/-- With a slot, what has broken off did so while the value was built. -/
theorem Usage.spoiled_of_slot
    (h : Host.acquire (fun w => ((), growing w)) w = (.ok site, seen, u)) :
    (w.construct v growing building failure).spoiled =
      (building (record Book.enter u)).spoiled := by
  rw [← snd_make]
  cases failure with
  | none => rw [make_of_slot h]; rfl
  | some fault => rw [make_of_fault h]; rfl

/-- Without a slot, what has broken off did so while the pool grew. -/
theorem Usage.spoiled_of_refusal {refusal : Refusal}
    (h : Host.acquire (fun w => ((), growing w)) w = (.error refusal, seen, u)) :
    (w.construct v growing building failure).spoiled = u.spoiled := by
  obtain ⟨last, env, hMake⟩ := make_of_refusal (v := v) h
  rw [← snd_make, hMake]
  rfl

/-- As many drops have ended in a fault when the slot has been claimed as before, if they still are
at the end of the construction. -/
theorem Usage.spoiled_acquire (growing building : Program α)
    (hQuiet : (w.construct v growing.run building.run failure).spoiled ≤ w.spoiled) :
    Usage.spoiled (Host.acquire (fun w => ((), growing.run w)) w).2.2 = w.spoiled := by
  have hMore : w.spoiled ≤ Usage.spoiled (Host.acquire (fun w => ((), growing.run w)) w).2.2 :=
    Host.acquire_state (P := fun state : Journal α => w.spoiled ≤ state.book.spent.length)
      (fun u hLe => hLe.trans (growing.spoiled_le u)) (Nat.le_refl _)
  rcases hAcquire : Host.acquire (fun w => ((), growing.run w)) w with ⟨refusal | site, seen, u⟩
  · rw [hAcquire] at hMore
    rw [spoiled_of_refusal hAcquire] at hQuiet
    exact Nat.le_antisymm hQuiet hMore
  · rw [hAcquire] at hMore
    rw [spoiled_of_slot hAcquire] at hQuiet
    exact Nat.le_antisymm ((building.spoiled_le (record Book.enter u)).trans hQuiet) hMore

end Making

/-- A pool with its book, at the present moment. -/
def Usage.now (w : Usage α) : Host α (Book α) := ⟨w.pool, w.env, w.state.book⟩

/-- Two runs have seen the same but for the value, and have been given the same answers. -/
structure Abreast (x : Lodging α) (a b : Usage α) : Prop where
  now : Beside x a.now b.now
  views : List.Forall₂ (Beside x) a.state.views b.state.views
  replies : b.state.replies = a.state.replies

variable {m₀ : Moment α} {env₀ : Environment} {x : Lodging α} {a b : Usage α}
  {claims claims' : List Place} {closing closing' : List (Holding α)} {r r' : Holding α}
  {site : Place}

/-- A value that the book tells of does not have a slot that is claimed. -/
theorem Follows.place_ne (follows : Follows m₀ env₀ claims closing a) (fits₀ : m₀.Fits)
    (hSite : site ∈ claims) (hHeld : r ∈ a.state.book.held) : a.pool.place r.handle ≠ site := by
  have hDistinct := (follows.fits fits₀).housed.distinct
  rw [Moment.sites_eq, List.nodup_append] at hDistinct
  exact (hDistinct.2.2 site hSite _ (List.mem_map_of_mem hHeld)).symm

/-- Slots are taken by those whom the book and the constructions under way name. -/
theorem Follows.tidy (follows : Follows m₀ env₀ claims closing a) (fits₀ : m₀.Fits) :
    a.pool.Tidy fun site =>
      site ∈ claims ∨ ∃ r ∈ a.state.book.held, a.pool.place r.handle = site :=
  (follows.fits fits₀).housed.tidy.congr fun site => (a.moment claims).mem_sites_iff site

omit [Stored α] in
theorem Book.mem_held {b : Book α} (hFind : b.find? r.handle = some r) : r ∈ b.held :=
  List.mem_append_left _ (List.mem_append_left _ (List.mem_of_find?_eq_some hFind))

omit [Stored α] in
/-- What is about to be dropped is held until it is gone. -/
theorem Book.mem_held_of_closing {b : Book α} (h : b.closing = r :: closing) : r ∈ b.held :=
  List.mem_append_left _ (List.mem_append_right _ (h ▸ List.mem_cons_self))

/-- A destruction whose drop does not end in a fault gives the slot back. -/
theorem Follows.destroy_of_quiet (follows : Follows m₀ env₀ claims closing a) (fits₀ : m₀.Fits)
    (hFind : a.state.book.find? r.handle = some r) (dropping : Program α) {u : Usage α}
    (hInside : a.inside r dropping.run = u)
    (hQuiet : (a.destroy r dropping.run).spoiled ≤ a.spoiled) :
    Follows m₀ env₀ claims (r :: closing) u ∧ u.spoiled ≤ a.spoiled ∧
      a.destroy r dropping.run = Usage.record Book.settle
        { u with
          pool := u.pool.recycled (u.pool.place r.handle)
          env := (Stored.endDrop false r.value u.env).2.2 } := by
  have inside : Follows m₀ env₀ claims (r :: closing) u :=
    hInside ▸ follows.inside hFind fun _ => dropping.follows fits₀
  have hDestroy := follows.usage_destroy_eq fits₀ hFind hInside inside
  have hLe : a.spoiled ≤ u.spoiled := by
    rw [← hInside, Usage.inside]
    split
    · exact dropping.spoiled_le (a.begun r)
    · exact Nat.le_refl _
  rcases hEnd : Stored.endDrop false r.value u.env with ⟨_ | fault, rest, env⟩
  · rw [hEnd] at hDestroy
    rw [hDestroy] at hQuiet
    exact ⟨inside, hQuiet, hDestroy⟩
  · rw [hEnd] at hDestroy
    dsimp only at hDestroy
    rw [hDestroy] at hQuiet
    have hMore : (Usage.record (·.spoil { r with value := rest })
        { u with pool := u.pool.update (u.pool.place r.handle) (Slot.write rest), env }).spoiled =
        u.spoiled + 1 := List.length_append
    omega

namespace Abreast

theorem look (abreast : Abreast x a b) : Abreast x a.look b.look where
  now := abreast.now
  views := List.rel_append abreast.views (.cons abreast.now .nil)
  replies := abreast.replies

theorem note (abreast : Abreast x a b) (hSame : r'.entry = r.entry) :
    Abreast x (a.note r (.ok (some r.value))) (b.note r' (.ok (some r'.value))) where
  now := abreast.now
  views := abreast.views
  replies := by
    obtain ⟨hHandle, hValue⟩ := Prod.mk.inj hSame
    simp [Usage.note, abreast.replies, hHandle, hValue]

theorem place_eq (abreast : Abreast x a b) (hSame : r'.entry = r.entry) :
    b.pool.place r'.handle = a.pool.place r.handle :=
  (congrFun abreast.now.pool.place_eq r'.handle).trans
    (congrArg a.pool.place (congrArg Prod.fst hSame))

section Constructions

variable (abreast : Abreast x a b) (nested : Follows m₀ env₀ claims closing a)
  (hSite : x.site ∈ claims) (apart : Follows m₀ env₀ claims' closing' b) (fits₀ : m₀.Fits)

include abreast nested hSite apart fits₀

omit apart in
/-- To claim a slot means the same to both, since the value that one of them lacks is elsewhere. -/
theorem claim (hVacancy : a.pool.vacancy? = some site) :
    Abreast x { a with pool := a.pool.mapSlab site.slab Slab.unlink }
      { b with pool := b.pool.mapSlab site.slab Slab.unlink } where
  now := {
    pool := abreast.now.pool.unlink (nested.tidy fits₀) (Or.inl hSite) (offers_vacancy hVacancy)
    book := abreast.now.book }
  views := abreast.views
  replies := abreast.replies

/-- Both runs come to the same slot, or both do not come to one, after the block of a new slab has
been obtained. -/
theorem extend :
    match a.pool.extend a.env, b.pool.extend b.env with
    | (.ok site, p, env), (.ok site', q, env') =>
      site' = site ∧ Abreast x ⟨p, env, a.state⟩ ⟨q, env', b.state⟩
    | (.error _, p, env), (.error _, q, env') => Abreast x ⟨p, env, a.state⟩ ⟨q, env', b.state⟩
    | _, _ => False := by
  have housed : a.pool.Housed (a.moment claims).seats := (nested.fits fits₀).housed
  have housed' : b.pool.Housed (b.moment claims').seats := (apart.fits fits₀).housed
  have hSame : b.pool.vacancy? = a.pool.vacancy? := abreast.now.pool.vacancy?_eq
  cases hVacancy : a.pool.vacancy? with
  | some site =>
      have claimed := abreast.claim nested hSite fits₀ hVacancy
      rw [extend_of_vacancy housed hVacancy, extend_of_vacancy housed' (hSame.trans hVacancy)]
      exact ⟨rfl, ⟨claimed.now.pool, claimed.now.book⟩, claimed.views, claimed.replies⟩
  | none =>
      have hLimit : b.pool.atLimit = a.pool.atLimit := abreast.now.pool.atLimit_eq
      cases hAt : a.pool.atLimit with
      | true =>
          rw [extend_of_atLimit hVacancy hAt,
            extend_of_atLimit (hSame.trans hVacancy) (hLimit.trans hAt)]
          exact ⟨⟨abreast.now.pool, abreast.now.book⟩, abreast.views, abreast.replies⟩
      | false =>
          have hCount : b.pool.slabCount = a.pool.slabCount := abreast.now.pool.slabCount_eq
          rw [extend_of_room hVacancy hAt,
            extend_of_room (hSame.trans hVacancy) (hLimit.trans hAt), hCount]
          exact ⟨rfl, ⟨abreast.now.pool.append (nested.tidy fits₀) (Or.inl hSite),
            abreast.now.book⟩, abreast.views, abreast.replies⟩

/-- Both runs come to the same slot, or both do not come to one. -/
theorem acquire (growing : Program α)
    (hGrowing : (growing.run a).spoiled ≤ a.spoiled → (growing.run b).spoiled ≤ b.spoiled →
      Abreast x (growing.run a) (growing.run b))
    (hNested : Usage.spoiled (Host.acquire (fun w => ((), growing.run w)) a).2.2 ≤ a.spoiled)
    (hApart : Usage.spoiled (Host.acquire (fun w => ((), growing.run w)) b).2.2 ≤ b.spoiled) :
    match Host.acquire (fun w => ((), growing.run w)) a,
      Host.acquire (fun w => ((), growing.run w)) b with
    | (.ok site, _, a'), (.ok site', _, b') => site' = site ∧ Abreast x a' b'
    | (.error _, _, a'), (.error _, _, b') => Abreast x a' b'
    | _, _ => False := by
  have housed : a.pool.Housed (a.moment claims).seats := (nested.fits fits₀).housed
  have housed' : b.pool.Housed (b.moment claims').seats := (apart.fits fits₀).housed
  have hSame : b.pool.vacancy? = a.pool.vacancy? := abreast.now.pool.vacancy?_eq
  cases hVacancy : a.pool.vacancy? with
  | some site =>
      rw [Host.acquire_of_vacancy _ housed hVacancy,
        Host.acquire_of_vacancy _ housed' (hSame.trans hVacancy)]
      exact ⟨rfl, abreast.claim nested hSite fits₀ hVacancy⟩
  | none =>
      have hLimit : b.pool.atLimit = a.pool.atLimit := abreast.now.pool.atLimit_eq
      cases hAt : a.pool.atLimit with
      | true =>
          rw [Host.acquire_of_atLimit _ hVacancy hAt,
            Host.acquire_of_atLimit _ (hSame.trans hVacancy) (hLimit.trans hAt)]
          exact ⟨⟨abreast.now.pool, abreast.now.book⟩, abreast.views, abreast.replies⟩
      | false =>
          have hA := Host.acquire_of_room (fun w => ((), growing.run w)) hVacancy hAt rfl
          have hB := Host.acquire_of_room (fun w => ((), growing.run w))
            (hSame.trans hVacancy) (hLimit.trans hAt) rfl
          rw [hA] at hNested ⊢
          rw [hB] at hApart ⊢
          have extended := (hGrowing hNested hApart).extend (growing.follows fits₀ nested) hSite
            (growing.follows fits₀ apart) fits₀
          rcases hA : (growing.run a).pool.extend (growing.run a).env with
            ⟨_ | site, p, env⟩ <;>
          rcases hB : (growing.run b).pool.extend (growing.run b).env with
            ⟨_ | site', q, env'⟩ <;>
            rw [hA, hB] at extended <;> exact extended

/-- A construction goes the same way in both if its callbacks do. -/
theorem construct (growing building : Program α) (v : α) (failure : Option Fault)
    (hGrowing : (growing.run a).spoiled ≤ a.spoiled → (growing.run b).spoiled ≤ b.spoiled →
      Abreast x (growing.run a) (growing.run b))
    (hBuilding : ∀ site a b, Follows m₀ env₀ (site :: claims) closing a →
      Follows m₀ env₀ (site :: claims') closing' b → Abreast x a b →
      (building.run a).spoiled ≤ a.spoiled → (building.run b).spoiled ≤ b.spoiled →
      Abreast x (building.run a) (building.run b))
    (hNested : (a.construct v growing.run building.run failure).spoiled ≤ a.spoiled)
    (hApart : (b.construct v growing.run building.run failure).spoiled ≤ b.spoiled) :
    Abreast x (a.construct v growing.run building.run failure)
      (b.construct v growing.run building.run failure) := by
  have hQuiet := Usage.spoiled_acquire growing building hNested
  have hQuiet' := Usage.spoiled_acquire growing building hApart
  have acquired := abreast.acquire nested hSite apart fits₀ growing hGrowing hQuiet.le hQuiet'.le
  have claimed := nested.acquire fits₀ fun _ => growing.follows fits₀
  have claimed' := apart.acquire fits₀ fun _ => growing.follows fits₀
  rcases hA : Host.acquire (fun w => ((), growing.run w)) a with ⟨refusal | site, seen, a'⟩
  · rcases hB : Host.acquire (fun w => ((), growing.run w)) b with ⟨refusal' | site', seen', b'⟩
    · rw [hA, hB] at acquired
      obtain ⟨_, _, hMake⟩ := Usage.make_of_refusal (v := v) hA
      obtain ⟨_, _, hMake'⟩ := Usage.make_of_refusal (v := v) hB
      rw [← Usage.snd_make, hMake, ← Usage.snd_make, hMake']
      exact ⟨⟨acquired.now.pool, acquired.now.book.refuse v⟩, acquired.views, acquired.replies⟩
    · rw [hA, hB] at acquired
      exact acquired.elim
  · rcases hB : Host.acquire (fun w => ((), growing.run w)) b with ⟨refusal' | site', seen', b'⟩
    · rw [hA, hB] at acquired
      exact acquired.elim
    · rw [hA, hB] at acquired
      obtain ⟨rfl, acquired⟩ := acquired
      rw [hA] at hQuiet claimed
      rw [hB] at hQuiet' claimed'
      rw [Usage.spoiled_of_slot hA, ← hQuiet] at hNested
      rw [Usage.spoiled_of_slot hB, ← hQuiet'] at hApart
      have entered : Abreast x (Usage.record Book.enter a') (Usage.record Book.enter b') :=
        ⟨⟨acquired.now.pool, acquired.now.book.enter⟩, acquired.views, acquired.replies⟩
      have built := hBuilding _ _ _ claimed claimed' entered hNested hApart
      have nested' := building.follows fits₀ claimed
      have hTaken : x.site ∈ site' :: claims := List.mem_cons_of_mem _ hSite
      have hNe : site' ≠ x.site := by
        have hDistinct := (nested'.fits fits₀).housed.distinct
        rw [Moment.sites_eq, List.nodup_append] at hDistinct
        rintro rfl
        exact (List.nodup_cons.mp hDistinct.1).1 hSite
      rw [← Usage.snd_make, ← Usage.snd_make]
      cases failure with
      | none =>
          have hHandle : (building.run (Usage.record Book.enter b')).pool.handle site' =
              (building.run (Usage.record Book.enter a')).pool.handle site' :=
            congrFun built.now.pool.handle_eq site'
          rw [Usage.make_of_slot hA, Usage.make_of_slot hB, hHandle]
          exact {
            now := {
              pool := built.now.pool.publish v hNe
              book := built.now.book.leave.lodge _ v }
            views := built.views
            replies := built.replies }
      | some fault =>
          rw [Usage.make_of_fault hA, Usage.make_of_fault hB]
          exact {
            now := {
              pool := built.now.pool.reclaim (nested'.tidy fits₀) (Or.inl hTaken)
                (Or.inl List.mem_cons_self) hNe
              book := built.now.book.leave.refuse v }
            views := built.views
            replies := built.replies }

end Constructions

section Operations

variable (abreast : Abreast x a b) (nested : Follows m₀ env₀ claims closing a)
  (hSite : x.site ∈ claims) (apart : Follows m₀ env₀ claims' closing' b) (fits₀ : m₀.Fits)

include abreast nested apart fits₀

/-- Work through a handle is work on the same value in both runs. -/
theorem through {h : Handle} (hNe : h ≠ x.handle) {work work' : Holding α → Usage α → Usage α}
    (hWork : ∀ r r', a.state.book.find? r.handle = some r → b.state.book.find? r'.handle = some r' →
      r'.entry = r.entry → a.through h work = work r a → b.through h work' = work' r' b →
      Abreast x (work r a) (work' r' b)) :
    Abreast x (a.through h work) (b.through h work') := by
  obtain ⟨hFind, hFind'⟩ | ⟨r, r', hFind, hFind', hSame⟩ := abreast.now.book.find?_cases
    (fun r => (nested.fits fits₀).find?_eq) (fun r => (apart.fits fits₀).find?_eq) hNe
  · have hA : a.state.book.find? h = none := hFind
    have hB : b.state.book.find? h = none := hFind'
    simpa only [Usage.through, hA, hB] using abreast
  · have hA : a.state.book.find? h = some r := hFind
    have hB : b.state.book.find? h = some r' := hFind'
    obtain ⟨hHandle, -⟩ := Book.contents_perm hA
    obtain ⟨hHandle', -⟩ := Book.contents_perm hB
    have hThrough : a.through h work = work r a := by simp only [Usage.through, hA]
    have hThrough' : b.through h work' = work' r' b := by simp only [Usage.through, hB]
    rw [hThrough, hThrough']
    exact hWork r r' (hHandle ▸ hA) (hHandle' ▸ hB) hSame hThrough hThrough'

variable (hFind : a.state.book.find? r.handle = some r)
  (hFind' : b.state.book.find? r'.handle = some r') (hSame : r'.entry = r.entry)

include hFind hFind' hSame

theorem get : Abreast x (a.get r) (b.get r') := by
  have hA := (nested.fits fits₀).get?_eq (List.mem_of_find?_eq_some hFind)
  have hB := (apart.fits fits₀).get?_eq (List.mem_of_find?_eq_some hFind')
  rw [Usage.get, hA, Usage.get, hB]
  exact abreast.note hSame

include hSite

theorem edit (change : α → α) : Abreast x (a.edit r change) (b.edit r' change) := by
  have hA := (nested.fits fits₀).get?_eq (List.mem_of_find?_eq_some hFind)
  have hB := (apart.fits fits₀).get?_eq (List.mem_of_find?_eq_some hFind')
  have hNe := nested.place_ne fits₀ hSite (Book.mem_held hFind)
  obtain ⟨hHandle, hValue⟩ := Prod.mk.inj hSame
  have hPlace := abreast.place_eq hSame
  have noted := abreast.note hSame
  simp only [Usage.edit, hA, hB, Host.set, hValue, hPlace]
  rw [hValue] at noted
  exact {
    now := {
      pool := abreast.now.pool.update _ hNe
      book := abreast.now.book.store hFind hFind' hSame _ }
    views := noted.views
    replies := noted.replies }

theorem take : Abreast x (a.take r) (b.take r') := by
  have hA := (nested.fits fits₀).take_eq (List.mem_of_find?_eq_some hFind)
  have hB := (apart.fits fits₀).take_eq (List.mem_of_find?_eq_some hFind')
  have hNe := nested.place_ne fits₀ hSite (Book.mem_held hFind)
  obtain ⟨hHandle, hValue⟩ := Prod.mk.inj hSame
  have hPlace := abreast.place_eq hSame
  have noted := abreast.note hSame
  have given := abreast.now.pool.recycled (nested.tidy fits₀) (Or.inl hSite)
    (Or.inr ⟨r, Book.mem_held hFind, rfl⟩) hNe
  simp only [Usage.take, hA, hB, hPlace]
  exact {
    now := {
      pool := given.update Slot.retire hNe
      book := abreast.now.book.handOut hFind hFind' hSame }
    views := noted.views
    replies := noted.replies }

omit apart in
theorem begun : Abreast x (a.begun r) (b.begun r') := by
  have hNe := nested.place_ne fits₀ hSite (Book.mem_held hFind)
  have hPlace := abreast.place_eq hSame
  simp only [Usage.begun, hPlace]
  exact {
    now := {
      pool := abreast.now.pool.update Slot.retire hNe
      book := abreast.now.book.close hFind hFind' hSame }
    views := abreast.views
    replies := abreast.replies }

/-- A destruction keeps both abreast if the code that runs inside the drop does. -/
theorem destroy (dropping : Program α)
    (hDropping : (dropping.run (a.begun r)).spoiled ≤ a.spoiled →
      (dropping.run (b.begun r')).spoiled ≤ b.spoiled →
      Abreast x (dropping.run (a.begun r)) (dropping.run (b.begun r')))
    (hNested : (a.destroy r dropping.run).spoiled ≤ a.spoiled)
    (hApart : (b.destroy r' dropping.run).spoiled ≤ b.spoiled) :
    Abreast x (a.destroy r dropping.run) (b.destroy r' dropping.run) := by
  have begun := abreast.begun nested hSite fits₀ hFind hFind' hSame
  obtain ⟨nested, hQuiet, hA⟩ := nested.destroy_of_quiet fits₀ hFind dropping rfl hNested
  obtain ⟨apart, hQuiet', hB⟩ := apart.destroy_of_quiet fits₀ hFind' dropping rfl hApart
  have inside : Abreast x (a.inside r dropping.run) (b.inside r' dropping.run) := by
    rw [Usage.inside] at hQuiet hQuiet'
    rw [Usage.inside, Usage.inside]
    split
    · next hCode =>
        rw [if_pos hCode] at hQuiet hQuiet'
        exact hDropping hQuiet hQuiet'
    · exact begun
  have hHeld := Book.mem_held_of_closing nested.closing
  have hNe := nested.place_ne fits₀ hSite hHeld
  rw [hA, hB, inside.place_eq hSame]
  exact {
    now := {
      pool := inside.now.pool.recycled (nested.tidy fits₀) (Or.inl hSite)
        (Or.inr ⟨r, hHeld, rfl⟩) hNe
      book := inside.now.book.settle }
    views := inside.views
    replies := inside.replies }

end Operations

end Abreast

/-- A program that does not use the new handle cannot tell whether the value is there already. By
induction on the program: what runs inside an operation is a part of it. -/
theorem Program.abreast (fits₀ : m₀.Fits) (program : Program α)
    (nested : Follows m₀ env₀ claims closing a) (hSite : x.site ∈ claims)
    (apart : Follows m₀ env₀ claims' closing' b) (abreast : Abreast x a b)
    (avoids : program.Avoids x.handle) (hNested : (program.run a).spoiled ≤ a.spoiled)
    (hApart : (program.run b).spoiled ≤ b.spoiled) :
    Abreast x (program.run a) (program.run b) := by
  induction program generalizing claims claims' closing closing' a b with
  | done => exact abreast.look
  | construct v growing building failure rest ihGrowing ihBuilding ihRest =>
      obtain ⟨hGrowing, hBuilding, hRest⟩ := avoids
      have hMore := Usage.spoiled_construct (w := a.look) growing.spoiled_le building.spoiled_le v
        failure
      have hMore' := Usage.spoiled_construct (w := b.look) growing.spoiled_le building.spoiled_le v
        failure
      have hQuiet := (rest.spoiled_le _).trans hNested
      have hQuiet' := (rest.spoiled_le _).trans hApart
      have constructed := abreast.look.construct nested.look hSite apart.look fits₀ growing building
        v failure (ihGrowing nested.look hSite apart.look abreast.look hGrowing)
        (fun site a b nested apart abreast => ihBuilding nested (List.mem_cons_of_mem _ hSite) apart
          abreast hBuilding) hQuiet hQuiet'
      exact ihRest
        (nested.look.construct fits₀ v failure (fun _ => growing.follows fits₀)
          fun _ _ => building.follows fits₀) hSite
        (apart.look.construct fits₀ v failure (fun _ => growing.follows fits₀)
          fun _ _ => building.follows fits₀)
        constructed hRest (hNested.trans hMore) (hApart.trans hMore')
  | get h rest ih =>
      have got := abreast.look.through nested.look apart.look fits₀ avoids.1
        fun r r' hFind hFind' hSame _ _ =>
          abreast.look.get nested.look apart.look fits₀ hFind hFind' hSame
      exact ih (nested.look.through h fun r hFind => nested.look.get fits₀ hFind) hSite
        (apart.look.through h fun r hFind => apart.look.get fits₀ hFind) got avoids.2
        (hNested.trans (Usage.spoiled_through (w := a.look) fun _ => Nat.le_refl _))
        (hApart.trans (Usage.spoiled_through (w := b.look) fun _ => Nat.le_refl _))
  | edit h change rest ih =>
      have edited := abreast.look.through nested.look apart.look fits₀ avoids.1
        fun r r' hFind hFind' hSame _ _ =>
          abreast.look.edit nested.look hSite apart.look fits₀ hFind hFind' hSame change
      exact ih (nested.look.through h fun r hFind => nested.look.edit fits₀ hFind change) hSite
        (apart.look.through h fun r hFind => apart.look.edit fits₀ hFind change) edited avoids.2
        (hNested.trans
          (Usage.spoiled_through (w := a.look) fun _ => (Usage.spoiled_edit change).ge))
        (hApart.trans
          (Usage.spoiled_through (w := b.look) fun _ => (Usage.spoiled_edit change).ge))
  | destroy h dropping rest ihDropping ihRest =>
      obtain ⟨hNe, hDropping, hRest⟩ := avoids
      have hMore := Usage.spoiled_through (w := a.look) (h := h) fun r =>
        Usage.spoiled_destroy (r := r) dropping.spoiled_le
      have hMore' := Usage.spoiled_through (w := b.look) (h := h) fun r =>
        Usage.spoiled_destroy (r := r) dropping.spoiled_le
      have hQuiet := (rest.spoiled_le _).trans hNested
      have hQuiet' := (rest.spoiled_le _).trans hApart
      have destroyed : Abreast x (a.look.through h (Usage.destroy · dropping.run))
          (b.look.through h (Usage.destroy · dropping.run)) :=
        abreast.look.through nested.look apart.look fits₀ hNe
          fun r r' hFind hFind' hSame hThrough hThrough' =>
          abreast.look.destroy nested.look hSite apart.look fits₀ hFind hFind' hSame dropping
            (ihDropping (nested.look.begun hFind) hSite (apart.look.begun hFind')
              (abreast.look.begun nested.look hSite fits₀ hFind hFind' hSame) hDropping)
            (hThrough ▸ hQuiet) (hThrough' ▸ hQuiet')
      exact ihRest
        (nested.look.through h fun r hFind =>
          nested.look.destroy fits₀ hFind fun _ => dropping.follows fits₀) hSite
        (apart.look.through h fun r hFind =>
          apart.look.destroy fits₀ hFind fun _ => dropping.follows fits₀)
        destroyed hRest (hNested.trans hMore) (hApart.trans hMore')
  | take h rest ih =>
      have taken := abreast.look.through nested.look apart.look fits₀ avoids.1
        fun r r' hFind hFind' hSame _ _ =>
          abreast.look.take nested.look hSite apart.look fits₀ hFind hFind' hSame
      exact ih (nested.look.through h fun r hFind => nested.look.take fits₀ hFind) hSite
        (apart.look.through h fun r hFind => apart.look.take fits₀ hFind) taken avoids.2
        (hNested.trans (Usage.spoiled_through (w := a.look) fun _ => Usage.spoiled_take.ge))
        (hApart.trans (Usage.spoiled_through (w := b.look) fun _ => Usage.spoiled_take.ge))

end TaskMemory.Pool
