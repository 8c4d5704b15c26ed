import TaskMemory.Proofs.Pool.FirstFit

/-!
Pools with different histories. If the same slots are occupied in two pools of the same size, and
the same handles can be used, then a program finds no difference: whatever it does, its
constructions get the same handles. So the order does not matter in which values have been
destroyed. What the drops of values do to the environment is not compared, so a drop that ends in a
fault in one run and not in the other one is excluded.
-/
namespace TaskMemory.Pool

variable {α : Type}

/-- The handles that can be used, in the order of their constructions. -/
def Book.handles (b : Book α) : List Handle := b.contents.map Holding.handle

/-- The handles of the book are those under which something is found. -/
theorem Book.mem_handles {b : Book α} {h : Handle} :
    h ∈ b.handles ↔ ∃ r, b.find? h = some r := by
  rw [handles, List.mem_map, find?, ← Option.isSome_iff_exists, List.find?_isSome]
  simp

theorem Book.handles_without (b : Book α) (h : Handle) :
    (b.without h).map Holding.handle = b.handles.erase h := by
  rw [handles, List.erase_eq_eraseP', List.eraseP_map, without]
  rfl

theorem Book.handles_lodge (b : Book α) (h : Handle) (v : α) :
    (b.lodge h v).handles = b.handles ++ [h] :=
  List.map_append

/-- A value that is changed keeps its handle. -/
theorem Book.handles_store (b : Book α) (r : Holding α) (v : α) :
    (b.store r v).handles = b.handles.erase r.handle ++ [r.handle] :=
  List.map_append.trans (congrArg (· ++ _) (b.handles_without r.handle))

/-- Pools with the same room and the same handles. -/
structure Alike (a b : Host α (Book α)) : Prop where
  room : SameRoom a.pool b.pool
  handles : b.state.handles = a.state.handles

/-- Two runs that have seen the same room and the same handles. -/
structure Alongside (a b : Usage α) : Prop where
  now : Alike a.now b.now
  views : List.Forall₂ Alike a.state.views b.state.views

section Room

variable {p q : Pool α} {taken taken' : Place → Prop} {site : Place}

namespace SameRoom

variable (same : SameRoom p q) (tidy : p.Tidy taken) (tidy' : q.Tidy taken')

include same tidy tidy'

/-- A slot that is claimed in both leaves them with the same room. -/
theorem unlink (h : p.Offers site) (h' : q.Offers site) :
    SameRoom (p.mapSlab site.slab Slab.unlink) (q.mapSlab site.slab Slab.unlink) where
  codec := same.codec
  slabs := by rw [slabCount_mapSlab, same.slabs, slabCount_mapSlab]
  occupied other := by
    rw [tidy.mem_occupied_unlink h, tidy'.mem_occupied_unlink h', same.occupied]

/-- Both have the same room after they have grown by a slab. -/
theorem append (hPos : 0 < p.slabCapacity) : SameRoom p.append q.append where
  codec := same.codec
  slabs := by rw [slabCount_append, same.slabs, slabCount_append]
  occupied other := by
    have hPos' : 0 < q.slabCapacity := by rwa [slabCapacity, same.codec]
    rw [tidy.mem_occupied_append hPos, tidy'.mem_occupied_append hPos', same.occupied, same.slabs]

variable (h : taken site) (h' : taken' site)

include h h'

theorem reclaim : SameRoom (p.reclaim site) (q.reclaim site) where
  codec := same.codec
  slabs := by rw [slabCount_reclaim, same.slabs, slabCount_reclaim]
  occupied other := by
    rw [tidy.mem_occupied_reclaim h, tidy'.mem_occupied_reclaim h', same.occupied]

theorem recycled : SameRoom (p.recycled site) (q.recycled site) :=
  have given := same.reclaim tidy tidy' h h'
  ⟨given.codec, given.slabs, given.occupied⟩

/-- What is in a slot does not matter to the room. -/
theorem update (change change' : Slot α → Slot α) :
    SameRoom (p.update site change) (q.update site change') where
  codec := same.codec
  slabs := by rw [slabCount_update, same.slabs, slabCount_update]
  occupied other := by
    rw [tidy.mem_occupied_update h, tidy'.mem_occupied_update h', same.occupied]

theorem publish [Stored α] (v v' : α) : SameRoom (p.publish site v) (q.publish site v') :=
  have written := same.update tidy tidy' h h' (Slot.publish v) (Slot.publish v')
  ⟨written.codec, written.slabs, written.occupied⟩

end SameRoom

end Room

variable [Stored α] {m₀ m₀' : Moment α} {env₀ env₀' : Environment} {a b : Usage α}
  {claims claims' : List Place} {closing closing' : List (Holding α)} {r r' : Holding α}
  {site : Place}

namespace Alongside

omit [Stored α] in
theorem look (alongside : Alongside a b) : Alongside a.look b.look where
  now := alongside.now
  views := List.rel_append alongside.views (.cons alongside.now .nil)

section Constructions

variable (alongside : Alongside a b) (first : Follows m₀ env₀ claims closing a)
  (second : Follows m₀' env₀' claims' closing' b) (fits₀ : m₀.Fits) (fits₀' : m₀'.Fits)

include alongside first second fits₀ fits₀'

/-- The slot that is used next is the same one, and both runs can take it. -/
theorem claim (hVacancy : a.pool.vacancy? = some site) :
    b.pool.vacancy? = some site ∧ ∀ env env',
      Alongside ⟨a.pool.mapSlab site.slab Slab.unlink, env, a.state⟩
        ⟨b.pool.mapSlab site.slab Slab.unlink, env', b.state⟩ := by
  have tidy := first.tidy fits₀
  have tidy' := second.tidy fits₀'
  have same : SameRoom a.pool b.pool := alongside.now.room
  have hVacancy' := (same.vacancy?_eq tidy tidy').trans hVacancy
  have claimed := same.unlink tidy tidy' (offers_vacancy hVacancy) (offers_vacancy hVacancy')
  exact ⟨hVacancy', fun _ _ => ⟨⟨claimed, alongside.now.handles⟩, alongside.views⟩⟩

/-- Both runs come to the same slot, or both do not come to one, after the block of a new slab has
been obtained. -/
theorem extend :
    match a.pool.extend a.env, b.pool.extend b.env with
    | (.ok site, p, env), (.ok site', q, env') =>
      site' = site ∧ Alongside ⟨p, env, a.state⟩ ⟨q, env', b.state⟩
    | (.error _, p, env), (.error _, q, env') => Alongside ⟨p, env, a.state⟩ ⟨q, env', b.state⟩
    | _, _ => False := by
  have housed : a.pool.Housed (a.moment claims).seats := (first.fits fits₀).housed
  have housed' : b.pool.Housed (b.moment claims').seats := (second.fits fits₀').housed
  have same : SameRoom a.pool b.pool := alongside.now.room
  have hSame := same.vacancy?_eq housed.tidy housed'.tidy
  cases hVacancy : a.pool.vacancy? with
  | some site =>
      obtain ⟨hVacancy', claimed⟩ := alongside.claim first second fits₀ fits₀' hVacancy
      rw [extend_of_vacancy housed hVacancy, extend_of_vacancy housed' hVacancy']
      exact ⟨rfl, claimed ..⟩
  | none =>
      have hVacancy' := hSame.trans hVacancy
      cases hAt : a.pool.atLimit with
      | true =>
          rw [extend_of_atLimit hVacancy hAt,
            extend_of_atLimit hVacancy' (same.atLimit_eq.trans hAt)]
          exact ⟨⟨same, alongside.now.handles⟩, alongside.views⟩
      | false =>
          obtain ⟨_, _, packs⟩ := (first.fits fits₀).packs
          rw [extend_of_room hVacancy hAt, extend_of_room hVacancy' (same.atLimit_eq.trans hAt),
            same.slabs]
          have grown := same.append housed.tidy housed'.tidy (slabCapacity_pos packs)
          exact ⟨rfl, ⟨grown, alongside.now.handles⟩, alongside.views⟩

/-- Both runs come to the same slot, or both do not come to one. -/
theorem acquire (growing : Program α)
    (hGrowing : (growing.run a).spoiled ≤ a.spoiled → (growing.run b).spoiled ≤ b.spoiled →
      Alongside (growing.run a) (growing.run b))
    (hFirst : Usage.spoiled (Host.acquire (fun w => ((), growing.run w)) a).2.2 ≤ a.spoiled)
    (hSecond : Usage.spoiled (Host.acquire (fun w => ((), growing.run w)) b).2.2 ≤ b.spoiled) :
    match Host.acquire (fun w => ((), growing.run w)) a,
      Host.acquire (fun w => ((), growing.run w)) b with
    | (.ok site, _, a'), (.ok site', _, b') => site' = site ∧ Alongside a' b'
    | (.error _, _, a'), (.error _, _, b') => Alongside a' b'
    | _, _ => False := by
  have housed : a.pool.Housed (a.moment claims).seats := (first.fits fits₀).housed
  have housed' : b.pool.Housed (b.moment claims').seats := (second.fits fits₀').housed
  have same : SameRoom a.pool b.pool := alongside.now.room
  have hSame := same.vacancy?_eq housed.tidy housed'.tidy
  cases hVacancy : a.pool.vacancy? with
  | some site =>
      obtain ⟨hVacancy', claimed⟩ := alongside.claim first second fits₀ fits₀' hVacancy
      rw [Host.acquire_of_vacancy _ housed hVacancy, Host.acquire_of_vacancy _ housed' hVacancy']
      exact ⟨rfl, claimed ..⟩
  | none =>
      have hVacancy' := hSame.trans hVacancy
      cases hAt : a.pool.atLimit with
      | true =>
          rw [Host.acquire_of_atLimit _ hVacancy hAt,
            Host.acquire_of_atLimit _ hVacancy' (same.atLimit_eq.trans hAt)]
          exact ⟨⟨same, alongside.now.handles⟩, alongside.views⟩
      | false =>
          have hA := Host.acquire_of_room (fun w => ((), growing.run w)) hVacancy hAt rfl
          have hB := Host.acquire_of_room (fun w => ((), growing.run w)) hVacancy'
            (same.atLimit_eq.trans hAt) rfl
          rw [hA] at hFirst ⊢
          rw [hB] at hSecond ⊢
          have extended := (hGrowing hFirst hSecond).extend (growing.follows fits₀ first)
            (growing.follows fits₀' second) fits₀ fits₀'
          rcases hA : (growing.run a).pool.extend (growing.run a).env with
            ⟨_ | site, p, env⟩ <;>
          rcases hB : (growing.run b).pool.extend (growing.run b).env with
            ⟨_ | site', q, env'⟩ <;>
            rw [hA, hB] at extended <;> exact extended

/-- A construction goes the same way in both if its callbacks do. The values may be different
ones. -/
theorem construct (growing building : Program α) (v : α) (failure : Option Fault)
    (hGrowing : (growing.run a).spoiled ≤ a.spoiled → (growing.run b).spoiled ≤ b.spoiled →
      Alongside (growing.run a) (growing.run b))
    (hBuilding : ∀ site a b, Follows m₀ env₀ (site :: claims) closing a →
      Follows m₀' env₀' (site :: claims') closing' b → Alongside a b →
      (building.run a).spoiled ≤ a.spoiled → (building.run b).spoiled ≤ b.spoiled →
      Alongside (building.run a) (building.run b))
    (hFirst : (a.construct v growing.run building.run failure).spoiled ≤ a.spoiled)
    (hSecond : (b.construct v growing.run building.run failure).spoiled ≤ b.spoiled) :
    Alongside (a.construct v growing.run building.run failure)
      (b.construct v growing.run building.run failure) := by
  have hQuiet := Usage.spoiled_acquire growing building hFirst
  have hQuiet' := Usage.spoiled_acquire growing building hSecond
  have acquired := alongside.acquire first second fits₀ fits₀' growing hGrowing hQuiet.le hQuiet'.le
  have claimed := first.acquire fits₀ fun _ => growing.follows fits₀
  have claimed' := second.acquire fits₀' fun _ => growing.follows fits₀'
  rcases hA : Host.acquire (fun w => ((), growing.run w)) a with ⟨refusal | site, seen, a'⟩
  · rcases hB : Host.acquire (fun w => ((), growing.run w)) b with ⟨refusal' | site', seen', b'⟩
    · rw [hA, hB] at acquired
      obtain ⟨_, _, hMake⟩ := Usage.make_of_refusal (v := v) hA
      obtain ⟨_, _, hMake'⟩ := Usage.make_of_refusal (v := v) hB
      rw [← Usage.snd_make, hMake, ← Usage.snd_make, hMake']
      exact ⟨⟨acquired.now.room, acquired.now.handles⟩, acquired.views⟩
    · rw [hA, hB] at acquired
      exact acquired.elim
  · rcases hB : Host.acquire (fun w => ((), growing.run w)) b with ⟨refusal' | site', seen', b'⟩
    · rw [hA, hB] at acquired
      exact acquired.elim
    · rw [hA, hB] at acquired
      obtain ⟨rfl, acquired⟩ := acquired
      rw [hA] at hQuiet claimed
      rw [hB] at hQuiet' claimed'
      rw [Usage.spoiled_of_slot hA, ← hQuiet] at hFirst
      rw [Usage.spoiled_of_slot hB, ← hQuiet'] at hSecond
      have entered : Alongside (Usage.record Book.enter a') (Usage.record Book.enter b') :=
        ⟨⟨acquired.now.room, acquired.now.handles⟩, acquired.views⟩
      have built := hBuilding _ _ _ claimed claimed' entered hFirst hSecond
      have tidy := (building.follows fits₀ claimed).tidy fits₀
      have tidy' := (building.follows fits₀' claimed').tidy fits₀'
      have hTaken : ∀ claims : List Place, site' ∈ site' :: claims := fun _ => List.mem_cons_self
      rw [← Usage.snd_make, ← Usage.snd_make]
      generalize hX : building.run (Usage.record Book.enter a') = x at built tidy
      generalize hY : building.run (Usage.record Book.enter b') = y at built tidy'
      have room : SameRoom x.pool y.pool := built.now.room
      cases failure with
      | none =>
          rw [Usage.make_of_slot hA, Usage.make_of_slot hB, hX, hY, room.handle_eq]
          constructor
          · refine ⟨room.publish tidy tidy' (Or.inl (hTaken _)) (Or.inl (hTaken _)) v v, ?_⟩
            exact (Book.handles_lodge ..).trans
              ((congrArg (· ++ _) built.now.handles).trans (Book.handles_lodge ..).symm)
          · exact built.views
      | some fault =>
          rw [Usage.make_of_fault hA, Usage.make_of_fault hB, hX, hY]
          exact ⟨⟨room.reclaim tidy tidy' (Or.inl (hTaken _)) (Or.inl (hTaken _)),
            built.now.handles⟩, built.views⟩

end Constructions

omit [Stored α] in
theorem place_eq (alongside : Alongside a b) (hSame : r'.handle = r.handle) :
    b.pool.place r'.handle = a.pool.place r.handle := by
  rw [hSame]
  exact congrFun alongside.now.room.place_eq r.handle

omit [Stored α] in
/-- Work through a handle is work on a value with this handle in both runs, or it is none. -/
theorem through (alongside : Alongside a b) {h : Handle}
    {work work' : Holding α → Usage α → Usage α}
    (hWork : ∀ r r', a.state.book.find? r.handle = some r → b.state.book.find? r'.handle = some r' →
      r'.handle = r.handle → a.through h work = work r a → b.through h work' = work' r' b →
      Alongside (work r a) (work' r' b)) :
    Alongside (a.through h work) (b.through h work') := by
  have hHandles : h ∈ b.state.book.handles ↔ h ∈ a.state.book.handles := by
    rw [show b.state.book.handles = a.state.book.handles from alongside.now.handles]
  rw [Book.mem_handles, Book.mem_handles] at hHandles
  cases hA : a.state.book.find? h with
  | none =>
      cases hB : b.state.book.find? h with
      | none => simpa only [Usage.through, hA, hB] using alongside
      | some r' =>
          obtain ⟨r, hSome⟩ := hHandles.mp ⟨r', hB⟩
          rw [hA] at hSome
          cases hSome
  | some r =>
      obtain ⟨r', hB⟩ := hHandles.mpr ⟨r, hA⟩
      obtain ⟨hHandle, -⟩ := Book.contents_perm hA
      obtain ⟨hHandle', -⟩ := Book.contents_perm hB
      have hThrough : a.through h work = work r a := by simp only [Usage.through, hA]
      have hThrough' : b.through h work' = work' r' b := by simp only [Usage.through, hB]
      rw [hThrough, hThrough']
      exact hWork r r' (hHandle ▸ hA) (hHandle' ▸ hB) (hHandle'.trans hHandle.symm) hThrough
        hThrough'

section Operations

variable (alongside : Alongside a b) (first : Follows m₀ env₀ claims closing a)
  (second : Follows m₀' env₀' claims' closing' b) (fits₀ : m₀.Fits) (fits₀' : m₀'.Fits)
  (hFind : a.state.book.find? r.handle = some r) (hFind' : b.state.book.find? r'.handle = some r')
  (hSame : r'.handle = r.handle)

include alongside first second fits₀ fits₀' hFind hFind'

theorem get : Alongside (a.get r) (b.get r') := by
  have hA := (first.fits fits₀).get?_eq (List.mem_of_find?_eq_some hFind)
  have hB := (second.fits fits₀').get?_eq (List.mem_of_find?_eq_some hFind')
  rw [Usage.get, hA, Usage.get, hB]
  exact ⟨⟨alongside.now.room, alongside.now.handles⟩, alongside.views⟩

include hSame

theorem edit (change change' : α → α) : Alongside (a.edit r change) (b.edit r' change') := by
  have hA := (first.fits fits₀).get?_eq (List.mem_of_find?_eq_some hFind)
  have hB := (second.fits fits₀').get?_eq (List.mem_of_find?_eq_some hFind')
  have hPlace := alongside.place_eq hSame
  have room := alongside.now.room.update (first.tidy fits₀) (second.tidy fits₀')
    (Or.inr ⟨r, Book.mem_held hFind, rfl⟩) (Or.inr ⟨r', Book.mem_held hFind', hPlace⟩)
    (Slot.write (change r.value)) (Slot.write (change' r'.value))
  have hHandles : (b.state.book.store r' (change' r'.value)).handles =
      (a.state.book.store r (change r.value)).handles := by
    rw [Book.handles_store, Book.handles_store, hSame]
    exact congrArg (fun handles => handles.erase r.handle ++ [r.handle]) alongside.now.handles
  simp only [Usage.edit, hA, hB, Host.set, hPlace]
  exact ⟨⟨room, hHandles⟩, alongside.views⟩

omit first second fits₀ fits₀' hFind hFind' [Stored α] in
theorem handles_without : (b.state.book.without r'.handle).map Holding.handle =
    (a.state.book.without r.handle).map Holding.handle := by
  rw [Book.handles_without, Book.handles_without, hSame]
  exact congrArg (·.erase r.handle) alongside.now.handles

theorem take : Alongside (a.take r) (b.take r') := by
  have hA := (first.fits fits₀).take_eq (List.mem_of_find?_eq_some hFind)
  have hB := (second.fits fits₀').take_eq (List.mem_of_find?_eq_some hFind')
  have hPlace := alongside.place_eq hSame
  have tidy := first.tidy fits₀
  have tidy' := second.tidy fits₀'
  have hTaken : ∃ s ∈ a.state.book.held, a.pool.place s.handle = a.pool.place r.handle :=
    ⟨r, Book.mem_held hFind, rfl⟩
  have hTaken' : ∃ s ∈ b.state.book.held, b.pool.place s.handle = a.pool.place r.handle :=
    ⟨r', Book.mem_held hFind', hPlace⟩
  have retired := alongside.now.room.update tidy tidy' (Or.inr hTaken) (Or.inr hTaken')
    Slot.retire Slot.retire
  have given := retired.recycled (tidy.update (Or.inr hTaken) _) (tidy'.update (Or.inr hTaken') _)
    (Or.inr hTaken) (Or.inr hTaken')
  simp only [Usage.take, hA, hB, hPlace, update_retire_recycled]
  exact ⟨⟨given, alongside.handles_without hSame⟩, alongside.views⟩

theorem begun : Alongside (a.begun r) (b.begun r') := by
  have hPlace := alongside.place_eq hSame
  have retired := alongside.now.room.update (first.tidy fits₀) (second.tidy fits₀')
    (Or.inr ⟨r, Book.mem_held hFind, rfl⟩) (Or.inr ⟨r', Book.mem_held hFind', hPlace⟩)
    Slot.retire Slot.retire
  simp only [Usage.begun, hPlace]
  exact ⟨⟨retired, alongside.handles_without hSame⟩, alongside.views⟩

/-- A destruction keeps both in step if the code that runs inside the drop does. -/
theorem destroy (dropping : Program α)
    (hDropping : (dropping.run (a.begun r)).spoiled ≤ a.spoiled →
      (dropping.run (b.begun r')).spoiled ≤ b.spoiled →
      Alongside (dropping.run (a.begun r)) (dropping.run (b.begun r')))
    (hFirst : (a.destroy r dropping.run).spoiled ≤ a.spoiled)
    (hSecond : (b.destroy r' dropping.run).spoiled ≤ b.spoiled) :
    Alongside (a.destroy r dropping.run) (b.destroy r' dropping.run) := by
  have begun := alongside.begun first second fits₀ fits₀' hFind hFind' hSame
  obtain ⟨first, hQuiet, hA⟩ := first.destroy_of_quiet fits₀ hFind dropping rfl hFirst
  obtain ⟨second, hQuiet', hB⟩ := second.destroy_of_quiet fits₀' hFind' dropping rfl hSecond
  have inside : Alongside (a.inside r dropping.run) (b.inside r' dropping.run) := by
    rw [Usage.inside] at hQuiet hQuiet'
    rw [Usage.inside, Usage.inside]
    split
    · next hCode =>
        rw [if_pos hCode] at hQuiet hQuiet'
        exact hDropping hQuiet hQuiet'
    · exact begun
  have hPlace := inside.place_eq hSame
  have given := inside.now.room.recycled (first.tidy fits₀) (second.tidy fits₀')
    (Or.inr ⟨r, Book.mem_held_of_closing first.closing, rfl⟩)
    (Or.inr ⟨r', Book.mem_held_of_closing second.closing, hPlace⟩)
  rw [hA, hB, hPlace]
  exact ⟨⟨given, inside.now.handles⟩, inside.views⟩

end Operations

end Alongside

/-- A program finds no difference between pools that are alike, as long as no drop ends in a fault.
By induction on the program: what runs inside an operation is a part of it. -/
theorem Program.alongside (fits₀ : m₀.Fits) (fits₀' : m₀'.Fits) (program : Program α)
    (first : Follows m₀ env₀ claims closing a) (second : Follows m₀' env₀' claims' closing' b)
    (alongside : Alongside a b) (hFirst : (program.run a).spoiled ≤ a.spoiled)
    (hSecond : (program.run b).spoiled ≤ b.spoiled) :
    Alongside (program.run a) (program.run b) := by
  induction program generalizing claims claims' closing closing' a b with
  | done => exact alongside.look
  | construct v growing building failure rest ihGrowing ihBuilding ihRest =>
      have hMore := Usage.spoiled_construct (w := a.look) growing.spoiled_le building.spoiled_le v
        failure
      have hMore' := Usage.spoiled_construct (w := b.look) growing.spoiled_le building.spoiled_le v
        failure
      have hQuiet := (rest.spoiled_le _).trans hFirst
      have hQuiet' := (rest.spoiled_le _).trans hSecond
      have constructed := alongside.look.construct first.look second.look fits₀ fits₀' growing
        building v failure (ihGrowing first.look second.look alongside.look)
        (fun site a b first second alongside => ihBuilding first second alongside) hQuiet hQuiet'
      exact ihRest
        (first.look.construct fits₀ v failure (fun _ => growing.follows fits₀)
          fun _ _ => building.follows fits₀)
        (second.look.construct fits₀' v failure (fun _ => growing.follows fits₀')
          fun _ _ => building.follows fits₀')
        constructed (hFirst.trans hMore) (hSecond.trans hMore')
  | get h rest ih =>
      have got := alongside.look.through (h := h) fun r r' hFind hFind' hSame _ _ =>
        alongside.look.get first.look second.look fits₀ fits₀' hFind hFind'
      exact ih (first.look.through h fun r hFind => first.look.get fits₀ hFind)
        (second.look.through h fun r hFind => second.look.get fits₀' hFind) got
        (hFirst.trans (Usage.spoiled_through (w := a.look) fun _ => Nat.le_refl _))
        (hSecond.trans (Usage.spoiled_through (w := b.look) fun _ => Nat.le_refl _))
  | edit h change rest ih =>
      have edited := alongside.look.through (h := h) fun r r' hFind hFind' hSame _ _ =>
        alongside.look.edit first.look second.look fits₀ fits₀' hFind hFind' hSame change change
      exact ih (first.look.through h fun r hFind => first.look.edit fits₀ hFind change)
        (second.look.through h fun r hFind => second.look.edit fits₀' hFind change) edited
        (hFirst.trans
          (Usage.spoiled_through (w := a.look) fun _ => (Usage.spoiled_edit change).ge))
        (hSecond.trans
          (Usage.spoiled_through (w := b.look) fun _ => (Usage.spoiled_edit change).ge))
  | destroy h dropping rest ihDropping ihRest =>
      have hMore := Usage.spoiled_through (w := a.look) (h := h) fun r =>
        Usage.spoiled_destroy (r := r) dropping.spoiled_le
      have hMore' := Usage.spoiled_through (w := b.look) (h := h) fun r =>
        Usage.spoiled_destroy (r := r) dropping.spoiled_le
      have hQuiet := (rest.spoiled_le _).trans hFirst
      have hQuiet' := (rest.spoiled_le _).trans hSecond
      have destroyed : Alongside (a.look.through h (Usage.destroy · dropping.run))
          (b.look.through h (Usage.destroy · dropping.run)) :=
        alongside.look.through fun r r' hFind hFind' hSame hThrough hThrough' =>
          alongside.look.destroy first.look second.look fits₀ fits₀' hFind hFind' hSame dropping
            (ihDropping (first.look.begun hFind) (second.look.begun hFind')
              (alongside.look.begun first.look second.look fits₀ fits₀' hFind hFind' hSame))
            (hThrough ▸ hQuiet) (hThrough' ▸ hQuiet')
      exact ihRest
        (first.look.through h fun r hFind =>
          first.look.destroy fits₀ hFind fun _ => dropping.follows fits₀)
        (second.look.through h fun r hFind =>
          second.look.destroy fits₀' hFind fun _ => dropping.follows fits₀')
        destroyed (hFirst.trans hMore) (hSecond.trans hMore')
  | take h rest ih =>
      have taken := alongside.look.through (h := h) fun r r' hFind hFind' hSame _ _ =>
        alongside.look.take first.look second.look fits₀ fits₀' hFind hFind' hSame
      exact ih (first.look.through h fun r hFind => first.look.take fits₀ hFind)
        (second.look.through h fun r hFind => second.look.take fits₀' hFind) taken
        (hFirst.trans (Usage.spoiled_through (w := a.look) fun _ => Usage.spoiled_take.ge))
        (hSecond.trans (Usage.spoiled_through (w := b.look) fun _ => Usage.spoiled_take.ge))

end TaskMemory.Pool
