import TaskMemory.Proofs.Pool.Commuting
import TaskMemory.Proofs.Pool.Step

/-!
Pools and books that differ by a value. In one of two pools a slot is claimed into which the value
is put in the other one; in the book of the latter the value stands as one more. What is done to
both alike keeps the difference as it is, if it is not done to the slot of that value.
-/
namespace TaskMemory.Pool

variable {α : Type}

/-- A value as the book has it, without the number of its construction. -/
def Holding.entry (r : Holding α) : Handle × α := (r.handle, r.value)

/-- The handles that can be used, with their values. -/
def Book.entries (b : Book α) : List (Handle × α) := b.contents.map Holding.entry

theorem Book.entries_lodge (b : Book α) (h : Handle) (v : α) :
    (b.lodge h v).entries.Perm ((h, v) :: b.entries) := by
  have hEntries : (b.lodge h v).entries = b.entries ++ [(h, v)] := List.map_append
  rw [hEntries]
  exact List.perm_append_singleton _ _

/-- What is handed out was entered. -/
theorem Book.entries_handOut {b : Book α} {r : Holding α} (hFind : b.find? r.handle = some r) :
    b.entries.Perm (r.entry :: (b.handOut r).entries) :=
  (contents_perm hFind).2.map Holding.entry

/-- What became of a value, without the number of its construction. -/
def Farewell.unnumbered : Farewell α → Farewell α
  | .dropped _ v => .dropped 0 v
  | .taken _ v => .taken 0 v
  | .refused v => .refused v

/-- The second book has a value more. -/
structure Book.Gains (h : Handle) (v : α) (a b : Book α) : Prop where
  entries : b.entries.Perm ((h, v) :: a.entries)
  farewells : b.farewells.map Farewell.unnumbered = a.farewells.map Farewell.unnumbered

namespace Book.Gains

variable {h target : Handle} {v : α} {a b : Book α} {r r' : Holding α}

/-- Under another handle both books have the same. -/
theorem find?_cases (gains : Book.Gains h v a b)
    (hA : ∀ r ∈ a.contents, a.find? r.handle = some r)
    (hB : ∀ r ∈ b.contents, b.find? r.handle = some r) (hNe : target ≠ h) :
    (a.find? target = none ∧ b.find? target = none) ∨
    ∃ r r', a.find? target = some r ∧ b.find? target = some r' ∧ r'.entry = r.entry := by
  cases hFind : a.find? target with
  | some r =>
      obtain ⟨rfl, -⟩ := contents_perm hFind
      have hMem : r.entry ∈ a.entries := List.mem_map_of_mem (List.mem_of_find?_eq_some hFind)
      obtain ⟨r', hMem', hSame⟩ := List.mem_map.mp
        (gains.entries.mem_iff.mpr (List.mem_cons_of_mem _ hMem))
      have hHandle : r'.handle = r.handle := congrArg Prod.fst hSame
      exact Or.inr ⟨r, r', rfl, hHandle ▸ hB r' hMem', hSame⟩
  | none =>
      refine Or.inl ⟨rfl, ?_⟩
      cases hFind' : b.find? target with
      | none => rfl
      | some r' =>
          obtain ⟨rfl, -⟩ := contents_perm hFind'
          have hMem' : r'.entry ∈ b.entries :=
            List.mem_map_of_mem (List.mem_of_find?_eq_some hFind')
          obtain hNew | hOld := List.mem_cons.mp (gains.entries.mem_iff.mp hMem')
          · exact absurd (congrArg Prod.fst hNew) hNe
          · obtain ⟨r, hMem, hSame⟩ := List.mem_map.mp hOld
            have hHandle : r.handle = r'.handle := congrArg Prod.fst hSame
            rw [← hHandle, hA r hMem] at hFind
            cases hFind

theorem without (gains : Book.Gains h v a b) (hFind : a.find? r.handle = some r)
    (hFind' : b.find? r'.handle = some r') (hSame : r'.entry = r.entry) :
    ((b.without r'.handle).map Holding.entry).Perm
      ((h, v) :: (a.without r.handle).map Holding.entry) := by
  have hA : a.entries.Perm (r.entry :: (a.without r.handle).map Holding.entry) :=
    (contents_perm hFind).2.map Holding.entry
  have hB : b.entries.Perm (r.entry :: (b.without r'.handle).map Holding.entry) :=
    hSame ▸ (contents_perm hFind').2.map Holding.entry
  have hBoth := hB.symm.trans (gains.entries.trans (hA.cons (h, v)))
  exact (hBoth.trans (List.Perm.swap ..)).cons_inv

theorem enter (gains : Book.Gains h v a b) : Book.Gains h v a.enter b.enter :=
  ⟨gains.entries, gains.farewells⟩

theorem leave (gains : Book.Gains h v a b) : Book.Gains h v a.leave b.leave :=
  ⟨gains.entries, gains.farewells⟩

theorem settle (gains : Book.Gains h v a b) : Book.Gains h v a.settle b.settle :=
  ⟨gains.entries, gains.farewells⟩

theorem lodge (gains : Book.Gains h v a b) (h' : Handle) (v' : α) :
    Book.Gains h v (a.lodge h' v') (b.lodge h' v') where
  entries := by
    simpa [Book.entries, Book.lodge, Holding.entry] using gains.entries.append_right [(h', v')]
  farewells := gains.farewells

/-- A value that gets no slot is gone from both books at once. -/
theorem refuse (gains : Book.Gains h v a b) (v' : α) :
    Book.Gains h v (a.refuse v') (b.refuse v') where
  entries := gains.entries
  farewells := by simp [Book.refuse, gains.farewells]

theorem store (gains : Book.Gains h v a b) (hFind : a.find? r.handle = some r)
    (hFind' : b.find? r'.handle = some r') (hSame : r'.entry = r.entry) (v' : α) :
    Book.Gains h v (a.store r v') (b.store r' v') where
  entries := by
    have hHandle : r'.handle = r.handle := congrArg Prod.fst hSame
    simpa [Book.entries, Book.store, Holding.entry, hHandle] using
      (gains.without hFind hFind' hSame).append_right [(r.handle, v')]
  farewells := gains.farewells

theorem handOut (gains : Book.Gains h v a b) (hFind : a.find? r.handle = some r)
    (hFind' : b.find? r'.handle = some r') (hSame : r'.entry = r.entry) :
    Book.Gains h v (a.handOut r) (b.handOut r') where
  entries := gains.without hFind hFind' hSame
  farewells := by
    have hValue : r'.value = r.value := congrArg Prod.snd hSame
    simp [Book.handOut, Farewell.unnumbered, gains.farewells, hValue]

theorem close (gains : Book.Gains h v a b) (hFind : a.find? r.handle = some r)
    (hFind' : b.find? r'.handle = some r') (hSame : r'.entry = r.entry) :
    Book.Gains h v (a.close r) (b.close r') where
  entries := gains.without hFind hFind' hSame
  farewells := by
    have hValue : r'.value = r.value := congrArg Prod.snd hSame
    simp [Book.close, Farewell.unnumbered, gains.farewells, hValue]

end Book.Gains

variable [Stored α]

/-- A value and the slot that it is put into, sooner or later. -/
structure Lodging (α : Type) where
  site : Place
  handle : Handle
  value : α
  /-- What is in the slot as long as the value is not there. -/
  slot : Option (Slot α)

/-- The value has been put into its slot in the second pool and not yet in the first one. -/
structure Awaits (x : Lodging α) (p q : Pool α) : Prop where
  eq : q = p.publish x.site x.value
  slot : p.slot? x.site = x.slot

namespace Awaits

variable {x : Lodging α} {p q : Pool α} {taken : Place → Prop} {site : Place}

/-- A handle leads to the same place in both pools. -/
theorem place_eq (awaits : Awaits x p q) : q.place = p.place := by rw [awaits.eq]; rfl

theorem handle_eq (awaits : Awaits x p q) : q.handle = p.handle := by rw [awaits.eq]; rfl

/-- The slot that waits for its value is claimed in both, so both have the same vacancy. -/
theorem vacancy?_eq (awaits : Awaits x p q) : q.vacancy? = p.vacancy? := by
  rw [awaits.eq, vacancy?_publish]

theorem atLimit_eq (awaits : Awaits x p q) : q.atLimit = p.atLimit := by
  rw [awaits.eq, atLimit_publish]

theorem slabCount_eq (awaits : Awaits x p q) : q.slabCount = p.slabCount := by
  rw [awaits.eq, slabCount_publish]

/-- Another slot may be claimed meanwhile. -/
theorem unlink (awaits : Awaits x p q) (tidy : p.Tidy taken) (hTaken : taken x.site)
    (hOffers : p.Offers site) :
    Awaits x (p.mapSlab site.slab Slab.unlink) (q.mapSlab site.slab Slab.unlink) where
  eq := by rw [awaits.eq, tidy.publish_unlink _ hTaken]
  slot := by
    have hNe : x.site ≠ site := by
      rintro rfl
      exact (tidy.not_taken hOffers).1 hTaken
    rw [tidy.slot?_unlink hOffers, if_neg hNe, awaits.slot]

/-- The pool may grow meanwhile. -/
theorem append (awaits : Awaits x p q) (tidy : p.Tidy taken) (hTaken : taken x.site) :
    Awaits x p.append q.append where
  eq := by rw [awaits.eq, publish_append _ _ (tidy.within _ hTaken).1]
  slot := by rw [slot?_append_of_lt (tidy.within _ hTaken).1, awaits.slot]

theorem publish (awaits : Awaits x p q) (v : α) (hNe : site ≠ x.site) :
    Awaits x (p.publish site v) (q.publish site v) where
  eq := by rw [awaits.eq, publish_publish _ _ _ hNe]
  slot := (slot?_update p site x.site _).trans ((if_neg hNe.symm).trans awaits.slot)

theorem update (awaits : Awaits x p q) (change : Slot α → Slot α) (hNe : site ≠ x.site) :
    Awaits x (p.update site change) (q.update site change) where
  eq := by rw [awaits.eq, publish_update _ _ _ hNe]
  slot := by rw [slot?_update, if_neg hNe.symm, awaits.slot]

theorem reclaim (awaits : Awaits x p q) (tidy : p.Tidy taken) (hTaken : taken x.site)
    (hSite : taken site) (hNe : site ≠ x.site) : Awaits x (p.reclaim site) (q.reclaim site) where
  eq := by rw [awaits.eq, tidy.publish_reclaim _ hTaken hNe]
  slot := by rw [tidy.slot?_reclaim hSite hTaken hNe.symm, awaits.slot]

theorem recycled (awaits : Awaits x p q) (tidy : p.Tidy taken) (hTaken : taken x.site)
    (hSite : taken site) (hNe : site ≠ x.site) : Awaits x (p.recycled site) (q.recycled site) where
  eq := by rw [awaits.eq, tidy.publish_recycled _ hTaken hNe]
  slot := (tidy.slot?_reclaim hSite hTaken hNe.symm).trans awaits.slot

end Awaits

/-- Two pools and their books, of which the second ones have a value more. -/
structure Beside (x : Lodging α) (a b : Host α (Book α)) : Prop where
  pool : Awaits x a.pool b.pool
  book : Book.Gains x.handle x.value a.state b.state

end TaskMemory.Pool
