import TaskMemory.Proofs.Pool.Tenancy

/-!
A change of a slot that is taken commutes with everything that is done to the rest of the pool. No
free list leads through the slot, so the lists are found and left in the same way; in particular a
value can be put into a claimed slot sooner or later.
-/
namespace TaskMemory

section Items

variable {β : Type} {items : Array β} {i k : Nat} {f g : β → β}

/-- Two changes of one item are one change. -/
theorem modify_comp (items : Array β) (i : Nat) (f g : β → β) :
    (items.modify i f).modify i g = items.modify i (g ∘ f) := by
  apply Array.ext_getElem?
  intro n
  simp only [Array.getElem?_modify]
  split <;> simp

theorem modify_congr (h : ∀ item, items[i]? = some item → f item = g item) :
    items.modify i f = items.modify i g := by
  apply Array.ext_getElem?
  intro n
  simp only [Array.getElem?_modify]
  split
  · next hEq =>
      subst hEq
      cases hGet : items[i]? with
      | none => rfl
      | some item => exact congrArg some (h item hGet)
  · rfl

/-- Changes of items commute if they do on the item that both are changes of. -/
theorem modify_comm (h : ∀ item, items[k]? = some item → i = k → g (f item) = f (g item)) :
    (items.modify i f).modify k g = (items.modify k g).modify i f := by
  apply Array.ext_getElem?
  intro n
  simp only [Array.getElem?_modify]
  by_cases hI : i = n
  · by_cases hK : k = n
    · cases hGet : items[n]? with
      | none => simp
      | some item => simpa [hI, hK] using h item (hK ▸ hGet) (hI.trans hK.symm)
    · simp [hI, hK]
  · simp [hI]

end Items

variable {α : Type}

namespace Slab

variable {s : Slab α} {taken : Nat → Prop} {free : List Nat} {i j : Nat}
  (change : Slot α → Slot α)

theorem update_comm_of_ne (s : Slab α) (other : Slot α → Slot α) (hNe : i ≠ j) :
    (s.update i change).update j other = (s.update j other).update i change := by
  simp only [update, modify_comm fun _ _ hEq => absurd hEq hNe]

theorem update_update (s : Slab α) (i : Nat) (change next : Slot α → Slot α) :
    (s.update i change).update i next = s.update i (next ∘ change) := by
  simp only [update, modify_comp]

theorem update_congr {next : Slot α → Slot α}
    (h : ∀ slot, s.slots[i]? = some slot → change slot = next slot) :
    s.update i change = s.update i next := by
  simp only [update, modify_congr h]

theorem unlink_of_head_eq_none (h : s.head = none) : s.unlink = s := by simp [unlink, h]

/-- The lowest free slot is taken off the list, whatever a taken slot holds. -/
theorem Listed.update_unlink (listed : s.Listed taken free) (hTaken : taken i) :
    (s.update i change).unlink = s.unlink.update i change := by
  cases hHead : s.head with
  | none =>
      have hHead' : (s.update i change).head = none := hHead
      rw [unlink_of_head_eq_none hHead, unlink_of_head_eq_none hHead']
  | some k =>
      have hMem : k ∈ free := List.mem_of_mem_head? (listed.threads.start_eq ▸ hHead)
      have hNe : i ≠ k := listed.ne_of_mem hMem hTaken
      have hHead' : (s.update i change).head = some k := hHead
      rw [unlink_of_head hHead, unlink_of_head hHead', nextFree_update_of_ne change hNe,
        update_comm_of_ne change s Slot.claim hNe]
      rfl

/-- A change of a slot that is taken does not show on the free list. -/
theorem Listed.neighbours_update (listed : s.Listed taken free) (hTaken : taken i) (j : Nat) :
    (s.update i change).neighbours j = s.neighbours j := by
  rw [(listed.update hTaken change).neighbours_eq, listed.neighbours_eq]

/-- A slot is put back in its place, whatever another taken slot holds. -/
theorem Listed.update_link (listed : s.Listed taken free) (hTaken : taken i) (hNe : i ≠ j) :
    (s.update i change).link j = (s.link j).update i change := by
  have hSame := listed.neighbours_update change hTaken j
  rcases hNeighbours : s.neighbours j with ⟨_ | k, after⟩
  · have hBack := update_comm_of_ne change s
      (fun slot => { slot.linkTo after with claimed := false }) hNe
    rw [link_of_first hNeighbours, link_of_first (hSame.trans hNeighbours), hBack]
    rfl
  · have hK : i ≠ k := listed.ne_of_mem (listed.mem_of_behind hNeighbours) hTaken
    have hBack := update_comm_of_ne change s
      (fun slot => { slot.linkTo after with claimed := false }) hNe
    rw [link_of_behind hNeighbours, link_of_behind (hSame.trans hNeighbours), hBack,
      update_comm_of_ne change _ _ hK]
    rfl

/-- What a slot keeps of a change when it is put back: its link and its mark are overwritten. -/
theorem Listed.link_update (listed : s.Listed taken free) (hTaken : taken i)
    {left : Slot α → Slot α} (h : ∀ slot after, s.slots[i]? = some slot →
      ({ (change slot).linkTo after with claimed := false } : Slot α) =
        left { slot.linkTo after with claimed := false }) :
    (s.update i change).link i = (s.link i).update i left := by
  have hSame := listed.neighbours_update change hTaken i
  rcases hNeighbours : s.neighbours i with ⟨_ | j, after⟩
  · have hBack : (s.update i change).update i
        (fun slot => { slot.linkTo after with claimed := false }) =
        (s.update i fun slot => { slot.linkTo after with claimed := false }).update i left := by
      rw [update_update, update_update]
      exact update_congr _ fun slot hSlot => h slot after hSlot
    rw [link_of_first hNeighbours, link_of_first (hSame.trans hNeighbours), hBack]
    rfl
  · have hNe : i ≠ j := listed.ne_of_mem (listed.mem_of_behind hNeighbours) hTaken
    have hBack : (s.update i change).update i
        (fun slot => { slot.linkTo after with claimed := false }) =
        (s.update i fun slot => { slot.linkTo after with claimed := false }).update i left := by
      rw [update_update, update_update]
      exact update_congr _ fun slot hSlot => h slot after hSlot
    rw [link_of_behind hNeighbours, link_of_behind (hSame.trans hNeighbours), hBack,
      update_comm_of_ne left _ _ hNe]
    rfl

end Slab

namespace Pool

variable {p : Pool α} {taken : Place → Prop} {site other : Place} (change : Slot α → Slot α)

/-- Changes of slabs may be made in either order if they may be so in one slab. -/
theorem mapSlab_comm {i k : Nat} {f g : Slab α → Slab α}
    (h : ∀ slab, p.directory.get? k = some slab → i = k → g (f slab) = f (g slab)) :
    (p.mapSlab i f).mapSlab k g = (p.mapSlab k g).mapSlab i f := by
  simp only [mapSlab, Table.modify, modify_comm h]

theorem mapSlab_mapSlab (p : Pool α) (i : Nat) (f g : Slab α → Slab α) :
    (p.mapSlab i f).mapSlab i g = p.mapSlab i (g ∘ f) := by
  simp only [mapSlab, Table.modify, modify_comp]

theorem mapSlab_congr {i : Nat} {f g : Slab α → Slab α}
    (h : ∀ slab, p.directory.get? i = some slab → f slab = g slab) :
    p.mapSlab i f = p.mapSlab i g := by
  simp only [mapSlab, Table.modify, modify_congr h]

theorem update_comm_of_ne (p : Pool α) (next : Slot α → Slot α) (hNe : other ≠ site) :
    (p.update site change).update other next = (p.update other next).update site change := by
  apply mapSlab_comm
  intro slab _ hSlab
  exact slab.update_comm_of_ne change next fun hEq => hNe (Place.eq_iff.mpr ⟨hSlab, hEq⟩)

/-- A taken slot may be changed before or after another one is claimed. -/
theorem Tidy.update_unlink (tidy : p.Tidy taken) (hTaken : taken site) (k : Nat) :
    (p.update site change).mapSlab k Slab.unlink =
      (p.mapSlab k Slab.unlink).update site change := by
  apply mapSlab_comm
  rintro slab hGet rfl
  obtain ⟨free, listed⟩ := tidy.listed _ _ hGet
  exact listed.update_unlink change hTaken

/-- A taken slot may be changed before or after another one comes back. -/
theorem Tidy.update_reclaim (tidy : p.Tidy taken) (hTaken : taken site) (hNe : other ≠ site) :
    (p.update site change).reclaim other = (p.reclaim other).update site change := by
  apply mapSlab_comm
  intro slab hGet hSlab
  obtain ⟨free, listed⟩ := tidy.listed _ _ hGet
  apply listed.update_link change
  · rwa [← hSlab]
  · exact fun hEq => hNe (Place.eq_iff.mpr ⟨hSlab, hEq⟩)

/-- A slot may be changed before or after the pool grows. -/
theorem update_append (p : Pool α) (hSlab : site.slab < p.slabCount) :
    (p.update site change).append = p.append.update site change := by
  have hSize : (p.update site change).directory.size = p.directory.size := slabCount_update ..
  have hItems : (p.directory.items.modify site.slab (·.update site.offset change)).push
      (Slab.fresh p.slabCapacity).unlink =
      (p.directory.items.push (Slab.fresh p.slabCapacity).unlink).modify site.slab
        (·.update site.offset change) := by
    apply Array.ext_getElem?
    intro k
    have hLast : p.directory.items.size ≠ site.slab := Nat.ne_of_gt hSlab
    simp only [Array.getElem?_push, Array.getElem?_modify, Array.size_modify]
    by_cases hK : k = p.directory.items.size
    · simp [hK, hLast.symm]
    · simp [hK]
  have hSame : (p.update site change).slabCapacity = p.slabCapacity := rfl
  simp only [append, hSize, hSame]
  exact congrArg (fun items => ({ p with directory := {
    items
    capacity := if p.directory.size = p.directory.capacity
      then Table.nextCapacity p.directory.capacity else p.directory.capacity } } : Pool α)) hItems

/-- The place that is used next can be told from the heads of the lists. -/
theorem vacancy?_congr {q : Pool α}
    (hHeads : q.directory.items.map Slab.head = p.directory.items.map Slab.head) :
    q.vacancy? = p.vacancy? := by
  have hFind : ∀ items : Array (Slab α), items.findIdx? (·.head.isSome) =
      (items.map Slab.head).findIdx? Option.isSome := by
    intro items
    rw [Array.findIdx?_map]
    rfl
  have hGet : ∀ (items : Array (Slab α)) (i : Nat),
      items[i]?.bind Slab.head = (items.map Slab.head)[i]?.join := by
    intro items i
    rw [Array.getElem?_map]
    cases items[i]? <;> rfl
  simp only [vacancy?, hFind, hGet, hHeads]

/-- A change of a slot does not show in the vacancy. -/
theorem vacancy?_update (p : Pool α) (site : Place) :
    (p.update site change).vacancy? = p.vacancy? := by
  apply vacancy?_congr
  apply Array.ext_getElem?
  intro k
  simp only [Pool.update, mapSlab, Table.modify, Array.getElem?_map, Array.getElem?_modify]
  split <;> cases p.directory.items[k]? <;> rfl

section Publishing

variable [Stored α] (v : α)

@[simp] theorem vacancy?_publish (p : Pool α) (site : Place) :
    (p.publish site v).vacancy? = p.vacancy? :=
  vacancy?_update (Slot.publish v) p site

@[simp] theorem slabCount_publish (p : Pool α) (site : Place) :
    (p.publish site v).slabCount = p.slabCount :=
  slabCount_update ..

@[simp] theorem atLimit_publish (p : Pool α) (site : Place) :
    (p.publish site v).atLimit = p.atLimit := by
  rw [atLimit, slabCount_publish]
  rfl

/-- A value may be put into its slot before or after another slot is claimed. -/
theorem Tidy.publish_unlink (tidy : p.Tidy taken) (hTaken : taken site) (k : Nat) :
    (p.publish site v).mapSlab k Slab.unlink = (p.mapSlab k Slab.unlink).publish site v :=
  congrArg (fun q : Pool α => { q with live := p.live + 1 })
    (tidy.update_unlink (Slot.publish v) hTaken k)

theorem publish_append (p : Pool α) (hSlab : site.slab < p.slabCount) :
    (p.publish site v).append = p.append.publish site v :=
  congrArg (fun q : Pool α => { q with live := p.live + 1 })
    (update_append (Slot.publish v) p hSlab)

theorem publish_update (p : Pool α) (next : Slot α → Slot α) (hNe : other ≠ site) :
    (p.publish site v).update other next = (p.update other next).publish site v :=
  congrArg (fun q : Pool α => { q with live := p.live + 1 })
    (update_comm_of_ne (Slot.publish v) p next hNe)

/-- Two values may be put into their slots in either order. -/
theorem publish_publish (p : Pool α) (v' : α) (hNe : other ≠ site) :
    (p.publish site v).publish other v' = (p.publish other v').publish site v :=
  congrArg (fun q : Pool α => { q with live := p.live + 1 + 1 })
    (update_comm_of_ne (Slot.publish v) p (Slot.publish v') hNe)

/-- A value may be put into its slot before or after another slot comes back. -/
theorem Tidy.publish_reclaim (tidy : p.Tidy taken) (hTaken : taken site) (hNe : other ≠ site) :
    (p.publish site v).reclaim other = (p.reclaim other).publish site v :=
  congrArg (fun q : Pool α => { q with live := p.live + 1 })
    (tidy.update_reclaim (Slot.publish v) hTaken hNe)

theorem Tidy.publish_recycled (tidy : p.Tidy taken) (hTaken : taken site) (hNe : other ≠ site) :
    (p.publish site v).recycled other = (p.recycled other).publish site v := by
  have hLive : p.live + 1 - 1 = p.live - 1 + 1 := by grind
  have hBack := tidy.update_reclaim (Slot.publish v) hTaken hNe
  calc (p.publish site v).recycled other
      = { (p.update site (Slot.publish v)).reclaim other with live := p.live + 1 - 1 } := rfl
    _ = { (p.reclaim other).update site (Slot.publish v) with live := p.live - 1 + 1 } := by
      rw [hBack, hLive]
    _ = (p.recycled other).publish site v := rfl

/-- A value that is put into a claimed slot and moved out again leaves its storage behind there and
nothing else. -/
theorem Tidy.take_publish (tidy : p.Tidy taken) (hTaken : taken site)
    (hIdle : ∀ slot, p.slot? site = some slot → slot.live = false) :
    ((p.publish site v).recycled site).update site Slot.retire =
      (p.reclaim site).update site fun slot => { slot with value := some v } := by
  have hLive : p.live + 1 - 1 = p.live := by grind
  have hRetire : (p.update site (Slot.publish v)).update site Slot.retire =
      p.update site (Slot.retire ∘ Slot.publish v) := by
    apply (mapSlab_mapSlab ..).trans
    apply mapSlab_congr
    exact fun slab _ => slab.update_update ..
  have hBack : (p.update site (Slot.retire ∘ Slot.publish v)).reclaim site =
      (p.reclaim site).update site fun slot => { slot with value := some v } := by
    apply (mapSlab_mapSlab ..).trans
    apply Eq.trans _ (mapSlab_mapSlab ..).symm
    apply mapSlab_congr
    intro slab hGet
    obtain ⟨free, listed⟩ := tidy.listed _ _ hGet
    apply listed.link_update _ hTaken
    intro slot after hSlot
    have hSlot' : p.slot? site = some slot := by rw [slot?, hGet, Option.bind_some, hSlot]
    have hOff : slot.live = false := hIdle slot hSlot'
    simp [Slot.publish, Slot.write, Slot.retire, Slot.linkTo, hOff]
  rw [update_retire_recycled]
  calc ((p.publish site v).update site Slot.retire).recycled site
      = { ((p.update site (Slot.publish v)).update site Slot.retire).reclaim site with
          live := p.live + 1 - 1 } := rfl
    _ = { (p.reclaim site).update site (fun slot => { slot with value := some v }) with
          live := p.live } := by rw [hRetire, hBack, hLive]
    _ = _ := rfl

end Publishing

end Pool
end TaskMemory
