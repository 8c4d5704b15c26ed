import TaskMemory.Proofs.Pool.Transcript

/-!
The log of a pool is a faithful record. The transcript of a run tells at every point how many slabs
the pool has, which handles can be used and which slots have not been given back. Each operation
keeps this if the code that runs inside it does, so a program keeps it, whatever programs are nested
in it, and whether its constructions succeed, are refused or break off.
-/
namespace TaskMemory

/-- The drops of the values leave the reports of pools alone, apart from what runs inside them. -/
structure Stored.Discreet (α : Type) [Stored α] : Prop where
  beginDrop : ∀ (v : α) (env : Environment), (Stored.beginDrop v env).reports = env.reports
  endDrop : ∀ (unwinding : Bool) (v : α) (env : Environment),
    (Stored.endDrop unwinding v env).2.2.reports = env.reports

/-- The drop of a tracked value reports nothing. -/
theorem Tracked.discreet : Stored.Discreet Tracked := ⟨fun _ _ => rfl, fun _ _ _ => rfl⟩

/-- A drop of discreet values leaves the reports as they are. -/
theorem Stored.Discreet.drop {α : Type} [Stored α] (discreet : Stored.Discreet α) (unwinding : Bool)
    (v : α) (env : Environment) : (Stored.drop unwinding v env).2.2.reports = env.reports :=
  (discreet.endDrop unwinding v _).trans (discreet.beginDrop v env)

namespace Pool

variable {α : Type}

section Reading

variable {before after : Environment} {es : List Event}

/-- The handles that can be used are told by the transcript, entry by entry. -/
theorem usable_append (t more : List (Entry α)) :
    usable (t ++ more) = more.foldl (Entry.replay Entry.unusable?) (usable t) :=
  List.foldl_append

/-- The values that have not come back are told by the transcript, entry by entry. -/
theorem unreturned_append (t more : List (Entry α)) :
    unreturned (t ++ more) = more.foldl (Entry.replay Entry.vacated?) (unreturned t) :=
  List.foldl_append

theorem created_append (t more : List (Entry α)) :
    created (t ++ more) = created t ++ created more :=
  List.filterMap_append

/-- New reports are heard in their order. -/
theorem news_of_reports (h : after.reports = before.reports ++ es) :
    news before after = es.map (Entry.heard (α := α)) := by
  rw [news, h, List.drop_left]

theorem news_of_reports_eq (h : after.reports = before.reports) :
    news before after = ([] : List (Entry α)) := by
  have hReports : after.reports = before.reports ++ [] := by rw [h, List.append_nil]
  exact news_of_reports hReports

/-- A phrase in which no slab is reported goes with an operation that appends none. -/
theorem range_of_slabCount_eq {p q : Pool α} (h : q.slabCount = p.slabCount) :
    List.range p.slabCount ++ [] = List.range q.slabCount := by
  rw [List.append_nil, h]

end Reading

namespace Book

variable {b : Book α} {r : Holding α} {closing : List (Holding α)}

theorem contents_perm_handOut (hFind : b.find? r.handle = some r) :
    b.contents.Perm (r :: (b.handOut r).contents) :=
  (contents_perm hFind).2

theorem held_perm_handOut (hFind : b.find? r.handle = some r) :
    b.held.Perm (r :: (b.handOut r).held) :=
  ((contents_perm hFind).2.append_right b.closing).append_right b.spent

theorem held_lodge (b : Book α) (h : Handle) (v : α) :
    (b.held ++ [(⟨h, b.births, v⟩ : Holding α)]).Perm (b.lodge h v).held := by
  simp only [held, lodge, List.append_assoc]
  apply List.Perm.append_left
  rw [← List.append_assoc]
  exact List.perm_append_comm

/-- A drop that has begun does not end the hold. -/
theorem held_close (hFind : b.find? r.handle = some r) : b.held.Perm (b.close r).held :=
  (held_perm_handOut hFind).trans (List.perm_middle.symm.append_right b.spent)

/-- A changed value is held under the same handle. -/
theorem held_store (hFind : b.find? r.handle = some r) (v : α) :
    (b.held.map Holding.handle).Perm ((b.store r v).held.map Holding.handle) := by
  apply ((held_perm_handOut hFind).map _).trans
  have hMoved : ({ r with value := v } :: (b.handOut r).held).Perm (b.store r v).held := by
    simp only [held, store, handOut, List.append_assoc]
    exact List.perm_middle.symm
  exact hMoved.map Holding.handle

theorem contents_store (hFind : b.find? r.handle = some r) (v : α) :
    (b.contents.map Holding.handle).Perm ((b.store r v).contents.map Holding.handle) :=
  ((contents_perm hFind).2.map _).trans
    ((List.perm_append_singleton { r with value := v } (b.without r.handle)).symm.map
      Holding.handle)

/-- A drop that has ended well ends the hold. -/
theorem held_settle (h : b.closing = r :: closing) : b.held.Perm (r :: b.settle.held) := by
  simp only [held, settle, h, List.tail_cons]
  exact List.perm_middle.append_right b.spent

/-- What is left after a fault is held under the same handle. -/
theorem held_spoil (h : b.closing = r :: closing) (v : α) :
    (b.held.map Holding.handle).Perm
      ((b.spoil { r with value := v }).held.map Holding.handle) := by
  apply ((held_settle h).map _).trans
  have hMoved : ({ r with value := v } :: b.settle.held).Perm
      (b.spoil { r with value := v }).held := by
    simp only [held, settle, spoil]
    rw [← List.append_assoc]
    exact (List.perm_append_singleton _ _).symm
  exact hMoved.map Holding.handle

end Book

variable [Stored α]

/-- A transcript tells of a pool in the hands of a program what has happened to it since it was
created, in this environment. -/
structure Told (p : Pool α) (env₀ : Environment) (w : Usage α) (t : List (Entry α)) : Prop where
  faithful : Faithful p t
  slabs : created t = List.range w.pool.slabCount
  usable : (usable t).Perm (w.state.book.contents.map Holding.handle)
  held : (unreturned t).Perm (w.state.book.held.map Holding.handle)
  views : t.filterMap Entry.view? = w.state.views
  /-- All that pools report is in the transcript. -/
  reports : Stored.Discreet α → w.env.reports = env₀.reports ++ t.filterMap Entry.event?

variable {m₀ : Moment α} {env₀ env : Environment} {claims : List Place} {closing : List (Holding α)}
  {p : Pool α} {w w' : Usage α} {t : List (Entry α)} {r : Holding α} {site : Place} {v : α}
  {outcome : Construction Unit Unit}

/-- What changes neither the slabs nor the handles nor the reports need not be told. -/
theorem Told.quiet (told : Told p env₀ w t) (hSlabs : w'.pool.slabCount = w.pool.slabCount)
    (hUsable : (w.state.book.contents.map Holding.handle).Perm
      (w'.state.book.contents.map Holding.handle))
    (hHeld : (w.state.book.held.map Holding.handle).Perm (w'.state.book.held.map Holding.handle))
    (hViews : w'.state.views = w.state.views)
    (hReports : Stored.Discreet α → w'.env.reports = w.env.reports) : Told p env₀ w' t where
  faithful := told.faithful
  slabs := hSlabs ▸ told.slabs
  usable := told.usable.trans hUsable
  held := told.held.trans hHeld
  views := told.views.trans hViews.symm
  reports discreet := (hReports discreet).trans (told.reports discreet)

/-- A phrase is told of what has just happened. -/
theorem Told.phrase {phrase : List (Entry α)} (told : Told p env₀ w t)
    (next : Phrase p t phrase)
    (hSlabs : List.range w.pool.slabCount ++ created phrase = List.range w'.pool.slabCount)
    (hUsable : (phrase.foldl (Entry.replay Entry.unusable?) (Pool.usable t)).Perm
      (w'.state.book.contents.map Holding.handle))
    (hHeld : (phrase.foldl (Entry.replay Entry.vacated?) (unreturned t)).Perm
      (w'.state.book.held.map Holding.handle))
    (hViews : w.state.views ++ phrase.filterMap Entry.view? = w'.state.views)
    (hReports : Stored.Discreet α →
      w'.env.reports = w.env.reports ++ phrase.filterMap Entry.event?) :
    Told p env₀ w' (t ++ phrase) where
  faithful := told.faithful.append next
  slabs := by rw [created_append, told.slabs, hSlabs]
  usable := by rwa [usable_append]
  held := by rwa [unreturned_append]
  views := by rw [List.filterMap_append, told.views, hViews]
  reports discreet := by
    rw [hReports discreet, told.reports discreet, List.filterMap_append, List.append_assoc]

theorem Told.look (told : Told p env₀ w t) : Told p env₀ w.look (t ++ [.looked w.now]) :=
  told.phrase (.looked told.slabs told.usable told.held) (List.append_nil _)
    told.usable told.held rfl fun _ => (List.append_nil _).symm

/-- The index of a slab that may be appended is one of 32 bits. -/
theorem Moment.Fits.slab_lt {m : Moment α} (fits : m.Fits) (hRoom : m.pool.atLimit = false) :
    m.pool.slabCount < 2 ^ 32 := by
  obtain ⟨_, slabBits, packs⟩ := fits.packs
  have hWidth := packs.width
  calc m.pool.slabCount
      < m.pool.codec.maxSlabs.toNat := Nat.lt_of_not_le (of_decide_eq_false hRoom)
    _ ≤ 2 ^ slabBits := packs.maxSlabs
    _ ≤ 2 ^ 32 := Nat.pow_le_pow_right (by decide) (by omega)

/-- A new slab is told of. -/
theorem Told.append (told : Told p env₀ w t) (hCodec : w.pool.codec = p.codec)
    (hLt : w.pool.slabCount < 2 ^ 32)
    (hReports : env.reports = w.env.reports ++ [w.pool.slabCreated]) :
    Told p env₀ (Usage.record Book.enter { w with pool := w.pool.append, env })
      (t ++ [.heard w.pool.slabCreated]) := by
  have hEvent : w.pool.slabCreated =
      .slabCreated w.pool.slabCount.toUInt32 p.codec.slabCapacity p.slabStorage.size := by
    simp only [slabCreated, slabStorage, slabCapacity, hCodec]
  have hIndex : w.pool.slabCount.toUInt32.toNat = w.pool.slabCount := by
    rw [Nat.toUInt32_eq, UInt32.toNat_ofNat', Nat.mod_eq_of_lt hLt]
  rw [hEvent] at hReports ⊢
  refine told.phrase ?_ ?_ told.usable told.held (List.append_nil _) fun _ => hReports
  · apply Phrase.created
    rw [hIndex, told.slabs, List.length_range]
  · have hSlabs : w.pool.append.slabCount = w.pool.slabCount + 1 := slabCount_append _
    calc List.range w.pool.slabCount ++ [w.pool.slabCount.toUInt32.toNat]
        = List.range (w.pool.slabCount + 1) := by rw [hIndex, List.range_succ]
      _ = List.range w.pool.append.slabCount := by rw [hSlabs]

/-- A value is put into the slot of its construction. -/
theorem Told.publish (told : Told m₀.pool env₀ w t)
    (follows : Follows m₀ env₀ (site :: claims) closing w) (fits₀ : m₀.Fits)
    (hMade : outcome.made = .ok (w.pool.handle site)) :
    Told m₀.pool env₀
      (Usage.record (fun b => b.leave.lodge (w.pool.handle site) v)
        { w with
          pool := w.pool.publish site v
          env := w.env.raise (.constructed site.slab.toUInt32 site.offset.toUInt32
            (w.pool.handle site)) })
      (t ++ [.heard (.constructed site.slab.toUInt32 site.offset.toUInt32 (w.pool.handle site)),
        .ended v outcome]) := by
  have hCodec : w.pool.codec = m₀.pool.codec := follows.codec_eq
  have hHandle : w.pool.handle site =
      m₀.pool.codec.encode site.slab.toUInt32 site.offset.toUInt32 := by rw [handle, hCodec]
  have fits := follows.fits fits₀
  obtain ⟨_, _, packs⟩ := fits.packs
  have hPlace : w.pool.place (w.pool.handle site) = site :=
    fits.housed.place_handle packs fits.within List.mem_cons_self
  have hSame : m₀.pool.place = w.pool.place := by
    funext h
    rw [place, place, hCodec]
  have hSlab : site.slab < w.pool.slabCount :=
    (fits.housed.tidy.within site List.mem_cons_self).1
  have next : Phrase m₀.pool t [.heard (.constructed site.slab.toUInt32 site.offset.toUInt32
      (w.pool.handle site)), .ended v outcome] := by
    rw [hHandle]
    apply Phrase.constructed
    · rw [told.slabs, List.mem_range]
      exact (Nat.mod_le ..).trans_lt hSlab
    · rw [← hHandle, hSame, hPlace, (told.held.map _).mem_iff, List.map_map, List.mem_map]
      rintro ⟨held, hHeld, hEq⟩
      exact follows.place_ne fits₀ List.mem_cons_self hHeld hEq
    · rw [hMade, hHandle]
  refine told.phrase next ?_ ?_ ?_ (List.append_nil _) fun _ => ?_
  · exact range_of_slabCount_eq (slabCount_update ..)
  · have hContents := told.usable.append_right [w.pool.handle site]
    rwa [← List.map_singleton (f := Holding.handle) (a := ⟨_, w.state.book.births, v⟩),
      ← List.map_append] at hContents
  · have hLodged := (w.state.book.held_lodge (w.pool.handle site) v).map Holding.handle
    rw [List.map_append] at hLodged
    exact (told.held.append_right _).trans hLodged
  · exact Environment.reports_raise _ rfl

/-- The code that builds a value breaks off. -/
theorem Told.reclaim (told : Told p env₀ w t) {fault : Fault}
    (hMade : outcome.made = .error (.fault fault)) (hBuilding : outcome.building = some ()) :
    Told p env₀ (Usage.record (fun b => b.leave.refuse v)
      { w with pool := w.pool.reclaim site, env := (Stored.drop true v w.env).2.2 })
      (t ++ [.ended v outcome]) := by
  refine told.phrase (.unwound hMade hBuilding) ?_ told.usable told.held
    (List.append_nil _) fun discreet => ?_
  · exact range_of_slabCount_eq (slabCount_reclaim ..)
  · exact (discreet.drop true v w.env).trans (List.append_nil _).symm

/-- A construction without a slot ends with the drop of its value. -/
theorem Told.refuse (told : Told p env₀ w t)
    (hMade : outcome.made = .error (.noSlot p.exhausted) ∨ ∃ env fault,
      (Stored.drop false v env).1 = some fault ∧ outcome.made = .error (.fault fault))
    (hBuilding : outcome.building = none)
    (hEnv : Stored.Discreet α → env.reports = w.env.reports ++ [.poolExhausted p.codec.maxSlabs]) :
    Told p env₀ (Usage.record (·.refuse v) { w with env })
      (t ++ [.heard (.poolExhausted p.codec.maxSlabs), .ended v outcome]) :=
  told.phrase (.exhausted hMade hBuilding) (List.append_nil _) told.usable told.held
    (List.append_nil _) hEnv

/-- What the search for a slot has come to: to a slot, or to the report that there is none. All that
it adds to a transcript is given. -/
def Sought (p : Pool α) (env₀ : Environment) (t added : List (Entry α)) :
    Except Refusal Place → Usage α → Prop
  | .ok _, w => Told p env₀ (Usage.record Book.enter w) (t ++ added)
  | .error refusal, w => refusal = .noSlot p.exhausted ∧
    ∃ (u : Usage α) (before : List (Entry α)),
      added = before ++ [.heard (.poolExhausted p.codec.maxSlabs)] ∧
      Told p env₀ u (t ++ before) ∧
      w = { u with env := u.env.raise (.poolExhausted p.codec.maxSlabs) }

/-- What was said before a slot was sought belongs to the story of the search. -/
theorem Sought.prepend {inside added : List (Entry α)} {found : Except Refusal Place}
    (sought : Sought p env₀ (t ++ inside) added found w) :
    Sought p env₀ t (inside ++ added) found w := by
  cases found with
  | ok site => rwa [Sought, ← List.append_assoc]
  | error refusal =>
      obtain ⟨rfl, u, before, rfl, told, rfl⟩ := sought
      rw [List.append_assoc] at told
      exact ⟨rfl, u, inside ++ before, (List.append_assoc ..).symm, told, rfl⟩

/-- A further slab is told of, unless a slot has become free or the limit has been reached. -/
theorem Told.extend (told : Told m₀.pool env₀ w t) (follows : Follows m₀ env₀ claims closing w)
    (fits₀ : m₀.Fits) :
    Sought m₀.pool env₀ t (news w.env (w.pool.extend w.env).2.2) (w.pool.extend w.env).1
      { w with pool := (w.pool.extend w.env).2.1, env := (w.pool.extend w.env).2.2 } := by
  have housed : w.pool.Housed (w.moment claims).seats := (follows.fits fits₀).housed
  have hProbe : ((w.env.allocate w.pool.slabStorage).release w.pool.slabStorage).reports =
      w.env.reports := by simp
  cases hVacancy : w.pool.vacancy? with
  | some site =>
      rw [extend_of_vacancy housed hVacancy, news_of_reports_eq hProbe, Sought, List.append_nil]
      exact told.quiet (slabCount_mapSlab ..) .rfl .rfl rfl fun _ => hProbe
  | none =>
      cases hLimit : w.pool.atLimit with
      | true =>
          let probed : Usage α :=
            { w with env := (w.env.allocate w.pool.slabStorage).release w.pool.slabStorage }
          have hReports : (probed.env.raise (.poolExhausted m₀.pool.codec.maxSlabs)).reports =
              w.env.reports ++ [.poolExhausted m₀.pool.codec.maxSlabs] := by
            rw [Environment.reports_raise _ rfl, hProbe]
          rw [extend_of_atLimit hVacancy hLimit, exhausted, follows.codec_eq]
          refine ⟨rfl, probed, [], news_of_reports hReports, ?_, rfl⟩
          rw [List.append_nil]
          exact told.quiet rfl .rfl .rfl rfl fun _ => hProbe
      | false =>
          have hReports : ((Effect.replay w.pool.growth
              (w.env.allocate w.pool.slabStorage)).raise w.pool.slabCreated).reports =
              w.env.reports ++ [w.pool.slabCreated] := by
            rw [Environment.reports_raise _ rfl, reports_growth, Environment.reports_allocate]
          rw [extend_of_room hVacancy hLimit, news_of_reports hReports]
          exact told.append follows.codec_eq ((follows.fits fits₀).slab_lt hLimit) hReports

/-- A construction comes to a slot, or it reports that there is none. -/
theorem Told.acquire (told : Told m₀.pool env₀ w t) (follows : Follows m₀ env₀ claims closing w)
    (fits₀ : m₀.Fits) (growing : Program α)
    (hGrowing : Told m₀.pool env₀ (growing.run w) (t ++ growing.transcript w)) :
    Sought m₀.pool env₀ t (w.seeking growing.run growing.transcript)
      (Host.acquire (fun w => ((), growing.run w)) w).1
      (Host.acquire (fun w => ((), growing.run w)) w).2.2 := by
  have housed : w.pool.Housed (w.moment claims).seats := (follows.fits fits₀).housed
  rw [Usage.seeking]
  cases hVacancy : w.pool.vacancy? with
  | some site =>
      rw [Host.acquire_of_vacancy _ housed hVacancy]
      dsimp only
      rw [news_of_reports_eq rfl, Sought, List.append_nil]
      exact told.quiet (slabCount_mapSlab ..) .rfl .rfl rfl fun _ => rfl
  | none =>
      cases hLimit : w.pool.atLimit with
      | true =>
          rw [Host.acquire_of_atLimit _ hVacancy hLimit, exhausted, follows.codec_eq]
          refine ⟨rfl, w, [], ?_, by rwa [List.append_nil], rfl⟩
          exact news_of_reports (Environment.reports_raise _ rfl)
      | false =>
          rw [Host.acquire_of_room (fun w => ((), growing.run w)) hVacancy hLimit rfl]
          exact (hGrowing.extend (growing.follows fits₀ follows) fits₀).prepend

section Placing

variable {growing building : Usage α → Usage α} {failure : Option Fault} {u : Usage α}
  {seen : Option Unit} {inside : Usage α → List (Entry α)}

/-- Nothing is placed without a slot. -/
theorem Usage.placing_of_refusal {refusal : Refusal}
    (h : Host.acquire (fun w => ((), growing w)) w = (.error refusal, seen, u)) :
    w.placing v growing building failure inside = [] := by
  simp only [placing, h]

/-- A value that is placed is reported after the code that built it. -/
theorem Usage.placing_of_slot
    (h : Host.acquire (fun w => ((), growing w)) w = (.ok site, seen, u)) :
    w.placing v growing building none inside = inside (record Book.enter u) ++
      [.heard (.constructed site.slab.toUInt32 site.offset.toUInt32
        ((building (record Book.enter u)).pool.handle site))] := by
  simp only [placing, h, make_of_slot h]
  exact congrArg _ (news_of_reports (Environment.reports_raise _ rfl))

/-- A constructor that fails places nothing. -/
theorem Usage.placing_of_fault {fault : Fault}
    (h : Host.acquire (fun w => ((), growing w)) w = (.ok site, seen, u)) :
    w.placing v growing building (some fault) inside = inside (record Book.enter u) := by
  simp only [placing, h]

/-- A construction without a slot returns the error, unless the drop of its value ends in a
fault. -/
theorem Usage.make_of_exhaustion (v : α) (building : Usage α → Usage α) (failure : Option Fault)
    {cause : PoolError}
    (h : Host.acquire (fun w => ((), growing w)) w = (.error (.noSlot cause), seen, u)) :
    ∃ last, w.make v growing building failure = (⟨.error last, seen, none⟩,
        record (·.refuse v) { u with env := (Stored.drop false v u.env).2.2 }) ∧
      (last = .noSlot cause ∨
        ∃ fault, (Stored.drop false v u.env).1 = some fault ∧ last = .fault fault) := by
  simp only [make, Host.construct, h, Refusal.isFault]
  rcases Stored.drop false v u.env with ⟨_ | fault, rest, env⟩
  · exact ⟨_, rfl, Or.inl rfl⟩
  · exact ⟨_, rfl, Or.inr ⟨_, rfl, rfl⟩⟩

end Placing

/-- What a construction adds to a transcript tells of it. -/
theorem Told.construct (told : Told m₀.pool env₀ w t) (follows : Follows m₀ env₀ claims closing w)
    (fits₀ : m₀.Fits) (growing building : Program α) (v : α) (failure : Option Fault)
    (hGrowing : Told m₀.pool env₀ (growing.run w) (t ++ growing.transcript w))
    (hBuilding : ∀ site u t, Follows m₀ env₀ (site :: claims) closing u →
      Told m₀.pool env₀ u t → Told m₀.pool env₀ (building.run u) (t ++ building.transcript u)) :
    Told m₀.pool env₀ (w.construct v growing.run building.run failure)
      (t ++ w.constructing v growing.run building.run failure growing.transcript
        building.transcript) := by
  have acquired := told.acquire follows fits₀ growing hGrowing
  have claimed := follows.acquire fits₀ fun _ => growing.follows fits₀
  rw [← Usage.snd_make, Usage.constructing]
  rcases hAcquire : Host.acquire (fun w => ((), growing.run w)) w with ⟨refusal | site, seen, u⟩
  · rw [hAcquire] at acquired
    obtain ⟨rfl, x, before, hSeeking, told, rfl⟩ := acquired
    obtain ⟨last, hMake, hLast⟩ := Usage.make_of_exhaustion v building.run failure hAcquire
    rw [hSeeking, Usage.placing_of_refusal hAcquire, hMake, List.append_nil, List.append_assoc,
      ← List.append_assoc t]
    refine told.refuse ?_ rfl fun discreet => ?_
    · rcases hLast with rfl | ⟨fault, hFault, rfl⟩
      · exact Or.inl rfl
      · exact Or.inr ⟨_, fault, hFault, rfl⟩
    · exact (discreet.drop false v _).trans (Environment.reports_raise _ rfl)
  · rw [hAcquire] at acquired claimed
    have built := hBuilding site _ _ claimed acquired
    have follows := building.follows fits₀ claimed
    cases failure with
    | none =>
        rw [Usage.placing_of_slot hAcquire, Usage.make_of_slot hAcquire]
        generalize building.run (Usage.record Book.enter u) = x at built follows
        let outcome : Construction Unit Unit := ⟨.ok (x.pool.handle site), seen, some ()⟩
        have hMade : outcome.made = .ok (x.pool.handle site) := rfl
        have published := built.publish (v := v) follows fits₀ hMade
        simpa only [List.append_assoc, List.singleton_append] using published
    | some fault =>
        rw [Usage.placing_of_fault hAcquire, Usage.make_of_fault hAcquire, ← List.append_assoc,
          ← List.append_assoc]
        exact built.reclaim rfl rfl

section Use

variable (told : Told m₀.pool env₀ w t) (follows : Follows m₀ env₀ claims closing w)
  (fits₀ : m₀.Fits) (hFind : w.state.book.find? r.handle = some r)

include told hFind

/-- A handle in the book is one that can be used. -/
theorem Told.mem_usable : r.handle ∈ Pool.usable t :=
  told.usable.mem_iff.mpr (List.mem_map_of_mem (List.mem_of_find?_eq_some hFind))

/-- A value leaves the book. -/
theorem Told.erase_usable : ((Pool.usable t).erase r.handle).Perm
    ((w.state.book.handOut r).contents.map Holding.handle) := by
  have hPerm := (told.usable.trans ((Book.contents_perm_handOut hFind).map _)).erase r.handle
  rwa [List.map_cons, List.erase_cons_head] at hPerm

/-- The drop of a value begins. -/
theorem Told.begun : Told m₀.pool env₀ (w.begun r) (t ++ [.closed r.handle]) := by
  refine told.phrase (.closed (told.mem_usable hFind)) ?_ (told.erase_usable hFind)
    (told.held.trans ((Book.held_close hFind).map _)) (List.append_nil _) fun discreet => ?_
  · exact range_of_slabCount_eq (slabCount_update ..)
  · exact (discreet.beginDrop r.value w.env).trans (List.append_nil _).symm

include follows fits₀

theorem Told.get : Told m₀.pool env₀ (w.get r) t := by
  rw [Usage.get, (follows.fits fits₀).get?_eq (List.mem_of_find?_eq_some hFind)]
  exact told.quiet rfl .rfl .rfl rfl fun _ => rfl

theorem Told.edit (change : α → α) : Told m₀.pool env₀ (w.edit r change) t := by
  simp only [Usage.edit, (follows.fits fits₀).get?_eq (List.mem_of_find?_eq_some hFind)]
  exact told.quiet (slabCount_update ..) (Book.contents_store hFind _) (Book.held_store hFind _)
    rfl fun _ => rfl

theorem Told.take : Told m₀.pool env₀ (w.take r) (t ++ [.taken r.handle]) := by
  simp only [Usage.take, (follows.fits fits₀).take_eq (List.mem_of_find?_eq_some hFind)]
  refine told.phrase (.taken (told.mem_usable hFind)) ?_ (told.erase_usable hFind) ?_
    (List.append_nil _) fun _ => (List.append_nil _).symm
  · exact range_of_slabCount_eq ((slabCount_update ..).trans (slabCount_reclaim ..))
  · have hPerm := (told.held.trans ((Book.held_perm_handOut hFind).map _)).erase r.handle
    rwa [List.map_cons, List.erase_cons_head] at hPerm

/-- What a destruction adds to a transcript tells of it, whether its slot is given back or the drop
of the value ends in a fault. -/
theorem Told.destroy (dropping : Program α)
    (hDropping : ∀ t, Told m₀.pool env₀ (w.begun r) t →
      Told m₀.pool env₀ (dropping.run (w.begun r)) (t ++ dropping.transcript (w.begun r))) :
    Told m₀.pool env₀ (w.destroy r dropping.run)
      (t ++ w.destroying dropping.run dropping.transcript r) := by
  have inside : Follows m₀ env₀ claims (r :: closing) (w.inside r dropping.run) :=
    follows.inside hFind fun _ => dropping.follows fits₀
  have hInside : Told m₀.pool env₀ (w.inside r dropping.run) (t ++ [.closed r.handle] ++
      if Stored.runsCode α then dropping.transcript (w.begun r) else []) := by
    have begun := told.begun hFind
    rw [Usage.inside]
    split
    · exact hDropping _ begun
    · rwa [List.append_nil]
  rw [Usage.destroying, follows.destroy_eq fits₀ hFind rfl inside,
    follows.usage_destroy_eq fits₀ hFind rfl inside, List.append_cons, ← List.append_assoc]
  generalize t ++ [Entry.closed r.handle] ++
    (if Stored.runsCode α then dropping.transcript (w.begun r) else []) = t' at hInside
  generalize w.inside r dropping.run = u at inside hInside
  have hReports (discreet : Stored.Discreet α) := discreet.endDrop false r.value u.env
  rcases hEnd : Stored.endDrop false r.value u.env with ⟨_ | fault, rest, env⟩ <;>
    rw [hEnd] at hReports
  · have hPerm := hInside.held.trans ((Book.held_settle inside.closing).map Holding.handle)
    have hErase := hPerm.erase r.handle
    rw [List.map_cons, List.erase_cons_head] at hErase
    refine hInside.phrase (.settled (hPerm.mem_iff.mpr List.mem_cons_self)) ?_
      hInside.usable hErase (List.append_nil _) fun discreet => ?_
    · exact range_of_slabCount_eq (slabCount_reclaim ..)
    · exact (hReports discreet).trans (List.append_nil _).symm
  · rw [List.append_nil]
    exact hInside.quiet (slabCount_update ..) .rfl (Book.held_spoil inside.closing rest) rfl
      hReports

end Use

/-- Work through a handle is work on a value that is in the book. -/
theorem Told.through (told : Told p env₀ w t) {h : Handle} {work : Holding α → Usage α → Usage α}
    {tell : Holding α → Usage α → List (Entry α)}
    (hWork : ∀ r, w.state.book.find? r.handle = some r →
      Told p env₀ (work r w) (t ++ tell r w)) :
    Told p env₀ (w.through h work) (t ++ w.telling h tell) := by
  rw [Usage.through, Usage.telling]
  cases hFind : w.state.book.find? h with
  | none => rwa [List.append_nil]
  | some r =>
      obtain ⟨rfl, -⟩ := Book.contents_perm hFind
      exact hWork r hFind

/-- Work that neither adds nor removes a value adds nothing to a transcript. -/
theorem Told.through_of_silent (told : Told p env₀ w t) {h : Handle}
    {work : Holding α → Usage α → Usage α}
    (hWork : ∀ r, w.state.book.find? r.handle = some r → Told p env₀ (work r w) t) :
    Told p env₀ (w.through h work) t := by
  rw [Usage.through]
  cases hFind : w.state.book.find? h with
  | none => exact told
  | some r =>
      obtain ⟨rfl, -⟩ := Book.contents_perm hFind
      exact hWork r hFind

/-- The transcript of a program tells what it does, by induction on the program: what runs inside an
operation is a part of it. -/
theorem Program.told (fits₀ : m₀.Fits) (program : Program α)
    (follows : Follows m₀ env₀ claims closing w) (told : Told m₀.pool env₀ w t) :
    Told m₀.pool env₀ (program.run w) (t ++ program.transcript w) := by
  induction program generalizing claims closing w t with
  | done => exact told.look
  | construct v growing building failure rest ihGrowing ihBuilding ihRest =>
      rw [transcript, List.append_cons, ← List.append_assoc]
      apply ihRest (follows.look.construct fits₀ v failure (fun _ => growing.follows fits₀)
        fun _ _ => building.follows fits₀)
      exact told.look.construct follows.look fits₀ growing building v failure
        (ihGrowing follows.look told.look) fun _ _ _ => ihBuilding
  | get h rest ih =>
      rw [transcript, List.append_cons]
      apply ih (follows.look.through h fun r hFind => follows.look.get fits₀ hFind)
      exact told.look.through_of_silent fun r hFind => told.look.get follows.look fits₀ hFind
  | edit h change rest ih =>
      rw [transcript, List.append_cons]
      apply ih (follows.look.through h fun r hFind => follows.look.edit fits₀ hFind change)
      exact told.look.through_of_silent fun r hFind =>
        told.look.edit follows.look fits₀ hFind change
  | destroy h dropping rest ihDropping ihRest =>
      rw [transcript, List.append_cons, ← List.append_assoc]
      apply ihRest (follows.look.through h fun r hFind =>
        follows.look.destroy fits₀ hFind fun _ => dropping.follows fits₀)
      exact told.look.through fun r hFind => told.look.destroy follows.look fits₀ hFind dropping
        fun _ => ihDropping (follows.look.begun hFind)
  | take h rest ih =>
      rw [transcript, List.append_cons, ← List.append_assoc]
      apply ih (follows.look.through h fun r hFind => follows.look.take fits₀ hFind)
      exact told.look.through fun r hFind => told.look.take follows.look fits₀ hFind

/-- Nothing has happened to a pool that has just been created. -/
theorem Usage.told_start {o : PoolOptions} (h : Pool.create o = .ok p) (env : Environment) :
    Told p env (Usage.start p env) [] := by
  obtain ⟨codec, -, rfl⟩ := create_eq h
  exact ⟨.nil, rfl, .nil, .nil, rfl, fun _ => (List.append_nil _).symm⟩

/-- Whatever runs, in whatever nesting, and whether it succeeds, is refused or breaks off, the log
is a faithful record. The handles that are reported are those that constructions return. If no drop
ends in a fault, it is reported of those constructions that return the error, and of no others, that
the pool is exhausted. -/
theorem Program.log_faithful {o : PoolOptions} (h : Pool.create o = .ok p) (env : Environment)
    (program : Program α) :
    Told p env (program.run (Usage.start p env)) (program.transcript (Usage.start p env)) ∧
    (program.transcript (Usage.start p env)).filterMap Entry.constructed? =
      (program.transcript (Usage.start p env)).filterMap Entry.returned? ∧
    (Dependable (program.transcript (Usage.start p env)) →
      ((program.transcript (Usage.start p env)).filterMap Entry.exhausted?).map .exhausted =
        (program.transcript (Usage.start p env)).filterMap Entry.shortage?) := by
  have begun : Follows (Moment.initial p) env [] [] (Usage.start p env) :=
    ⟨⟨[], .zero _, rfl⟩, rfl, by simp [Usage.start], by simp [Usage.start]⟩
  have told := program.told (Moment.fits_initial h) begun (Usage.told_start h env)
  rw [List.nil_append] at told
  exact ⟨told, told.faithful.constructed_eq_returned, told.faithful.exhausted_eq_shortage⟩

/-- A pool with a single slot. -/
def solo : Pool Tracked := { codec := ⟨0, 0, 0, 1⟩, limit := .bounded 1 }

theorem create_solo : Pool.create { slabCapacity := 1, limit := .bounded 1 } = .ok solo := rfl

/-- The first construction is overtaken while it obtains the block of a slab, and has to discard it.
A construction in the drop of the value that came first does not get its slot yet. Of two more
constructions, the first one breaks off. -/
def Program.hapless : Program Tracked :=
  .construct ⟨1, false⟩ (.construct ⟨2, false⟩ .done .done none .done) .done none <|
  .destroy ⟨0⟩ (.construct ⟨3, false⟩ .done .done none .done) <|
  .construct ⟨4, false⟩ .done .done (some .wordless) <|
  .construct ⟨5, false⟩ .done .done none .done

/-- A single slab is reported, both values that have been in its slot, and twice that there is none
left. -/
theorem Program.log_faithful_hapless :
    (hapless.run (Usage.start solo untouched)).env.reports =
      [.slabCreated 0 1 16, .constructed 0 0 ⟨0⟩, .poolExhausted 1, .poolExhausted 1,
        .constructed 0 0 ⟨0⟩] ∧
    ((hapless.transcript (Usage.start solo untouched)).filterMap Entry.returned?) = [⟨0⟩, ⟨0⟩] := by
  obtain ⟨told, hReturned, -⟩ := Program.log_faithful create_solo untouched hapless
  rw [told.reports Tracked.discreet, ← hReturned]
  exact ⟨by decide +kernel, by decide +kernel⟩

end Pool
end TaskMemory
