import TaskMemory.Proofs.Graph.Account

/-!
Which nodes become ready, and when. Every step of every completion keeps the account of the acts,
so the acts are in order at every point of every interleaving. Nothing stalls either: where no
completion is under way, a node that never became ready has a predecessor that was not completed.
-/
namespace TaskMemory.Graph

namespace Tracks

variable {plan : Plan} {log : List Act} {s : Shared} {g h : Handle} {rest : List Handle}
  {ready : Nat} {before after : List Completion}

/-- A node that is ready may be taken, to be run next. -/
theorem take {x : Progress} (tracks : Tracks plan log x) (hReady : h ∈ x.shared.ready) :
    Tracks plan log
      ⟨{ x.shared with ready := x.shared.ready.erase h }, x.underway ++ [⟨h, .taken⟩]⟩ where
  successors := tracks.successors
  spent := tracks.spent
  counters := tracks.counters
  walked k := by
    rw [← tracks.walked k]
    simp [Completion.pending]
  granted k := by
    rw [← tracks.granted k]
    have hPos := List.count_pos_iff.mpr hReady
    rcases eq_or_ne h k with rfl | hNe
    · simp [Completion.untouched]
      omega
    · simp [Completion.untouched, hNe, List.count_erase_of_ne hNe.symm]
  begun k := by
    rw [tracks.begun k]
    simp [Completion.begun]
  announced k := by
    rw [← tracks.announced k]
    simp [Completion.due]
  last t hMem := by
    rcases List.mem_append.mp hMem with hOld | hNew
    · exact tracks.last t hOld
    · obtain rfl := List.mem_singleton.mp hNew
      intro k hk
      cases hk
  inOrder := tracks.inOrder

/-- A node that has been taken has not run yet, since it became ready once. -/
theorem not_ran (tracks : Tracks plan log ⟨s, before ++ ⟨g, .taken⟩ :: after⟩) :
    g ∉ log.flatMap Act.runs := by
  have hGranted := tracks.granted g
  have hOne := tracks.granted_le_one g
  have hTaken : 0 < ((before ++ ⟨g, .taken⟩ :: after).flatMap Completion.untouched).count g :=
    List.count_pos_iff.mpr (by simp [Completion.untouched])
  rw [← List.count_eq_zero]
  dsimp only at hGranted
  omega

/-- Where one completion takes a step, the others still made the last decrements of the nodes they
are to report, if the step decrements none of these. -/
theorem last_concat {t : Completion} {act : Act} {next : List Completion}
    (tracks : Tracks plan log ⟨s, before ++ t :: after⟩)
    (hOld : ∀ k ∈ (before ++ t :: after).flatMap Completion.due,
      (log ++ [act]).flatMap (Act.lowers k) = log.flatMap (Act.lowers k))
    (hNext : ∀ u ∈ next, ∀ k ∈ u.due,
      ((log ++ [act]).flatMap (Act.lowers k)).getLast? = some u.node) :
    ∀ u ∈ before ++ next ++ after, ∀ k ∈ u.due,
      ((log ++ [act]).flatMap (Act.lowers k)).getLast? = some u.node := by
  intro u hu k hk
  rw [List.append_assoc, List.mem_append, List.mem_append] at hu
  by_cases hNew : u ∈ next
  · exact hNext u hNew k hk
  · have hMem : u ∈ before ++ t :: after := by
      rcases hu with hu | hu | hu
      · exact List.mem_append_left _ hu
      · exact absurd hu hNew
      · exact List.mem_append_right _ (List.mem_cons_of_mem _ hu)
    rw [hOld k (List.mem_flatMap_of_mem hMem hk)]
    exact tracks.last u hMem k hk

/-- After a run the walk over the successors begins, and the payload is spent. -/
theorem invoke {outcome : Except Fault Bool} {env : Environment}
    (tracks : Tracks plan log ⟨s, before ++ ⟨g, .taken⟩ :: after⟩)
    (hOutcome : outcome = .ok false ↔ (s.nodes g).payload.spent = true) :
    Tracks plan (log ++ [.ran g outcome])
      ⟨s.spend g env, before ++ (outcome.toOption.map fun _ =>
        (⟨g, .walking (s.nodes g).successors.handles 0⟩ : Completion)).toList ++ after⟩ := by
  constructor
  case successors =>
    intro k
    rw [← tracks.successors k]
    rcases eq_or_ne k g with rfl | hNe
    · rw [Shared.nodes_spend_self]
    · rw [Shared.nodes_spend_of_ne hNe]
  case spent =>
    intro k
    have hSpent := tracks.spent k
    rcases eq_or_ne k g with rfl | hNe
    · simp [Act.runs, Shared.nodes_spend_self]
    · simpa [Act.runs, hNe, Shared.nodes_spend_of_ne hNe] using hSpent
  case counters =>
    intro k hk
    rw [lowers_concat_of_eq_nil _ rfl, ← tracks.counters k hk]
    rcases eq_or_ne k g with rfl | hNe
    · rw [Shared.nodes_spend_self]
    · rw [Shared.nodes_spend_of_ne hNe]
  case walked =>
    intro k
    have hWalked := tracks.walked k
    rw [tracks.successors]
    cases outcome with
    | error fault =>
        simpa [Act.lowers, Act.begins, Completion.pending, Except.toOption] using hWalked
    | ok ran =>
        simp [Act.lowers, Act.begins, Completion.pending, Except.toOption] at hWalked ⊢
        omega
  case granted =>
    intro k
    have hGranted := tracks.granted k
    cases outcome <;>
      simp [Act.runs, Act.reports, Completion.untouched, Except.toOption, List.count_cons]
        at hGranted ⊢ <;> omega
  case begun =>
    intro k
    have hBegun := tracks.begun k
    cases outcome with
    | error fault =>
        simpa [Act.begins, Act.completes, Completion.begun, Except.toOption] using hBegun
    | ok ran =>
        simp [Act.begins, Act.completes, Completion.begun, Except.toOption, List.count_cons]
          at hBegun ⊢
        omega
  case announced =>
    intro k
    have hAnnounced := tracks.announced k
    cases outcome <;>
      simpa [Act.reports, Act.lowers, Completion.due, Except.toOption] using hAnnounced
  case last =>
    refine tracks.last_concat (fun _ _ => lowers_concat_of_eq_nil _ rfl) fun u hu k hk => ?_
    cases outcome with
    | error fault => cases hu
    | ok ran =>
        obtain rfl := List.mem_singleton.mp hu
        cases hk
  case inOrder =>
    refine forall_split_concat tracks.inOrder ⟨tracks.not_ran, hOutcome.trans ?_⟩
    rw [tracks.spent]
    exact or_iff_left tracks.not_ran

/-- A decrement is one of those that its node waits for, so the counter was not at zero. -/
theorem lower (tracks : Tracks plan log ⟨s, before ++ ⟨g, .walking (h :: rest) ready⟩ :: after⟩) :
    Tracks plan (log ++ [.decremented g h])
      ⟨(s.decrement h).2, before ++ [⟨g, if (s.nodes h).waitCount = 1 then .reporting h rest ready
        else .walking rest ready⟩] ++ after⟩ := by
  have hMem : h ∈ (before ++ ⟨g, .walking (h :: rest) ready⟩ :: after).flatMap
      Completion.pending := by
    simp [Completion.pending]
  have hCounter : (s.nodes h).waitCount.toNat + (log.flatMap (Act.lowers h)).length =
      plan.indegree h := tracks.counters h (tracks.mem_of_pending hMem)
  have hWait : (s.nodes h).waitCount.toNat ≠ 0 :=
    fun hZero => tracks.waitCount_ne_zero hMem (UInt32.toNat_inj.mp hZero)
  have hLast : (s.nodes h).waitCount = 1 ↔ (s.nodes h).waitCount.toNat = 1 :=
    UInt32.toNat_inj.symm
  have hSub : ((s.nodes h).waitCount - 1).toNat = (s.nodes h).waitCount.toNat - 1 :=
    UInt32.toNat_sub_of_le _ _ (UInt32.le_iff_toNat_le.mpr (Nat.one_le_iff_ne_zero.mpr hWait))
  constructor
  case successors =>
    intro k
    rw [← tracks.successors k]
    rcases eq_or_ne k h with rfl | hNe
    · rw [Shared.nodes_decrement_self]
    · rw [Shared.nodes_decrement_of_ne hNe]
  case spent =>
    intro k
    have hSpent := tracks.spent k
    rcases eq_or_ne k h with rfl | hNe
    · simpa [Act.runs, Shared.nodes_decrement_self] using hSpent
    · simpa [Act.runs, Shared.nodes_decrement_of_ne hNe] using hSpent
  case counters =>
    intro k hk
    have hOld := tracks.counters k hk
    rcases eq_or_ne k h with rfl | hNe
    · rw [lowers_concat_self, List.length_append, List.length_singleton,
        Shared.nodes_decrement_self, hSub]
      omega
    · rw [lowers_concat_of_ne _ _ hNe, Shared.nodes_decrement_of_ne hNe]
      exact hOld
  case walked =>
    intro k
    have hWalked := tracks.walked k
    rcases eq_or_ne k h with rfl | hNe
    · rw [lowers_concat_self]
      split <;> simp [Act.begins, Completion.pending] at hWalked ⊢ <;> omega
    · rw [lowers_concat_of_ne _ _ hNe]
      split <;> simpa [Act.begins, Completion.pending, hNe.symm] using hWalked
  case granted =>
    intro k
    have hGranted := tracks.granted k
    split <;> simpa [Act.runs, Act.reports, Completion.untouched] using hGranted
  case begun =>
    intro k
    have hBegun := tracks.begun k
    split <;> simpa [Act.begins, Act.completes, Completion.begun] using hBegun
  case announced =>
    intro k
    have hAnnounced := tracks.announced k
    rcases eq_or_ne k h with rfl | hNe
    · rw [if_neg (by omega)] at hAnnounced
      rw [lowers_concat_self, List.length_append, List.length_singleton]
      by_cases hOne : (s.nodes k).waitCount = 1
      · have hOneNat := hLast.mp hOne
        rw [if_pos hOne, if_pos (by omega)]
        simp [Act.reports, Completion.due] at hAnnounced ⊢
        omega
      · have hMore := mt hLast.mpr hOne
        rw [if_neg hOne, if_neg (by omega)]
        simpa [Act.reports, Completion.due] using hAnnounced
    · rw [lowers_concat_of_ne _ _ hNe]
      split <;> simpa [Act.reports, Completion.due, hNe.symm] using hAnnounced
  case last =>
    refine tracks.last_concat (fun k hk => lowers_concat_of_ne _ _ ?_) fun u hu k hk => ?_
    -- A node that is to be reported has no decrement to come, so it is not the one decremented.
    · rintro rfl
      have hAll := (tracks.of_due hk).2.1
      omega
    · obtain rfl := List.mem_singleton.mp hu
      by_cases hOne : (s.nodes h).waitCount = 1
      · rw [if_pos hOne] at hk
        obtain rfl := List.mem_singleton.mp hk
        rw [lowers_concat_self, List.getLast?_concat]
      · rw [if_neg hOne] at hk
        cases hk
  case inOrder =>
    refine forall_split_concat tracks.inOrder ?_
    rw [Act.InOrder]
    omega

/-- A report follows the last decrement of its node, so no node is reported twice. -/
theorem report (tracks : Tracks plan log ⟨s, before ++ ⟨g, .reporting h rest ready⟩ :: after⟩) :
    Tracks plan (log ++ [.reported g h])
      ⟨s.report h, before ++ [⟨g, .walking rest (ready + 1)⟩] ++ after⟩ := by
  have hMem : h ∈ (before ++ ⟨g, .reporting h rest ready⟩ :: after).flatMap Completion.due := by
    simp [Completion.due]
  obtain ⟨hEdges, hAll, hNew⟩ := tracks.of_due hMem
  constructor
  case successors => exact tracks.successors
  case spent =>
    intro k
    simpa [Act.runs] using tracks.spent k
  case counters =>
    intro k hk
    simpa [Act.lowers] using tracks.counters k hk
  case walked =>
    intro k
    simpa [Act.lowers, Act.begins, Completion.pending] using tracks.walked k
  case granted =>
    intro k
    have hGranted := tracks.granted k
    simp [Act.runs, Act.reports, Completion.untouched] at hGranted ⊢
    omega
  case begun =>
    intro k
    simpa [Act.begins, Act.completes, Completion.begun] using tracks.begun k
  case announced =>
    intro k
    rw [lowers_concat_of_eq_nil _ rfl, ← tracks.announced k]
    simp [Act.reports, Completion.due, List.count_cons]
    omega
  case last =>
    refine tracks.last_concat (fun _ _ => lowers_concat_of_eq_nil _ rfl) fun u hu k hk => ?_
    obtain rfl := List.mem_singleton.mp hu
    cases hk
  case inOrder =>
    refine forall_split_concat tracks.inOrder
      ⟨fun hReady => hEdges (plan.mem_initial_iff.mp hReady).2, hNew, ?_, hAll,
        fun f hf => tracks.begins_of_precedes hAll.ge hf⟩
    exact tracks.last _ (List.mem_append_right _ List.mem_cons_self) h (List.mem_singleton.mpr rfl)

/-- A walk that has come to its end completes its node. -/
theorem finish (tracks : Tracks plan log ⟨s, before ++ ⟨g, .walking [] ready⟩ :: after⟩) :
    Tracks plan (log ++ [.completed g ready]) ⟨s, before ++ [] ++ after⟩ := by
  constructor
  case successors => exact tracks.successors
  case spent =>
    intro k
    simpa [Act.runs] using tracks.spent k
  case counters =>
    intro k hk
    simpa [Act.lowers] using tracks.counters k hk
  case walked =>
    intro k
    simpa [Act.lowers, Act.begins, Completion.pending] using tracks.walked k
  case granted =>
    intro k
    simpa [Act.runs, Act.reports, Completion.untouched] using tracks.granted k
  case begun =>
    intro k
    have hBegun := tracks.begun k
    simp [Act.begins, Act.completes, Completion.begun, List.count_cons] at hBegun ⊢
    omega
  case announced =>
    intro k
    simpa [Act.reports, Act.lowers, Completion.due] using tracks.announced k
  case last =>
    refine tracks.last_concat (fun _ _ => lowers_concat_of_eq_nil _ rfl) fun u hu => ?_
    cases hu
  case inOrder =>
    have hBegun := tracks.begun g
    have hOne := tracks.begins_le_one g
    have hWalking :
        0 < ((before ++ ⟨g, .walking [] ready⟩ :: after).flatMap Completion.begun).count g :=
      List.count_pos_iff.mpr (by simp [Completion.begun])
    dsimp only at hBegun
    exact forall_split_concat tracks.inOrder
      ⟨List.count_pos_iff.mp (by omega), List.count_eq_zero.mp (by omega)⟩

/-- One step of a completion. -/
theorem advance {t : Completion} (tracks : Tracks plan log ⟨s, before ++ t :: after⟩) :
    Tracks plan (log ++ [(t.advance s).1]) ⟨(t.advance s).2.2,
      before ++ ((t.advance s).2.1.map (⟨t.node, ·⟩)).toList ++ after⟩ := by
  obtain ⟨g, stage⟩ := t
  cases stage with
  | taken =>
      obtain ⟨outcome, env, hAdvance, hOutcome⟩ := Completion.advance_taken g s
      rw [hAdvance]
      simpa [Function.comp_def] using tracks.invoke hOutcome
  | walking rest ready =>
      cases rest with
      | nil => exact tracks.finish
      | cons h rest =>
          have hMem : h ∈ (before ++ ⟨g, .walking (h :: rest) ready⟩ :: after).flatMap
              Completion.pending := by
            simp [Completion.pending]
          rw [Completion.advance_decrement (tracks.waitCount_ne_zero hMem)]
          exact tracks.lower
  | reporting h rest ready => exact tracks.report

/-- Whatever is done next, the account goes on to tell all. -/
theorem step {x : Progress} (tracks : Tracks plan log x) (move : Move) :
    Tracks plan (log ++ (x.step move).1.toList) (x.step move).2 := by
  rcases x.step_cases move with hStep | ⟨h, hReady, hStep⟩ | ⟨before, t, after, hUnderway, hStep⟩
  · rw [hStep, Option.toList_none, List.append_nil]
    exact tracks
  · rw [hStep, Option.toList_none, List.append_nil]
    exact tracks.take hReady
  · rw [hStep]
    obtain ⟨s, underway⟩ := x
    obtain rfl : underway = before ++ t :: after := hUnderway
    exact tracks.advance

/-- The account tells all along any moves, by induction from one step to the next. -/
theorem run {x : Progress} (tracks : Tracks plan log x) (moves : List Move) :
    Tracks plan (log ++ (x.run moves).1) (x.run moves).2 := by
  induction moves generalizing log x with
  | nil => rwa [Progress.run, List.append_nil]
  | cons move rest ih =>
      rw [Progress.run, ← List.append_assoc]
      exact ih (tracks.step move)

end Tracks

namespace Tracks

variable {plan : Plan} {log : List Act} {x : Progress} (tracks : Tracks plan log x)

include tracks

/-- No node is completed twice. -/
theorem completes_le_one (h : Handle) : (log.flatMap Act.completes).count h ≤ 1 := by
  have hBegun := tracks.begun h
  have hOne := tracks.begins_le_one h
  omega

/-- A node is ready from the start or was reported once all its predecessors are completed. -/
theorem ready_of_completed (hIdle : x.underway = []) {h : Handle} (hMem : h ∈ plan.handles)
    (hBefore : ∀ g, plan.Precedes g h → g ∈ log.flatMap Act.completes) :
    h ∈ plan.initial ∨ h ∈ log.flatMap Act.reports := by
  have hRun (g : Handle) (hPrecedes : plan.Precedes g h) : g ∈ log.flatMap Act.begins := by
    have hPos := List.count_pos_iff.mpr (hBefore g hPrecedes)
    have hBegun := tracks.begun g
    exact List.count_pos_iff.mp (by omega)
  have hEdges : plan.indegree h ≤ ((log.flatMap Act.begins).flatMap plan.successors).count h :=
    count_flatMap_le plan.nodup fun g hg hEdge => hRun g ⟨hg, hEdge⟩
  have hWalked := tracks.walked h
  have hLe := tracks.walked_le h
  have hAnnounced := tracks.announced h
  rw [hIdle, List.flatMap_nil, List.count_nil] at hWalked hLe hAnnounced
  by_cases hSource : plan.indegree h = 0
  · exact .inl (plan.mem_initial_iff.mpr ⟨hMem, hSource⟩)
  · rw [if_pos ⟨hSource, by omega⟩] at hAnnounced
    exact .inr (List.count_pos_iff.mp (by omega))

/-- Once all that was ready has been completed, every node has. By induction along the edges: a node
whose predecessors are all completed has been reported. -/
theorem completes_all (hIdle : x.underway = [])
    (hDone : ∀ h, h ∈ plan.initial ∨ h ∈ log.flatMap Act.reports → h ∈ log.flatMap Act.completes)
    {h : Handle} (hMem : h ∈ plan.handles) : h ∈ log.flatMap Act.completes := by
  induction h using plan.wellFounded_precedes.induction with
  | _ h ih =>
      exact hDone h (tracks.ready_of_completed hIdle hMem fun g hg => ih g hg hg.1)

end Tracks

/-- The acts of the completions are in order, and nothing stalls: with no completion under way, and
all nodes completed that were ready, each node of the graph has been completed once. -/
structure HandsOver (plan : Plan) (log : List Act) (x : Progress) : Prop where
  inOrder : ∀ before act after, log = before ++ act :: after → act.InOrder plan before
  complete : x.underway = [] →
    (∀ h, h ∈ plan.initial ∨ h ∈ log.flatMap Act.reports → h ∈ log.flatMap Act.completes) →
    ∀ h ∈ plan.handles, (log.flatMap Act.completes).count h = 1

/-- The nodes of a graph hand over to their successors however their completions interleave. -/
theorem run_handsOver (plan : Plan) (env : Environment) (moves : List Move) :
    HandsOver plan ((plan.start env).run moves).1 ((plan.start env).run moves).2 := by
  have tracks := (Tracks.start plan env).run moves
  rw [List.nil_append] at tracks
  refine ⟨tracks.inOrder, fun hIdle hDone h hMem => ?_⟩
  exact Nat.le_antisymm (tracks.completes_le_one h)
    (List.count_pos_iff.mpr (tracks.completes_all hIdle hDone hMem))

/-- The walks of the first two nodes overlap, and so do those of the two nodes in the middle: the
one that decrements the last node first is done before the other one reports it. -/
def overlapping : List Move :=
  [.take ⟨0⟩, .advance 0, .advance 0, .advance 0, .take ⟨1⟩, .advance 0, .advance 1, .advance 0,
    .advance 0, .take ⟨2⟩, .advance 2, .advance 2, .advance 1, .advance 2, .advance 0, .advance 0,
    .take ⟨3⟩, .advance 0, .advance 0, .advance 0]

theorem run_handsOver_diamond : ∃ log x,
    (Plan.diamond.start ⟨.system .unlimited 0 0, #[], #[], #[]⟩).run overlapping = (log, x) ∧
    log =
      [.ran ⟨0⟩ (.ok true), .decremented ⟨0⟩ ⟨1⟩, .reported ⟨0⟩ ⟨1⟩, .decremented ⟨0⟩ ⟨2⟩,
        .ran ⟨1⟩ (.ok true), .decremented ⟨0⟩ ⟨2⟩, .reported ⟨0⟩ ⟨2⟩, .ran ⟨2⟩ (.ok true),
        .decremented ⟨2⟩ ⟨3⟩, .decremented ⟨1⟩ ⟨3⟩, .completed ⟨2⟩ 0, .completed ⟨0⟩ 2,
        .reported ⟨1⟩ ⟨3⟩, .completed ⟨1⟩ 1, .ran ⟨3⟩ (.ok true), .completed ⟨3⟩ 0] ∧
    HandsOver .diamond log x ∧
    ∀ h ∈ Plan.diamond.handles, (log.flatMap Act.completes).count h = 1 := by
  have hOver := run_handsOver .diamond ⟨.system .unlimited 0 0, #[], #[], #[]⟩ overlapping
  refine ⟨_, _, rfl, by decide +kernel, hOver, hOver.complete (by decide +kernel) fun h hReady => ?_⟩
  have hInitial : Plan.diamond.initial = [⟨0⟩] := by decide +kernel
  have hReports : ((Plan.diamond.start ⟨.system .unlimited 0 0, #[], #[], #[]⟩).run
      overlapping).1.flatMap Act.reports = [⟨1⟩, ⟨2⟩, ⟨3⟩] := by decide +kernel
  have hCompletes : ((Plan.diamond.start ⟨.system .unlimited 0 0, #[], #[], #[]⟩).run
      overlapping).1.flatMap Act.completes = [⟨2⟩, ⟨0⟩, ⟨1⟩, ⟨3⟩] := by decide +kernel
  rw [hInitial, hReports, ← List.mem_append] at hReady
  rw [hCompletes]
  revert h
  decide +kernel

end TaskMemory.Graph
