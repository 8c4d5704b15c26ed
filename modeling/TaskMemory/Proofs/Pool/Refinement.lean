import TaskMemory.Proofs.Pool.Simulation

/-!
A pool refines a plain map. Whatever programs run and wherever they nest, a handle in the book reads
as the value that was stored under it last, and a value leaves the book or changes there only by an
operation on its own handle.
-/
namespace TaskMemory

namespace Host

variable {α σ β γ : Type} [Stored α] {P : σ → Prop} {w : Host α σ}

/-- What the callback keeps of the state of the host is kept while a slot is acquired. -/
theorem acquire_state {growing : Host α σ → β × Host α σ}
    (hGrowing : ∀ w : Host α σ, P w.state → P (growing w).2.state) (h : P w.state) :
    P (w.acquire growing).2.2.state := by
  rw [acquire]
  cases w.pool.vacancy? with
  | some found => exact h
  | none =>
      by_cases hLimit : w.pool.atLimit
      · simpa only [hLimit, ↓reduceIte] using h
      · simpa only [hLimit, Bool.false_eq_true, ↓reduceIte] using hGrowing w h

/-- What the callbacks keep of the state of the host a construction keeps. -/
theorem construct_state (growing : Host α σ → β × Host α σ) (building : Host α σ → γ × Host α σ)
    (hGrowing : ∀ w : Host α σ, P w.state → P (growing w).2.state)
    (hBuilding : ∀ w : Host α σ, P w.state → P (building w).2.state) (v : α)
    (failure : Option Fault) (h : P w.state) :
    P (w.construct v growing building failure).2.state := by
  have hAcquire := acquire_state hGrowing h
  rw [construct]
  rcases hOutcome : w.acquire growing with ⟨refusal | site, grown, w'⟩
  · rw [hOutcome] at hAcquire
    dsimp only
    rcases Stored.drop refusal.isFault v w'.env with ⟨_ | fault, rest, env⟩
    · exact hAcquire
    · exact hAcquire
  · rw [hOutcome] at hAcquire
    have hBuilt := hBuilding w' hAcquire
    cases failure with
    | none => exact hBuilt
    | some fault => exact hBuilt

omit [Stored α] in
theorem recycle_state (site : Place) (w : Host α σ) : (w.recycle site).2.state = w.state := by
  rw [recycle]
  split <;> rfl

/-- What the code inside the drop keeps of the state of the host a destruction keeps. -/
theorem destroy_state (dropping : Host α σ → β × Host α σ)
    (hDropping : ∀ w : Host α σ, P w.state → P (dropping w).2.state) (target : Handle)
    (h : P w.state) : P (w.destroy target dropping).2.2.state := by
  rw [destroy]
  split
  · dsimp only
    split
    · exact (recycle_state _ w).symm ▸ h
    · next v hValue =>
        let begun : Host α σ :=
          { w with
            pool := w.pool.update (w.pool.place target) Slot.retire
            env := Stored.beginDrop v w.env }
        by_cases hCode : Stored.runsCode α
        · have hRun : P (dropping begun).2.state := hDropping begun h
          simp only [hCode, ↓reduceIte]
          rcases Stored.endDrop false v (dropping begun).2.env with ⟨_ | fault, rest, env⟩
          · exact (recycle_state _ _).symm ▸ hRun
          · exact hRun
        · simp only [hCode, Bool.false_eq_true, ↓reduceIte]
          rcases Stored.endDrop false v begun.env with ⟨_ | fault, rest, env⟩
          · exact (recycle_state _ _).symm ▸ h
          · exact h
  · exact h

theorem take_state (target : Handle) (w : Host α σ) : (w.take target).2.state = w.state := by
  rw [take]
  split
  · have hRecycle := recycle_state (w.pool.place target) w
    rcases hOutcome : w.recycle (w.pool.place target) with ⟨fault | _, w'⟩
    · rwa [hOutcome] at hRecycle
    · rwa [hOutcome] at hRecycle
  · rfl

end Host

namespace Pool

variable {α : Type} [Stored α] {r : Holding α} {w : Usage α}

/-- No operation of the program changes, destroys or takes the value behind this handle. -/
def Program.Spares (h : Handle) : Program α → Prop
  | .done => True
  | .construct _ growing building _ rest => growing.Spares h ∧ building.Spares h ∧ rest.Spares h
  | .get _ rest => rest.Spares h
  | .edit target _ rest | .take target rest => target ≠ h ∧ rest.Spares h
  | .destroy target dropping rest => target ≠ h ∧ dropping.Spares h ∧ rest.Spares h

omit [Stored α] in
/-- Striking out another handle leaves a value in the book. -/
theorem Book.mem_without {b : Book α} {h : Handle} (hMem : r ∈ b.contents) (hNe : h ≠ r.handle) :
    r ∈ b.without h :=
  (List.mem_eraseP_of_neg (by simpa using hNe.symm)).mpr hMem

/-- A value stays where it is through a construction. -/
theorem Usage.mem_construct {growing building : Usage α → Usage α}
    (hGrowing : ∀ w : Usage α, r ∈ w.state.book.contents → r ∈ (growing w).state.book.contents)
    (hBuilding : ∀ w : Usage α, r ∈ w.state.book.contents → r ∈ (building w).state.book.contents)
    (v : α) (failure : Option Fault) (h : r ∈ w.state.book.contents) :
    r ∈ (w.construct v growing building failure).state.book.contents := by
  have hState := Host.construct_state (P := fun state : Journal α => r ∈ state.book.contents)
    (fun w => ((), growing w))
    (fun w => ((), record Book.leave (building (record Book.enter w))))
    hGrowing (fun w => hBuilding (record Book.enter w)) v failure h
  rw [construct]
  split
  · next hOutcome =>
      rw [hOutcome] at hState
      exact List.mem_append_left _ hState
  · next hOutcome =>
      rw [hOutcome] at hState
      exact hState

/-- A value stays where it is while another one is destroyed. -/
theorem Usage.mem_destroy {s : Holding α} {dropping : Usage α → Usage α}
    (hDropping : ∀ w : Usage α, r ∈ w.state.book.contents → r ∈ (dropping w).state.book.contents)
    (hNe : s.handle ≠ r.handle) (h : r ∈ w.state.book.contents) :
    r ∈ (w.destroy s dropping).state.book.contents := by
  have hClose : r ∈ (w.close s).state.book.contents := Book.mem_without h hNe
  have hState := Host.destroy_state (P := fun state : Journal α => r ∈ state.book.contents)
    (fun w => ((), dropping w)) hDropping s.handle hClose
  rw [destroy]
  split
  · next hOutcome =>
      rw [hOutcome] at hState
      exact hState
  · next hOutcome =>
      rw [hOutcome] at hState
      exact hState

theorem Usage.mem_edit {s : Holding α} (hNe : s.handle ≠ r.handle) (change : α → α)
    (h : r ∈ w.state.book.contents) : r ∈ (w.edit s change).state.book.contents := by
  rw [edit]
  split
  · exact List.mem_append_left _ (Book.mem_without h hNe)
  · exact h

theorem Usage.mem_take {s : Holding α} (hNe : s.handle ≠ r.handle)
    (h : r ∈ w.state.book.contents) : r ∈ (w.take s).state.book.contents := by
  have hState := Host.take_state s.handle w
  have hMem : r ∈ (Host.take s.handle w).2.state.book.contents := hState.symm ▸ h
  exact Book.mem_without hMem hNe

omit [Stored α] in
theorem Usage.mem_through {target : Handle} {work : Holding α → Usage α → Usage α}
    (hWork : ∀ s, s.handle = target → r ∈ (work s w).state.book.contents)
    (h : r ∈ w.state.book.contents) : r ∈ (w.through target work).state.book.contents := by
  rw [through]
  split
  · next s hFind => exact hWork s (Book.contents_perm hFind).1
  · exact h

/-- A program that leaves a value alone leaves it in the book as it is. -/
theorem Program.keeps (program : Program α) (spares : program.Spares r.handle)
    (h : r ∈ w.state.book.contents) : r ∈ (program.run w).state.book.contents := by
  induction program generalizing w with
  | done => exact h
  | construct v growing building failure rest ihGrowing ihBuilding ihRest =>
      obtain ⟨hGrowing, hBuilding, hRest⟩ := spares
      exact ihRest hRest (Usage.mem_construct (fun _ => ihGrowing hGrowing)
        (fun _ => ihBuilding hBuilding) v failure h)
  | get target rest ih => exact ih spares (Usage.mem_through (fun _ _ => h) h)
  | edit target change rest ih =>
      obtain ⟨hNe, hRest⟩ := spares
      exact ih hRest (Usage.mem_through (fun s hs => Usage.mem_edit (hs ▸ hNe) change h) h)
  | destroy target dropping rest ihDropping ihRest =>
      obtain ⟨hNe, hDropping, hRest⟩ := spares
      exact ihRest hRest (Usage.mem_through
        (fun s hs => Usage.mem_destroy (fun _ => ihDropping hDropping) (hs ▸ hNe) h) h)
  | take target rest ih =>
      obtain ⟨hNe, hRest⟩ := spares
      exact ih hRest (Usage.mem_through (fun s hs => Usage.mem_take (hs ▸ hNe) h) h)

/-- A pool reads as the map in the book. -/
structure Reads (w : Host α (Book α)) : Prop where
  get : ∀ r ∈ w.state.contents, w.get? r.handle = .ok (some r.value)
  take : ∀ r ∈ w.state.contents, (w.take r.handle).1 = .ok (some r.value)
  /-- No two handles name the same slot. -/
  apart : (w.state.contents.map fun r => w.pool.place r.handle).Nodup

/-- Whatever runs, in whatever nesting: the pool answers with the value that was stored last, at
every point at which user code can look it reads as the map in the book, and from any such point on
a value stays as it is until an operation on its own handle. -/
theorem Program.refines_map {o : PoolOptions} {p : Pool α} (h : Pool.create o = .ok p)
    (env : Environment) (program : Program α) :
    (∀ reply ∈ (program.run (Usage.start p env)).state.replies,
      reply.given = .ok (some reply.stored)) ∧
    ∀ view ∈ (program.run (Usage.start p env)).state.views, Reads view ∧
      ∀ r ∈ view.state.contents, ∀ next : Program α, next.Spares r.handle →
        r ∈ (next.run (Usage.resume view)).state.book.contents ∧
        (next.run (Usage.resume view)).get? r.handle = .ok (some r.value) := by
  have follows := program.follows_initial h env
  refine ⟨follows.replies, fun view hView => ?_⟩
  obtain ⟨claims, reached⟩ := follows.views view hView
  have resumed := reached.resumed
  have fits : (⟨view.pool, view.state, claims⟩ : Moment α).Fits :=
    resumed.fits (Moment.fits_initial h)
  refine ⟨⟨fun r hr => fits.get?_eq hr, fun r hr => ?_, fits.nodup_places⟩, ?_⟩
  · rw [fits.take_eq hr]
  · intro r hr next spares
    have hKept := next.keeps (w := Usage.resume view) spares hr
    have after := next.follows (Moment.fits_initial h) resumed
    exact ⟨hKept, (after.fits (Moment.fits_initial h)).get?_eq hKept⟩

/-- The value of the second handle is changed in the middle of a construction, read inside the drop
of the first one, and taken. -/
theorem Program.refines_map_nested :
    ((nested.run (Usage.start (pair Tracked) untouched)).state.replies.map fun reply =>
      (reply.handle.raw, reply.stored.id)) = [(1, 2), (1, 4), (1, 4)] ∧
    ∀ reply ∈ (nested.run (Usage.start (pair Tracked) untouched)).state.replies,
      reply.given = .ok (some reply.stored) :=
  ⟨by decide +kernel, (Program.refines_map create_pair untouched nested).1⟩

end Pool
end TaskMemory
