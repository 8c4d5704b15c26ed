import TaskMemory.Proofs.Pool.Invariant

/-!
Runs consist of steps. `Follows` says of a pool in the hands of a program that a sequence of steps
has led to it, that the same holds of all that the program has looked at, and that the pool has
answered what the book says. Each operation keeps this if the code that runs inside it does, so a
program keeps it, whatever programs are nested in it.
-/
namespace TaskMemory.Pool

variable {α : Type} [Stored α]

/-- The moment at which a pool is, while these constructions are under way. -/
def Usage.moment (w : Usage α) (claims : List Place) : Moment α := ⟨w.pool, w.state.book, claims⟩

/-- A sequence of steps has led from a moment to another one, and to this environment. -/
def Reaches (m₀ : Moment α) (env₀ : Environment) (m : Moment α) (env : Environment) : Prop :=
  ∃ es, Steps m₀ es m ∧ env = Effect.replay es env₀

/-- What holds of a pool in the hands of a program, while these constructions and drops are under
way. -/
structure Follows (m₀ : Moment α) (env₀ : Environment) (claims : List Place)
    (closing : List (Holding α)) (w : Usage α) : Prop where
  reached : Reaches m₀ env₀ (w.moment claims) w.env
  closing : w.state.book.closing = closing
  views : ∀ view ∈ w.state.views, ∃ claims,
    Reaches m₀ env₀ ⟨view.pool, view.state, claims⟩ view.env
  replies : ∀ reply ∈ w.state.replies, reply.given = .ok (some reply.stored)

variable {m₀ m m' : Moment α} {env₀ env env' : Environment} {claims claims' : List Place}
  {closing closing' : List (Holding α)} {w w' : Usage α} {es : List (Effect α)} {r : Holding α}

theorem Reaches.step (reached : Reaches m₀ env₀ m env) (step : Step m es m')
    (hEnv : env' = Effect.replay es env) : Reaches m₀ env₀ m' env' := by
  obtain ⟨before, steps, rfl⟩ := reached
  exact ⟨before ++ es, steps.succ step, by rw [hEnv, Effect.replay_append]⟩

/-- A step of the pool that shows neither in the views nor in the replies. -/
theorem Follows.step (follows : Follows m₀ env₀ claims closing w)
    (step : Step (w.moment claims) es (w'.moment claims'))
    (hEnv : w'.env = Effect.replay es w.env) (hClosing : w'.state.book.closing = closing')
    (hViews : w'.state.views = w.state.views) (hReplies : w'.state.replies = w.state.replies) :
    Follows m₀ env₀ claims' closing' w' where
  reached := follows.reached.step step hEnv
  closing := hClosing
  views := by rw [hViews]; exact follows.views
  replies := by rw [hReplies]; exact follows.replies

/-- Pool and book agree wherever a program has come to. -/
theorem Follows.fits (follows : Follows m₀ env₀ claims closing w) (fits₀ : m₀.Fits) :
    (w.moment claims).Fits := by
  obtain ⟨es, steps, _⟩ := follows.reached
  exact steps.fits fits₀

theorem Follows.look (follows : Follows m₀ env₀ claims closing w) :
    Follows m₀ env₀ claims closing w.look where
  reached := follows.reached
  closing := follows.closing
  views := by
    intro view hView
    rcases List.mem_append.mp hView with hView | hView
    · exact follows.views view hView
    · obtain rfl := List.mem_singleton.mp hView
      exact ⟨claims, follows.reached⟩
  replies := follows.replies

theorem Follows.note (follows : Follows m₀ env₀ claims closing w) (r : Holding α) :
    Follows m₀ env₀ claims closing (w.note r (.ok (some r.value))) where
  reached := follows.reached
  closing := follows.closing
  views := follows.views
  replies := by
    intro reply hReply
    rcases List.mem_append.mp hReply with hReply | hReply
    · exact follows.replies reply hReply
    · obtain rfl := List.mem_singleton.mp hReply
      rfl

/-- The directory makes room as its protocol says and then has the new slab. -/
theorem push_eq (p : Pool α) (env : Environment) :
    p.directory.push directoryEntry (Slab.fresh p.slabCapacity).unlink env =
      (p.append.directory, Effect.replay p.growth env) := by
  have hSize : p.directory.items.size = p.directory.size := rfl
  by_cases hFull : p.directory.size = p.directory.capacity
  · by_cases hEmpty : p.directory.capacity = 0
    · simp [Table.push, Table.grow, append, growth, directoryBlock, hSize, hFull, hEmpty,
        Effect.replay, Effect.act]
    · simp [Table.push, Table.grow, append, growth, directoryBlock, hSize, hFull, hEmpty,
        Effect.replay, Effect.act]
  · simp [Table.push, append, growth, hSize, hFull]

/-- A pool that is found full and below its limit comes to a slot, or it does not. -/
theorem Follows.extend (follows : Follows m₀ env₀ claims closing w) (fits₀ : m₀.Fits) :
    match w.pool.extend w.env with
    | (.ok site, p, env) =>
      Follows m₀ env₀ (site :: claims) closing (Usage.record Book.enter ⟨p, env, w.state⟩)
    | (.error _, p, env) => Follows m₀ env₀ claims closing ⟨p, env, w.state⟩ := by
  obtain ⟨p, env, state⟩ := w
  rw [Pool.extend]
  cases hVacancy : p.vacancy? with
  | some found =>
      have hClaim : p.claim found = (.ok found, p.mapSlab found.slab Slab.unlink) :=
        (follows.fits fits₀).housed.tidy.claim_eq (offers_vacancy hVacancy)
      have probed : Follows m₀ env₀ claims closing
          ⟨p, (env.allocate p.slabStorage).release p.slabStorage, state⟩ :=
        follows.step (.probe _) rfl follows.closing rfl rfl
      simp only [hClaim]
      exact probed.step (.claim hVacancy) rfl follows.closing rfl rfl
  | none =>
      by_cases hLimit : p.atLimit
      · simp only [hLimit, ↓reduceIte]
        have probed : Follows m₀ env₀ claims closing
            ⟨p, (env.allocate p.slabStorage).release p.slabStorage, state⟩ :=
          follows.step (.probe _) rfl follows.closing rfl rfl
        exact probed.step (.announce _ _) rfl follows.closing rfl rfl
      · simp only [hLimit, Bool.false_eq_true, ↓reduceIte, push_eq]
        have appended : Follows m₀ env₀ (⟨p.slabCount, 0⟩ :: claims) closing
            (Usage.record Book.enter
              ⟨p.append, Effect.replay p.growth (env.allocate p.slabStorage), state⟩) :=
          follows.step (.append hVacancy (by simpa using hLimit)) rfl follows.closing rfl rfl
        exact appended.step (.announce _ _) rfl follows.closing rfl rfl

/-- A construction comes to a slot, or it does not. -/
theorem Follows.acquire (follows : Follows m₀ env₀ claims closing w) (fits₀ : m₀.Fits)
    {growing : Usage α → Usage α} (hGrowing : ∀ w, Follows m₀ env₀ claims closing w →
      Follows m₀ env₀ claims closing (growing w)) :
    match Host.acquire (fun w => ((), growing w)) w with
    | (.ok site, _, w') => Follows m₀ env₀ (site :: claims) closing (Usage.record Book.enter w')
    | (.error _, _, w') => Follows m₀ env₀ claims closing w' := by
  rw [Host.acquire]
  cases hVacancy : w.pool.vacancy? with
  | some found =>
      have hClaim : w.pool.claim found = (.ok found, w.pool.mapSlab found.slab Slab.unlink) :=
        (follows.fits fits₀).housed.tidy.claim_eq (offers_vacancy hVacancy)
      simp only [hClaim]
      exact follows.step (.claim hVacancy) rfl follows.closing rfl rfl
  | none =>
      by_cases hLimit : w.pool.atLimit
      · simp only [hLimit, ↓reduceIte]
        exact follows.step (.announce _ _) rfl follows.closing rfl rfl
      · simp only [hLimit, Bool.false_eq_true, ↓reduceIte]
        have hExtend := (hGrowing w follows).extend fits₀
        rcases hOutcome : (growing w).pool.extend (growing w).env with ⟨_ | site, p, env⟩
        · rw [hOutcome] at hExtend
          exact hExtend
        · rw [hOutcome] at hExtend
          exact hExtend

/-- A construction ends with a value in the pool, or without one and with the slot free again. -/
theorem Follows.construct (follows : Follows m₀ env₀ claims closing w) (fits₀ : m₀.Fits) (v : α)
    {growing building : Usage α → Usage α} (failure : Option Fault)
    (hGrowing : ∀ w, Follows m₀ env₀ claims closing w →
      Follows m₀ env₀ claims closing (growing w))
    (hBuilding : ∀ site w, Follows m₀ env₀ (site :: claims) closing w →
      Follows m₀ env₀ (site :: claims) closing (building w)) :
    Follows m₀ env₀ claims closing (w.construct v growing building failure) := by
  have hAcquire := follows.acquire fits₀ hGrowing
  rcases hOutcome : Host.acquire (fun w => ((), growing w)) w with ⟨refusal | site, grown, w'⟩
  · rw [hOutcome] at hAcquire
    have rejected : Follows m₀ env₀ claims closing (Usage.record (·.refuse v)
        { w' with env := (Stored.drop refusal.isFault v w'.env).2.2 }) :=
      hAcquire.step (.reject refusal.isFault v) rfl hAcquire.closing rfl rfl
    simp only [Usage.construct, Host.construct, hOutcome]
    rcases hDrop : Stored.drop refusal.isFault v w'.env with ⟨_ | fault, rest, env⟩
    · simpa only [hDrop] using rejected
    · simpa only [hDrop] using rejected
  · rw [hOutcome] at hAcquire
    have built := hBuilding site _ hAcquire
    simp only [Usage.construct, Host.construct, hOutcome]
    generalize building (Usage.record Book.enter w') = u at built
    cases failure with
    | none =>
        have published : Follows m₀ env₀ claims closing (Usage.record
            (fun b => b.leave.lodge (u.pool.handle site) v)
            { u with pool := u.pool.publish site v }) :=
          built.step (.publish v) rfl built.closing rfl rfl
        exact published.step (.announce _ _) rfl built.closing rfl rfl
    | some fault =>
        have reclaimed : Follows m₀ env₀ claims closing (Usage.record Book.leave
            { u with pool := u.pool.reclaim site }) :=
          built.step .reclaim rfl built.closing rfl rfl
        exact reclaimed.step (.reject true v) rfl built.closing rfl rfl

theorem Follows.get (follows : Follows m₀ env₀ claims closing w) (fits₀ : m₀.Fits)
    (h : w.state.book.find? r.handle = some r) : Follows m₀ env₀ claims closing (w.get r) := by
  have hGet := (follows.fits fits₀).get?_eq (List.mem_of_find?_eq_some h)
  rw [Usage.get, hGet]
  exact follows.note r

theorem Follows.edit (follows : Follows m₀ env₀ claims closing w) (fits₀ : m₀.Fits)
    (h : w.state.book.find? r.handle = some r) (change : α → α) :
    Follows m₀ env₀ claims closing (w.edit r change) := by
  have hGet := (follows.fits fits₀).get?_eq (List.mem_of_find?_eq_some h)
  simp only [Usage.edit, hGet]
  exact (follows.note r).step (.edit h (change r.value)) rfl follows.closing rfl rfl

/-- A value that is taken out leaves pool and book together. -/
theorem Follows.take (follows : Follows m₀ env₀ claims closing w) (fits₀ : m₀.Fits)
    (h : w.state.book.find? r.handle = some r) : Follows m₀ env₀ claims closing (w.take r) := by
  have hTake := (follows.fits fits₀).take_eq (List.mem_of_find?_eq_some h)
  simp only [Usage.take, hTake]
  exact (follows.note r).step (.take h) rfl follows.closing rfl rfl

/-- The pool inside the drop of a value, before any code has run there. -/
def Usage.begun (r : Holding α) (w : Usage α) : Usage α :=
  Usage.record (·.close r)
    { w with
      pool := w.pool.update (w.pool.place r.handle) Slot.retire
      env := Stored.beginDrop r.value w.env }

/-- The pool inside the drop of a value, after the code there has run. -/
def Usage.inside (r : Holding α) (dropping : Usage α → Usage α) (w : Usage α) : Usage α :=
  if Stored.runsCode α then dropping (w.begun r) else w.begun r

/-- A drop that begins is entered before user code runs inside it. -/
theorem Follows.begun (follows : Follows m₀ env₀ claims closing w)
    (h : w.state.book.find? r.handle = some r) :
    Follows m₀ env₀ claims (r :: closing) (w.begun r) :=
  follows.step (.close h) rfl (congrArg (r :: ·) follows.closing) rfl rfl

/-- What runs inside a drop follows the book if the code does. -/
theorem Follows.inside (follows : Follows m₀ env₀ claims closing w)
    (h : w.state.book.find? r.handle = some r) {dropping : Usage α → Usage α}
    (hDropping : ∀ w, Follows m₀ env₀ claims (r :: closing) w →
      Follows m₀ env₀ claims (r :: closing) (dropping w)) :
    Follows m₀ env₀ claims (r :: closing) (w.inside r dropping) := by
  rw [Usage.inside]
  split
  · exact hDropping _ (follows.begun h)
  · exact follows.begun h

theorem Follows.codec_eq (follows : Follows m₀ env₀ claims closing w) :
    w.pool.codec = m₀.pool.codec := by
  obtain ⟨es, steps, _⟩ := follows.reached
  exact steps.codec_eq

/-- Handles name the same slots at all times. -/
theorem Follows.place_eq (follows : Follows m₀ env₀ claims closing w)
    (follows' : Follows m₀ env₀ claims' closing' w') : w.pool.place = w'.pool.place := by
  funext h
  rw [Pool.place, Pool.place, follows.codec_eq, follows'.codec_eq]

/-- What a destruction comes to depends on how the drop of the value ends. -/
theorem Follows.destroy_eq (follows : Follows m₀ env₀ claims closing w) (fits₀ : m₀.Fits)
    (h : w.state.book.find? r.handle = some r) {dropping : Usage α → Usage α}
    {u : Usage α} (hInside : w.inside r dropping = u)
    (inside : Follows m₀ env₀ claims (r :: closing) u) :
    Host.destroy r.handle (fun w => ((), dropping w)) (w.close r) =
      match Stored.endDrop false r.value u.env with
      | (some fault, rest, env) => (.error fault, if Stored.runsCode α then some () else none,
        { u with pool := u.pool.update (u.pool.place r.handle) (Slot.write rest), env })
      | (none, _, env) => (.ok (), if Stored.runsCode α then some () else none,
        { u with pool := u.pool.recycled (u.pool.place r.handle), env }) := by
  have fits := follows.fits fits₀
  have hMem : r ∈ w.state.book.contents := List.mem_of_find?_eq_some h
  have hSlab : (w.close r).pool.hasSlab r.handle = true := fits.hasSlab_eq hMem
  obtain ⟨slot, hSlot, _, hRead⟩ := fits.exists_slot hMem
  have hValue : ((w.close r).pool.slot? ((w.close r).pool.place r.handle)).bind Slot.read? =
      some r.value := Option.bind_eq_some_iff.mpr ⟨slot, hSlot, hRead⟩
  have hPlace : (w.close r).pool.place r.handle = u.pool.place r.handle :=
    congrFun (follows.place_eq inside) r.handle
  have hSeats := Book.seats_settle u.pool.place inside.closing
  have hRecycle : u.pool.recycle (u.pool.place r.handle) =
      .ok (u.pool.recycled (u.pool.place r.handle)) :=
    ((inside.fits fits₀).housed.front hSeats).recycle_eq
  have hRun : (if Stored.runsCode α then
        (some (), dropping { w.close r with
          pool := (w.close r).pool.update ((w.close r).pool.place r.handle) Slot.retire
          env := Stored.beginDrop r.value (w.close r).env })
      else (none, { w.close r with
          pool := (w.close r).pool.update ((w.close r).pool.place r.handle) Slot.retire
          env := Stored.beginDrop r.value (w.close r).env })) =
      (if Stored.runsCode α then some () else none, u) := by
    rw [← hInside, Usage.inside]
    split <;> rfl
  rw [Host.destroy, if_pos hSlab]
  dsimp only
  rw [hValue]
  dsimp only
  rw [hRun, hPlace]
  dsimp only
  rcases Stored.endDrop false r.value u.env with ⟨_ | fault, rest, env⟩
  · simp only [Host.recycle, hRecycle]
  · rfl

/-- What can be read in the slot of a drop that has ended in a fault is what the drop left. -/
theorem Follows.leftover_eq (inside : Follows m₀ env₀ claims (r :: closing) w) (fits₀ : m₀.Fits)
    (rest : α) (env : Environment) :
    Usage.leftover r { w with
      pool := w.pool.update (w.pool.place r.handle) (Slot.write rest), env } =
      { r with value := rest } := by
  have hSeats := Book.seats_settle w.pool.place inside.closing
  have spoiled := ((inside.fits fits₀).housed.front hSeats).spoil rest
  obtain ⟨slot, hSlot, _, hRead⟩ := spoiled.fits _ List.mem_cons_self
  have hValue : ((w.pool.update (w.pool.place r.handle) (Slot.write rest)).slot?
      (w.pool.place r.handle)).bind Slot.read? = some rest :=
    Option.bind_eq_some_iff.mpr ⟨slot, hSlot, hRead⟩
  change ({ r with value := Option.getD _ r.value } : Holding α) = _
  exact congrArg (fun found => { r with value := Option.getD found r.value }) hValue

/-- A destruction gives the slot back, or it leaves what the drop has left of the value. -/
theorem Follows.usage_destroy_eq (follows : Follows m₀ env₀ claims closing w) (fits₀ : m₀.Fits)
    (h : w.state.book.find? r.handle = some r) {dropping : Usage α → Usage α}
    {u : Usage α} (hInside : w.inside r dropping = u)
    (inside : Follows m₀ env₀ claims (r :: closing) u) :
    w.destroy r dropping =
      match Stored.endDrop false r.value u.env with
      | (some _, rest, env) => Usage.record (·.spoil { r with value := rest })
        { u with pool := u.pool.update (u.pool.place r.handle) (Slot.write rest), env }
      | (none, _, env) => Usage.record Book.settle
        { u with pool := u.pool.recycled (u.pool.place r.handle), env } := by
  rw [Usage.destroy, follows.destroy_eq fits₀ h hInside inside]
  rcases Stored.endDrop false r.value u.env with ⟨_ | fault, rest, env⟩
  · rfl
  · dsimp only
    rw [inside.leftover_eq fits₀ rest env]

/-- A destruction gives the slot back, or its value is spoiled by a fault. -/
theorem Follows.destroy (follows : Follows m₀ env₀ claims closing w) (fits₀ : m₀.Fits)
    (h : w.state.book.find? r.handle = some r) {dropping : Usage α → Usage α}
    (hDropping : ∀ w, Follows m₀ env₀ claims (r :: closing) w →
      Follows m₀ env₀ claims (r :: closing) (dropping w)) :
    Follows m₀ env₀ claims closing (w.destroy r dropping) := by
  have inside := follows.inside h hDropping
  rw [follows.usage_destroy_eq fits₀ h rfl inside]
  generalize w.inside r dropping = u at inside
  have hClosing : u.state.book.closing.tail = closing := by rw [inside.closing]; rfl
  rcases hEnd : Stored.endDrop false r.value u.env with ⟨_ | fault, rest, env⟩
  · have hEnv : env = Effect.replay [.endDrop false r.value] u.env :=
      (congrArg (fun ended => ended.2.2) hEnd).symm
    exact inside.step (.settle inside.closing) hEnv hClosing rfl rfl
  · have hEnv : env = Effect.replay [.endDrop false r.value] u.env :=
      (congrArg (fun ended => ended.2.2) hEnd).symm
    exact inside.step (.spoil inside.closing rest) hEnv hClosing rfl rfl

/-- Work through a handle is work on a value that is in the book. -/
theorem Follows.through (follows : Follows m₀ env₀ claims closing w) (h : Handle)
    {work : Holding α → Usage α → Usage α}
    (hWork : ∀ r, w.state.book.find? r.handle = some r →
      Follows m₀ env₀ claims closing (work r w)) :
    Follows m₀ env₀ claims closing (w.through h work) := by
  rw [Usage.through]
  cases hFind : w.state.book.find? h with
  | none => exact follows
  | some r =>
      obtain ⟨rfl, _⟩ := Book.contents_perm hFind
      exact hWork r hFind

/-- A program keeps what holds of the pool, by induction on the program: what runs inside an
operation is a part of the program. -/
theorem Program.follows (fits₀ : m₀.Fits) (program : Program α)
    (follows : Follows m₀ env₀ claims closing w) :
    Follows m₀ env₀ claims closing (program.run w) := by
  induction program generalizing claims closing w with
  | done => exact follows.look
  | construct v growing building failure rest ihGrowing ihBuilding ihRest =>
      exact ihRest (follows.look.construct fits₀ v failure (fun _ => ihGrowing)
        fun _ _ => ihBuilding)
  | get h rest ih =>
      exact ih (follows.look.through h fun r hFind => follows.look.get fits₀ hFind)
  | edit h change rest ih =>
      exact ih (follows.look.through h fun r hFind => follows.look.edit fits₀ hFind change)
  | destroy h dropping rest ihDropping ihRest =>
      exact ihRest (follows.look.through h fun r hFind =>
        follows.look.destroy fits₀ hFind fun _ => ihDropping)
  | take h rest ih =>
      exact ih (follows.look.through h fun r hFind => follows.look.take fits₀ hFind)

/-- A program takes a pool over as it has been seen, with the book that goes with it. -/
def Usage.resume (view : Host α (Book α)) : Usage α :=
  ⟨view.pool, view.env, { book := view.state }⟩

/-- A program may be resumed where a view was taken. -/
theorem Reaches.resumed {view : Host α (Book α)}
    (reached : Reaches m₀ env₀ ⟨view.pool, view.state, claims⟩ view.env) :
    Follows m₀ env₀ claims view.state.closing (Usage.resume view) where
  reached := reached
  closing := rfl
  views := by simp [Usage.resume]
  replies := by simp [Usage.resume]

/-- The moment before anything has happened to a pool. -/
def Moment.initial (p : Pool α) : Moment α := ⟨p, {}, []⟩

/-- A new pool agrees with an empty book. -/
theorem Moment.fits_initial {o : PoolOptions} {p : Pool α} (h : Pool.create o = .ok p) :
    (Moment.initial p).Fits := by
  obtain ⟨codec, hMake, rfl⟩ := create_eq h
  exact ⟨Codec.make_packs hMake, Nat.zero_le _, housed_empty rfl, rfl, rfl⟩

/-- Every run of a program follows steps from the beginning. -/
theorem Program.follows_initial {o : PoolOptions} {p : Pool α} (h : Pool.create o = .ok p)
    (env : Environment) (program : Program α) :
    Follows (Moment.initial p) env [] [] (program.run (Usage.start p env)) := by
  apply program.follows (Moment.fits_initial h)
  exact ⟨⟨[], .zero _, rfl⟩, rfl, by simp [Usage.start], by simp [Usage.start]⟩

end TaskMemory.Pool
