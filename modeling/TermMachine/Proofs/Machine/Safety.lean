import TermMachine.Proofs.Machine.Invariant

/-! # What no instructions can break

The main results on machines that execute arbitrary instructions, with errors on the way and after
them: what the heap and the registers look like, `reachable_layout`, and which errors can occur,
`reachable_errors`.
-/

namespace TermMachine

def MachineError.memory? : MachineError → Option MemoryError
  | .memory e | .cursor (.memory e) => some e
  | .register _ | .cursor _ | .stepLimitExceeded _ => none

/-- An error that instructions can lead to. -/
structure MachineError.Possible (e : MachineError) : Prop where
  memory : ∀ e', e.memory? = some e' → ∃ capacity, e' = .heapOverflow capacity
  cursor : ∀ n, e ≠ .cursor (.noMoreTerms n)

/-- An argument was added, and not where the structure expected it. -/
def Effect.OutOfPlace (effect : Effect) : Prop :=
  ∃ index expected found m, effect = .error (.cursor (.termOutOfPlace index expected found)) m

namespace Machine

/-- The layout of heap and registers, at every point in the life of a machine. -/
theorem reachable_layout {registerCount : Nat} {limits : Limits} {m : Machine}
    (reached : Reachable registerCount limits m) :
    -- structures lead to symbols
    (∀ a f : Address, m.heap.cells[a]? = some (.str f) →
      f < m.heap.top ∧ ∃ s, m.heap.cells[f]? = some (.symbol s)) ∧
    -- symbols have their arguments behind them, but for one that is written or was when all failed
    (∀ (p : Address) s, m.heap.cells[p]? = some (.symbol s) →
      m.heap.Filled p s.arity ∨
        (m.heap.Unfilled p s.arity ∧ (m.cursor.Writes p ∨ m.status = .failed))) ∧
    (∀ (p q : Address) s t, m.heap.cells[p]? = some (.symbol s) →
      m.heap.cells[q]? = some (.symbol t) → ¬m.heap.Filled p s.arity →
      ¬m.heap.Filled q t.arity → p = q) ∧
    (∀ v, m.cursor.visit? = some v → ∃ p s, v.Fits m.heap p s) ∧
    -- references lead to terms, and down unless they lead to a structure
    (∀ a r : Address, m.heap.cells[a]? = some (.ref r) →
      m.heap.IsTerm r ∧ r < m.heap.top ∧ (r ≤ a ∨ ∃ f, m.heap.cells[r]? = some (.str f))) ∧
    (∀ a, m.heap.IsTerm a → ∃ b, m.heap.deref a = .ok b) ∧
    (∀ a b : Address, m.heap.deref a = .ok b → m.heap.cells[b]? = some (.ref b) → b ≤ a) ∧
    -- registers lead to terms
    (∀ x a, m.registers.held x = some a → m.heap.IsTerm a ∧ a < m.heap.top) := by
  have wf := reached.wellFormed
  refine ⟨fun a f cell => ?_, fun p s => wf.arguments, fun p q s t hp hq np nq => ?_,
    fun v => wf.visit, fun a r cell => ?_, fun a term => ?_, fun a b chain last => ?_,
    fun x a held => ?_⟩
  · obtain ⟨s, symbol⟩ := wf.linked.str cell
    exact ⟨Heap.lt_top_of_cell symbol, s, symbol⟩
  · have up := (wf.arguments hp).resolve_left np
    have uq := (wf.arguments hq).resolve_left nq
    exact unfilled_unique hp hq up.1 uq.1
  · have term := wf.linked.ref cell
    exact ⟨term, term.lt_top, wf.linked.down cell⟩
  · obtain ⟨b, ends⟩ := wf.linked.ends term
    exact ⟨b, Heap.deref_eq_ok_iff.mpr ends⟩
  · exact wf.linked.unbound_le ⟨Heap.deref_eq_ok_iff.mp chain, last⟩
  · have term := wf.registers held
    exact ⟨term, term.lt_top⟩

/-- A machine that has begun to write a structure of two arguments and written one of them. -/
def halfWritten : Machine :=
  ((new 2 .unlimited).run 0 [.putStructure ⟨"f", 2⟩ 0, .setVariable 1]).machine

theorem halfWritten_layout :
    Reachable 2 .unlimited halfWritten ∧
      (halfWritten.heap.Filled 1 2 ∨
        (halfWritten.heap.Unfilled 1 2 ∧
          (halfWritten.cursor.Writes 1 ∨ halfWritten.status = .failed))) := by
  have reached : Reachable 2 .unlimited halfWritten := Reachable.new.run 0 _
  exact ⟨reached, (reachable_layout reached).2.1 1 ⟨"f", 2⟩ rfl⟩

/-! ## Errors -/

theorem possible_register (e : RegisterError) : (MachineError.register e).Possible :=
  ⟨nofun, nofun⟩

theorem possible_notActive : (MachineError.cursor .notActive).Possible := ⟨nofun, nofun⟩

theorem possible_currentlyActive : (MachineError.cursor .currentlyActive).Possible :=
  ⟨nofun, nofun⟩

theorem possible_stepLimit (maxSteps : Nat) : (MachineError.stepLimitExceeded maxSteps).Possible :=
  ⟨nofun, nofun⟩

theorem Stored.possible {m m' : Machine} {x : Register} {a : Address} {e : MachineError}
    (stored : m.Stored x a (.error e m')) : e.Possible := by
  cases stored
  exact possible_register _

theorem OpenRefused.possible {m : Machine} {e : MachineError} (refused : m.OpenRefused e) :
    e.Possible := by
  cases refused with
  | active _ => exact possible_currentlyActive
  | full _ => exact ⟨fun e' eq => ⟨_, (Option.some.inj eq).symm⟩, nofun⟩

theorem WriteRefused.possible {m m' : Machine} {cell : Cell} {e : CursorError}
    (refused : m.WriteRefused cell e m') : (MachineError.cursor e).Possible := by
  cases refused with
  | idle _ => exact possible_notActive
  | full _ _ => exact ⟨fun e' eq => ⟨_, (Option.some.inj eq).symm⟩, nofun⟩
  | stray _ _ _ => exact ⟨nofun, nofun⟩

theorem NewVariable.possible {m m' : Machine} {x : Register} {e : MachineError}
    (added : m.NewVariable x (.error e m')) : e.Possible := by
  cases added with
  | refused refused => exact refused.possible
  | added _ stored => exact stored.possible

theorem Copied.possible {m m' : Machine} {x : Register} {e : MachineError}
    (copied : m.Copied x (.error e m')) : e.Possible := by
  cases copied with
  | unread _ => exact possible_register _
  | refused _ _ refused => exact refused.possible

theorem Transition.possible {fuel : Nat} {m m' : Machine} {i : Instruction} {e : MachineError}
    (t : Transition fuel m i (.error e m')) : e.Possible := by
  cases t with
  | putRefused refused => exact refused.possible
  | put _ _ stored => exact stored.possible
  | setVariable added => exact added.possible
  | setValue copied => exact copied.possible
  | getUnread _ => exact possible_register _
  | getRefused _ _ refused => exact refused.possible
  | getActive _ _ _ => exact possible_currentlyActive
  | unifyVariableIdle _ => exact possible_notActive
  | unifyVariableWrite _ _ added => exact added.possible
  | unifyVariableRead _ _ stored => exact stored.possible
  | unifyValueIdle _ => exact possible_notActive
  | unifyValueWrite _ _ copied => exact copied.possible
  | unifyValueUnread _ _ _ => exact possible_register _
  | unifyValueRead _ _ _ unified => cases unified

theorem Reachable.execute_error {registerCount : Nat} {limits : Limits} {m m' : Machine}
    (reached : Reachable registerCount limits m) (running : m.status = .running) {fuel : Nat}
    {is : List Instruction} {e : MachineError} (failed : m.execute fuel is = .error e m') :
    e.Possible := by
  induction is generalizing m with
  | nil =>
      simp only [Machine.execute] at failed
      split at failed
      · cases failed
      · next busy =>
          cases failed
          unfold Cursor.verifyIdle at busy
          split at busy <;> cases busy
          exact possible_currentlyActive
  | cons i is ih =>
      cases within : m.reachedLimit? with
      | some maxSteps =>
          simp only [Machine.execute, within] at failed
          cases failed
          exact possible_stepLimit maxSteps
      | none =>
          have alive : m.counted.status ≠ .failed := by simp [counted, running]
          have next := reached.executes running within fuel i
          have listed := step_transition reached.wellFormed.counted alive fuel i
          rw [execute_cons within] at failed
          cases effect : m.counted.step fuel i with
          | done m'' =>
              rw [effect] at next listed failed
              exact ih next (listed.status.trans running) failed
          | failed m'' =>
              rw [effect] at failed
              cases failed
          | error e' m'' =>
              rw [effect] at listed failed
              cases failed
              exact listed.possible
          | unfinished m'' =>
              rw [effect] at failed
              cases failed

theorem Reachable.run_error {registerCount : Nat} {limits : Limits} {m m' : Machine}
    (reached : Reachable registerCount limits m) {fuel : Nat} {is : List Instruction}
    {e : MachineError} (failed : m.run fuel is = .error e m') : e.Possible := by
  by_cases before : m.status = .failed
  · simp only [Machine.run, if_pos before] at failed
    cases failed
  · simp only [Machine.run, if_neg before] at failed
    exact (reached.begins before).execute_error rfl failed

/-! ## Arguments out of place -/

@[simp] theorem not_outOfPlace_done (m : Machine) : ¬(Effect.done m).OutOfPlace := nofun

@[simp] theorem not_outOfPlace_failed (m : Machine) : ¬(Effect.failed m).OutOfPlace := nofun

@[simp] theorem not_outOfPlace_unfinished (m : Machine) : ¬(Effect.unfinished m).OutOfPlace := nofun

@[simp] theorem outOfPlace_error_iff {e : MachineError} {m : Machine} :
    (Effect.error e m).OutOfPlace ↔
      ∃ index expected found, e = .cursor (.termOutOfPlace index expected found) := by
  simp [Effect.OutOfPlace]

theorem Stored.not_outOfPlace {m : Machine} {x : Register} {a : Address} {effect : Effect}
    (stored : m.Stored x a effect) : ¬effect.OutOfPlace := by
  cases stored <;> simp

theorem OpenRefused.not_outOfPlace {m : Machine} {e : MachineError} (refused : m.OpenRefused e) :
    ¬(Effect.error e m).OutOfPlace := by
  cases refused <;> simp

theorem Unified.not_outOfPlace {fuel : Nat} {m : Machine} {v : Visit} {a : Address}
    {effect : Effect} (unified : m.Unified fuel v a effect) : ¬effect.OutOfPlace := by
  cases unified <;> simp

/-- A structure is read, and the heap has room for one more cell. -/
def ReadsWithRoom (m : Machine) : Prop :=
  m.cursor.mode = .ok .read ∧ ∀ capacity, m.heap.capacity = some capacity → m.heap.top < capacity

theorem reserve_one_iff {h : Heap} :
    h.reserve 1 = .ok () ↔ ∀ capacity, h.capacity = some capacity → h.top < capacity := by
  unfold Heap.reserve
  cases h.capacity with
  | none => simp
  | some capacity =>
      by_cases room : h.top + 1 ≤ capacity
      · simp only [if_pos room, Option.some.injEq, forall_eq', true_iff]
        exact room
      · simp only [if_neg room, Option.some.injEq, forall_eq', false_iff, reduceCtorEq]
        exact room

theorem not_reads_of_write {m : Machine} {v : Visit} (hv : m.cursor.visit? = some v)
    (write : v.mode = .write) : ¬m.ReadsWithRoom := by
  intro reads
  have read := reads.1
  rw [mode_of_visit hv, write] at read
  cases read

theorem Writable.not_reads {m : Machine} {v : Visit} (writable : m.Writable v) :
    ¬m.ReadsWithRoom := not_reads_of_write writable.hv writable.write

theorem WriteRefused.outOfPlace_iff {m m' : Machine} {cell : Cell} {e : CursorError}
    (refused : m.WriteRefused cell e m') :
    (Effect.error (.cursor e) m').OutOfPlace ↔ m.ReadsWithRoom := by
  cases refused with
  | idle idle => simp [ReadsWithRoom, idle, Cursor.idle, Cursor.mode]
  | full hv full =>
      have noRoom : ¬m.ReadsWithRoom := by
        intro reads
        rw [reserve_one_iff.mpr reads.2] at full
        cases full
      simp [noRoom]
  | stray hv read room =>
      have reads : m.ReadsWithRoom :=
        ⟨by rw [mode_of_visit hv, read], reserve_one_iff.mp room⟩
      simp [reads]

theorem NewVariable.outOfPlace_iff {m : Machine} {x : Register} {effect : Effect}
    (added : m.NewVariable x effect) : effect.OutOfPlace ↔ m.ReadsWithRoom := by
  cases added with
  | refused refused => exact refused.outOfPlace_iff
  | added writable stored => exact iff_of_false stored.not_outOfPlace writable.not_reads

theorem Copied.outOfPlace_iff {m : Machine} {x : Register} {effect : Effect}
    (copied : m.Copied x effect) :
    effect.OutOfPlace ↔ m.ReadsWithRoom ∧ ∃ a, m.registers.held x = some a := by
  cases copied with
  | unread unread =>
      have empty (a : Address) : m.registers.held x ≠ some a := by
        intro held
        rw [Registers.load_eq_ok_iff.mpr held] at unread
        cases unread
      simp [empty]
  | refused held _ refused =>
      rw [refused.outOfPlace_iff]
      exact (and_iff_left ⟨_, held⟩).symm
  | added _ _ writable => simp [writable.not_reads]

/-- The instruction adds an argument whatever the mode, and can read what it copies. -/
def AddsArgument (m : Machine) : Instruction → Prop
  | .setVariable _ => True
  | .setValue x => ∃ a, m.registers.held x = some a
  | .putStructure _ _ | .getStructure _ _ | .unifyVariable _ | .unifyValue _ => False

theorem Transition.outOfPlace_iff {fuel : Nat} {m : Machine} {i : Instruction} {effect : Effect}
    (t : Transition fuel m i effect) :
    effect.OutOfPlace ↔ m.ReadsWithRoom ∧ m.AddsArgument i := by
  cases t with
  | setVariable added => simpa [AddsArgument] using added.outOfPlace_iff
  | setValue copied => exact copied.outOfPlace_iff
  | putRefused refused => simpa [AddsArgument] using refused.not_outOfPlace
  | put _ _ stored => simpa [AddsArgument] using stored.not_outOfPlace
  | getRefused _ _ refused => simpa [AddsArgument] using refused.not_outOfPlace
  | unifyVariableWrite hv write added =>
      have notRead := not_reads_of_write hv write
      exact iff_of_false (added.outOfPlace_iff.not.mpr notRead) fun both => both.2
  | unifyVariableRead _ _ stored => simpa [AddsArgument] using stored.not_outOfPlace
  | unifyValueWrite hv write copied =>
      have notRead := not_reads_of_write hv write
      exact iff_of_false (fun out => notRead (copied.outOfPlace_iff.mp out).1) fun both => both.2
  | unifyValueRead _ _ _ unified => simpa [AddsArgument] using unified.not_outOfPlace
  | getUnread _ => simp [AddsArgument]
  | getWrite _ _ _ _ _ => simp [AddsArgument]
  | getActive _ _ _ => simp [AddsArgument]
  | getRead _ _ _ => simp [AddsArgument]
  | getFailed _ _ _ => simp [AddsArgument]
  | unifyVariableIdle _ => simp [AddsArgument]
  | unifyValueIdle _ => simp [AddsArgument]
  | unifyValueUnread _ _ _ => simp [AddsArgument]

/-- The errors of runs. The only memory error is the overflow, be it wrapped or not; a visit never
runs out of arguments; and an argument is out of place exactly when it is added, by an instruction
that does not ask for the mode, while a structure is read. -/
theorem reachable_errors {registerCount : Nat} {limits : Limits} {m : Machine}
    (reached : Reachable registerCount limits m) (fuel : Nat) :
    (∀ is e m', m.run fuel is = .error e m' →
      (∀ e', e.memory? = some e' → ∃ capacity, e' = .heapOverflow capacity) ∧
        ∀ n, e ≠ .cursor (.noMoreTerms n)) ∧
    (m.status = .running → m.reachedLimit? = none → ∀ i,
      (m.counted.step fuel i).OutOfPlace ↔
        (m.cursor.mode = .ok .read ∧
          ∀ capacity, m.heap.capacity = some capacity → m.heap.top < capacity) ∧
        ((∃ x, i = .setVariable x) ∨ ∃ x a, i = .setValue x ∧ m.registers.held x = some a)) := by
  refine ⟨fun is e m' failed => ?_, fun running within i => ?_⟩
  · have possible := reached.run_error failed
    exact ⟨possible.memory, possible.cursor⟩
  · have alive : m.counted.status ≠ .failed := by simp [counted, running]
    have listed := step_transition reached.wellFormed.counted alive fuel i
    rw [listed.outOfPlace_iff]
    cases i <;> simp [AddsArgument, ReadsWithRoom, counted]

def reading : Machine :=
  ((new 2 .unlimited).run 0
    [.putStructure ⟨"f", 1⟩ 0, .setVariable 1, .getStructure ⟨"f", 1⟩ 0]).machine

/-- A variable that is added now lies behind the structure and not in it. -/
theorem reading_outOfPlace :
    Reachable 2 .unlimited reading ∧ reading.status = .running ∧
      reading.reachedLimit? = none ∧ (reading.counted.step 0 (.setVariable 0)).OutOfPlace := by
  have reached : Reachable 2 .unlimited reading := Reachable.new.run 0 _
  refine ⟨reached, rfl, rfl, ((reachable_errors reached 0).2 rfl rfl _).mpr ⟨⟨rfl, ?_⟩, ?_⟩⟩
  · exact nofun
  · exact .inl ⟨0, rfl⟩

end Machine

end TermMachine
