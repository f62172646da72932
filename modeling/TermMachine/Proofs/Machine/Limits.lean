import TermMachine.Proofs.Heap.Limits
import TermMachine.Proofs.Machine.Safety

/-! # What limits change

A machine with limits is compared with one that has none and is given the same runs. `Agree` goes
through their histories turn by turn: the two are the same but for the limits themselves, up to the
first instruction that the limits do not allow, and that one the machine with limits refuses without
a trace.

For one instruction this is `step_attempted`, which follows the functions of the machine: whatever
does not ask for room gives the same on both heaps, and what asks for room either gets it on both or
would be too large.
-/

namespace TermMachine

/-- There may be an instruction after `n` others. -/
def Limits.Allows (limits : Limits) (n : Nat) : Prop :=
  ∀ maxSteps, limits.maxSteps = some maxSteps → n < maxSteps

/-- A limit is used up. -/
def MachineError.IsRefusal (e : MachineError) : Prop :=
  (∃ capacity, e.memory? = some (.heapOverflow capacity)) ∨
    ∃ maxSteps, e = .stepLimitExceeded maxSteps

theorem not_isRefusal_register (e : RegisterError) : ¬(MachineError.register e).IsRefusal := by
  simp [MachineError.IsRefusal, MachineError.memory?]

theorem isRefusal_memory_iff {e : MemoryError} :
    (MachineError.memory e).IsRefusal ↔ ∃ capacity, e = .heapOverflow capacity := by
  simp [MachineError.IsRefusal, MachineError.memory?]

theorem isRefusal_cursor_iff {e : CursorError} :
    (MachineError.cursor e).IsRefusal ↔ ∃ capacity, e = .memory (.heapOverflow capacity) := by
  cases e <;> simp [MachineError.IsRefusal, MachineError.memory?]

theorem not_isRefusal_currentlyActive :
    ¬(MachineError.cursor .currentlyActive).IsRefusal := by
  simp [isRefusal_cursor_iff]

theorem MemoryError.AboutCells.not_isRefusal {e : MemoryError} (cells : e.AboutCells) :
    ¬(MachineError.memory e).IsRefusal ∧ ¬(MachineError.cursor (.memory e)).IsRefusal := by
  have other : ¬∃ capacity, e = .heapOverflow capacity := by
    rintro ⟨capacity, rfl⟩
    exact cells
  exact ⟨mt isRefusal_memory_iff.mp other, by simpa [isRefusal_cursor_iff] using other⟩

/-! ## Machines without limits -/

def Machine.unlimited (m : Machine) : Machine :=
  { m with heap := m.heap.unlimited, maxSteps := none }

def Effect.unlimited : Effect → Effect
  | .done m => .done m.unlimited
  | .failed m => .failed m.unlimited
  | .error e m => .error e m.unlimited
  | .unfinished m => .unfinished m.unlimited

def Outcome.unlimited : Outcome → Outcome
  | .ok m => .ok m.unlimited
  | .error e m => .error e m.unlimited
  | .unfinished m => .unfinished m.unlimited

def Effect.Refused (effect : Effect) : Prop := ∃ e m, effect = .error e m ∧ e.IsRefusal

def Outcome.Refused (outcome : Outcome) : Prop := ∃ e m, outcome = .error e m ∧ e.IsRefusal

theorem not_refused_done (m : Machine) : ¬(Effect.done m).Refused := by
  rintro ⟨_, _, ⟨⟩, _⟩

theorem not_refused_failed (m : Machine) : ¬(Effect.failed m).Refused := by
  rintro ⟨_, _, ⟨⟩, _⟩

theorem not_refused_unfinished (m : Machine) : ¬(Effect.unfinished m).Refused := by
  rintro ⟨_, _, ⟨⟩, _⟩

theorem Outcome.not_refused_ok (m : Machine) : ¬(Outcome.ok m).Refused := by
  rintro ⟨_, _, ⟨⟩, _⟩

theorem Outcome.not_refused_unfinished (m : Machine) :
    ¬(Outcome.unfinished m).Refused := by
  rintro ⟨_, _, ⟨⟩, _⟩

theorem not_refused_error {e : MachineError} (granted : ¬e.IsRefusal) (m : Machine) :
    ¬(Effect.error e m).Refused := by
  rintro ⟨_, _, ⟨⟩, refusal⟩
  exact granted refusal

namespace Machine

/-- The machine has got the limits, and keeps to them. -/
structure Obeys (limits : Limits) (m : Machine) : Prop where
  heap : m.heap.Within limits
  maxSteps : m.maxSteps = limits.maxSteps
  steps : ∀ maxSteps, limits.maxSteps = some maxSteps → m.steps ≤ maxSteps

/-- What becomes of an instruction on a machine with limits, and on the same machine without. -/
inductive Attempted (limits : Limits) (m : Machine) : Effect → Effect → Prop
  | executed (effect : Effect) (obeys : effect.settled.Obeys limits)
      (steps : effect.settled.steps = m.steps) (granted : ¬effect.Refused) :
      Attempted limits m effect effect.unlimited
  /-- The heap has no room, and the machine stays as it is. -/
  | full {e : MachineError} {capacity : Nat} {effect : Effect}
      (limit : limits.heapCapacity = some capacity)
      (overflow : e.memory? = some (.heapOverflow capacity))
      (large : capacity < effect.settled.heap.top) : Attempted limits m (.error e m) effect

variable {limits : Limits} {m : Machine}

theorem Obeys.of_heap (obeys : m.Obeys limits) {h : Heap} (within : h.Within limits) :
    Obeys limits { m with heap := h } := ⟨within, obeys.maxSteps, obeys.steps⟩

theorem Obeys.of_cursor (obeys : m.Obeys limits) (cursor : Cursor) :
    Obeys limits { m with cursor } := ⟨obeys.heap, obeys.maxSteps, obeys.steps⟩

theorem Obeys.of_status (obeys : m.Obeys limits) (status : Status) :
    Obeys limits { m with status } := ⟨obeys.heap, obeys.maxSteps, obeys.steps⟩

theorem Obeys.storeRegister (obeys : m.Obeys limits) (before : Machine)
    (steps : m.steps = before.steps) (x : Register) (a : Address) :
    Attempted limits before (m.storeRegister x a) (m.unlimited.storeRegister x a) := by
  have same : m.unlimited.registers = m.registers := rfl
  unfold Machine.storeRegister
  rw [same]
  cases m.registers.store x a with
  | ok registers =>
      exact .executed (.done { m with registers }) ⟨obeys.heap, obeys.maxSteps, obeys.steps⟩ steps
        (not_refused_done _)
  | error e => exact .executed _ obeys steps (not_refused_error (not_isRefusal_register e) m)

theorem heap_storeRegister (m : Machine) (x : Register) (a : Address) :
    (m.storeRegister x a).settled.heap = m.heap := by
  unfold Machine.storeRegister
  split <;> rfl

theorem Obeys.register_error (obeys : m.Obeys limits) (e : RegisterError) :
    Attempted limits m (.error (.register e) m) (.error (.register e) m.unlimited) :=
  .executed _ obeys rfl (not_refused_error (not_isRefusal_register e) m)

/-- The start of a structure on a machine with limits, and on the same machine without. -/
inductive Opening (limits : Limits) (m : Machine) :
    Except MachineError Machine → Except MachineError Machine → Prop
  | opened (m' : Machine) (obeys : m'.Obeys limits) (steps : m'.steps = m.steps) :
      Opening limits m (.ok m') (.ok m'.unlimited)
  | failed {e : MachineError} (granted : ¬e.IsRefusal) : Opening limits m (.error e) (.error e)
  | full {capacity : Nat} {m' : Machine} (limit : limits.heapCapacity = some capacity)
      (large : capacity < m'.heap.top) :
      Opening limits m (.error (.memory (.heapOverflow capacity))) (.ok m')

theorem Obeys.openStructure (obeys : m.Obeys limits) (s : Symbol) :
    Opening limits m (m.openStructure s) (m.unlimited.openStructure s) := by
  have cursor : m.unlimited.cursor = m.cursor := rfl
  have adding := obeys.heap.newStructure s
  unfold Machine.openStructure
  rw [cursor]
  by_cases idle : m.cursor = .idle
  · simp only [idle, Cursor.verifyIdle_idle]
    change Heap.Adding limits _ (m.unlimited.heap.newStructure s) at adding
    generalize m.heap.newStructure s = limited at adding
    generalize m.unlimited.heap.newStructure s = free at adding
    cases adding with
    | @added h within =>
        let cursor := Cursor.along .write ⟨m.heap.top + 2, s.arity⟩
        exact .opened { m with heap := h, cursor } ((obeys.of_heap within).of_cursor cursor) rfl
    | failed cells => exact .failed cells.not_isRefusal.1
    | full limit large => exact .full limit large
  · simp only [verifyIdle_of_busy idle]
    exact .failed not_isRefusal_currentlyActive

/-- What goes on from the start of a structure takes no more cells, so only the start is refused. -/
theorem Opening.attempted (obeys : m.Obeys limits)
    {limited free : Except MachineError Machine} (goOn : Machine → Effect)
    (goesOn : ∀ m' : Machine, m'.Obeys limits → m'.steps = m.steps →
      Attempted limits m (goOn m') (goOn m'.unlimited))
    (keeps : ∀ m' : Machine, (goOn m').settled.heap.top = m'.heap.top) :
    Opening limits m limited free → Attempted limits m
      (match limited with
        | .error e => .error e m
        | .ok m' => goOn m')
      (match free with
        | .error e => .error e m.unlimited
        | .ok m' => goOn m') := by
  intro opening
  cases opening with
  | opened m' obeys' steps => exact goesOn m' obeys' steps
  | failed granted => exact .executed _ obeys rfl (not_refused_error granted m)
  | @full _ m' limit large => exact .full limit rfl ((keeps m').symm ▸ large)

theorem Obeys.putStructure (obeys : m.Obeys limits) (s : Symbol) (x : Register) :
    Attempted limits m (m.putStructure s x) (m.unlimited.putStructure s x) :=
  (obeys.openStructure s).attempted obeys (·.storeRegister x m.heap.top)
    (fun _ obeys' steps => obeys'.storeRegister m steps x m.heap.top)
    fun _ => congrArg Heap.top (heap_storeRegister ..)

theorem not_isRefusal_of_mode {c : Cursor} {e : CursorError} (failed : c.mode = .error e) :
    ¬(MachineError.cursor e).IsRefusal := by
  unfold Cursor.mode at failed
  split at failed <;> cases failed
  simp [isRefusal_cursor_iff]

theorem not_isRefusal_of_pending {c : Cursor} {e : CursorError} (failed : c.pending = .error e) :
    ¬(MachineError.cursor e).IsRefusal := by
  unfold Cursor.pending at failed
  split at failed
  · cases failed
    simp [isRefusal_cursor_iff]
  · split at failed <;> cases failed
    simp [isRefusal_cursor_iff]

theorem not_isRefusal_of_readNext {c : Cursor} {e : CursorError}
    (failed : c.readNext = .error e) : ¬(MachineError.cursor e).IsRefusal := by
  unfold Cursor.readNext at failed
  split at failed
  · cases failed
  · next missing =>
      cases failed
      exact not_isRefusal_of_pending missing

/-- The addition of an argument on a machine with limits, and on the same machine without. -/
inductive Writing (limits : Limits) (m : Machine) :
    Except CursorError (Address × Cursor) × Heap → Except CursorError (Address × Cursor) × Heap →
      Prop
  | written {result : Except CursorError (Address × Cursor)} {h : Heap}
      (within : h.Within limits)
      (granted : ∀ e, result = .error e → ¬(MachineError.cursor e).IsRefusal) :
      Writing limits m (result, h) (result, h.unlimited)
  | full {capacity : Nat} {result : Except CursorError (Address × Cursor)} {h : Heap}
      (limit : limits.heapCapacity = some capacity) (large : capacity < h.top) :
      Writing limits m (.error (.memory (.heapOverflow capacity)), m.heap) (result, h)

theorem Obeys.writeNext (obeys : m.Obeys limits) (write : Heap → Except MemoryError Heap)
    (adding : Heap.Adding limits (write m.heap) (write m.unlimited.heap)) :
    Writing limits m (m.cursor.writeNext m.heap write)
      (m.unlimited.cursor.writeNext m.unlimited.heap write) := by
  have cursor : m.unlimited.cursor = m.cursor := rfl
  have top : m.unlimited.heap.top = m.heap.top := rfl
  unfold Cursor.writeNext
  rw [cursor, top]
  cases pending : m.cursor.pending with
  | error e =>
      refine .written obeys.heap ?_
      rintro _ ⟨⟩
      exact not_isRefusal_of_pending pending
  | ok v =>
      dsimp only
      generalize write m.heap = limited at adding
      generalize write m.unlimited.heap = free at adding
      cases adding with
      | added within =>
          dsimp only
          split
          · exact .written within nofun
          · refine .written within ?_
            rintro _ ⟨⟩
            simp [isRefusal_cursor_iff]
      | failed cells =>
          refine .written obeys.heap ?_
          rintro _ ⟨⟩
          exact cells.not_isRefusal.2
      | full limit large =>
          dsimp only
          split <;> exact .full limit large

/-- What goes on from a new argument takes no more cells, so only the argument is refused. -/
theorem Writing.attempted (obeys : m.Obeys limits)
    {limited free : Except CursorError (Address × Cursor) × Heap}
    (goOn : Address → Machine → Effect)
    (goesOn : ∀ (a : Address) (m' : Machine), m'.Obeys limits → m'.steps = m.steps →
      Attempted limits m (goOn a m') (goOn a m'.unlimited))
    (keeps : ∀ (a : Address) (m' : Machine), (goOn a m').settled.heap.top = m'.heap.top) :
    Writing limits m limited free → Attempted limits m
      (match limited with
        | (.error e, heap) => .error (.cursor e) { m with heap }
        | (.ok (a, cursor), heap) => goOn a { m with heap, cursor })
      (match free with
        | (.error e, heap) => .error (.cursor e) { m.unlimited with heap }
        | (.ok (a, cursor), heap) => goOn a { m.unlimited with heap, cursor }) := by
  intro writing
  cases writing with
  | @written result h within granted =>
      cases result with
      | error e =>
          exact .executed _ (obeys.of_heap within) rfl (not_refused_error (granted e rfl) _)
      | ok added =>
          exact goesOn added.1 _ ((obeys.of_heap within).of_cursor added.2) rfl
  | @full _ result h limit large =>
      cases result with
      | error e => exact .full limit rfl large
      | ok added => exact .full limit rfl ((keeps added.1 _).symm ▸ large)

theorem Obeys.setVariable (obeys : m.Obeys limits) (x : Register) :
    Attempted limits m (m.setVariable x) (m.unlimited.setVariable x) :=
  (obeys.writeNext Heap.newVariable (obeys.heap.push _)).attempted obeys
    (fun a m' => m'.storeRegister x a)
    (fun a _ obeys' steps => obeys'.storeRegister m steps x a)
    fun _ _ => congrArg Heap.top (heap_storeRegister ..)

theorem Obeys.setValue (obeys : m.Obeys limits) (x : Register) :
    Attempted limits m (m.setValue x) (m.unlimited.setValue x) := by
  have registers : m.unlimited.registers = m.registers := rfl
  unfold Machine.setValue
  rw [registers]
  cases m.registers.load x with
  | error e => exact obeys.register_error e
  | ok a =>
      have writing := obeys.writeNext (·.pushCopy a) (obeys.heap.pushCopy a)
      exact writing.attempted obeys (fun _ m' => .done m')
        (fun _ _ obeys' steps => .executed _ obeys' steps (not_refused_done _)) fun _ _ => rfl

theorem Obeys.bind (obeys : m.Obeys limits) (before : Machine) (steps : m.steps = before.steps)
    (a b : Address) :
    Attempted limits before
      (match m.heap.bind a b with
        | .ok heap => .done { m with heap }
        | .error e => .error (.memory e) m)
      (match m.unlimited.heap.bind a b with
        | .ok heap => .done { m.unlimited with heap }
        | .error e => .error (.memory e) m.unlimited) := by
  have free : m.unlimited.heap.bind a b = (m.heap.bind a b).map Heap.unlimited :=
    Heap.bind_unlimited _ _
  rw [free]
  cases bound : m.heap.bind a b with
  | ok h =>
      exact .executed (.done _) (obeys.of_heap (obeys.heap.bind bound)) steps (not_refused_done _)
  | error e =>
      have cells := Heap.bind_error bound
      exact .executed _ obeys steps (not_refused_error cells.not_isRefusal.1 m)

theorem Obeys.start (obeys : m.Obeys limits) (mode : Mode) (args : Arguments) :
    Attempted limits m
      (match m.cursor.start mode args with
        | .ok cursor => .done { m with cursor }
        | .error e => .error (.cursor e) m)
      (match m.cursor.start mode args with
        | .ok cursor => .done { m.unlimited with cursor }
        | .error e => .error (.cursor e) m.unlimited) := by
  unfold Cursor.start
  by_cases idle : m.cursor = .idle
  · simp only [idle, Cursor.verifyIdle_idle]
    exact .executed (.done { m with cursor := _ }) (obeys.of_cursor _) rfl (not_refused_done _)
  · simp only [verifyIdle_of_busy idle]
    exact .executed _ obeys rfl (not_refused_error not_isRefusal_currentlyActive m)

theorem Obeys.getStructure (obeys : m.Obeys limits) (s : Symbol) (x : Register) :
    Attempted limits m (m.getStructure s x) (m.unlimited.getStructure s x) := by
  have registers : m.unlimited.registers = m.registers := rfl
  have inspect (a : Address) : m.unlimited.heap.inspect a = m.heap.inspect a :=
    Heap.inspect_unlimited a
  unfold Machine.getStructure
  rw [registers]
  cases m.registers.load x with
  | error e => exact obeys.register_error e
  | ok a =>
      dsimp only
      rw [inspect]
      cases inspected : m.heap.inspect a with
      | error e =>
          have cells := Heap.inspect_error inspected
          exact .executed _ obeys rfl (not_refused_error cells.not_isRefusal.1 m)
      | ok found =>
          obtain ⟨b, value⟩ := found
          cases value with
          | unbound =>
              refine (obeys.openStructure s).attempted obeys _
                (fun _ obeys' steps => obeys'.bind m steps b m.heap.top) fun m' => ?_
              split
              · next bound => exact Heap.top_bind bound
              · rfl
          | compound t first =>
              dsimp only
              split
              · exact obeys.start .read ⟨first, t.arity⟩
              · exact .executed (.failed { m with cursor := .idle })
                  ((obeys.of_cursor .idle).of_status .failed) rfl (not_refused_failed _)

theorem Obeys.unifyVariable (obeys : m.Obeys limits) (x : Register) :
    Attempted limits m (m.unifyVariable x) (m.unlimited.unifyVariable x) := by
  have cursor : m.unlimited.cursor = m.cursor := rfl
  unfold Machine.unifyVariable
  rw [cursor]
  cases mode : m.cursor.mode with
  | error e =>
      exact .executed _ obeys rfl (not_refused_error (not_isRefusal_of_mode mode) m)
  | ok found =>
      cases found with
      | write => exact obeys.setVariable x
      | read =>
          dsimp only
          cases next : m.cursor.readNext with
          | error e =>
              exact .executed _ obeys rfl (not_refused_error (not_isRefusal_of_readNext next) m)
          | ok argument =>
              exact (obeys.of_cursor argument.2).storeRegister m rfl x argument.1

theorem Obeys.unify (obeys : m.Obeys limits) (before : Machine) (steps : m.steps = before.steps)
    (fuel : Nat) (a b : Address) :
    Attempted limits before (m.unify fuel a b) (m.unlimited.unify fuel a b) := by
  obtain ⟨same, within, cells⟩ := obeys.heap.unifyAll fuel [(a, b)]
  have free : m.unlimited.heap.unify fuel a b = (m.heap.unify fuel a b).unlimited := same
  unfold Machine.unify
  rw [free]
  change (m.heap.unify fuel a b).heap.Within limits at within
  cases ended : m.heap.unify fuel a b with
  | unified h =>
      rw [ended] at within
      exact .executed _ (obeys.of_heap within) steps (not_refused_done _)
  | clash h =>
      rw [ended] at within
      have obeys' := ((obeys.of_heap within).of_cursor .idle).of_status .failed
      exact .executed (.failed _) obeys' steps (not_refused_failed _)
  | error e h =>
      rw [ended] at within
      have granted := (cells e h ended).not_isRefusal.1
      exact .executed _ (obeys.of_heap within) steps (not_refused_error granted _)
  | unfinished h work =>
      rw [ended] at within
      exact .executed _ (obeys.of_heap within) steps (not_refused_unfinished _)

theorem Obeys.unifyValue (obeys : m.Obeys limits) (fuel : Nat) (x : Register) :
    Attempted limits m (m.unifyValue fuel x) (m.unlimited.unifyValue fuel x) := by
  have cursor : m.unlimited.cursor = m.cursor := rfl
  have registers : m.unlimited.registers = m.registers := rfl
  unfold Machine.unifyValue
  rw [cursor, registers]
  cases mode : m.cursor.mode with
  | error e =>
      exact .executed _ obeys rfl (not_refused_error (not_isRefusal_of_mode mode) m)
  | ok found =>
      cases found with
      | write => exact obeys.setValue x
      | read =>
          dsimp only
          cases next : m.cursor.readNext with
          | error e =>
              exact .executed _ obeys rfl (not_refused_error (not_isRefusal_of_readNext next) m)
          | ok argument =>
              obtain ⟨a, cursor⟩ := argument
              have obeys' := obeys.of_cursor cursor
              dsimp only
              cases m.registers.load x with
              | error e =>
                  exact .executed _ obeys' rfl (not_refused_error (not_isRefusal_register e) _)
              | ok b => exact obeys'.unify m rfl fuel b a

/-- An instruction has the same effect without limits, or it is too large for the heap. -/
theorem step_attempted (obeys : m.Obeys limits) (fuel : Nat) (i : Instruction) :
    Attempted limits m (m.step fuel i) (m.unlimited.step fuel i) := by
  cases i with
  | putStructure s x => exact obeys.putStructure s x
  | setVariable x => exact obeys.setVariable x
  | setValue x => exact obeys.setValue x
  | getStructure s x => exact obeys.getStructure s x
  | unifyVariable x => exact obeys.unifyVariable x
  | unifyValue x => exact obeys.unifyValue fuel x

/-! ## Within the limits -/

theorem obeys_new (registerCount : Nat) (limits : Limits) :
    (new registerCount limits).Obeys limits :=
  ⟨⟨rfl, fun _ _ => Nat.zero_le _⟩, rfl, fun _ _ => Nat.zero_le _⟩

theorem allows_of_reachedLimit? (obeys : m.Obeys limits) (within : m.reachedLimit? = none) :
    limits.Allows m.steps := by
  intro maxSteps limit
  rw [reachedLimit?, obeys.maxSteps, limit] at within
  simpa using within

/-- A machine that has reached its limit on instructions has executed just as many. -/
theorem steps_of_reachedLimit? (obeys : m.Obeys limits) {maxSteps : Nat}
    (reached : m.reachedLimit? = some maxSteps) :
    limits.maxSteps = some maxSteps ∧ m.steps = maxSteps := by
  rw [reachedLimit?, obeys.maxSteps, Option.filter_eq_some_iff] at reached
  obtain ⟨limit, at_least⟩ := reached
  exact ⟨limit, Nat.le_antisymm (obeys.steps maxSteps limit) (by simpa using at_least)⟩

theorem Obeys.counted (obeys : m.Obeys limits) (allowed : limits.Allows m.steps) :
    m.counted.Obeys limits := ⟨obeys.heap, obeys.maxSteps, allowed⟩

theorem Attempted.obeys {effect free : Effect} (obeys : m.Obeys limits)
    (attempted : Attempted limits m effect free) : effect.settled.Obeys limits := by
  cases attempted with
  | executed _ obeys' _ _ => exact obeys'
  | full _ _ _ => exact obeys

theorem Reachable.obeys {registerCount : Nat} (reached : Reachable registerCount limits m) :
    m.Obeys limits := by
  induction reached with
  | new => exact obeys_new registerCount limits
  | begins _ _ ih => exact ih.of_status .running
  | executes _ _ within fuel i ih =>
      have counted := ih.counted (allows_of_reachedLimit? ih within)
      exact (step_attempted counted fuel i).obeys counted
  | succeeds _ _ _ ih => exact ih.of_status .succeeded

/-- Code that no limit stops is executed in the same way without limits. -/
theorem Obeys.execute_granted (obeys : m.Obeys limits) {fuel : Nat} {is : List Instruction}
    (granted : ¬(m.execute fuel is).Refused) :
    m.unlimited.execute fuel is = (m.execute fuel is).unlimited := by
  induction is generalizing m with
  | nil =>
      have cursor : m.unlimited.cursor = m.cursor := rfl
      unfold Machine.execute
      rw [cursor]
      cases m.cursor.verifyIdle with
      | ok _ => rfl
      | error e => rfl
  | cons i is ih =>
      cases within : m.reachedLimit? with
      | some maxSteps =>
          simp only [Machine.execute, within] at granted
          exact absurd ⟨_, _, rfl, .inr ⟨_, rfl⟩⟩ granted
      | none =>
          have counted := obeys.counted (allows_of_reachedLimit? obeys within)
          have attempted := step_attempted counted fuel i
          have free : m.unlimited.execute fuel (i :: is) =
              goOn fuel is (m.counted.unlimited.step fuel i) := execute_cons rfl
          rw [execute_cons within] at granted ⊢
          rw [free]
          generalize m.counted.step fuel i = effect at attempted granted
          generalize m.counted.unlimited.step fuel i = effect' at attempted
          cases attempted with
          | executed effect obeys' _ _ =>
              cases effect with
              | done m' => exact ih obeys' granted
              | failed m' => rfl
              | error e m' => rfl
              | unfinished m' => rfl
          | full _ overflow _ => exact absurd ⟨_, _, rfl, .inl ⟨_, overflow⟩⟩ granted

theorem Obeys.run_granted (obeys : m.Obeys limits) {fuel : Nat} {is : List Instruction}
    (granted : ¬(m.run fuel is).Refused) :
    m.unlimited.run fuel is = (m.run fuel is).unlimited := by
  have status : m.unlimited.status = m.status := rfl
  unfold Machine.run at granted ⊢
  rw [status]
  by_cases failed : m.status = .failed
  · simp only [if_pos failed]
    rfl
  · simp only [if_neg failed] at granted ⊢
    exact (obeys.of_status .running).execute_granted granted

end Machine

/-! ## Histories -/

/-- Something in the life of a machine. -/
inductive Moment where
  | turn (before : Machine) (i : Instruction) (effect : Effect)
  | ended (outcome : Outcome)

namespace Machine

/-- Executes an instruction, if the limit on instructions allows one more. -/
def attempt (fuel : Nat) (m : Machine) (i : Instruction) : Effect :=
  match m.reachedLimit? with
  | some maxSteps => .error (.stepLimitExceeded maxSteps) m
  | none => m.counted.step fuel i

/-- The turns of instructions, up to the first one that ends the run. -/
def turns (fuel : Nat) (m : Machine) : List Instruction → List Moment
  | [] => []
  | i :: is =>
      .turn m i (m.attempt fuel i) ::
        match m.attempt fuel i with
        | .done m => m.turns fuel is
        | .failed _ | .error _ _ | .unfinished _ => []

/-- The turns of a run. A machine in which a unification has failed before takes none. -/
def runTurns (fuel : Nat) (m : Machine) (is : List Instruction) : List Moment :=
  if m.status = .failed then [] else { m with status := .running }.turns fuel is

/-- Runs, one after the other, whatever they lead to. -/
def history (fuel : Nat) (m : Machine) : List (List Instruction) → List Moment
  | [] => []
  | is :: runs =>
      m.runTurns fuel is ++ .ended (m.run fuel is) :: (m.run fuel is).machine.history fuel runs

theorem execute_cons_attempt (fuel : Nat) (m : Machine) (i : Instruction)
    (is : List Instruction) : m.execute fuel (i :: is) = goOn fuel is (m.attempt fuel i) := by
  cases within : m.reachedLimit? with
  | some maxSteps => simp only [Machine.execute, attempt, within, goOn]
  | none => rw [execute_cons within, attempt, within]

end Machine

open Machine

/-- The history of a machine with limits, and that of one without, after `n` instructions. They are
the same up to the first instruction that the limits do not allow, which changes nothing. -/
inductive Agree (limits : Limits) : Nat → List Moment → List Moment → Prop
  | nil {n : Nat} : Agree limits n [] []
  /-- An instruction is executed: there may be one more, and its cells can be held. -/
  | executed {n : Nat} {m : Machine} {i : Instruction} {effect : Effect}
      {later later' : List Moment} (steps : m.steps = n) (allowed : limits.Allows n)
      (holds : limits.Holds effect.settled.heap.top) (granted : ¬effect.Refused)
      (agree : Agree limits (n + 1) later later') :
      Agree limits n (.turn m i effect :: later) (.turn m.unlimited i effect.unlimited :: later')
  | ended {n : Nat} (outcome : Outcome) {later later' : List Moment}
      (granted : ¬outcome.Refused) (agree : Agree limits n later later') :
      Agree limits n (.ended outcome :: later) (.ended outcome.unlimited :: later')
  /-- There may be no more instructions. -/
  | noSteps {n : Nat} {m : Machine} {i : Instruction} {effect : Effect}
      {later later' : List Moment} (steps : m.steps = n) (limit : limits.maxSteps = some n) :
      Agree limits n
        (.turn m i (.error (.stepLimitExceeded n) m) ::
          .ended (.error (.stepLimitExceeded n) m) :: later)
        (.turn m.unlimited i effect :: later')
  /-- There may be one more instruction, but its cells cannot be held. -/
  | noCells {n capacity : Nat} {m : Machine} {i : Instruction} {e : MachineError}
      {effect : Effect} {later later' : List Moment} (steps : m.steps = n)
      (allowed : limits.Allows n) (limit : limits.heapCapacity = some capacity)
      (large : capacity < effect.settled.heap.top)
      (overflow : e.memory? = some (.heapOverflow capacity)) :
      Agree limits n
        (.turn m i (.error e m.counted) :: .ended (.error e m.counted) :: later)
        (.turn m.unlimited i effect :: later')

namespace Machine

variable {limits : Limits} {m : Machine}

theorem attempt_unlimited (fuel : Nat) (m : Machine) (i : Instruction) :
    m.unlimited.attempt fuel i = m.counted.unlimited.step fuel i := rfl

/-- What follows a run, if it agrees on every machine within the limits, agrees behind the run. -/
theorem Obeys.agree_execute (obeys : m.Obeys limits) (fuel : Nat) (is : List Instruction)
    (later : Machine → List Moment)
    (goesOn : ∀ m' : Machine, m'.Obeys limits →
      Agree limits m'.steps (later m') (later m'.unlimited)) :
    Agree limits m.steps
      (m.turns fuel is ++ .ended (m.execute fuel is) :: later (m.execute fuel is).machine)
      (m.unlimited.turns fuel is ++
        .ended (m.unlimited.execute fuel is) :: later (m.unlimited.execute fuel is).machine) := by
  induction is generalizing m with
  | nil =>
      have cursor : m.unlimited.cursor = m.cursor := rfl
      unfold turns Machine.execute
      rw [cursor]
      by_cases idle : m.cursor = .idle
      · simp only [(Cursor.verifyIdle_eq_ok_iff m.cursor).mpr idle]
        refine .ended (.ok { m with status := .succeeded }) (Outcome.not_refused_ok _) ?_
        exact goesOn _ (obeys.of_status .succeeded)
      · simp only [verifyIdle_of_busy idle]
        refine .ended (.error (.cursor .currentlyActive) m) ?_ (goesOn m obeys)
        rintro ⟨_, _, ⟨⟩, refusal⟩
        exact not_isRefusal_currentlyActive refusal
  | cons i is ih =>
      rw [turns, turns, execute_cons_attempt, execute_cons_attempt]
      cases within : m.reachedLimit? with
      | some maxSteps =>
          obtain ⟨limit, rfl⟩ := steps_of_reachedLimit? obeys within
          have refused : m.attempt fuel i = .error (.stepLimitExceeded m.steps) m := by
            rw [attempt, within]
          rw [refused]
          exact .noSteps rfl limit
      | none =>
          have allowed := allows_of_reachedLimit? obeys within
          have attempted := step_attempted (obeys.counted allowed) fuel i
          have granted : m.attempt fuel i = m.counted.step fuel i := by rw [attempt, within]
          rw [granted, attempt_unlimited]
          generalize m.counted.step fuel i = effect at attempted
          generalize m.counted.unlimited.step fuel i = free at attempted
          cases attempted with
          | executed effect obeys' steps passed =>
              refine .executed rfl allowed obeys'.heap.cells passed ?_
              change _ = m.steps + 1 at steps
              rw [← steps]
              cases effect with
              | done m' => exact ih obeys'
              | failed m' =>
                  exact .ended (.ok _) (Outcome.not_refused_ok _) (goesOn _ obeys')
              | error e m' =>
                  refine .ended (.error e m') ?_ (goesOn _ obeys')
                  rintro ⟨_, _, ⟨⟩, refusal⟩
                  exact passed ⟨_, _, rfl, refusal⟩
              | unfinished m' =>
                  exact .ended (.unfinished _) (Outcome.not_refused_unfinished _)
                    (goesOn _ obeys')
          | full limit overflow large => exact .noCells rfl allowed limit large overflow

theorem Obeys.agree_history (obeys : m.Obeys limits) (fuel : Nat)
    (runs : List (List Instruction)) :
    Agree limits m.steps (m.history fuel runs) (m.unlimited.history fuel runs) := by
  induction runs generalizing m with
  | nil => exact .nil
  | cons is runs ih =>
      have status : m.unlimited.status = m.status := rfl
      unfold history runTurns Machine.run
      rw [status]
      by_cases failed : m.status = .failed
      · simp only [if_pos failed]
        exact .ended (.ok m) (Outcome.not_refused_ok m) (ih obeys)
      · simp only [if_neg failed]
        exact (obeys.of_status .running).agree_execute fuel is (fun m => m.history fuel runs)
          fun _ => ih

/-- Whatever runs a machine with limits is given, its history is that of a machine without limits up
to the first instruction that the limits do not allow, and its heap never becomes too large. -/
theorem history_agree (registerCount : Nat) (limits : Limits) (fuel : Nat)
    (runs : List (List Instruction)) :
    Agree limits 0 ((new registerCount limits).history fuel runs)
      ((new registerCount .unlimited).history fuel runs) ∧
    ∀ m, Reachable registerCount limits m → limits.Holds m.heap.top :=
  ⟨(obeys_new registerCount limits).agree_history fuel runs, fun _ reached =>
    reached.obeys.heap.cells⟩

/-- Two cells are enough for the start of a structure, and not for its argument. -/
example : ∃ m, (new 1 ⟨some 2, none⟩).run 0 [.putStructure ⟨"f", 1⟩ 0, .setVariable 0] =
    .error (.cursor (.memory (.heapOverflow 2))) m := ⟨_, rfl⟩

end Machine

end TermMachine
