import TermMachine.Proofs.Machine.State

/-! # What an instruction can do

Everything that executing an instruction on a well-formed machine can lead to, errors included.
`step_transition` says that the list is complete; what is said about single instructions elsewhere
goes through this list. Of the memory errors only the overflow is on it, and a cell is added out of
place only while a structure is read.
-/

namespace TermMachine

namespace Machine

def opened (m : Machine) (s : Symbol) : Machine :=
  { m with heap := m.heap.opened s, cursor := .along .write ⟨m.heap.top + 2, s.arity⟩ }

def wrote (m : Machine) (v : Visit) (cell : Cell) : Machine :=
  { m with heap := m.heap.added cell, cursor := .behind v }

def passed (m : Machine) (v : Visit) : Machine := { m with cursor := .behind v }

inductive Stored (m : Machine) (x : Register) (a : Address) : Effect → Prop
  | done (lt : x < m.registers.count) :
      Stored m x a (.done { m with registers := m.registers.put x a })
  | missing (le : m.registers.count ≤ x) :
      Stored m x a (.error (.register (.indexOutOfRange x m.registers.count)) m)

inductive OpenRefused (m : Machine) : MachineError → Prop
  | active (busy : m.cursor ≠ .idle) : OpenRefused m (.cursor .currentlyActive)
  | full {capacity : Nat} (full : m.heap.reserve 2 = .error (.heapOverflow capacity)) :
      OpenRefused m (.memory (.heapOverflow capacity))

/-- Why an argument cannot be added, and the machine then. -/
inductive WriteRefused (m : Machine) (cell : Cell) : CursorError → Machine → Prop
  | idle (idle : m.cursor = .idle) : WriteRefused m cell .notActive m
  | full {v : Visit} {capacity : Nat} (hv : m.cursor.visit? = some v)
      (full : m.heap.reserve 1 = .error (.heapOverflow capacity)) :
      WriteRefused m cell (.memory (.heapOverflow capacity)) m
  | stray {v : Visit} (hv : m.cursor.visit? = some v) (read : v.mode = .read)
      (room : m.heap.reserve 1 = .ok ()) :
      WriteRefused m cell (.termOutOfPlace v.index v.next m.heap.top)
        { m with heap := m.heap.added cell }

structure Writable (m : Machine) (v : Visit) : Prop where
  hv : m.cursor.visit? = some v
  write : v.mode = .write
  room : m.heap.reserve 1 = .ok ()

inductive NewVariable (m : Machine) (x : Register) : Effect → Prop
  | refused {e : CursorError} {m' : Machine} (refused : m.WriteRefused (.ref m.heap.top) e m') :
      NewVariable m x (.error (.cursor e) m')
  | added {v : Visit} {effect : Effect} (writable : m.Writable v)
      (stored : (m.wrote v (.ref m.heap.top)).Stored x m.heap.top effect) : NewVariable m x effect

inductive Copied (m : Machine) (x : Register) : Effect → Prop
  | unread {e : RegisterError} (unread : m.registers.load x = .error e) :
      Copied m x (.error (.register e) m)
  | refused {a : Address} {cell : Cell} {e : CursorError} {m' : Machine}
      (held : m.registers.held x = some a) (hc : m.heap.cells[a]? = some cell)
      (refused : m.WriteRefused cell e m') : Copied m x (.error (.cursor e) m')
  | added {a : Address} {cell : Cell} {v : Visit} (held : m.registers.held x = some a)
      (hc : m.heap.cells[a]? = some cell) (writable : m.Writable v) :
      Copied m x (.done (m.wrote v cell))

/-- Unifying what a register holds, which lies at `a`, with the argument that is read. -/
inductive Unified (fuel : Nat) (m : Machine) (v : Visit) (a : Address) : Effect → Prop
  | done {heap : Heap} (ended : m.heap.unify fuel a v.next = .unified heap) :
      Unified fuel m v a (.done { m.passed v with heap })
  | failed {heap : Heap} (ended : m.heap.unify fuel a v.next = .clash heap) :
      Unified fuel m v a (.failed { m with heap, cursor := .idle })
  | unfinished {heap : Heap} {work : List (Address × Address)}
      (ended : m.heap.unify fuel a v.next = .unfinished heap work) :
      Unified fuel m v a (.unfinished { m.passed v with heap })

/-- Executing an instruction. -/
inductive Transition (fuel : Nat) (m : Machine) : Instruction → Effect → Prop
  | putRefused {s : Symbol} {x : Register} {e : MachineError} (refused : m.OpenRefused e) :
      Transition fuel m (.putStructure s x) (.error e m)
  | put {s : Symbol} {x : Register} {effect : Effect} (idle : m.cursor = .idle)
      (room : m.heap.reserve 2 = .ok ()) (stored : (m.opened s).Stored x m.heap.top effect) :
      Transition fuel m (.putStructure s x) effect
  | setVariable {x : Register} {effect : Effect} (added : m.NewVariable x effect) :
      Transition fuel m (.setVariable x) effect
  | setValue {x : Register} {effect : Effect} (copied : m.Copied x effect) :
      Transition fuel m (.setValue x) effect
  | getUnread {s : Symbol} {x : Register} {e : RegisterError}
      (unread : m.registers.load x = .error e) :
      Transition fuel m (.getStructure s x) (.error (.register e) m)
  | getRefused {s : Symbol} {x : Register} {a b : Address} {e : MachineError}
      (held : m.registers.held x = some a) (unbound : m.heap.Unbound a b)
      (refused : m.OpenRefused e) : Transition fuel m (.getStructure s x) (.error e m)
  | getWrite {s : Symbol} {x : Register} {a b : Address} (held : m.registers.held x = some a)
      (unbound : m.heap.Unbound a b) (idle : m.cursor = .idle)
      (room : m.heap.reserve 2 = .ok ())
      (binding : (m.heap.opened s).Binding b m.heap.top) :
      Transition fuel m (.getStructure s x)
        (.done { m.opened s with heap := (m.heap.opened s).assign b m.heap.top })
  | getActive {s : Symbol} {x : Register} {a p : Address} (held : m.registers.held x = some a)
      (compound : m.heap.Compound a s p) (busy : m.cursor ≠ .idle) :
      Transition fuel m (.getStructure s x) (.error (.cursor .currentlyActive) m)
  | getRead {s : Symbol} {x : Register} {a p : Address} (held : m.registers.held x = some a)
      (compound : m.heap.Compound a s p) (idle : m.cursor = .idle) :
      Transition fuel m (.getStructure s x)
        (.done { m with cursor := .along .read ⟨p + 1, s.arity⟩ })
  | getFailed {s t : Symbol} {x : Register} {a p : Address} (held : m.registers.held x = some a)
      (compound : m.heap.Compound a t p) (differ : t ≠ s) :
      Transition fuel m (.getStructure s x) (.failed { m with cursor := .idle })
  | unifyVariableIdle {x : Register} (idle : m.cursor = .idle) :
      Transition fuel m (.unifyVariable x) (.error (.cursor .notActive) m)
  | unifyVariableWrite {x : Register} {v : Visit} {effect : Effect}
      (hv : m.cursor.visit? = some v) (write : v.mode = .write)
      (added : m.NewVariable x effect) : Transition fuel m (.unifyVariable x) effect
  | unifyVariableRead {x : Register} {v : Visit} {effect : Effect}
      (hv : m.cursor.visit? = some v) (read : v.mode = .read)
      (stored : (m.passed v).Stored x v.next effect) : Transition fuel m (.unifyVariable x) effect
  | unifyValueIdle {x : Register} (idle : m.cursor = .idle) :
      Transition fuel m (.unifyValue x) (.error (.cursor .notActive) m)
  | unifyValueWrite {x : Register} {v : Visit} {effect : Effect}
      (hv : m.cursor.visit? = some v) (write : v.mode = .write) (copied : m.Copied x effect) :
      Transition fuel m (.unifyValue x) effect
  | unifyValueUnread {x : Register} {v : Visit} {e : RegisterError}
      (hv : m.cursor.visit? = some v) (read : v.mode = .read)
      (unread : m.registers.load x = .error e) :
      Transition fuel m (.unifyValue x) (.error (.register e) (m.passed v))
  | unifyValueRead {x : Register} {v : Visit} {a : Address} {effect : Effect}
      (hv : m.cursor.visit? = some v) (read : v.mode = .read)
      (held : m.registers.held x = some a) (unified : m.Unified fuel v a effect) :
      Transition fuel m (.unifyValue x) effect

/-! ## The list is complete -/

theorem storeRegister_stored (m : Machine) (x : Register) (a : Address) :
    m.Stored x a (m.storeRegister x a) := by
  by_cases lt : x < m.registers.count
  · simp only [storeRegister, Registers.store_of_lt lt]
    exact .done lt
  · have le := Nat.le_of_not_lt lt
    simp only [storeRegister, Registers.store_of_le le]
    exact .missing le

theorem verifyIdle_of_busy {c : Cursor} (busy : c ≠ .idle) :
    c.verifyIdle = .error .currentlyActive := by
  obtain ⟨visit?⟩ := c
  cases visit? with
  | none => exact absurd rfl busy
  | some v => rfl

/-- A structure is started unless another one is active or the heap is full. -/
theorem openStructure_cases (m : Machine) (s : Symbol) :
    (∃ e, m.openStructure s = .error e ∧ m.OpenRefused e) ∨
      (m.openStructure s = .ok (m.opened s) ∧ m.cursor = .idle ∧ m.heap.reserve 2 = .ok ()) := by
  by_cases idle : m.cursor = .idle
  · cases room : m.heap.newStructure s with
    | error e =>
        obtain ⟨capacity, rfl⟩ := Heap.newStructure_error room
        refine .inl ⟨.memory (.heapOverflow capacity), by simp [openStructure, idle, room],
          .full ?_⟩
        unfold Heap.newStructure at room
        split at room
        · cases room
        · next reserved =>
            cases room
            exact reserved
    | ok heap =>
        obtain ⟨reserved, rfl⟩ := Heap.newStructure_eq_ok_iff.mp room
        exact .inr ⟨by simp [openStructure, idle, room, opened], idle, reserved⟩
  · refine .inl ⟨_, ?_, .active idle⟩
    simp [openStructure, verifyIdle_of_busy idle]

/-- Adding the next argument: an error, or it comes to lie where it is expected. -/
theorem writeNext_cases {m : Machine} (wf : m.WellFormed) {cell : Cell}
    (write : Heap → Except MemoryError Heap) (adds : write m.heap = m.heap.push cell) :
    (∃ e h, m.cursor.writeNext m.heap write = (.error e, h) ∧
      m.WriteRefused cell e { m with heap := h }) ∨
    ∃ v, m.Writable v ∧
      m.cursor.writeNext m.heap write = (.ok (m.heap.top, .behind v), m.heap.added cell) := by
  cases hv : m.cursor.visit? with
  | none =>
      have idle : m.cursor = .idle := congrArg Cursor.mk hv
      exact .inl ⟨.notActive, m.heap, by simp [Cursor.writeNext, Cursor.pending, hv], .idle idle⟩
  | some v =>
      obtain ⟨p, s, fits⟩ := wf.visit hv
      have ahead : v.index ≠ v.arguments.count := by
        have := fits.pending
        rw [fits.count]
        omega
      cases room : m.heap.reserve 1 with
      | error e =>
          obtain ⟨capacity, rfl⟩ := Heap.reserve_error room
          refine .inl ⟨.memory (.heapOverflow capacity), m.heap, ?_, .full hv room⟩
          simp [Cursor.writeNext, Cursor.pending, hv, ahead, adds, Heap.push, room]
      | ok _ =>
          have pushed : m.heap.push cell = .ok (m.heap.added cell) :=
            Heap.push_eq_ok_iff.mpr ⟨room, rfl⟩
          cases mode : v.mode with
          | read =>
              have below : v.next ≠ m.heap.top := by
                have term := fits.read mode v.index fits.pending
                have lt := term.lt_top
                rw [Visit.next, fits.first]
                exact Nat.ne_of_lt lt
              refine .inl ⟨.termOutOfPlace v.index v.next m.heap.top, m.heap.added cell, ?_,
                .stray hv mode room⟩
              simp [Cursor.writeNext, Cursor.pending, hv, ahead, adds, pushed, below.symm]
          | write =>
              have place : m.heap.top = v.next := by
                rw [Visit.next, fits.first]
                exact (fits.write mode).2.symm
              refine .inr ⟨v, ⟨hv, mode, room⟩, ?_⟩
              simp [Cursor.writeNext, Cursor.pending, hv, ahead, adds, pushed, ← place]

theorem setVariable_newVariable {m : Machine} (wf : m.WellFormed) (x : Register) :
    m.NewVariable x (m.setVariable x) := by
  rcases writeNext_cases wf Heap.newVariable rfl with
    ⟨e, h, wrote, refused⟩ | ⟨v, writable, wrote⟩
  · simp only [setVariable, wrote]
    exact .refused refused
  · simp only [setVariable, wrote]
    exact .added writable (storeRegister_stored _ _ _)

theorem WellFormed.cell_of_held {m : Machine} (wf : m.WellFormed) {x : Register} {a : Address}
    (held : m.registers.held x = some a) : ∃ cell, m.heap.cells[a]? = some cell := by
  rcases wf.registers held with ⟨r, hr⟩ | ⟨f, hf⟩
  · exact ⟨_, hr⟩
  · exact ⟨_, hf⟩

theorem setValue_copied {m : Machine} (wf : m.WellFormed) (x : Register) :
    m.Copied x (m.setValue x) := by
  cases loaded : m.registers.load x with
  | error e =>
      simp only [setValue, loaded]
      exact .unread loaded
  | ok a =>
      have held := Registers.load_eq_ok_iff.mp loaded
      obtain ⟨cell, hc⟩ := wf.cell_of_held held
      rcases writeNext_cases wf (·.pushCopy a) (Heap.pushCopy_of_cell hc) with
        ⟨e, h, wrote, refused⟩ | ⟨v, writable, wrote⟩
      · simp only [setValue, loaded, wrote]
        exact .refused held hc refused
      · simp only [setValue, loaded, wrote]
        exact .added held hc writable

/-- The chain of an unbound variable ends below a structure that has just been started, so it can be
bound to it. -/
theorem binding_opened {h : Heap} {a b : Address} (s : Symbol) (unbound : h.Unbound a b) :
    (h.opened s).Binding b h.top where
  unbound := Heap.cell_opened unbound.2 s
  stays := .compound (Heap.cells_opened_top h s)
  distinct := (Nat.ne_of_lt (Heap.lt_top_of_cell unbound.2)).symm
  down := .inr ⟨_, Heap.cells_opened_top h s⟩

theorem chosen_opened {h : Heap} {a b : Address} (s : Symbol) (unbound : h.Unbound a b) :
    (h.opened s).binding b h.top = .ok (b, h.top) := by
  have left := Heap.isUnbound_of_ref (Heap.cell_opened unbound.2 s)
  have right := Heap.isUnbound_of_str (Heap.cells_opened_top h s)
  simp [Heap.binding, left, right]

theorem bind_opened {h : Heap} {a b : Address} (s : Symbol) (unbound : h.Unbound a b) :
    (h.opened s).bind b h.top = .ok ((h.opened s).assign b h.top) := by
  rw [Heap.bind, chosen_opened s unbound]

theorem getStructure_transition {m : Machine} (wf : m.WellFormed) (fuel : Nat) (s : Symbol)
    (x : Register) : Transition fuel m (.getStructure s x) (m.getStructure s x) := by
  cases loaded : m.registers.load x with
  | error e =>
      simp only [getStructure, loaded]
      exact .getUnread loaded
  | ok a =>
      have held := Registers.load_eq_ok_iff.mp loaded
      have term := wf.registers held
      obtain ⟨b, hab⟩ := wf.linked.ends term
      rcases hab.last with cell | ⟨f, cell⟩
      · have unbound : m.heap.Unbound a b := ⟨hab, cell⟩
        have inspected := Heap.inspect_eq_unbound_iff.mpr unbound
        rcases m.openStructure_cases s with ⟨e, refusal, refused⟩ | ⟨started, idle, room⟩
        · simp only [getStructure, loaded, inspected, refusal]
          exact .getRefused held unbound refused
        · have bound := bind_opened s unbound
          simp only [getStructure, loaded, inspected, started, opened, bound]
          exact .getWrite held unbound idle room (binding_opened s unbound)
      · obtain ⟨t, symbol⟩ := wf.linked.str cell
        have compound : m.heap.Compound a t f := ⟨b, hab, cell, symbol⟩
        have inspected := Heap.inspect_eq_compound_iff.mpr ⟨hab, f, cell, symbol, rfl⟩
        by_cases same : t = s
        · subst same
          by_cases idle : m.cursor = .idle
          · simp only [getStructure, loaded, inspected, Cursor.start, idle, if_true,
              Cursor.verifyIdle_idle]
            exact .getRead held compound idle
          · simp only [getStructure, loaded, inspected, Cursor.start, if_true,
              verifyIdle_of_busy idle]
            exact .getActive held compound idle
        · simp only [getStructure, loaded, inspected, if_neg same]
          exact .getFailed held compound same

theorem readNext_of_visit {m : Machine} (wf : m.WellFormed) {v : Visit}
    (hv : m.cursor.visit? = some v) : m.cursor.readNext = .ok (v.next, .behind v) := by
  obtain ⟨p, s, fits⟩ := wf.visit hv
  have ahead : v.index ≠ v.arguments.count := by
    have := fits.pending
    rw [fits.count]
    omega
  simp [Cursor.readNext, Cursor.pending, hv, ahead]

theorem mode_of_visit {c : Cursor} {v : Visit} (hv : c.visit? = some v) : c.mode = .ok v.mode := by
  simp [Cursor.mode, hv]

theorem unifyVariable_transition {m : Machine} (wf : m.WellFormed) (fuel : Nat) (x : Register) :
    Transition fuel m (.unifyVariable x) (m.unifyVariable x) := by
  cases hv : m.cursor.visit? with
  | none =>
      simp only [unifyVariable, Cursor.mode, hv]
      exact .unifyVariableIdle (congrArg Cursor.mk hv)
  | some v =>
      cases mode : v.mode with
      | read =>
          simp only [unifyVariable, mode_of_visit hv, mode, readNext_of_visit wf hv]
          exact .unifyVariableRead hv mode (storeRegister_stored _ _ _)
      | write =>
          simp only [unifyVariable, mode_of_visit hv, mode]
          exact .unifyVariableWrite hv mode (setVariable_newVariable wf x)

theorem WellFormed.next_isTerm {m : Machine} (wf : m.WellFormed) {v : Visit}
    (hv : m.cursor.visit? = some v) (read : v.mode = .read) : m.heap.IsTerm v.next := by
  obtain ⟨p, s, fits⟩ := wf.visit hv
  rw [Visit.next, fits.first]
  exact fits.read read v.index fits.pending

theorem WellFormed.operands {m : Machine} (wf : m.WellFormed) {x : Register} {v : Visit}
    {a : Address} (hv : m.cursor.visit? = some v) (read : v.mode = .read)
    (held : m.registers.held x = some a) : m.heap.TermPairs [(a, v.next)] := by
  simpa [Heap.TermPairs] using ⟨wf.registers held, wf.next_isTerm hv read⟩

theorem unify_unified {m : Machine} (wf : m.WellFormed) (alive : m.status ≠ .failed)
    (fuel : Nat) {x : Register} {v : Visit} {a : Address} (hv : m.cursor.visit? = some v)
    (read : v.mode = .read) (held : m.registers.held x = some a) :
    m.Unified fuel v a ((m.passed v).unify fuel a v.next) := by
  have heap := wf.heap alive (not_writes_of_read hv read)
  have noError := (Heap.unifyAll_bindings heap.readable (wf.operands hv read held) fuel).2
  cases ended : m.heap.unify fuel a v.next with
  | unified heap =>
      simp only [unify, passed, ended]
      exact .done ended
  | clash heap =>
      simp only [unify, passed, ended]
      exact .failed ended
  | unfinished heap work =>
      simp only [unify, passed, ended]
      exact .unfinished ended
  | error e heap => exact absurd ended (noError e heap)

theorem unifyValue_transition {m : Machine} (wf : m.WellFormed) (alive : m.status ≠ .failed)
    (fuel : Nat) (x : Register) :
    Transition fuel m (.unifyValue x) (m.unifyValue fuel x) := by
  cases hv : m.cursor.visit? with
  | none =>
      simp only [unifyValue, Cursor.mode, hv]
      exact .unifyValueIdle (congrArg Cursor.mk hv)
  | some v =>
      cases mode : v.mode with
      | write =>
          simp only [unifyValue, mode_of_visit hv, mode]
          exact .unifyValueWrite hv mode (setValue_copied wf x)
      | read =>
          cases loaded : m.registers.load x with
          | error e =>
              simp only [unifyValue, mode_of_visit hv, mode, readNext_of_visit wf hv, loaded]
              exact .unifyValueUnread hv mode loaded
          | ok a =>
              have held := Registers.load_eq_ok_iff.mp loaded
              simp only [unifyValue, mode_of_visit hv, mode, readNext_of_visit wf hv, loaded]
              exact .unifyValueRead hv mode held (unify_unified wf alive fuel hv mode held)

/-- Executing an instruction does one of the things on the list. -/
theorem step_transition {m : Machine} (wf : m.WellFormed) (alive : m.status ≠ .failed)
    (fuel : Nat) (i : Instruction) : Transition fuel m i (m.step fuel i) := by
  cases i with
  | putStructure s x =>
      rcases m.openStructure_cases s with ⟨e, refusal, refused⟩ | ⟨started, idle, room⟩
      · simp only [step, putStructure, refusal]
        exact .putRefused refused
      · simp only [step, putStructure, started]
        exact .put idle room (storeRegister_stored _ _ _)
  | setVariable x => exact .setVariable (setVariable_newVariable wf x)
  | setValue x => exact .setValue (setValue_copied wf x)
  | getStructure s x => exact getStructure_transition wf fuel s x
  | unifyVariable x => exact unifyVariable_transition wf fuel x
  | unifyValue x => exact unifyValue_transition wf alive fuel x

end Machine

end TermMachine
