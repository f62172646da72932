import TermMachine.Proofs.Heap.Writes
import TermMachine.Proofs.Machine.Limits

/-! # What runs write

`reachable_gains`: whatever a machine is given to run, and however the runs end, all that its heap
ever gets is cells at the top, and once each, a reference in the place of an unbound variable. So
what an address has led to it leads to for good, if it was not a variable.
-/

namespace TermMachine

namespace Heap

variable {h h' : Heap}

theorem Linked.exists_inspect (hl : h.Linked) {a : Address} (term : h.IsTerm a) :
    ∃ b v, h.inspect a = .ok (b, v) := by
  obtain ⟨b, hab⟩ := hl.ends term
  rcases hab.last with cell | ⟨f, cell⟩
  · exact ⟨b, .unbound, inspect_eq_unbound_iff.mpr ⟨hab, cell⟩⟩
  · obtain ⟨s, symbol⟩ := hl.str cell
    exact ⟨b, _, inspect_eq_compound_iff.mpr ⟨hab, f, cell, symbol, rfl⟩⟩

/-- References that end at a structure end there for good. -/
theorem Persists.endsAt (persists : h.Persists h') {a b f : Address} (hab : h.EndsAt a b)
    (last : h.cells[b]? = some (.str f)) : h'.EndsAt a b := by
  induction hab with
  | unbound cell => exact nomatch cell.symm.trans last
  | compound _ => exact .compound (persists.cells last nofun)
  | follow cell bound _ ih =>
      exact .follow (persists.cells cell fun same => bound (Cell.ref.inj same)) bound (ih last)

/-- A structure that was found at an address is found there for good. -/
theorem Persists.inspect (persists : h.Persists h') {a b first : Address} {s : Symbol}
    (found : h.inspect a = .ok (b, .compound s first)) :
    h'.inspect a = .ok (b, .compound s first) := by
  obtain ⟨hab, f, cell, symbol, rfl⟩ := inspect_eq_compound_iff.mp found
  exact inspect_eq_compound_iff.mpr
    ⟨persists.endsAt hab cell, f, persists.cells cell nofun, persists.cells symbol nofun, rfl⟩

end Heap

namespace Machine

variable {m : Machine}

/-! ## One instruction -/

/-- Adding an argument writes it, even if it comes to lie in the wrong place. -/
theorem writesIn_writeNext {c : Cursor} {h : Heap} {cell : Cell}
    (write : Heap → Except MemoryError Heap) (adds : write h = h.push cell) :
    Heap.Writes h (writesIn (Narration.writeNext c h write (Narration.push h cell)))
      (c.writeNext h write).2 := by
  unfold Narration.writeNext Cursor.writeNext
  cases c.pending with
  | error e => exact .nil h
  | ok v =>
      dsimp only
      rw [adds, writesIn_append]
      cases pushed : h.push cell with
      | error e =>
          rw [Narration.push, pushed]
          exact .nil h
      | ok h' =>
          have first := Heap.writesIn_push pushed
          by_cases place : h.top = v.next
          · simp only [if_pos place]
            refine first.trans ?_
            unfold Narration.behind
            split <;> exact .nil h'
          · simp only [if_neg place]
            exact first.trans (.nil h')

theorem writesIn_setVariable (m : Machine) (x : Register) :
    Heap.Writes m.heap (writesIn (Narration.setVariable m x)) (m.setVariable x).settled.heap := by
  have written := writesIn_writeNext (c := m.cursor) Heap.newVariable (h := m.heap) rfl
  unfold Narration.setVariable Machine.setVariable
  rw [writesIn_append, Narration.newVariable]
  generalize m.cursor.writeNext m.heap Heap.newVariable = next at written
  obtain ⟨_ | ⟨a, cursor⟩, heap⟩ := next
  · exact written.trans (.nil heap)
  · dsimp only
    rw [heap_storeRegister]
    exact written.trans (.nil heap)

theorem WellFormed.writesIn_setValue (wf : m.WellFormed) (x : Register) :
    Heap.Writes m.heap (writesIn (Narration.setValue m x)) (m.setValue x).settled.heap := by
  unfold Narration.setValue Machine.setValue
  cases loaded : m.registers.load x with
  | error e => exact .nil m.heap
  | ok a =>
      obtain ⟨cell, hc⟩ := wf.cell_of_held (Registers.load_eq_ok_iff.mp loaded)
      have copies : m.heap.pushCopy a = m.heap.push cell := Heap.pushCopy_of_cell hc
      have tells : Narration.pushCopy a m.heap = Narration.push m.heap cell := by
        rw [Narration.pushCopy, Heap.load_of_cell hc]
      have written := writesIn_writeNext (c := m.cursor) (·.pushCopy a) copies
      dsimp only
      rw [tells]
      generalize m.cursor.writeNext m.heap (·.pushCopy a) = next at written ⊢
      obtain ⟨_ | ⟨b, cursor⟩, heap⟩ := next
      · exact written
      · exact written

theorem writesIn_along (args : Arguments) : writesIn (Narration.along args) = [] := by
  unfold Narration.along
  split <;> rfl

/-- Starting a structure writes its first two cells. -/
theorem writesIn_openStructure {s : Symbol} (started : m.openStructure s = .ok (m.opened s))
    (room : m.heap.reserve 2 = .ok ()) :
    Heap.Writes m.heap (writesIn (Narration.openStructure m s)) (m.heap.opened s) := by
  have added : m.heap.newStructure s = .ok (m.heap.opened s) :=
    Heap.newStructure_eq_ok_iff.mpr ⟨room, rfl⟩
  have cells := (Heap.Writes.single m.heap (.str (m.heap.top + 1))).trans (.single _ (.symbol s))
  rw [Heap.top_added] at cells
  have quiet : writesIn (.lookingUp m.heap.top ::
      Narration.along ⟨(m.opened s).heap.top, s.arity⟩) = [] := writesIn_along _
  unfold Narration.openStructure Narration.newStructure
  rw [started, added]
  dsimp only
  rw [writesIn_append, quiet, List.append_nil]
  exact cells

theorem writesIn_putStructure (m : Machine) (s : Symbol) (x : Register) :
    Heap.Writes m.heap (writesIn (Narration.putStructure m s x))
      (m.putStructure s x).settled.heap := by
  unfold Narration.putStructure Machine.putStructure
  rcases m.openStructure_cases s with ⟨e, refusal, _⟩ | ⟨started, _, room⟩
  · rw [refusal, Narration.openStructure, refusal]
    exact .nil m.heap
  · have written := writesIn_openStructure started room
    rw [started]
    dsimp only
    rw [heap_storeRegister, writesIn_append]
    exact written.trans (.nil _)

theorem WellFormed.writesIn_getStructure (wf : m.WellFormed) (s : Symbol) (x : Register) :
    Heap.Writes m.heap (writesIn (Narration.getStructure m s x))
      (m.getStructure s x).settled.heap := by
  unfold Narration.getStructure Machine.getStructure
  cases loaded : m.registers.load x with
  | error e => exact .nil m.heap
  | ok a =>
      dsimp only
      obtain ⟨b, v, inspected⟩ :=
        wf.linked.exists_inspect (wf.registers (Registers.load_eq_ok_iff.mp loaded))
      rw [inspected]
      cases v with
      | unbound =>
          have unbound := Heap.inspect_eq_unbound_iff.mp inspected
          dsimp only
          rcases m.openStructure_cases s with ⟨e, refusal, _⟩ | ⟨started, _, room⟩
          · rw [refusal, Narration.openStructure, refusal]
            exact .nil m.heap
          · have written := writesIn_openStructure started room
            have bound := Heap.writesIn_bind (chosen_opened s unbound) (binding_opened s unbound)
            have heap : (m.opened s).heap = m.heap.opened s := rfl
            rw [started]
            dsimp only
            rw [heap, bind_opened s unbound, writesIn_quiet rfl, writesIn_quiet rfl,
              writesIn_append, writesIn_quiet rfl]
            exact written.trans bound
      | compound t first =>
          dsimp only
          by_cases same : t = s
          · rw [if_pos same, if_pos same, Cursor.start, writesIn_quiet rfl, writesIn_quiet rfl,
              writesIn_quiet rfl]
            by_cases idle : m.cursor = .idle
            · rw [(Cursor.verifyIdle_eq_ok_iff _).mpr idle]
              dsimp only
              rw [writesIn_along]
              exact .nil m.heap
            · rw [verifyIdle_of_busy idle]
              exact .nil m.heap
          · rw [if_neg same, if_neg same]
            exact .nil m.heap

theorem writesIn_readNext (c : Cursor) : writesIn (Narration.readNext c) = [] := by
  unfold Narration.readNext
  cases c.pending with
  | error e => rfl
  | ok v =>
      dsimp only
      rw [writesIn_quiet rfl, Narration.behind]
      split <;> rfl

theorem heap_unify (m : Machine) (fuel : Nat) (a b : Address) :
    (m.unify fuel a b).settled.heap = (m.heap.unify fuel a b).heap := by
  unfold Machine.unify
  cases m.heap.unify fuel a b <;> rfl

theorem WellFormed.writesIn_unifyVariable (wf : m.WellFormed) (x : Register) :
    Heap.Writes m.heap (writesIn (Narration.unifyVariable m x))
      (m.unifyVariable x).settled.heap := by
  unfold Narration.unifyVariable Machine.unifyVariable
  cases hv : m.cursor.visit? with
  | none =>
      rw [Cursor.mode, hv]
      exact .nil m.heap
  | some v =>
      rw [mode_of_visit hv]
      cases v.mode with
      | write => exact writesIn_setVariable m x
      | read =>
          dsimp only
          rw [readNext_of_visit wf hv]
          dsimp only
          rw [writesIn_append, writesIn_readNext]
          rw [heap_storeRegister]
          exact .nil m.heap

theorem WellFormed.writesIn_unifyValue (wf : m.WellFormed) (alive : m.status ≠ .failed)
    (fuel : Nat) (x : Register) :
    Heap.Writes m.heap (writesIn (Narration.unifyValue fuel m x))
      (m.unifyValue fuel x).settled.heap := by
  unfold Narration.unifyValue Machine.unifyValue
  cases hv : m.cursor.visit? with
  | none =>
      rw [Cursor.mode, hv]
      exact .nil m.heap
  | some v =>
      rw [mode_of_visit hv]
      cases mode : v.mode with
      | write => exact wf.writesIn_setValue x
      | read =>
          dsimp only
          rw [readNext_of_visit wf hv]
          dsimp only
          rw [writesIn_append, writesIn_readNext, List.nil_append, writesIn_quiet rfl]
          cases loaded : m.registers.load x with
          | error e => exact .nil m.heap
          | ok a =>
              have held := Registers.load_eq_ok_iff.mp loaded
              have heap := wf.heap alive (not_writes_of_read hv mode)
              have written := Heap.writesIn_unifyAll heap.readable (wf.operands hv mode held) fuel
              dsimp only
              rw [heap_unify]
              exact written

/-- Whatever an instruction does to the heap is written, and nothing is written over anything but
unbound variables. -/
theorem WellFormed.writesIn_step (wf : m.WellFormed) (alive : m.status ≠ .failed) (fuel : Nat)
    (i : Instruction) :
    Heap.Writes m.heap (writesIn (Narration.step fuel m i)) (m.step fuel i).settled.heap := by
  cases i with
  | putStructure s x => exact writesIn_putStructure m s x
  | setVariable x => exact writesIn_setVariable m x
  | setValue x => exact wf.writesIn_setValue x
  | getStructure s x => exact wf.writesIn_getStructure s x
  | unifyVariable x => exact wf.writesIn_unifyVariable x
  | unifyValue x => exact wf.writesIn_unifyValue alive fuel x

/-! ## Runs -/

variable {registerCount : Nat} {limits : Limits}

theorem Reachable.writesIn_execute (reached : Reachable registerCount limits m)
    (running : m.status = .running) (fuel : Nat) (is : List Instruction) :
    Heap.Writes m.heap (writesIn (Narration.execute fuel m is))
      (m.execute fuel is).machine.heap := by
  induction is generalizing m with
  | nil =>
      unfold Machine.execute
      split <;> exact .nil m.heap
  | cons i is ih =>
      cases within : m.reachedLimit? with
      | some maxSteps =>
          simp only [Narration.execute, Machine.execute, within]
          exact .nil m.heap
      | none =>
          have alive : m.counted.status ≠ .failed := by simp [counted, running]
          have wf := reached.wellFormed.counted
          have first := wf.writesIn_step alive fuel i
          have next := reached.executes running within fuel i
          have listed := step_transition wf alive fuel i
          have counts : ({ m with steps := m.steps + 1 } : Machine) = m.counted := rfl
          simp only [Narration.execute, within, counts]
          rw [execute_cons within, writesIn_append, writesIn_quiet rfl]
          generalize m.counted.step fuel i = effect at first next listed ⊢
          cases effect with
          | done m' => exact first.trans (ih next (listed.status.trans running))
          | failed m' => exact first.trans (.nil m'.heap)
          | error e m' => exact first.trans (.nil m'.heap)
          | unfinished m' => exact first.trans (.nil m'.heap)

theorem Reachable.writesIn_run (reached : Reachable registerCount limits m) (fuel : Nat)
    (is : List Instruction) :
    Heap.Writes m.heap (writesIn (Narration.run fuel m is)) (m.run fuel is).machine.heap := by
  unfold Narration.run Machine.run
  by_cases failed : m.status = .failed
  · rw [if_pos failed, if_pos failed]
    exact .nil m.heap
  · rw [if_neg failed, if_neg failed]
    exact (reached.begins failed).writesIn_execute rfl fuel is

/-- The machine after runs, one after the other, whatever they lead to. -/
def after (fuel : Nat) (m : Machine) : List (List Instruction) → Machine
  | [] => m
  | is :: runs => (m.run fuel is).machine.after fuel runs

/-- What the runs write. -/
def writes (fuel : Nat) (m : Machine) : List (List Instruction) → List (Address × Cell)
  | [] => []
  | is :: runs =>
      writesIn (Narration.run fuel m is) ++ (m.run fuel is).machine.writes fuel runs

theorem Reachable.after (reached : Reachable registerCount limits m) (fuel : Nat)
    (runs : List (List Instruction)) : Reachable registerCount limits (m.after fuel runs) := by
  induction runs generalizing m with
  | nil => exact reached
  | cons is runs ih => exact ih (reached.run fuel is)

theorem Reachable.writes (reached : Reachable registerCount limits m) (fuel : Nat)
    (runs : List (List Instruction)) :
    Heap.Writes m.heap (m.writes fuel runs) (m.after fuel runs).heap := by
  induction runs generalizing m with
  | nil => exact .nil m.heap
  | cons is runs ih => exact (reached.writesIn_run fuel is).trans (ih (reached.run fuel is))

/-- A heap only gains: every write of any runs adds a cell at the top, or binds an unbound variable
that then stays bound. An address from a register can always be looked up later, and a structure
that it led to is still found there. -/
theorem reachable_gains (reached : Reachable registerCount limits m) (fuel : Nat)
    (runs : List (List Instruction)) :
    let later := (m.after fuel runs).heap
    m.heap.replay (m.writes fuel runs) = later ∧
      (∀ before a cell after, m.writes fuel runs = before ++ (a, cell) :: after →
        let h := m.heap.replay before
        (a = h.top ∨ h.cells[a]? = some (.ref a) ∧ ∃ target, target ≠ a ∧ cell = .ref target) ∧
        (cell ≠ .ref a → ∀ write ∈ after, write.1 ≠ a)) ∧
      m.heap.Persists later ∧
      ∀ x a, m.register x = .ok (some a) → ∃ b v, later.inspect a = .ok (b, v) ∧
        ∀ c s first, m.heap.inspect a = .ok (c, .compound s first) →
          b = c ∧ v = .compound s first := by
  intro later
  have w := reached.writes fuel runs
  refine ⟨w.replay, fun before a cell after split => w.each split, w.persists, fun x a found => ?_⟩
  have term := reached.wellFormed.registers (register_eq_ok_iff.mp found)
  obtain ⟨b, v, inspected⟩ :=
    (reached.after fuel runs).wellFormed.linked.exists_inspect (w.isTerm term)
  refine ⟨b, v, inspected, fun c s first before => ?_⟩
  have same := inspected.symm.trans (w.persists.inspect before)
  cases same
  exact ⟨rfl, rfl⟩

/-- The program `p(Y, Y)` fails on `p(f(X, a), f(b, c))` after `X` has been bound. The structure
that the query has built is still there. -/
theorem reachable_gains_clash :
    let u := CompiledUnit.ofTerms
      (.compound "p" [.compound "f" [.var "X", .atom "a"], .compound "f" [.atom "b", .atom "c"]])
      (.compound "p" [.var "Y", .var "Y"])
    let built := (new u.registerCount .unlimited).after 10 [u.query.instructions]
    let later := built.after 10 [u.program.instructions]
    later.hasFailed = true ∧ built.writes 10 [u.program.instructions] = [(4, .ref 12)] ∧
      built.heap.Persists later.heap ∧
      built.register 0 = .ok (some 14) ∧ built.heap.inspect 14 = .ok (14, .compound ⟨"p", 2⟩ 16) ∧
      later.heap.inspect 14 = .ok (14, .compound ⟨"p", 2⟩ 16) := by
  intro u built later
  have reached : Reachable u.registerCount .unlimited built :=
    Reachable.new.after 10 [u.query.instructions]
  obtain ⟨_, _, persists, addresses⟩ := reachable_gains reached 10 [u.program.instructions]
  have held : built.register 0 = .ok (some 14) := by decide +kernel
  have found : built.heap.inspect 14 = .ok (14, .compound ⟨"p", 2⟩ 16) := by decide +kernel
  obtain ⟨b, v, inspected, same⟩ := addresses 0 14 held
  obtain ⟨rfl, rfl⟩ := same _ _ _ found
  exact ⟨by decide +kernel, by decide +kernel, persists, held, found, inspected⟩

end Machine

end TermMachine
