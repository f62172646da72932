import TermMachine.Proofs.Code
import TermMachine.Proofs.Heap.Solution
import TermMachine.Proofs.Machine.Invariant

/-! # Executing code without limits

`advance` executes instructions one after the other, like a run that goes on behind the last of
them. What a single instruction of compiled code does to a machine without limits is stated by its
effect on the solutions of the heap. Whether an argument is read or written makes no difference
there: either way, the argument has the address that the cursor stands at.
-/

namespace TermMachine

/-- Goes on with another piece of work if the first one is done. -/
def Effect.bind (effect : Effect) (next : Machine → Effect) : Effect :=
  match effect with
  | .done m => next m
  | .failed m => .failed m
  | .error e m => .error e m
  | .unfinished m => .unfinished m

/-- A unification has put an end to the work. -/
inductive Effect.CutShort : Effect → Prop
  | failed (m : Machine) : CutShort (.failed m)
  | unfinished (m : Machine) : CutShort (.unfinished m)

theorem Effect.exists_of_bind {effect : Effect} {next : Machine → Effect} {m' : Machine}
    (done : effect.bind next = .done m') : ∃ m, effect = .done m ∧ next m = .done m' := by
  cases effect with
  | done m => exact ⟨m, rfl, done⟩
  | failed m => cases done
  | error e m => cases done
  | unfinished m => cases done

namespace Machine

/-- Executes instructions, and does not ask whether a structure is left open behind them. -/
def advance (fuel : Nat) (m : Machine) : List Instruction → Effect
  | [] => .done m
  | i :: is =>
      match m.reachedLimit? with
      | some maxSteps => .error (.stepLimitExceeded maxSteps) m
      | none => (m.counted.step fuel i).bind fun m => m.advance fuel is

theorem execute_eq_advance (fuel : Nat) (m : Machine) (is : List Instruction) :
    m.execute fuel is = goOn fuel [] (m.advance fuel is) := by
  induction is generalizing m with
  | nil => rfl
  | cons i is ih =>
      cases within : m.reachedLimit? with
      | some maxSteps => simp only [execute, advance, within, goOn]
      | none =>
          rw [execute_cons within]
          simp only [advance, within]
          cases m.counted.step fuel i with
          | done m => exact ih m
          | failed m => rfl
          | error e m => rfl
          | unfinished m => rfl

theorem advance_append (fuel : Nat) (m : Machine) (is js : List Instruction) :
    m.advance fuel (is ++ js) = (m.advance fuel is).bind fun m => m.advance fuel js := by
  induction is generalizing m with
  | nil => rfl
  | cons i is ih =>
      cases within : m.reachedLimit? with
      | some maxSteps => simp only [advance, List.cons_append, within, Effect.bind]
      | none =>
          simp only [advance, List.cons_append, within]
          cases m.counted.step fuel i with
          | done m => exact ih m
          | failed m => rfl
          | error e m => rfl
          | unfinished m => rfl

theorem exists_of_advance_cons {fuel : Nat} {m m' : Machine} {i : Instruction}
    {is : List Instruction} (done : m.advance fuel (i :: is) = .done m') :
    ∃ m₁, m.counted.step fuel i = .done m₁ ∧ m₁.advance fuel is = .done m' := by
  unfold advance at done
  split at done
  · cases done
  · exact Effect.exists_of_bind done

/-- How a run ends well: in a machine that had failed before, by the failure of a unification, or
behind the last instruction and outside of all structures. -/
inductive EndsIn (fuel : Nat) (m : Machine) (is : List Instruction) : Machine → Prop
  | stays (failed : m.status = .failed) : EndsIn fuel m is m
  | fails (alive : m.status ≠ .failed) {m' : Machine}
      (ran : ({ m with status := .running } : Machine).advance fuel is = .failed m') :
      EndsIn fuel m is { m' with status := .failed }
  | succeeds (alive : m.status ≠ .failed) {m' : Machine}
      (ran : ({ m with status := .running } : Machine).advance fuel is = .done m')
      (idle : m'.cursor = .idle) : EndsIn fuel m is { m' with status := .succeeded }

theorem run_of_alive {m : Machine} (alive : m.status ≠ .failed) (fuel : Nat)
    (is : List Instruction) :
    m.run fuel is = goOn fuel [] (({ m with status := .running } : Machine).advance fuel is) := by
  rw [Machine.run, if_neg alive, execute_eq_advance]

theorem run_eq_ok_iff {fuel : Nat} {m m' : Machine} {is : List Instruction} :
    m.run fuel is = .ok m' ↔ m.EndsIn fuel is m' := by
  constructor
  · intro ran
    by_cases failed : m.status = .failed
    · rw [Machine.run, if_pos failed] at ran
      cases ran
      exact .stays failed
    · rw [run_of_alive failed] at ran
      generalize ended : ({ m with status := .running } : Machine).advance fuel is = effect at ran
      cases effect with
      | done m₁ =>
          unfold goOn execute at ran
          dsimp only at ran
          split at ran
          · next idle =>
              cases ran
              exact .succeeds failed ended ((Cursor.verifyIdle_eq_ok_iff _).mp idle)
          · cases ran
      | failed m₁ =>
          cases ran
          exact .fails failed ended
      | error e m₁ => cases ran
      | unfinished m₁ => cases ran
  · intro ends
    cases ends with
    | stays failed => rw [Machine.run, if_pos failed]
    | fails alive ran => rw [run_of_alive alive, ran, goOn]
    | succeeds alive ran idle =>
        have verified := (Cursor.verifyIdle_eq_ok_iff _).mpr idle
        simp only [run_of_alive alive, ran, goOn, execute, verified]

/-- A run that succeeds has come to the end of the code, outside of all structures. -/
theorem exists_advance_of_run {fuel : Nat} {m m' : Machine} {is : List Instruction}
    (ran : m.run fuel is = .ok m') (succeeded : m'.status ≠ .failed) :
    m.status ≠ .failed ∧ ∃ m₁,
      ({ m with status := .running } : Machine).advance fuel is = .done m₁ ∧ m₁.cursor = .idle ∧
        m' = { m₁ with status := .succeeded } := by
  cases run_eq_ok_iff.mp ran with
  | stays failed => exact absurd failed succeeded
  | fails _ _ => exact absurd rfl succeeded
  | succeeds alive done idle => exact ⟨alive, _, done, idle, rfl⟩

/-- After a successful run every structure is complete. -/
theorem Reachable.heap_of_run {registerCount : Nat} {limits : Limits} {m m' : Machine}
    (reached : Reachable registerCount limits m) {fuel : Nat} {is : List Instruction}
    (ran : m.run fuel is = .ok m') (succeeded : m'.status ≠ .failed) :
    m'.heap.WellFormed := by
  have wf : m'.WellFormed := by
    have after := (reached.run fuel is).wellFormed
    rwa [ran] at after
  obtain ⟨_, m₁, _, idle, rfl⟩ := exists_advance_of_run ran succeeded
  exact wf.heap succeeded (not_writes_of_idle idle)

/-- What every single instruction keeps is kept by all of them together. -/
theorem advance_keeps {P : Machine → Prop} {fuel : Nat} {is : List Instruction}
    (counted : ∀ m : Machine, P m → P m.counted)
    (one : ∀ i ∈ is, ∀ {m m' : Machine}, m.WellFormed → m.status ≠ .failed →
      Transition fuel m i (.done m') → P m → P m')
    {m m' : Machine} (wf : m.WellFormed) (alive : m.status ≠ .failed) (holds : P m)
    (done : m.advance fuel is = .done m') : P m' := by
  induction is generalizing m with
  | nil =>
      cases done
      exact holds
  | cons i is ih =>
      obtain ⟨m₁, first, rest⟩ := exists_of_advance_cons done
      have t := step_transition wf.counted alive fuel i
      rw [first] at t
      have alive₁ : m₁.status ≠ .failed := by
        rw [t.status]
        exact alive
      have here := one i List.mem_cons_self wf.counted alive t (counted m holds)
      exact ih (fun j mem => one j (List.mem_cons_of_mem i mem)) (wf.counted.transition alive t)
        alive₁ here rest

/-- What execution was cut short with, if not by a limit, an instruction has led to. -/
theorem WellFormed.exists_transition {fuel : Nat} {m : Machine} (wf : m.WellFormed)
    (alive : m.status ≠ .failed) {is : List Instruction} {effect : Effect}
    (ended : m.advance fuel is = effect) (short : effect.CutShort) :
    ∃ m₁, ∃ i ∈ is, Transition fuel m₁ i effect := by
  induction is generalizing m with
  | nil =>
      cases ended
      cases short
  | cons i is ih =>
      unfold advance at ended
      split at ended
      · cases ended
        cases short
      · have t := step_transition wf.counted alive fuel i
        cases first : m.counted.step fuel i with
        | done m₁ =>
            rw [first] at ended t
            have alive₁ : m₁.status ≠ .failed := t.status ▸ alive
            obtain ⟨m₂, j, mem, last⟩ := ih (wf.counted.transition alive t) alive₁ ended
            exact ⟨m₂, j, List.mem_cons_of_mem i mem, last⟩
        | failed m₁ =>
            rw [first] at ended t
            cases ended
            exact ⟨_, i, List.mem_cons_self, t⟩
        | error e m₁ =>
            rw [first] at ended
            cases ended
            cases short
        | unfinished m₁ =>
            rw [first] at ended t
            cases ended
            exact ⟨_, i, List.mem_cons_self, t⟩

theorem Stored.not_unfinished {m m' : Machine} {x : Register} {a : Address}
    (stored : m.Stored x a (.unfinished m')) : False := by cases stored

/-- Only comparing takes work that can be used up. -/
theorem Transition.compares_of_unfinished {fuel : Nat} {m m' : Machine} {i : Instruction}
    (t : Transition fuel m i (.unfinished m')) : ∃ x, i = .unifyValue x := by
  have newCell {x : Register} (added : m.NewVariable x (.unfinished m')) : False := by
    cases added with
    | added _ stored => exact stored.not_unfinished
  cases t with
  | put _ _ stored => exact stored.not_unfinished.elim
  | setVariable added => exact (newCell added).elim
  | setValue copied => cases copied
  | unifyVariableWrite _ _ added => exact (newCell added).elim
  | unifyVariableRead _ _ stored => exact stored.not_unfinished.elim
  | unifyValueWrite => exact ⟨_, rfl⟩
  | unifyValueRead => exact ⟨_, rfl⟩

/-- Code that is given up compares something. -/
theorem WellFormed.compares_of_unfinished {fuel : Nat} {m m' : Machine} (wf : m.WellFormed)
    (alive : m.status ≠ .failed) {is : List Instruction}
    (ended : m.advance fuel is = .unfinished m') : ∃ x, .unifyValue x ∈ is := by
  obtain ⟨m₁, i, mem, t⟩ := wf.exists_transition alive ended (.unfinished m')
  obtain ⟨x, rfl⟩ := t.compares_of_unfinished
  exact ⟨x, mem⟩

structure Ready (m : Machine) : Prop where
  wellFormed : m.WellFormed
  running : m.status = .running
  steps : m.maxSteps = none
  capacity : m.heap.capacity = none

theorem Ready.alive {m : Machine} (ready : m.Ready) : m.status ≠ .failed := by
  simp [ready.running]

theorem Ready.counted {m : Machine} (ready : m.Ready) : m.counted.Ready :=
  ⟨ready.wellFormed.counted, ready.running, ready.steps, ready.capacity⟩

theorem Ready.advance_cons {m : Machine} (ready : m.Ready) (fuel : Nat) (i : Instruction)
    (is : List Instruction) :
    m.advance fuel (i :: is) = (m.counted.step fuel i).bind fun m => m.advance fuel is := by
  have within : m.reachedLimit? = none := by simp [reachedLimit?, ready.steps]
  simp only [advance, within]

theorem Ready.reserve {m : Machine} (ready : m.Ready) (n : Nat) : m.heap.reserve n = .ok () := by
  simp [Heap.reserve, ready.capacity]

/-- The machine after an instruction is ready if its limits are the same. -/
theorem Ready.done {m m' : Machine} (ready : m.Ready) {fuel : Nat} {i : Instruction}
    (t : Transition fuel m i (.done m')) (steps : m'.maxSteps = m.maxSteps)
    (capacity : m'.heap.capacity = m.heap.capacity) : m'.Ready where
  wellFormed := ready.wellFormed.transition ready.alive t
  running := t.status.trans ready.running
  steps := steps.trans ready.steps
  capacity := capacity.trans ready.capacity

/-! ## One argument -/

structure Noted (m : Machine) (v : Visit) (x : Register) (m' : Machine) : Prop where
  ready : m'.Ready
  registers : m'.registers = m.registers.put x v.next
  cursor : m'.cursor = .behind v
  heap : m.heap.GrowsTo m'.heap
  rooted : ∀ {roots : Set Address}, m.heap.Rooted roots → m'.heap.Rooted (insert v.next roots)
  solution_iff : ∀ {τ : Type} [Trees τ] {σ : Address → τ},
    m'.heap.Solution σ ↔ m.heap.Solution σ

structure Equated (m : Machine) (v : Visit) (a : Address) (m' : Machine) : Prop where
  ready : m'.Ready
  registers : m'.registers = m.registers
  cursor : m'.cursor = .behind v
  heap : m.heap.GrowsTo m'.heap
  rooted : ∀ {roots : Set Address}, m.heap.Rooted roots → m'.heap.Rooted roots
  solution_iff : ∀ {τ : Type} [Trees τ] {σ : Address → τ},
    m'.heap.Solution σ ↔ m.heap.Solution σ ∧ σ a = σ v.next

/-- What comparing the next argument with the term at `a` can lead to. -/
inductive Compared (fuel : Nat) (m : Machine) (v : Visit) (a : Address) : Effect → Prop
  | done {m' : Machine} (equated : m.Equated v a m') : Compared fuel m v a (.done m')
  | failed {m' : Machine}
      (unsolvable : ∀ {τ : Type} [Trees τ] {σ : Address → τ}, m.heap.Solution σ →
        σ a ≠ σ v.next) : Compared fuel m v a (.failed m')
  | unfinished {m' : Machine}
      (large : ∀ {τ : Type} [Trees τ] {size : τ → Nat} (_ : Trees.IsSize size) {σ : Address → τ},
        m.heap.Solution σ → σ a = σ v.next → fuel < size (σ a)) :
      Compared fuel m v a (.unfinished m')

theorem WellFormed.next_eq_top {m : Machine} (wf : m.WellFormed) {v : Visit}
    (hv : m.cursor.visit? = some v) (write : v.mode = .write) : v.next = m.heap.top := by
  obtain ⟨p, s, fits⟩ := wf.visit hv
  rw [Visit.next, fits.first]
  exact (fits.write write).2

/-- Without limits an argument is refused only while none is written. -/
theorem Ready.not_refused {m m' : Machine} (ready : m.Ready) {v : Visit}
    (hv : m.cursor.visit? = some v) (write : v.mode = .write) {cell : Cell} {e : CursorError} :
    ¬m.WriteRefused cell e m' := by
  intro refused
  cases refused with
  | idle idle => simp [idle, Cursor.idle] at hv
  | full _ full => simp [ready.reserve] at full
  | stray hv' read _ =>
      rw [hv, Option.some.injEq] at hv'
      subst hv'
      rw [write] at read
      cases read

theorem Ready.noted_write {m : Machine} (ready : m.Ready) {fuel : Nat} {v : Visit} {x : Register}
    {i : Instruction} {effect : Effect} (hv : m.cursor.visit? = some v) (write : v.mode = .write)
    (lt : x < m.registers.count) (t : Transition fuel m i effect)
    (added : m.NewVariable x effect) : ∃ m', effect = .done m' ∧ m.Noted v x m' := by
  have next := ready.wellFormed.next_eq_top hv write
  cases added with
  | refused refused => exact absurd refused (ready.not_refused hv write)
  | added writable stored =>
      have same := writable.hv
      rw [hv, Option.some.injEq] at same
      subst same
      cases stored with
      | missing le => exact absurd lt (Nat.not_lt.mpr le)
      | done _ =>
          refine ⟨_, rfl, ready.done t rfl rfl, ?_, rfl, ?_, fun rooted => ?_, ?_⟩
          · rw [next]
            rfl
          · exact m.heap.growsTo_added _
          · rw [next]
            refine (rooted.mono (Set.subset_insert _ _)).added fun _ => Set.mem_insert _ _
          · exact ready.wellFormed.linked.solution_variable_iff

/-- An instruction that notes the next argument does so in both modes. -/
theorem Ready.noted {m : Machine} (ready : m.Ready) {v : Visit} {x : Register} {i : Instruction}
    (hv : m.cursor.visit? = some v) (notes : Code.Notes x v.mode i) (lt : x < m.registers.count)
    (fuel : Nat) : ∃ m', m.step fuel i = .done m' ∧ m.Noted v x m' := by
  have t := step_transition ready.wellFormed ready.alive fuel i
  generalize m.step fuel i = effect at t
  generalize mode : v.mode = mode at notes
  cases notes with
  | set =>
      have kept := t
      cases t with
      | setVariable added => exact ready.noted_write hv mode lt kept added
  | unify =>
      have kept := t
      cases t with
      | unifyVariableIdle idle => simp [idle, Cursor.idle] at hv
      | unifyVariableWrite hv' write added =>
          rw [hv, Option.some.injEq] at hv'
          subst hv'
          exact ready.noted_write hv write lt kept added
      | unifyVariableRead hv' read stored =>
          rw [hv, Option.some.injEq] at hv'
          subst hv'
          cases stored with
          | missing le => exact absurd lt (Nat.not_lt.mpr le)
          | done _ =>
              refine ⟨_, rfl, ready.done kept rfl rfl, rfl, rfl, .refl _, fun rooted => ?_,
                Iff.rfl⟩
              exact rooted.mono (Set.subset_insert _ _)

theorem Ready.compared_write {m : Machine} (ready : m.Ready) {fuel : Nat} {v : Visit}
    {x : Register} {a : Address} {i : Instruction} {effect : Effect}
    (hv : m.cursor.visit? = some v) (write : v.mode = .write)
    (held : m.registers.held x = some a) (t : Transition fuel m i effect)
    (copied : m.Copied x effect) : m.Compared fuel v a effect := by
  have next := ready.wellFormed.next_eq_top hv write
  cases copied with
  | unread unread =>
      rw [Registers.load_eq_ok_iff.mpr held] at unread
      cases unread
  | refused _ _ refused => exact absurd refused (ready.not_refused hv write)
  | added held' hc writable =>
      have same := writable.hv
      rw [hv, Option.some.injEq] at same
      subst same
      rw [held, Option.some.injEq] at held'
      subst held'
      have linked := ready.wellFormed.linked
      refine .done ⟨ready.done t rfl rfl, rfl, rfl, ?_, fun rooted => ?_, ?_⟩
      · exact m.heap.growsTo_added _
      · refine rooted.added fun new => ?_
        -- a copy is made of a cell below the top, so it does not refer to itself
        subst new
        have below := linked.ref hc
        exact absurd below.lt_top (Nat.lt_irrefl _)
      · rw [next]
        exact linked.solution_copy_iff hc (ready.wellFormed.registers held)

/-- A unification has decided about the equation that it was asked for. -/
theorem Ready.compared_read {m : Machine} (ready : m.Ready) {fuel : Nat} {v : Visit}
    {x : Register} {a : Address} {i : Instruction} {effect : Effect}
    (hv : m.cursor.visit? = some v) (read : v.mode = .read)
    (held : m.registers.held x = some a) (t : Transition fuel m i effect)
    (unified : m.Unified fuel v a effect) : m.Compared fuel v a effect := by
  have wf := ready.wellFormed
  have bs := wf.unify_bindings ready.alive fuel hv read held
  have readable := (wf.heap ready.alive (not_writes_of_read hv read)).readable
  have operands := wf.operands hv read held
  cases unified with
  | done ended =>
      rw [ended] at bs
      exact .done ⟨ready.done t rfl bs.capacity, rfl, rfl, bs.growsTo,
        fun rooted => bs.rooted rooted, Heap.unify_unified readable operands ended _⟩
  | failed ended =>
      exact .failed fun {_ _ _} sol same => Heap.unify_clash readable operands ended sol same
  | unfinished ended =>
      exact .unfinished fun {_ _ _} hs {_} sol same =>
        Heap.unify_unfinished readable operands ended hs sol same

/-- An instruction that compares the next argument does so in both modes. -/
theorem Ready.compared {m : Machine} (ready : m.Ready) {v : Visit} {x : Register} {a : Address}
    {i : Instruction} (hv : m.cursor.visit? = some v) (compares : Code.Compares x v.mode i)
    (held : m.registers.held x = some a) (fuel : Nat) :
    m.Compared fuel v a (m.step fuel i) := by
  have t := step_transition ready.wellFormed ready.alive fuel i
  generalize m.step fuel i = effect at t
  generalize mode : v.mode = mode at compares
  have kept := t
  cases compares with
  | set =>
      cases t with
      | setValue copied => exact ready.compared_write hv mode held kept copied
  | unify =>
      cases t with
      | unifyValueIdle idle => simp [idle, Cursor.idle] at hv
      | unifyValueWrite hv' write copied =>
          rw [hv, Option.some.injEq] at hv'
          subst hv'
          exact ready.compared_write hv write held kept copied
      | unifyValueUnread _ _ unread =>
          rw [Registers.load_eq_ok_iff.mpr held] at unread
          cases unread
      | unifyValueRead hv' read held' unified =>
          rw [hv, Option.some.injEq] at hv'
          subst hv'
          rw [held, Option.some.injEq] at held'
          subst held'
          exact ready.compared_read hv read held kept unified

/-- What happens to arguments does not depend on how many instructions have been counted. -/
theorem Ready.note {m : Machine} (ready : m.Ready) {v : Visit} {x : Register} {i : Instruction}
    (hv : m.cursor.visit? = some v) (notes : Code.Notes x v.mode i) (lt : x < m.registers.count)
    (fuel : Nat) : ∃ m', m.counted.step fuel i = .done m' ∧ m.Noted v x m' := by
  obtain ⟨m', done, noted⟩ := ready.counted.noted hv notes lt fuel
  exact ⟨m', done, noted.ready, noted.registers, noted.cursor, noted.heap, noted.rooted,
    noted.solution_iff⟩

theorem Ready.compare {m : Machine} (ready : m.Ready) {v : Visit} {x : Register} {a : Address}
    {i : Instruction} (hv : m.cursor.visit? = some v) (compares : Code.Compares x v.mode i)
    (held : m.registers.held x = some a) (fuel : Nat) :
    m.Compared fuel v a (m.counted.step fuel i) := by
  have compared := ready.counted.compared hv compares held fuel
  generalize m.counted.step fuel i = effect at compared
  cases compared with
  | done e => exact .done ⟨e.ready, e.registers, e.cursor, e.heap, e.rooted, e.solution_iff⟩
  | failed unsolvable => exact .failed unsolvable
  | unfinished large => exact .unfinished large

end Machine

end TermMachine
