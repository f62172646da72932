import TermMachine.Proofs.Answer
import TermMachine.Proofs.Machine.Writes
import TermMachine.Proofs.Solving.Runs

/-! # Attempts that succeed

An attempt with an answer consists of two runs that both end well. Whatever the limits are, the two
runs would have ended in the same way without them, so what is known of runs without limits is known
of every attempt with an answer. Where the runs end well there is an answer: an address that has
been noted leads to a term to the end.
-/

namespace TermMachine

theorem Machine.exists_of_capture {m : Machine} {vars : List (String × Register)}
    {captured : List (String × Option Address)} (ok : m.capture vars = .ok captured)
    {pair : String × Option Address} (mem : pair ∈ captured) :
    ∃ x, (pair.1, x) ∈ vars ∧ m.register x = .ok pair.2 := by
  obtain ⟨⟨name, x⟩, listed, read⟩ := exists_of_collect ok mem
  dsimp only at read
  split at read
  · cases read
  · next slot found =>
      cases read
      exact ⟨x, listed, found⟩

theorem Machine.names_of_capture {m : Machine} {vars : List (String × Register)}
    {captured : List (String × Option Address)} (ok : m.capture vars = .ok captured) :
    captured.map Prod.fst = vars.map Prod.fst := by
  refine map_of_collect (fun pair captured read => ?_) ok
  dsimp only at read
  split at read
  · cases read
  · cases read
    rfl

theorem Machine.WellFormed.isTerm_of_capture {m : Machine} (wf : m.WellFormed)
    {vars : List (String × Register)} {captured : List (String × Option Address)}
    (ok : m.capture vars = .ok captured) {name : String} {a : Address}
    (mem : (name, some a) ∈ captured) : m.heap.IsTerm a := by
  obtain ⟨x, _, found⟩ := exists_of_capture ok mem
  exact wf.registers (register_eq_ok_iff.mp found)

namespace CompiledUnit

/-- The query is run on a new machine and leaves `built`, the program is run on that and leaves `m`.
Both runs end well, and what is found for the variables has been noted behind each of them. -/
structure Succeeds (u : CompiledUnit) (fuel : Nat) (limits : Limits) (built m : Machine)
    (queryVars programVars : List (String × Option Address)) : Prop where
  ran : (Machine.new u.registerCount limits).run fuel u.query.instructions = .ok built
  ofQuery : built.capture u.query.vars = .ok queryVars
  matched : built.run fuel u.program.instructions = .ok m
  succeeded : m.hasFailed = false
  ofProgram : m.capture u.program.vars = .ok programVars

variable {u : CompiledUnit} {fuel : Nat} {limits : Limits} {answer : Answer} {built m : Machine}
  {queryVars programVars : List (String × Option Address)}

namespace Succeeds

variable (succeeds : u.Succeeds fuel limits built m queryVars programVars)

include succeeds

theorem reached_built : Machine.Reachable u.registerCount limits built := by
  have start : Machine.Reachable u.registerCount limits (.new u.registerCount limits) := .new
  have reached := start.run fuel u.query.instructions
  rwa [succeeds.ran] at reached

theorem reached : Machine.Reachable u.registerCount limits m := by
  have reached := succeeds.reached_built.run fuel u.program.instructions
  rwa [succeeds.matched] at reached

theorem not_failed : m.status ≠ .failed := by
  simpa [Machine.hasFailed] using succeeds.succeeded

theorem heap : m.heap.WellFormed :=
  succeeds.reached_built.heap_of_run succeeds.matched succeeds.not_failed

theorem isTerm {name : String} {a : Address} (mem : (name, some a) ∈ queryVars ++ programVars) :
    m.heap.IsTerm a := by
  rcases List.mem_append.mp mem with mem | mem
  · have before := succeeds.reached_built.wellFormed.isTerm_of_capture succeeds.ofQuery mem
    have writes := succeeds.reached_built.writesIn_run fuel u.program.instructions
    rw [succeeds.matched] at writes
    exact writes.isTerm before
  · exact succeeds.reached.wellFormed.isTerm_of_capture succeeds.ofProgram mem

/-- What has been noted can be read back. -/
theorem exists_answer : ∃ answer,
    Answer.ofVariables m.heap (queryVars ++ programVars) = .ok answer :=
  Answer.exists_ofVariables succeeds.heap fun _ _ => succeeds.isTerm

/-- Without limits the two runs end in the same way. -/
theorem unlimited :
    (Machine.new u.registerCount .unlimited).run fuel u.query.instructions =
        .ok built.unlimited ∧
      built.unlimited.run fuel u.program.instructions = .ok m.unlimited := by
  constructor
  · have same := (Machine.obeys_new u.registerCount limits).run_granted
      (succeeds.ran ▸ Outcome.not_refused_ok built)
    rwa [succeeds.ran] at same
  · have same := succeeds.reached_built.obeys.run_granted
      (succeeds.matched ▸ Outcome.not_refused_ok m)
    rwa [succeeds.matched] at same

end Succeeds

/-- How an attempt can end: in a run, between the runs, or behind both of them with a yes. That an
answer cannot be read back is not among the ways. -/
inductive Ends (u : CompiledUnit) (fuel : Nat) (limits : Limits) : Attempt → Prop
  | queryError {e : MachineError} {m : Machine}
      (ran : (Machine.new u.registerCount limits).run fuel u.query.instructions = .error e m) :
      Ends u fuel limits ⟨none, m, .error (.query e)⟩
  | queryUnfinished {m : Machine}
      (ran : (Machine.new u.registerCount limits).run fuel u.query.instructions = .unfinished m) :
      Ends u fuel limits ⟨none, m, .error .unfinished⟩
  | queryUnread {built : Machine} {e : MachineError}
      (ran : (Machine.new u.registerCount limits).run fuel u.query.instructions = .ok built)
      (unread : built.capture u.query.vars = .error e) :
      Ends u fuel limits ⟨some built, built, .error (.queryVariables e)⟩
  | programError {built m : Machine} {e : MachineError}
      {queryVars : List (String × Option Address)}
      (ran : (Machine.new u.registerCount limits).run fuel u.query.instructions = .ok built)
      (ofQuery : built.capture u.query.vars = .ok queryVars)
      (matched : built.run fuel u.program.instructions = .error e m) :
      Ends u fuel limits ⟨some built, m, .error (.program e)⟩
  | programUnfinished {built m : Machine} {queryVars : List (String × Option Address)}
      (ran : (Machine.new u.registerCount limits).run fuel u.query.instructions = .ok built)
      (ofQuery : built.capture u.query.vars = .ok queryVars)
      (matched : built.run fuel u.program.instructions = .unfinished m) :
      Ends u fuel limits ⟨some built, m, .error .unfinished⟩
  | refused {built m : Machine} {queryVars : List (String × Option Address)}
      (ran : (Machine.new u.registerCount limits).run fuel u.query.instructions = .ok built)
      (ofQuery : built.capture u.query.vars = .ok queryVars)
      (matched : built.run fuel u.program.instructions = .ok m) (failed : m.hasFailed = true) :
      Ends u fuel limits ⟨some built, m, .ok none⟩
  | programUnread {built m : Machine} {e : MachineError}
      {queryVars : List (String × Option Address)}
      (ran : (Machine.new u.registerCount limits).run fuel u.query.instructions = .ok built)
      (ofQuery : built.capture u.query.vars = .ok queryVars)
      (matched : built.run fuel u.program.instructions = .ok m)
      (succeeded : m.hasFailed = false) (unread : m.capture u.program.vars = .error e) :
      Ends u fuel limits ⟨some built, m, .error (.programVariables e)⟩
  | answered {built m : Machine} {answer : Answer}
      {queryVars programVars : List (String × Option Address)}
      (succeeds : u.Succeeds fuel limits built m queryVars programVars)
      (made : Answer.ofVariables m.heap (queryVars ++ programVars) = .ok answer) :
      Ends u fuel limits ⟨some built, m, .ok (some answer)⟩

theorem solve_ends (u : CompiledUnit) (fuel : Nat) (limits : Limits) :
    u.Ends fuel limits (u.solve fuel limits) := by
  unfold solve
  cases ran : (Machine.new u.registerCount limits).run fuel u.query.instructions with
  | error e m => exact .queryError ran
  | unfinished m => exact .queryUnfinished ran
  | ok built =>
      unfold matchProgram
      dsimp only
      cases ofQuery : built.capture u.query.vars with
      | error e => exact .queryUnread ran ofQuery
      | ok queryVars =>
          dsimp only
          cases matched : built.run fuel u.program.instructions with
          | error e m => exact .programError ran ofQuery matched
          | unfinished m => exact .programUnfinished ran ofQuery matched
          | ok m =>
              dsimp only
              cases succeeded : m.hasFailed with
              | true => exact .refused ran ofQuery matched succeeded
              | false =>
                  cases ofProgram : m.capture u.program.vars with
                  | error e => exact .programUnread ran ofQuery matched succeeded ofProgram
                  | ok programVars =>
                      have succeeds : u.Succeeds fuel limits built m queryVars programVars :=
                        ⟨ran, ofQuery, matched, succeeded, ofProgram⟩
                      obtain ⟨answer, made⟩ := succeeds.exists_answer
                      simp only [made]
                      exact .answered succeeds made

/-- An attempt ends in one way only. -/
theorem Ends.solve_eq {attempt : Attempt} (ends : u.Ends fuel limits attempt) :
    u.solve fuel limits = attempt := by
  cases ends with
  | queryError ran => simp only [solve, ran]
  | queryUnfinished ran => simp only [solve, ran]
  | queryUnread ran unread => simp only [solve, ran, matchProgram, unread]
  | programError ran ofQuery matched => simp only [solve, ran, matchProgram, ofQuery, matched]
  | programUnfinished ran ofQuery matched =>
      simp only [solve, ran, matchProgram, ofQuery, matched]
  | refused ran ofQuery matched failed =>
      simp only [solve, ran, matchProgram, ofQuery, matched, failed, if_true]
  | programUnread ran ofQuery matched succeeded unread =>
      simp [solve, ran, matchProgram, ofQuery, matched, succeeded, unread]
  | answered succeeds made =>
      simp [solve, matchProgram, succeeds.ran, succeeds.ofQuery, succeeds.matched,
        succeeds.succeeded, succeeds.ofProgram, made]

theorem exists_succeeds (solved : (u.solve fuel limits).result = .ok (some answer)) :
    ∃ built m queryVars programVars, u.Succeeds fuel limits built m queryVars programVars ∧
      Answer.ofVariables m.heap (queryVars ++ programVars) = .ok answer ∧
      u.solve fuel limits = ⟨some built, m, .ok (some answer)⟩ := by
  have ends := u.solve_ends fuel limits
  generalize u.solve fuel limits = attempt at ends solved ⊢
  cases ends with
  | answered succeeds made =>
      cases solved
      exact ⟨_, _, _, _, succeeds, made, rfl⟩
  | _ => cases solved

end CompiledUnit

end TermMachine
