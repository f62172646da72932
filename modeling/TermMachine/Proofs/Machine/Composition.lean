import TermMachine.Proofs.Machine.Execution

/-! # Runs compose

A run begins with a new status and ends with a look at the cursor, so cutting code into two runs is
not for nothing. All the same `run_composes`: if the first of two runs ends well, the second one
goes on as if there had been no cut, and ends in the same way and with the same machine, be it in an
error or at a limit. A cut inside of a structure is what the first run ends badly for.
-/

namespace TermMachine

namespace Machine

variable {registerCount : Nat} {limits : Limits} {m m' : Machine} {fuel : Nat}

/-- As long as a run goes on it is running. -/
theorem WellFormed.running_of_advance (wf : m.WellFormed) (running : m.status = .running)
    {is : List Instruction} (done : m.advance fuel is = .done m') : m'.status = .running := by
  refine advance_keeps (P := fun m => m.status = .running) (fun _ same => same) ?_ wf
    (by simp [running]) running done
  exact fun _ _ _ _ _ _ t same => t.status.trans same

/-- Behind a run that has ended well a run goes on where it ended. -/
theorem EndsIn.run_append {is : List Instruction} (ends : m.EndsIn fuel is m')
    (wf : m.WellFormed) (js : List Instruction) : m.run fuel (is ++ js) = m'.run fuel js := by
  cases ends with
  | stays failed => rw [Machine.run, if_pos failed, Machine.run, if_pos failed]
  | @fails alive m₁ ran =>
      have stays : EndsIn fuel { m₁ with status := .failed } js _ := .stays rfl
      rw [run_eq_ok_iff.mpr stays]
      refine run_eq_ok_iff.mpr (.fails alive ?_)
      rw [advance_append, ran, Effect.bind]
  | @succeeds alive m₁ ran idle =>
      have running := (wf.of_status alive .running).running_of_advance rfl ran
      have resumed : ({ m₁ with status := .running } : Machine) = m₁ := by rw [← running]
      have alive₁ : ({ m₁ with status := .succeeded } : Machine).status ≠ .failed := by simp
      calc m.run fuel (is ++ js)
        _ = goOn fuel [] (m₁.advance fuel js) := by
          rw [run_of_alive alive, advance_append, ran, Effect.bind]
        _ = ({ m₁ with status := .succeeded } : Machine).run fuel js := by
          rw [run_of_alive alive₁]
          exact congrArg (fun m => goOn fuel [] (advance fuel m js)) resumed.symm

/-- In every state that runs can lead to, whatever the limits are: if instructions end well, running
more instructions behind them in one run is the same as running these in a second one. -/
theorem run_composes (reached : Reachable registerCount limits m) (fuel : Nat)
    (is js : List Instruction) (ran : m.run fuel is = .ok m') :
    m.run fuel (is ++ js) = m'.run fuel js :=
  (run_eq_ok_iff.mp ran).run_append reached.wellFormed js

/-- Three instructions are allowed, two are executed in the first run, and the second one of the
second run is refused. After a failed unification the second run executes nothing. -/
theorem run_composes_limited :
    let limited := new 2 ⟨none, some 3⟩
    let building : List Instruction := [.putStructure ⟨"f", 1⟩ 0, .setVariable 1]
    let matching : List Instruction := [.getStructure ⟨"f", 1⟩ 0, .unifyVariable 1]
    let clashing : List Instruction := [.putStructure ⟨"f", 0⟩ 0, .getStructure ⟨"g", 0⟩ 0]
    (∃ m, limited.run 0 building = .ok m ∧
      limited.run 0 (building ++ matching) = m.run 0 matching ∧
      ∃ m', m.run 0 matching = .error (.stepLimitExceeded 3) m') ∧
    ∃ m, limited.run 0 clashing = .ok m ∧ m.hasFailed = true ∧
      limited.run 0 (clashing ++ matching) = m.run 0 matching ∧ m.run 0 matching = .ok m := by
  intro limited building matching clashing
  have reached : Reachable 2 ⟨none, some 3⟩ limited := .new
  exact ⟨⟨_, rfl, run_composes reached 0 building matching rfl, _, rfl⟩,
    _, rfl, rfl, run_composes reached 0 clashing matching rfl, rfl⟩

end Machine

end TermMachine
