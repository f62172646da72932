import TermMachine.Proofs.Solving.Contract
import TermMachine.Proofs.Solving.Exact
import TermMachine.Proofs.Solving.MostGeneral

/-! # Query and program can change places

A query is built and a program is matched, by different code, and which of two variables is bound
to the other depends on which of them has been built first. All the same `saysYes_comm`: the answer
is yes for a query and a program exactly if it is yes for the two the other way round.

Neither run is compared with the other. Each of them decides whether the two terms have a common
instance among finite and infinite trees, `Posed.decides`, and that has no direction.
-/

namespace TermMachine

open Machine

/-- By some finite or infinite trees for their variables, which do not know of each other, the two
terms are the same tree. -/
def Term.HaveInstance (s t : Term) : Prop :=
  ∃ (α : Type) (θ ψ : String → Tree α), Term.eval θ s = Term.eval ψ t

theorem Term.HaveInstance.symm {s t : Term} (common : Term.HaveInstance s t) :
    Term.HaveInstance t s := by
  obtain ⟨α, θ, ψ, same⟩ := common
  exact ⟨α, ψ, θ, same.symm⟩

namespace Machine

variable {query program : Term} {m m' : Machine} {root : Address}

theorem Posed.solve_failed (posed : Posed query program m root) {fuel : Nat}
    (ran : m.advance fuel (CompiledUnit.ofTerms query program).program.instructions =
      .failed m') :
    ((CompiledUnit.ofTerms query program).solve fuel .unlimited).result = .ok none := by
  have run := posed.built.ready.run_succeeded fuel
    (CompiledUnit.ofTerms query program).program.instructions
  rw [ran] at run
  have failed : ({ m' with status := .failed } : Machine).hasFailed = true := rfl
  rw [posed.solve_eq]
  simp only [CompiledUnit.matchProgram, posed.captured, run, goOn, failed, if_true]

theorem Posed.haveInstance (posed : Posed query program m root)
    (matched : Realizes (Allocation.ofTerm program) m {0} m') :
    Term.HaveInstance query program := by
  have wf := matched.ready.heap matched.idle
  have ofQuery := posed.built.instance posed.exactQuery (matched.sound wf.solution_tree)
  have ofProgram := matched.instance posed.exactProgram wf.solution_tree
  rw [value_of_held posed.root] at ofQuery
  rw [value_of_held ((matched.keeps 0 rfl).trans posed.root)] at ofProgram
  exact ⟨Address, _, _, ofQuery.symm.trans ofProgram⟩

/-- An attempt has an answer if the terms have a common instance and is refused if they have none,
unless it is given up. -/
theorem Posed.decides (posed : Posed query program m root) (fuel : Nat) :
    let result := ((CompiledUnit.ofTerms query program).solve fuel .unlimited).result
    (Term.HaveInstance query program ∧
      ∃ m' answer, Answer.ofVariables m'.heap (foundAll query program m m') = .ok answer ∧
        result = .ok (some answer)) ∨
      (¬Term.HaveInstance query program ∧ result = .ok none) ∨
      (∃ m', m.advance fuel (CompiledUnit.ofTerms query program).program.instructions =
        .unfinished m') ∧ result = .error .unfinished := by
  intro result
  have leads := posed.lead fuel
  generalize ran : m.advance fuel (CompiledUnit.ofTerms query program).program.instructions =
    effect at leads
  cases leads with
  | @done m' matched =>
      have wf := matched.ready.heap matched.idle
      obtain ⟨answer, made⟩ := Answer.exists_ofVariables wf
        fun name b mem => posed.isTerm_of_found matched mem
      exact .inl ⟨posed.haveInstance matched, m', answer, made,
        (posed.solve_done matched ran made).1⟩
  | @failed m' unsolvable =>
      refine .inr (.inl ⟨?_, posed.solve_failed ran⟩)
      rintro ⟨α, θ, ψ, same⟩
      obtain ⟨σ, ρ, sol, here, holds, _⟩ := posed.exists_common same
      exact @unsolvable _ _ ρ ⟨σ, sol, here, holds⟩
  | @unfinished m' _ => exact .inr (.inr ⟨⟨m', rfl⟩, posed.solve_unfinished ran⟩)

end Machine

/-! ## Yes and no -/

namespace Term

/-- The query and the program can be compiled, and running them without limits gives an answer. -/
def SaysYes (fuel : Nat) (query program : Term) : Prop :=
  ∃ u answer, CompiledUnit.compile query program = .ok u ∧
    (u.solve fuel .unlimited).result = .ok (some answer)

/-- Running the query and the program without limits comes to an end, if they can be compiled. -/
def Returns (fuel : Nat) (query program : Term) : Prop :=
  ∀ u, CompiledUnit.compile query program = .ok u →
    (u.solve fuel .unlimited).result ≠ .error .unfinished

variable {query program : Term}

/-- Applications are answered with yes exactly if they have a common instance. -/
theorem saysYes_iff (callable : query.isCallable = true) (callable' : program.isCallable = true)
    {fuel : Nat} (returns : Returns fuel query program) :
    SaysYes fuel query program ↔ query.Fits ∧ program.Fits ∧ HaveInstance query program := by
  cases query with
  | atom name => cases callable
  | number value => cases callable
  | var name => cases callable
  | compound f ss =>
      cases program with
      | atom name => cases callable'
      | number value => cases callable'
      | var name => cases callable'
      | compound g ts =>
          obtain ⟨m, root, posed⟩ := exists_posed f g ss ts
          have decides := posed.decides fuel
          constructor
          · rintro ⟨u, answer, compiled, result⟩
            obtain ⟨fits, fits', rfl⟩ := CompiledUnit.compile_eq_ok_iff.mp compiled
            rcases decides with ⟨common, _⟩ | ⟨_, refused⟩ | ⟨_, unfinished⟩
            · exact ⟨fits, fits', common⟩
            · exact nomatch result.symm.trans refused
            · exact nomatch result.symm.trans unfinished
          · rintro ⟨fits, fits', common⟩
            have compiled := CompiledUnit.compile_eq_ok_iff.mpr ⟨fits, fits', rfl⟩
            rcases decides with ⟨_, _, answer, _, result⟩ | ⟨none, _⟩ | ⟨_, unfinished⟩
            · exact ⟨_, answer, compiled, result⟩
            · exact absurd common none
            · exact absurd unfinished (returns _ compiled)

/-- Whether the answer is yes does not depend on which of two applications is the query. -/
theorem saysYes_comm (query program : Term) (callable : query.isCallable = true)
    (callable' : program.isCallable = true) (fuel fuel' : Nat)
    (returns : Returns fuel query program) (returns' : Returns fuel' program query) :
    SaysYes fuel query program ↔ SaysYes fuel' program query := by
  rw [saysYes_iff callable callable' returns, saysYes_iff callable' callable returns']
  constructor
  · rintro ⟨fits, fits', common⟩
    exact ⟨fits', fits, common.symm⟩
  · rintro ⟨fits', fits, common⟩
    exact ⟨fits, fits', common.symm⟩

/-- The one time `p(X, f(X))` is built and `p(Y, Y)` is matched, the other time it is the other way
round. Both times a variable is bound to a structure that it occurs in. -/
theorem saysYes_comm_cyclic :
    let query : Term := .compound "p" [.var "X", .compound "f" [.var "X"]]
    let program : Term := .compound "p" [.var "Y", .var "Y"]
    Returns 3 query program ∧ Returns 3 program query ∧
      SaysYes 3 query program ∧ SaysYes 3 program query := by
  intro query program
  have fits : query.Fits := tooWide?_eq_none_iff.mp (by decide)
  have fits' : program.Fits := tooWide?_eq_none_iff.mp (by decide)
  have result : ((CompiledUnit.ofTerms query program).solve 3 .unlimited).result =
      .ok (some ⟨[("X", .compound "f" [.var "X"]), ("Y", .compound "f" [.var "X"])]⟩) := by
    decide +kernel
  have result' : ((CompiledUnit.ofTerms program query).solve 3 .unlimited).result =
      .ok (some ⟨[("Y", .compound "f" [.var "Y"]), ("X", .compound "f" [.var "Y"])]⟩) := by
    decide +kernel
  have returns : Returns 3 query program := by
    intro u compiled
    obtain ⟨_, _, rfl⟩ := CompiledUnit.compile_eq_ok_iff.mp compiled
    simp [result]
  have returns' : Returns 3 program query := by
    intro u compiled
    obtain ⟨_, _, rfl⟩ := CompiledUnit.compile_eq_ok_iff.mp compiled
    simp [result']
  have yes : SaysYes 3 query program :=
    ⟨_, _, CompiledUnit.compile_eq_ok_iff.mpr ⟨fits, fits', rfl⟩, result⟩
  exact ⟨returns, returns', yes, (saysYes_comm query program rfl rfl 3 3 returns returns').mp yes⟩

end Term

end TermMachine
