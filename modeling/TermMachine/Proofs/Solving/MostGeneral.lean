import TermMachine.Proofs.Compilation
import TermMachine.Proofs.Heap.Unfolding

/-! # Answers are most general

`solve_most_general`: if some replacement of variables makes a query and a program equal, and both
can be compiled, the query is answered, and the answer is a replacement from which all the others
come. What makes it so is that an unbound variable of the final heap always has the name of some
variable of the two terms. `solve_most_general_wide` shows that neither condition on the terms, no
application that is too wide and no bare atom, can be left out.
-/

namespace TermMachine

open Machine

namespace Machine

/-- Only the register of a variable leads to an unbound variable. -/
theorem Realizes.var_of_unbound {a : Allocation} {t : Term} (exact' : a.Exact t) {m m' : Machine}
    {known : Set Register} (realizes : Realizes a m known m') {h : Heap}
    (sol : m'.heap.Solution h.tree) {n : Node} (part : n ∈ a.root.preorder) {b c : Address}
    (held : m'.registers.held n.register = some b) (hu : h.Unbound b c) :
    ∃ x name, n = .var x name := by
  cases n with
  | constant x => exact absurd part (exact'.represents.not_constant x)
  | var x name => exact ⟨x, name, rfl⟩
  | compound x name args =>
      have node : m'.value h.tree x = _ := realizes.equations sol _ part
      rw [Node.register] at held
      rw [value_of_held held, hu.tree] at node
      exact absurd node Tree.leaf_ne_branch

variable {query program : Term} {m m' : Machine} {root : Address}

def foundAll (query program : Term) (m m' : Machine) : List (String × Option Address) :=
  found (Allocation.ofTerm query) query m ++ found (Allocation.ofTerm program) program m'

theorem Posed.rooted (posed : Posed query program m root)
    (matched : Realizes (Allocation.ofTerm program) m {0} m') :
    m'.heap.Rooted {b | ∃ name, (name, some b) ∈ foundAll query program m m'} := by
  intro c cell
  have wf := matched.ready.heap matched.idle
  have sol := wf.solution_tree
  obtain ⟨b, mem, ends⟩ := matched.rooted (posed.built.rooted (rooted_new _)) c cell
  refine ⟨b, ?_, ends⟩
  rcases mem with (⟨⟨⟩⟩ | ⟨n, part, held⟩) | ⟨n, part, held⟩
  · obtain ⟨x, name, rfl⟩ := posed.built.var_of_unbound posed.exactQuery (matched.sound sol) part
      held ⟨ends, cell⟩
    exact ⟨name, List.mem_append_left _ ((mem_found_iff posed.exactQuery).mpr ⟨x, part, held⟩)⟩
  · obtain ⟨x, name, rfl⟩ := matched.var_of_unbound posed.exactProgram sol part held ⟨ends, cell⟩
    exact ⟨name, List.mem_append_right _ ((mem_found_iff posed.exactProgram).mpr ⟨x, part, held⟩)⟩

/-- Every replacement that makes the terms equal is a solution of the final heap. -/
theorem Posed.exists_solution (posed : Posed query program m root)
    (matched : Realizes (Allocation.ofTerm program) m {0} m') {t : String → Term}
    (unifies : Term.Unifies t query program) :
    ∃ ψ : Address → Term, m'.heap.Solution ψ ∧
      ∀ name b, (name, some b) ∈ foundAll query program m m' → t name = ψ b := by
  obtain ⟨σ, ρ, sol, here, holds, vars, vars'⟩ :=
    posed.exists_common (Term.unifies_iff.mp unifies)
  obtain ⟨ψ, same, solution, values⟩ := matched.complete (posed.reads sol here) holds
  refine ⟨ψ, solution, fun name b mem => ?_⟩
  rcases List.mem_append.mp mem with mem | mem
  · obtain ⟨x, part, held⟩ := (mem_found_iff posed.exactQuery).mp mem
    have lt : b < m.heap.top := (posed.built.ready.wellFormed.registers held).lt_top
    rw [same b lt, ← vars x name part, value_of_held held]
  · obtain ⟨x, part, held⟩ := (mem_found_iff posed.exactProgram).mp mem
    have value := values _ part
    rw [Node.register, value_of_held held] at value
    rw [← vars' x name part, value]

theorem Posed.isTerm_of_found (posed : Posed query program m root)
    (matched : Realizes (Allocation.ofTerm program) m {0} m') {name : String} {b : Address}
    (mem : (name, some b) ∈ foundAll query program m m') : m'.heap.IsTerm b := by
  rcases List.mem_append.mp mem with mem | mem
  · obtain ⟨x, part, held⟩ := (mem_found_iff posed.exactQuery).mp mem
    exact matched.heap.isTerm (posed.built.ready.wellFormed.registers held)
  · obtain ⟨x, part, held⟩ := (mem_found_iff posed.exactProgram).mp mem
    exact matched.ready.wellFormed.registers held

theorem Posed.exists_found (posed : Posed query program m root)
    (matched : Realizes (Allocation.ofTerm program) m {0} m') {name : String}
    (occurs : name ∈ query.vars ++ program.vars) :
    ∃ b, (name, some b) ∈ foundAll query program m m' := by
  rcases List.mem_append.mp occurs with occurs | occurs
  · obtain ⟨b, mem⟩ := posed.built.exists_found posed.exactQuery occurs
    exact ⟨b, List.mem_append_left _ mem⟩
  · obtain ⟨b, mem⟩ := matched.exists_found posed.exactProgram occurs
    exact ⟨b, List.mem_append_right _ mem⟩

theorem Posed.nodup_foundAll (posed : Posed query program m root)
    (disjoint : query.vars.Disjoint program.vars) (m' : Machine) :
    ((foundAll query program m m').map Prod.fst).Nodup := by
  rw [foundAll, List.map_append, names_found posed.exactQuery, names_found posed.exactProgram]
  exact (nodup_eraseDups _).append (nodup_eraseDups _) disjoint

/-- What a solution of the final heap says of the variables makes the terms equal. -/
theorem Posed.unifies (posed : Posed query program m root)
    (matched : Realizes (Allocation.ofTerm program) m {0} m') {σ : Address → Term}
    (sol : m'.heap.Solution σ) {s : String → Term}
    (values : ∀ name b, (name, some b) ∈ foundAll query program m m' → s name = σ b) :
    Term.Unifies s query program := by
  have valueQuery := posed.built.eval_found posed.exactQuery (matched.sound sol)
    fun name b mem => values name b (List.mem_append_left _ mem)
  have valueProgram := matched.eval_found posed.exactProgram sol
    fun name b mem => values name b (List.mem_append_right _ mem)
  rw [Term.unifies_iff, ← valueQuery, ← valueProgram, value_of_held posed.root,
    value_of_held ((matched.keeps 0 rfl).trans posed.root)]

theorem Posed.exists_answer (posed : Posed query program m root)
    (matched : Realizes (Allocation.ofTerm program) m {0} m')
    (disjoint : query.vars.Disjoint program.vars) (unifiable : ∃ t, Term.Unifies t query program) :
    ∃ answer, Answer.ofVariables m'.heap (foundAll query program m m') = .ok answer ∧
      Term.MostGeneral answer.substitution query program := by
  have wf := matched.ready.heap matched.idle
  obtain ⟨t, unifies⟩ := unifiable
  obtain ⟨σ, sol, _⟩ := posed.exists_solution matched unifies
  obtain ⟨answer, names, made, values, general⟩ := Answer.exists_answer wf sol
    (posed.nodup_foundAll disjoint m') (fun name b => posed.isTerm_of_found matched)
    (posed.rooted matched)
  have solR : m'.heap.Solution (m'.heap.reified names) := wf.solution_reified sol
  refine ⟨answer, made, posed.unifies matched solR values, fun t unifies name occurs => ?_⟩
  obtain ⟨ψ, solution, same⟩ := posed.exists_solution matched unifies
  obtain ⟨b, mem⟩ := posed.exists_found matched occurs
  rw [values name b mem, same name b mem]
  exact wf.subst_reified solution (general ψ t solution same) (posed.isTerm_of_found matched mem)

theorem Posed.solve_eq (posed : Posed query program m root) (fuel : Nat) :
    (CompiledUnit.ofTerms query program).solve fuel .unlimited =
      (CompiledUnit.ofTerms query program).matchProgram fuel { m with status := .succeeded } := by
  rw [CompiledUnit.solve, posed.run fuel]

theorem Posed.captured (posed : Posed query program m root) :
    ({ m with status := .succeeded } : Machine).capture
      (CompiledUnit.ofTerms query program).query.vars =
        .ok (found (Allocation.ofTerm query) query m) :=
  posed.built.capture posed.exactQuery

/-- If the program has been matched, the result is the answer for the final heap. -/
theorem Posed.solve_done (posed : Posed query program m root)
    (matched : Realizes (Allocation.ofTerm program) m {0} m') {fuel : Nat}
    (ran : m.advance fuel (CompiledUnit.ofTerms query program).program.instructions = .done m')
    {answer : Answer}
    (made : Answer.ofVariables m'.heap (foundAll query program m m') = .ok answer) :
    ((CompiledUnit.ofTerms query program).solve fuel .unlimited).result = .ok (some answer) ∧
      ((CompiledUnit.ofTerms query program).solve fuel .unlimited).machine.hasFailed = false := by
  have captured' : ({ m' with status := .succeeded } : Machine).capture
      (CompiledUnit.ofTerms query program).program.vars = .ok (found _ program m') :=
    matched.capture posed.exactProgram
  have run := posed.built.ready.run_succeeded fuel
    (CompiledUnit.ofTerms query program).program.instructions
  rw [ran, goOn_done matched.idle] at run
  have succeeded : ({ m' with status := .succeeded } : Machine).hasFailed = false := rfl
  rw [foundAll] at made
  rw [posed.solve_eq]
  simp only [CompiledUnit.matchProgram, posed.captured, run, succeeded, captured', made,
    Bool.false_eq_true, if_false, and_self]

theorem Posed.solve_unfinished (posed : Posed query program m root) {fuel : Nat}
    (ran : m.advance fuel (CompiledUnit.ofTerms query program).program.instructions =
      .unfinished m') :
    ((CompiledUnit.ofTerms query program).solve fuel .unlimited).result = .error .unfinished := by
  have run := posed.built.ready.run_succeeded fuel
    (CompiledUnit.ofTerms query program).program.instructions
  rw [ran] at run
  rw [posed.solve_eq]
  simp only [CompiledUnit.matchProgram, posed.captured, run, goOn]

/-- However much work is allowed, a query that has an answer gets it or is given up. -/
theorem Posed.solve_cases (posed : Posed query program m root)
    (disjoint : query.vars.Disjoint program.vars) (unifiable : ∃ t, Term.Unifies t query program) :
    ∃ enough, ∀ fuel, let attempt := (CompiledUnit.ofTerms query program).solve fuel .unlimited
      (∃ answer, attempt.result = .ok (some answer) ∧ attempt.machine.hasFailed = false ∧
        Term.MostGeneral answer.substitution query program) ∨
      fuel < enough ∧ attempt.result = .error .unfinished := by
  obtain ⟨t, unifies⟩ := unifiable
  obtain ⟨σ, ρ, sol, here, holds, _⟩ := posed.exists_common (Term.unifies_iff.mp unifies)
  obtain ⟨enough, large⟩ := exists_bound (fun y => Term.size (ρ y)) m.registers.count
  refine ⟨enough, fun fuel => ?_⟩
  have leads := posed.lead fuel
  generalize ran : m.advance fuel (CompiledUnit.ofTerms query program).program.instructions =
    effect at leads
  cases leads with
  | @done m' matched =>
      obtain ⟨answer, made, general⟩ := posed.exists_answer matched disjoint ⟨t, unifies⟩
      obtain ⟨result, succeeded⟩ := posed.solve_done matched ran made
      exact .inl ⟨answer, result, succeeded, general⟩
  | @failed m' unsolvable => exact absurd ⟨σ, sol, here, holds⟩ (@unsolvable _ _ ρ)
  | @unfinished m' unbounded =>
      obtain ⟨y, lt, more⟩ := unbounded Term.isSize ⟨σ, sol, here, holds⟩
      exact .inr ⟨Nat.lt_of_lt_of_le more (large y lt), posed.solve_unfinished ran⟩

end Machine

/-- A query and a program compile if none of their applications is too wide, and only then. If they
share no variable and can be made equal, the answer is yes, with a most general replacement, from
some amount of work on, and never no. -/
theorem solve_most_general (f g : String) (ss ts : List Term) :
    let query : Term := .compound f ss
    let program : Term := .compound g ts
    ((∃ u, CompiledUnit.compile query program = .ok u) ↔ query.Fits ∧ program.Fits) ∧
      (query.Fits → program.Fits → query.vars.Disjoint program.vars →
        (∃ t, Term.Unifies t query program) →
          ∃ u, CompiledUnit.compile query program = .ok u ∧
            (∃ enough, ∀ fuel ≥ enough, ∃ answer,
              (u.solve fuel .unlimited).result = .ok (some answer) ∧
              (u.solve fuel .unlimited).machine.hasFailed = false ∧
              Term.MostGeneral answer.substitution query program) ∧
            ∀ fuel, (u.solve fuel .unlimited).result ≠ .ok none) := by
  intro query program
  constructor
  · simp [CompiledUnit.compile_eq_ok_iff]
  · intro fits fits' disjoint unifiable
    obtain ⟨m, root, posed⟩ := exists_posed f g ss ts
    obtain ⟨enough, cases'⟩ := posed.solve_cases disjoint unifiable
    refine ⟨.ofTerms query program, CompiledUnit.compile_eq_ok_iff.mpr ⟨fits, fits', rfl⟩,
      ⟨enough, fun fuel le => ?_⟩, fun fuel refused => ?_⟩
    · rcases cases' fuel with answered | ⟨lt, _⟩
      · exact answered
      · exact absurd le (Nat.not_le.mpr lt)
    · rcases cases' fuel with ⟨answer, result, _⟩ | ⟨_, result⟩
      · exact nomatch result.symm.trans refused
      · exact nomatch result.symm.trans refused

/-- `p(Z, h(Z, W), f(W))` and `p(f(X), h(Y, f(a)), Y)`. -/
theorem solve_most_general_shared :
    let query : Term := .compound "p" [.var "Z", .compound "h" [.var "Z", .var "W"],
      .compound "f" [.var "W"]]
    let program : Term := .compound "p" [.compound "f" [.var "X"],
      .compound "h" [.var "Y", .compound "f" [.atom "a"]], .var "Y"]
    ∃ u, CompiledUnit.compile query program = .ok u ∧ ∃ enough, ∀ fuel ≥ enough, ∃ answer,
      (u.solve fuel .unlimited).result = .ok (some answer) ∧
        Term.Unifies answer.substitution query program := by
  intro query program
  have unifiable : ∃ t, Term.Unifies t query program := by
    refine ⟨fun name => if name = "W" ∨ name = "X" then .compound "f" [.atom "a"]
      else .compound "f" [.compound "f" [.atom "a"]], ?_⟩
    rfl
  have fits : query.Fits := Term.tooWide?_eq_none_iff.mp (by decide)
  have fits' : program.Fits := Term.tooWide?_eq_none_iff.mp (by decide)
  have disjoint : query.vars.Disjoint program.vars := List.disjoint_left.mpr (by decide)
  obtain ⟨_, all⟩ := solve_most_general "p" "p" _ _
  obtain ⟨u, compiled, ⟨enough, answered⟩, _⟩ := all fits fits' disjoint unifiable
  refine ⟨u, compiled, enough, fun fuel le => ?_⟩
  obtain ⟨answer, result, _, general⟩ := answered fuel le
  exact ⟨answer, result, general.unifies⟩

/-- However many atoms an application has for arguments, it is equal to itself and shares no
variable with itself, but from some number on it is not compiled. -/
theorem compile_replicate (f a : String) {n : Nat} (large : arityBound ≤ n) :
    let wide : Term := .compound f (List.replicate n (.atom a))
    wide.vars.Disjoint wide.vars ∧ (∃ t, Term.Unifies t wide wide) ∧
      CompiledUnit.compile wide wide = .error (.invalidTerm f n) := by
  intro wide
  have none : wide.vars = [] := by
    have occurs : wide.occurrences = [] := by
      simp [wide, TermOf.occurrences, Term.occurrencesAll_eq_flatMap]
    rw [TermOf.vars, occurs]
    rfl
  have length : (List.replicate n (.atom a : Term)).length = n := List.length_replicate
  have refused (code : Allocation → List Instruction) :
      CompiledTerm.checked code wide = .error (.invalidTerm f n) := by
    rw [CompiledTerm.checked_of_wide f (large.trans length.ge), length]
  refine ⟨?_, ⟨.var, rfl⟩, ?_⟩
  · rw [none]
    exact List.disjoint_nil_left []
  · simp only [CompiledUnit.compile, CompiledTerm.compileQuery, refused]

/-- The application of `f` to 2 ^ 32 atoms could be made equal to itself, but is not compiled. The
query `a` could be made equal to the program `a()`, but for a bare atom nothing is built, so there
is nothing that the program can be matched against. -/
theorem solve_most_general_wide :
    let wide : Term := .compound "f" (List.replicate (2 ^ 32) (.atom "a"))
    let bare : Term := .atom "a"
    let applied : Term := .compound "a" []
    (wide.vars.Disjoint wide.vars ∧ (∃ t, Term.Unifies t wide wide) ∧
        CompiledUnit.compile wide wide = .error (.invalidTerm "f" (2 ^ 32))) ∧
      bare.vars.Disjoint applied.vars ∧ (∃ t, Term.Unifies t bare applied) ∧
        ∃ u, CompiledUnit.compile bare applied = .ok u ∧ ∀ fuel,
          (u.solve fuel .unlimited).result = .error (.program (.register (.noValue 0))) := by
  intro wide bare applied
  have large : arityBound ≤ 2 ^ 32 := le_rfl
  refine ⟨compile_replicate "f" "a" large, List.disjoint_nil_left _, ⟨.var, rfl⟩,
    .ofTerms bare applied, ?_, fun fuel => rfl⟩
  exact CompiledUnit.compile_eq_ok_iff.mpr
    ⟨Term.tooWide?_eq_none_iff.mp (by decide), Term.tooWide?_eq_none_iff.mp (by decide), rfl⟩

end TermMachine
