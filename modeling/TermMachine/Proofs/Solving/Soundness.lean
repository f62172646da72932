import TermMachine.Proofs.Heap.Acyclic
import TermMachine.Proofs.Solving.Attempt
import TermMachine.Proofs.Solving.Contract
import TermMachine.Proofs.Solving.Matching
import TermMachine.Proofs.Solving.MostGeneral

/-! # What an answer promises

If no structure contains itself at the end, an answer can be put in place of the variables.
`answer_unifies_iff` says when this makes the query and the program equal. It does so whenever the
two have been compared, that is, an application has been built for the query and the program is an
application too, or a variable. A constant and a query that is no application have no code: nothing
is compared, the answer is yes, and the terms are equal only if they have been so before.
-/

namespace TermMachine

open Machine

namespace Machine

/-- Without code nothing happens. -/
theorem run_nil {m m' : Machine} {fuel : Nat} (ran : m.run fuel [] = .ok m') :
    m'.registers = m.registers ∧ m'.heap = m.heap := by
  cases run_eq_ok_iff.mp ran with
  | stays _ => exact ⟨rfl, rfl⟩
  | fails _ failed => cases failed
  | succeeds _ done _ =>
      cases done
      exact ⟨rfl, rfl⟩

theorem unwritten_of_capture {m : Machine} (unwritten : ∀ x, m.registers.held x = none)
    {vars : List (String × Register)} {captured : List (String × Option Address)}
    (ok : m.capture vars = .ok captured) : ∀ pair ∈ captured, pair.2 = none := by
  intro pair mem
  obtain ⟨x, _, found⟩ := exists_of_capture ok mem
  cases slot : pair.2 with
  | none => rfl
  | some a =>
      rw [slot] at found
      exact nomatch (unwritten x).symm.trans (register_eq_ok_iff.mp found)

theorem Posed.realizes_of_run {query program : Term} {m m' : Machine} {root : Address}
    (posed : Posed query program m root) {fuel : Nat}
    (ran : ({ m with status := .succeeded } : Machine).run fuel
      (CompiledUnit.ofTerms query program).program.instructions = .ok m')
    (alive : m'.status ≠ .failed) :
    Realizes (Allocation.ofTerm program) m {0} { m' with status := .running } := by
  rw [posed.built.ready.run_succeeded] at ran
  have leads := posed.lead fuel
  generalize m.advance fuel (CompiledUnit.ofTerms query program).program.instructions = effect
    at leads ran
  cases leads with
  | @done m₁ matched =>
      rw [goOn_done matched.idle] at ran
      cases ran
      have running : m₁.status = .running := matched.ready.running
      rwa [← running]
  | failed _ =>
      cases ran
      exact absurd rfl alive
  | unfinished _ => cases ran

end Machine

namespace Answer

/-- Variables that nothing was found for stand for themselves. -/
theorem substitution_of_unwritten {h : Heap} {vars : List (String × Option Address)}
    {answer : Answer} (made : ofVariables h vars = .ok answer)
    (unwritten : ∀ pair ∈ vars, pair.2 = none) : answer.substitution = .var := by
  have values (names : Naming) : collect (value h names) (firstOfEach vars) =
      .ok ((firstOfEach vars).map fun pair => (pair.1, .var pair.1)) := by
    refine collect_eq_ok_iff.mpr ?_
    rw [List.map_map]
    refine List.map_congr_left fun pair mem => ?_
    obtain ⟨name, slot⟩ := pair
    obtain rfl : slot = none := unwritten _ (mem_of_mem_firstOfEach mem)
    rfl
  unfold ofVariables at made
  simp only [values] at made
  split at made
  · cases made
  · cases made
    funext name
    rw [substitution, lookup_map]
    cases (firstOfEach vars).lookup name with
    | none => rfl
    | some slot => rfl

end Answer

namespace CompiledUnit.Succeeds

variable {query program : Term} {fuel : Nat} {limits : Limits} {answer : Answer}
  {built m : Machine} {queryVars programVars : List (String × Option Address)}

theorem nodup
    (succeeds : (ofTerms query program).Succeeds fuel limits built m queryVars programVars)
    (disjoint : query.vars.Disjoint program.vars) :
    ((queryVars ++ programVars).map Prod.fst).Nodup := by
  have ofQuery : queryVars.map Prod.fst = query.vars :=
    (names_of_capture succeeds.ofQuery).trans (CompiledTerm.names_vars query)
  have ofProgram : programVars.map Prod.fst = program.vars :=
    (names_of_capture succeeds.ofProgram).trans (CompiledTerm.names_vars program)
  rw [List.map_append, ofQuery, ofProgram]
  exact (nodup_eraseDups _).append (nodup_eraseDups _) disjoint

/-- Without cycles the answer gives to each variable what some solution has at its address. -/
theorem exists_solution
    (succeeds : (ofTerms query program).Succeeds fuel limits built m queryVars programVars)
    (made : Answer.ofVariables m.heap (queryVars ++ programVars) = .ok answer)
    (disjoint : query.vars.Disjoint program.vars) (acyclic : m.heap.Acyclic) :
    ∃ σ : Address → Term, m.heap.Solution σ ∧
      ∀ name b, (name, some b) ∈ queryVars ++ programVars → answer.substitution name = σ b := by
  have wf := succeeds.heap
  obtain ⟨σ, sol, _⟩ := acyclic.exists_solution wf.readable fun _ => .atom ""
  obtain ⟨answer', names, made', _, values⟩ := Answer.exists_values wf sol
    (succeeds.nodup disjoint) fun name b => succeeds.isTerm
  obtain rfl : answer' = answer := Except.ok.inj (made'.symm.trans made)
  exact ⟨m.heap.reified names, wf.solution_reified sol, values⟩

/-- Two applications have been compared. -/
theorem unifies_application {f g : String} {ss ts : List Term}
    (succeeds : (ofTerms (.compound f ss) (.compound g ts)).Succeeds fuel limits built m queryVars
      programVars) {σ : Address → Term} (sol : m.heap.Solution σ) {s : String → Term}
    (values : ∀ name b, (name, some b) ∈ queryVars ++ programVars → s name = σ b) :
    Term.Unifies s (.compound f ss) (.compound g ts) := by
  obtain ⟨m₀, root, posed⟩ := exists_posed f g ss ts
  obtain ⟨ran, matched⟩ := succeeds.unlimited
  have same : built.unlimited = { m₀ with status := .succeeded } :=
    Outcome.ok.inj (ran.symm.trans (posed.run fuel))
  have captured := posed.captured
  rw [← same] at captured
  rw [same] at matched
  have realizes := posed.realizes_of_run matched succeeds.not_failed
  have ofQuery := Except.ok.inj (succeeds.ofQuery.symm.trans captured)
  have ofProgram := Except.ok.inj
    (succeeds.ofProgram.symm.trans (realizes.capture posed.exactProgram))
  refine posed.unifies realizes sol fun name b mem => values name b ?_
  rw [ofQuery, ofProgram]
  exact mem

/-- A program that is a variable stands for what the query has built. -/
theorem unifies_variable {f name : String} {ss : List Term}
    (succeeds : (ofTerms (.compound f ss) (.var name)).Succeeds fuel limits built m queryVars
      programVars) {σ : Address → Term} (sol : m.heap.Solution σ) {s : String → Term}
    (values : ∀ name b, (name, some b) ∈ queryVars ++ programVars → s name = σ b) :
    Term.Unifies s (.compound f ss) (.var name) := by
  have exact' := Allocation.exact_ofTerm f ss
  obtain ⟨m₀, root, realizes, held, run⟩ := exists_built f ss (Nat.le_max_left _
    (CompiledTerm.program (.var name)).registerCount)
  have same : built.unlimited = { m₀ with status := .succeeded } :=
    Outcome.ok.inj (succeeds.unlimited.1.symm.trans (run fuel))
  have captured : built.unlimited.capture (ofTerms (.compound f ss) (.var name)).query.vars =
      .ok (found (Allocation.ofTerm (.compound f ss)) (.compound f ss) m₀) := by
    rw [same]
    exact realizes.capture exact'
  have ofQuery := Except.ok.inj (succeeds.ofQuery.symm.trans captured)
  obtain ⟨registers, heap⟩ := run_nil succeeds.matched
  have atRoot : m.registers.held 0 = some root := by
    have kept : built.unlimited.registers = m₀.registers := by rw [same]
    rw [registers]
    exact (congrArg (·.held 0) kept).trans held
  have ofProgram : programVars = [(name, some root)] := by
    have noted : m.capture (ofTerms (.compound f ss) (.var name)).program.vars =
        .ok [(name, some root)] := by
      show m.capture (CompiledTerm.variablesOf (.var name) _) = _
      rw [CompiledTerm.variablesOf_var, capture_eq (by simp [atRoot])]
      simp [atRoot]
    exact Except.ok.inj (succeeds.ofProgram.symm.trans noted)
  have before : m₀.heap.Solution σ := by
    have kept : built.unlimited.heap = m₀.heap := by rw [same]
    rw [heap] at sol
    rw [← kept]
    exact sol
  have whole := realizes.eval_found exact' before fun name b mem =>
    values name b (List.mem_append_left _ (ofQuery ▸ mem))
  rw [value_of_held held, ← values name root (by simp [ofProgram])] at whole
  exact Term.unifies_iff.mpr whole.symm

/-- A query that is no application writes no register. -/
theorem unwritten_built
    (succeeds : (ofTerms query program).Succeeds fuel limits built m queryVars programVars)
    (bare : query.isCallable = false) (x : Register) : built.registers.held x = none := by
  have ran := succeeds.ran
  rw [show (ofTerms query program).query.instructions = [] from
    CompiledTerm.query_not_callable bare] at ran
  rw [(run_nil ran).1]
  exact Registers.held_new _ x

/-- A program that is an application needs something to be compared with. -/
theorem callable_of_callable
    (succeeds : (ofTerms query program).Succeeds fuel limits built m queryVars programVars)
    (callable : program.isCallable = true) : query.isCallable = true := by
  by_contra bare
  obtain ⟨s, rest, first⟩ : ∃ s rest, (ofTerms query program).program.instructions =
      .getStructure s 0 :: rest := CompiledTerm.program_callable callable
  obtain ⟨_, m₁, advanced, _⟩ := exists_advance_of_run succeeds.matched succeeds.not_failed
  rw [first] at advanced
  obtain ⟨m₂, matched, _⟩ := exists_of_advance_cons advanced
  cases loaded : built.registers.load 0 with
  | ok a =>
      have unwritten := succeeds.unwritten_built (Bool.eq_false_iff.mpr bare) 0
      exact nomatch unwritten.symm.trans (Registers.load_eq_ok_iff.mp loaded)
  | error e =>
      simp only [counted, step, getStructure, loaded] at matched
      cases matched

/-- Where there is no code, nothing is found for any variable. -/
theorem unwritten
    (succeeds : (ofTerms query program).Succeeds fuel limits built m queryVars programVars)
    (bare : query.isCallable = false) (bare' : program.isCallable = false) :
    ∀ pair ∈ queryVars ++ programVars, pair.2 = none := by
  have atBuilt := succeeds.unwritten_built bare
  have matched := succeeds.matched
  rw [show (ofTerms query program).program.instructions = [] from
    CompiledTerm.program_not_callable bare'] at matched
  have atEnd (x : Register) : m.registers.held x = none := by
    rw [(run_nil matched).1, atBuilt x]
  intro pair mem
  rcases List.mem_append.mp mem with mem | mem
  · exact unwritten_of_capture atBuilt succeeds.ofQuery pair mem
  · exact unwritten_of_capture atEnd succeeds.ofProgram pair mem

end CompiledUnit.Succeeds

/-! ## Which answers make the terms equal -/

/-- A constant can only be made equal to what it is equal to. -/
theorem Term.unifies_constant_iff {s : String → Term} {f name : String} {ss : List Term}
    {program : Term} (constant : erase program = .atom name) :
    Unifies s (.compound f ss) program ↔ erase (.compound f ss) = erase program := by
  have leaf (us : List Term) : apply f us = .atom name ↔ f = name ∧ us = [] :=
    (Trees.node_eq_iff : (Trees.node f us : Term) = Trees.node name [] ↔ _)
  rw [Unifies, constant, erase, eraseAll_eq_map, subst_apply, subst, leaf, leaf,
    List.map_eq_nil_iff]

/-- The answer makes the query and the program equal if the two have been compared or are equal to
begin with, and otherwise it does not. -/
theorem answer_unifies_iff (query program : Term) (disjoint : query.vars.Disjoint program.vars)
    (fuel : Nat) (limits : Limits) (answer : Answer)
    (solved : ((CompiledUnit.ofTerms query program).solve fuel limits).result =
      .ok (some answer))
    (acyclic : ((CompiledUnit.ofTerms query program).solve fuel limits).machine.heap.Acyclic) :
    Term.Unifies answer.substitution query program ↔
      (query.isCallable = true ∧ (program.isCallable = true ∨ ∃ name, program = .var name)) ∨
        query.erase = program.erase := by
  obtain ⟨built, m, queryVars, programVars, succeeds, made, attempt⟩ :=
    CompiledUnit.exists_succeeds solved
  rw [attempt] at acyclic
  obtain ⟨σ, sol, values⟩ := succeeds.exists_solution made disjoint acyclic
  by_cases callable : query.isCallable = true
  · cases query with
    | atom name => cases callable
    | number value => cases callable
    | var name => cases callable
    | compound f ss =>
        cases program with
        | atom name => simpa [TermOf.isCallable] using Term.unifies_constant_iff rfl
        | number value => simpa [TermOf.isCallable] using Term.unifies_constant_iff rfl
        | var name =>
            exact iff_of_true (succeeds.unifies_variable sol values) (.inl ⟨rfl, .inr ⟨name, rfl⟩⟩)
        | compound g ts =>
            exact iff_of_true (succeeds.unifies_application sol values) (.inl ⟨rfl, .inl rfl⟩)
  · have bare := Bool.eq_false_iff.mpr callable
    have bare' := Bool.eq_false_iff.mpr (mt succeeds.callable_of_callable callable)
    rw [Term.Unifies, Answer.substitution_of_unwritten made (succeeds.unwritten bare bare'),
      Term.subst_var, Term.subst_var]
    simp [bare]

/-- `p(f(X), f(g(Y)))` and `p(Z, Z)`, with just as many cells and instructions as are needed. -/
theorem answer_unifies_iff_limited :
    let query : Term := .compound "p" [.compound "f" [.var "X"],
      .compound "f" [.compound "g" [.var "Y"]]]
    let program : Term := .compound "p" [.var "Z", .var "Z"]
    ∃ answer, query.vars.Disjoint program.vars ∧
      ((CompiledUnit.ofTerms query program).solve 2 ⟨some 13, some 12⟩).result =
        .ok (some answer) ∧
      ((CompiledUnit.ofTerms query program).solve 2 ⟨some 13, some 12⟩).machine.heap.Acyclic ∧
      Term.Unifies answer.substitution query program := by
  intro query program
  have disjoint : query.vars.Disjoint program.vars := List.disjoint_left.mpr (by decide)
  have solved : ((CompiledUnit.ofTerms query program).solve 2 ⟨some 13, some 12⟩).result =
      .ok (some ⟨[("X", .compound "g" [.var "Y"]), ("Y", .var "Y"),
        ("Z", .compound "f" [.compound "g" [.var "Y"]])]⟩) := by
    decide +kernel
  let h := ((CompiledUnit.ofTerms query program).solve 2 ⟨some 13, some 12⟩).machine.heap
  let rank (a : Address) : Nat :=
    if a ∈ [2, 3, 8] then 1 else if a ∈ [0, 6, 11, 12] then 2 else if a = 9 then 3 else 0
  have down : ∀ a < h.top, ∀ c ∈ h.argumentsOf a, rank c < rank a := by
    decide +kernel
  have acyclic : h.Acyclic := Heap.acyclic_of_lt rank down
  have compared := (answer_unifies_iff query program disjoint 2 _ _ solved acyclic).mpr
    (.inl ⟨rfl, .inl rfl⟩)
  exact ⟨_, disjoint, solved, acyclic, compared⟩

/-- The atoms `a` and `b` have no code, so the answer is yes. -/
theorem answer_of_atoms :
    let query : Term := .atom "a"
    let program : Term := .atom "b"
    let attempt := (CompiledUnit.ofTerms query program).solve 0 .unlimited
    CompiledUnit.compile query program = .ok (.ofTerms query program) ∧
      query.vars.Disjoint program.vars ∧ attempt.result = .ok (some ⟨[]⟩) ∧
      attempt.machine.heap.Acyclic ∧
      ¬Term.Unifies (Answer.substitution ⟨[]⟩) query program := by
  intro query program attempt
  have fits : query.Fits := Term.tooWide?_eq_none_iff.mp (by decide)
  have fits' : program.Fits := Term.tooWide?_eq_none_iff.mp (by decide)
  have acyclic : attempt.machine.heap.Acyclic := Heap.acyclic_of_lt id (by decide +kernel)
  have differ : (.atom "a" : Term) ≠ .atom "b" := by decide
  exact ⟨CompiledUnit.compile_eq_ok_iff.mpr ⟨fits, fits', rfl⟩,
    List.disjoint_left.mpr (by decide), by decide +kernel, acyclic, differ⟩

end TermMachine
