import TermMachine.Proofs.Compilation
import TermMachine.Proofs.Solving.Matching
import TermMachine.Proofs.Solving.MostGeneral

/-! # Ground values come back

A variable that meets a ground term is answered with this term, whichever of the two is in the
query. What comes back is the term as the machine has it: `erase` has taken from it that a number is
a number. `erase_eq_self_iff` says which terms have nothing to lose, and those are shown as they
were written.

No code that is run for this has a variable to compare, so the work that unifications are allowed
plays no part.
-/

namespace TermMachine

/-! ## Ground terms -/

namespace Term

theorem vars_eq_nil_iff {t : Term} : t.vars = [] ↔ t.occurrences = [] := by
  simp only [List.eq_nil_iff_forall_not_mem, TermOf.vars, List.mem_eraseDups]

/-- A replacement that keeps the variables of a term keeps the term. -/
theorem subst_of_keeps {s : String → Term} {t : Term} (keeps : ∀ v ∈ t.occurrences, s v = .var v) :
    subst s t = t := by
  induction t using TermOf.induction with
  | atom name => rfl
  | number value => rfl
  | var name => exact keeps name (List.mem_singleton_self name)
  | compound name args ih =>
      rw [TermOf.occurrences, occurrencesAll_eq_flatMap] at keeps
      have same : args.map (subst s) = args.map id :=
        List.map_congr_left fun arg mem =>
          ih arg mem fun v occurs => keeps v (List.mem_flatMap.mpr ⟨arg, mem, occurs⟩)
      rw [subst, substAll_eq_map, same, List.map_id]

/-- Exactly the terms without numbers and without empty brackets are to the machine what they are
in writing. -/
theorem erase_eq_self_iff {t : Term} :
    erase t = t ↔
      ∀ s ∈ t.preorder, (∀ value, s ≠ .number value) ∧ ∀ name, s ≠ .compound name [] := by
  induction t using TermOf.induction with
  | atom name => simp [erase, TermOf.preorder]
  | number value => simp [erase, TermOf.preorder]
  | var name => simp [erase, TermOf.preorder]
  | compound name args ih =>
      have parts : (∀ s ∈ TermOf.preorderAll args,
          (∀ value, s ≠ .number value) ∧ ∀ name, s ≠ .compound name []) ↔
            args.map erase = args := by
        have each : args.map erase = args ↔ ∀ arg ∈ args, erase arg = arg := by
          rw [← List.map_inj_left, List.map_id']
        rw [each]
        simp only [mem_preorderAll_iff, forall_exists_index, and_imp]
        rw [forall_comm]
        refine forall_congr' fun arg => ?_
        constructor
        · exact fun each mem => (ih arg mem).mpr fun s part => each s mem part
        · exact fun same s mem => (ih arg mem).mp (same mem) s
      rw [TermOf.preorder, List.forall_mem_cons, parts, erase, eraseAll_eq_map]
      cases args with
      | nil => simp [apply]
      | cons arg args => simp [apply]

end Term

/-! ## Code that compares nothing -/

namespace Code

theorem not_compares_unifyArguments {seen : Seen} {nodes : List Node}
    (none : ∀ y v, .var y v ∉ nodes) (x : Register) :
    .unifyValue x ∉ (unifyArguments seen nodes).1 := by
  induction nodes generalizing seen with
  | nil => exact List.not_mem_nil
  | cons node nodes ih =>
      have rest : ∀ y v, .var y v ∉ nodes := fun y v mem => none y v (List.mem_cons_of_mem _ mem)
      cases node with
      | var y v => exact absurd List.mem_cons_self (none y v)
      | constant y => simpa [unifyArguments, unifyArgument] using ih rest
      | compound y f args => simpa [unifyArguments, unifyArgument] using ih rest

/-- Where no argument is a variable, none is compared. -/
theorem not_compares_matchAll {seen : Seen} {nodes : List Node}
    (none : ∀ node ∈ nodes, ∀ y v, .var y v ∉ node.args) (x : Register) :
    .unifyValue x ∉ matchAll seen nodes := by
  induction nodes generalizing seen with
  | nil => exact List.not_mem_nil
  | cons node nodes ih =>
      obtain ⟨first, rest⟩ := List.forall_mem_cons.mp none
      cases node with
      | var y v => exact ih rest
      | constant y => exact ih rest
      | compound y f args =>
          simp only [matchAll, List.cons_append, List.mem_cons, List.mem_append, reduceCtorEq,
            false_or, not_or]
          exact ⟨not_compares_unifyArguments first x, ih rest⟩

end Code

namespace Machine

variable {query program : Term} {m : Machine} {root : Address}

/-- A program that compares nothing is matched in the same way however little work is allowed. -/
theorem Posed.exists_done_of_not_compares (posed : Posed query program m root)
    (none : ∀ x, .unifyValue x ∉ (CompiledUnit.ofTerms query program).program.instructions)
    (unifiable : ∃ s, Term.Unifies s query program) :
    ∃ m', (∀ fuel, m.advance fuel (CompiledUnit.ofTerms query program).program.instructions =
        .done m') ∧
      Realizes (Allocation.ofTerm program) m {0} m' := by
  obtain ⟨s, unifies⟩ := unifiable
  obtain ⟨σ, ρ, sol, here, holds, _⟩ := posed.exists_common (Term.unifies_iff.mp unifies)
  obtain ⟨enough, done⟩ := exists_enough posed.lead ⟨σ, sol, here, holds⟩
  obtain ⟨m', ran, matched⟩ := done enough le_rfl
  refine ⟨m', fun fuel => ?_, matched⟩
  rw [advance_of_not_compares none fuel enough, ran]

end Machine

/-! ## Answers with one binding -/

namespace Answer

/-- An answer has a binding for each variable, in order. -/
theorem names_of_ofVariables {h : Heap} {vars : List (String × Option Address)} {answer : Answer}
    (made : ofVariables h vars = .ok answer) (nodup : (vars.map Prod.fst).Nodup) :
    answer.bindings.map Prod.fst = vars.map Prod.fst := by
  unfold ofVariables at made
  rw [firstOfEach_of_nodup nodup] at made
  dsimp only at made
  split at made
  · cases made
  · next names named =>
      split at made
      · cases made
      · next bindings valued =>
          cases made
          refine map_of_collect (fun pair binding read => ?_) valued
          obtain ⟨name, slot⟩ := pair
          cases slot with
          | none =>
              cases read
              rfl
          | some a =>
              simp only [value] at read
              split at read
              · cases read
              · cases read
                rfl

end Answer

namespace Machine

variable {query program : Term} {m : Machine} {root : Address}

/-- Where the two terms have a single variable between them, the answer is its value. -/
theorem Posed.solve_single (posed : Posed query program m root)
    (none : ∀ x, .unifyValue x ∉ (CompiledUnit.ofTerms query program).program.instructions)
    {name : String} (single : query.vars ++ program.vars = [name]) {value : Term}
    (unifies_iff : ∀ s, Term.Unifies s query program ↔ s name = value) :
    ∃ answer : Answer, answer.bindings = [(name, value)] ∧
      ∀ fuel, let attempt := (CompiledUnit.ofTerms query program).solve fuel .unlimited
        attempt.result = .ok (some answer) ∧ attempt.machine.hasFailed = false := by
  have unifiable : ∃ s, Term.Unifies s query program := ⟨fun _ => value, (unifies_iff _).mpr rfl⟩
  obtain ⟨m', ran, matched⟩ := posed.exists_done_of_not_compares none unifiable
  have nodup : (query.vars ++ program.vars).Nodup := by
    rw [single]
    exact List.nodup_singleton name
  obtain ⟨answer, made, general⟩ :=
    posed.exists_answer matched (List.disjoint_of_nodup_append nodup) unifiable
  have found : (foundAll query program m m').map Prod.fst = [name] := by
    rw [foundAll, List.map_append, names_found posed.exactQuery, names_found posed.exactProgram,
      single]
  have names := Answer.names_of_ofVariables made (found ▸ List.nodup_singleton name)
  rw [found, List.map_eq_singleton_iff] at names
  obtain ⟨⟨name', value'⟩, bindings, here⟩ := names
  obtain rfl : name = name' := here.symm
  have same : answer.substitution name = value := (unifies_iff _).mp general.unifies
  rw [Answer.substitution, bindings, List.lookup_cons_self, Option.getD_some] at same
  exact ⟨answer, same ▸ bindings, fun fuel => posed.solve_done matched (ran fuel) made⟩

end Machine

/-! ## Ground values -/

/-- However much work is allowed, the query has an answer, which shows the one binding. -/
def SolvedBy (query program : Term) (binding : String × Term) : Prop :=
  ∃ answer : Answer, answer.interesting = [binding] ∧
    answer.text = Text.Style.success.paint "yes" ++ ("\n" ++ Answer.bindingText binding) ∧
    ∀ fuel, let attempt := (CompiledUnit.ofTerms query program).solve fuel .unlimited
      attempt.result = .ok (some answer) ∧ attempt.machine.hasFailed = false

section

variable {w x : String} {t : Term}

theorem Term.unifies_ground_iff (ground : t.vars = []) {s : String → Term} :
    Unifies s (.compound w [.var x]) (.compound w [t]) ↔ s x = erase t := by
  have kept : subst s (erase t) = erase t := by
    refine subst_of_keeps fun v occurs => ?_
    rw [occurrences_erase, vars_eq_nil_iff.mp ground] at occurs
    cases occurs
  show TermOf.compound w [s x] = .compound w [subst s (erase t)] ↔ _
  simp [kept]

theorem Term.not_var_of_ground (ground : t.vars = []) : erase t ≠ .var x := by
  intro same
  have occurs : x ∈ (erase t).occurrences := by
    rw [same]
    exact List.mem_singleton_self x
  rw [occurrences_erase, vars_eq_nil_iff.mp ground] at occurs
  cases occurs

theorem Term.fits_singleton_iff : Fits (.compound w [t]) ↔ t.Fits := by
  constructor
  · intro fits name args part
    exact fits name args (by simp [TermOf.preorder, TermOf.preorderAll, part])
  · intro fits name args part
    rw [TermOf.preorder, TermOf.preorderAll, TermOf.preorderAll, List.append_nil,
      List.mem_cons] at part
    rcases part with whole | part
    · cases whole
      exact (by decide : 1 < arityBound)
    · exact fits name args part

theorem Code.not_compares_ground (ground : t.vars = []) (y : Register) :
    .unifyValue y ∉ (CompiledTerm.program (.compound w [t])).instructions := by
  have exact' := Allocation.exact_ofTerm w [t]
  refine not_compares_matchAll (fun node listed z v child => ?_) y
  have part := Node.mem_preorder_of_args (exact'.mem_nodes_iff.mp listed) child
  have occurs := exact'.represents.mem_occurrences_iff.mpr ⟨z, part⟩
  rw [TermOf.occurrences, Term.occurrencesAll_eq_flatMap, List.flatMap_singleton,
    Term.vars_eq_nil_iff.mp ground] at occurs
  cases occurs

/-- A single variable that has to have one value is shown with it. -/
theorem solvedBy_of_single {f g : String} {ss ts : List Term}
    (none : ∀ y, .unifyValue y ∉ (CompiledTerm.program (.compound g ts)).instructions)
    (single : TermOf.vars (.compound f ss : Term) ++ TermOf.vars (.compound g ts : Term) = [x])
    {value : Term} (unifies_iff : ∀ s, Term.Unifies s (.compound f ss) (.compound g ts) ↔
      s x = value) (bound : value ≠ .var x) :
    SolvedBy (.compound f ss) (.compound g ts) (x, value) := by
  obtain ⟨m, root, posed⟩ := Machine.exists_posed f g ss ts
  obtain ⟨answer, bindings, solved⟩ := posed.solve_single none single unifies_iff
  have interesting : answer.interesting = [(x, value)] := by
    simp [Answer.interesting, bindings, bound]
  refine ⟨answer, interesting, ?_, solved⟩
  rw [Answer.text, interesting, List.map_singleton, String.join_cons, String.join_nil,
    String.append_empty]

end

theorem solve_ground (w x : String) (t : Term) (ground : t.vars = [])
    (applied : ∀ name, .compound name [] ∉ t.preorder) :
    let opened : Term := .compound w [.var x]
    let closed : Term := .compound w [t]
    (CompiledUnit.compile opened closed = .ok (.ofTerms opened closed) ↔ t.Fits) ∧
      (CompiledUnit.compile closed opened = .ok (.ofTerms closed opened) ↔ t.Fits) ∧
      SolvedBy opened closed (x, t.erase) ∧ SolvedBy closed opened (x, t.erase) ∧
      (t.erase = t ↔ ∀ value, .number value ∉ t.preorder) := by
  intro opened closed
  have varsOpened : opened.vars = [x] := rfl
  have varsClosed : closed.vars = [] := by
    rw [Term.vars_eq_nil_iff, TermOf.occurrences, Term.occurrencesAll_eq_flatMap,
      List.flatMap_singleton, ← Term.vars_eq_nil_iff]
    exact ground
  have fitsOpened : opened.Fits := Term.fits_singleton_iff.mpr fun name args part => by
    simp [TermOf.preorder] at part
  have fitsClosed : closed.Fits ↔ t.Fits := Term.fits_singleton_iff
  have unified : Term.Unifies (fun _ => t.erase) opened closed :=
    (Term.unifies_ground_iff ground).mpr rfl
  refine ⟨?_, ?_, ?_, ?_, ?_⟩
  · rw [CompiledUnit.compile_eq_ok_iff, fitsClosed]
    exact ⟨fun fits => fits.2.1, fun fits => ⟨fitsOpened, fits, rfl⟩⟩
  · rw [CompiledUnit.compile_eq_ok_iff, fitsClosed]
    exact ⟨fun fits => fits.1, fun fits => ⟨fits, fitsOpened, rfl⟩⟩
  · exact solvedBy_of_single (Code.not_compares_ground ground)
      (by rw [varsOpened, varsClosed]; rfl) (fun _ => Term.unifies_ground_iff ground)
      (Term.not_var_of_ground ground)
  · refine solvedBy_of_single (fun y => ?_) (by rw [varsOpened, varsClosed]; rfl)
      (fun _ => eq_comm.trans (Term.unifies_ground_iff ground)) (Term.not_var_of_ground ground)
    have code : (CompiledTerm.program opened).instructions =
        [.getStructure ⟨w, 1⟩ 0, .unifyVariable 1] := rfl
    rw [code]
    simp
  · rw [Term.erase_eq_self_iff]
    constructor
    · exact fun each value part => (each _ part).1 value rfl
    · exact fun none s part => ⟨fun value same => none value (same ▸ part),
        fun name same => applied name (same ▸ part)⟩

/-- The value `f(a, g(b))`. -/
theorem solve_ground_nested :
    let t : Term := .compound "f" [.atom "a", .compound "g" [.atom "b"]]
    SolvedBy (.compound "w" [.var "X"]) (.compound "w" [t]) ("X", t) ∧
      SolvedBy (.compound "w" [t]) (.compound "w" [.var "X"]) ("X", t) := by
  obtain ⟨_, _, bound, given, _⟩ := solve_ground "w" "X"
    (.compound "f" [.atom "a", .compound "g" [.atom "b"]]) (by decide)
    (by simp [TermOf.preorder, TermOf.preorderAll])
  exact ⟨bound, given⟩

/-- The number `1` comes back as an atom, and so with quotes around it. -/
theorem solve_ground_number :
    let t : Term := .number ⟨1, 0⟩
    t.vars = [] ∧ (∀ name, .compound name [] ∉ t.preorder) ∧
      (∀ pair ∈ [((.compound "w" [.var "X"], .compound "w" [t]) : Term × Term),
          (.compound "w" [t], .compound "w" [.var "X"])],
        ((CompiledUnit.ofTerms pair.1 pair.2).solve 0 .unlimited).result =
            .ok (some ⟨[("X", .atom "1")]⟩) ∧
          ¬SolvedBy pair.1 pair.2 ("X", t)) ∧
      Term.render (.atom "1") = "'1'" ∧ t.render = "1" := by
  have solved : ∀ pair ∈
      [((.compound "w" [.var "X"], .compound "w" [.number ⟨1, 0⟩]) : Term × Term),
        (.compound "w" [.number ⟨1, 0⟩], .compound "w" [.var "X"])],
      ((CompiledUnit.ofTerms pair.1 pair.2).solve 0 .unlimited).result =
        .ok (some ⟨[("X", .atom "1")]⟩) := by
    decide +kernel
  refine ⟨rfl, by simp [TermOf.preorder], fun pair mem => ⟨solved pair mem, ?_⟩, ?_, ?_⟩
  · rintro ⟨answer, interesting, _, same⟩
    have result := (same 0).1
    rw [solved pair mem] at result
    cases result
    exact absurd interesting (by decide)
  · decide +kernel
  · decide +kernel

end TermMachine
