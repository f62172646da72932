import TermMachine.Proofs.Heap.Unfolding
import TermMachine.Proofs.Solving.Variables

/-! # What success and failure mean

`solve_exact`: when the code of a query and a program has been run and has not failed, the term that
was built is an instance of both, by the trees that their variables stand for. These trees may be
infinite, since nothing keeps a variable from being bound to a structure it occurs in. When the code
has failed there is no such instance, not even an infinite one.
-/

namespace TermMachine

open Machine

/-- The trees that captured variables stand for. -/
def Heap.assigned (h : Heap) (vars : List (String × Option Address)) (name : String) :
    Tree Address :=
  match vars.lookup name with
  | some (some a) => h.tree a
  | some none | none => Tree.leaf 0

namespace Machine

variable {a : Allocation} {t : Term}

/-- In any heap that the code has led to, the whole term is an instance by its variables. -/
theorem Realizes.instance (exact' : a.Exact t) {m m' : Machine} {known : Set Register}
    (realizes : Realizes a m known m') {h : Heap} (sol : m'.heap.Solution h.tree) :
    m'.value h.tree 0 = Term.eval (h.assigned (found a t m')) t := by
  refine realizes.eval_found exact' sol fun name b mem => ?_
  rw [Heap.assigned, lookup_of_nodup (nodup_found exact' m') mem]

/-- The register of an application leads to a structure whose arguments are bisimilar to the
registers of the arguments. -/
theorem Realizes.application {m m' : Machine} {known : Set Register}
    (realizes : Realizes a m known m') {x : Register} {name : String} {args : List Node}
    (part : .compound x name args ∈ a.root.preorder) :
    ∃ b c first, m'.registers.held x = some b ∧
      m'.heap.inspect b = .ok (c, .compound ⟨name, args.length⟩ first) ∧
      ∀ k (hk : k < args.length), ∃ d, m'.registers.held args[k].register = some d ∧
        m'.heap.Bisimilar (first + k) d := by
  have wf := realizes.ready.heap realizes.idle
  have term {y : Register} {d : Address} (hd : m'.registers.held y = some d) :
      m'.heap.IsTerm d := realizes.ready.wellFormed.registers hd
  obtain ⟨b, held⟩ := realizes.held _ part
  have node : m'.value m'.heap.tree x =
      Trees.node name (args.map fun arg => m'.value m'.heap.tree arg.register) :=
    realizes.equations wf.solution_tree _ part
  rw [Node.register] at held
  rw [value_of_held held] at node
  obtain ⟨p, compound, below⟩ := wf.readable.compound_of_tree (term held) node
  rw [List.length_map] at compound below
  obtain ⟨c, _, _, inspected⟩ := compound.inspect
  refine ⟨b, c, p + 1, held, inspected, fun k hk => ?_⟩
  obtain ⟨d, hd⟩ := realizes.held _ (Node.mem_preorder_of_arg part (List.getElem_mem hk))
  refine ⟨d, hd, (wf.readable.bisimilar_iff (wf.argument compound hk) (term hd)).mpr ?_⟩
  have same := congrArg (·[k]?) below
  simp only [Heap.treesAt, List.getElem?_map, List.getElem?_range' hk, Nat.one_mul,
    List.getElem?_eq_getElem hk, Option.map_some, Option.some.injEq] at same
  rw [same, value_of_held hd]

end Machine

theorem solve_exact (f g : String) (ss ts : List Term) (fuel : Nat) :
    let query : Term := .compound f ss
    let program : Term := .compound g ts
    let u := CompiledUnit.ofTerms query program
    ∃ built root queryVars,
      (new u.registerCount .unlimited).run fuel u.query.instructions = .ok built ∧
      built.registers.held 0 = some root ∧
      built.capture u.query.vars = .ok queryVars ∧
      (∀ name ∈ query.vars, ∃ b, queryVars.lookup name = some (some b)) ∧
      ∀ fuel', (∀ m, built.run fuel' u.program.instructions ≠ .unfinished m) →
        ∃ m, built.run fuel' u.program.instructions = .ok m ∧
          (m.hasFailed = false → ∃ programVars,
            m.capture u.program.vars = .ok programVars ∧
            (∀ name ∈ program.vars, ∃ b, programVars.lookup name = some (some b)) ∧
            m.heap.tree root = Term.eval (m.heap.assigned queryVars) query ∧
            m.heap.tree root = Term.eval (m.heap.assigned programVars) program ∧
            ∀ x name args, .compound x name args ∈ (Allocation.ofTerm program).nodes →
              ∃ b c first, m.registers.held x = some b ∧
                m.heap.inspect b = .ok (c, .compound ⟨name, args.length⟩ first) ∧
                ∀ k (hk : k < args.length), ∃ d, m.registers.held args[k].register = some d ∧
                  m.heap.Bisimilar (first + k) d) ∧
          (m.hasFailed = true → ∀ (α : Type) (θ ψ : String → Tree α),
            Term.eval θ query ≠ Term.eval ψ program) := by
  intro query program u
  obtain ⟨m, root, posed⟩ := exists_posed f g ss ts
  refine ⟨{ m with status := .succeeded }, root, found _ query m, posed.run fuel, posed.root,
    posed.built.capture posed.exactQuery, fun name => posed.built.lookup posed.exactQuery,
    fun fuel' returns => ?_⟩
  rw [posed.built.ready.run_succeeded] at returns ⊢
  have leads := posed.lead fuel'
  generalize m.advance fuel' u.program.instructions = effect at leads returns ⊢
  cases leads with
  | unfinished _ => exact absurd rfl (returns _)
  | @done m' matched =>
      have wf := matched.ready.heap matched.idle
      have sol := matched.sound wf.solution_tree
      refine ⟨_, goOn_done matched.idle fuel', fun _ => ⟨found _ program m',
        matched.capture posed.exactProgram, fun name => matched.lookup posed.exactProgram,
        ?_, ?_, ?_⟩, nofun⟩
      · have instanceOf := posed.built.instance posed.exactQuery sol
        rwa [value_of_held posed.root] at instanceOf
      · have instanceOf := matched.instance posed.exactProgram wf.solution_tree
        rwa [value_of_held ((matched.keeps 0 rfl).trans posed.root)] at instanceOf
      · intro x name args listed
        exact matched.application (posed.exactProgram.mem_nodes_iff.mp listed)
  | @failed m' unsolvable =>
      refine ⟨{ m' with status := .failed }, rfl, nofun, fun _ α θ ψ same => ?_⟩
      obtain ⟨σ, ρ, sol, here, holds, _⟩ := posed.exists_common same
      exact @unsolvable _ _ ρ ⟨σ, sol, here, holds⟩

/-- A variable may be bound to a structure that it occurs in: `p(X, f(X))` and `p(Y, Y)` are both
the same infinite tree. -/
theorem solve_exact_cyclic :
    let query : Term := .compound "p" [.var "X", .compound "f" [.var "X"]]
    let program : Term := .compound "p" [.var "Y", .var "Y"]
    let u := CompiledUnit.ofTerms query program
    ∃ built root queryVars m,
      (new u.registerCount .unlimited).run 3 u.query.instructions = .ok built ∧
      built.registers.held 0 = some root ∧ built.capture u.query.vars = .ok queryVars ∧
      built.run 3 u.program.instructions = .ok m ∧ m.hasFailed = false ∧
      m.heap.tree root = Term.eval (m.heap.assigned queryVars) query := by
  obtain ⟨built, root, queryVars, ran, held, captured, _, solved⟩ := solve_exact "p" "p"
    [.var "X", .compound "f" [.var "X"]] [.var "Y", .var "Y"] 3
  have same := congrArg Outcome.machine ran
  have returns := solved 3 (by
    rw [← show _ = built from same]
    intro m
    exact nofun)
  obtain ⟨m, matched, unified, _⟩ := returns
  have succeeded : m.hasFailed = false := by
    have same' := congrArg Outcome.machine matched
    rw [← show _ = built from same] at same'
    rw [← show _ = m from same']
    rfl
  obtain ⟨_, _, _, instanceOf, _⟩ := unified succeeded
  exact ⟨built, root, queryVars, m, ran, held, captured, matched, succeeded, instanceOf⟩

end TermMachine
