import TermMachine.Solution
import TermMachine.Proofs.Machine.Blocks
import Mathlib.Data.Finset.Lattice.Fold

/-! # Running the code of a term

The code of a query always runs to its end. The code of a program may fail, or need more work than
it is allowed; if it does neither, its registers stand for the parts of the term, and for nothing
else that is not forced by the heap it was run on.
-/

namespace TermMachine

namespace Machine

/-- From `m`, where the registers in `known` count, a machine has been reached whose registers stand
for all parts of the term, in every way that they can. -/
structure Realizes (a : Allocation) (m : Machine) (known : Set Register) (m' : Machine) : Prop where
  ready : m'.Ready
  idle : m'.cursor = .idle
  heap : m.heap.GrowsTo m'.heap
  count : m'.registers.count = m.registers.count
  keeps : ∀ y ∈ known, m'.registers.held y = m.registers.held y
  held : ∀ n ∈ a.root.preorder, ∃ b, m'.registers.held n.register = some b
  sound : ∀ {τ : Type} [Trees τ] {σ : Address → τ}, m'.heap.Solution σ → m.heap.Solution σ
  equations : ∀ {τ : Type} [Trees τ] {σ : Address → τ}, m'.heap.Solution σ →
    ∀ n ∈ a.root.preorder, n.Holds (m'.value σ)
  complete : ∀ {τ : Type} [Trees τ] {σ : Address → τ} {ρ : Register → τ}, m.Reads known σ ρ →
    (∀ n ∈ a.root.preorder, n.Holds ρ) → ∃ σ' : Address → τ, (∀ a < m.heap.top, σ' a = σ a) ∧
      m'.heap.Solution σ' ∧ ∀ n ∈ a.root.preorder, ρ n.register = m'.value σ' n.register
  rooted : ∀ {roots : Set Address}, m.heap.Rooted roots → m'.heap.Rooted
    (roots ∪ {b | ∃ n ∈ a.root.preorder, m'.registers.held n.register = some b})

variable {a : Allocation} {t : Term}

/-- Every part of a term is an application or an argument of one. -/
theorem mem_scopes_of_part (exact' : a.Exact t) {nodes : List Node}
    (all : ∀ n, n ∈ nodes ↔ n ∈ a.root.preorder ∧ n.isCompound) {n : Node}
    (part : n ∈ a.root.preorder) : n.register ∈ Code.scopes nodes := by
  rcases Node.eq_or_arg_of_mem_preorder part with rfl | ⟨x, f, args, parent, child⟩
  · exact ⟨_, (all _).mpr ⟨part, exact'.compound⟩, .inl rfl⟩
  · exact ⟨_, (all _).mpr ⟨parent, rfl⟩, mem_scope_of_arg child⟩

theorem part_of_mem_scopes {nodes : List Node}
    (all : ∀ n, n ∈ nodes ↔ n ∈ a.root.preorder ∧ n.isCompound) {y : Register}
    (mem : y ∈ Code.scopes nodes) : ∃ n ∈ a.root.preorder, n.register = y := by
  obtain ⟨n, hn, own | among⟩ := mem
  · exact ⟨n, ((all n).mp hn).1, own.symm⟩
  · obtain ⟨arg, child, same⟩ := List.mem_map.mp among
    exact ⟨arg, Node.mem_preorder_of_args ((all n).mp hn).1 child, same⟩

theorem Solved.realizes (exact' : a.Exact t) {nodes : List Node}
    (all : ∀ n, n ∈ nodes ↔ n ∈ a.root.preorder ∧ n.isCompound) {m m' : Machine}
    {known : Set Register} (parts : ∀ y ∈ known, ∃ n ∈ a.root.preorder, n.register = y)
    (solved : m.Solved known nodes m') : Realizes a m known m' where
  ready := solved.grown.ready
  idle := solved.idle
  heap := solved.grown.heap
  count := solved.grown.count
  keeps := solved.grown.keeps
  held n part := solved.grown.holds _ (.inr (mem_scopes_of_part exact' all part))
  sound := solved.grown.sound
  equations sol n part := by
    cases n with
    | constant x => trivial
    | var x name => trivial
    | compound x f args => exact solved.equations sol _ ((all _).mpr ⟨part, rfl⟩)
  complete reads holds := by
    obtain ⟨σ', same, reads'⟩ := solved.complete reads fun n hn => holds n ((all n).mp hn).1
    refine ⟨σ', same, reads'.solution, fun n part => ?_⟩
    exact reads'.registers _ (.inr (mem_scopes_of_part exact' all part))
  rooted rooted := by
    refine (solved.grown.rooted rooted).mono (Set.union_subset_union_right _ ?_)
    rintro b ⟨y, mem, held⟩
    have part : ∃ n ∈ a.root.preorder, n.register = y := by
      rcases mem with old | new
      · exact parts y old
      · exact part_of_mem_scopes all new
    obtain ⟨n, part, rfl⟩ := part
    exact ⟨n, part, held⟩

/-- The register of the whole term stands for its value. -/
theorem Realizes.root (exact' : a.Exact t) {m m' : Machine} {known : Set Register}
    (realizes : Realizes a m known m') {τ : Type} [Trees τ] {σ : Address → τ}
    (sol : m'.heap.Solution σ) {θ : String → τ}
    (vars : ∀ x name, .var x name ∈ a.root.preorder → m'.value σ x = θ name) :
    m'.value σ 0 = Term.eval θ t := by
  have value := exact'.represents.eval_eq (realizes.equations sol) vars
  rwa [exact'.register] at value

theorem exists_registers (exact' : a.Exact t) {τ : Type} [Trees τ] (θ : String → τ) :
    ∃ ρ : Register → τ, (∀ n ∈ a.root.preorder, n.Holds ρ) ∧ ρ 0 = Term.eval θ t ∧
      ∀ x name, .var x name ∈ a.root.preorder → ρ x = θ name := by
  obtain ⟨ρ, holds, value⟩ := exact'.apart.exists_holds θ
  refine ⟨ρ, holds, ?_, fun x name part => value _ part⟩
  rw [← exact'.register, value _ (Node.mem_preorder_self _), exact'.represents.eval]

/-! ## Queries -/

theorem ready_new (count : Nat) : (new count .unlimited).Ready :=
  ⟨wellFormed_new count .unlimited, rfl, rfl, rfl⟩

theorem solution_new (count : Nat) {τ : Type} [Trees τ] (σ : Address → τ) :
    (new count .unlimited).heap.Solution σ := by
  intro a cell hc
  simp [new, Heap.empty] at hc

theorem rooted_new (count : Nat) : (new count .unlimited).heap.Rooted ∅ := by
  intro b hb
  simp [new, Heap.empty] at hb

end Machine

/-- The instruction only builds, and so does no unification. -/
def Instruction.Builds : Instruction → Prop
  | .putStructure _ _ | .setVariable _ | .setValue _ => True
  | .getStructure _ _ | .unifyVariable _ | .unifyValue _ => False

namespace Code

theorem builds_of_mem_setArguments {seen : Seen} {nodes : List Node} {i : Instruction}
    (mem : i ∈ (setArguments seen nodes).1) : i.Builds := by
  induction nodes generalizing seen with
  | nil => cases mem
  | cons node nodes ih =>
      simp only [setArguments, List.mem_cons] at mem
      rcases mem with rfl | mem
      · unfold setArgument
        split
        · split <;> trivial
        · trivial
      · exact ih mem

theorem builds_of_mem_build {seen : Seen} {node : Node} {i : Instruction}
    (mem : i ∈ (build seen node).1) : i.Builds := by
  induction node using Node.induction generalizing seen with
  | constant x => cases mem
  | var x name => cases mem
  | compound x name args ih =>
      have below {seen : Seen} {nodes : List Node} (sub : ∀ n ∈ nodes, n ∈ args)
          (mem : i ∈ (buildAll seen nodes).1) : i.Builds := by
        induction nodes generalizing seen with
        | nil => cases mem
        | cons n nodes ih' =>
            rw [buildAll_cons, List.mem_append] at mem
            rcases mem with mem | mem
            · exact ih n (sub n List.mem_cons_self) mem
            · exact ih' (fun m hm => sub m (List.mem_cons_of_mem _ hm)) mem
      rw [build_compound, List.mem_append, List.mem_cons] at mem
      rcases mem with mem | rfl | mem
      · exact below (fun _ hn => hn) mem
      · trivial
      · exact builds_of_mem_setArguments mem

end Code

namespace Machine

variable {a : Allocation} {t : Term}

/-- Only comparing takes work that can be used up. -/
theorem advance_of_not_compares {is : List Instruction} (none : ∀ x, .unifyValue x ∉ is)
    (fuel fuel' : Nat) (m : Machine) : m.advance fuel is = m.advance fuel' is := by
  induction is generalizing m with
  | nil => rfl
  | cons i is ih =>
      have rest : ∀ x, .unifyValue x ∉ is := fun x mem => none x (List.mem_cons_of_mem _ mem)
      have same : m.counted.step fuel i = m.counted.step fuel' i := by
        cases i with
        | putStructure s x => rfl
        | setVariable x => rfl
        | setValue x => rfl
        | getStructure s x => rfl
        | unifyVariable x => rfl
        | unifyValue x => exact absurd List.mem_cons_self (none x)
      simp only [advance, same, ih rest]

theorem exists_bound (f : Nat → Nat) (n : Nat) : ∃ bound, ∀ y < n, f y ≤ bound :=
  ⟨(Finset.range n).sup f, fun _ lt => Finset.le_sup (Finset.mem_range.mpr lt)⟩

/-- With enough work, what can be solved is done. -/
theorem exists_enough {count : Nat} {S : ∀ (τ : Type) [Trees τ], (Register → τ) → Prop}
    {P : Machine → Prop} {effect : Nat → Effect}
    (leads : ∀ fuel, Leads fuel count S P (effect fuel)) {ρ : Register → Term}
    (solvable : S Term ρ) :
    ∃ enough, ∀ fuel ≥ enough, ∃ m, effect fuel = .done m ∧ P m := by
  obtain ⟨enough, large⟩ := exists_bound (fun y => Term.size (ρ y)) count
  refine ⟨enough, fun fuel le => ?_⟩
  have lead := leads fuel
  generalize effect fuel = reached at lead
  cases lead with
  | done holds => exact ⟨_, rfl, holds⟩
  | failed unsolvable => exact absurd solvable unsolvable
  | unfinished unbounded =>
      obtain ⟨y, lt, more⟩ := unbounded Term.isSize solvable
      exact absurd ((large y lt).trans le) (Nat.not_le.mpr more)

/-- The code of a query runs to its end, however little work is allowed. -/
theorem query_done (exact' : a.Exact t) {count : Nat} (le : a.registerCount ≤ count) :
    ∃ m, (∀ fuel, (new count .unlimited).advance fuel (Code.build [] a.root).1 = .done m) ∧
      Realizes a (new count .unlimited) ∅ m := by
  obtain ⟨nodes, blocks, all⟩ := Code.query_blocks exact'
  obtain ⟨ρ, holds, _⟩ := exists_registers exact' fun v => (.var v : Term)
  have registers : (new count .unlimited).registers.count = count := Registers.count_new count
  have allowed : a.registerCount ≤ (new count .unlimited).registers.count := by rwa [registers]
  have leads (fuel : Nat) :=
    @blocks_lead fuel _ _ _ _ blocks _ (ready_new count) rfl allowed fun _ => nofun
  obtain ⟨enough, done⟩ := exists_enough leads (ρ := ρ)
    ⟨fun _ => ρ 0, ⟨solution_new count _, fun _ => nofun⟩, fun n hn => holds n ((all n).mp hn).1⟩
  obtain ⟨m, ran, solved⟩ := done enough le_rfl
  -- no unification takes place, so it does not matter that this much work is allowed
  have none : ∀ x, .unifyValue x ∉ (Code.build [] a.root).1 := fun _ => Code.builds_of_mem_build
  refine ⟨m, fun fuel => ?_, solved.realizes exact' all fun _ => nofun⟩
  rw [advance_of_not_compares none fuel enough, ran]

/-- The heap that a query has built stands for the term with any values of its variables. -/
theorem Realizes.exists_solution (exact' : a.Exact t) {count : Nat} {m : Machine}
    (realizes : Realizes a (new count .unlimited) ∅ m) {τ : Type} [Trees τ] (θ : String → τ) :
    ∃ σ : Address → τ, m.heap.Solution σ ∧ m.value σ 0 = Term.eval θ t ∧
      ∀ x name, .var x name ∈ a.root.preorder → m.value σ x = θ name := by
  obtain ⟨ρ, holds, _, vars⟩ := exists_registers exact' θ
  obtain ⟨σ, _, sol, same⟩ := realizes.complete
    ⟨solution_new count fun _ => ρ 0, fun _ => nofun⟩ holds
  have names : ∀ x name, .var x name ∈ a.root.preorder → m.value σ x = θ name := fun x name part =>
    (same _ part).symm.trans (vars x name part)
  exact ⟨σ, sol, realizes.root exact' sol names, names⟩

/-! ## Programs -/

theorem program_lead (exact' : a.Exact t) {m : Machine} (ready : m.Ready) (idle : m.cursor = .idle)
    (le : a.registerCount ≤ m.registers.count) {root : Address}
    (held : m.registers.held 0 = some root) (fuel : Nat) :
    Leads fuel m.registers.count
      (fun τ _ ρ => ∃ σ : Address → τ, m.heap.Solution σ ∧ ρ 0 = σ root ∧
        ∀ n ∈ a.root.preorder, n.Holds ρ)
      (Realizes a m {0}) (m.advance fuel (Code.matchAll [] a.nodes)) := by
  obtain ⟨nodes, blocks, all⟩ := Code.program_blocks exact'
  have holds : ∀ y ∈ ({0} : Set Register), ∃ b, m.registers.held y = some b := by
    rintro y rfl
    exact ⟨root, held⟩
  have parts : ∀ y ∈ ({0} : Set Register), ∃ n ∈ a.root.preorder, n.register = y := by
    rintro y rfl
    exact ⟨a.root, Node.mem_preorder_self _, exact'.register⟩
  refine (blocks_lead blocks ready idle le holds).imp ?_ fun solved =>
    solved.realizes exact' all parts
  rintro τ _ ρ ⟨σ, sol, here, equations⟩
  refine ⟨σ, ⟨sol, ?_⟩, fun n hn => equations n ((all n).mp hn).1⟩
  rintro y rfl
  rw [here, value_of_held held]

/-! ## Whole runs -/

theorem run_new (count fuel : Nat) (is : List Instruction) :
    (new count .unlimited).run fuel is = goOn fuel [] ((new count .unlimited).advance fuel is) :=
  execute_eq_advance fuel (new count .unlimited) is

/-- A run after one that has succeeded goes on where that one ended. -/
theorem Ready.run_succeeded {m : Machine} (ready : m.Ready) (fuel : Nat) (is : List Instruction) :
    ({ m with status := .succeeded } : Machine).run fuel is =
      goOn fuel [] (m.advance fuel is) := by
  have same : ({ m with status := .running } : Machine) = m := by
    obtain ⟨status, cursor, registers, heap, steps, maxSteps⟩ := m
    have running : status = .running := ready.running
    rw [running]
  rw [← execute_eq_advance]
  show ({ m with status := .running } : Machine).execute fuel is = m.execute fuel is
  rw [same]

theorem goOn_done {m : Machine} (idle : m.cursor = .idle) (fuel : Nat) :
    goOn fuel [] (.done m) = .ok { m with status := .succeeded } := by
  have verified := (Cursor.verifyIdle_eq_ok_iff m.cursor).mpr idle
  simp only [goOn, execute, verified]

/-! ## Compiled units -/

/-- On a machine of its own the query has been built at `root`, and the program can be matched. -/
structure Posed (query program : Term) (m : Machine) (root : Address) : Prop where
  exactQuery : (Allocation.ofTerm query).Exact query
  exactProgram : (Allocation.ofTerm program).Exact program
  built : Realizes (Allocation.ofTerm query)
    (new (CompiledUnit.ofTerms query program).registerCount .unlimited) ∅ m
  root : m.registers.held 0 = some root
  run : ∀ fuel, (new (CompiledUnit.ofTerms query program).registerCount .unlimited).run fuel
    (CompiledUnit.ofTerms query program).query.instructions = .ok { m with status := .succeeded }

/-- A query that is an application is built, however little work is allowed. -/
theorem exists_built (f : String) (ss : List Term) {count : Nat}
    (le : (Allocation.ofTerm (.compound f ss)).registerCount ≤ count) :
    ∃ m root, Realizes (Allocation.ofTerm (.compound f ss)) (new count .unlimited) ∅ m ∧
      m.registers.held 0 = some root ∧
      ∀ fuel, (new count .unlimited).run fuel (CompiledTerm.query (.compound f ss)).instructions =
        .ok { m with status := .succeeded } := by
  have exact' := Allocation.exact_ofTerm f ss
  obtain ⟨m, done, realizes⟩ := query_done exact' le
  obtain ⟨root, held⟩ := realizes.held _ (Node.mem_preorder_self _)
  rw [exact'.register] at held
  refine ⟨m, root, realizes, held, fun fuel => ?_⟩
  refine (run_new _ fuel _).trans ?_
  rw [← goOn_done realizes.idle fuel]
  exact congrArg (goOn fuel []) (done fuel)

theorem exists_posed (f g : String) (ss ts : List Term) :
    ∃ m root, Posed (.compound f ss) (.compound g ts) m root := by
  obtain ⟨m, root, realizes, held, run⟩ := exists_built f ss (Nat.le_max_left _
    (Allocation.ofTerm (.compound g ts)).registerCount)
  exact ⟨m, root, Allocation.exact_ofTerm f ss, Allocation.exact_ofTerm g ts, realizes, held, run⟩

variable {query program : Term} {m : Machine} {root : Address}

theorem Posed.lead (posed : Posed query program m root) (fuel : Nat) :
    Leads fuel m.registers.count
      (fun τ _ ρ => ∃ σ : Address → τ, m.heap.Solution σ ∧ ρ 0 = σ root ∧
        ∀ n ∈ (Allocation.ofTerm program).root.preorder, n.Holds ρ)
      (Realizes (Allocation.ofTerm program) m {0})
      (m.advance fuel (CompiledUnit.ofTerms query program).program.instructions) := by
  refine program_lead posed.exactProgram posed.built.ready posed.built.idle ?_ posed.root fuel
  rw [posed.built.count]
  exact (Nat.le_max_right ..).trans_eq (Registers.count_new _).symm

theorem Posed.reads (posed : Posed query program m root) {τ : Type} [Trees τ] {σ : Address → τ}
    {ρ : Register → τ} (sol : m.heap.Solution σ) (here : ρ 0 = σ root) : m.Reads {0} σ ρ := by
  refine ⟨sol, ?_⟩
  rintro y rfl
  rw [here, value_of_held posed.root]

theorem Posed.exists_common (posed : Posed query program m root) {τ : Type} [Trees τ]
    {θ ψ : String → τ} (same : Term.eval θ query = Term.eval ψ program) :
    ∃ (σ : Address → τ) (ρ : Register → τ), m.heap.Solution σ ∧ ρ 0 = σ root ∧
      (∀ n ∈ (Allocation.ofTerm program).root.preorder, n.Holds ρ) ∧
      (∀ x name, .var x name ∈ (Allocation.ofTerm query).root.preorder →
        m.value σ x = θ name) ∧
      ∀ x name, .var x name ∈ (Allocation.ofTerm program).root.preorder → ρ x = ψ name := by
  obtain ⟨σ, sol, here, vars⟩ := posed.built.exists_solution posed.exactQuery θ
  obtain ⟨ρ, holds, root', vars'⟩ := exists_registers posed.exactProgram ψ
  rw [value_of_held posed.root] at here
  exact ⟨σ, ρ, sol, root'.trans (same.symm.trans here.symm), holds, vars, vars'⟩

end Machine

end TermMachine
