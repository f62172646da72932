import TermMachine.Proofs.Compilation

/-! # What compiled code asks of the machine

`compiled_contract`: every query and program whose arities fit can be compiled, and their code keeps
to the rules of the machine. Its registers exist, a structure is complete before the next one is
started, and none is left open at the end of a run. Nothing is an error but one case: the code of a
program cannot match an application against a query for which nothing has been built, which is any
query that is no application itself.
-/

namespace TermMachine

def TermOf.isCallable {ν : Type} : TermOf ν → Bool
  | .compound _ _ => true
  | .atom _ | .number _ | .var _ => false

namespace CompiledTerm

theorem query_not_callable {t : Term} (bare : t.isCallable = false) :
    (query t).instructions = [] := by
  cases t with
  | atom name => rfl
  | number value => rfl
  | var name => rfl
  | compound name args => cases bare

theorem program_not_callable {t : Term} (bare : t.isCallable = false) :
    (program t).instructions = [] := by
  cases t with
  | atom name => rfl
  | number value => rfl
  | var name => rfl
  | compound name args => cases bare

/-- The code that matches an application begins with the whole of it. -/
theorem program_callable {t : Term} (callable : t.isCallable = true) :
    ∃ s rest, (program t).instructions = .getStructure s 0 :: rest := by
  cases t with
  | atom name => cases callable
  | number value => cases callable
  | var name => cases callable
  | compound name args =>
      have exact' := Allocation.exact_ofTerm name args
      obtain ⟨n, part, own, first⟩ := Allocation.exists_node (.compound name args)
        (exact'.register_lt (Node.mem_preorder_self _))
      rw [exact'.register] at own first
      have root : n = (Allocation.ofTerm (.compound name args)).root :=
        exact'.apart n part _ (Node.mem_preorder_self _) (own.trans exact'.register.symm)
      have compound := exact'.compound
      rw [← root] at compound
      cases n with
      | constant x => cases compound
      | var x v => cases compound
      | compound x f as =>
          obtain rfl : x = 0 := own
          obtain ⟨nodes, listed⟩ : ∃ nodes,
              (Allocation.ofTerm (.compound name args)).nodes = .compound 0 f as :: nodes := by
            rw [← List.head?_eq_getElem?] at first
            exact ⟨_, (List.eq_cons_of_mem_head? first)⟩
          refine ⟨⟨f, as.length⟩, (Code.unifyArguments [] as).1 ++
            Code.matchAll (Code.unifyArguments [] as).2 nodes, ?_⟩
          simp only [program, listed, Code.matchAll_compound, List.cons_append]

theorem registerCount_pos (t : Term) : 0 < (query t).registerCount := by
  cases t with
  | atom name => exact Nat.one_pos
  | number value => exact Nat.one_pos
  | var name => exact Nat.one_pos
  | compound name args =>
      have exact' := Allocation.exact_ofTerm name args
      have lt := exact'.register_lt (Node.mem_preorder_self _)
      exact exact'.register ▸ lt

theorem register_lt_query (t : Term) :
    ∀ i ∈ (query t).instructions, i.register < (query t).registerCount := by
  by_cases callable : t.isCallable = true
  · cases t with
    | atom name => cases callable
    | number value => cases callable
    | var name => cases callable
    | compound name args =>
        obtain ⟨nodes, blocks, _⟩ := Code.query_blocks (Allocation.exact_ofTerm name args)
        exact blocks.register_lt fun _ => nofun
  · rw [query_not_callable (Bool.eq_false_iff.mpr callable)]
    exact nofun

theorem register_lt_program (t : Term) :
    ∀ i ∈ (program t).instructions, i.register < (program t).registerCount := by
  by_cases callable : t.isCallable = true
  · have pos : 0 < (program t).registerCount := registerCount_pos t
    cases t with
    | atom name => cases callable
    | number value => cases callable
    | var name => cases callable
    | compound name args =>
        obtain ⟨nodes, blocks, _⟩ := Code.program_blocks (Allocation.exact_ofTerm name args)
        exact blocks.register_lt fun y mem => mem ▸ pos
  · rw [program_not_callable (Bool.eq_false_iff.mpr callable)]
    exact nofun

end CompiledTerm

namespace Machine

/-- No structure is active, and all that have been started have their arguments. -/
structure Closed (m : Machine) : Prop where
  idle : m.cursor = .idle
  filled : ∀ {p : Address} {s : Symbol}, m.heap.cells[p]? = some (.symbol s) →
    m.heap.Filled p s.arity

theorem Ready.closed {m : Machine} (ready : m.Ready) (idle : m.cursor = .idle) : m.Closed :=
  ⟨idle, (ready.heap idle).arguments⟩

theorem Closed.succeeded {m : Machine} (closed : m.Closed) :
    Closed { m with status := .succeeded } := ⟨closed.idle, closed.filled⟩

/-! ## Failures -/

theorem Stored.not_failed {m m' : Machine} {x : Register} {b : Address}
    (stored : m.Stored x b (.failed m')) : False := by cases stored

/-- A unification that fails leaves no structure active. -/
theorem Transition.idle_of_failed {fuel : Nat} {m m' : Machine} {i : Instruction}
    (t : Transition fuel m i (.failed m')) : m'.cursor = .idle := by
  have newCell {x : Register} (added : m.NewVariable x (.failed m')) : False := by
    cases added with
    | added _ stored => exact stored.not_failed
  cases t with
  | put _ _ stored => exact stored.not_failed.elim
  | setVariable added => exact (newCell added).elim
  | setValue copied => cases copied
  | getFailed _ _ _ => rfl
  | unifyVariableWrite _ _ added => exact (newCell added).elim
  | unifyVariableRead _ _ stored => exact stored.not_failed.elim
  | unifyValueWrite _ _ copied => cases copied
  | unifyValueRead _ _ _ unified =>
      cases unified
      rfl

theorem WellFormed.idle_of_failed {m m' : Machine} (wf : m.WellFormed)
    (alive : m.status ≠ .failed) {fuel : Nat} {is : List Instruction}
    (failed : m.advance fuel is = .failed m') : m'.cursor = .idle := by
  obtain ⟨_, _, _, t⟩ := wf.exists_transition alive failed (.failed m')
  exact t.idle_of_failed

/-! ## Cuts -/

/-- Between the blocks of code no structure is active. -/
theorem closed_of_cut {count : Nat} {known : Set Register} {is before after : List Instruction}
    {nodes : List Node} (blocks : Code.Blocks count known is nodes) {i : Instruction}
    (split : is = before ++ i :: after) (starts : i.Starts) {m m' : Machine} (ready : m.Ready)
    (idle : m.cursor = .idle) (le : count ≤ m.registers.count)
    (holds : ∀ y ∈ known, ∃ b, m.registers.held y = some b) {fuel : Nat}
    (done : m.advance fuel before = .done m') : m'.Closed := by
  obtain ⟨nodes₁, nodes₂, _, cut⟩ := blocks.cut split starts
  have leads := @blocks_lead fuel _ _ _ _ cut _ ready idle le holds
  rw [done] at leads
  cases leads with
  | done solved => exact solved.grown.ready.closed solved.idle

/-! ## Queries and programs -/

/-- The query has been run on a machine of its own. Register 0 leads to the query if it is an
application, and otherwise to nothing. -/
structure Asked (query : Term) (count : Nat) (m : Machine) : Prop where
  ready : m.Ready
  idle : m.cursor = .idle
  registers : m.registers.count = count
  done : ∀ fuel, (new count .unlimited).advance fuel (CompiledTerm.query query).instructions =
    .done m
  root : query.isCallable = true → ∃ b, m.registers.held 0 = some b
  bare : query.isCallable = false → m.registers.load 0 = .error (.noValue 0)

theorem exists_asked (query : Term) {count : Nat}
    (le : (CompiledTerm.query query).registerCount ≤ count) : ∃ m, Asked query count m := by
  have pos : 0 < count := Nat.lt_of_lt_of_le (CompiledTerm.registerCount_pos query) le
  have registers : (new count .unlimited).registers.count = count := Registers.count_new count
  by_cases callable : query.isCallable = true
  · cases query with
    | atom name => cases callable
    | number value => cases callable
    | var name => cases callable
    | compound name args =>
        have exact' := Allocation.exact_ofTerm name args
        obtain ⟨m, done, realizes⟩ := query_done exact' le
        refine ⟨m, realizes.ready, realizes.idle, realizes.count.trans registers, done,
          fun _ => ?_, nofun⟩
        have held := realizes.held _ (Node.mem_preorder_self _)
        rwa [exact'.register] at held
  · have bare := Bool.eq_false_iff.mpr callable
    refine ⟨new count .unlimited, ready_new count, rfl, registers, fun fuel => ?_,
      fun callable' => absurd callable' callable, fun _ => ?_⟩
    · rw [CompiledTerm.query_not_callable bare]
      rfl
    · simp [new, Registers.new, Registers.load, Registers.get, pos]

variable {query program : Term} {count : Nat} {m : Machine}

theorem Asked.run (asked : Asked query count m) (fuel : Nat) :
    (new count .unlimited).run fuel (CompiledTerm.query query).instructions =
      .ok { m with status := .succeeded } := by
  rw [run_new, asked.done fuel, goOn_done asked.idle]

theorem closed_in_query {before after : List Instruction} {i : Instruction}
    (le : (CompiledTerm.query query).registerCount ≤ count)
    (split : (CompiledTerm.query query).instructions = before ++ i :: after) (starts : i.Starts)
    {fuel : Nat} (done : (new count .unlimited).advance fuel before = .done m) : m.Closed := by
  by_cases callable : query.isCallable = true
  · cases query with
    | atom name => cases callable
    | number value => cases callable
    | var name => cases callable
    | compound name args =>
        obtain ⟨nodes, blocks, _⟩ := Code.query_blocks (Allocation.exact_ofTerm name args)
        have allowed : (Allocation.ofTerm (.compound name args)).registerCount ≤
            (new count .unlimited).registers.count := le.trans_eq (Registers.count_new count).symm
        exact closed_of_cut blocks split starts (ready_new count) rfl allowed (fun _ => nofun) done
  · rw [CompiledTerm.query_not_callable (Bool.eq_false_iff.mpr callable)] at split
    simp at split

/-- A program that is an application cannot be matched against a query that is none. -/
theorem Asked.advance_bare (asked : Asked query count m) (bare : query.isCallable = false)
    {s : Symbol} (fuel : Nat) (rest : List Instruction) :
    m.advance fuel (.getStructure s 0 :: rest) = .error (.register (.noValue 0)) m.counted := by
  have loaded : m.counted.registers.load 0 = .error (.noValue 0) := asked.bare bare
  rw [asked.ready.advance_cons]
  simp only [step, getStructure, loaded, Effect.bind]

theorem Asked.closed_in_program (asked : Asked query count m)
    (le : (CompiledTerm.program program).registerCount ≤ count)
    {before after : List Instruction} {i : Instruction}
    (split : (CompiledTerm.program program).instructions = before ++ i :: after)
    (starts : i.Starts) {fuel : Nat} {m' : Machine} (done : m.advance fuel before = .done m') :
    m'.Closed := by
  by_cases callable : program.isCallable = true
  · by_cases built : query.isCallable = true
    · cases program with
      | atom name => cases callable
      | number value => cases callable
      | var name => cases callable
      | compound name args =>
          obtain ⟨nodes, blocks, _⟩ := Code.program_blocks (Allocation.exact_ofTerm name args)
          exact closed_of_cut blocks split starts asked.ready asked.idle
            (le.trans_eq asked.registers.symm) (fun y mem => mem ▸ asked.root built) done
    · obtain ⟨s, rest, first⟩ := CompiledTerm.program_callable callable
      rcases before with _ | ⟨j, before⟩
      · cases done
        exact asked.ready.closed asked.idle
      · obtain rfl : Instruction.getStructure s 0 = j := (List.cons.inj (first.symm.trans split)).1
        rw [asked.advance_bare (Bool.eq_false_iff.mpr built)] at done
        cases done
  · rw [CompiledTerm.program_not_callable (Bool.eq_false_iff.mpr callable)] at split
    simp at split

inductive Ended : Effect → Prop
  | done {m : Machine} (closed : m.Closed) : Ended (.done m)
  | failed {m : Machine} (idle : m.cursor = .idle) : Ended (.failed m)
  | unfinished {m : Machine} : Ended (.unfinished m)

theorem Asked.ended (asked : Asked query count m)
    (le : (CompiledTerm.program program).registerCount ≤ count)
    (fits : program.isCallable = true → query.isCallable = true) (fuel : Nat) :
    Ended (m.advance fuel (CompiledTerm.program program).instructions) := by
  by_cases callable : program.isCallable = true
  · cases program with
    | atom name => cases callable
    | number value => cases callable
    | var name => cases callable
    | compound name args =>
        have exact' := Allocation.exact_ofTerm name args
        obtain ⟨b, root⟩ := asked.root (fits callable)
        have leads := program_lead exact' asked.ready asked.idle (le.trans_eq asked.registers.symm)
          root fuel
        have failure {m' : Machine}
            (failed : m.advance fuel (CompiledTerm.program (.compound name args)).instructions =
              .failed m') : m'.cursor = .idle :=
          asked.ready.wellFormed.idle_of_failed asked.ready.alive failed
        show Ended (m.advance fuel (Code.matchAll [] _))
        generalize ended : m.advance fuel (Code.matchAll [] _) = effect at leads
        cases leads with
        | done realizes => exact .done (realizes.ready.closed realizes.idle)
        | failed _ => exact .failed (failure ended)
        | unfinished _ => exact .unfinished
  · rw [CompiledTerm.program_not_callable (Bool.eq_false_iff.mpr callable)]
    exact .done (asked.ready.closed asked.idle)

/-- The run of a program fails to find a value in register 0, or it ends well. -/
theorem Asked.outcome (asked : Asked query count m)
    (le : (CompiledTerm.program program).registerCount ≤ count) (fuel : Nat) :
    let outcome := goOn fuel [] (m.advance fuel (CompiledTerm.program program).instructions)
    ((∃ e m', outcome = .error e m') ↔ query.isCallable = false ∧ program.isCallable = true) ∧
      (∀ e m', outcome = .error e m' → e = .register (.noValue 0) ∧ m'.cursor = .idle) ∧
      ∀ m', outcome = .ok m' → m'.cursor = .idle ∧ (m'.hasFailed = false → m'.Closed) := by
  by_cases bare : query.isCallable = false ∧ program.isCallable = true
  · obtain ⟨s, rest, first⟩ := CompiledTerm.program_callable bare.2
    rw [first, asked.advance_bare bare.1 fuel rest]
    refine ⟨⟨fun _ => bare, fun _ => ⟨_, _, rfl⟩⟩, fun e m' error => ?_,
      fun _ same => nomatch same⟩
    cases error
    exact ⟨rfl, asked.idle⟩
  · have built : program.isCallable = true → query.isCallable = true := fun callable => by
      by_contra other
      exact bare ⟨Bool.eq_false_iff.mpr other, callable⟩
    have ended := asked.ended le built fuel
    generalize m.advance fuel (CompiledTerm.program program).instructions = effect at ended ⊢
    -- an outcome that is no error is no error of the bare case either
    have fine {o : Outcome} (well : ∀ e m', o ≠ .error e m') :
        (∃ e m', o = .error e m') ↔ query.isCallable = false ∧ program.isCallable = true :=
      ⟨fun ⟨e, m', same⟩ => absurd same (well e m'), fun bare' => absurd bare' bare⟩
    cases ended with
    | done closed =>
        rw [goOn_done closed.idle]
        refine ⟨fine fun _ _ same => (nomatch same), fun _ _ same => (nomatch same),
          fun m' same => ?_⟩
        cases same
        exact ⟨closed.idle, fun _ => closed.succeeded⟩
    | failed idle =>
        refine ⟨fine fun _ _ same => (nomatch same), fun _ _ same => (nomatch same),
          fun m' same => ?_⟩
        cases same
        exact ⟨idle, nofun⟩
    | unfinished =>
        exact ⟨fine fun _ _ same => (nomatch same), fun _ _ same => (nomatch same),
          fun _ same => nomatch same⟩

end Machine

open Machine

/-- Code that has been compiled keeps to the rules of the machine. The only error is that a program
finds register 0 without a value, and it is made exactly if the program is an application and the
query is none. -/
theorem compiled_contract (query program : Term) (queryFits : query.Fits)
    (programFits : program.Fits) :
    ∃ u, CompiledUnit.compile query program = .ok u ∧
      (∀ i ∈ u.instructions, i.register < u.registerCount) ∧
      (∀ before i after, u.query.instructions = before ++ i :: after → i.Starts →
        ∀ fuel m, (new u.registerCount .unlimited).advance fuel before = .done m → m.Closed) ∧
      ∃ built,
        (∀ fuel, (new u.registerCount .unlimited).run fuel u.query.instructions = .ok built) ∧
        built.status = .succeeded ∧ built.Closed ∧
        (∀ before i after, u.program.instructions = before ++ i :: after → i.Starts →
          ∀ fuel m, { built with status := .running }.advance fuel before = .done m → m.Closed) ∧
        ∀ fuel,
          ((∃ e m, built.run fuel u.program.instructions = .error e m) ↔
            query.isCallable = false ∧ program.isCallable = true) ∧
          (∀ e m, built.run fuel u.program.instructions = .error e m →
            e = .register (.noValue 0) ∧ m.cursor = .idle) ∧
          ∀ m, built.run fuel u.program.instructions = .ok m →
            m.cursor = .idle ∧ (m.hasFailed = false → m.Closed) := by
  let u := CompiledUnit.ofTerms query program
  have queryRegisters : u.query.registerCount ≤ u.registerCount := Nat.le_max_left ..
  have programRegisters : u.program.registerCount ≤ u.registerCount := Nat.le_max_right ..
  obtain ⟨m, asked⟩ := exists_asked query queryRegisters
  have resumed : { m with status := .running } = m := by
    obtain ⟨status, cursor, registers, heap, steps, maxSteps⟩ := m
    have running : status = .running := asked.ready.running
    rw [running]
  refine ⟨u, CompiledUnit.compile_eq_ok_iff.mpr ⟨queryFits, programFits, rfl⟩, ?_, ?_,
    { m with status := .succeeded }, asked.run, rfl,
    (asked.ready.closed asked.idle).succeeded, ?_, fun fuel => ?_⟩
  · refine List.forall_mem_append.mpr ⟨fun i mem => ?_, fun i mem => ?_⟩
    · exact Nat.lt_of_lt_of_le (CompiledTerm.register_lt_query query i mem) queryRegisters
    · exact Nat.lt_of_lt_of_le (CompiledTerm.register_lt_program program i mem) programRegisters
  · intro before i after split starts fuel m' done
    exact closed_in_query queryRegisters split starts done
  · intro before i after split starts fuel m' done
    rw [show ({ m with status := .running } : Machine) = m from resumed] at done
    exact asked.closed_in_program programRegisters split starts done
  · rw [asked.ready.run_succeeded]
    exact asked.outcome programRegisters fuel

/-- Nothing is built for the query `X`, so `f(a)` finds nothing to be matched against. -/
theorem compiled_contract_bare :
    let query : Term := .var "X"
    let program : Term := .compound "f" [.atom "a"]
    query.Fits ∧ program.Fits ∧
      ∃ u built, CompiledUnit.compile query program = .ok u ∧
        (∀ fuel, (new u.registerCount .unlimited).run fuel u.query.instructions = .ok built) ∧
        ∀ fuel, ∃ m,
          built.run fuel u.program.instructions = .error (.register (.noValue 0)) m := by
  intro query program
  have queryFits : query.Fits := Term.tooWide?_eq_none_iff.mp (by decide)
  have programFits : program.Fits := Term.tooWide?_eq_none_iff.mp (by decide)
  obtain ⟨u, compiled, _, _, built, ran, _, _, _, ended⟩ :=
    compiled_contract query program queryFits programFits
  refine ⟨queryFits, programFits, u, built, compiled, ran, fun fuel => ?_⟩
  obtain ⟨errs, only, _⟩ := ended fuel
  obtain ⟨e, m, error⟩ := errs.mpr ⟨rfl, rfl⟩
  obtain ⟨rfl, _⟩ := only e m error
  exact ⟨m, error⟩

end TermMachine
