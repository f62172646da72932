import TermMachine.Proofs.Machine.Persistence
import TermMachine.Proofs.Solving.Building

/-! # Matching without binding

The code of a program can leave the heap as it is: it then has found everything it looked for, and
nothing was bound. `matches_iff_instance` says when this happens. It happens exactly if the query is
an instance of the program. That it does then is known from what the final heap can stand for: if
only variables of the program were replaced, every variable of the query still stands for itself,
and a variable that had been bound would not.
-/

namespace TermMachine

namespace Term

/-- The query comes from the program by replacing variables, if both are read as the machine does.
They are replaced by terms over the variables of the query. -/
def IsInstance (query program : Term) : Prop :=
  ∃ s : String → Term, (∀ v ∈ program.vars, ∀ w ∈ (s v).vars, w ∈ query.vars) ∧
    subst s (erase program) = erase query

theorem subst_var (t : Term) : subst .var t = t := by
  induction t using TermOf.induction with
  | atom name => rfl
  | number value => rfl
  | var name => rfl
  | compound name args ih =>
      rw [subst, substAll_eq_map, List.map_congr_left ih, List.map_id']

theorem eval_var (t : Term) : eval .var t = erase t := by
  rw [← subst_erase, subst_var]

theorem occurrences_apply (name : String) (ts : List Term) :
    (apply name ts).occurrences = ts.flatMap TermOf.occurrences := by
  cases ts with
  | nil => rfl
  | cons t ts => exact occurrencesAll_eq_flatMap (t :: ts)

/-- The variables of a term are found in it after numbers are read as atoms. -/
theorem occurrences_erase (t : Term) : (erase t).occurrences = t.occurrences := by
  induction t using TermOf.induction with
  | atom name => rfl
  | number value => rfl
  | var name => rfl
  | compound name args ih =>
      rw [erase, occurrences_apply, eraseAll_eq_map, List.flatMap_map, TermOf.occurrences,
        occurrencesAll_eq_flatMap, List.flatMap_congr ih]

/-- What a variable is replaced by is found in the result. -/
theorem mem_occurrences_subst {s : String → Term} {t : Term} {v w : String}
    (occurs : v ∈ t.occurrences) (inside : w ∈ (s v).occurrences) :
    w ∈ (subst s t).occurrences := by
  induction t using TermOf.induction with
  | atom name => cases occurs
  | number value => cases occurs
  | var name =>
      obtain rfl := List.mem_singleton.mp occurs
      exact inside
  | compound name args ih =>
      rw [TermOf.occurrences, occurrencesAll_eq_flatMap, List.mem_flatMap] at occurs
      obtain ⟨t, mem, occurs⟩ := occurs
      rw [subst, substAll_eq_map, TermOf.occurrences, occurrencesAll_eq_flatMap]
      exact List.mem_flatMap.mpr ⟨_, List.mem_map_of_mem mem, ih t mem occurs⟩

/-- The replacement in an instance needs no other variables. -/
theorem isInstance_of_subst {query program : Term} {s : String → Term}
    (same : subst s (erase program) = erase query) : query.IsInstance program := by
  refine ⟨s, fun v hv w hw => ?_, same⟩
  have occurs : v ∈ (erase program).occurrences := by
    rw [occurrences_erase]
    exact List.mem_eraseDups.mp hv
  have inside := mem_occurrences_subst occurs (List.mem_eraseDups.mp hw)
  rw [same, occurrences_erase] at inside
  exact List.mem_eraseDups.mpr inside

theorem isInstance_refl (t : Term) : t.IsInstance t := isInstance_of_subst (subst_var (erase t))

end Term

namespace Code

/-- Arguments are noted or compared, and nothing else is done with them. -/
theorem exists_of_mem_unifyArguments {seen : Seen} {nodes : List Node} {i : Instruction}
    (mem : i ∈ (unifyArguments seen nodes).1) : ∃ x, i = .unifyVariable x ∨ i = .unifyValue x := by
  induction nodes generalizing seen with
  | nil => cases mem
  | cons node nodes ih =>
      simp only [unifyArguments, List.mem_cons] at mem
      rcases mem with rfl | mem
      · unfold unifyArgument
        split
        · split
          · exact ⟨_, .inr rfl⟩
          · exact ⟨_, .inl rfl⟩
        · exact ⟨_, .inl rfl⟩
      · exact ih mem

theorem matches_of_mem_matchAll {seen : Seen} {nodes : List Node} {i : Instruction}
    (mem : i ∈ matchAll seen nodes) : i.Matches := by
  induction nodes generalizing seen with
  | nil => cases mem
  | cons node nodes ih =>
      cases node with
      | constant x => exact ih mem
      | var x name => exact ih mem
      | compound x name args =>
          simp only [matchAll, List.cons_append, List.mem_cons, List.mem_append] at mem
          rcases mem with rfl | mem | mem
          · trivial
          · obtain ⟨y, rfl | rfl⟩ := exists_of_mem_unifyArguments mem <;> trivial
          · exact ih mem

end Code

/-- Registers for the parts of a term that agree about the whole agree about all parts. -/
theorem Node.holds_unique {root : Node} {τ : Type} [Trees τ] {ρ ρ' : Register → τ}
    (holds : ∀ n ∈ root.preorder, n.Holds ρ) (holds' : ∀ n ∈ root.preorder, n.Holds ρ')
    (same : ρ root.register = ρ' root.register) :
    ∀ n ∈ root.preorder, ρ n.register = ρ' n.register := by
  induction root using Node.induction with
  | constant x =>
      intro n part
      obtain rfl : n = .constant x := by simpa [preorder] using part
      exact same
  | var x name =>
      intro n part
      obtain rfl : n = .var x name := by simpa [preorder] using part
      exact same
  | compound x name args ih =>
      have whole : ρ x = Trees.node name (args.map fun arg => ρ arg.register) :=
        holds _ (mem_preorder_self _)
      have whole' : ρ' x = Trees.node name (args.map fun arg => ρ' arg.register) :=
        holds' _ (mem_preorder_self _)
      have below := (Trees.node_inj (whole.symm.trans (same.trans whole'))).2
      intro n part
      rcases mem_preorder_compound.mp part with rfl | ⟨arg, mem, inside⟩
      · exact same
      · have within {k : Node} (hk : k ∈ arg.preorder) :
            k ∈ (Node.compound x name args).preorder :=
          mem_preorder_compound.mpr (.inr ⟨arg, mem, hk⟩)
        exact ih arg mem (fun k hk => holds k (within hk)) (fun k hk => holds' k (within hk))
          (List.map_inj_left.mp below arg mem) n inside

/-- If each unbound variable stands for itself before and after, none has been bound. -/
theorem Heap.Persists.not_boundSince {h h' : Heap} (persists : h.Persists h')
    (grows : h.GrowsTo h') (linked : h'.Linked) (wf : h'.WellFormed) {σ σ' : Address → Term}
    (sol : h'.Solution σ') (same : ∀ a < h.top, σ' a = σ a)
    (free : ∀ b : Address, h.cells[b]? = some (.ref b) → ∃ v, σ b = .var v)
    (apart : ∀ b c : Address, h.cells[b]? = some (.ref b) → h.cells[c]? = some (.ref c) →
      σ b = σ c → b = c) : ¬h.BoundSince h' := by
  rintro ⟨b, cell, unbound, now, bound⟩
  have lt := lt_top_of_cell unbound
  obtain ⟨v, value⟩ := free b unbound
  rcases wf.value (grows.isTerm (.inl ⟨b, unbound⟩)) with ⟨c, hc⟩ | ⟨s, p, hp⟩
  · -- references lead down, so the chain ends at a variable that was there before
    have below : c ≤ b := linked.unbound_le hc
    have unbound' := persists.unbound (Nat.lt_of_le_of_lt below lt) hc.2
    have values : σ b = σ c := by
      rw [← same b lt, ← same c (Nat.lt_of_le_of_lt below lt)]
      exact sol.endsAt hc.1
    obtain rfl := apart b c unbound unbound' values
    exact bound (Option.some.inj (now.symm.trans hc.2))
  · have node := sol.compound hp
    rw [same b lt, value] at node
    exact Term.apply_ne_var _ _ _ node.symm

namespace Machine

variable {a : Allocation} {t : Term}

theorem exists_values (exact' : a.Exact t) (m : Machine) {τ : Type} (σ : Address → τ) :
    ∃ θ : String → τ, ∀ name b, (name, some b) ∈ found a t m → θ name = σ b := by
  refine ⟨fun name => σ (((found a t m).lookup name).join.getD 0), fun name b mem => ?_⟩
  have found' := lookup_of_nodup (nodup_found exact' m) mem
  show σ (((found a t m).lookup name).join.getD 0) = σ b
  rw [found']
  rfl

/-- In a heap that a query has built, what stands for the variables tells the unbound cells
apart. -/
theorem Realizes.exists_name (exact' : a.Exact t) {count : Nat} {m : Machine}
    (realizes : Realizes a (new count .unlimited) ∅ m) {σ : Address → Term}
    (sol : m.heap.Solution σ)
    (vars : ∀ x name, .var x name ∈ a.root.preorder → m.value σ x = .var name) :
    ∃ cell : String → Address, ∀ b : Address, m.heap.cells[b]? = some (.ref b) →
      ∃ v, σ b = .var v ∧ cell v = b := by
  obtain ⟨cell, cells, _⟩ := realizes.exists_cells exact'
  refine ⟨cell, fun b unbound => ?_⟩
  obtain ⟨v, occurs, rfl⟩ := (realizes.unbound_iff exact' cells b).mp unbound
  obtain ⟨x, part, _⟩ := CompiledTerm.exists_part exact' occurs
  obtain ⟨b, held, ends, _⟩ := cells x v part
  refine ⟨v, ?_, rfl⟩
  rw [← vars x v part, value_of_held held, sol.endsAt ends]

variable {query program : Term} {m m' : Machine} {root : Address} {fuel : Nat}

/-- Nothing is bound if the query is an instance. -/
theorem Posed.heap_eq (posed : Posed query program m root)
    (matched : Realizes (Allocation.ofTerm program) m {0} m')
    (done : m.advance fuel (CompiledUnit.ofTerms query program).program.instructions = .done m')
    {s : String → Term} (same : Term.subst s (Term.erase program) = Term.erase query) :
    m'.heap = m.heap := by
  have ready := posed.built.ready
  have values : Term.eval .var query = Term.eval s program := by
    rw [Term.eval_var, ← same, Term.subst_erase]
  obtain ⟨σ, ρ, sol, here, holds, vars, _⟩ := posed.exists_common values
  obtain ⟨σ', below, sol', _⟩ := matched.complete (posed.reads sol here) holds
  obtain ⟨cell, names⟩ := posed.built.exists_name posed.exactQuery sol vars
  have matching := matching_advance (fun _ => Code.matches_of_mem_matchAll) ready.wellFormed
    ready.alive (matching_of_idle posed.built.idle) done
  rcases matching with ⟨heap, _⟩ | bound
  · exact heap
  · have persists := persists_advance ready.wellFormed ready.alive done
    have wf := matched.ready.heap matched.idle
    refine absurd bound (persists.not_boundSince matched.heap matched.ready.wellFormed.linked wf
      sol' below (fun b unbound => ?_) fun b c hb hc eq => ?_)
    · obtain ⟨v, value, _⟩ := names b unbound
      exact ⟨v, value⟩
    · obtain ⟨v, value, rfl⟩ := names b hb
      obtain ⟨w, value', rfl⟩ := names c hc
      rw [value, value'] at eq
      rw [TermOf.var.inj eq]

/-- If nothing is bound, the values of the program's variables make it equal to the query. -/
theorem Posed.isInstance (posed : Posed query program m root)
    (matched : Realizes (Allocation.ofTerm program) m {0} m') (heap : m'.heap = m.heap) :
    query.IsInstance program := by
  obtain ⟨σ, sol, whole, _⟩ := posed.built.exists_solution posed.exactQuery (.var : String → Term)
  obtain ⟨θ, values⟩ := exists_values posed.exactProgram m' σ
  have value := matched.eval_found posed.exactProgram (heap ▸ sol) values
  rw [value_of_held ((matched.keeps 0 rfl).trans posed.root), ← value_of_held posed.root σ, whole,
    Term.eval_var] at value
  refine Term.isInstance_of_subst (s := θ) ?_
  rw [Term.subst_erase, value]

/-- A query that is an instance is matched, given enough work. -/
theorem Posed.exists_done (posed : Posed query program m root)
    (isInstance : query.IsInstance program) :
    ∃ enough, ∀ fuel ≥ enough, ∃ m',
      m.advance fuel (CompiledUnit.ofTerms query program).program.instructions = .done m' ∧
        Realizes (Allocation.ofTerm program) m {0} m' ∧ m'.heap = m.heap := by
  obtain ⟨s, _, same⟩ := isInstance
  have values : Term.eval .var query = Term.eval s program := by
    rw [Term.eval_var, ← same, Term.subst_erase]
  obtain ⟨σ, ρ, sol, here, holds, _⟩ := posed.exists_common values
  obtain ⟨enough, done⟩ := exists_enough posed.lead ⟨σ, sol, here, holds⟩
  refine ⟨enough, fun fuel le => ?_⟩
  obtain ⟨m', ran, matched⟩ := done fuel le
  exact ⟨m', ran, matched, posed.heap_eq matched ran same⟩

/-- A term that is matched against itself is found in the registers it was built in, part by
part. -/
theorem Posed.decodes (posed : Posed t t m root)
    (matched : Realizes (Allocation.ofTerm t) m {0} m') (heap : m'.heap = m.heap) :
    ∃ cell : String → Address, (∀ v ∈ t.vars, ∀ w ∈ t.vars, cell v = cell w → v = w) ∧
      ∀ x < (Allocation.ofTerm t).registerCount, ∃ s ∈ t.preorder, ∃ b b',
        m.registers.held x = some b ∧ m'.registers.held x = some b' ∧
          m.heap.Decodes cell b s ∧ m'.heap.Decodes cell b' s := by
  have wf := posed.built.ready.heap posed.built.idle
  have wf' := matched.ready.heap matched.idle
  obtain ⟨cell, cells, distinct⟩ := posed.built.exists_cells posed.exactQuery
  have whole : m.value m.heap.tree 0 = m'.value m.heap.tree 0 := by
    rw [value_of_held posed.root, value_of_held ((matched.keeps 0 rfl).trans posed.root)]
  have same : ∀ n ∈ (Allocation.ofTerm t).root.preorder,
      m.value m.heap.tree n.register = m'.value m.heap.tree n.register := by
    refine Node.holds_unique (posed.built.equations wf.solution_tree)
      (matched.equations (heap ▸ wf.solution_tree)) ?_
    rwa [posed.exactQuery.register]
  have cells' : ∀ x name, .var x name ∈ (Allocation.ofTerm t).root.preorder →
      ∃ b, m'.registers.held x = some b ∧ m'.heap.Unbound b (cell name) := by
    intro x name part
    obtain ⟨b, held, unbound⟩ := cells x name part
    obtain ⟨b', held'⟩ := matched.held _ part
    refine ⟨b', held', wf'.unbound_of_tree (matched.ready.wellFormed.registers held') ?_⟩
    have value : m.value m.heap.tree x = m'.value m.heap.tree x := same _ part
    rw [Node.register] at held'
    rw [value_of_held held, value_of_held held', unbound.tree] at value
    rw [heap, value]
  refine ⟨cell, distinct, fun x lt => ?_⟩
  obtain ⟨n, part, rfl⟩ := Allocation.exists_part t lt
  obtain ⟨s, mem, repr⟩ := Node.exists_of_forall₂ posed.exactQuery.represents.preorder part
  obtain ⟨b, held, _, decodes⟩ := posed.built.decodes cells part repr
  obtain ⟨b', held', _, decodes'⟩ := matched.decodes cells' part repr
  exact ⟨s, mem, b, b', held, held', decodes, decodes'⟩

/-- The run ends well and leaves every cell as it was. -/
structure Untouched (m : Machine) (fuel : Nat) (is : List Instruction) (m' : Machine) : Prop where
  ran : m.run fuel is = .ok m'
  succeeded : m'.hasFailed = false
  heap : m'.heap = m.heap

theorem Posed.untouched (posed : Posed query program m root)
    (matched : Realizes (Allocation.ofTerm program) m {0} m') (heap : m'.heap = m.heap)
    (done : m.advance fuel (CompiledUnit.ofTerms query program).program.instructions = .done m') :
    Untouched { m with status := .succeeded } fuel
      (CompiledUnit.ofTerms query program).program.instructions
      { m' with status := .succeeded } := by
  refine ⟨?_, rfl, heap⟩
  rw [posed.built.ready.run_succeeded, done, goOn_done matched.idle]

theorem Posed.isInstance_of_untouched (posed : Posed query program m root)
    (untouched : Untouched { m with status := .succeeded } fuel
      (CompiledUnit.ofTerms query program).program.instructions m') :
    query.IsInstance program := by
  have ran := untouched.ran
  rw [posed.built.ready.run_succeeded] at ran
  have leads := posed.lead fuel
  generalize m.advance fuel (CompiledUnit.ofTerms query program).program.instructions = effect
    at leads ran
  cases leads with
  | unfinished _ => cases ran
  | failed _ =>
      cases ran
      exact absurd untouched.succeeded nofun
  | done matched =>
      rw [goOn_done matched.idle] at ran
      cases ran
      exact posed.isInstance matched untouched.heap

end Machine

open Machine

/-- A program is matched without any change to the heap exactly if the query is an instance of it. A
term that is matched against itself is found without any change, and every register leads to the
same subterm as when the term was built. -/
theorem matches_iff_instance (f g : String) (ss ts : List Term) :
    (let query : Term := .compound f ss
     let program : Term := .compound g ts
     let u := CompiledUnit.ofTerms query program
     ∃ built,
      (∀ fuel, (new u.registerCount .unlimited).run fuel u.query.instructions = .ok built) ∧
      ((∃ fuel m, built.Untouched fuel u.program.instructions m) ↔ query.IsInstance program) ∧
      (query.IsInstance program →
        ∃ enough, ∀ fuel ≥ enough, ∃ m, built.Untouched fuel u.program.instructions m)) ∧
    (let t : Term := .compound f ss
     let u := CompiledUnit.ofTerms t t
     ∃ built,
      (∀ fuel, (new u.registerCount .unlimited).run fuel u.query.instructions = .ok built) ∧
      ∃ enough, ∀ fuel ≥ enough, ∃ m, built.Untouched fuel u.program.instructions m ∧
        ∃ cell : String → Address, (∀ v ∈ t.vars, ∀ w ∈ t.vars, cell v = cell w → v = w) ∧
          ∀ x < u.registerCount, ∃ s ∈ t.preorder, ∃ b b',
            built.register x = .ok (some b) ∧ m.register x = .ok (some b') ∧
              built.heap.Decodes cell b s ∧ m.heap.Decodes cell b' s) := by
  constructor
  · intro query program u
    obtain ⟨m, root, posed⟩ := exists_posed f g ss ts
    have given (isInstance : query.IsInstance program) : ∃ enough, ∀ fuel ≥ enough, ∃ m',
        Untouched { m with status := .succeeded } fuel u.program.instructions m' := by
      obtain ⟨enough, all⟩ := posed.exists_done isInstance
      refine ⟨enough, fun fuel le => ?_⟩
      obtain ⟨m', done, matched, heap⟩ := all fuel le
      exact ⟨_, posed.untouched matched heap done⟩
    refine ⟨{ m with status := .succeeded }, posed.run, ⟨?_, fun isInstance => ?_⟩, given⟩
    · rintro ⟨fuel, m', untouched⟩
      exact posed.isInstance_of_untouched untouched
    · obtain ⟨enough, all⟩ := given isInstance
      exact ⟨enough, all enough (Nat.le_refl _)⟩
  · intro t u
    obtain ⟨m, root, posed⟩ := exists_posed f f ss ss
    obtain ⟨enough, all⟩ := posed.exists_done (Term.isInstance_refl t)
    refine ⟨{ m with status := .succeeded }, posed.run, enough, fun fuel le => ?_⟩
    obtain ⟨m', done, matched, heap⟩ := all fuel le
    obtain ⟨cell, distinct, registers⟩ := posed.decodes matched heap
    refine ⟨_, posed.untouched matched heap done, cell, distinct, fun x lt => ?_⟩
    obtain ⟨s, mem, b, b', held, held', decodes, decodes'⟩ :=
      registers x (lt.trans_eq (Nat.max_self _))
    exact ⟨s, mem, b, b', by simp [register, Registers.get_eq_held held],
      by simp [register, Registers.get_eq_held held'], decodes, decodes'⟩

/-- `p(f(a), f(a))` is an instance of `p(X, X)`. -/
theorem matches_iff_instance_shared :
    let query : Term := .compound "p" [.compound "f" [.atom "a"], .compound "f" [.atom "a"]]
    let program : Term := .compound "p" [.var "X", .var "X"]
    let u := CompiledUnit.ofTerms query program
    ∃ built,
      (∀ fuel, (new u.registerCount .unlimited).run fuel u.query.instructions = .ok built) ∧
      ∃ enough, ∀ fuel ≥ enough, ∃ m, built.Untouched fuel u.program.instructions m := by
  intro query program u
  have isInstance : query.IsInstance program :=
    Term.isInstance_of_subst (s := fun _ => .compound "f" [.atom "a"]) rfl
  obtain ⟨built, ran, _, given⟩ := (matches_iff_instance "p" "p" _ _).1
  exact ⟨built, ran, given isInstance⟩

end TermMachine
