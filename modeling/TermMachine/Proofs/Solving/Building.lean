import TermMachine.Proofs.Heap.Unfolding
import TermMachine.Proofs.Solving.Variables

/-! # What the code of a query builds

`query_built`: the code of a query builds its term and nothing else. Every register holds the part
of the term that it is for, with the constants read as structures without arguments; every variable
is one unbound cell, to which all its occurrences lead; and the heap has the cells that the
applications of the term take, and no more.

The terms are read off the trees that addresses unfold to. That the variables are unbound, and are
different cells, follows from what the heap can stand for: whatever values the variables are given,
the heap has a solution with these values, and a bound variable would leave no choice.
-/

namespace TermMachine

/-! ## Decoding -/

theorem Term.apply_ne_var (f name : String) (ts : List Term) : Term.apply f ts ≠ .var name := by
  cases ts with
  | nil => exact nofun
  | cons t ts => exact nofun

/-- The term that is read at an address, when each variable is the unbound cell given for it. The
machine knows names only, so a number is found as the constant of its text. -/
inductive Heap.Decodes (h : Heap) (cell : String → Address) : Address → Term → Prop
  | atom {a b first : Address} {name : String}
      (found : h.inspect a = .ok (b, .compound ⟨name, 0⟩ first)) : Decodes h cell a (.atom name)
  | number {a b first : Address} {value : Numeral}
      (found : h.inspect a = .ok (b, .compound ⟨toString value, 0⟩ first)) :
      Decodes h cell a (.number value)
  | var {a : Address} {name : String} (found : h.inspect a = .ok (cell name, .unbound)) :
      Decodes h cell a (.var name)
  | compound {a b first : Address} {name : String} {args : List Term}
      (found : h.inspect a = .ok (b, .compound ⟨name, args.length⟩ first))
      (below : ∀ i (hi : i < args.length), Decodes h cell (first + i) args[i]) :
      Decodes h cell a (.compound name args)

namespace Heap

theorem WellFormed.unbound_of_tree {h : Heap} (wf : h.WellFormed) {a b : Address}
    (term : h.IsTerm a) (leaf : h.tree a = Tree.leaf b) : h.Unbound a b := by
  rcases wf.value term with ⟨c, hc⟩ | ⟨s, p, hp⟩
  · rw [hc.tree] at leaf
    obtain rfl := Tree.leaf_inj leaf
    exact hc
  · rw [hp.tree_eq_branch] at leaf
    exact absurd leaf.symm Tree.leaf_ne_branch

theorem WellFormed.constant_of_tree {h : Heap} (wf : h.WellFormed) {a : Address}
    (term : h.IsTerm a) {name : String} (node : h.tree a = Trees.node name []) :
    ∃ b first, h.inspect a = .ok (b, .compound ⟨name, 0⟩ first) := by
  obtain ⟨p, compound, _⟩ := wf.readable.compound_of_tree term node
  obtain ⟨b, _, _, inspected⟩ := compound.inspect
  exact ⟨b, p + 1, inspected⟩

/-- An address decodes to a term if it unfolds to the value of the term. -/
theorem WellFormed.decodes {h : Heap} (wf : h.WellFormed) {cell : String → Address} {t : Term}
    {a : Address} (term : h.IsTerm a)
    (value : h.tree a = Term.eval (fun name => Tree.leaf (cell name)) t) :
    h.Decodes cell a t := by
  induction t using TermOf.induction generalizing a with
  | atom name =>
      obtain ⟨b, first, found⟩ := wf.constant_of_tree term value
      exact .atom found
  | number n =>
      obtain ⟨b, first, found⟩ := wf.constant_of_tree term value
      exact .number found
  | var name => exact .var (inspect_eq_unbound_iff.mpr (wf.unbound_of_tree term value))
  | compound name args ih =>
      rw [Term.eval, Term.evalAll_eq_map] at value
      obtain ⟨p, compound, below⟩ := wf.readable.compound_of_tree term value
      rw [List.length_map] at compound below
      obtain ⟨b, _, _, found⟩ := compound.inspect
      refine .compound found fun i hi => ?_
      have at' := congrArg (·[i]?) below
      apply ih _ (List.getElem_mem hi) (wf.argument compound hi)
      simpa [treesAt, hi] using at'

/-- What is an unbound variable decodes to a variable. -/
theorem Decodes.exists_var {h : Heap} {cell : String → Address} {a b : Address} {t : Term}
    (decodes : h.Decodes cell a t) (unbound : h.Unbound a b) :
    ∃ name, t = .var name ∧ b = cell name := by
  have inspected := inspect_eq_unbound_iff.mpr unbound
  cases decodes with
  | atom found => simp [inspected] at found
  | number found => simp [inspected] at found
  | compound found _ => simp [inspected] at found
  | @var _ name found =>
      rw [inspected] at found
      simp only [Except.ok.injEq, Prod.mk.injEq, and_true] at found
      exact ⟨name, rfl, found⟩

end Heap

/-! ## The parts of a term and their registers -/

namespace TermOf

/-- The cells that a part of a term takes, not counting those of the parts inside it. A variable has
no cell of its own: its first occurrence is among the arguments of an application. -/
def cells {ν : Type} : TermOf ν → Nat
  | .atom _ | .number _ => 2
  | .var _ => 0
  | .compound _ args => 2 + args.length

end TermOf

namespace Node

/-- The cells that are built for a node, not counting those of the nodes inside it. -/
def cells : Node → Nat
  | .constant _ | .var _ _ => 0
  | .compound _ _ args => 2 + args.length

theorem forall₂_flatMap {α β γ δ : Type} {R : α → β → Prop} {S : γ → δ → Prop} {f : α → List γ}
    {g : β → List δ} {as : List α} {bs : List β} (all : List.Forall₂ R as bs)
    (each : ∀ a ∈ as, ∀ b ∈ bs, R a b → List.Forall₂ S (f a) (g b)) :
    List.Forall₂ S (as.flatMap f) (bs.flatMap g) := by
  induction all with
  | nil => exact .nil
  | cons first _ ih =>
      rw [List.flatMap_cons, List.flatMap_cons]
      refine List.rel_append (each _ List.mem_cons_self _ List.mem_cons_self first) ?_
      exact ih fun a ha b hb => each a (List.mem_cons_of_mem _ ha) b (List.mem_cons_of_mem _ hb)

/-- The parts of a node are the nodes for the parts of the term, in the same order. -/
theorem Represents.preorder {node : Node} {t : Term} (repr : node.Represents t) :
    List.Forall₂ Represents node.preorder t.preorder := by
  induction t using TermOf.induction generalizing node with
  | atom name =>
      cases repr
      exact .cons .atom .nil
  | number value =>
      cases repr
      exact .cons .number .nil
  | var name =>
      cases repr
      exact .cons .var .nil
  | compound name args ih =>
      cases repr with
      | compound all =>
          rw [Node.preorder, TermOf.preorder, preorderAll_eq_flatMap,
            TermOf.preorderAll_eq_flatMap]
          exact .cons (.compound all) (forall₂_flatMap all fun n _ t ht repr => ih t ht repr)

theorem Represents.cells {node : Node} {t : Term} (repr : node.Represents t) :
    node.cells = t.cells := by
  cases repr with
  | atom => rfl
  | number => rfl
  | var => rfl
  | compound all => simp only [Node.cells, TermOf.cells, all.length_eq]

/-- The parts of a part of a term are parts of the term. -/
theorem preorder_subset {root node : Node} (part : node ∈ root.preorder) :
    ∀ n ∈ node.preorder, n ∈ root.preorder := by
  induction node using Node.induction with
  | constant x =>
      intro n mem
      obtain rfl : n = .constant x := by simpa [Node.preorder] using mem
      exact part
  | var x name =>
      intro n mem
      obtain rfl : n = .var x name := by simpa [Node.preorder] using mem
      exact part
  | compound x name args ih =>
      intro n mem
      rcases mem_preorder_compound.mp mem with rfl | ⟨arg, child, inside⟩
      · exact part
      · exact ih arg child (mem_preorder_of_arg part child) n inside

end Node

/-! ## The size of the heap -/

namespace Instruction

/-- The cells that an instruction adds if it only builds. -/
def cells : Instruction → Nat
  | .putStructure _ _ => 2
  | .setVariable _ | .setValue _ => 1
  | .getStructure _ _ | .unifyVariable _ | .unifyValue _ => 0

end Instruction

namespace Code

theorem cells_setArguments (seen : Seen) (nodes : List Node) :
    ((setArguments seen nodes).1.map Instruction.cells).sum = nodes.length := by
  induction nodes generalizing seen with
  | nil => rfl
  | cons node nodes ih =>
      have one : (setArgument seen node).1.cells = 1 := by
        unfold setArgument
        split
        · split <;> rfl
        · rfl
      simp only [setArguments, List.map_cons, List.sum_cons, one, ih, List.length_cons]
      omega

/-- The code for a node adds the cells of all applications in it. -/
theorem cells_build (seen : Seen) (node : Node) :
    ((build seen node).1.map Instruction.cells).sum = (node.preorder.map Node.cells).sum := by
  induction node using Node.induction generalizing seen with
  | constant x => rfl
  | var x name => rfl
  | compound x name args ih =>
      have below : ∀ nodes, (∀ n ∈ nodes, n ∈ args) → ∀ seen,
          ((buildAll seen nodes).1.map Instruction.cells).sum =
            ((nodes.flatMap Node.preorder).map Node.cells).sum := by
        intro nodes
        induction nodes with
        | nil => exact fun _ _ => rfl
        | cons n nodes ih' =>
            intro sub seen
            have first := ih n (sub n List.mem_cons_self) seen
            have rest := ih' (fun m hm => sub m (List.mem_cons_of_mem _ hm)) (build seen n).2
            simp only [buildAll_cons, List.flatMap_cons, List.map_append, List.sum_append, first,
              rest]
      simp only [build_compound, List.map_append, List.map_cons, List.sum_append, List.sum_cons,
        below args (fun _ hn => hn) seen, cells_setArguments, Instruction.cells, Node.preorder,
        Node.preorderAll_eq_flatMap, Node.cells]
      omega

end Code

namespace Machine

theorem top_storeRegister {m m' : Machine} {x : Register} {a : Address}
    (done : m.storeRegister x a = .done m') : m'.heap.top = m.heap.top := by
  unfold storeRegister at done
  split at done
  · cases done
    rfl
  · cases done

/-- Writing an argument adds the one cell that it is written with. -/
theorem top_writeNext {c c' : Cursor} {h h' : Heap} {a : Address}
    {write : Heap → Except MemoryError Heap} (adds : ∀ {h'}, write h = .ok h' → h'.top = h.top + 1)
    (wrote : c.writeNext h write = (.ok (a, c'), h')) : h'.top = h.top + 1 := by
  unfold Cursor.writeNext at wrote
  split at wrote
  · cases wrote
  · split at wrote
    · cases wrote
    · next written =>
        split at wrote
        · cases wrote
          exact adds written
        · cases wrote

theorem top_pushCopy {h h' : Heap} {a : Address} (ok : h.pushCopy a = .ok h') :
    h'.top = h.top + 1 := by
  unfold Heap.pushCopy at ok
  split at ok
  · exact Heap.top_push ok
  · cases ok

theorem top_setVariable {m m' : Machine} {x : Register} (done : m.setVariable x = .done m') :
    m'.heap.top = m.heap.top + 1 := by
  unfold setVariable at done
  split at done
  · cases done
  · next wrote =>
      rw [top_storeRegister done]
      exact top_writeNext Heap.top_push wrote

theorem top_setValue {m m' : Machine} {x : Register} (done : m.setValue x = .done m') :
    m'.heap.top = m.heap.top + 1 := by
  unfold setValue at done
  split at done
  · cases done
  · split at done
    · cases done
    · next wrote =>
        cases done
        exact top_writeNext top_pushCopy wrote

theorem top_putStructure {m m' : Machine} {s : Symbol} {x : Register}
    (done : m.putStructure s x = .done m') : m'.heap.top = m.heap.top + 2 := by
  unfold putStructure at done
  rcases m.openStructure_cases s with ⟨e, refusal, _⟩ | ⟨opened, _, _⟩
  · rw [refusal] at done
    cases done
  · rw [opened] at done
    rw [top_storeRegister done]
    exact Heap.top_opened m.heap s

theorem top_step {fuel : Nat} {m m' : Machine} {i : Instruction} (builds : i.Builds)
    (done : m.step fuel i = .done m') : m'.heap.top = m.heap.top + i.cells := by
  cases i with
  | putStructure s x => exact top_putStructure done
  | setVariable x => exact top_setVariable done
  | setValue x => exact top_setValue done
  | getStructure s x => cases builds
  | unifyVariable x => cases builds
  | unifyValue x => cases builds

/-- Code that only builds adds the cells of its instructions. -/
theorem top_advance {fuel : Nat} {is : List Instruction} (builds : ∀ i ∈ is, i.Builds)
    {m m' : Machine} (done : m.advance fuel is = .done m') :
    m'.heap.top = m.heap.top + (is.map Instruction.cells).sum := by
  induction is generalizing m with
  | nil =>
      cases done
      rfl
  | cons i is ih =>
      obtain ⟨m₁, first, done⟩ := exists_of_advance_cons done
      have here : m₁.heap.top = m.heap.top + i.cells :=
        top_step (m := m.counted) (builds i List.mem_cons_self) first
      have rest := ih (fun j mem => builds j (List.mem_cons_of_mem _ mem)) done
      rw [rest, here, List.map_cons, List.sum_cons, Nat.add_assoc]

/-! ## What is built -/

variable {a : Allocation} {t : Term} {count : Nat} {m : Machine}

/-- The variables of a query are unbound, and different ones are different cells: each of them can
stand for anything, whatever the others stand for. -/
theorem Realizes.exists_cells (exact' : a.Exact t)
    (realizes : Realizes a (new count .unlimited) ∅ m) :
    ∃ cell : String → Address,
      (∀ x name, .var x name ∈ a.root.preorder →
        ∃ b, m.registers.held x = some b ∧ m.heap.Unbound b (cell name)) ∧
      ∀ v ∈ t.vars, ∀ w ∈ t.vars, cell v = cell w → v = w := by
  have wf := realizes.ready.heap realizes.idle
  obtain ⟨σ, sol, _, free⟩ := realizes.exists_solution exact' fun name => (.var name : Term)
  have unbound : ∀ x name, .var x name ∈ a.root.preorder →
      ∃ b c, m.registers.held x = some b ∧ m.heap.Unbound b c ∧ σ c = .var name := by
    intro x name part
    obtain ⟨b, held⟩ := realizes.held _ part
    rw [Node.register] at held
    have value := free x name part
    rw [value_of_held held] at value
    rcases wf.value (realizes.ready.wellFormed.registers held) with ⟨c, hc⟩ | ⟨s, p, hp⟩
    · exact ⟨b, c, held, hc, (sol.endsAt hc.1).symm.trans value⟩
    · rw [sol.compound hp] at value
      exact absurd value (Term.apply_ne_var s.name name _)
  have chosen : ∀ name, ∃ c, name ∈ t.vars →
      (∀ x, .var x name ∈ a.root.preorder →
        ∃ b, m.registers.held x = some b ∧ m.heap.Unbound b c) ∧ σ c = .var name := by
    intro name
    by_cases occurs : name ∈ t.vars
    · obtain ⟨x, part, allocated⟩ := CompiledTerm.exists_part exact' occurs
      obtain ⟨b, c, held, hc, value⟩ := unbound x name part
      refine ⟨c, fun _ => ⟨fun y part' => ?_, value⟩⟩
      -- all occurrences of a variable have one register
      obtain rfl : x = y := Option.some.inj (allocated.symm.trans (exact'.named y name part'))
      exact ⟨b, held, hc⟩
    · exact ⟨0, fun occurs' => absurd occurs' occurs⟩
  choose cell here using chosen
  have occurs {x : Register} {name : String} (part : .var x name ∈ a.root.preorder) :
      name ∈ t.vars :=
    List.mem_eraseDups.mpr (exact'.represents.mem_occurrences_iff.mpr ⟨x, part⟩)
  refine ⟨cell, fun x name part => (here name (occurs part)).1 x part, fun v hv w hw same => ?_⟩
  have value := (here v hv).2
  rw [same, (here w hw).2] at value
  exact (TermOf.var.inj value).symm

/-- The register of a part leads to the part. -/
theorem Realizes.decodes {known : Set Register} {m₀ : Machine} (realizes : Realizes a m₀ known m)
    {cell : String → Address}
    (cells : ∀ x name, .var x name ∈ a.root.preorder →
      ∃ b, m.registers.held x = some b ∧ m.heap.Unbound b (cell name))
    {n : Node} {s : Term} (part : n ∈ a.root.preorder) (repr : n.Represents s) :
    ∃ b, m.registers.held n.register = some b ∧ m.heap.IsTerm b ∧ m.heap.Decodes cell b s := by
  have wf := realizes.ready.heap realizes.idle
  have inside := Node.preorder_subset part
  obtain ⟨b, held⟩ := realizes.held n part
  have term := realizes.ready.wellFormed.registers held
  have value : m.value m.heap.tree n.register =
      Term.eval (fun name => Tree.leaf (cell name)) s := by
    apply repr.eval_eq
    · exact fun k hk => realizes.equations wf.solution_tree k (inside k hk)
    · intro x name hx
      obtain ⟨c, held', unbound⟩ := cells x name (inside _ hx)
      rw [value_of_held held', unbound.tree]
  rw [value_of_held held] at value
  exact ⟨b, held, term, wf.decodes term value⟩

/-- No variables are built but those of the term. -/
theorem Realizes.unbound_iff (exact' : a.Exact t)
    (realizes : Realizes a (new count .unlimited) ∅ m) {cell : String → Address}
    (cells : ∀ x name, .var x name ∈ a.root.preorder →
      ∃ b, m.registers.held x = some b ∧ m.heap.Unbound b (cell name)) (b : Address) :
    m.heap.cells[b]? = some (.ref b) ↔ ∃ v ∈ t.vars, cell v = b := by
  constructor
  · intro unbound
    obtain ⟨c, rooted, ends⟩ := realizes.rooted (rooted_new count) b unbound
    obtain ⟨n, part, held⟩ := rooted.resolve_left (Set.notMem_empty c)
    obtain ⟨s, _, repr⟩ := Node.exists_of_forall₂ exact'.represents.preorder part
    obtain ⟨c', held', _, decodes⟩ := realizes.decodes cells part repr
    obtain rfl : c = c' := Option.some.inj (held.symm.trans held')
    obtain ⟨name, rfl, same⟩ := decodes.exists_var ⟨ends, unbound⟩
    refine ⟨name, List.mem_eraseDups.mpr ?_, same.symm⟩
    cases repr with
    | var => exact exact'.represents.mem_occurrences_iff.mpr ⟨_, part⟩
  · rintro ⟨v, occurs, rfl⟩
    obtain ⟨x, part, _⟩ := CompiledTerm.exists_part exact' occurs
    obtain ⟨_, _, unbound⟩ := cells x v part
    exact unbound.2

/-- The heap has the cells of the applications in the term. -/
theorem top_query (exact' : a.Exact t) {fuel : Nat}
    (done : (new count .unlimited).advance fuel (Code.build [] a.root).1 = .done m) :
    m.heap.top = (t.preorder.map TermOf.cells).sum := by
  have same := Node.map_eq_of_forall₂ exact'.represents.preorder
    fun n _ s _ repr => Node.Represents.cells repr
  rw [top_advance (fun _ => Code.builds_of_mem_build) done, Code.cells_build, same]
  exact Nat.zero_add _

end Machine

open Machine

/-- The code of a query builds the query. The parts of the term and their registers are listed in
one order, and every register is among them. -/
theorem query_built (f : String) (args : List Term) (count : Nat)
    (enough : (CompiledTerm.query (.compound f args)).registerCount ≤ count) :
    let t : Term := .compound f args
    let root := (Allocation.ofTerm t).root
    ∃ m,
      (∀ fuel, (new count .unlimited).run fuel (CompiledTerm.query t).instructions = .ok m) ∧
      m.status = .succeeded ∧
      m.heap.top = (t.preorder.map TermOf.cells).sum ∧
      (∀ x < (CompiledTerm.query t).registerCount, ∃ n ∈ root.preorder, n.register = x) ∧
      ∃ cell : String → Address,
        (∀ v ∈ t.vars, ∀ w ∈ t.vars, cell v = cell w → v = w) ∧
        (∀ b, m.heap.cells[b]? = some (.ref b) ↔ ∃ v ∈ t.vars, cell v = b) ∧
        List.Forall₂
          (fun n s => ∃ b, m.register n.register = .ok (some b) ∧ m.heap.Decodes cell b s)
          root.preorder t.preorder ∧
        ∃ b, m.register 0 = .ok (some b) ∧ m.heap.Decodes cell b t := by
  intro t root
  have exact' := Allocation.exact_ofTerm f args
  obtain ⟨m, done, realizes⟩ := query_done exact' enough
  obtain ⟨cell, cells, distinct⟩ := realizes.exists_cells exact'
  have holds {n : Node} {s : Term} (part : n ∈ root.preorder) (repr : n.Represents s) :
      ∃ b, m.register n.register = .ok (some b) ∧ m.heap.Decodes cell b s := by
    obtain ⟨b, held, _, decodes⟩ := realizes.decodes cells part repr
    exact ⟨b, by simp [register, Registers.get_eq_held held], decodes⟩
  have size := top_query exact' (done 0)
  refine ⟨{ m with status := .succeeded }, fun fuel => ?_, rfl, size,
    fun x lt => Allocation.exists_part t lt, cell, distinct, realizes.unbound_iff exact' cells,
    ?_, ?_⟩
  · rw [run_new, ← goOn_done realizes.idle fuel]
    exact congrArg (goOn fuel []) (done fuel)
  · have pairs := (List.forall₂_and_left _ _).mpr ⟨fun _ => id, exact'.represents.preorder⟩
    exact pairs.imp fun n s both => holds both.1 both.2
  · have whole := holds (Node.mem_preorder_self root) exact'.represents
    rwa [exact'.register] at whole

/-- In `p(Z, h(Z, W), f(W))` the variables occur twice each, and there is one cell for each. -/
theorem query_built_shared :
    let t : Term := .compound "p"
      [.var "Z", .compound "h" [.var "Z", .var "W"], .compound "f" [.var "W"]]
    ∃ m, (∀ fuel, (new 5 .unlimited).run fuel (CompiledTerm.query t).instructions = .ok m) ∧
      m.heap.top = 12 ∧
      ∃ cell : String → Address, cell "Z" ≠ cell "W" ∧
        ∀ b, m.heap.cells[b]? = some (.ref b) ↔ b = cell "Z" ∨ b = cell "W" := by
  intro t
  obtain ⟨m, ran, _, size, _, cell, distinct, unbound, _⟩ := query_built "p"
    [.var "Z", .compound "h" [.var "Z", .var "W"], .compound "f" [.var "W"]] 5 (by decide)
  have names : t.vars = ["Z", "W"] := by decide
  have names' : ∀ v, v ∈ t.vars ↔ v = "Z" ∨ v = "W" := by simp [names]
  refine ⟨m, ran, size, cell, fun same => ?_, fun b => (unbound b).trans ?_⟩
  · have eq := distinct "Z" ((names' _).mpr (.inl rfl)) "W" ((names' _).mpr (.inr rfl)) same
    simp at eq
  · constructor
    · rintro ⟨v, occurs, rfl⟩
      rcases (names' v).mp occurs with rfl | rfl
      · exact .inl rfl
      · exact .inr rfl
    · rintro (rfl | rfl)
      · exact ⟨"Z", (names' _).mpr (.inl rfl), rfl⟩
      · exact ⟨"W", (names' _).mpr (.inr rfl), rfl⟩

end TermMachine
