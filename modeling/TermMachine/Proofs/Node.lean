import TermMachine.Allocation
import TermMachine.Proofs.Substitution

/-! # Terms with registers as equations

A term whose parts have registers is a system of equations between what the registers hold: the
register of an application holds the node over what the registers of its arguments hold. Registers
that satisfy all of them hold the value of the term, `Represents.eval_eq`, and as long as a register
tells which part of the term it is for, there are such registers for all values of the variables,
`exists_holds`.
-/

namespace TermMachine

namespace Node

@[elab_as_elim]
theorem induction {motive : Node → Prop}
    (constant : ∀ x, motive (.constant x))
    (var : ∀ x name, motive (.var x name))
    (compound : ∀ x name args, (∀ node ∈ args, motive node) → motive (.compound x name args)) :
    ∀ node, motive node
  | .constant x => constant x
  | .var x name => var x name
  | .compound x name args => compound x name args fun node mem =>
      have : sizeOf node < sizeOf args := List.sizeOf_lt_of_mem mem
      induction constant var compound node

theorem preorderAll_eq_flatMap (nodes : List Node) :
    preorderAll nodes = nodes.flatMap preorder := by
  induction nodes with
  | nil => rfl
  | cons node nodes ih => rw [preorderAll, ih, List.flatMap_cons]

theorem mem_preorder_compound {node : Node} {x : Register} {name : String} {args : List Node} :
    node ∈ (Node.compound x name args).preorder ↔
      node = .compound x name args ∨ ∃ arg ∈ args, node ∈ arg.preorder := by
  rw [preorder, preorderAll_eq_flatMap, List.mem_cons, List.mem_flatMap]

theorem mem_preorder_self (node : Node) : node ∈ node.preorder := by
  cases node <;> simp [preorder]

theorem mem_preorder_of_arg {root arg : Node} {x : Register} {name : String} {args : List Node}
    (part : .compound x name args ∈ root.preorder) (mem : arg ∈ args) : arg ∈ root.preorder := by
  induction root using Node.induction with
  | constant y => simp [preorder] at part
  | var y name' => simp [preorder] at part
  | compound y name' args' ih =>
      rcases mem_preorder_compound.mp part with same | ⟨node, hn, inside⟩
      · cases same
        exact mem_preorder_compound.mpr (.inr ⟨arg, mem, mem_preorder_self arg⟩)
      · exact mem_preorder_compound.mpr (.inr ⟨node, hn, ih node hn inside⟩)

/-- Every part of a term but the whole is an argument. -/
theorem eq_or_arg_of_mem_preorder {root node : Node} (part : node ∈ root.preorder) :
    node = root ∨ ∃ x name args, .compound x name args ∈ root.preorder ∧ node ∈ args := by
  induction root using Node.induction with
  | constant y => exact .inl (by simpa [preorder] using part)
  | var y name => exact .inl (by simpa [preorder] using part)
  | compound y name args ih =>
      have inside {arg n : Node} (mem : arg ∈ args) (hn : n ∈ arg.preorder) :
          n ∈ (Node.compound y name args).preorder :=
        mem_preorder_compound.mpr (.inr ⟨arg, mem, hn⟩)
      rcases mem_preorder_compound.mp part with same | ⟨arg, mem, part⟩
      · exact .inl same
      · rcases ih arg mem part with rfl | ⟨x, name', args', parent, child⟩
        · exact .inr ⟨y, name, args, mem_preorder_self _, mem⟩
        · exact .inr ⟨x, name', args', inside mem parent, child⟩

def args : Node → List Node
  | .compound _ _ args => args
  | .constant _ | .var _ _ => []

theorem mem_preorder_of_args {root node arg : Node} (part : node ∈ root.preorder)
    (mem : arg ∈ node.args) : arg ∈ root.preorder := by
  cases node with
  | constant x => cases mem
  | var x name => cases mem
  | compound x name args => exact mem_preorder_of_arg part mem

/-! ## Applications -/

def isCompound : Node → Bool
  | .compound _ _ _ => true
  | .constant _ | .var _ _ => false

def structures (node : Node) : List Register := (node.preorder.filter isCompound).map register

theorem structures_compound (x : Register) (name : String) (args : List Node) :
    (Node.compound x name args).structures = x :: args.flatMap structures := by
  have below : args.flatMap structures =
      args.flatMap fun arg => (arg.preorder.filter isCompound).map register := rfl
  rw [below]
  simp only [structures, preorder, preorderAll_eq_flatMap, List.filter_cons, isCompound, if_true,
    List.map_cons, register, List.filter_flatMap, List.map_flatMap]

theorem register_mem_structures {root node : Node} (part : node ∈ root.preorder)
    (compound : node.isCompound) : node.register ∈ root.structures :=
  List.mem_map_of_mem (List.mem_filter.mpr ⟨part, compound⟩)

theorem structures_subset {root node : Node} (parts : ∀ n ∈ node.preorder, n ∈ root.preorder)
    {x : Register} (mem : x ∈ node.structures) : x ∈ root.structures := by
  obtain ⟨n, hn, rfl⟩ := List.mem_map.mp mem
  obtain ⟨part, compound⟩ := List.mem_filter.mp hn
  exact register_mem_structures (parts n part) compound

/-! ## Equations -/

variable {τ : Type} [Trees τ]

/-- What the register of a node has to hold. -/
def Holds (ρ : Register → τ) : Node → Prop
  | .compound x name args => ρ x = Trees.node name (args.map fun arg => ρ arg.register)
  | .constant _ | .var _ _ => True

theorem Holds.congr {ρ ρ' : Register → τ} {node : Node} (holds : node.Holds ρ)
    (own : ρ' node.register = ρ node.register)
    (below : ∀ arg ∈ node.args, ρ' arg.register = ρ arg.register) : node.Holds ρ' := by
  cases node with
  | constant x => trivial
  | var x name => trivial
  | compound x name args =>
      have same : args.map (fun arg => ρ' arg.register) = args.map fun arg => ρ arg.register :=
        List.map_congr_left below
      show ρ' x = Trees.node name (args.map fun arg => ρ' arg.register)
      rw [same]
      exact own.trans holds

/-- The nodes that a term may become when its parts are given registers. -/
inductive Represents : Node → Term → Prop
  | atom {x : Register} {name : String} : Represents (.compound x name []) (.atom name)
  | number {x : Register} {value : Numeral} :
      Represents (.compound x (toString value) []) (.number value)
  | var {x : Register} {name : String} : Represents (.var x name) (.var name)
  | compound {x : Register} {name : String} {nodes : List Node} {args : List Term}
      (all : List.Forall₂ Represents nodes args) :
      Represents (.compound x name nodes) (.compound name args)

theorem map_eq_of_forall₂ {α β γ : Type} {R : α → β → Prop} {f : α → γ} {g : β → γ}
    {as : List α} {bs : List β} (all : List.Forall₂ R as bs)
    (same : ∀ a ∈ as, ∀ b ∈ bs, R a b → f a = g b) : as.map f = bs.map g := by
  induction all with
  | nil => rfl
  | cons first _ ih =>
      rw [List.map_cons, List.map_cons, same _ List.mem_cons_self _ List.mem_cons_self first]
      refine congrArg (_ :: ·) (ih fun a ha b hb => ?_)
      exact same a (List.mem_cons_of_mem _ ha) b (List.mem_cons_of_mem _ hb)

theorem exists_of_forall₂ {α β : Type} {R : α → β → Prop} {as : List α} {bs : List β}
    (all : List.Forall₂ R as bs) {a : α} (mem : a ∈ as) : ∃ b ∈ bs, R a b := by
  induction all with
  | nil => cases mem
  | @cons a' b as bs first rest ih =>
      rcases List.mem_cons.mp mem with rfl | mem
      · exact ⟨b, List.mem_cons_self, first⟩
      · obtain ⟨b', hb, hR⟩ := ih mem
        exact ⟨b', List.mem_cons_of_mem _ hb, hR⟩

theorem Represents.not_constant {node : Node} {t : Term} (repr : node.Represents t) (x : Register) :
    .constant x ∉ node.preorder := by
  induction t using TermOf.induction generalizing node with
  | atom name =>
      cases repr
      simp [preorder, preorderAll]
  | number value =>
      cases repr
      simp [preorder, preorderAll]
  | var name =>
      cases repr
      simp [preorder]
  | compound name args ih =>
      cases repr with
      | compound all =>
          intro part
          rcases mem_preorder_compound.mp part with same | ⟨n, mem, part⟩
          · cases same
          · obtain ⟨t, ht, repr⟩ := exists_of_forall₂ all mem
            exact ih t ht repr part

/-- Registers that satisfy all equations hold the value of the term. -/
theorem Represents.eval_eq {node : Node} {t : Term} (repr : node.Represents t)
    {ρ : Register → τ} {θ : String → τ} (holds : ∀ n ∈ node.preorder, n.Holds ρ)
    (vars : ∀ x name, .var x name ∈ node.preorder → ρ x = θ name) :
    ρ node.register = Term.eval θ t := by
  induction t using TermOf.induction generalizing node with
  | atom name =>
      cases repr
      exact holds _ (mem_preorder_self _)
  | number value =>
      cases repr
      exact holds _ (mem_preorder_self _)
  | var name =>
      cases repr
      exact vars _ _ (mem_preorder_self _)
  | compound name args ih =>
      cases repr with
      | @compound x _ nodes _ all =>
          have root : ρ x = Trees.node name (nodes.map fun n => ρ n.register) :=
            holds _ (mem_preorder_self _)
          have below : nodes.map (fun n => ρ n.register) = args.map (Term.eval θ) := by
            refine map_eq_of_forall₂ all fun n hn t ht repr => ?_
            have part {m : Node} (hm : m ∈ n.preorder) :
                m ∈ (Node.compound x name nodes).preorder :=
              mem_preorder_compound.mpr (.inr ⟨n, hn, hm⟩)
            exact ih t ht repr (fun m hm => holds m (part hm)) fun y v hv => vars y v (part hv)
          rw [Term.eval, Term.evalAll_eq_map, ← below]
          exact root

def name? : Node → Option String
  | .var _ name => some name
  | .constant _ | .compound _ _ _ => none

/-- The variables of a term are the variables among its parts. -/
theorem Represents.occurrences {node : Node} {t : Term} (repr : node.Represents t) :
    node.preorder.filterMap name? = t.occurrences := by
  induction t using TermOf.induction generalizing node with
  | atom name =>
      cases repr
      rfl
  | number value =>
      cases repr
      rfl
  | var name =>
      cases repr
      rfl
  | compound name args ih =>
      cases repr with
      | compound all =>
          have below := map_eq_of_forall₂ all fun n _ t ht repr => ih t ht repr
          rw [TermOf.occurrences, Term.occurrencesAll_eq_flatMap, List.flatMap_def, ← below,
            ← List.flatMap_def, preorder, preorderAll_eq_flatMap,
            List.filterMap_cons_none rfl, List.filterMap_flatMap]

theorem Represents.mem_occurrences_iff {node : Node} {t : Term} (repr : node.Represents t)
    {name : String} : name ∈ t.occurrences ↔ ∃ x, .var x name ∈ node.preorder := by
  rw [← repr.occurrences, List.mem_filterMap]
  constructor
  · rintro ⟨n, part, named⟩
    cases n with
    | var x name' =>
        cases named
        exact ⟨x, part⟩
    | constant x => cases named
    | compound x f args => cases named
  · rintro ⟨x, part⟩
    exact ⟨_, part, rfl⟩

mutual

/-- The value of a node. A constant, which is a term that needs no registers, has none. -/
def eval (θ : String → τ) : Node → τ
  | .constant _ => Trees.node "" []
  | .var _ name => θ name
  | .compound _ name args => Trees.node name (evalAll θ args)

def evalAll (θ : String → τ) : List Node → List τ
  | [] => []
  | node :: nodes => eval θ node :: evalAll θ nodes

end

theorem evalAll_eq_map (θ : String → τ) (nodes : List Node) :
    evalAll θ nodes = nodes.map (eval θ) := by
  induction nodes with
  | nil => rfl
  | cons node nodes ih => rw [evalAll, ih, List.map_cons]

theorem Represents.eval {node : Node} {t : Term} (repr : node.Represents t) (θ : String → τ) :
    node.eval θ = Term.eval θ t := by
  induction t using TermOf.induction generalizing node with
  | atom name =>
      cases repr
      rfl
  | number value =>
      cases repr
      rfl
  | var name =>
      cases repr
      rfl
  | compound name args ih =>
      cases repr with
      | compound all =>
          rw [Node.eval, Term.eval, evalAll_eq_map, Term.evalAll_eq_map]
          exact congrArg _ (map_eq_of_forall₂ all fun n _ t ht repr => ih t ht repr)

/-- Every register is for one part of the term. -/
def Apart (root : Node) : Prop :=
  ∀ m ∈ root.preorder, ∀ n ∈ root.preorder, m.register = n.register → m = n

/-- There are registers that hold the values of all parts of a term. -/
theorem Apart.exists_holds {root : Node} (apart : root.Apart) (θ : String → τ) :
    ∃ ρ : Register → τ, (∀ n ∈ root.preorder, n.Holds ρ) ∧
      ∀ n ∈ root.preorder, ρ n.register = n.eval θ := by
  let ρ (x : Register) : τ :=
    match root.preorder.find? (·.register == x) with
    | some n => n.eval θ
    | none => Trees.node "" []
  have value : ∀ n ∈ root.preorder, ρ n.register = n.eval θ := by
    intro n part
    cases found : root.preorder.find? (·.register == n.register) with
    | none =>
        have other := List.find?_eq_none.mp found n part
        simp at other
    | some m =>
        have same : m.register = n.register := by simpa using List.find?_some found
        have eq := apart m (List.mem_of_find?_eq_some found) n part same
        simp only [ρ, found, eq]
  refine ⟨ρ, fun n part => ?_, value⟩
  cases n with
  | constant x => trivial
  | var x name => trivial
  | compound x name args =>
      have below : args.map (fun arg => ρ arg.register) = args.map (Node.eval θ) :=
        List.map_congr_left fun arg mem => value arg (mem_preorder_of_arg part mem)
      have here := value _ part
      rw [Node.eval, evalAll_eq_map, ← below] at here
      exact here

end Node

end TermMachine
