import TermMachine.Code
import TermMachine.Cursor
import TermMachine.Proofs.Allocation
import Mathlib.Data.Set.Lattice

/-! # The shape of compiled code

The code for a term is a sequence of blocks, one for every application in it. A block starts a
structure and goes on with one instruction for every argument. `Blocks` is this shape, together with
the set of registers that have been written: every register is written once, and before it is read.
Code for queries and code for programs both have it, in their different orders.
-/

namespace TermMachine

namespace Node

/-- The registers that a node is about: its own and those of its arguments. -/
def scope (node : Node) : Set Register :=
  insert node.register {y | y ∈ node.args.map register}

end Node

namespace Code

open Node

/-- The register is to hold the next argument. -/
inductive Notes (x : Register) : Mode → Instruction → Prop
  | unify (mode : Mode) : Notes x mode (.unifyVariable x)
  | set : Notes x .write (.setVariable x)

/-- The next argument is to be what the register holds. -/
inductive Compares (x : Register) : Mode → Instruction → Prop
  | unify (mode : Mode) : Compares x mode (.unifyValue x)
  | set : Compares x .write (.setValue x)

/-- Instructions for arguments with the given registers, when those in `known` have been written. -/
inductive Arguments (count : Nat) (mode : Mode) :
    Set Register → List Instruction → List Register → Prop
  | nil {known : Set Register} : Arguments count mode known [] []
  | new {known : Set Register} {i : Instruction} {is : List Instruction} {x : Register}
      {xs : List Register} (notes : Notes x mode i) (lt : x < count) (fresh : x ∉ known)
      (rest : Arguments count mode (insert x known) is xs) :
      Arguments count mode known (i :: is) (x :: xs)
  | old {known : Set Register} {i : Instruction} {is : List Instruction} {x : Register}
      {xs : List Register} (compares : Compares x mode i) (mem : x ∈ known)
      (rest : Arguments count mode known is xs) : Arguments count mode known (i :: is) (x :: xs)

/-- Instructions for an application: they build it, or they match it in whichever mode. -/
inductive Block (count : Nat) (known : Set Register) : List Instruction → Node → Prop
  | put {is : List Instruction} {x : Register} {name : String} {args : List Node} (lt : x < count)
      (fresh : x ∉ known)
      (arguments : Arguments count .write (insert x known) is (args.map register)) :
      Block count known (.putStructure ⟨name, args.length⟩ x :: is) (.compound x name args)
  | get {is : List Instruction} {x : Register} {name : String} {args : List Node} (mem : x ∈ known)
      (arguments : ∀ mode, Arguments count mode (insert x known) is (args.map register)) :
      Block count known (.getStructure ⟨name, args.length⟩ x :: is) (.compound x name args)

/-- Instructions for several applications. -/
inductive Blocks (count : Nat) : Set Register → List Instruction → List Node → Prop
  | nil {known : Set Register} : Blocks count known [] []
  | cons {known : Set Register} {is js : List Instruction} {node : Node} {nodes : List Node}
      (block : Block count known is node) (rest : Blocks count (known ∪ node.scope) js nodes) :
      Blocks count known (is ++ js) (node :: nodes)

def scopes (nodes : List Node) : Set Register := {y | ∃ node ∈ nodes, y ∈ node.scope}

theorem union_scopes_cons (known : Set Register) (node : Node) (nodes : List Node) :
    known ∪ scopes (node :: nodes) = known ∪ node.scope ∪ scopes nodes := by
  ext y
  simp only [scopes, Set.mem_union, Set.mem_ofPred_eq, List.exists_mem_cons_iff, or_assoc]

theorem union_scopes_nil (known : Set Register) : known ∪ scopes [] = known := by
  ext y
  simp [scopes]

theorem Blocks.append {count : Nat} {known : Set Register} {is js : List Instruction}
    {nodes nodes' : List Node} (first : Blocks count known is nodes)
    (second : Blocks count (known ∪ scopes nodes) js nodes') :
    Blocks count known (is ++ js) (nodes ++ nodes') := by
  induction first with
  | nil => rwa [union_scopes_nil] at second
  | cons block _ ih =>
      rw [List.append_assoc, List.cons_append]
      rw [union_scopes_cons] at second
      exact .cons block (ih second)

/-! ## Arguments -/

/-- Of the registers of variables, those that have been met are those that have been written. -/
def Tracks (root : Node) (seen : Seen) (known : Set Register) : Prop :=
  ∀ y name, .var y name ∈ root.preorder → (y ∈ seen ↔ y ∈ known)

/-- The code for arguments, given how one of them is dealt with. -/
def visitAll (one : Seen → Node → Instruction × Seen) (seen : Seen) :
    List Node → List Instruction × Seen
  | [] => ([], seen)
  | node :: nodes =>
      let (i, seen) := one seen node
      let (is, seen) := visitAll one seen nodes
      (i :: is, seen)

theorem setArguments_eq (seen : Seen) (nodes : List Node) :
    setArguments seen nodes = visitAll setArgument seen nodes := by
  induction nodes generalizing seen with
  | nil => rfl
  | cons node nodes ih => simp only [setArguments, visitAll, ih]

theorem unifyArguments_eq (seen : Seen) (nodes : List Node) :
    unifyArguments seen nodes = visitAll unifyArgument seen nodes := by
  induction nodes generalizing seen with
  | nil => rfl
  | cons node nodes ih => simp only [unifyArguments, visitAll, ih]

/-- A way to deal with one argument: a variable is noted first and compared later, and there is one
instruction for all applications. -/
structure Scheme (mode : Mode) (one : Seen → Node → Instruction × Seen) where
  new : Register → Instruction
  old : Register → Instruction
  inner : Register → Instruction
  notes : ∀ x, Notes x mode (new x)
  compares : ∀ x, Compares x mode (old x)
  var : ∀ seen x name, one seen (.var x name) =
    if seen.contains x then (old x, seen) else (new x, x :: seen)
  compound : ∀ seen x name args, one seen (.compound x name args) = (inner x, seen)

def setScheme : Scheme .write setArgument where
  new := .setVariable
  old := .setValue
  inner := .setValue
  notes _ := .set
  compares _ := .set
  var _ _ _ := rfl
  compound _ _ _ _ := rfl

def unifyScheme (mode : Mode) : Scheme mode unifyArgument where
  new := .unifyVariable
  old := .unifyValue
  inner := .unifyVariable
  notes _ := .unify mode
  compares _ := .unify mode
  var _ _ _ := rfl
  compound _ _ _ _ := rfl

/-- The instruction for applications either writes registers that are all new, or reads registers
that have all been written. -/
inductive Serves (mode : Mode) (inner : Register → Instruction) (known : Set Register)
    (xs : List Register) : Prop
  | notes (notes : ∀ x, Notes x mode (inner x)) (fresh : ∀ x ∈ xs, x ∉ known) (nodup : xs.Nodup)
  | compares (compares : ∀ x, Compares x mode (inner x)) (mem : ∀ x ∈ xs, x ∈ known)

theorem Serves.insert {mode : Mode} {inner : Register → Instruction} {known : Set Register}
    {xs : List Register} (serves : Serves mode inner known xs) {y : Register} (other : y ∉ xs) :
    Serves mode inner (insert y known) xs := by
  cases serves with
  | notes notes fresh nodup =>
      refine .notes notes (fun x mem => ?_) nodup
      rintro (rfl | old)
      · exact other mem
      · exact fresh x mem old
  | compares compares mem => exact .compares compares fun x hx => .inr (mem x hx)

variable {a : Allocation} {t : Term}

theorem Tracks.insert_var {root : Node} {seen : Seen} {known : Set Register}
    (tracks : Tracks root seen known) (x : Register) :
    Tracks root (x :: seen) (insert x known) := by
  intro y name part
  rw [List.mem_cons, Set.mem_insert_iff, tracks y name part]

theorem Tracks.insert_structure (exact' : a.Exact t) {seen : Seen} {known : Set Register}
    (tracks : Tracks a.root seen known) {x : Register} (mem : x ∈ a.root.structures) :
    Tracks a.root seen (insert x known) := by
  intro y name part
  have other : y ≠ x := by
    rintro rfl
    exact exact'.var_not_structure part mem
  rw [Set.mem_insert_iff, tracks y name part, or_iff_right other]

theorem insert_union_map (known : Set Register) (arg : Node) (args : List Node) :
    insert arg.register known ∪ {y | y ∈ args.map register} =
      known ∪ {y | y ∈ (arg :: args).map register} := by
  ext y
  simp only [Set.mem_union, Set.mem_insert_iff, Set.mem_ofPred_eq, List.map_cons, List.mem_cons]
  tauto

theorem var_not_application (exact' : a.Exact t) {x : Register} {name : String}
    (var : .var x name ∈ a.root.preorder) {args : List Node}
    (parts : ∀ arg ∈ args, arg ∈ a.root.preorder) :
    x ∉ (args.filter isCompound).map register := by
  intro mem
  obtain ⟨arg, applied, same⟩ := List.mem_map.mp mem
  obtain ⟨child, compound⟩ := List.mem_filter.mp applied
  have inside := register_mem_structures (parts arg child) compound
  exact exact'.var_not_structure var (same ▸ inside)

theorem visitAll_arguments (exact' : a.Exact t) {mode : Mode}
    {one : Seen → Node → Instruction × Seen} (scheme : Scheme mode one) {args : List Node}
    (parts : ∀ arg ∈ args, arg ∈ a.root.preorder) {seen : Seen} {known : Set Register}
    (tracks : Tracks a.root seen known)
    (serves : Serves mode scheme.inner known ((args.filter isCompound).map register)) :
    Arguments a.registerCount mode known (visitAll one seen args).1 (args.map register) ∧
      Tracks a.root (visitAll one seen args).2 (known ∪ {y | y ∈ args.map register}) := by
  induction args generalizing seen known with
  | nil => exact ⟨.nil, by simpa [visitAll] using tracks⟩
  | cons arg args ih =>
      have part := parts arg List.mem_cons_self
      have later : ∀ arg ∈ args, arg ∈ a.root.preorder := fun arg mem =>
        parts arg (List.mem_cons_of_mem _ mem)
      have lt := exact'.register_lt part
      rw [← insert_union_map]
      cases arg with
      | constant x => exact absurd part (exact'.represents.not_constant x)
      | var x name =>
          have other := var_not_application exact' part later
          by_cases met : x ∈ seen
          · have written := (tracks x name part).mp met
            have same : insert x known = known := Set.insert_eq_of_mem written
            obtain ⟨arguments, tracks'⟩ := ih later tracks serves
            simp only [visitAll, scheme.var, List.contains_eq_mem, met, decide_true, if_true]
            exact ⟨.old (scheme.compares x) written arguments, same.symm ▸ tracks'⟩
          · have unwritten : x ∉ known := fun mem => met ((tracks x name part).mpr mem)
            obtain ⟨arguments, tracks'⟩ := ih later (tracks.insert_var x) (serves.insert other)
            simp only [visitAll, scheme.var, List.contains_eq_mem, met, decide_false,
              Bool.false_eq_true, if_false]
            exact ⟨.new (scheme.notes x) lt unwritten arguments, tracks'⟩
      | compound x name as =>
          have inside := register_mem_structures part rfl
          simp only [visitAll, scheme.compound]
          cases serves with
          | notes notes fresh nodup =>
              obtain ⟨first, nodup⟩ := List.nodup_cons.mp nodup
              have rest : Serves mode scheme.inner known _ := .notes notes
                (fun y mem => fresh y (List.mem_cons_of_mem _ mem)) nodup
              obtain ⟨arguments, tracks'⟩ := ih later (tracks.insert_structure exact' inside)
                (rest.insert first)
              exact ⟨.new (notes x) lt (fresh x List.mem_cons_self) arguments, tracks'⟩
          | compares compares mem =>
              have written := mem x List.mem_cons_self
              have same : insert x known = known := Set.insert_eq_of_mem written
              obtain ⟨arguments, tracks'⟩ := ih later tracks
                (.compares compares fun y hy => mem y (List.mem_cons_of_mem _ hy))
              exact ⟨.old (compares x) written arguments, same.symm ▸ tracks'⟩

/-! ## Queries -/

theorem buildAll_cons (seen : Seen) (node : Node) (nodes : List Node) :
    buildAll seen (node :: nodes) =
      ((build seen node).1 ++ (buildAll (build seen node).2 nodes).1,
        (buildAll (build seen node).2 nodes).2) := rfl

theorem build_compound (seen : Seen) (x : Register) (name : String) (args : List Node) :
    build seen (.compound x name args) =
      ((buildAll seen args).1 ++ .putStructure ⟨name, args.length⟩ x ::
          (setArguments (buildAll seen args).2 args).1,
        (setArguments (buildAll seen args).2 args).2) := rfl

/-- Code that builds exactly the applications on a list, their registers being new. -/
structure Builds (a : Allocation) (known : Set Register) (structures : List Register)
    (wanted : Node → Prop) (code : List Instruction × Seen) (nodes : List Node) : Prop where
  blocks : Blocks a.registerCount known code.1 nodes
  tracks : Tracks a.root code.2 (known ∪ scopes nodes)
  wanted : ∀ n, n ∈ nodes ↔ wanted n
  /-- Besides the registers of variables only those of the applications are written. -/
  written : ∀ y ∈ known ∪ scopes nodes, y ∈ known ∨ y ∈ structures ∨
    ∃ name, .var y name ∈ a.root.preorder

theorem Builds.nothing {known : Set Register} {structures : List Register} {wanted : Node → Prop}
    {seen : Seen} (tracks : Tracks a.root seen known) (none : ∀ n, ¬wanted n) :
    Builds a known structures wanted ([], seen) [] where
  blocks := .nil
  tracks := by simpa [scopes] using tracks
  wanted n := by simp [none n]
  written y mem := .inl (by simpa [scopes] using mem)

theorem scopes_append (nodes nodes' : List Node) :
    scopes (nodes ++ nodes') = scopes nodes ∪ scopes nodes' := by
  ext y
  simp only [scopes, Set.mem_union, Set.mem_ofPred_eq, List.mem_append, or_and_right, exists_or]

theorem scopes_singleton (node : Node) : scopes [node] = node.scope := by
  ext y
  simp [scopes]

theorem Block.single {count : Nat} {known : Set Register} {is : List Instruction} {node : Node}
    (block : Block count known is node) : Blocks count known is [node] := by
  have blocks := Blocks.cons block .nil
  rwa [List.append_nil] at blocks

/-- Code that builds several terms, from code that builds each of them. -/
theorem buildAll_builds (exact' : a.Exact t) {args : List Node}
    (each : ∀ arg ∈ args, ∀ {seen : Seen} {known : Set Register}, Tracks a.root seen known →
      (∀ y ∈ arg.structures, y ∉ known) → arg.structures.Nodup →
      ∃ nodes, Builds a known arg.structures (fun n => n ∈ arg.preorder ∧ n.isCompound)
        (build seen arg) nodes)
    (inside : ∀ arg ∈ args, ∀ y ∈ arg.structures, y ∈ a.root.structures) {seen : Seen}
    {known : Set Register} (tracks : Tracks a.root seen known)
    (fresh : ∀ y ∈ args.flatMap structures, y ∉ known) (nodup : (args.flatMap structures).Nodup) :
    ∃ nodes, Builds a known (args.flatMap structures)
      (fun n => (∃ arg ∈ args, n ∈ arg.preorder) ∧ n.isCompound) (buildAll seen args) nodes := by
  induction args generalizing seen known with
  | nil => exact ⟨[], .nothing tracks fun n => by simp⟩
  | cons arg args ih =>
      rw [List.flatMap_cons] at fresh nodup
      obtain ⟨nodup, nodupLater, apart⟩ := List.nodup_append'.mp nodup
      obtain ⟨nodes, first⟩ := each arg List.mem_cons_self tracks
        (fun y mem => fresh y (List.mem_append_left _ mem)) nodup
      have freshLater : ∀ y ∈ args.flatMap structures, y ∉ known ∪ scopes nodes := by
        intro y mem written
        rcases first.written y written with old | own | ⟨name, var⟩
        · exact fresh y (List.mem_append_right _ mem) old
        · exact apart own mem
        · obtain ⟨arg', mem', hy⟩ := List.mem_flatMap.mp mem
          exact exact'.var_not_structure var (inside arg' (List.mem_cons_of_mem _ mem') y hy)
      obtain ⟨nodes', rest⟩ := ih (fun arg mem => each arg (List.mem_cons_of_mem _ mem))
        (fun arg mem => inside arg (List.mem_cons_of_mem _ mem)) first.tracks freshLater nodupLater
      have total : known ∪ scopes (nodes ++ nodes') = known ∪ scopes nodes ∪ scopes nodes' := by
        rw [scopes_append, Set.union_assoc]
      refine ⟨nodes ++ nodes', first.blocks.append rest.blocks, ?_, fun n => ?_, fun y mem => ?_⟩
      · rw [total, buildAll_cons]
        exact rest.tracks
      · rw [List.mem_append, first.wanted, rest.wanted, ← or_and_right]
        simp only [List.exists_mem_cons_iff]
      · rw [total] at mem
        rw [List.flatMap_cons, List.mem_append]
        rcases rest.written y mem with mem | own | var
        · rcases first.written y mem with old | own | var
          · exact .inl old
          · exact .inr (.inl (.inl own))
          · exact .inr (.inr var)
        · exact .inr (.inl (.inr own))
        · exact .inr (.inr var)

/-- The register of an argument belongs to an application or to a variable. -/
theorem register_of_arg (exact' : a.Exact t) {x : Register} {name : String} {args : List Node}
    (whole : .compound x name args ∈ a.root.preorder) {arg : Node} (mem : arg ∈ args) :
    arg.register ∈ args.flatMap structures ∨ ∃ v, .var arg.register v ∈ a.root.preorder := by
  have inside := mem_preorder_of_arg whole mem
  cases arg with
  | constant y => exact absurd inside (exact'.represents.not_constant y)
  | var y v => exact .inr ⟨v, inside⟩
  | compound y f as =>
      refine .inl (List.mem_flatMap.mpr ⟨_, mem, ?_⟩)
      exact register_mem_structures (mem_preorder_self _) rfl

/-- When all arguments have been built, the application can be. -/
theorem Builds.compound (exact' : a.Exact t) {x : Register} {name : String} {args : List Node}
    (whole : .compound x name args ∈ a.root.preorder) {seen : Seen} {known : Set Register}
    {nodes : List Node}
    (parts : Builds a known (args.flatMap structures)
      (fun n => (∃ arg ∈ args, n ∈ arg.preorder) ∧ n.isCompound) (buildAll seen args) nodes)
    (unwritten : x ∉ known ∪ scopes nodes) :
    Builds a known (x :: args.flatMap structures)
      (fun n => n ∈ (Node.compound x name args).preorder ∧ n.isCompound)
      (build seen (.compound x name args)) (nodes ++ [.compound x name args]) := by
  have serves : Serves .write setScheme.inner (insert x (known ∪ scopes nodes))
      ((args.filter isCompound).map register) := by
    refine .compares (fun _ => .set) fun y mem => ?_
    obtain ⟨arg, applied, rfl⟩ := List.mem_map.mp mem
    obtain ⟨mem, compound⟩ := List.mem_filter.mp applied
    have built := (parts.wanted arg).mpr ⟨⟨arg, mem, mem_preorder_self arg⟩, compound⟩
    exact .inr (.inr ⟨arg, built, .inl rfl⟩)
  obtain ⟨arguments, tracks⟩ := visitAll_arguments exact' setScheme
    (fun arg mem => mem_preorder_of_arg whole mem)
    (parts.tracks.insert_structure exact' (register_mem_structures whole rfl)) serves
  have total : known ∪ scopes (nodes ++ [.compound x name args]) =
      insert x (known ∪ scopes nodes) ∪ {y | y ∈ args.map register} := by
    rw [scopes_append, scopes_singleton, ← Set.union_assoc, scope, Set.union_insert,
      Set.insert_union]
    rfl
  rw [← setArguments_eq] at arguments tracks
  refine ⟨?_, ?_, fun n => ?_, fun y mem => ?_⟩
  · exact parts.blocks.append (Block.put (exact'.register_lt whole) unwritten arguments).single
  · rw [total, build_compound]
    exact tracks
  · rw [List.mem_append, parts.wanted, List.mem_singleton, mem_preorder_compound]
    constructor
    · rintro (⟨below, compound⟩ | rfl)
      · exact ⟨.inr below, compound⟩
      · exact ⟨.inl rfl, rfl⟩
    · rintro ⟨rfl | below, compound⟩
      · exact .inr rfl
      · exact .inl ⟨below, compound⟩
  · rw [total] at mem
    rw [List.mem_cons]
    rcases mem with (rfl | written) | among
    · exact .inr (.inl (.inl rfl))
    · rcases parts.written y written with old | below | var
      · exact .inl old
      · exact .inr (.inl (.inr below))
      · exact .inr (.inr var)
    · obtain ⟨arg, mem, rfl⟩ := List.mem_map.mp among
      rcases register_of_arg exact' whole mem with below | var
      · exact .inr (.inl (.inr below))
      · exact .inr (.inr var)

theorem build_builds (exact' : a.Exact t) {node : Node}
    (part : ∀ n ∈ node.preorder, n ∈ a.root.preorder) {seen : Seen} {known : Set Register}
    (tracks : Tracks a.root seen known) (fresh : ∀ y ∈ node.structures, y ∉ known)
    (nodup : node.structures.Nodup) :
    ∃ nodes, Builds a known node.structures (fun n => n ∈ node.preorder ∧ n.isCompound)
      (build seen node) nodes := by
  induction node using Node.induction generalizing seen known with
  | constant x => exact absurd (part _ (mem_preorder_self _)) (exact'.represents.not_constant x)
  | var x name => exact ⟨[], .nothing tracks fun n => by simp +contextual [preorder, isCompound]⟩
  | compound x name args ih =>
      rw [structures_compound] at fresh nodup ⊢
      obtain ⟨own, nodup⟩ := List.nodup_cons.mp nodup
      have below {arg n : Node} (mem : arg ∈ args) (hn : n ∈ arg.preorder) :
          n ∈ a.root.preorder := part n (mem_preorder_compound.mpr (.inr ⟨arg, mem, hn⟩))
      have whole := part _ (mem_preorder_self _)
      obtain ⟨nodes, parts⟩ := buildAll_builds exact'
        (fun arg mem _ _ => ih arg mem fun n hn => below mem hn)
        (fun arg mem y hy => structures_subset (fun n hn => below mem hn) hy) tracks
        (fun y mem => fresh y (List.mem_cons_of_mem _ mem)) nodup
      have unwritten : x ∉ known ∪ scopes nodes := by
        intro written
        rcases parts.written x written with old | below | ⟨v, var⟩
        · exact fresh x List.mem_cons_self old
        · exact own below
        · exact exact'.var_not_structure var (register_mem_structures whole rfl)
      exact ⟨_, parts.compound exact' whole unwritten⟩

/-- The code for a query has a block for every application of the term. -/
theorem query_blocks (exact' : a.Exact t) :
    ∃ nodes, Blocks a.registerCount ∅ (build [] a.root).1 nodes ∧
      ∀ n, n ∈ nodes ↔ n ∈ a.root.preorder ∧ n.isCompound := by
  have tracks : Tracks a.root [] ∅ := fun y name _ => by simp
  obtain ⟨nodes, builds⟩ := build_builds exact' (fun _ hn => hn) tracks (fun _ _ => by simp)
    exact'.structures_nodup
  exact ⟨nodes, builds.blocks, builds.wanted⟩

/-! ## Programs -/

theorem matchAll_compound (seen : Seen) (x : Register) (name : String) (args nodes : List Node) :
    matchAll seen (.compound x name args :: nodes) =
      (.getStructure ⟨name, args.length⟩ x :: (unifyArguments seen args).1) ++
        matchAll (unifyArguments seen args).2 nodes := rfl

/-- An application is matched after the one that it is an argument of. -/
theorem written_of_parent (exact' : a.Exact t) {done rest : List Node} {n : Node}
    (split : done ++ n :: rest = a.nodes) (part : n ∈ a.root.preorder) (compound : n.isCompound) :
    n.register = 0 ∨ ∃ m ∈ done, n.register ∈ m.args.map register := by
  rcases eq_or_arg_of_mem_preorder part with rfl | ⟨x, f, args, parent, child⟩
  · exact .inl exact'.register
  · have lt := exact'.ordered x f args parent n child compound
    have listed := exact'.mem_nodes_iff.mpr parent
    have ordered := Allocation.Exact.nodes_ordered (a := a)
    rw [← split] at listed ordered
    obtain ⟨_, ordered, _⟩ := List.pairwise_append.mp ordered
    rcases List.mem_append.mp listed with before | after
    · exact .inr ⟨_, before, List.mem_map_of_mem child⟩
    · rcases List.mem_cons.mp after with rfl | after
      · exact absurd lt (Nat.lt_irrefl _)
      · have gt := (List.pairwise_cons.mp ordered).1 _ after
        exact absurd (Nat.lt_trans lt gt) (Nat.lt_irrefl _)

/-- The arguments of an application are not matched before it. -/
theorem unwritten_of_child (exact' : a.Exact t) {done rest : List Node} {n arg : Node}
    (split : done ++ n :: rest = a.nodes) (mem : arg ∈ n.args) (compound : arg.isCompound) :
    ¬∃ m ∈ done, arg.register ∈ m.args.map register := by
  rintro ⟨m, before, among⟩
  have listed (k : Node) (hk : k ∈ done ++ n :: rest) : k ∈ a.root.preorder := by
    rw [split] at hk
    exact exact'.mem_nodes_iff.mp hk
  have hm := listed m (List.mem_append_left _ before)
  have hn := listed n (List.mem_append_right _ List.mem_cons_self)
  obtain ⟨arg', mem', same⟩ := List.mem_map.mp among
  have left' := mem_preorder_of_args hm mem'
  have right' := mem_preorder_of_args hn mem
  obtain rfl := exact'.apart arg' left' arg right' same
  have left : arg'.register ∈ m.children :=
    List.mem_map_of_mem (List.mem_filter.mpr ⟨mem', compound⟩)
  have right : arg'.register ∈ n.children :=
    List.mem_map_of_mem (List.mem_filter.mpr ⟨mem, compound⟩)
  obtain rfl := exact'.child_unique hm hn left right
  have ordered := Allocation.Exact.nodes_ordered (a := a)
  rw [← split] at ordered
  have lt := (List.pairwise_append.mp ordered).2.2 m before m List.mem_cons_self
  exact Nat.lt_irrefl _ lt

theorem unwritten_applications (exact' : a.Exact t) {done rest : List Node} {x : Register}
    {name : String} {args : List Node} (split : done ++ .compound x name args :: rest = a.nodes)
    (part : .compound x name args ∈ a.root.preorder) {known : Set Register}
    (written : ∀ y, y ∈ known ↔ y = 0 ∨ ∃ m ∈ done, y ∈ m.args.map register) :
    ∀ y ∈ (args.filter isCompound).map register, y ∉ insert x known := by
  intro y hy
  obtain ⟨arg, applied, rfl⟩ := List.mem_map.mp hy
  obtain ⟨child, compound⟩ := List.mem_filter.mp applied
  have lt := exact'.ordered x name args part arg child compound
  rintro (same | old)
  · exact absurd same (Nat.ne_of_gt lt)
  · rcases (written _).mp old with zero | before
    · exact absurd zero (Nat.ne_of_gt (Nat.zero_lt_of_lt lt))
    · exact unwritten_of_child exact' split child compound before

/-- What is left of the code for a program, when the nodes in `done` have been matched. -/
theorem matchAll_blocks (exact' : a.Exact t) {done rest : List Node}
    (split : done ++ rest = a.nodes) {seen : Seen} {known : Set Register}
    (tracks : Tracks a.root seen known)
    (written : ∀ y, y ∈ known ↔ y = 0 ∨ ∃ m ∈ done, y ∈ m.args.map register) :
    Blocks a.registerCount known (matchAll seen rest) (rest.filter isCompound) := by
  induction rest generalizing done seen known with
  | nil => exact .nil
  | cons n rest ih =>
      have split' : (done ++ [n]) ++ rest = a.nodes := by rw [← split, List.append_assoc]; rfl
      have part : n ∈ a.root.preorder := by
        rw [← exact'.mem_nodes_iff, ← split]
        simp
      cases n with
      | constant x => exact absurd part (exact'.represents.not_constant x)
      | var x name =>
          refine ih split' tracks fun y => ?_
          simp [written, args]
      | compound x name args =>
          have mem : x ∈ known := (written x).mpr (written_of_parent exact' split part rfl)
          have fresh := unwritten_applications exact' split part written
          have step (mode : Mode) := visitAll_arguments exact' (unifyScheme mode)
            (fun arg child => mem_preorder_of_arg part child)
            (tracks.insert_structure exact' (register_mem_structures part rfl))
            (.notes (fun x => .unify mode) fresh (exact'.children_nodup_of_mem part))
          simp only [← unifyArguments_eq] at step
          have whole : insert x known ∪ {y | y ∈ args.map register} =
              known ∪ (Node.compound x name args).scope := by
            rw [scope, Set.union_insert, Set.insert_union]
            rfl
          rw [matchAll_compound, List.filter_cons_of_pos rfl]
          refine .cons (.get mem fun mode => (step mode).1) (ih split' ?_ fun y => ?_)
          · rw [← whole]
            exact (step .read).2
          · rw [← whole, Set.insert_eq_of_mem mem, Set.mem_union, written]
            simp only [List.mem_append, List.mem_singleton, or_and_right, exists_or,
              exists_eq_left, Node.args, Set.mem_ofPred_eq, or_assoc]

/-- The code for a program has a block for every application of the term. -/
theorem program_blocks (exact' : a.Exact t) :
    ∃ nodes, Blocks a.registerCount {0} (matchAll [] a.nodes) nodes ∧
      ∀ n, n ∈ nodes ↔ n ∈ a.root.preorder ∧ n.isCompound := by
  have root : (0 : Register) ∈ a.root.structures := by
    rw [← exact'.register]
    exact register_mem_structures (mem_preorder_self _) exact'.compound
  have tracks : Tracks a.root [] {0} := by
    intro y name part
    have other : y ≠ 0 := by
      rintro rfl
      exact exact'.var_not_structure part root
    simp [other]
  refine ⟨_, matchAll_blocks exact' (List.nil_append _) tracks (by simp), fun n => ?_⟩
  rw [List.mem_filter, exact'.mem_nodes_iff]

end Code

end TermMachine
