import TermMachine.Proofs.Solving.Variables

/-! # Which terms can be compiled

`CompiledUnit.compile_eq_ok_iff`: a query and a program are compiled if no application in them is
too wide, and only then. No register that is looked up on the way is missing, since the registers of
a term are numbered without a gap, every variable has one of them, and the arguments of applications
are never constants.

The code has no register beyond those it says it needs, and a run can be cut in front of every
instruction that starts a structure: what is left of the cut is code for applications again.
-/

namespace TermMachine

/-! ## Arities -/

namespace Term

/-- No application in the term has more arguments than a structure can hold. -/
def Fits (t : Term) : Prop :=
  ∀ name args, .compound name args ∈ t.preorder → args.length < arityBound

theorem mem_preorderAll_iff {s : Term} {ts : List Term} :
    s ∈ TermOf.preorderAll ts ↔ ∃ t ∈ ts, s ∈ t.preorder := by
  induction ts with
  | nil => simp [TermOf.preorderAll]
  | cons t ts ih => simp [TermOf.preorderAll, ih]

/-- The parts of a term are the whole of it and the arguments of its parts. -/
theorem mem_preorder_iff {s t : Term} :
    s ∈ t.preorder ↔ s ∈ t :: t.preorder.flatMap TermOf.args := by
  induction t using TermOf.induction with
  | atom name => simp [TermOf.preorder, TermOf.args]
  | number value => simp [TermOf.preorder, TermOf.args]
  | var name => simp [TermOf.preorder, TermOf.args]
  | compound name args ih =>
      rw [TermOf.preorder, List.mem_cons, List.mem_cons, mem_preorderAll_iff, List.flatMap_cons,
        List.mem_append]
      refine or_congr_right ⟨?_, ?_⟩
      · rintro ⟨arg, child, part⟩
        rcases List.mem_cons.mp ((ih arg child).mp part) with rfl | below
        · exact .inl child
        · obtain ⟨r, hr, mem⟩ := List.mem_flatMap.mp below
          exact .inr (List.mem_flatMap.mpr ⟨r, mem_preorderAll_iff.mpr ⟨arg, child, hr⟩, mem⟩)
      · rintro (child | below)
        · exact ⟨s, child, (ih s child).mpr List.mem_cons_self⟩
        · obtain ⟨r, hr, mem⟩ := List.mem_flatMap.mp below
          obtain ⟨arg, child, part⟩ := mem_preorderAll_iff.mp hr
          refine ⟨arg, child, (ih arg child).mpr (List.mem_cons_of_mem _ ?_)⟩
          exact List.mem_flatMap.mpr ⟨r, part, mem⟩

theorem tooWide?_eq_none_iff {t : Term} : t.tooWide? = none ↔ t.Fits := by
  unfold tooWide?
  rw [List.findSome?_eq_none_iff]
  constructor
  · intro none name args part
    have here := none _ (mem_preorder_iff.mp part)
    by_contra wide
    simp [wide] at here
  · intro fits s mem
    cases s with
    | atom name => rfl
    | number value => rfl
    | var name => rfl
    | compound name args => exact if_pos (fits name args (mem_preorder_iff.mpr mem))

end Term

/-! ## The table of registers -/

namespace Allocation

/-- The table has an entry for every register, and it is for the node that has this register. -/
theorem exists_node (t : Term) {x : Register} (lt : x < (ofTerm t).registerCount) :
    ∃ n ∈ (ofTerm t).root.preorder, n.register = x ∧ (ofTerm t).nodes[x]? = some n := by
  have total : ∀ y ∈ List.range (ofTerm t).registerCount, ∃ n ∈ (ofTerm t).root.preorder,
      n.register = y ∧
        (ofTerm t).root.preorder.find? (fun node => node.register == y) = some n := by
    intro y mem
    obtain ⟨n, part, same⟩ := exists_part t (List.mem_range.mp mem)
    cases found : (ofTerm t).root.preorder.find? (fun node => node.register == y) with
    | none =>
        have other := List.find?_eq_none.mp found n part
        simp [same] at other
    | some m =>
        have same' : m.register = y := by simpa using List.find?_some found
        exact ⟨m, List.mem_of_find?_eq_some found, same', rfl⟩
  have listed : (ofTerm t).nodes = (List.range (ofTerm t).registerCount).map fun y =>
      ((ofTerm t).root.preorder.find? fun node => node.register == y).getD (.constant y) := by
    rw [nodes, ← List.filterMap_eq_map]
    refine List.filterMap_congr fun y mem => ?_
    obtain ⟨n, _, _, found⟩ := total y mem
    simp [found]
  obtain ⟨n, part, same, found⟩ := total x (List.mem_range.mpr lt)
  refine ⟨n, part, same, ?_⟩
  rw [listed, List.getElem?_map, List.getElem?_range lt, Option.map_some, found, Option.getD_some]

namespace Exact

variable {a : Allocation} {t : Term}

theorem mem_args_entries (exact' : a.Exact t) {x : Register}
    (mem : x ∈ a.entries.flatMap Entry.args) : ∃ n ∈ a.root.preorder, n.register = x := by
  obtain ⟨entry, listed, among⟩ := List.mem_flatMap.mp mem
  obtain ⟨node, hn, rfl⟩ := List.mem_map.mp listed
  have part := exact'.mem_nodes_iff.mp hn
  cases node with
  | constant y => cases among
  | var y name => cases among
  | compound y name args =>
      obtain ⟨arg, child, same⟩ := List.mem_map.mp among
      exact ⟨arg, Node.mem_preorder_of_arg part child, same⟩

end Exact

theorem exists_argumentEntries (t : Term) : ∃ es, (ofTerm t).argumentEntries = .ok es := by
  cases t with
  | atom name => exact ⟨[], rfl⟩
  | number value => exact ⟨[], rfl⟩
  | var name => exact ⟨[], rfl⟩
  | compound name args =>
      have exact' := exact_ofTerm name args
      refine exists_collect fun x mem => ?_
      obtain ⟨n, part, rfl⟩ := exact'.mem_args_entries mem
      obtain ⟨m, part', same, found⟩ := exists_node (.compound name args) (exact'.register_lt part)
      rw [exact'.apart m part' n part same] at found
      have entry : (ofTerm (.compound name args)).entries[n.register]? = some (.ofNode n) := by
        rw [entries, List.getElem?_map, found, Option.map_some]
      cases n with
      | constant y => exact absurd part (exact'.represents.not_constant y)
      | var y v => exact ⟨.var v, by simp only [Entry.ofArgument, entry, Entry.ofNode]⟩
      | compound y f as =>
          exact ⟨.compound f (as.map Node.register), by
            simp only [Entry.ofArgument, entry, Entry.ofNode]⟩

/-- Every variable of a term has a register. -/
theorem lookup_vars (t : Term) {name : String} (occurs : name ∈ t.vars) :
    ∃ x, (ofTerm t).vars.lookup name = some x := by
  cases t with
  | atom f => cases List.mem_eraseDups.mp occurs
  | number value => cases List.mem_eraseDups.mp occurs
  | var v =>
      obtain rfl := List.mem_singleton.mp (List.mem_eraseDups.mp occurs)
      exact ⟨0, by simp [ofTerm]⟩
  | compound f args =>
      obtain ⟨x, _, found⟩ := CompiledTerm.exists_part (exact_ofTerm f args) occurs
      exact ⟨x, found⟩

end Allocation

/-! ## Compiling -/

namespace CompiledTerm

theorem collect_registerOf (t : Term) :
    collect (fun name => ((Allocation.ofTerm t).registerOf name).map (Prod.mk name)) t.vars =
      .ok (variablesOf t (Allocation.ofTerm t)) := by
  have all : ∀ names : List String, (∀ name ∈ names, name ∈ t.vars) →
      names.map (fun name => ((Allocation.ofTerm t).registerOf name).map (Prod.mk name)) =
        (names.filterMap fun name =>
          ((Allocation.ofTerm t).vars.lookup name).map fun x => (name, x)).map
            (Except.ok (ε := AllocationError)) := by
    intro names sub
    induction names with
    | nil => rfl
    | cons name names ih =>
        obtain ⟨x, found⟩ := Allocation.lookup_vars t (sub name List.mem_cons_self)
        have here : ((Allocation.ofTerm t).registerOf name).map (Prod.mk name) = .ok (name, x) := by
          simp only [Allocation.registerOf, found, Except.map]
        have rest := ih fun v mem => sub v (List.mem_cons_of_mem _ mem)
        rw [List.map_cons, here, rest, List.filterMap_cons, found, Option.map_some, List.map_cons]
  exact collect_eq_ok_iff.mpr (all t.vars fun _ mem => mem)

theorem checked_of_fits {t : Term} (fits : t.Fits) (code : Allocation → List Instruction) :
    checked code t = .ok ⟨code (Allocation.ofTerm t), variablesOf t (Allocation.ofTerm t),
      (Allocation.ofTerm t).registerCount⟩ := by
  obtain ⟨es, found⟩ := Allocation.exists_argumentEntries t
  simp only [checked, Term.tooWide?_eq_none_iff.mpr fits, found, collect_registerOf]

/-- An application that is too wide itself is refused for that, whatever its arguments are. -/
theorem checked_of_wide (f : String) {args : List Term} (wide : arityBound ≤ args.length)
    (code : Allocation → List Instruction) :
    checked code (.compound f args) = .error (.invalidTerm f args.length) := by
  have found : Term.tooWide? (.compound f args) = some (f, args.length) := by
    unfold Term.tooWide?
    rw [List.findSome?_cons]
    simp [Nat.not_lt.mpr wide]
  simp only [checked, found]

/-- An application that is too wide is the only reason not to compile a term. -/
theorem checked_of_not_fits {t : Term} (wide : ¬t.Fits) (code : Allocation → List Instruction) :
    ∃ name arity, arityBound ≤ arity ∧ checked code t = .error (.invalidTerm name arity) := by
  cases found : t.tooWide? with
  | none => exact absurd (Term.tooWide?_eq_none_iff.mp found) wide
  | some pair =>
      obtain ⟨name, arity⟩ := pair
      refine ⟨name, arity, ?_, by simp only [checked, found]⟩
      obtain ⟨s, _, here⟩ := List.exists_of_findSome?_eq_some found
      cases s with
      | atom f => cases here
      | number value => cases here
      | var v => cases here
      | compound f args =>
          by_cases fits : args.length < arityBound
          · simp [fits] at here
          · simp only [fits, if_false, Option.some.injEq, Prod.mk.injEq] at here
            exact here.2 ▸ Nat.le_of_not_lt fits

end CompiledTerm

namespace CompiledUnit

/-- A query and a program are compiled if all arities fit, and then to the code of both. -/
theorem compile_eq_ok_iff {query program : Term} {u : CompiledUnit} :
    compile query program = .ok u ↔
      query.Fits ∧ program.Fits ∧ u = ofTerms query program := by
  by_cases fits : query.Fits
  · have first : CompiledTerm.compileQuery query = .ok (.query query) :=
      CompiledTerm.checked_of_fits fits _
    by_cases fits' : program.Fits
    · have second : CompiledTerm.compileProgram program = .ok (.program program) :=
        CompiledTerm.checked_of_fits fits' _
      simp only [compile, first, second, Except.ok.injEq, fits, fits', true_and, ofTerms, eq_comm]
    · obtain ⟨name, arity, _, second⟩ := CompiledTerm.checked_of_not_fits fits'
        fun a => Code.matchAll [] a.nodes
      simp only [compile, first, CompiledTerm.compileProgram, second, fits', false_and, and_false,
        reduceCtorEq]
  · obtain ⟨name, arity, _, first⟩ := CompiledTerm.checked_of_not_fits fits
      fun a => (Code.build [] a.root).1
    simp only [compile, CompiledTerm.compileQuery, first, fits, false_and, reduceCtorEq]

end CompiledUnit

/-! ## Registers in code -/

namespace Instruction

def register : Instruction → Register
  | .putStructure _ x | .setVariable x | .setValue x => x
  | .getStructure _ x | .unifyVariable x | .unifyValue x => x

def Starts : Instruction → Prop
  | .putStructure _ _ | .getStructure _ _ => True
  | .setVariable _ | .setValue _ | .unifyVariable _ | .unifyValue _ => False

end Instruction

namespace Code

variable {count : Nat} {known : Set Register} {is : List Instruction}

theorem Arguments.register_lt {mode : Mode} {xs : List Register}
    (arguments : Arguments count mode known is xs) (below : ∀ y ∈ known, y < count) :
    (∀ i ∈ is, i.register < count) ∧ ∀ x ∈ xs, x < count := by
  induction arguments with
  | nil => exact ⟨nofun, nofun⟩
  | @new known i is x xs notes lt _ _ ih =>
      obtain ⟨instructions, registers⟩ := ih fun y mem => mem.elim (fun eq => eq ▸ lt) (below y)
      have first : i.register = x := by cases notes <;> rfl
      exact ⟨List.forall_mem_cons.mpr ⟨first ▸ lt, instructions⟩,
        List.forall_mem_cons.mpr ⟨lt, registers⟩⟩
  | @old known i is x xs compares mem _ ih =>
      obtain ⟨instructions, registers⟩ := ih below
      have first : i.register = x := by cases compares <;> rfl
      exact ⟨List.forall_mem_cons.mpr ⟨first ▸ below x mem, instructions⟩,
        List.forall_mem_cons.mpr ⟨below x mem, registers⟩⟩

theorem Block.register_lt {node : Node} (block : Block count known is node)
    (below : ∀ y ∈ known, y < count) :
    (∀ i ∈ is, i.register < count) ∧ ∀ y ∈ node.scope, y < count := by
  have whole {x : Register} {f : String} {args : List Node} {mode : Mode} {is : List Instruction}
      (lt : x < count)
      (arguments : Arguments count mode (insert x known) is (args.map Node.register)) :
      (∀ i ∈ is, i.register < count) ∧ ∀ y ∈ (Node.compound x f args).scope, y < count := by
    obtain ⟨instructions, registers⟩ :=
      arguments.register_lt fun y mem => mem.elim (fun eq => eq ▸ lt) (below y)
    exact ⟨instructions, fun y mem => mem.elim (fun eq => eq ▸ lt) (registers y)⟩
  cases block with
  | put lt _ arguments =>
      obtain ⟨instructions, scope⟩ := whole lt arguments
      exact ⟨List.forall_mem_cons.mpr ⟨lt, instructions⟩, scope⟩
  | get mem arguments =>
      obtain ⟨instructions, scope⟩ := whole (below _ mem) (arguments .read)
      exact ⟨List.forall_mem_cons.mpr ⟨below _ mem, instructions⟩, scope⟩

theorem Blocks.register_lt {nodes : List Node} (blocks : Blocks count known is nodes)
    (below : ∀ y ∈ known, y < count) : ∀ i ∈ is, i.register < count := by
  induction blocks with
  | nil => exact nofun
  | cons block _ ih =>
      obtain ⟨instructions, scope⟩ := block.register_lt below
      have rest := ih fun y mem => mem.elim (below y) (scope y)
      exact List.forall_mem_append.mpr ⟨instructions, rest⟩

/-! ## Cuts -/

theorem Arguments.not_starts {mode : Mode} {xs : List Register}
    (arguments : Arguments count mode known is xs) : ∀ i ∈ is, ¬i.Starts := by
  induction arguments with
  | nil => exact nofun
  | new notes _ _ _ ih =>
      refine List.forall_mem_cons.mpr ⟨?_, ih⟩
      cases notes <;> exact id
  | old compares _ _ ih =>
      refine List.forall_mem_cons.mpr ⟨?_, ih⟩
      cases compares <;> exact id

/-- Only the first instruction of a block starts a structure. -/
theorem Block.not_starts {node : Node} (block : Block count known is node) :
    ∀ i ∈ is.tail, ¬i.Starts := by
  cases block with
  | put _ _ arguments => exact arguments.not_starts
  | get _ arguments => exact (arguments .read).not_starts

/-- Code can be cut in front of an instruction that starts a structure. -/
theorem Blocks.cut {nodes : List Node} (blocks : Blocks count known is nodes)
    {before after : List Instruction} {i : Instruction} (split : is = before ++ i :: after)
    (starts : i.Starts) :
    ∃ done left, nodes = done ++ left ∧ Blocks count known before done := by
  induction blocks generalizing before with
  | nil => simp at split
  | @cons known js ks node nodes block _ ih =>
      rcases before with _ | ⟨j, before⟩
      · exact ⟨[], node :: nodes, rfl, .nil⟩
      · rcases List.append_eq_append_iff.mp split with ⟨more, first, rest⟩ | ⟨more, first, rest⟩
        · obtain ⟨done, left, rfl, cut⟩ := ih rest
          exact ⟨node :: done, left, rfl, first ▸ .cons block cut⟩
        · -- the cut is not inside the block, so it can only be at its end
          rcases more with _ | ⟨k, more⟩
          · rw [List.append_nil] at first
            exact ⟨[node], nodes, rfl, first ▸ block.single⟩
          · obtain rfl : i = k := (List.cons.inj rest).1
            exact absurd starts (block.not_starts i (by simp [first]))

end Code

end TermMachine
