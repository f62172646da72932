import TermMachine.Proofs.Node
import Mathlib.Data.List.Nodup

/-! # Every register is for one part of a term

In the walk that gives a term its registers, the registers up to the next one are always accounted
for: each belongs to exactly one application or variable, or was given to an argument that the walk
has not come to yet. `Placed` says so for the walk through one term. When the whole term has been
walked through, every register is for one part of it.
-/

namespace TermMachine

namespace Supply

/-- How often a register is among the first `n`. -/
def among (n y : Nat) : Nat := if y < n then 1 else 0

theorem among_succ (n y : Nat) : among (n + 1) y = among n y + [n].count y := by
  simp only [among, List.count_singleton, beq_iff_eq]
  split <;> split <;> split <;> omega

def registers (s : Supply) : List Register := s.vars.map Prod.snd

/-- The registers that were handed out for an argument: none for a variable, which may have had
one. -/
def reserved : Term → Register → List Register
  | .var _, _ => []
  | .atom _, x | .number _, x | .compound _ _, x => [x]

def For (s : Supply) : Term → Register → Prop
  | .var name, x => s.vars.lookup name = some x
  | .atom _, x | .number _, x | .compound _ _, x => x < s.next

/-- From `s` to `s'` the registers `given` were used up, and `out` were handed out. -/
structure Balanced (s : Supply) (given : List Register) (s' : Supply) (out : List Register) :
    Prop where
  count : ∀ y, out.count y + s'.registers.count y + among s.next y =
    given.count y + s.registers.count y + among s'.next y
  next : s.next ≤ s'.next
  vars : s.vars <+: s'.vars

theorem Balanced.refl (s : Supply) (out : List Register) : Balanced s out s out :=
  ⟨fun _ => rfl, Nat.le_refl _, List.prefix_refl _⟩

theorem Balanced.trans {s₁ s₂ s₃ : Supply} {given₁ given₂ out₁ out₂ : List Register}
    (first : Balanced s₁ given₁ s₂ out₁) (second : Balanced s₂ given₂ s₃ out₂) :
    Balanced s₁ (given₁ ++ given₂) s₃ (out₁ ++ out₂) where
  count y := by
    have := first.count y
    have := second.count y
    simp only [List.count_append]
    omega
  next := Nat.le_trans first.next second.next
  vars := first.vars.trans second.vars

theorem Balanced.isFor {s s' : Supply} {given out : List Register} (b : Balanced s given s' out)
    {t : Term} {x : Register} (h : s.For t x) : s'.For t x := by
  cases t with
  | var name => exact b.vars.lookup_eq_some h
  | atom name => exact Nat.lt_of_lt_of_le h b.next
  | number value => exact Nat.lt_of_lt_of_le h b.next
  | compound name args => exact Nat.lt_of_lt_of_le h b.next

theorem ofVariable_balanced (s : Supply) (name : String) :
    Balanced s [] (s.ofVariable name).2 [] ∧
      (s.ofVariable name).2.vars.lookup name = some (s.ofVariable name).1 := by
  cases found : s.vars.lookup name with
  | some x =>
      simp only [ofVariable, found]
      exact ⟨.refl s [], trivial⟩
  | none =>
      simp only [ofVariable, found]
      refine ⟨⟨fun y => ?_, Nat.le_succ _, List.prefix_append _ _⟩, ?_⟩
      · simp only [registers, List.map_append, List.map_cons, List.map_nil, List.count_append,
          among_succ, List.count_nil]
        omega
      · rw [List.lookup_append, found]
        simp

theorem fresh_balanced (s : Supply) : Balanced s [] s.fresh.2 [s.fresh.1] where
  count y := by
    have := among_succ s.next y
    simp only [fresh, registers, List.count_nil]
    omega
  next := Nat.le_succ _
  vars := List.prefix_refl _

theorem ofArgument_balanced (s : Supply) (t : Term) :
    Balanced s [] (s.ofArgument t).2 (reserved t (s.ofArgument t).1) ∧
      (s.ofArgument t).2.For t (s.ofArgument t).1 ∧
      ∀ x ∈ reserved t (s.ofArgument t).1, s.next ≤ x := by
  cases t with
  | var name =>
      obtain ⟨balanced, found⟩ := ofVariable_balanced s name
      exact ⟨balanced, found, nofun⟩
  | atom name =>
      exact ⟨fresh_balanced s, Nat.lt_succ_self _, by simp [reserved, ofArgument, fresh]⟩
  | number value =>
      exact ⟨fresh_balanced s, Nat.lt_succ_self _, by simp [reserved, ofArgument, fresh]⟩
  | compound name args =>
      exact ⟨fresh_balanced s, Nat.lt_succ_self _, by simp [reserved, ofArgument, fresh]⟩

def reservedAll (ts : List Term) (xs : List Register) : List Register :=
  (List.zipWith reserved ts xs).flatten

theorem ofArguments_balanced (s : Supply) (ts : List Term) :
    Balanced s [] (s.ofArguments ts).2 (reservedAll ts (s.ofArguments ts).1) ∧
      List.Forall₂ ((s.ofArguments ts).2.For) ts (s.ofArguments ts).1 ∧
      ∀ x ∈ reservedAll ts (s.ofArguments ts).1, s.next ≤ x := by
  induction ts generalizing s with
  | nil => exact ⟨.refl s [], .nil, nofun⟩
  | cons t ts ih =>
      obtain ⟨first, isFor, new⟩ := ofArgument_balanced s t
      obtain ⟨rest, areFor, news⟩ := ih (s.ofArgument t).2
      refine ⟨first.trans rest, .cons (rest.isFor isFor) areFor, fun x mem => ?_⟩
      rcases List.mem_append.mp mem with mem | mem
      · exact new x mem
      · exact Nat.le_trans first.next (news x mem)

end Supply

namespace Node

open Supply

/-- The walk through the term `t`, for which the register `x` has been handed out before. -/
structure Placed (t : Term) (x : Register) (s : Supply) (node : Node) (s' : Supply) : Prop where
  register : node.register = x
  represents : node.Represents t
  balanced : Balanced s (reserved t x) s' node.structures
  named : ∀ y name, .var y name ∈ node.preorder → s'.vars.lookup name = some y
  ordered : ∀ y f args, .compound y f args ∈ node.preorder → ∀ arg ∈ args, arg.isCompound →
    y < arg.register

structure PlacedAll (ts : List Term) (xs : List Register) (s : Supply) (nodes : List Node)
    (s' : Supply) : Prop where
  registers : nodes.map register = xs
  represents : List.Forall₂ Represents nodes ts
  balanced : Balanced s (reservedAll ts xs) s' (nodes.flatMap structures)
  named : ∀ node ∈ nodes, ∀ y name, .var y name ∈ node.preorder → s'.vars.lookup name = some y
  ordered : ∀ node ∈ nodes, ∀ y f args, .compound y f args ∈ node.preorder → ∀ arg ∈ args,
    arg.isCompound → y < arg.register

theorem placedAll {ts : List Term}
    (each : ∀ t ∈ ts, ∀ x s, s.For t x → Placed t x s (ofTerm t x s).1 (ofTerm t x s).2)
    {xs : List Register} {s : Supply} (areFor : List.Forall₂ s.For ts xs) :
    PlacedAll ts xs s (ofTerms ts xs s).1 (ofTerms ts xs s).2 := by
  induction ts generalizing xs s with
  | nil =>
      cases areFor
      exact ⟨rfl, .nil, .refl s [], nofun, nofun⟩
  | cons t ts ih =>
      cases areFor with
      | @cons _ x _ xs isFor areFor =>
          have first := each t List.mem_cons_self x s isFor
          have later : List.Forall₂ (ofTerm t x s).2.For ts xs :=
            areFor.imp fun _ _ => first.balanced.isFor
          have rest := ih (fun t mem => each t (List.mem_cons_of_mem _ mem)) later
          refine ⟨?_, .cons first.represents rest.represents, first.balanced.trans rest.balanced,
            fun node mem => ?_, fun node mem => ?_⟩
          · exact congrArg₂ List.cons first.register rest.registers
          · rcases List.mem_cons.mp mem with rfl | mem
            · intro y name part
              exact rest.balanced.vars.lookup_eq_some (first.named y name part)
            · exact rest.named node mem
          · rcases List.mem_cons.mp mem with rfl | mem
            · exact first.ordered
            · exact rest.ordered node mem

theorem register_mem_reservedAll {nodes : List Node} {ts : List Term}
    (repr : List.Forall₂ Represents nodes ts) {node : Node} (mem : node ∈ nodes)
    (compound : node.isCompound) : node.register ∈ reservedAll ts (nodes.map register) := by
  induction repr with
  | nil => cases mem
  | cons first _ ih =>
      rw [reservedAll, List.map_cons, List.zipWith_cons_cons, List.flatten_cons, List.mem_append]
      rcases List.mem_cons.mp mem with rfl | mem
      · refine .inl ?_
        cases first with
        | atom => exact List.mem_singleton_self _
        | number => exact List.mem_singleton_self _
        | var => cases compound
        | compound _ => exact List.mem_singleton_self _
      · exact .inr (ih mem)

theorem placed_constant {t : Term} {x : Register} {s : Supply} {name : String}
    (repr : Represents (.compound x name []) t) (own : reserved t x = [x]) :
    Placed t x s (.compound x name []) s where
  register := rfl
  represents := repr
  balanced := own ▸ Balanced.refl s [x]
  named y v part := by simp [preorder, preorderAll] at part
  ordered y f args part arg mem := by
    obtain ⟨rfl, rfl, rfl⟩ : y = x ∧ f = name ∧ args = [] := by
      simpa [preorder, preorderAll] using part
    cases mem

theorem placed {t : Term} {x : Register} {s : Supply} (isFor : s.For t x) :
    Placed t x s (ofTerm t x s).1 (ofTerm t x s).2 := by
  induction t using TermOf.induction generalizing x s with
  | atom name => exact placed_constant .atom rfl
  | number value => exact placed_constant .number rfl
  | var name =>
      refine ⟨rfl, .var, .refl s [], fun y v part => ?_, fun y f args part => ?_⟩
      · obtain ⟨rfl, rfl⟩ : y = x ∧ v = name := by simpa [ofTerm, preorder] using part
        exact isFor
      · simp [ofTerm, preorder] at part
  | compound name args ih =>
      obtain ⟨numbered, areFor, new⟩ := ofArguments_balanced s args
      have walked := placedAll (fun t mem x s => ih t mem) areFor
      refine ⟨rfl, .compound walked.represents, ?_, fun y v part => ?_, fun y f as part => ?_⟩
      · have total := numbered.trans walked.balanced
        refine ⟨fun y => ?_, total.next, total.vars⟩
        have := total.count y
        simp only [List.count_append, List.nil_append] at this
        simp only [ofTerm, structures_compound, reserved, List.count_cons, List.count_nil]
        omega
      · rcases mem_preorder_compound.mp part with same | ⟨node, mem, part⟩
        · cases same
        · exact walked.named node mem y v part
      · rcases mem_preorder_compound.mp part with same | ⟨node, mem, part⟩
        · cases same
          intro arg mem compound
          have out := register_mem_reservedAll walked.represents mem compound
          rw [walked.registers] at out
          exact Nat.lt_of_lt_of_le isFor (new _ out)
        · exact walked.ordered node mem y f as part

/-! ## Children -/

def children (node : Node) : List Register := (node.args.filter isCompound).map register

/-- The applications in a term are the whole of it and the children of its parts. -/
theorem structures_perm (node : Node) :
    node.structures.Perm
      ((if node.isCompound then [node.register] else []) ++ node.preorder.flatMap children) := by
  induction node using Node.induction with
  | constant x => rfl
  | var x name => rfl
  | compound x name args ih =>
      have heads : args.flatMap (fun arg => if arg.isCompound then [arg.register] else []) =
          (Node.compound x name args).children := by
        simp only [children, Node.args]
        clear ih
        induction args with
        | nil => rfl
        | cons arg args ih =>
            rw [List.flatMap_cons, ih, List.filter_cons]
            split <;> simp
      have below : (Node.compound x name args).preorder.flatMap children =
          (Node.compound x name args).children ++
            args.flatMap fun arg => arg.preorder.flatMap children := by
        rw [preorder, preorderAll_eq_flatMap, List.flatMap_cons, List.flatMap_assoc]
      rw [structures_compound, below, ← heads]
      refine List.Perm.cons x ?_
      refine List.Perm.trans ?_ (List.flatMap_append_perm args _ _).symm
      exact List.Perm.flatMap_left args ih

end Node

/-! ## The whole term -/

namespace Allocation

open Node Supply

/-- Every register of an allocation is for exactly one part of the term, and arguments have higher
registers than what they are arguments of. -/
structure Exact (a : Allocation) (t : Term) : Prop where
  represents : a.root.Represents t
  register : a.root.register = 0
  compound : a.root.isCompound
  count : ∀ y, a.root.structures.count y + (a.vars.map Prod.snd).count y = among a.registerCount y
  named : ∀ y name, .var y name ∈ a.root.preorder → a.vars.lookup name = some y
  ordered : ∀ y f args, .compound y f args ∈ a.root.preorder → ∀ arg ∈ args, arg.isCompound →
    y < arg.register

theorem exact_ofTerm (name : String) (args : List Term) :
    (ofTerm (.compound name args)).Exact (.compound name args) := by
  have isFor : Supply.start.For (.compound name args) 0 := Nat.one_pos
  have walked := placed isFor
  refine ⟨walked.represents, walked.register, rfl, fun y => ?_, walked.named, walked.ordered⟩
  have total := walked.balanced.count y
  have none : among 0 y = 0 := if_neg (Nat.not_lt_zero y)
  have first : among 1 y = [(0 : Register)].count y :=
    (among_succ 0 y).trans (by rw [none, Nat.zero_add])
  simp only [reserved, registers, start, List.map_nil, List.count_nil] at total
  simp only [ofTerm, start]
  omega

namespace Exact

variable {a : Allocation} {t : Term}

theorem count_le_one (exact' : a.Exact t) (y : Register) :
    a.root.structures.count y + (a.vars.map Prod.snd).count y ≤ 1 := by
  rw [exact'.count, among]
  split <;> omega

theorem structures_nodup (exact' : a.Exact t) : a.root.structures.Nodup := by
  refine List.nodup_iff_count_le_one.mpr fun y => ?_
  have := exact'.count_le_one y
  omega

theorem vars_nodup (exact' : a.Exact t) : (a.vars.map Prod.snd).Nodup := by
  refine List.nodup_iff_count_le_one.mpr fun y => ?_
  have := exact'.count_le_one y
  omega

theorem mem_vars (exact' : a.Exact t) {y : Register} {name : String}
    (part : .var y name ∈ a.root.preorder) : (name, y) ∈ a.vars := by
  obtain ⟨before, after, eq, _⟩ := List.lookup_eq_some_iff.mp (exact'.named y name part)
  simp [eq]

theorem count_vars_pos (exact' : a.Exact t) {y : Register} {name : String}
    (part : .var y name ∈ a.root.preorder) : 0 < (a.vars.map Prod.snd).count y :=
  List.count_pos_iff.mpr (List.mem_map_of_mem (f := Prod.snd) (exact'.mem_vars part))

/-- No application has the register of a variable. -/
theorem var_not_structure (exact' : a.Exact t) {y : Register} {name : String}
    (part : .var y name ∈ a.root.preorder) : y ∉ a.root.structures := by
  intro mem
  have := exact'.count_le_one y
  have := List.count_pos_iff.mpr mem
  have := exact'.count_vars_pos part
  omega

theorem register_lt (exact' : a.Exact t) {node : Node} (part : node ∈ a.root.preorder) :
    node.register < a.registerCount := by
  have handed : 0 < among a.registerCount node.register := by
    rw [← exact'.count]
    cases node with
    | constant x => exact absurd part (exact'.represents.not_constant x)
    | var x name => exact Nat.add_pos_right _ (exact'.count_vars_pos part)
    | compound x name args =>
        have := List.count_pos_iff.mpr (register_mem_structures part rfl)
        exact Nat.add_pos_left this _
  unfold among at handed
  split at handed
  · assumption
  · cases handed

/-- A register tells which part of the term it is for. -/
theorem apart (exact' : a.Exact t) : a.root.Apart := by
  intro m hm n hn same
  cases m with
  | constant x => exact absurd hm (exact'.represents.not_constant x)
  | var x name =>
      cases n with
      | constant y => exact absurd hn (exact'.represents.not_constant y)
      | var y name' =>
          obtain rfl : x = y := same
          have eq := List.inj_on_of_nodup_map exact'.vars_nodup (exact'.mem_vars hm)
            (exact'.mem_vars hn) rfl
          cases eq
          rfl
      | compound y name' args =>
          obtain rfl : x = y := same
          exact absurd (register_mem_structures hn rfl) (exact'.var_not_structure hm)
  | compound x name args =>
      cases n with
      | constant y => exact absurd hn (exact'.represents.not_constant y)
      | var y name' =>
          obtain rfl : x = y := same
          exact absurd (register_mem_structures hm rfl) (exact'.var_not_structure hn)
      | compound y name' args' =>
          exact List.inj_on_of_nodup_map exact'.structures_nodup
            (List.mem_filter.mpr ⟨hm, rfl⟩) (List.mem_filter.mpr ⟨hn, rfl⟩) same

theorem children_nodup (exact' : a.Exact t) : (a.root.preorder.flatMap children).Nodup := by
  have all := a.root.structures_perm.nodup_iff.mp exact'.structures_nodup
  exact (List.nodup_append.mp all).2.1

/-- No application is an argument twice. -/
theorem child_unique (exact' : a.Exact t) {m n : Node} (hm : m ∈ a.root.preorder)
    (hn : n ∈ a.root.preorder) {y : Register} (my : y ∈ m.children) (ny : y ∈ n.children) :
    m = n := by
  by_contra other
  have disjoint := (List.nodup_flatMap.mp exact'.children_nodup).2
  have : Std.Symm (Function.onFun List.Disjoint children) := ⟨fun _ _ d => d.symm⟩
  exact disjoint.forall hm hn other my ny

theorem children_nodup_of_mem (exact' : a.Exact t) {n : Node} (hn : n ∈ a.root.preorder) :
    n.children.Nodup := (List.nodup_flatMap.mp exact'.children_nodup).1 n hn

/-! ## The nodes in the order of their registers -/

theorem mem_nodes_iff (exact' : a.Exact t) {node : Node} :
    node ∈ a.nodes ↔ node ∈ a.root.preorder := by
  rw [nodes, List.mem_filterMap]
  constructor
  · rintro ⟨x, _, found⟩
    exact List.mem_of_find?_eq_some found
  · intro part
    refine ⟨node.register, List.mem_range.mpr (exact'.register_lt part), ?_⟩
    cases found : a.root.preorder.find? (·.register == node.register) with
    | none =>
        have other := List.find?_eq_none.mp found node part
        simp at other
    | some m =>
        have same : m.register = node.register := by simpa using List.find?_some found
        rw [exact'.apart m (List.mem_of_find?_eq_some found) node part same]

theorem nodes_ordered : a.nodes.Pairwise fun m n => m.register < n.register := by
  refine List.pairwise_filterMap.mpr (List.pairwise_lt_range.imp fun {x y} lt m hm n hn => ?_)
  have left : m.register = x := by simpa using List.find?_some hm
  have right : n.register = y := by simpa using List.find?_some hn
  rw [left, right]
  exact lt

end Exact

end Allocation

/-! ## No register is left over -/

theorem Supply.ofArgument_next (s : Supply) (t : Term) :
    (s.ofArgument t).2.next = s.next ∨
      ((s.ofArgument t).1 = s.next ∧ (s.ofArgument t).2.next = s.next + 1) := by
  cases t with
  | atom name => exact .inr ⟨rfl, rfl⟩
  | number value => exact .inr ⟨rfl, rfl⟩
  | compound name args => exact .inr ⟨rfl, rfl⟩
  | var name =>
      show (s.ofVariable name).2.next = s.next ∨
        ((s.ofVariable name).1 = s.next ∧ (s.ofVariable name).2.next = s.next + 1)
      unfold ofVariable
      split
      · exact .inl rfl
      · exact .inr ⟨rfl, rfl⟩

theorem Supply.ofArguments_covers (s : Supply) (ts : List Term) {y : Register} (le : s.next ≤ y)
    (lt : y < (s.ofArguments ts).2.next) : y ∈ (s.ofArguments ts).1 := by
  induction ts generalizing s with
  | nil => exact absurd lt (Nat.not_lt.mpr le)
  | cons t ts ih =>
      have first : (s.ofArgument t).2.next ≤ y ∨ y = (s.ofArgument t).1 := by
        rcases s.ofArgument_next t with same | ⟨new, next⟩
        · exact .inl (same ▸ le)
        · rcases Nat.eq_or_lt_of_le le with same | above
          · exact .inr (same.symm.trans new.symm)
          · exact .inl (next ▸ above)
      rcases first with later | same
      · exact List.mem_cons_of_mem _ (ih _ later lt)
      · exact List.mem_cons.mpr (.inl same)

theorem Supply.length_ofArguments (s : Supply) (ts : List Term) :
    (s.ofArguments ts).1.length = ts.length := by
  induction ts generalizing s with
  | nil => rfl
  | cons t ts ih => simp only [ofArguments, List.length_cons, ih]

namespace Node

theorem register_ofTerm (t : Term) (x : Register) (s : Supply) : (ofTerm t x s).1.register = x := by
  cases t <;> rfl

theorem registers_ofTerms {ts : List Term} {xs : List Register} (len : xs.length = ts.length)
    (s : Supply) : (ofTerms ts xs s).1.map register = xs := by
  induction ts generalizing xs s with
  | nil => exact (List.eq_nil_of_length_eq_zero len).symm
  | cons t ts ih =>
      cases xs with
      | nil => cases len
      | cons x xs =>
          simp only [ofTerms, List.map_cons, register_ofTerm, ih (Nat.succ.inj len)]

/-- A register that is handed out during the walk through a term is for a part of it. -/
theorem ofTerm_covers (t : Term) {x : Register} {s : Supply} {y : Register} (le : s.next ≤ y)
    (lt : y < (ofTerm t x s).2.next) : ∃ n ∈ (ofTerm t x s).1.preorder, n.register = y := by
  induction t using TermOf.induction generalizing x s with
  | atom name => exact absurd lt (Nat.not_lt.mpr le)
  | number value => exact absurd lt (Nat.not_lt.mpr le)
  | var name => exact absurd lt (Nat.not_lt.mpr le)
  | compound name args ih =>
      have inside : ∀ ts, (∀ t ∈ ts, t ∈ args) → ∀ {xs s}, s.next ≤ y →
          y < (ofTerms ts xs s).2.next →
            ∃ arg ∈ (ofTerms ts xs s).1, ∃ n ∈ arg.preorder, n.register = y := by
        intro ts
        induction ts with
        | nil => exact fun _ _ _ le lt => absurd lt (Nat.not_lt.mpr le)
        | cons t ts ih' =>
            intro sub xs s le lt
            cases xs with
            | nil => exact absurd lt (Nat.not_lt.mpr le)
            | cons x xs =>
                by_cases first : y < (ofTerm t x s).2.next
                · exact ⟨_, List.mem_cons_self, ih t (sub t List.mem_cons_self) le first⟩
                · have later := ih' (fun t ht => sub t (List.mem_cons_of_mem _ ht))
                    (Nat.le_of_not_lt first) lt
                  obtain ⟨arg, mem, found⟩ := later
                  exact ⟨arg, List.mem_cons_of_mem _ mem, found⟩
      by_cases numbered : y < (s.ofArguments args).2.next
      · have mem := s.ofArguments_covers args le numbered
        rw [← registers_ofTerms (s.length_ofArguments args) (s.ofArguments args).2] at mem
        obtain ⟨arg, child, same⟩ := List.mem_map.mp mem
        refine ⟨arg, ?_, same⟩
        exact mem_preorder_compound.mpr (.inr ⟨arg, child, mem_preorder_self arg⟩)
      · obtain ⟨arg, child, n, part, same⟩ :=
          inside args (fun _ ht => ht) (Nat.le_of_not_lt numbered) lt
        exact ⟨n, mem_preorder_compound.mpr (.inr ⟨arg, child, part⟩), same⟩

end Node

/-- Every register is for a part of the term. -/
theorem Allocation.exists_part (t : Term) {x : Register} (lt : x < (ofTerm t).registerCount) :
    ∃ n ∈ (ofTerm t).root.preorder, n.register = x := by
  have whole (same : x = 0) (root : (ofTerm t).root.register = 0) :
      ∃ n ∈ (ofTerm t).root.preorder, n.register = x :=
    ⟨_, Node.mem_preorder_self _, root.trans same.symm⟩
  cases t with
  | atom name => exact whole (Nat.lt_one_iff.mp lt) rfl
  | number value => exact whole (Nat.lt_one_iff.mp lt) rfl
  | var name => exact whole (Nat.lt_one_iff.mp lt) rfl
  | compound name args =>
      by_cases zero : x = 0
      · exact whole zero rfl
      · exact Node.ofTerm_covers (.compound name args) (Nat.one_le_iff_ne_zero.mpr zero) lt

end TermMachine
