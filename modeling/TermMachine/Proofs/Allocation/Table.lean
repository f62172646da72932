import TermMachine.Proofs.Compilation
import TermMachine.Proofs.Solving.Building

/-! # The table of registers is the term

`Flattens` says what a reader of the table can rely on: going from register 0 through the lists of
arguments gives the term back, no register is out of reach, an application is an argument of one
application only, whose register is lower, and every variable of the term has one register.
`ofTerm_flattens` proves it for the registers of every term.

A term that is an atom or a number has one entry, which does not say what it is for, so it is the
one kind of term that cannot be read off its table.
-/

namespace TermMachine

def TermOf.isVar {ν : Type} : TermOf ν → Bool
  | .var _ => true
  | .atom _ | .number _ | .compound _ _ => false

theorem Node.Represents.isCompound_eq {node : Node} {t : Term} (repr : node.Represents t) :
    node.isCompound = !t.isVar := by
  cases repr <;> rfl

/-- The applications among the arguments of a node are the arguments of the term that are no
variables. -/
theorem Node.Represents.length_children {node : Node} {t : Term} (repr : node.Represents t) :
    node.children.length = t.args.countP (!·.isVar) := by
  cases repr with
  | atom => rfl
  | number => rfl
  | var => rfl
  | compound all =>
      rw [children, List.length_map, ← List.countP_eq_length_filter, Node.args, TermOf.args]
      induction all with
      | nil => rfl
      | cons first _ ih =>
          rw [List.countP_cons, List.countP_cons, ih, first.isCompound_eq]

/-- Only applications have the register of an application. -/
theorem Node.count_map_register {args : List Node} {y : Register}
    (other : ∀ arg ∈ args, ¬arg.isCompound → arg.register ≠ y) :
    (args.map Node.register).count y =
      ((args.filter Node.isCompound).map Node.register).count y := by
  induction args with
  | nil => rfl
  | cons arg args ih =>
      have rest := ih fun arg child => other arg (List.mem_cons_of_mem _ child)
      by_cases compound : arg.isCompound
      · simp [compound, List.count_cons, rest]
      · simp [compound, other arg List.mem_cons_self compound, rest]

namespace Allocation

/-! ## Entries -/

theorem register_root (t : Term) : (ofTerm t).root.register = 0 := by
  cases t with
  | atom name => rfl
  | number value => rfl
  | var name => rfl
  | compound name args => exact (exact_ofTerm name args).register

theorem apart_ofTerm (t : Term) : (ofTerm t).root.Apart := by
  have alone {root : Node} (single : root.preorder = [root]) : root.Apart := by
    intro m hm n hn _
    rw [single, List.mem_singleton] at hm hn
    rw [hm, hn]
  cases t with
  | atom name => exact alone rfl
  | number value => exact alone rfl
  | var name => exact alone rfl
  | compound name args => exact (exact_ofTerm name args).apart

theorem length_entries (t : Term) : (ofTerm t).entries.length = (ofTerm t).registerCount := by
  have le : (ofTerm t).entries.length ≤ (ofTerm t).registerCount := by
    rw [entries, List.length_map, nodes]
    exact (List.length_filterMap_le _ _).trans_eq List.length_range
  refine Nat.le_antisymm le (Nat.le_of_not_lt fun lt => ?_)
  obtain ⟨n, _, _, found⟩ := exists_node t lt
  have within := (List.getElem?_eq_some_iff.mp found).1
  rw [entries, List.length_map] at within
  exact Nat.lt_irrefl _ within

/-- What stands in the table stands there for a part of the term. -/
theorem exists_of_entry {t : Term} {x : Register} {entry : Entry}
    (found : (ofTerm t).entries[x]? = some entry) :
    ∃ n ∈ (ofTerm t).root.preorder, n.register = x ∧ entry = .ofNode n := by
  have lt : x < (ofTerm t).registerCount := by
    rw [← length_entries]
    exact (List.getElem?_eq_some_iff.mp found).1
  obtain ⟨n, part, same, listed⟩ := exists_node t lt
  rw [entries, List.getElem?_map, listed, Option.map_some, Option.some.injEq] at found
  exact ⟨n, part, same, found.symm⟩

theorem register_lt (t : Term) : ∀ n ∈ (ofTerm t).root.preorder,
    n.register < (ofTerm t).registerCount := by
  cases t with
  | atom name => simp [ofTerm, Node.preorder, Node.register]
  | number value => simp [ofTerm, Node.preorder, Node.register]
  | var name => simp [ofTerm, Node.preorder, Node.register]
  | compound name args => exact fun n part => (exact_ofTerm name args).register_lt part

theorem entry_of_part {t : Term} {n : Node} (part : n ∈ (ofTerm t).root.preorder) :
    (ofTerm t).entries[n.register]? = some (.ofNode n) := by
  obtain ⟨m, part', same, listed⟩ := exists_node t (register_lt t n part)
  rw [apart_ofTerm t m part' n part same] at listed
  rw [entries, List.getElem?_map, listed, Option.map_some]

/-! ## Reading the term off the table -/

/-- The term that is found by going from a register through the lists of arguments. -/
inductive Unfolds (a : Allocation) : Register → Term → Prop
  | var {x : Register} {name : String} (found : a.entries[x]? = some (.var name)) :
      Unfolds a x (.var name)
  | compound {x : Register} {name : String} {xs : List Register} {ts : List Term}
      (found : a.entries[x]? = some (.compound name xs)) (below : List.Forall₂ (Unfolds a) xs ts) :
      Unfolds a x (Term.apply name ts)

theorem unfolds_var_iff {a : Allocation} {x : Register} {name : String} {u : Term}
    (found : a.entries[x]? = some (.var name)) : a.Unfolds x u ↔ u = .var name := by
  constructor
  · intro unfolds
    cases unfolds with
    | var found' =>
        cases found.symm.trans found'
        rfl
    | compound found' _ => cases found.symm.trans found'
  · rintro rfl
    exact .var found

theorem unfolds_compound_iff {a : Allocation} {x : Register} {name : String} {xs : List Register}
    {u : Term} (found : a.entries[x]? = some (.compound name xs)) :
    a.Unfolds x u ↔ ∃ ts, List.Forall₂ a.Unfolds xs ts ∧ u = Term.apply name ts := by
  constructor
  · intro unfolds
    cases unfolds with
    | var found' => cases found.symm.trans found'
    | compound found' below =>
        cases found.symm.trans found'
        exact ⟨_, below, rfl⟩
  · rintro ⟨ts, below, rfl⟩
    exact .compound found below

theorem forall₂_iff_eq_map {α β γ δ : Type} {R : α → β → Prop} {S : γ → δ → Prop} {f : α → γ}
    {g : β → δ} {as : List α} {bs : List β} (all : List.Forall₂ R as bs)
    (each : ∀ a ∈ as, ∀ b ∈ bs, R a b → ∀ d, S (f a) d ↔ d = g b) {ds : List δ} :
    List.Forall₂ S (as.map f) ds ↔ ds = bs.map g := by
  induction all generalizing ds with
  | nil => exact List.forall₂_nil_left_iff
  | @cons a b as bs first _ ih =>
      have head := each a List.mem_cons_self b List.mem_cons_self first
      have tail {ds : List δ} := @ih (fun a ha b hb =>
        each a (List.mem_cons_of_mem _ ha) b (List.mem_cons_of_mem _ hb)) ds
      simp only [List.map_cons, List.forall₂_cons_left_iff, head, tail]
      simp

theorem unfolds_part_iff {a : Allocation} {node : Node} {t u : Term} (repr : node.Represents t)
    (listed : ∀ n ∈ node.preorder, a.entries[n.register]? = some (.ofNode n)) :
    a.Unfolds node.register u ↔ u = Term.erase t := by
  have here := listed node (Node.mem_preorder_self node)
  induction t using TermOf.induction generalizing node u with
  | atom name =>
      cases repr
      simp [unfolds_compound_iff here, Term.erase, Term.apply]
  | number value =>
      cases repr
      simp [unfolds_compound_iff here, Term.erase, Term.apply]
  | var name =>
      cases repr
      exact unfolds_var_iff here
  | compound name args ih =>
      cases repr with
      | @compound x _ nodes _ all =>
          have below {ts : List Term} :
              List.Forall₂ a.Unfolds (nodes.map Node.register) ts ↔
                ts = args.map Term.erase := by
            refine forall₂_iff_eq_map all fun n hn t ht repr u => ?_
            have inside : ∀ m ∈ n.preorder, a.entries[m.register]? = some (.ofNode m) :=
              fun m hm => listed m (Node.mem_preorder_compound.mpr (.inr ⟨n, hn, hm⟩))
            exact ih t ht repr inside (inside n (Node.mem_preorder_self n))
          rw [unfolds_compound_iff here, Term.erase, Term.eraseAll_eq_map]
          simp [below]

/-! ## Arguments -/

def arguments (a : Allocation) : List Register := a.entries.flatMap Entry.args

theorem args_ofNode (node : Node) : (Entry.ofNode node).args = node.args.map Node.register := by
  cases node <;> rfl

theorem mem_arguments_of_part {t : Term} {n arg : Node} (part : n ∈ (ofTerm t).root.preorder)
    (child : arg ∈ n.args) : arg.register ∈ (ofTerm t).arguments := by
  refine List.mem_flatMap.mpr ⟨_, List.mem_of_getElem? (entry_of_part part), ?_⟩
  rw [args_ofNode]
  exact List.mem_map_of_mem child

/-- A register that is not for the whole term is for an argument. -/
theorem exists_parent {t : Term} {n : Node} (part : n ∈ (ofTerm t).root.preorder)
    (pos : 0 < n.register) : ∃ m ∈ (ofTerm t).root.preorder, n ∈ m.args := by
  rcases Node.eq_or_arg_of_mem_preorder part with rfl | ⟨x, f, args, parent, child⟩
  · rw [register_root] at pos
    exact absurd pos (Nat.lt_irrefl 0)
  · exact ⟨_, parent, child⟩

theorem mem_arguments {t : Term} {x : Register} (pos : 0 < x)
    (lt : x < (ofTerm t).registerCount) : x ∈ (ofTerm t).arguments := by
  obtain ⟨n, part, rfl⟩ := exists_part t lt
  obtain ⟨m, parent, child⟩ := exists_parent part pos
  exact mem_arguments_of_part parent child

namespace Exact

variable {t : Term}

/-- The table has the arguments of all parts of the term, in another order. -/
theorem arguments_perm {a : Allocation} (exact' : a.Exact t) :
    a.arguments.Perm (a.root.preorder.flatMap fun n => n.args.map Node.register) := by
  have compounds (nodes : List Node) : nodes.flatMap (fun n => n.args.map Node.register) =
      (nodes.filter Node.isCompound).flatMap fun n => n.args.map Node.register := by
    induction nodes with
    | nil => rfl
    | cons n nodes ih =>
        cases n with
        | constant x => exact ih
        | var x name => exact ih
        | compound x f args => exact congrArg (args.map Node.register ++ ·) ih
  have listed : a.arguments = a.nodes.flatMap fun n => n.args.map Node.register := by
    simp only [arguments, entries, List.flatMap_map, args_ofNode]
  have nodup : a.nodes.Nodup :=
    Exact.nodes_ordered.imp fun lt same => Nat.ne_of_lt lt (congrArg Node.register same)
  rw [listed, compounds a.nodes, compounds a.root.preorder]
  refine List.Perm.flatMap_right _ ?_
  refine (List.perm_ext_iff_of_nodup (nodup.filter _) exact'.structures_nodup.of_map).mpr ?_
  intro n
  rw [List.mem_filter, List.mem_filter, exact'.mem_nodes_iff]

/-- An application is an argument once, unless it is the whole term. -/
theorem count_arguments {a : Allocation} (exact' : a.Exact t) {n : Node}
    (part : n ∈ a.root.preorder) (compound : n.isCompound) (pos : 0 < n.register) :
    a.arguments.count n.register = 1 := by
  have member : n.register ∈ a.root.structures := Node.register_mem_structures part compound
  have children : ∀ m ∈ a.root.preorder,
      (m.args.map Node.register).count n.register = m.children.count n.register := by
    intro m parent
    refine Node.count_map_register fun arg child single same => ?_
    have part' := Node.mem_preorder_of_args parent child
    cases arg with
    | constant y => exact exact'.represents.not_constant y part'
    | var y name =>
        obtain rfl : y = n.register := same
        exact exact'.var_not_structure part' member
    | compound y f as => exact single rfl
  have total := a.root.structures_perm.count_eq n.register
  rw [exact'.structures_nodup.count, if_pos member, exact'.compound, if_pos rfl, exact'.register,
    List.singleton_append, List.count_cons_of_ne (Nat.ne_of_lt pos)] at total
  rw [exact'.arguments_perm.count_eq, total, List.count_flatMap, List.count_flatMap]
  exact congrArg List.sum (List.map_congr_left children)

/-! ## Variables -/

theorem mem_vars_iff (exact' : (ofTerm t).Exact t) {x : Register} {name : String} :
    (name, x) ∈ (ofTerm t).vars ↔ .var x name ∈ (ofTerm t).root.preorder := by
  refine ⟨fun mem => ?_, exact'.mem_vars⟩
  have total := exact'.count x
  have positive : 0 < ((ofTerm t).vars.map Prod.snd).count x :=
    List.count_pos_iff.mpr (List.mem_map_of_mem mem)
  have lt : x < (ofTerm t).registerCount := by
    by_contra beyond
    rw [Supply.among, if_neg beyond] at total
    omega
  obtain ⟨n, part, rfl⟩ := exists_part t lt
  cases n with
  | constant y => exact absurd part (exact'.represents.not_constant y)
  | compound y f args =>
      have := exact'.count_le_one y
      have := List.count_pos_iff.mpr (Node.register_mem_structures part rfl)
      simp only [Node.register] at *
      omega
  | var y name' =>
      have same := List.inj_on_of_nodup_map exact'.vars_nodup mem (exact'.mem_vars part) rfl
      cases same
      exact part

theorem length_vars (exact' : (ofTerm t).Exact t) : (ofTerm t).vars.length = t.vars.length := by
  have names := CompiledTerm.names_variablesOf exact'
  have nodup : (CompiledTerm.variablesOf t (ofTerm t)).Nodup :=
    List.Nodup.of_map Prod.fst (names ▸ nodup_eraseDups t.occurrences)
  have same : (ofTerm t).vars.Perm (CompiledTerm.variablesOf t (ofTerm t)) := by
    refine (List.perm_ext_iff_of_nodup exact'.vars_nodup.of_map nodup).mpr ?_
    rintro ⟨name, x⟩
    rw [exact'.mem_vars_iff, CompiledTerm.mem_variablesOf_iff exact']
  rw [same.length_eq, ← names, List.length_map]

/-! ## The number of registers -/

/-- Every register is for an application or for a variable. -/
theorem registerCount_eq {a : Allocation} (exact' : a.Exact t) :
    a.registerCount = a.root.structures.length + a.vars.length := by
  have all : (a.root.structures ++ a.vars.map Prod.snd).Perm (List.range a.registerCount) := by
    refine List.perm_iff_count.mpr fun y => ?_
    rw [List.count_append, exact'.count, List.nodup_range.count, Supply.among]
    simp only [List.mem_range]
  have sizes := all.length_eq
  rw [List.length_append, List.length_map, List.length_range] at sizes
  exact sizes.symm

theorem registerCount_eq_arguments {a : Allocation} (exact' : a.Exact t) :
    a.registerCount =
      1 + (t.preorder.flatMap TermOf.args).countP (!·.isVar) + a.vars.length := by
  have below : a.root.preorder.map (fun n => n.children.length) =
      t.preorder.map fun s => s.args.countP (!·.isVar) :=
    Node.map_eq_of_forall₂ exact'.represents.preorder fun n _ s _ repr => repr.length_children
  have whole := a.root.structures_perm.length_eq
  rw [exact'.compound, if_pos rfl, List.length_append, List.length_singleton,
    List.length_flatMap, below] at whole
  rw [exact'.registerCount_eq, whole, List.countP_flatMap]
  rfl

end Exact

/-! ## The whole table -/

/-- An atom or a number as the whole term. Its entry does not hold its name. -/
def Bare : Term → Prop
  | .atom _ | .number _ => True
  | .var _ | .compound _ _ => False

/-- The table of an allocation is the term, taken apart. -/
structure Flattens (a : Allocation) (t : Term) : Prop where
  length : a.entries.length = a.registerCount
  unfolds : ¬Bare t → ∀ u, a.Unfolds 0 u ↔ u = Term.erase t
  bare : Bare t → a.entries = [.constant]
  reached : ∀ x, 0 < x → x < a.registerCount → x ∈ a.arguments
  /-- What is no variable is an argument once, and of an application with a lower register. -/
  once : ∀ x entry, 0 < x → a.entries[x]? = some entry → (∀ name, entry ≠ .var name) →
    a.arguments.count x = 1 ∧ ∃ y < x, ∃ parent, a.entries[y]? = some parent ∧ x ∈ parent.args
  named : ∀ name ∈ t.vars, ∃ x, a.registerOf name = .ok x ∧
    ∀ y, a.entries[y]? = some (.var name) ↔ y = x
  unknown : ∀ name ∉ t.vars, a.registerOf name = .error (.unallocatedVariable name)
  registerCount : ∀ f args, t = .compound f args → a.registerCount =
    1 + (t.preorder.flatMap TermOf.args).countP (!·.isVar) + t.vars.length

/-- Register 0 unfolds to the term, unless the term is a bare constant. -/
theorem unfolds_root_iff {t : Term} (inside : ¬Bare t) {u : Term} :
    (ofTerm t).Unfolds 0 u ↔ u = Term.erase t := by
  have represents : (ofTerm t).root.Represents t := by
    cases t with
    | atom name => exact absurd trivial inside
    | number value => exact absurd trivial inside
    | var name => exact .var
    | compound name args => exact (exact_ofTerm name args).represents
  rw [← register_root t]
  exact unfolds_part_iff represents fun n part => entry_of_part part

/-- The table of a bare constant is the same for all of them, so nothing gives its name back. -/
theorem constant_not_rebuilt :
    Term.Fits (.atom "a") ∧ (∀ u, ¬(ofTerm (.atom "a")).Unfolds 0 u) ∧
      ¬∃ rebuild : List Entry → Term,
        ∀ t, Term.Fits t → rebuild (ofTerm t).entries = Term.erase t := by
  have fits (name : String) : Term.Fits (.atom name) :=
    fun f args part => nomatch List.mem_singleton.mp part
  refine ⟨fits "a", fun u unfolds => ?_, ?_⟩
  · cases unfolds with
    | var found => cases found
    | compound found _ => cases found
  · rintro ⟨rebuild, rebuilds⟩
    have a : rebuild [.constant] = .atom "a" := rebuilds (.atom "a") (fits "a")
    have b : rebuild [.constant] = .atom "b" := rebuilds (.atom "b") (fits "b")
    have same := TermOf.atom.inj (a.symm.trans b)
    exact absurd same (by decide)

/-- A register for an application, other than the whole term, is one argument's. -/
theorem once_argument {t : Term} {x : Register} {entry : Entry} (pos : 0 < x)
    (held : (ofTerm t).entries[x]? = some entry) (other : ∀ name, entry ≠ .var name) :
    (ofTerm t).arguments.count x = 1 ∧
      ∃ y < x, ∃ parent, (ofTerm t).entries[y]? = some parent ∧ x ∈ parent.args := by
  obtain ⟨n, part, rfl, rfl⟩ := exists_of_entry held
  obtain ⟨m, parent, child⟩ := exists_parent part pos
  cases t with
  | atom name => cases List.mem_singleton.mp parent; cases child
  | number value => cases List.mem_singleton.mp parent; cases child
  | var name => cases List.mem_singleton.mp parent; cases child
  | compound f args =>
      have exact' := exact_ofTerm f args
      have compound : n.isCompound := by
        cases n with
        | constant y => exact absurd part (exact'.represents.not_constant y)
        | var y name => exact absurd rfl (other name)
        | compound y g as => rfl
      refine ⟨exact'.count_arguments part compound pos, ?_⟩
      cases m with
      | constant y => cases child
      | var y name => cases child
      | compound y g as =>
          refine ⟨y, exact'.ordered y g as parent n child compound, _, entry_of_part parent, ?_⟩
          exact List.mem_map_of_mem child

/-- A variable of the term has one register. -/
theorem exists_registerOf {t : Term} {name : String} (occurs : name ∈ t.vars) :
    ∃ x, (ofTerm t).registerOf name = .ok x ∧
      ∀ y, (ofTerm t).entries[y]? = some (.var name) ↔ y = x := by
  cases t with
  | atom f => cases List.mem_eraseDups.mp occurs
  | number value => cases List.mem_eraseDups.mp occurs
  | var v =>
      obtain rfl := List.mem_singleton.mp (List.mem_eraseDups.mp occurs)
      refine ⟨0, by simp [registerOf, ofTerm], fun y => ?_⟩
      have single : (ofTerm (.var name)).entries = [.var name] := rfl
      rw [single]
      cases y <;> simp
  | compound f args =>
      have exact' := exact_ofTerm f args
      obtain ⟨x, part, found⟩ := CompiledTerm.exists_part exact' occurs
      refine ⟨x, by simp only [registerOf, found], fun y => ⟨fun held => ?_, ?_⟩⟩
      · obtain ⟨n, part', rfl, same⟩ := exists_of_entry held
        cases n with
        | constant z => cases same
        | compound z g as => cases same
        | var z v =>
            cases same
            exact Option.some.inj ((exact'.named z name part').symm.trans found)
      · rintro rfl
        exact entry_of_part part

theorem registerOf_of_not_mem {t : Term} {name : String} (absent : name ∉ t.vars) :
    (ofTerm t).registerOf name = .error (.unallocatedVariable name) := by
  have none : (ofTerm t).vars.lookup name = none := by
    refine List.lookup_eq_none_iff.mpr fun pair mem => ?_
    cases t with
    | atom f => cases mem
    | number value => cases mem
    | var v =>
        obtain rfl := List.mem_singleton.mp mem
        simpa [TermOf.vars, TermOf.occurrences] using absent
    | compound f args =>
        have exact' := exact_ofTerm f args
        have part := exact'.mem_vars_iff.mp mem
        have occurs := exact'.represents.mem_occurrences_iff.mpr ⟨_, part⟩
        have other : name ≠ pair.1 := fun same => absent (List.mem_eraseDups.mpr (same ▸ occurs))
        simpa using other
  simp only [registerOf, none]

theorem ofTerm_flattens (t : Term) : (ofTerm t).Flattens t where
  length := length_entries t
  unfolds inside _ := unfolds_root_iff inside
  bare constant := by
    cases t with
    | atom name => rfl
    | number value => rfl
    | var name => cases constant
    | compound f args => cases constant
  reached _ := mem_arguments
  once _ _ := once_argument
  named _ := exists_registerOf
  unknown _ := registerOf_of_not_mem
  registerCount f args eq := by
    subst eq
    have exact' := exact_ofTerm f args
    rw [exact'.registerCount_eq_arguments, exact'.length_vars]

end Allocation

end TermMachine
