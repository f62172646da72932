import TermMachine.Proofs.Heap.Solution

/-! # What addresses unfold to

The tree at an address is found by following references and going into the arguments of structures,
for ever if a structure contains itself. Unbound variables are its leaves. Together these trees are
a solution of the heap, and they are equal exactly at addresses that are bisimilar.
-/

namespace TermMachine

namespace Heap

/-- The root of the tree at an address, and the addresses of its subtrees. -/
def expose (h : Heap) (a : Address) : (Tree.shape Address).Obj Address :=
  match h.inspect a with
  | .ok (b, .unbound) => ⟨.leaf b, Empty.elim⟩
  | .ok (_, .compound s first) => ⟨.name s.name s.arity, fun i : Fin s.arity => first + i⟩
  | .error _ => ⟨.leaf a, Empty.elim⟩

def tree (h : Heap) (a : Address) : Tree Address := PFunctor.M.corec h.expose a

theorem tree_eq_mk (h : Heap) (a : Address) :
    h.tree a = PFunctor.M.mk ((Tree.shape Address).map h.tree (h.expose a)) :=
  PFunctor.M.corec_def h.expose a

theorem Unbound.tree {h : Heap} {a b : Address} (hu : h.Unbound a b) : h.tree a = Tree.leaf b := by
  rw [tree_eq_mk, expose, inspect_eq_unbound_iff.mpr hu]
  exact Tree.mk_leaf b _

theorem Compound.tree_eq_branch {h : Heap} {a p : Address} {s : Symbol} (hc : h.Compound a s p) :
    h.tree a = Tree.branch s.name s.arity fun i => h.tree (p + 1 + i) := by
  obtain ⟨b, _, _, inspected⟩ := hc.inspect
  rw [tree_eq_mk, expose, inspected]
  rfl

theorem treesAt_eq_ofFn {τ : Type} (σ : Address → τ) (first : Address) (count : Nat) :
    treesAt σ first count = List.ofFn fun i : Fin count => σ (first + i) := by
  refine List.ext_getElem (by simp [treesAt]) fun i _ _ => ?_
  simp [treesAt]

theorem Compound.tree {h : Heap} {a p : Address} {s : Symbol} (hc : h.Compound a s p) :
    h.tree a = Trees.node s.name (treesAt h.tree (p + 1) s.arity) := by
  rw [hc.tree_eq_branch, treesAt_eq_ofFn]
  exact (Tree.node_ofFn s.name _).symm

theorem Readable.solution_tree {h : Heap} (hr : h.Readable) : h.Solution h.tree :=
  hr.solution Unbound.tree Compound.tree

theorem WellFormed.solution_tree {h : Heap} (wf : h.WellFormed) : h.Solution h.tree :=
  wf.readable.solution_tree

/-- A node is found at the address of a structure. -/
theorem Readable.compound_of_tree {h : Heap} (hr : h.Readable) {a : Address}
    (term : h.IsTerm a) {name : String} {ts : List (Tree Address)}
    (node : h.tree a = Trees.node name ts) :
    ∃ p, h.Compound a ⟨name, ts.length⟩ p ∧ treesAt h.tree (p + 1) ts.length = ts := by
  rcases hr.value term with ⟨b, hb⟩ | ⟨s, p, hp⟩
  · rw [hb.tree] at node
    exact absurd node Tree.leaf_ne_branch
  · rw [hp.tree] at node
    obtain ⟨rfl, rfl⟩ := Trees.node_inj node
    rw [length_treesAt]
    exact ⟨p, hp, rfl⟩

/-! ## Bisimilarity -/

/-- A relation between addresses that holds only where the terms are alike, and then between all
arguments too. -/
def IsBisimulation (h : Heap) (R : Address → Address → Prop) : Prop :=
  ∀ a b, R a b → (∃ c, h.Unbound a c ∧ h.Unbound b c) ∨
    ∃ s p q, h.Compound a s p ∧ h.Compound b s q ∧ ∀ i < s.arity, R (p + 1 + i) (q + 1 + i)

/-- No way down the terms at the two addresses leads to a difference. -/
def Bisimilar (h : Heap) (a b : Address) : Prop := ∃ R, h.IsBisimulation R ∧ R a b

theorem Bisimilar.tree_eq {h : Heap} {a b : Address} (hab : h.Bisimilar a b) :
    h.tree a = h.tree b := by
  obtain ⟨R, bisimulation, hR⟩ := hab
  refine PFunctor.M.bisim (fun x y => ∃ a b, R a b ∧ x = h.tree a ∧ y = h.tree b) ?_ _ _
    ⟨a, b, hR, rfl, rfl⟩
  rintro _ _ ⟨a, b, hR, rfl, rfl⟩
  rcases bisimulation a b hR with ⟨c, ha, hb⟩ | ⟨s, p, q, ha, hb, below⟩
  · rw [ha.tree, hb.tree]
    exact ⟨.leaf c, Empty.elim, Empty.elim, rfl, rfl, nofun⟩
  · rw [ha.tree_eq_branch, hb.tree_eq_branch]
    refine ⟨.name s.name s.arity, _, _, rfl, rfl, fun i : Fin s.arity => ?_⟩
    exact ⟨_, _, below i i.isLt, rfl, rfl⟩

theorem Readable.bisimilar_iff {h : Heap} (hr : h.Readable) {a b : Address} (ha : h.IsTerm a)
    (hb : h.IsTerm b) : h.Bisimilar a b ↔ h.tree a = h.tree b := by
  refine ⟨Bisimilar.tree_eq, fun same => ?_⟩
  refine ⟨fun a b => h.IsTerm a ∧ h.IsTerm b ∧ h.tree a = h.tree b, ?_, ha, hb, same⟩
  rintro a b ⟨ha, hb, same⟩
  rcases hr.value ha with ⟨c, hc⟩ | ⟨s, p, hp⟩
  · refine .inl ⟨c, hc, ?_⟩
    rcases hr.value hb with ⟨d, hd⟩ | ⟨t, q, hq⟩
    · rw [hc.tree, hd.tree] at same
      exact Tree.leaf_inj same ▸ hd
    · rw [hc.tree, hq.tree_eq_branch] at same
      exact absurd same Tree.leaf_ne_branch
  · rw [hp.tree] at same
    obtain ⟨q, hq, below⟩ := hr.compound_of_tree hb same.symm
    rw [length_treesAt] at hq below
    refine .inr ⟨s, p, q, hp, hq, fun i hi => ⟨hr.argument hp hi, hr.argument hq hi, ?_⟩⟩
    have at' := congrArg (·[i]?) below
    simpa [treesAt, hi, eq_comm] using at'

end Heap

end TermMachine
