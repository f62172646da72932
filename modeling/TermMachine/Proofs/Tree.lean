import Mathlib.Data.PFunctor.Univariate.M
import Mathlib.Algebra.Order.BigOperators.Group.List
import Mathlib.Algebra.GroupWithZero.Nat
import Mathlib.Algebra.Order.Group.Nat

/-! # Trees

What a heap stands for are trees: finite ones, and infinite ones where a structure contains itself.
Both kinds have nodes that are determined by a name and the list of their subtrees, and that is all
that unification needs to know about them, `Trees`. `Tree` is the type of finite and infinite trees
with leaves of some type.
-/

namespace TermMachine

/-- A type of trees. A node has a name and a list of subtrees, and two nodes are equal only if both
of these are. -/
class Trees (τ : Type) where
  node : String → List τ → τ
  node_inj : ∀ {f g : String} {ts us : List τ}, node f ts = node g us → f = g ∧ ts = us

namespace Trees

variable {τ : Type} [Trees τ]

theorem node_eq_iff {f g : String} {ts us : List τ} :
    node f ts = node g us ↔ f = g ∧ ts = us := by
  refine ⟨node_inj, ?_⟩
  rintro ⟨rfl, rfl⟩
  rfl

/-- A size for trees that are all finite: a node is larger than all its subtrees together. -/
structure IsSize (size : τ → Nat) : Prop where
  pos : ∀ t, 0 < size t
  node : ∀ f ts, (ts.map size).sum < size (Trees.node f ts)

theorem IsSize.lt_node {size : τ → Nat} (hs : IsSize size) {f : String} {ts : List τ} {t : τ}
    (mem : t ∈ ts) : size t < size (Trees.node f ts) :=
  Nat.lt_of_le_of_lt
    (List.le_sum_of_mem (List.mem_map_of_mem mem)) (hs.node f ts)

end Trees

/-! ## Finite and infinite trees -/

/-- What stands at a place in a tree: the name of a node with the number of its subtrees, or a
leaf. -/
inductive Tree.Label (α : Type) where
  | name (name : String) (count : Nat)
  | leaf (a : α)

/-- Each label with the places below it. -/
def Tree.shape (α : Type) : PFunctor.{0, 0} where
  A := Tree.Label α
  B
    | .name _ count => Fin count
    | .leaf _ => Empty

/-- A finite or infinite tree with leaves of type `α`. -/
def Tree (α : Type) : Type := (Tree.shape α).M

namespace Tree

variable {α β : Type}

def leaf (a : α) : Tree α := PFunctor.M.mk (F := shape α) ⟨.leaf a, Empty.elim⟩

def branch (name : String) (count : Nat) (below : Fin count → Tree α) : Tree α :=
  PFunctor.M.mk (F := shape α) ⟨.name name count, below⟩

theorem mk_leaf (a : α) (below : (shape α).B (.leaf a) → Tree α) :
    PFunctor.M.mk (F := shape α) ⟨.leaf a, below⟩ = leaf a := by
  have none : below = Empty.elim := funext fun i : Empty => i.elim
  rw [none]
  rfl

theorem leaf_inj {a b : α} (eq : leaf a = leaf b) : a = b := by
  have same := PFunctor.M.mk_inj eq
  have label : (Label.leaf a : Label α) = .leaf b := congrArg Sigma.fst same
  exact Label.leaf.inj label

theorem branch_inj {f g : String} {m n : Nat} {ts : Fin m → Tree α} {us : Fin n → Tree α}
    (eq : branch f m ts = branch g n us) : f = g ∧ List.ofFn ts = List.ofFn us := by
  have same := PFunctor.M.mk_inj eq
  have label : (Label.name f m : Label α) = .name g n := congrArg Sigma.fst same
  obtain ⟨rfl, rfl⟩ := Label.name.inj label
  have below : ts = us := eq_of_heq (Sigma.mk.inj same).2
  exact ⟨rfl, by rw [below]⟩

theorem leaf_ne_branch {a : α} {f : String} {n : Nat} {ts : Fin n → Tree α} :
    leaf a ≠ branch f n ts := by
  intro eq
  have label : (Label.leaf a : Label α) = .name f n :=
    congrArg Sigma.fst (PFunctor.M.mk_inj eq)
  cases label

instance : Trees (Tree α) where
  node name ts := branch name ts.length ts.get
  node_inj eq := by
    obtain ⟨names, below⟩ := branch_inj eq
    rw [List.ofFn_get, List.ofFn_get] at below
    exact ⟨names, below⟩

theorem node_ofFn (name : String) {n : Nat} (ts : Fin n → Tree α) :
    Trees.node name (List.ofFn ts) = branch name n ts := by
  have get (us : List (Tree α)) (len : us.length = n)
      (all : ∀ i : Fin n, us.get (i.cast len.symm) = ts i) :
      branch name us.length us.get = branch name n ts := by
    subst len
    exact congrArg (branch name us.length) (funext all)
  exact get _ List.length_ofFn fun i => by simp

end Tree

end TermMachine
