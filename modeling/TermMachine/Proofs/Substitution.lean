import TermMachine.Term
import TermMachine.Proofs.Tree

/-! # Terms as trees

The machine knows names and arguments only, so to it a number is the atom of its text, and a name
applied to no arguments is the atom of the name. `Term.erase` reads a term that way. Terms are
finite trees, and once its variables have values, any kind of trees, a term has a value too:
`Term.eval`.
-/

namespace TermMachine

namespace Term

/-- A name applied to arguments, which is an atom if there are none. -/
def apply (name : String) : List Term → Term
  | [] => .atom name
  | t :: ts => .compound name (t :: ts)

theorem apply_inj {f g : String} {ts us : List Term} (eq : apply f ts = apply g us) :
    f = g ∧ ts = us := by
  cases ts with
  | nil =>
      cases us with
      | nil => exact ⟨TermOf.atom.inj eq, rfl⟩
      | cons u us => cases eq
  | cons t ts =>
      cases us with
      | nil => cases eq
      | cons u us => exact TermOf.compound.inj eq

instance : Trees Term where
  node := apply
  node_inj := apply_inj

mutual

/-- The term with numbers, and names without arguments, read as atoms. -/
def erase : Term → Term
  | .atom name => .atom name
  | .number value => .atom (toString value)
  | .var name => .var name
  | .compound name args => apply name (eraseAll args)

def eraseAll : List Term → List Term
  | [] => []
  | t :: ts => erase t :: eraseAll ts

end

mutual

def subst (s : String → Term) : Term → Term
  | .atom name => .atom name
  | .number value => .number value
  | .var name => s name
  | .compound name args => .compound name (substAll s args)

def substAll (s : String → Term) : List Term → List Term
  | [] => []
  | t :: ts => subst s t :: substAll s ts

end

section

variable {τ : Type} [Trees τ]

mutual

/-- The value of a term for given values of its variables. -/
def eval (θ : String → τ) : Term → τ
  | .atom name => Trees.node name []
  | .number value => Trees.node (toString value) []
  | .var name => θ name
  | .compound name args => Trees.node name (evalAll θ args)

def evalAll (θ : String → τ) : List Term → List τ
  | [] => []
  | t :: ts => eval θ t :: evalAll θ ts

end

theorem evalAll_eq_map (θ : String → τ) (ts : List Term) : evalAll θ ts = ts.map (eval θ) := by
  induction ts with
  | nil => rfl
  | cons t ts ih => rw [evalAll, ih, List.map_cons]

end

theorem eraseAll_eq_map (ts : List Term) : eraseAll ts = ts.map erase := by
  induction ts with
  | nil => rfl
  | cons t ts ih => rw [eraseAll, ih, List.map_cons]

theorem substAll_eq_map (s : String → Term) (ts : List Term) :
    substAll s ts = ts.map (subst s) := by
  induction ts with
  | nil => rfl
  | cons t ts ih => rw [substAll, ih, List.map_cons]

theorem subst_apply (s : String → Term) (name : String) (ts : List Term) :
    subst s (apply name ts) = apply name (ts.map (subst s)) := by
  cases ts with
  | nil => rfl
  | cons t ts => simp only [apply, subst, substAll_eq_map, List.map_cons]

/-- An instance of a term, read as the machine does, is a value of it. -/
theorem subst_erase (s : String → Term) (t : Term) : subst s (erase t) = eval s t := by
  induction t using TermOf.induction with
  | atom name => rfl
  | number value => rfl
  | var name => rfl
  | compound name args ih =>
      rw [erase, subst_apply, eval, eraseAll_eq_map, evalAll_eq_map, List.map_map]
      exact congrArg (apply name) (List.map_congr_left ih)

/-- A replacement that makes two terms equal, if numbers are read as atoms. -/
def Unifies (s : String → Term) (query program : Term) : Prop :=
  subst s (erase query) = subst s (erase program)

/-- A replacement that makes two terms equal, and that every other one that does so absorbs. -/
structure MostGeneral (s : String → Term) (query program : Term) : Prop where
  unifies : Unifies s query program
  absorbed : ∀ t, Unifies t query program →
    ∀ name ∈ query.vars ++ program.vars, subst t (s name) = t name

theorem unifies_iff {s : String → Term} {query program : Term} :
    Unifies s query program ↔ eval s query = eval s program := by
  rw [Unifies, subst_erase, subst_erase]

theorem occurrencesAll_eq_flatMap {ν : Type} (ts : List (TermOf ν)) :
    TermOf.occurrencesAll ts = ts.flatMap TermOf.occurrences := by
  induction ts with
  | nil => rfl
  | cons t ts ih => rw [TermOf.occurrencesAll, ih, List.flatMap_cons]

mutual

def size : Term → Nat
  | .atom _ | .number _ | .var _ => 1
  | .compound _ args => 1 + sizeAll args

def sizeAll : List Term → Nat
  | [] => 0
  | t :: ts => size t + sizeAll ts

end

theorem sizeAll_eq_sum (ts : List Term) : sizeAll ts = (ts.map size).sum := by
  induction ts with
  | nil => rfl
  | cons t ts ih => rw [sizeAll, ih, List.map_cons, List.sum_cons]

theorem isSize : Trees.IsSize size where
  pos t := by
    cases t <;> simp [size]
  node name ts := by
    cases ts with
    | nil => exact Nat.one_pos
    | cons t ts =>
        rw [← sizeAll_eq_sum]
        show sizeAll (t :: ts) < 1 + sizeAll (t :: ts)
        omega

end Term

end TermMachine
