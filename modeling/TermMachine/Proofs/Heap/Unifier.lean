import TermMachine.Proofs.Heap.Acyclic
import TermMachine.Proofs.Heap.Unfolding

/-! # What a unification brings about

A unification that succeeds adds one equation to a heap, and `unify_unified` says so for all trees
at once. In infinite trees it follows that the two terms cannot be told apart any more, whatever
cycles there are, `unify_bisimilar`. In finite terms it follows that the bindings are most general,
`unify_most_general`: as long as the heap was acyclic, values for the variables make the two terms
equal exactly if they satisfy the bindings, and if there are such values the unification comes to an
end and leaves the heap acyclic.
-/

namespace TermMachine

namespace Heap

variable {h h' : Heap} {a b : Address} {fuel : Nat}

def Unifies (h : Heap) (θ : Address → Term) (a b : Address) : Prop :=
  ∃ t, h.Denotes θ a t ∧ h.Denotes θ b t

/-- If the equation can be satisfied by finite terms, one of them bounds the work. -/
theorem exists_unified (hr : h.Readable) (pair : h.TermPairs [(a, b)]) {σ : Address → Term}
    (sol : h.Solution σ) (same : σ a = σ b) :
    ∃ h', ∀ fuel, (σ a).size ≤ fuel → unify fuel h a b = .unified h' := by
  have noError := (unifyAll_bindings hr pair (σ a).size).2
  cases ended : unify (σ a).size h a b with
  | clash g => exact absurd same (unify_clash hr pair ended sol)
  | error e g => exact absurd ended (noError e g)
  | unfinished g work =>
      exact absurd (unify_unfinished hr pair ended Term.isSize sol same) (Nat.lt_irrefl _)
  | unified h' =>
      refine ⟨h', fun fuel enough => ?_⟩
      rw [unify] at ended
      have stopped (g : Heap) (work : List (Address × Address)) :
          unifyAll (σ a).size h [(a, b)] ≠ .unfinished g work := by simp [ended]
      have more := unifyAll_add stopped (fuel - (σ a).size)
      rw [Nat.add_sub_of_le enough, ended] at more
      exact more

/-- Variables are bound, and never set free. -/
theorem Bindings.unbound_of_unbound (bs : Bindings h h') {c : Address}
    (free : h'.cells[c]? = some (.ref c)) : h.cells[c]? = some (.ref c) := by
  induction bs with
  | refl _ => exact free
  | step binding _ ih =>
      rcases binding.ref_iff.mp (ih free) with ⟨rfl, same⟩ | ⟨_, cell⟩
      · exact absurd same.symm binding.distinct
      · exact cell

/-- Two terms that have been unified are the same term, finite or not. -/
theorem unify_bisimilar (h : Heap) (hr : h.Readable) (a b : Address) (ha : h.IsTerm a)
    (hb : h.IsTerm b) (fuel : Nat) (h' : Heap) (ok : unify fuel h a b = .unified h') :
    h'.Bisimilar a b := by
  have pair := termPairs_single ha hb
  have bs := unify_bindings hr pair ok
  have hr' := bs.readable hr
  have same := ((unify_unified hr pair ok h'.tree).mp hr'.solution_tree).2
  exact (hr'.bisimilar_iff (bs.isTerm ha) (bs.isTerm hb)).mpr same

/-- A variable `X` at 0, the structure `S = f(X, S)` at 1 and the structure `f(S, S)` at 5. -/
def looped : Heap :=
  ⟨#[.ref 0, .str 2, .symbol ⟨"f", 2⟩, .ref 0, .str 2,
    .str 6, .symbol ⟨"f", 2⟩, .str 2, .str 2], none⟩

theorem unify_bisimilar_looped :
    looped.Readable ∧ unify 3 looped 1 5 = .unified (looped.assign 0 7) ∧
      (looped.assign 0 7).Bisimilar 1 5 := by
  have readable : looped.Readable := by decide
  have ok : unify 3 looped 1 5 = .unified (looped.assign 0 7) := rfl
  exact ⟨readable, ok, unify_bisimilar looped readable 1 5 (by decide) (by decide) 3 _ ok⟩

/-! ## Finite terms -/

/-- The values that make two terms equal belong to solutions in which they are equal. -/
theorem Acyclic.unifies_iff (acyclic : h.Acyclic) (hr : h.Readable) (ha : h.IsTerm a)
    (hb : h.IsTerm b) {θ : Address → Term} :
    h.Unifies θ a b ↔ ∃ σ, h.Solution σ ∧ σ a = σ b ∧
      ∀ c, h.cells[c]? = some (.ref c) → σ c = θ c := by
  constructor
  · rintro ⟨t, hat, hbt⟩
    obtain ⟨σ, sol, value⟩ := acyclic.exists_solution hr θ
    refine ⟨σ, sol, (value a t hat).trans (value b t hbt).symm, fun c cell => ?_⟩
    exact value c _ (.unbound ⟨.unbound cell, cell⟩)
  · rintro ⟨σ, sol, same, values⟩
    have denotes {c : Address} (term : h.IsTerm c) : h.Denotes θ c (σ c) :=
      (hr.denotes sol term).congr fun d _ cell => (values d cell).symm
    refine ⟨σ a, denotes ha, ?_⟩
    rw [same]
    exact denotes hb

/-- Values make two terms equal exactly if they satisfy the bindings that unify the terms. -/
theorem unifies_iff_bindings (hr : h.Readable) (acyclic : h.Acyclic) (ha : h.IsTerm a)
    (hb : h.IsTerm b) (ok : unify fuel h a b = .unified h') (acyclic' : h'.Acyclic)
    (θ : Address → Term) :
    h.Unifies θ a b ↔ ∀ c, h.cells[c]? = some (.ref c) → h'.cells[c]? ≠ some (.ref c) →
      h'.Denotes θ c (θ c) := by
  have pair := termPairs_single ha hb
  have bs := unify_bindings hr pair ok
  have hr' := bs.readable hr
  rw [acyclic.unifies_iff hr ha hb]
  constructor
  · rintro ⟨σ, sol, same, values⟩ c free _
    have sol' := (unify_unified hr pair ok σ).mpr ⟨sol, same⟩
    have term := bs.isTerm (.inl ⟨c, free⟩)
    rw [← values c free]
    exact (hr'.denotes sol' term).congr fun d _ cell => (values d (bs.unbound_of_unbound cell)).symm
  · intro satisfied
    obtain ⟨σ, sol', value⟩ := acyclic'.exists_solution hr' θ
    obtain ⟨sol, same⟩ := (unify_unified hr pair ok σ).mp sol'
    refine ⟨σ, sol, same, fun c free => ?_⟩
    by_cases free' : h'.cells[c]? = some (.ref c)
    · exact value c _ (.unbound ⟨.unbound free', free'⟩)
    · exact value c _ (satisfied c free free')

/-- If values for the variables make two terms equal, the terms are unified, without a cycle, and
these values are the ones that satisfy the bindings. If the unification fails there are none. -/
theorem unify_most_general (h : Heap) (hr : h.Readable) (acyclic : h.Acyclic) (a b : Address)
    (ha : h.IsTerm a) (hb : h.IsTerm b) :
    ((∃ θ, h.Unifies θ a b) →
      ∃ h' n, (∀ fuel, n ≤ fuel → unify fuel h a b = .unified h') ∧ h'.Acyclic ∧
        ∀ θ, h.Unifies θ a b ↔
          ∀ c, h.cells[c]? = some (.ref c) → h'.cells[c]? ≠ some (.ref c) →
            h'.Denotes θ c (θ c)) ∧
    ∀ fuel h', unify fuel h a b = .clash h' → ¬∃ θ, h.Unifies θ a b := by
  have pair := termPairs_single ha hb
  constructor
  · rintro ⟨θ, unifies⟩
    obtain ⟨σ, sol, same, _⟩ := (acyclic.unifies_iff hr ha hb).mp unifies
    obtain ⟨h', ok⟩ := exists_unified hr pair sol same
    have ok' := ok _ (Nat.le_refl _)
    have acyclic' := ((unify_unified hr pair ok' σ).mpr ⟨sol, same⟩).acyclic
    exact ⟨h', (σ a).size, ok, acyclic', unifies_iff_bindings hr acyclic ha hb ok' acyclic'⟩
  · rintro fuel h' failed ⟨θ, unifies⟩
    obtain ⟨σ, sol, same, _⟩ := (acyclic.unifies_iff hr ha hb).mp unifies
    exact unify_clash hr pair failed sol same

/-- The structure `f(X, Y)` at 2 and the structure `f(g(Y), Z)` at 6, with `g(Y)` at 8. -/
def crossed : Heap :=
  ⟨#[.ref 0, .ref 1, .str 3, .symbol ⟨"f", 2⟩, .ref 0, .ref 1,
    .str 7, .symbol ⟨"f", 2⟩, .str 10, .ref 9, .symbol ⟨"g", 1⟩, .ref 1], none⟩

/-- Takes `g(a)` for `X`, and `a` for `Y` and `Z`. -/
def crossedValues : Address → Term
  | 0 => .compound "g" [.atom "a"]
  | _ => .atom "a"

theorem crossed_unifies : crossed.Unifies crossedValues 2 6 := by
  have leaf (a b : Address) (found : crossed.inspect a = .ok (b, .unbound)) :
      crossed.Denotes crossedValues a (crossedValues b) :=
    .unbound (inspect_eq_unbound_iff.mp found)
  have node (a : Address) (s : Symbol) (p : Address) (ts : List Term)
      (cell : crossed.cells[a]? = some (.str p)) (symbol : crossed.cells[p]? = some (.symbol s)) :=
    @Denotes.compound crossed crossedValues a p s ts ⟨a, .compound cell, cell, symbol⟩
  have inner := node 8 ⟨"g", 1⟩ 10 [.atom "a"] rfl rfl rfl fun
    | 0, _ => leaf 11 1 rfl
  refine ⟨.compound "f" [.compound "g" [.atom "a"], .atom "a"], ?_, ?_⟩
  · exact node 2 ⟨"f", 2⟩ 3 [_, _] rfl rfl rfl fun
      | 0, _ => leaf 4 0 rfl
      | 1, _ => leaf 5 1 rfl
  · exact node 6 ⟨"f", 2⟩ 7 [_, _] rfl rfl rfl fun
      | 0, _ => inner
      | 1, _ => leaf 9 9 rfl

theorem unify_most_general_crossed :
    crossed.Readable ∧ crossed.Acyclic ∧ crossed.Unifies crossedValues 2 6 ∧
      (∃ h' n, (∀ fuel, n ≤ fuel → unify fuel crossed 2 6 = .unified h') ∧ h'.Acyclic ∧
        ∀ θ, crossed.Unifies θ 2 6 ↔
          ∀ c, crossed.cells[c]? = some (.ref c) → h'.cells[c]? ≠ some (.ref c) →
            h'.Denotes θ c (θ c)) ∧
      unify 1 crossed 2 8 = .clash crossed ∧ ¬∃ θ, crossed.Unifies θ 2 8 := by
  have readable : crossed.Readable := by decide
  have acyclic : crossed.Acyclic :=
    acyclic_of_lt (fun a => if a = 2 ∨ a = 6 then 2 else if a = 8 then 1 else 0) (by decide)
  have unified := (unify_most_general crossed readable acyclic 2 6 (by decide) (by decide)).1
  have failed := (unify_most_general crossed readable acyclic 2 8 (by decide) (by decide)).2
  exact ⟨readable, acyclic, crossed_unifies, unified ⟨crossedValues, crossed_unifies⟩, rfl,
    failed 1 crossed rfl⟩

end Heap

end TermMachine
