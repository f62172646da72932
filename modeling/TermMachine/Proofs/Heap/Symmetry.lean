import TermMachine.Proofs.Heap.Unification
import Mathlib.Data.List.Zip

/-! # Unification has no direction

A unification of two terms and one of the same terms the other way round go in step: pair by pair
they find the same terms and make the same bindings. This rests on `bind_comm`. Which of two
variables is bound to the other is decided by their addresses, and not by which of them comes first.
-/

namespace TermMachine

namespace Heap

variable {h : Heap} {a b : Address} {work : List (Address × Address)}

/-! ## One pair -/

theorem bind_comm (ha : h.EndsAt a a) (hb : h.EndsAt b b)
    (free : h.cells[a]? = some (.ref a) ∨ h.cells[b]? = some (.ref b)) :
    h.bind a b = h.bind b a := by
  rcases ha.last with ca | ⟨f, ca⟩ <;> rcases hb.last with cb | ⟨g, cb⟩
  · simp [Heap.bind, binding, isUnbound_of_ref ca, isUnbound_of_ref cb, Nat.max_comm, Nat.min_comm]
  · simp [Heap.bind, binding, isUnbound_of_ref ca, isUnbound_of_str cb]
  · simp [Heap.bind, binding, isUnbound_of_str ca, isUnbound_of_ref cb]
  · simp [ca, cb] at free

/-- A term can be looked up, and is found where its references end. -/
theorem Readable.exists_inspect (hr : h.Readable) {c : Address} (hac : h.EndsAt a c) :
    ∃ v, h.inspect a = .ok (c, v) ∧ (v = .unbound → h.cells[c]? = some (.ref c)) := by
  rcases hac.last with cell | ⟨f, cell⟩
  · exact ⟨.unbound, inspect_eq_unbound_iff.mpr ⟨hac, cell⟩, fun _ => cell⟩
  · obtain ⟨s, symbol, _⟩ := hr.str cell
    have found := inspect_eq_compound_iff.mpr ⟨hac, f, cell, symbol, rfl⟩
    exact ⟨.compound s (f + 1), found, nofun⟩

/-- What working off a pair leads to, with every pair the other way round. -/
def PairOutcome.swap : PairOutcome → PairOutcome
  | .next h work => .next h (work.map Prod.swap)
  | .clash => .clash
  | .error e => .error e

theorem unifyPair_swap (hr : h.Readable) (ha : h.IsTerm a) (hb : h.IsTerm b)
    (work : List (Address × Address)) :
    h.unifyPair b a (work.map Prod.swap) = (h.unifyPair a b work).swap := by
  obtain ⟨c, hac⟩ := hr.ends ha
  obtain ⟨d, hbd⟩ := hr.ends hb
  obtain ⟨v, hc, freeC⟩ := hr.exists_inspect hac
  obtain ⟨w, hd, freeD⟩ := hr.exists_inspect hbd
  simp only [unifyPair, hc, hd]
  by_cases same : c = d
  · simp only [same, if_true, PairOutcome.swap]
  · rw [if_neg same, if_neg (Ne.symm same)]
    cases v with
    | unbound =>
        rw [bind_comm hac.last_refl hbd.last_refl (.inl (freeC rfl))]
        cases w <;> cases h.bind d c <;> rfl
    | compound s first =>
        cases w with
        | unbound =>
            rw [bind_comm hac.last_refl hbd.last_refl (.inr (freeD rfl))]
            cases h.bind d c <;> rfl
        | compound t first' =>
            by_cases symbols : s = t
            · subst symbols
              by_cases shared : first = first'
              · simp only [shared, if_true, PairOutcome.swap]
              · simp only [if_true, if_neg shared, if_neg (Ne.symm shared), PairOutcome.swap,
                  List.map_append, List.zip_swap]
            · simp only [if_neg symbols, if_neg (Ne.symm symbols), PairOutcome.swap]

/-! ## All pairs -/

def Unification.swap : Unification → Unification
  | .unified h => .unified h
  | .clash h => .clash h
  | .error e h => .error e h
  | .unfinished h work => .unfinished h (work.map Prod.swap)

/-- The same work the other way round is done in the same number of steps, to the same end. -/
theorem unifyAll_swap (hr : h.Readable) (hw : h.TermPairs work) (fuel : Nat) :
    unifyAll fuel h (work.map Prod.swap) = (unifyAll fuel h work).swap := by
  induction fuel generalizing h work with
  | zero => cases work <;> rfl
  | succ fuel ih =>
      cases work with
      | nil => rfl
      | cons pair work =>
          obtain ⟨a, b⟩ := pair
          obtain ⟨ha, hb⟩ := hw (a, b) List.mem_cons_self
          have handled := hw.handled hr
          simp only [List.map_cons, Prod.swap_prod_mk, unifyAll, unifyPair_swap hr ha hb]
          generalize h.unifyPair a b work = outcome at handled
          cases handled with
          | clash _ => rfl
          | next _ _ readable pairs => exact ih readable pairs

theorem unify_swap (hr : h.Readable) (ha : h.IsTerm a) (hb : h.IsTerm b) (fuel : Nat) :
    unify fuel h b a = (unify fuel h a b).swap :=
  unifyAll_swap hr (termPairs_single ha hb) fuel

/-- Two terms are unified, or found not to be unifiable, or neither of it ever, whichever of them
comes first; and the bindings that are made are the same. -/
theorem unify_comm (h : Heap) (hr : h.Readable) (a b : Address) (ha : h.IsTerm a)
    (hb : h.IsTerm b) :
    (∀ fuel h', unify fuel h a b = .unified h' ↔ unify fuel h b a = .unified h') ∧
      (∀ fuel h', unify fuel h a b = .clash h' ↔ unify fuel h b a = .clash h') ∧
      ((∀ fuel, ∃ g work, unify fuel h a b = .unfinished g work) ↔
        ∀ fuel, ∃ g work, unify fuel h b a = .unfinished g work) := by
  have swap := unify_swap hr ha hb
  refine ⟨fun fuel h' => ?_, fun fuel h' => ?_, forall_congr' fun fuel => ?_⟩
  · rw [swap]
    cases unify fuel h a b <;> simp [Unification.swap]
  · rw [swap]
    cases unify fuel h a b <;> simp [Unification.swap]
  · rw [swap]
    cases unify fuel h a b <;> simp [Unification.swap]

/-- The variables `X` at 0 and `Y` at 1, the structure `S = p(X, S)` at 2 and the structure
`p(Y, S)` at 6. -/
def paired : Heap :=
  ⟨#[.ref 0, .ref 1, .str 3, .symbol ⟨"p", 2⟩, .ref 0, .str 3,
    .str 7, .symbol ⟨"p", 2⟩, .ref 1, .str 3], none⟩

/-- From either side `Y` is bound to `X`, and never `X` to `Y`. -/
theorem unify_comm_cyclic :
    paired.Readable ∧ unify 3 paired 2 6 = .unified (paired.assign 1 0) ∧
      unify 3 paired 6 2 = .unified (paired.assign 1 0) := by
  have readable : paired.Readable := by decide
  have ok : unify 3 paired 2 6 = .unified (paired.assign 1 0) := rfl
  have comm := unify_comm paired readable 2 6 (by decide) (by decide)
  exact ⟨readable, ok, (comm.1 3 _).mp ok⟩

end Heap

end TermMachine
