import TermMachine.Proofs.Heap.Symmetry

/-! # Unifying again

A unification that is done again, in the heap that it has left, has nothing to do. It meets the
pairs of the first one in the same order: structures are where they were, so pairs of structures
lead to the same pairs of arguments, and where a variable was bound, the two terms are one cell now.
So it ends, and with no more work than the first one, even if there are cycles.
-/

namespace TermMachine

namespace Heap

variable {h h' g : Heap} {a b : Address} {work work' : List (Address × Address)} {fuel : Nat}

/-! ## What bindings keep -/

theorem Binding.compound {source target p : Address} {s : Symbol}
    (binding : h.Binding source target) (hc : h.Compound a s p) :
    (h.assign source target).Compound a s p := by
  obtain ⟨b, hab, cell, symbol⟩ := hc
  have other : b ≠ source := by
    intro same
    rw [same, binding.unbound] at cell
    cases cell
  exact ⟨b, binding.endsAt_of_ne hab other, binding.str_iff.mpr cell,
    binding.symbol_iff.mpr symbol⟩

theorem Bindings.compound (bs : Bindings h h') {p : Address} {s : Symbol}
    (hc : h.Compound a s p) : h'.Compound a s p :=
  bs.keep (P := (·.Compound a s p)) (fun binding => binding.compound) hc

/-- References from the two addresses end at one cell. -/
def Meet (h : Heap) (a b : Address) : Prop := ∃ c, h.EndsAt a c ∧ h.EndsAt b c

theorem Binding.meet {source target : Address} (binding : h.Binding source target)
    (meet : h.Meet a b) : (h.assign source target).Meet a b := by
  obtain ⟨c, ha, hb⟩ := meet
  by_cases same : c = source
  · subst same
    exact ⟨target, binding.endsAt_of_source ha, binding.endsAt_of_source hb⟩
  · exact ⟨c, binding.endsAt_of_ne ha same, binding.endsAt_of_ne hb same⟩

theorem Bindings.meet (bs : Bindings h h') (meet : h.Meet a b) : h'.Meet a b :=
  bs.keep (P := (·.Meet a b)) (fun binding => binding.meet) meet

/-- A binding makes the two terms meet. -/
theorem Binding.meet_of_ends {source target : Address} (binding : h.Binding source target)
    (ends : (h.EndsAt a source ∧ h.EndsAt b target) ∨ (h.EndsAt a target ∧ h.EndsAt b source)) :
    (h.assign source target).Meet a b := by
  refine ⟨target, ?_⟩
  rcases ends with ⟨ha, hb⟩ | ⟨ha, hb⟩
  · exact ⟨binding.endsAt_of_source ha, binding.endsAt_of_ne hb binding.distinct⟩
  · exact ⟨binding.endsAt_of_ne ha binding.distinct, binding.endsAt_of_source hb⟩

/-! ## Once more -/

/-- There is nothing to do about two terms that meet. -/
theorem Meet.unifyPair (meet : h.Meet a b) (hr : h.Readable) (work : List (Address × Address)) :
    h.unifyPair a b work = .next h work := by
  obtain ⟨c, ha, hb⟩ := meet
  obtain ⟨v, foundA, _⟩ := hr.exists_inspect ha
  obtain ⟨w, foundB, _⟩ := hr.exists_inspect hb
  simp only [Heap.unifyPair, foundA, foundB, if_true]

/-- There is nothing to do about one structure. -/
theorem Compound.unifyPair_shared {s : Symbol} {p : Address} (ha : h.Compound a s p)
    (hb : h.Compound b s p) (work : List (Address × Address)) :
    h.unifyPair a b work = .next h work := by
  obtain ⟨c, _, _, foundA⟩ := ha.inspect
  obtain ⟨d, _, _, foundB⟩ := hb.inspect
  by_cases same : c = d
  · simp only [Heap.unifyPair, foundA, foundB, if_pos same]
  · simp only [Heap.unifyPair, foundA, foundB, if_neg same, if_true]

/-- Two structures with one symbol leave their arguments to be unified. -/
theorem Compound.unifyPair_descend {s : Symbol} {p q : Address} (ha : h.Compound a s p)
    (hb : h.Compound b s q) (apart : p ≠ q) (work : List (Address × Address)) :
    h.unifyPair a b work =
      .next h ((List.range' (p + 1) s.arity).zip (List.range' (q + 1) s.arity) ++ work) := by
  obtain ⟨c, hac, cell, symbol⟩ := ha
  obtain ⟨d, hbd, cell', symbol'⟩ := hb
  have foundA := inspect_eq_compound_iff.mpr ⟨hac, p, cell, symbol, rfl⟩
  have foundB := inspect_eq_compound_iff.mpr ⟨hbd, q, cell', symbol', rfl⟩
  have other : c ≠ d := by
    intro same
    rw [same, cell'] at cell
    exact apart (Cell.str.inj (Option.some.inj cell)).symm
  have behind : p + 1 ≠ q + 1 := fun eq => apart (Nat.succ.inj eq)
  simp only [Heap.unifyPair, foundA, foundB, if_neg other, if_true, if_neg behind,
    Arguments.addresses]

/-- What a pair has led to, it leads to again after it, and any number of bindings later. -/
theorem PairStep.again (step : PairStep h a b work (.next g work')) (bs : Bindings g h')
    (hr : h'.Readable) : h'.unifyPair a b work = .next h' work' := by
  cases step with
  | same ha hb => exact (bs.meet ⟨_, ha, hb⟩).unifyPair hr work
  | bind binding ends => exact (bs.meet (binding.meet_of_ends ends)).unifyPair hr work
  | shared ha hb => exact (bs.compound ha).unifyPair_shared (bs.compound hb) work
  | descend ha hb apart => exact (bs.compound ha).unifyPair_descend (bs.compound hb) apart work

/-- Work that has been done needs no binding when it is done again, and no more steps. -/
theorem unifyAll_again (hr : h.Readable) (hw : h.TermPairs work)
    (ok : unifyAll fuel h work = .unified h') (again : Nat) :
    unifyAll again h' work = .unified h' ∨
      (again < fuel ∧ ∃ left, unifyAll again h' work = .unfinished h' left) := by
  induction fuel generalizing h work again with
  | zero =>
      cases work with
      | nil => exact .inl (by cases again <;> rfl)
      | cons pair work => cases ok
  | succ fuel ih =>
      cases work with
      | nil => exact .inl (by cases again <;> rfl)
      | cons pair work =>
          obtain ⟨a, b⟩ := pair
          have handled := hw.handled hr
          simp only [unifyAll] at ok
          generalize h.unifyPair a b work = outcome at handled ok
          cases handled with
          | clash _ => cases ok
          | @next g work' step _ readable pairs =>
              have ended : unifyAll fuel g work' = .unified h' := ok
              have rest := (unifyAll_bindings readable pairs fuel).1
              rw [ended] at rest
              cases again with
              | zero => exact .inr ⟨Nat.succ_pos fuel, _, rfl⟩
              | succ again =>
                  have next : h'.unifyPair a b work = .next h' work' :=
                    step.again rest (rest.readable readable)
                  simp only [unifyAll, next, Nat.add_lt_add_iff_right]
                  exact ih readable pairs ended again

/-- Two terms that have been unified can be unified again, either way round: nothing is bound any
more and nothing fails. The work comes to an end, with as many pairs as the first time at most, even
if there are cycles. -/
theorem unify_idempotent (h : Heap) (hr : h.Readable) (a b : Address) (ha : h.IsTerm a)
    (hb : h.IsTerm b) (fuel : Nat) (h' : Heap) (ok : unify fuel h a b = .unified h') :
    (∀ again, unify again h' a b = .unified h' ∨
        ∃ left, unify again h' a b = .unfinished h' left) ∧
      (∀ again, unify again h' b a = .unified h' ∨
        ∃ left, unify again h' b a = .unfinished h' left) ∧
      ∀ again, fuel ≤ again →
        unify again h' a b = .unified h' ∧ unify again h' b a = .unified h' := by
  have pair := termPairs_single ha hb
  have bs := unify_bindings hr pair ok
  have once := unifyAll_again hr pair ok
  have swap := unify_swap (bs.readable hr) (bs.isTerm ha) (bs.isTerm hb)
  refine ⟨fun again => (once again).imp_right And.right, fun again => ?_, fun again enough => ?_⟩
  · rw [swap, unify]
    rcases once again with done | ⟨_, left, stopped⟩
    · rw [done]
      exact .inl rfl
    · rw [stopped]
      exact .inr ⟨_, rfl⟩
  · have done := (once again).resolve_right fun few => absurd few.1 (Nat.not_lt.mpr enough)
    rw [swap, unify, done]
    exact ⟨rfl, rfl⟩

/-- After `S = p(X, S)` has been unified with `p(Y, S)` the two still are different structures. -/
theorem unify_idempotent_cyclic :
    paired.Readable ∧ unify 3 paired 2 6 = .unified (paired.assign 1 0) ∧
      unify 3 (paired.assign 1 0) 2 6 = .unified (paired.assign 1 0) ∧
      unify 3 (paired.assign 1 0) 6 2 = .unified (paired.assign 1 0) := by
  have readable : paired.Readable := by decide
  have ok : unify 3 paired 2 6 = .unified (paired.assign 1 0) := rfl
  have again := unify_idempotent paired readable 2 6 (by decide) (by decide) 3 _ ok
  exact ⟨readable, ok, again.2.2 3 (Nat.le_refl 3)⟩

end Heap

end TermMachine
