import TermMachine.Proofs.Heap.Acyclic

/-! # The end of a unification

A unification that never ends builds a cycle. In an acyclic heap all terms have a size. As long as
no variable is bound, the sizes of the pairs that wait go down; a binding may make terms larger, but
there is one unbound variable less. `unifyPair_progress` says so for one pair, provided that the
binding does not close a cycle, and `unify_ends_or_closes` follows for the whole work. A binding
that closes a cycle does leave one behind, `ClosesCycle.not_acyclic`.
-/

namespace TermMachine

namespace Heap

variable {h h' : Heap} {a b source target : Address} {work work' : List (Address × Address)}

def unboundCells (h : Heap) : Finset Address :=
  {a ∈ Finset.range h.top | h.cells[a]? = some (.ref a)}

theorem mem_unboundCells_iff : a ∈ h.unboundCells ↔ h.cells[a]? = some (.ref a) := by
  simp only [unboundCells, Finset.mem_filter, Finset.mem_range, and_iff_right_iff_imp]
  exact lt_top_of_cell

theorem Binding.unboundCells (binding : h.Binding source target) :
    (h.assign source target).unboundCells = h.unboundCells.erase source := by
  ext a
  rw [Finset.mem_erase, mem_unboundCells_iff, mem_unboundCells_iff, binding.ref_iff]
  refine or_iff_right ?_
  rintro ⟨rfl, same⟩
  exact binding.distinct same.symm

/-- A binding leaves fewer variables. -/
theorem Binding.card_unboundCells_lt (binding : h.Binding source target) :
    (h.assign source target).unboundCells.card < h.unboundCells.card := by
  rw [binding.unboundCells]
  exact Finset.card_erase_lt_of_mem (mem_unboundCells_iff.mpr binding.unbound)

/-- Working off the pair `(a, b)` binds the variable at `source` to the structure at `target`, from
which the variable can be reached. -/
structure ClosesCycle (h : Heap) (a b : Address) (work : List (Address × Address))
    (source target : Address) : Prop where
  next : h.unifyPair a b work = .next (h.assign source target) work
  unbound : h.cells[source]? = some (.ref source)
  compound : ∃ f, h.cells[target]? = some (.str f)
  reached : h.Reaches target source

theorem ClosesCycle.not_acyclic (closes : h.ClosesCycle a b work source target) :
    ¬(h.assign source target).Acyclic := by
  obtain ⟨f, cell⟩ := closes.compound
  have distinct : target ≠ source := by
    rintro rfl
    simp [closes.unbound] at cell
  have binding : h.Binding source target :=
    ⟨closes.unbound, .compound cell, distinct, .inr closes.compound⟩
  exact binding.not_acyclic closes.reached

/-- A variable that is bound to another variable closes no cycle. -/
theorem Binding.compound_of_reaches (binding : h.Binding source target)
    (reached : h.Reaches target source) : ∃ f, h.cells[target]? = some (.str f) := by
  refine binding.stays.last.resolve_left fun free => ?_
  have here := Unbound.eq_of_reaches ⟨binding.stays, free⟩ reached
  exact binding.distinct here.symm

/-- Working off a pair leaves smaller terms or fewer variables, or it closes a cycle. -/
theorem unifyPair_progress (hr : h.Readable) (acyclic : h.Acyclic) {σ : Address → Term}
    (sol : h.Solution σ) (step : PairStep h a b work (.next h' work'))
    (next : h.unifyPair a b work = .next h' work') :
    (h' = h ∧ weight Term.size σ work' < weight Term.size σ ((a, b) :: work)) ∨
      (h'.Acyclic ∧ h'.unboundCells.card < h.unboundCells.card) ∨
        ∃ source target, h.ClosesCycle a b work source target := by
  have lighter := step.weight_lt Term.isSize sol
  cases step with
  | same _ _ => exact .inl ⟨rfl, lighter⟩
  | shared _ _ => exact .inl ⟨rfl, lighter⟩
  | descend _ _ _ => exact .inl ⟨rfl, lighter⟩
  | @bind source target binding _ =>
      by_cases reached : h.Reaches target source
      · have compound := binding.compound_of_reaches reached
        exact .inr (.inr ⟨source, target, next, binding.unbound, compound, reached⟩)
      · exact .inr (.inl ⟨binding.acyclic hr acyclic reached, binding.card_unboundCells_lt⟩)

/-- The work comes to an end, or in the course of it a cycle is closed. -/
def EndsOrCloses (h : Heap) (work : List (Address × Address)) : Prop :=
  (∃ fuel h', unifyAll fuel h work = .unified h' ∨ unifyAll fuel h work = .clash h') ∨
    ∃ fuel g c d rest source target,
      unifyAll fuel h work = .unfinished g ((c, d) :: rest) ∧ g.ClosesCycle c d rest source target

theorem EndsOrCloses.of_next (next : h.unifyPair a b work = .next h' work')
    (later : h'.EndsOrCloses work') : h.EndsOrCloses ((a, b) :: work) := by
  have one (fuel : Nat) : unifyAll (fuel + 1) h ((a, b) :: work) = unifyAll fuel h' work' := by
    simp only [unifyAll, next]
  rcases later with ⟨fuel, g, ended⟩ | ⟨fuel, g, c, d, rest, source, target, stopped, closes⟩
  · refine .inl ⟨fuel + 1, g, ?_⟩
    rwa [one]
  · refine .inr ⟨fuel + 1, g, c, d, rest, source, target, ?_, closes⟩
    rwa [one]

theorem Acyclic.endsOrCloses (acyclic : h.Acyclic) (hr : h.Readable) (hw : h.TermPairs work) :
    h.EndsOrCloses work := by
  induction count : h.unboundCells.card using Nat.strongRecOn generalizing h work with
  | ind count fewer =>
      subst count
      -- until a variable is bound, one solution tells the sizes of the terms
      obtain ⟨σ, sol, _⟩ := acyclic.exists_solution hr fun _ => .atom ""
      induction size : weight Term.size σ work using Nat.strongRecOn generalizing work with
      | ind size smaller =>
          subst size
          cases work with
          | nil => exact .inl ⟨0, h, .inl rfl⟩
          | cons pair work =>
              obtain ⟨a, b⟩ := pair
              have handled := hw.handled hr
              generalize outcome : h.unifyPair a b work = next at handled
              cases handled with
              | clash _ => exact .inl ⟨1, h, .inr (by simp only [unifyAll, outcome])⟩
              | next step _ readable pairs =>
                  rcases unifyPair_progress hr acyclic sol step outcome with
                    ⟨rfl, lt⟩ | ⟨acyclic', lt⟩ | ⟨source, target, closes⟩
                  · exact .of_next outcome (smaller _ lt pairs rfl)
                  · exact .of_next outcome (fewer _ lt acyclic' readable pairs rfl)
                  · exact .inr ⟨0, h, a, b, work, source, target, rfl, closes⟩

/-- A unification in an acyclic heap comes to an end, unless it binds a variable to a structure that
contains the variable. -/
theorem unify_ends_or_closes (h : Heap) (hr : h.Readable) (acyclic : h.Acyclic) (a b : Address)
    (ha : h.IsTerm a) (hb : h.IsTerm b) :
    (∃ fuel h', unify fuel h a b = .unified h' ∨ unify fuel h a b = .clash h') ∨
      ∃ fuel g c d rest source target,
        unify fuel h a b = .unfinished g ((c, d) :: rest) ∧
          g.ClosesCycle c d rest source target :=
  acyclic.endsOrCloses hr (termPairs_single ha hb)

/-- A pair that leads back to itself leads back to itself for ever. -/
theorem unifyAll_endless (again : h.unifyPair a b work = .next h ((a, b) :: work)) (fuel : Nat) :
    unifyAll fuel h ((a, b) :: work) = .unfinished h ((a, b) :: work) := by
  induction fuel with
  | zero => rfl
  | succ fuel ih => simp only [unifyAll, again, ih]

/-- A unification that has not ended after more work had not ended before. -/
theorem unfinished_of_add {fuel : Nat} (extra : Nat)
    (later : unifyAll (fuel + extra) h work = .unfinished h' work') :
    ∃ g rest, unifyAll fuel h work = .unfinished g rest := by
  by_contra ended
  have same := unifyAll_add (fun g rest unfinished => ended ⟨g, rest, unfinished⟩) extra
  exact ended ⟨h', work', same.symm.trans later⟩

/-- The structure `p(X, Y, X)` at 2 and the structure `p(f(X), f(Y), Y)` at 7. -/
def entangled : Heap :=
  ⟨#[.ref 0, .ref 1, .str 3, .symbol ⟨"p", 3⟩, .ref 0, .ref 1, .ref 0,
    .str 8, .symbol ⟨"p", 3⟩, .str 12, .str 14, .ref 1,
    .symbol ⟨"f", 1⟩, .ref 0, .symbol ⟨"f", 1⟩, .ref 1], none⟩

/-- `X` becomes `f(X)` and `Y` becomes `f(Y)`, and comparing these two leads back to comparing
them. -/
theorem entangled_endless (fuel : Nat) :
    ∃ g rest, unify fuel entangled 2 7 = .unfinished g rest := by
  have again : unifyPair ((entangled.assign 0 9).assign 1 10) 13 15 [] =
      .next ((entangled.assign 0 9).assign 1 10) [(13, 15)] := rfl
  exact unfinished_of_add 4 (unifyAll_endless again fuel)

theorem unify_ends_or_closes_entangled :
    entangled.Readable ∧ entangled.Acyclic ∧
      (∀ fuel, ∃ g rest, unify fuel entangled 2 7 = .unfinished g rest) ∧
      ∃ fuel g c d rest source target,
        unify fuel entangled 2 7 = .unfinished g ((c, d) :: rest) ∧
          g.ClosesCycle c d rest source target := by
  have readable : entangled.Readable := by decide
  have acyclic : entangled.Acyclic :=
    acyclic_of_lt (fun a => if a = 2 ∨ a = 7 then 2 else if a = 9 ∨ a = 10 then 1 else 0)
      (by decide)
  have outcome := unify_ends_or_closes entangled readable acyclic 2 7 (by decide) (by decide)
  refine ⟨readable, acyclic, entangled_endless, outcome.resolve_left ?_⟩
  rintro ⟨fuel, h', ended⟩
  obtain ⟨g, rest, unfinished⟩ := entangled_endless fuel
  simp [unfinished] at ended

end Heap

end TermMachine
