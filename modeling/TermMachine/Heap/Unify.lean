import TermMachine.Heap

/-!
# Unification in the heap

Two terms are unified by working off pairs of addresses. The terms of a pair are looked up; if they
are the same cell there is nothing to do, a variable is bound to the other term, and two structures
with one symbol leave their arguments to be unified, pair by pair, before the pairs that were
waiting. Two structures with different symbols cannot be unified. Nothing checks whether a variable
occurs in the term it is bound to, so a structure can come to contain itself.

On structures that contain themselves the work need not come to an end. The work is therefore
bounded by a number of pairs, and running out of it is an outcome of its own.
-/

namespace TermMachine

namespace Heap

/-- What working off one pair leads to. -/
inductive PairOutcome where
  /-- A heap, and the pairs that are left. -/
  | next (heap : Heap) (work : List (Address × Address))
  | clash
  | error (e : MemoryError)

/-- Works off the pair `(a, b)`, with `work` waiting. -/
def unifyPair (h : Heap) (a b : Address) (work : List (Address × Address)) : PairOutcome :=
  match h.inspect a with
  | .error e => .error e
  | .ok (a, v) =>
      match h.inspect b with
      | .error e => .error e
      | .ok (b, w) =>
          if a = b then .next h work
          else
            match v, w with
            | .compound s first, .compound t first' =>
                if s = t then
                  if first = first' then .next h work
                  else
                    .next h ((Arguments.addresses ⟨first, s.arity⟩).zip
                      (Arguments.addresses ⟨first', t.arity⟩) ++ work)
                else .clash
            | _, _ =>
                match h.bind a b with
                | .ok h => .next h work
                | .error e => .error e

/-- How a unification ends. The heap holds every binding that was made up to then. -/
inductive Unification where
  | unified (heap : Heap)
  | clash (heap : Heap)
  | error (e : MemoryError) (heap : Heap)
  /-- The allowed number of pairs was used up. -/
  | unfinished (heap : Heap) (work : List (Address × Address))

/-- Works off pairs, at most `fuel` of them. -/
def unifyAll : Nat → Heap → List (Address × Address) → Unification
  | _, h, [] => .unified h
  | 0, h, pair :: work => .unfinished h (pair :: work)
  | fuel + 1, h, (a, b) :: work =>
      match h.unifyPair a b work with
      | .next h work => unifyAll fuel h work
      | .clash => .clash h
      | .error e => .error e h

def unify (fuel : Nat) (h : Heap) (a b : Address) : Unification := unifyAll fuel h [(a, b)]

/-- An answer does not depend on how much work was allowed beyond what it took. -/
theorem unifyAll_add {fuel : Nat} {h : Heap} {work : List (Address × Address)}
    (ends : ∀ h' work', unifyAll fuel h work ≠ .unfinished h' work') (extra : Nat) :
    unifyAll (fuel + extra) h work = unifyAll fuel h work := by
  induction fuel generalizing h work with
  | zero =>
      cases work with
      | nil => cases extra <;> rfl
      | cons pair work => exact absurd rfl (ends h (pair :: work))
  | succ fuel ih =>
      cases work with
      | nil => simp [unifyAll, Nat.succ_add]
      | cons pair work =>
          obtain ⟨a, b⟩ := pair
          simp only [Nat.succ_add, unifyAll] at ends ⊢
          cases step : h.unifyPair a b work with
          | next h' work' =>
              simp only [step] at ends ⊢
              exact ih ends
          | clash => rfl
          | error e => rfl

end Heap

end TermMachine
