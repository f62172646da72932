import TermMachine.Machine
import TermMachine.Proofs.Heap.Unification

/-! # Well-formed machines

A register leads to a term. The cursor stands between the arguments of a structure: one that is read
is complete, and one that is written ends at the top of the heap. Nothing else in the heap is
incomplete, unless a unification has failed while a structure was being written.
-/

namespace TermMachine

namespace Registers

/-- The address in a register, if there is such a register and it has been written. -/
def held (r : Registers) (x : Register) : Option Address := r.slots[x]?.join

def put (r : Registers) (x : Register) (a : Address) : Registers :=
  ⟨r.slots.setIfInBounds x (some a)⟩

theorem held_new (n : Nat) (x : Register) : (new n).held x = none := by
  simp only [held, new, Array.getElem?_replicate]
  split <;> rfl

theorem load_eq_ok_iff {r : Registers} {x : Register} {a : Address} :
    r.load x = .ok a ↔ r.held x = some a := by
  unfold load get held
  cases slot : r.slots[x]? with
  | none => simp
  | some held =>
      cases held with
      | none => simp
      | some b => simp

theorem get_eq_held {r : Registers} {x : Register} {a : Address} (hx : r.held x = some a) :
    r.get x = .ok (some a) := by
  unfold get
  unfold held at hx
  cases slot : r.slots[x]? with
  | none => simp [slot] at hx
  | some held =>
      rw [slot] at hx
      simpa using hx

theorem lt_count_of_held {r : Registers} {x : Register} {a : Address} (hx : r.held x = some a) :
    x < r.count := by
  by_cases lt : x < r.slots.size
  · exact lt
  · simp [held, Array.getElem?_eq_none (Nat.le_of_not_lt lt)] at hx

@[simp] theorem count_put (r : Registers) (x : Register) (a : Address) :
    (r.put x a).count = r.count := by
  simp [put, count]

theorem store_of_lt {r : Registers} {x : Register} (lt : x < r.count) (a : Address) :
    r.store x a = .ok (r.put x a) := if_pos lt

theorem store_of_le {r : Registers} {x : Register} (le : r.count ≤ x) (a : Address) :
    r.store x a = .error (.indexOutOfRange x r.count) := if_neg (Nat.not_lt.mpr le)

theorem held_put {r : Registers} {x : Register} (lt : x < r.count) (a : Address) (y : Register) :
    (r.put x a).held y = if y = x then some a else r.held y := by
  unfold count at lt
  by_cases same : y = x
  · subst same
    simp [held, put, lt]
  · simp [held, put, same, Ne.symm same]

theorem held_put_self {r : Registers} {x : Register} (lt : x < r.count) (a : Address) :
    (r.put x a).held x = some a := by
  rw [held_put lt, if_pos rfl]

theorem held_put_of_ne {r : Registers} {x y : Register} (lt : x < r.count) (a : Address)
    (ne : y ≠ x) : (r.put x a).held y = r.held y := by
  rw [held_put lt, if_neg ne]

end Registers

namespace Heap

/-- Fewer than `n` terms stand behind the symbol at `p`, and then the heap ends. -/
def Unfilled (h : Heap) (p n : Nat) : Prop := ∃ k < n, p + 1 + k = h.top ∧ h.Filled p k

end Heap

/-- A visit to the arguments of the structure whose symbol `s` lies at `p`. -/
structure Visit.Fits (v : Visit) (h : Heap) (p : Address) (s : Symbol) : Prop where
  first : v.arguments.first = p + 1
  count : v.arguments.count = s.arity
  symbol : h.cells[p]? = some (.symbol s)
  pending : v.index < s.arity
  read : v.mode = .read → h.Filled p s.arity
  write : v.mode = .write → h.Filled p v.index ∧ p + 1 + v.index = h.top

/-- The cursor writes the arguments of the structure whose symbol lies at `p`. -/
def Cursor.Writes (c : Cursor) (p : Address) : Prop :=
  ∃ v, c.visit? = some v ∧ v.mode = .write ∧ v.arguments.first = p + 1

namespace Machine

/-- What is true of a machine between two instructions. -/
structure WellFormed (m : Machine) : Prop where
  linked : m.heap.Linked
  /-- A structure is complete, or it is the last one and is being written or was so at a failure. -/
  arguments : ∀ {p : Address} {s : Symbol}, m.heap.cells[p]? = some (.symbol s) →
    m.heap.Filled p s.arity ∨
      (m.heap.Unfilled p s.arity ∧ (m.cursor.Writes p ∨ m.status = .failed))
  visit : ∀ {v : Visit}, m.cursor.visit? = some v → ∃ p s, v.Fits m.heap p s
  registers : ∀ {x : Register} {a : Address}, m.registers.held x = some a → m.heap.IsTerm a

theorem register_eq_ok_iff {m : Machine} {x : Register} {a : Address} :
    m.register x = .ok (some a) ↔ m.registers.held x = some a := by
  constructor
  · intro found
    unfold Machine.register Registers.get at found
    rw [Registers.held]
    cases slot : m.registers.slots[x]? with
    | none => simp [slot] at found
    | some held => simpa [slot] using found
  · intro held
    rw [Machine.register, Registers.get_eq_held held]

theorem wellFormed_new (registerCount : Nat) (limits : Limits) :
    (new registerCount limits).WellFormed := by
  have none (a : Address) : (new registerCount limits).heap.cells[a]? = none := by
    simp [new, Heap.empty]
  refine ⟨⟨?_, ?_, ?_⟩, ?_, nofun, ?_⟩
  · intro a f cell
    simp [none] at cell
  · intro a r cell
    simp [none] at cell
  · intro a r cell
    simp [none] at cell
  · intro p s cell
    simp [none] at cell
  · intro x a hx
    simp [new, Registers.held_new] at hx

/-- A machine that has not failed and is not writing has a well-formed heap. -/
theorem WellFormed.heap {m : Machine} (wf : m.WellFormed) (alive : m.status ≠ .failed)
    (complete : ∀ p, ¬m.cursor.Writes p) : m.heap.WellFormed := by
  refine wf.linked.wellFormed fun {p s} symbol => ?_
  rcases wf.arguments symbol with full | ⟨_, writes | failed⟩
  · exact full
  · exact absurd writes (complete p)
  · exact absurd failed alive

theorem not_writes_of_idle {c : Cursor} (idle : c = .idle) (p : Address) : ¬c.Writes p := by
  rintro ⟨v, hv, _⟩
  simp [idle, Cursor.idle] at hv

theorem not_writes_of_read {c : Cursor} {v : Visit} (hv : c.visit? = some v)
    (read : v.mode = .read) (p : Address) : ¬c.Writes p := by
  rintro ⟨w, hw, write, _⟩
  rw [hv, Option.some.injEq] at hw
  rw [← hw, read] at write
  cases write

/-- Only the last structure can be incomplete. -/
theorem unfilled_unique {h : Heap} {p q : Address} {s t : Symbol}
    (hp : h.cells[p]? = some (.symbol s)) (hq : h.cells[q]? = some (.symbol t))
    (up : h.Unfilled p s.arity) (uq : h.Unfilled q t.arity) : p = q := by
  -- a symbol further up would lie among the arguments of the other structure
  have below {p q : Nat} {s t : Symbol} (hq : h.cells[q]? = some (.symbol t))
      (up : h.Unfilled p s.arity) : ¬p < q := by
    intro lt
    obtain ⟨k, _, ends, filled⟩ := up
    have top : q < h.top := Heap.lt_top_of_cell hq
    have among : (p + 1 + (q - (p + 1)) : Nat) = q := by omega
    have inside : q - (p + 1) < k := by
      have ends : (p + 1 + k : Nat) = h.top := ends
      omega
    have term := filled _ inside
    rw [among] at term
    exact term.not_symbol hq
  exact Nat.le_antisymm (Nat.le_of_not_lt (below hp uq)) (Nat.le_of_not_lt (below hq up))

end Machine

end TermMachine
