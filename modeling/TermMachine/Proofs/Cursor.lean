import TermMachine.Allocation
import TermMachine.Cursor

/-! # Visiting the arguments of a structure

Reading and writing may be mixed in any way, and writing may fail. A visit that fails leaves the
cursor where it is, so the arguments are visited in their order and each of them once, and the
cursor is idle as soon as the last one has been visited (`visits_in_order`).
-/

namespace TermMachine

/-- A call that visits the next argument. A call that writes is given the heap as it is by then,
whatever has been done to it since the call before; its top is where the new cell comes to lie. -/
inductive Call where
  | read
  | write (heap : Heap) (add : Heap → Except MemoryError Heap)

namespace Call

/-- The call can visit an argument at `a`. Reading can do so anywhere, and writing if a cell is
added in just that place. -/
def Reaches (a : Address) : Call → Prop
  | read => True
  | write heap add => (∃ heap', add heap = .ok heap') ∧ heap.top = a

end Call

namespace Cursor

/-- The address that a call visits, and the cursor behind it. -/
def visitNext (c : Cursor) : Call → Except CursorError (Address × Cursor)
  | .read => c.readNext
  | .write heap add => (c.writeNext heap add).1

/-- The addresses that calls visit one after the other, and the cursor behind the last of them. A
call that fails visits nothing, and the next one finds the cursor as it was. -/
def visits (c : Cursor) : List Call → List Address × Cursor
  | [] => ([], c)
  | call :: calls =>
      match c.visitNext call with
      | .ok (a, behind) => (a :: (behind.visits calls).1, (behind.visits calls).2)
      | .error _ => c.visits calls

/-- The cursor behind the first `k` arguments; it is idle behind all of them. -/
def behindFirst (mode : Mode) (args : Arguments) (k : Nat) : Cursor :=
  if k = args.count then idle else ⟨some ⟨mode, args, k⟩⟩

variable {mode : Mode} {args : Arguments} {k : Nat} {call : Call}

theorem behindFirst_count (mode : Mode) (args : Arguments) :
    behindFirst mode args args.count = idle := if_pos rfl

theorem behindFirst_of_ne (more : k ≠ args.count) :
    behindFirst mode args k = ⟨some ⟨mode, args, k⟩⟩ := if_neg more

theorem along_eq_behindFirst (mode : Mode) (args : Arguments) :
    along mode args = behindFirst mode args 0 := by
  unfold along behindFirst
  by_cases none : args.count = 0
  · rw [if_pos none, if_pos none.symm]
  · rw [if_neg none, if_neg (Ne.symm none)]

theorem visit?_behindFirst_eq_none_iff :
    (behindFirst mode args k).visit? = none ↔ k = args.count := by
  by_cases all : k = args.count
  · simp [all, behindFirst_count, idle]
  · simp [all, behindFirst_of_ne all]

/-! ## One call -/

theorem visitNext_idle (call : Call) : idle.visitNext call = .error .notActive := by
  cases call <;> rfl

/-- Where an argument is left, a call that reaches it moves the cursor on. -/
theorem visitNext_of_reaches (more : k ≠ args.count) (reaches : call.Reaches (args.first + k)) :
    (behindFirst mode args k).visitNext call =
      .ok (args.first + k, behindFirst mode args (k + 1)) := by
  rw [behindFirst_of_ne more]
  cases call with
  | read => simp [visitNext, readNext, pending, more, Visit.next, behind, behindFirst]
  | write heap add =>
      obtain ⟨⟨heap', added⟩, place⟩ := reaches
      simp [visitNext, writeNext, pending, more, added, place, Visit.next, behind, behindFirst]

/-- Where an argument is left, a call that fails has not added a cell or added it somewhere else. -/
theorem visitNext_of_not_reaches (more : k ≠ args.count)
    (astray : ¬call.Reaches (args.first + k)) :
    ∃ e, (behindFirst mode args k).visitNext call = .error e ∧
      ((∃ m, e = .memory m) ∨ ∃ found, e = .termOutOfPlace k (args.first + k) found) := by
  rw [behindFirst_of_ne more]
  cases call with
  | read => exact absurd trivial astray
  | write heap add =>
      cases added : add heap with
      | error m =>
          refine ⟨.memory m, ?_, .inl ⟨m, rfl⟩⟩
          simp [visitNext, writeNext, pending, more, added]
      | ok heap' =>
          have elsewhere : heap.top ≠ args.first + k := fun place => astray ⟨⟨heap', added⟩, place⟩
          refine ⟨.termOutOfPlace k (args.first + k) heap.top, ?_, .inr ⟨heap.top, rfl⟩⟩
          simp [visitNext, writeNext, pending, more, added, elsewhere, Visit.next]

/-- What one call behind the first `k` arguments does. -/
theorem visitNext_cases (mode : Mode) (le : k ≤ args.count) (call : Call) :
    (k = args.count ∧ (behindFirst mode args k).visitNext call = .error .notActive) ∨
    (k < args.count ∧ call.Reaches (args.first + k) ∧
      (behindFirst mode args k).visitNext call =
        .ok (args.first + k, behindFirst mode args (k + 1))) ∨
    (k < args.count ∧ ¬call.Reaches (args.first + k) ∧
      ∃ e, (behindFirst mode args k).visitNext call = .error e ∧
        ((∃ m, e = .memory m) ∨ ∃ found, e = .termOutOfPlace k (args.first + k) found)) := by
  by_cases all : k = args.count
  · refine .inl ⟨all, ?_⟩
    rw [all, behindFirst_count, visitNext_idle]
  · have lt : k < args.count := Nat.lt_of_le_of_ne le all
    by_cases reaches : call.Reaches (args.first + k)
    · exact .inr (.inl ⟨lt, reaches, visitNext_of_reaches all reaches⟩)
    · exact .inr (.inr ⟨lt, reaches, visitNext_of_not_reaches all reaches⟩)

/-- A call finds no structure exactly if all arguments have been visited, and it visits one exactly
if one is left that it reaches. -/
theorem visitNext_behindFirst (mode : Mode) (le : k ≤ args.count) (call : Call) :
    ((behindFirst mode args k).visitNext call = .error .notActive ↔ k = args.count) ∧
    ((∃ a behind, (behindFirst mode args k).visitNext call = .ok (a, behind)) ↔
      k < args.count ∧ call.Reaches (args.first + k)) ∧
    ∀ count, (behindFirst mode args k).visitNext call ≠ .error (.noMoreTerms count) := by
  rcases visitNext_cases mode le call with
    ⟨all, idle⟩ | ⟨lt, reaches, moved⟩ | ⟨lt, astray, e, failed, ⟨m, rfl⟩ | ⟨found, rfl⟩⟩
  · subst all
    simp [idle]
  · simp [moved, reaches, lt, Nat.ne_of_lt lt]
  · simp [failed, astray, Nat.ne_of_lt lt]
  · simp [failed, astray, Nat.ne_of_lt lt]

/-! ## Many calls -/

theorem visits_append (c : Cursor) (calls calls' : List Call) :
    c.visits (calls ++ calls') =
      ((c.visits calls).1 ++ ((c.visits calls).2.visits calls').1,
        ((c.visits calls).2.visits calls').2) := by
  induction calls generalizing c with
  | nil => rfl
  | cons call calls ih =>
      rw [List.cons_append, visits, visits]
      cases c.visitNext call with
      | error e => exact ih c
      | ok r => simp [ih r.2]

/-- Calls visit the arguments behind the first `k` in their order, up to some place. -/
theorem visits_behindFirst (mode : Mode) (le : k ≤ args.count) (calls : List Call) :
    ∃ n, k + n ≤ args.count ∧ (behindFirst mode args k).visits calls =
      (List.range' (args.first + k) n, behindFirst mode args (k + n)) := by
  induction calls generalizing k with
  | nil => exact ⟨0, le, rfl⟩
  | cons call calls ih =>
      rcases visitNext_cases mode le call with ⟨_, idle⟩ | ⟨lt, _, moved⟩ | ⟨_, _, e, failed, _⟩
      · rw [visits, idle]
        exact ih le
      · obtain ⟨n, within, visited⟩ := ih lt
        have count : k + (n + 1) = k + 1 + n := by omega
        refine ⟨n + 1, by omega, ?_⟩
        rw [visits, moved, count, List.range'_succ]
        dsimp only
        rw [visited]
        rfl
      · rw [visits, failed]
        exact ih le

/-- Once a cursor has been started, calls of both kinds visit the arguments in their order. After
any number of calls the cursor is idle exactly if all arguments have been visited, and otherwise it
stands in front of the next one, which can be counted within the bound on arities. A further call
finds no structure exactly if all arguments have been visited, and it visits one exactly if one is
left that it reaches. It never meets a visit that is over, and if it fails then it might as well not
have been made. -/
theorem visits_in_order (mode : Mode) (args : Arguments) (small : args.count < arityBound)
    (calls : List Call) :
    ∃ c, idle.start mode args = .ok c ∧
      let visited := (c.visits calls).1
      let after := (c.visits calls).2
      visited <+: args.addresses ∧
      (after.visit? = none ↔ visited.length = args.count) ∧
      (∀ v, after.visit? = some v →
        v = ⟨mode, args, visited.length⟩ ∧ v.index + 1 < arityBound) ∧
      ∀ call,
        (after.visitNext call = .error .notActive ↔ visited.length = args.count) ∧
        ((∃ a behind, after.visitNext call = .ok (a, behind)) ↔
          visited.length < args.count ∧ call.Reaches (args.first + visited.length)) ∧
        (∀ count, after.visitNext call ≠ .error (.noMoreTerms count)) ∧
        (∀ e, after.visitNext call = .error e → c.visits (calls ++ [call]) = c.visits calls) := by
  refine ⟨along mode args, rfl, ?_⟩
  have start : 0 ≤ args.count := Nat.zero_le _
  obtain ⟨n, within, visited⟩ := visits_behindFirst mode start calls
  rw [Nat.zero_add] at within visited
  rw [← along_eq_behindFirst, Nat.add_zero] at visited
  simp only [visited, List.length_range']
  refine ⟨?_, visit?_behindFirst_eq_none_iff, fun v on => ?_, fun call => ?_⟩
  · rw [Arguments.addresses, ← Nat.add_sub_cancel' within, ← List.range'_append_1]
    exact List.prefix_append _ _
  · by_cases all : n = args.count
    · simp [all, behindFirst_count, idle] at on
    · rw [behindFirst_of_ne all, Option.some.injEq] at on
      subst on
      exact ⟨rfl, by dsimp only; omega⟩
  · have unchanged (e : CursorError)
        (failed : (behindFirst mode args n).visitNext call = .error e) :
        (along mode args).visits (calls ++ [call]) =
          (List.range' args.first n, behindFirst mode args n) := by
      rw [visits_append, visited, visits, failed]
      simp [visits]
    obtain ⟨ended, reached, never⟩ := visitNext_behindFirst mode within call
    exact ⟨ended, reached, never, unchanged⟩

/-- Writing fails in a full heap and where another cell has come first. After it has succeeded, the
last of the three arguments is read, and there is no further one. -/
theorem visits_in_order_refused :
    let args : Arguments := ⟨2, 3⟩
    let cells : Array Cell := #[.str 1, .symbol ⟨"f", 3⟩, .ref 2]
    let calls : List Call :=
      [.write ⟨cells.take 2, none⟩ Heap.newVariable, .write ⟨cells, some 3⟩ Heap.newVariable,
        .write ⟨cells.push (.ref 3), none⟩ Heap.newVariable, .write ⟨cells, none⟩ (·.pushCopy 2),
        .read]
    args.count < arityBound ∧
      ∃ c, idle.start .write args = .ok c ∧ c.visits calls = ([2, 3, 4], idle) ∧
        (c.visits calls).1 <+: args.addresses ∧ (c.visits calls).2.visit? = none ∧
        ∀ call, (c.visits calls).2.visitNext call = .error .notActive := by
  intro args cells calls
  have small : args.count < arityBound := by decide
  obtain ⟨c, started, ordered, ended, _, further⟩ := visits_in_order .write args small calls
  obtain rfl : along .write args = c := Except.ok.inj started
  exact ⟨small, _, rfl, rfl, ordered, ended.mpr rfl, fun call => (further call).1.mpr rfl⟩

end Cursor

end TermMachine
