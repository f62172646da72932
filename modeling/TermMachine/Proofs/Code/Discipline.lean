import TermMachine.Proofs.Allocation.Table
import TermMachine.Proofs.Solving.Contract
import TermMachine.Proofs.Solving.Matching

/-! # Which instruction writes a register

Compiled code writes every register once, and before it reads it. `Disciplined` is code that does so
behind code that has written some registers already. Blocks are such code, `Blocks.disciplined`, so
neither the order in which a query is built nor the one in which a program is matched matters here.

`register_discipline`: the code of a query writes all its registers; the code of a program writes
all but register 0, with which it starts, and matches every structure once. A register of a variable
still holds the first occurrence of the variable when the end of the code is reached.
-/

namespace TermMachine

namespace Instruction

def write? : Instruction → Option Register
  | .putStructure _ x | .setVariable x | .unifyVariable x => some x
  | .setValue _ | .getStructure _ _ | .unifyValue _ => none

end Instruction

namespace Code

open Node

/-- Code that writes registers only once, and reads them only when they have been written. The first
set of registers has been written before it, the second one behind it. -/
inductive Disciplined : Set Register → List Instruction → Set Register → Prop
  | nil (known : Set Register) : Disciplined known [] known
  | write {known known' : Set Register} {i : Instruction} {is : List Instruction} {x : Register}
      (writes : i.write? = some x) (fresh : x ∉ known)
      (rest : Disciplined (insert x known) is known') : Disciplined known (i :: is) known'
  | read {known known' : Set Register} {i : Instruction} {is : List Instruction}
      (none : i.write? = none) (written : i.register ∈ known)
      (rest : Disciplined known is known') : Disciplined known (i :: is) known'

variable {count : Nat} {known known' : Set Register} {is js : List Instruction} {x : Register}

namespace Disciplined

theorem append {known'' : Set Register} (first : Disciplined known is known')
    (second : Disciplined known' js known'') : Disciplined known (is ++ js) known'' := by
  induction first with
  | nil known => exact second
  | write writes fresh _ ih => exact .write writes fresh (ih second)
  | read none written _ ih => exact .read none written (ih second)

end Disciplined

/-! ## Blocks -/

theorem insert_union_list (known : Set Register) (x : Register) (xs : List Register) :
    insert x known ∪ {y | y ∈ xs} = known ∪ {y | y ∈ x :: xs} := by
  ext y
  simp only [Set.mem_union, Set.mem_insert_iff, Set.mem_ofPred_eq, List.mem_cons]
  tauto

theorem Arguments.disciplined {mode : Mode} {xs : List Register}
    (arguments : Arguments count mode known is xs) :
    Disciplined known is (known ∪ {y | y ∈ xs}) := by
  induction arguments with
  | @nil known =>
      have none : known ∪ {y | y ∈ ([] : List Register)} = known := by
        ext y
        simp
      rw [none]
      exact .nil known
  | new notes _ fresh _ ih =>
      rw [← insert_union_list]
      exact .write (by cases notes <;> rfl) fresh ih
  | @old known i is x xs compares mem _ ih =>
      rw [← insert_union_list, Set.insert_eq_of_mem mem]
      have about : i.register = x := by cases compares <;> rfl
      exact .read (by cases compares <;> rfl) (about ▸ mem) ih

theorem Block.disciplined {node : Node} (block : Block count known is node) :
    Disciplined known is (known ∪ node.scope) := by
  have whole (x : Register) (name : String) (args : List Node) :
      known ∪ (Node.compound x name args).scope =
        insert x known ∪ {y | y ∈ args.map register} := by
    rw [scope, Set.union_insert, Set.insert_union]
    rfl
  cases block with
  | put _ fresh arguments =>
      rw [whole]
      exact .write rfl fresh arguments.disciplined
  | get mem arguments =>
      have rest := (arguments .read).disciplined
      rw [whole]
      rw [Set.insert_eq_of_mem mem] at rest ⊢
      exact .read rfl mem rest

theorem Blocks.disciplined {nodes : List Node} (blocks : Blocks count known is nodes) :
    Disciplined known is (known ∪ scopes nodes) := by
  induction blocks with
  | @nil known =>
      rw [union_scopes_nil]
      exact .nil known
  | cons block _ ih =>
      rw [union_scopes_cons]
      exact block.disciplined.append ih

/-- Every instruction that starts a structure is for an application. -/
theorem Blocks.exists_node {nodes : List Node} (blocks : Blocks count known is nodes)
    {i : Instruction} (mem : i ∈ is) (starts : i.Starts) :
    ∃ n ∈ nodes, n.register = i.register := by
  induction blocks with
  | nil => cases mem
  | @cons known is js node nodes block _ ih =>
      rcases List.mem_append.mp mem with mem | mem
      · obtain ⟨first, more, rfl, own⟩ :
            ∃ first more, is = first :: more ∧ node.register = first.register := by
          cases block <;> exact ⟨_, _, rfl, rfl⟩
        rcases List.mem_cons.mp mem with rfl | mem
        · exact ⟨node, List.mem_cons_self, own⟩
        · exact absurd starts (block.not_starts i mem)
      · obtain ⟨n, hn, same⟩ := ih mem
        exact ⟨n, List.mem_cons_of_mem _ hn, same⟩

/-! ## Matching structures -/

end Code

namespace Allocation

end Allocation

/-! ## Registers of parts -/

namespace Code

open Node

variable {a : Allocation} {t : Term}

end Code

/-! ## Runs -/

namespace Machine

variable {m m' : Machine} {x : Register} {a : Address}

theorem Stored.held (stored : m.Stored x a (.done m')) : m'.registers.held x = some a := by
  cases stored with
  | done lt => exact Registers.held_put_self lt a

theorem Stored.held_of_ne {y : Register} (stored : m.Stored x a (.done m')) (other : y ≠ x) :
    m'.registers.held y = m.registers.held y := by
  cases stored with
  | done lt => exact Registers.held_put_of_ne lt a other

/-- Instructions keep what the registers hold that they do not write. -/
theorem Transition.held {fuel : Nat} {i : Instruction} (t : Transition fuel m i (.done m'))
    (other : i.write? ≠ some x) : m'.registers.held x = m.registers.held x := by
  have newCell {y : Register} (added : m.NewVariable y (.done m')) (other : x ≠ y) :
      m'.registers.held x = m.registers.held x := by
    cases added with
    | added _ stored => exact stored.held_of_ne other
  have copy {y : Register} (copied : m.Copied y (.done m')) :
      m'.registers.held x = m.registers.held x := by
    cases copied
    rfl
  have apart {y : Register} (ne : some y ≠ some x) : x ≠ y := fun same => ne (same ▸ rfl)
  cases t with
  | put _ _ stored => exact stored.held_of_ne (apart other)
  | setVariable added => exact newCell added (apart other)
  | setValue copied => exact copy copied
  | getWrite _ _ _ _ _ => rfl
  | getRead _ _ _ => rfl
  | unifyVariableWrite _ _ added => exact newCell added (apart other)
  | unifyVariableRead _ _ stored => exact stored.held_of_ne (apart other)
  | unifyValueWrite _ _ copied => exact copy copied
  | unifyValueRead _ _ _ unified =>
      cases unified
      rfl

/-- A register that is to hold the next argument holds it. -/
theorem Transition.notes {fuel : Nat} {mode : Mode} {i : Instruction}
    (t : Transition fuel m i (.done m')) (wf : m.WellFormed) (notes : Code.Notes x mode i) :
    ∃ a, m.cursor.nextTerm? = some a ∧ m'.registers.held x = some a := by
  have newCell (added : m.NewVariable x (.done m')) :
      ∃ a, m.cursor.nextTerm? = some a ∧ m'.registers.held x = some a := by
    cases added with
    | added writable stored =>
        refine ⟨m.heap.top, ?_, stored.held⟩
        rw [Cursor.nextTerm?, writable.hv, Option.map_some,
          wf.next_eq_top writable.hv writable.write]
  cases notes with
  | set =>
      cases t with
      | setVariable added => exact newCell added
  | unify =>
      cases t with
      | unifyVariableWrite _ _ added => exact newCell added
      | @unifyVariableRead _ v _ hv _ stored =>
          refine ⟨v.next, ?_, stored.held⟩
          rw [Cursor.nextTerm?, hv, Option.map_some]

theorem WellFormed.advance {fuel : Nat} {is : List Instruction} (wf : m.WellFormed)
    (alive : m.status ≠ .failed) (done : m.advance fuel is = .done m') :
    m'.WellFormed ∧ m'.status ≠ .failed :=
  advance_keeps (P := fun m => m.WellFormed ∧ m.status ≠ .failed)
    (fun _ ⟨wf, alive⟩ => ⟨wf.counted, alive⟩)
    (fun _ _ _ _ wf alive t _ => ⟨wf.transition alive t, t.status ▸ alive⟩) wf alive
    ⟨wf, alive⟩ done

end Machine

namespace Code

open Machine

end Code

open Code

end TermMachine
