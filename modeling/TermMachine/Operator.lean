/-!
# Operators

An operator is a name that may be written before, between or after its operands instead of in front
of brackets. Its priority says how loosely it binds: a term may stand as an operand if the operator
that made it does not bind more loosely than the operand's place allows. The kind of an operator
gives the places, with `f` for the operator, `x` for an operand that binds strictly tighter and `y`
for one that binds at least as tightly.
-/

namespace TermMachine

/-- The loosest priority, that of a whole clause. -/
def maxPriority : Nat := 1200

/-- The priority of an argument or a list element. The comma, which separates them, binds more
loosely. -/
def argumentPriority : Nat := 999

/-- Where an operator stands: before its operand, between its operands or after its operand. -/
inductive Placement where
  | before
  | between
  | after
deriving Repr, DecidableEq

inductive OperatorKind where
  | xfx
  | xfy
  | yfx
  | fy
  | fx
  | xf
  | yf
deriving Repr, DecidableEq

namespace OperatorKind

def placement : OperatorKind → Placement
  | .fy | .fx => .before
  | .xfx | .xfy | .yfx => .between
  | .xf | .yf => .after

end OperatorKind

/-- An operator, with a priority from 1 to `maxPriority`. -/
structure Operator where
  name : String
  kind : OperatorKind
  priority : Nat
  priority_pos : 0 < priority
  priority_le : priority ≤ maxPriority

namespace Operator

/-- The loosest priority of the operand on the left; an operator that stands first has none. -/
def left (op : Operator) : Nat :=
  match op.kind with
  | .xfx | .xfy | .xf => op.priority - 1
  | .yfx | .yf => op.priority
  | .fy | .fx => 0

/-- The loosest priority of the operand on the right; an operator that stands last has none. -/
def right (op : Operator) : Nat :=
  match op.kind with
  | .xfx | .yfx | .fx => op.priority - 1
  | .xfy | .fy => op.priority
  | .xf | .yf => 0

def placement (op : Operator) : Placement := op.kind.placement

theorem left_le (op : Operator) : op.left ≤ op.priority := by
  unfold left
  split <;> omega

theorem right_le (op : Operator) : op.right ≤ op.priority := by
  unfold right
  split <;> omega

end Operator

/-- The operators in force, the newest first. A name has at most one operator in force for each
placement. -/
structure OperatorTable where
  operators : List Operator

namespace OperatorTable

def empty : OperatorTable := ⟨[]⟩

def find? (table : OperatorTable) (name : String) (placement : Placement) : Option Operator :=
  table.operators.find? fun op => op.name == name && op.placement == placement

/-- The operator that `name` is in front of an operand. -/
def before? (table : OperatorTable) (name : String) : Option Operator := table.find? name .before

/-- The operator that `name` is between two operands. -/
def between? (table : OperatorTable) (name : String) : Option Operator := table.find? name .between

def after? (table : OperatorTable) (name : String) : Option Operator := table.find? name .after

def isOperator (table : OperatorTable) (name : String) : Bool :=
  (table.before? name).isSome || (table.between? name).isSome || (table.after? name).isSome

def erase (table : OperatorTable) (name : String) (placement : Placement) : OperatorTable :=
  ⟨table.operators.filter fun op => !(op.name == name && op.placement == placement)⟩

/-- Makes `name` an operator in place of what it was at the same placement. A priority beyond the
loosest counts as the loosest, and priority 0 makes the name no operator. -/
def add (table : OperatorTable) (priority : Nat) (kind : OperatorKind) (name : String) :
    OperatorTable :=
  let others := table.erase name kind.placement
  if positive : 0 < priority then
    ⟨⟨name, kind, min priority maxPriority, by simp [maxPriority]; omega, Nat.min_le_right _ _⟩
      :: others.operators⟩
  else others

/-- The operators of the language, loosest first. -/
def standardOperators : List (Nat × OperatorKind × List String) :=
  [(1200, .xfx, ["-->", ":-"]),
   (1200, .fx, [":-", "?-"]),
   (1150, .fx, ["dynamic", "discontiguous", "initialization", "meta_predicate",
     "module_transparent", "multifile", "public", "thread_local", "thread_initialization",
     "volatile"]),
   (1100, .xfy, [";", "|"]),
   (1050, .xfy, ["->", "*->"]),
   (1000, .xfy, [","]),
   (990, .xfx, [":="]),
   (900, .fy, ["\\+"]),
   (700, .xfx, ["<", "=", "=..", "=@=", "\\=@=", "=:=", "=<", "==", "=\\=", ">", ">=", "@<",
     "@=<", "@>", "@>=", "\\=", "\\==", "as", "is", ">:<", ":<"]),
   (600, .xfy, [":"]),
   (500, .yfx, ["+", "-", "/\\", "\\/", "xor"]),
   (500, .fx, ["?"]),
   (400, .yfx, ["*", "/", "//", "div", "rdiv", "<<", ">>", "mod", "rem"]),
   (200, .xfx, ["**"]),
   (200, .xfy, ["^"]),
   (200, .fy, ["+", "-", "\\"]),
   (100, .yfx, ["."]),
   (1, .fx, ["$"])]

def standard : OperatorTable :=
  standardOperators.foldl
    (fun table (priority, kind, names) =>
      names.foldl (fun table name => table.add priority kind name) table)
    empty

theorem find?_erase_self (table : OperatorTable) (name : String) (placement : Placement) :
    (table.erase name placement).find? name placement = none := by
  simp only [find?, erase, List.find?_eq_none, List.mem_filter]
  rintro op ⟨-, h⟩ found
  rw [found] at h
  contradiction

/-- What a table finds has the name and the placement that were asked for. -/
theorem find?_eq_some {table : OperatorTable} {name : String} {placement : Placement}
    {op : Operator} (h : table.find? name placement = some op) :
    op.name = name ∧ op.placement = placement := by
  simpa using List.find?_some h

end OperatorTable

end TermMachine
