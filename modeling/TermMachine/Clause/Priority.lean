import TermMachine.Collect
import TermMachine.Operator
import TermMachine.Reader

/-!
# Terms from items

A clause is first read as a flat sequence of items: operands, names that may turn out to be
operators or atoms, commas and bars. What is in brackets has been read already and is part of an
operand.

A flat sequence of items is one term under an operator table. The sequence is read from the left
and nothing is taken back: a name in front of an operand is an operator if it can be one there, and
after an operand the first operator that fits is taken, between operands before behind one. An
operator fits if its priority is at most the limit of its place and the term on its left binds
tightly enough for it.

`resolve` is the entry. The workers below it carry a count that falls with every call; a call of
`expression` on `n` items needs `2 * n + 2`, because two calls in a row always take an item.
-/

namespace TermMachine

inductive Item where
  | operand (term : SourceTerm) (span : Span)
  | name (name : Name)
  | comma (span : Span)
  | bar (span : Span)

namespace Item

def span : Item → Span
  | .operand _ span => span
  | .name n => n.span
  | .comma span => span
  | .bar span => span

/-- The operator that the item can be. Commas and bars are written like names between operands. -/
def operatorName? : Item → Option Name
  | .operand _ _ => none
  | .name n => some n
  | .comma span => some ⟨",", span⟩
  | .bar span => some ⟨"|", span⟩

def isBar : Item → Bool
  | .bar _ => true
  | _ => false

/-- Cuts a sequence at its commas. There is one part more than there are commas. -/
def splitCommas : List Item → List (List Item)
  | [] => [[]]
  | .comma _ :: items => [] :: splitCommas items
  | item :: items =>
      match splitCommas items with
      | [] => [[item]]
      | part :: parts => (item :: part) :: parts

theorem splitCommas_ne_nil (items : List Item) : splitCommas items ≠ [] := by
  fun_cases splitCommas items <;> simp_all

end Item

namespace Priority

/-- Where a sequence is no term, and why. -/
abbrev Fault := Span × Complaint

/-- A term, its priority, and the items behind it. -/
abbrev Progress := SourceTerm × Nat × List Item

/-- An operand can start here: an operand does, or a name that is an operator in front of operands,
or one that is no operator at all. -/
def startsTerm (table : OperatorTable) : List Item → Bool
  | .operand _ _ :: _ => true
  | .name name :: _ => (table.before? name.text).isSome || !table.isOperator name.text
  | _ => false

/-- The number that a minus sign directly in front of its digits makes negative. -/
def negatedNumber? (name : Name) : List Item → Option (Numeral × List Item)
  | .operand (.number value) span :: items =>
      if name.text == "-" && span.start == name.span.stop then some (value.negate, items) else none
  | _ => none

/-- The operator, if its place lets it stand behind a term of priority `leftPriority`. -/
def fitting (op? : Option Operator) (limit leftPriority : Nat) : Option Operator :=
  op?.filter fun op => op.priority ≤ limit && leftPriority ≤ op.left

mutual

/-- Reads what an expression starts with: an operand, an atom, a negative number, or an operator and
the operand behind it. `stop` is where the sequence stops in the source. -/
def primary (table : OperatorTable) (stop : Nat) :
    Nat → Nat → List Item → Except Fault Progress
  | 0, _, _ => .error (.point stop, .expectedTerm)
  | fuel + 1, limit, items =>
      match items with
      | [] => .error (.point stop, .expectedTerm)
      | .operand term _ :: rest => .ok (term, 0, rest)
      | .comma span :: _ => .error (span, .expectedTerm)
      | .bar span :: _ => .error (span, .expectedTerm)
      | .name name :: rest =>
          match negatedNumber? name rest with
          | some (value, rest) => .ok (.number value, 0, rest)
          | none =>
              match (table.before? name.text).filter fun op =>
                  op.priority ≤ limit && startsTerm table rest with
              | some op =>
                  match expression table stop fuel op.right rest with
                  | .ok (term, _, rest) => .ok (.compound name [term], op.priority, rest)
                  | .error e => .error e
              | none => .ok (.atom name, 0, rest)

def expression (table : OperatorTable) (stop : Nat) :
    Nat → Nat → List Item → Except Fault Progress
  | 0, _, _ => .error (.point stop, .expectedTerm)
  | fuel + 1, limit, items =>
      match primary table stop fuel limit items with
      | .ok (left, leftPriority, rest) => extend table stop fuel limit left leftPriority rest
      | .error e => .error e

/-- Goes on with the operators behind a term for as long as they fit. -/
def extend (table : OperatorTable) (stop : Nat) :
    Nat → Nat → SourceTerm → Nat → List Item → Except Fault Progress
  | 0, _, _, _, _ => .error (.point stop, .expectedTerm)
  | _ + 1, _, left, leftPriority, [] => .ok (left, leftPriority, [])
  | fuel + 1, limit, left, leftPriority, item :: rest =>
      match item.operatorName? with
      | none => .error (item.span, .expectedOperator)
      | some name =>
          match fitting (table.between? name.text) limit leftPriority with
          | some op =>
              match expression table stop fuel op.right rest with
              | .ok (right, _, rest) =>
                  extend table stop fuel limit (.compound name [left, right]) op.priority rest
              | .error e => .error e
          | none =>
              match fitting (table.after? name.text) limit leftPriority with
              | some op => extend table stop fuel limit (.compound name [left]) op.priority rest
              | none => .ok (left, leftPriority, item :: rest)

end

/-- The term of priority `limit` at most that the items are, all of them together. -/
def resolve (table : OperatorTable) (limit : Nat) (items : List Item) (span : Span) :
    Except Fault SourceTerm :=
  match expression table span.stop (2 * items.length + 2) limit items with
  | .ok (term, _, []) => .ok term
  | .ok (_, _, item :: _) => .error (item.span, .priorityClash)
  | .error e => .error e

def arguments (table : OperatorTable) (items : List Item) (span : Span) :
    Except Fault (List SourceTerm) :=
  collect (fun part => resolve table argumentPriority part span) (Item.splitCommas items)

/-- The end of a list: what follows the first bar, or the empty list directly behind the closing
bracket. -/
def listTail (table : OperatorTable) (items : List Item) (span : Span) : Except Fault SourceTerm :=
  match items.dropWhile fun item => !item.isBar with
  | [] => .ok (.atom ⟨emptyListName, .point span.stop⟩)
  | _ :: items => resolve table argumentPriority items span

def list (table : OperatorTable) (items : List Item) (span : Span) : Except Fault SourceTerm :=
  match listTail table items span with
  | .error e => .error e
  | .ok tail =>
      match arguments table (items.takeWhile fun item => !item.isBar) span with
      | .error e => .error e
      | .ok elements =>
          .ok (elements.foldr
            (fun head tail => .compound (Name.unplaced listCellName) [head, tail]) tail)

end Priority

end TermMachine
