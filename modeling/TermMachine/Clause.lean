import TermMachine.Clause.Priority
import TermMachine.Term
import TermMachine.Token

/-!
# Clauses

A source is a sequence of clauses, each a term followed by a full stop. A clause is read in two
steps that meet at every bracket: the tokens up to the closing bracket are read as items, and the
items are resolved by priority to the term, the arguments or the list that the brackets stand for.

Clauses are read one by one, so a fault in one leaves the others as they are.
-/

namespace TermMachine

namespace Clause

open Reader

/-- A failure to read a source, in terms of the texts of its characters or tokens. -/
abbrev SyntaxError := Failure String

variable (table : OperatorTable)

/-! ## Operands

Each reader is given the reader `inner` for the items between brackets. -/

def functor : Reader Token Name :=
  item [] fun token span =>
    match token with
    | .functor text => some ⟨text, span⟩
    | _ => none

def compound (inner : Reader Token (List Item)) : Reader Token SourceTerm :=
  (((functor.pair (inner.check (Priority.arguments table)).optional).first
      (exactly .closeRound)).map fun (name, args?) => .compound name (args?.getD [])).labelled
    "structure"

def wholeTerm (inner : Reader Token (List Item)) : Reader Token SourceTerm :=
  inner.check (Priority.resolve table maxPriority)

def parenthesised (inner : Reader Token (List Item)) : Reader Token SourceTerm :=
  between .openRound .closeRound (wholeTerm table inner)

/-- A term in curly brackets. The name of the brackets spans all of it. -/
def curly (inner : Reader Token (List Item)) : Reader Token SourceTerm :=
  (between .openCurly .closeCurly (wholeTerm table inner)).mapSpan fun term span =>
    .compound ⟨curlyName, span⟩ [term]

def list (inner : Reader Token (List Item)) : Reader Token SourceTerm :=
  ((between .openSquare .closeSquare inner).check (Priority.list table)).labelled "list"

def var : Reader Token SourceTerm :=
  (item [] fun token span =>
    match token with
    | .var text => some (.var ⟨text, span⟩)
    | _ => none).labelled "variable"

def number : Reader Token SourceTerm :=
  (item [] fun token _ =>
    match token with
    | .number value => some (.number value)
    | _ => none).labelled "number"

def operand (inner : Reader Token (List Item)) : Reader Token Item :=
  (choice (compound table inner)
    [parenthesised table inner, curly table inner, list table inner, var, number]).mapSpan
      Item.operand

/-! ## Items -/

def name : Reader Token Item :=
  item [] fun token span =>
    match token with
    | .name text => some (.name ⟨text, span⟩)
    | _ => none

def comma : Reader Token Item := (exactly .comma).mapSpan fun _ span => .comma span

def bar : Reader Token Item := (exactly .bar).mapSpan fun _ span => .bar span

/-- Items, one at least, with brackets nested less than `depth` deep. -/
def items : Nat → Reader Token (List Item)
  | 0 => fun input =>
      .failed ⟨input.offset, .point input.offset, .unexpected none, [], none⟩
  | depth + 1 => (choice (operand table (items depth)) [name, comma, bar]).many1

/-! ## Clauses -/

/-- A whole clause. Every bracket is a token, so they cannot nest deeper than there are tokens. -/
def clause : Reader Token SourceTerm := fun input =>
  ((((wholeTerm table (items table (input.items.length + 1))).first
      (exactly .clauseEnd)).first finished).labelled "term") input

/-- Cuts tokens behind every full stop that ends a clause. -/
def splitClauses : List (Token × Span) → List (List (Token × Span))
  | [] => []
  | token :: tokens =>
      if token.1 = .clauseEnd then [token] :: splitClauses tokens
      else
        match splitClauses tokens with
        | [] => [[token]]
        | clause :: clauses => (token :: clause) :: clauses

/-- Reads the tokens of one clause. `finish` is where the source stops, which is where a message
about the end of the clause points to. -/
def ofTokens (finish : Nat) (tokens : List (Token × Span)) : Except SyntaxError SourceTerm :=
  match clause table ⟨tokens, 0, finish⟩ with
  | .ok term _ _ => .ok term
  | .failed e => .error (e.map Token.text)

/-- Reads the clauses of a source. If the source does not even consist of tokens, that is the only
result. -/
def readAll (source : List Char) : List (Except SyntaxError SourceTerm) :=
  match tokenize source with
  | .error e => [.error (e.map String.singleton)]
  | .ok tokens => (splitClauses tokens).map (ofTokens table source.length)

def complaintAtEnd (source : List Char) (complaint : Complaint) : SyntaxError :=
  ⟨source.length, .point source.length, .complaint complaint, [], none⟩

def readOne (source : List Char) : Except SyntaxError SourceTerm :=
  match readAll table source with
  | [] => .error (complaintAtEnd source .expectedTerm)
  | .error e :: _ => .error e
  | [.ok term] => .ok term
  | .ok _ :: .error e :: _ => .error e
  | .ok _ :: .ok second :: _ =>
      .error (complaintAtEnd source (.secondTerm second.plain.render))

end Clause

end TermMachine
