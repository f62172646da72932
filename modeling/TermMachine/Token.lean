import TermMachine.Reader

/-!
# Tokens

The words and marks that a source consists of, once white space and comments are left out. A name
that is directly followed by an opening bracket is a token of its own together with the bracket,
because only there does the bracket hold arguments.

Tokens are read greedily from the characters of a source. White space and comments may stand in
front of and behind every token, and nothing else may. A full stop ends a clause only if white
space, a line comment or the end of the source follows it; otherwise it is a symbol character like
others.
-/

namespace TermMachine

inductive Token where
  | name (text : String)
  /-- A name and the opening bracket that directly follows it. -/
  | functor (text : String)
  | var (text : String)
  | number (value : Numeral)
  | openRound
  | closeRound
  | openSquare
  | closeSquare
  | openCurly
  | closeCurly
  | comma
  | bar
  | clauseEnd
deriving Repr, DecidableEq

namespace Token

def text : Token → String
  | .name text => text
  | .functor text => text ++ "("
  | .var text => text
  | .number value => toString value
  | .openRound => "("
  | .closeRound => ")"
  | .openSquare => "["
  | .closeSquare => "]"
  | .openCurly => "\x7b"
  | .closeCurly => "\x7d"
  | .comma => ","
  | .bar => "|"
  | .clauseEnd => "end of clause"

end Token

/-! ## Reading tokens -/

/-- The characters of a text with their offsets, the first one at `offset`. -/
def locate (offset : Nat) : List Char → List (Char × Span)
  | [] => []
  | c :: cs => (c, ⟨offset, offset + 1⟩) :: locate (offset + 1) cs

@[simp] theorem length_locate (offset : Nat) (cs : List Char) :
    (locate offset cs).length = cs.length := by
  induction cs generalizing offset with
  | nil => rfl
  | cons c cs ih => simp [locate, ih]

def Input.ofChars (cs : List Char) : Input Char := ⟨locate 0 cs, 0, cs.length⟩

namespace Lexer

open Reader

def word (p : Reader Char (List Char)) : Reader Char String := p.map String.ofList

/-- Reads one character of a class and then as many of another as follow. -/
def run (isFirst isLater : Char → Bool) : Reader Char (List Char) :=
  ((satisfying isFirst).pair (satisfying isLater).many).map fun (c, cs) => c :: cs

/-! ## Layout -/

/-- A comment from a percent sign to the end of the line. -/
def lineComment : Reader Char Unit :=
  ((exactly '%').pair (satisfying (· != '\n')).many).map fun _ => ()

/-- A comment from `/*` to the next `*/`. -/
def blockComment : Reader Char Unit :=
  (((exactly '/').pair (exactly '*')).pair (skipTo ((exactly '*').pair (exactly '/')))).map
    fun _ => ()

def blank : Reader Char Unit := (satisfying Text.isBlank).map fun _ => ()

def layout : Reader Char Unit := (choice blank [lineComment, blockComment]).many.map fun _ => ()

/-! ## Tokens -/

/-- The full stop at the end of a clause. It takes the white space character or line comment behind
it along. -/
def clauseEnd : Reader Char Token :=
  (((exactly '.').pair (choice blank [lineComment, finished])).map
    fun _ => Token.clauseEnd).labelled "end of clause"

def digits : Reader Char (List Char) := (satisfying Char.isDigit).many1

def number : Reader Char Token :=
  ((digits.pair ((exactly '.').second digits).optional).check fun (integral, fraction?) span =>
      match Numeral.ofDigits? integral (fraction?.getD []) with
      | some value => .ok (Token.number value)
      | none => .error (span, .invalidNumber)).labelled
    "number"

def var : Reader Char Token :=
  ((word (run (fun c => Text.isUppercase c || c == '_') Text.isWordChar)).map Token.var).labelled
    "variable"

def letterName : Reader Char String := word (run Text.isLowercase Text.isWordChar)

/-- One character of a quoted name: two quotes stand for one, a backslash escapes one of four
characters, and every other character stands for itself. -/
def quotedChar : Reader Char Char :=
  ((((exactly '\'').pair (exactly '\'')).map fun _ => '\'').orElse
    ((exactly '\\').second
      (choice ((exactly 'n').map fun _ => '\n')
        [(exactly 't').map fun _ => '\t', exactly '\\', exactly '\'']))).orElse
    (satisfying fun c => c != '\'' && c != '\\')

def quotedName : Reader Char String := word (between '\'' '\'' quotedChar.many)

def symbolName : Reader Char String := word (satisfying Text.isSymbolChar).many1

/-- A pair of brackets with nothing but layout between them, which is a name. -/
def emptyBrackets (opening closing : Char) (name : String) : Reader Char String :=
  (((exactly opening).pair layout).pair (exactly closing)).map fun _ => name

def soloName : Reader Char String :=
  choice ((exactly '!').map fun _ => "!")
    [(exactly ';').map fun _ => ";",
      emptyBrackets '[' ']' emptyListName,
      emptyBrackets '\x7b' '\x7d' curlyName]

/-- A name, taking along an opening bracket that directly follows. -/
def name : Reader Char Token :=
  (((choice letterName [quotedName, symbolName, soloName]).pair (exactly '(').optional).map
      fun (text, bracket?) => if bracket?.isSome then .functor text else .name text).labelled
    "name"

def punctuation : Reader Char Token :=
  choice ((exactly '(').map fun _ => .openRound)
    [(exactly ')').map fun _ => .closeRound,
      (exactly '[').map fun _ => .openSquare,
      (exactly ']').map fun _ => .closeSquare,
      (exactly '\x7b').map fun _ => .openCurly,
      (exactly '\x7d').map fun _ => .closeCurly,
      (exactly ',').map fun _ => .comma,
      (exactly '|').map fun _ => .bar]

def token : Reader Char (Token × Span) :=
  (choice clauseEnd [number, var, name, punctuation]).mapSpan fun token span => (token, span)

def tokens : Reader Char (List (Token × Span)) :=
  (layout.second (token.first layout).many).first finished

end Lexer

/-- The tokens of a source with the stretches they cover, or the failure that got furthest. -/
def tokenize (source : List Char) : Except (Failure Char) (List (Token × Span)) :=
  match Lexer.tokens (.ofChars source) with
  | .ok tokens _ _ => .ok tokens
  | .failed e => .error e

end TermMachine
