import TermMachine.Clause
import TermMachine.Text.Display

/-!
# Reports

A report shows a failure to read a source: a heading, the place, the line of the source with the
failing stretch in colour, and an arrow from the middle of that stretch to a label below the line. A
failure is reported on the line that its stretch starts on, and the arrow reaches two columns
beyond the stretch.

Reports are laid out by a library, whose code is not part of this project. The frame, the arrow and
the width of tabs are assumed to be as they are here. What could have stood in a place comes without
an order, and is told in that of the code points.
-/

namespace TermMachine

namespace Report

open Text

/-! ## Wording -/

def expectedText : Option String → String
  | some text => text
  | none => "end of input"

/-- What was expected, in the order of the code points. -/
def expectedList (expected : List (Option String)) : String :=
  if expected.isEmpty then "something else"
  else ", ".intercalate ((expected.map expectedText).mergeSort fun a b => !decide (b < a))

def heading (e : Clause.SyntaxError) : String :=
  match e.cause with
  | .complaint complaint => complaint.message
  | .unexpected found =>
      (if found.isSome then "Unexpected token" else "Unexpected end of input")
        ++ (match e.label with
          | some label => " while parsing " ++ label
          | none => "")
        ++ ", expected " ++ expectedList e.expected

def labelText (e : Clause.SyntaxError) : String :=
  match e.cause with
  | .complaint complaint => complaint.message
  | .unexpected (some found) => "Unexpected token " ++ Style.fault.paint found
  | .unexpected none => "Unexpected end of input"

/-! ## Lines -/

/-- A line of a source: its number from 1, the offset of its first character, and its characters,
with the line feed that ends it if there is one. -/
structure Line where
  number : Nat
  start : Nat
  chars : List Char

/-- The line that holds `offset`, counting lines from `number` and offsets from `start`. The end of
the source belongs to the last line. -/
def lineAt (offset number start : Nat) : List (List Char) → Line
  | [] => ⟨number, start, []⟩
  | [line] => ⟨number, start, line⟩
  | line :: lines =>
      if offset < start + line.length then ⟨number, start, line⟩
      else lineAt offset (number + 1) (start + line.length) lines

/-- The number of columns that the character in column `column` is shown in: a tab reaches to the
next multiple of four. -/
def width (column : Nat) (c : Char) : Nat := if c = '\t' then 4 - column % 4 else 1

/-- What a character is shown as, once for every column it takes. -/
def shownChar (c : Char) : Char := if isBlank c then ' ' else c

/-! ## Layout -/

def cell (style : Option Style) (c : Char) : String :=
  match style with
  | some style => style.paint (String.singleton c)
  | none => String.singleton c

/-- The line of the source. Characters of the failing stretch stand out. -/
def sourceRow (line : Line) (span : Span) : String :=
  String.join ((trimEnd line.chars).mapIdx fun column c =>
    let offset := line.start + column
    let style := if span.start ≤ offset && offset < span.stop then Style.fault else Style.source
    String.join (List.replicate (width column c) (cell style (shownChar c))))

/-- A row of marks below the line. Column by column, `mark` gives what stands there first and what
fills the columns that a tab adds. -/
def markRow (line : Line) (columns : Nat) (mark : Nat → String × String) : String :=
  let chars := trimEnd line.chars
  String.join ((List.range columns).map fun column =>
    let extra := match chars[column]? with
      | some c => width column c - 1
      | none => 0
    (mark column).1 ++ String.join (List.replicate extra (mark column).2))

/-- The row that underlines the failing stretch, with the start of the arrow in its middle. An empty
stretch gets the shaft of the arrow only, and the columns that a tab adds to it have its colour. -/
def underlineRow (line : Line) (span : Span) (middle columns : Nat) : String :=
  let inside := fun column => span.start ≤ line.start + column && line.start + column < span.stop
  let bar := cell (some .fault) '─'
  markRow line columns fun column =>
    if column = middle then
      if inside column then (cell (some .fault) '┬', bar)
      else (cell (some .fault) '│', cell (some .fault) ' ')
    else if inside column then (bar, bar)
    else (" ", " ")

def arrowRow (line : Line) (middle columns : Nat) : String :=
  let bar := cell (some .fault) '─'
  markRow line columns fun column =>
    if column < middle then (" ", " ")
    else if column = middle then (cell (some .fault) '╰', bar)
    else (bar, bar)

/-- The whole report. `id` says where the source came from. -/
def render (id : String) (source : List Char) (e : Clause.SyntaxError) : String :=
  let line := lineAt e.span.start 1 0 (splitLines source)
  let number := toString line.number
  let frame := Style.frame.paint
  let blank := fun n => String.ofList (List.replicate n ' ')
  let middle := (e.span.start + e.span.stop) / 2 - line.start
  let columns := e.span.stop - line.start + 2
  let margin := " " ++ frame (blank (number.length + 1) ++ "·") ++ " "
  let place := id ++ ":" ++ number ++ ":" ++ toString (e.span.start - line.start + 1)
  String.join
    [Style.fault.paint "Error:", " ", heading e, "\n",
     blank (number.length + 2), frame "╭", frame "─", frame "[", place, frame "]", "\n",
     blank (number.length + 2), frame "│", "\n",
     " ", frame (number ++ " │"), " ", sourceRow line e.span, "\n",
     margin, underlineRow line e.span middle columns, "\n",
     margin, arrowRow line middle columns, " ", labelText e, "\n",
     frame (String.ofList (List.replicate (number.length + 2) '─') ++ "╯"), "\n"]

end Report

end TermMachine
