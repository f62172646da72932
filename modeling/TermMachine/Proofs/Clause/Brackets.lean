import TermMachine.Proofs.Clause.Acceptance
import TermMachine.Proofs.Lexer.Stretches

/-! # Terms in brackets

A list is written in square brackets, with a bar in front of its end if that is not the empty list.
Curly brackets are a name for the term between them, and round ones are nothing. A `Form` is a term
with some of its parts written so and the others in canonical form, at any depth.

Each pair of brackets is a token in front and one behind, whatever is between them, because no text
of a term starts with layout or with a closing bracket. So what a form is read as comes from what
its parts are read as.

`readOne_form`: under every operator table a form is read as the term it stands for.
-/

namespace TermMachine

/-- A way to write a term. -/
inductive Form where
  | canonical (t : Term)
  | compound (name : String) (args : List Form)
  | list (elements : List Form)
  /-- A list in square brackets that goes on behind a bar. -/
  | listWith (elements : List Form) (tail : Form)
  | curly (inside : Form)
  | round (inside : Form)

namespace Form

/-- Induction on forms, with the hypothesis for everything between brackets. -/
@[elab_as_elim]
theorem induction {motive : Form → Prop}
    (canonical : ∀ t, motive (.canonical t))
    (compound : ∀ name args, (∀ f ∈ args, motive f) → motive (.compound name args))
    (list : ∀ elements, (∀ f ∈ elements, motive f) → motive (.list elements))
    (listWith : ∀ elements tail, (∀ f ∈ elements, motive f) → motive tail →
      motive (.listWith elements tail))
    (curly : ∀ inside, motive inside → motive (.curly inside))
    (round : ∀ inside, motive inside → motive (.round inside)) :
    ∀ f, motive f
  | .canonical t => canonical t
  | .compound name args => compound name args fun f mem =>
      have : sizeOf f < sizeOf args := List.sizeOf_lt_of_mem mem
      induction canonical compound list listWith curly round f
  | .list elements => list elements fun f mem =>
      have : sizeOf f < sizeOf elements := List.sizeOf_lt_of_mem mem
      induction canonical compound list listWith curly round f
  | .listWith elements tail => listWith elements tail
      (fun f mem =>
        have : sizeOf f < sizeOf elements := List.sizeOf_lt_of_mem mem
        induction canonical compound list listWith curly round f)
      (induction canonical compound list listWith curly round tail)
  | .curly inside => curly inside (induction canonical compound list listWith curly round inside)
  | .round inside => round inside (induction canonical compound list listWith curly round inside)

mutual

def text : Form → List Char
  | .canonical t => TermOf.text t
  | .compound name args => Text.nameText name.toList ++ '(' :: argumentsText args ++ [')']
  | .list elements => '[' :: argumentsText elements ++ [']']
  | .listWith elements tail =>
      '[' :: argumentsText elements ++ ' ' :: '|' :: ' ' :: tail.text ++ [']']
  | .curly inside => '\x7b' :: inside.text ++ ['\x7d']
  | .round inside => '(' :: inside.text ++ [')']

def argumentsText : List Form → List Char
  | [] => []
  | f :: fs => f.text ++ moreArgumentsText fs

def moreArgumentsText : List Form → List Char
  | [] => []
  | f :: fs => ',' :: ' ' :: f.text ++ moreArgumentsText fs

end

mutual

def term : Form → Term
  | .canonical t => t
  | .compound name args => .compound name (terms args)
  | .list elements => (terms elements).foldr Term.cons (.atom emptyListName)
  | .listWith elements tail => (terms elements).foldr Term.cons tail.term
  | .curly inside => .compound curlyName [inside.term]
  | .round inside => inside.term

def terms : List Form → List Term
  | [] => []
  | f :: fs => f.term :: terms fs

end

/-- The canonical parts are such as are read back, no name looks like a comment, and something is
between square brackets. -/
inductive Legible : Form → Prop
  | canonical {t : Term} (legible : t.Legible) : Legible (.canonical t)
  | compound {name : String} {args : List Form} (bare : Text.opensComment name.toList = false)
      (inside : ∀ f ∈ args, Legible f) : Legible (.compound name args)
  | list {elements : List Form} (nonempty : elements ≠ []) (inside : ∀ f ∈ elements, Legible f) :
      Legible (.list elements)
  | listWith {elements : List Form} {tail : Form} (nonempty : elements ≠ [])
      (inside : ∀ f ∈ elements, Legible f) (behind : Legible tail) :
      Legible (.listWith elements tail)
  | curly {inside : Form} (legible : Legible inside) : Legible (.curly inside)
  | round {inside : Form} (legible : Legible inside) : Legible (.round inside)

end Form

/-! ## In front of a form -/

namespace Lexer

open Reader

variable {cs ds : List Char} {rest : List (Char × Span)} {span : Span}

/-- The text starts with neither layout nor a closing bracket that could make a name of an opening
one. -/
structure Fronts (cs : List Char) : Prop where
  solid : ∀ offset more, Stops (· == '*') more → Solid (locate offset cs ++ more)
  starts : ∃ c ds, cs = c :: ds ∧ c ≠ ']' ∧ c ≠ '\x7d'

theorem Fronts.append (fronts : Fronts cs) {d : Char} (star : (d == '*') = false) :
    Fronts (cs ++ d :: ds) := by
  obtain ⟨c, cs', text, notClosing⟩ := fronts.starts
  refine ⟨fun offset more _ => ?_, c, cs' ++ d :: ds, by rw [text]; rfl, notClosing⟩
  rw [locate_append, List.append_assoc]
  exact fronts.solid _ _ (stops_cons star)

theorem Fronts.stops (fronts : Fronts cs) (offset : Nat) (more : List (Char × Span)) :
    Stops (· == ']') (locate offset cs ++ more) ∧
      Stops (· == '\x7d') (locate offset cs ++ more) := by
  obtain ⟨c, cs', rfl, square, curly⟩ := fronts.starts
  exact ⟨stops_cons (beq_eq_false_iff_ne.mpr square), stops_cons (beq_eq_false_iff_ne.mpr curly)⟩

theorem fronts_nameText {name : List Char} (bare : Text.opensComment name = false) :
    Fronts (Text.nameText name) := by
  obtain ⟨c, cs, text, starts⟩ := Text.nameText_starts name
  obtain ⟨_, _, _, _, _, notClosing⟩ := Text.startsName_iff.mp starts
  exact ⟨fun _ _ => solid_nameText bare, c, cs, text, notClosing⟩

theorem fronts_text {t : Term} (legible : t.Legible) : Fronts (TermOf.text t) := by
  refine ⟨fun _ _ => solid_text legible, ?_⟩
  cases legible with
  | atom bare => exact (fronts_nameText bare).starts
  | @number n written =>
      rw [TermOf.text, Numeral.text_eq_pointed]
      split
      · exact ⟨_, _, rfl, by decide⟩
      · obtain ⟨d, ds, text, digit⟩ :=
          Numeral.pointed_starts n.fraction n.whole_ne_nil n.all_whole
        exact ⟨d, ds, text, Text.ne_of_class digit (by decide), Text.ne_of_class digit (by decide)⟩
  | @var name c cs text first all =>
      refine ⟨c, cs, text, ?_⟩
      rw [Bool.or_eq_true, beq_iff_eq] at first
      rcases first with upper | rfl
      · exact ⟨Text.ne_of_class upper (by decide), Text.ne_of_class upper (by decide)⟩
      · decide
  | compound bare inside =>
      rw [TermOf.text, List.append_assoc]
      exact ((fronts_nameText bare).append (by decide)).starts

/-- An opening bracket is in front of everything else in its text. -/
theorem fronts_bracket {c : Char} (bracket : c ∈ ['(', '[', '\x7b']) : Fronts (c :: cs) := by
  simp only [List.mem_cons, List.not_mem_nil, or_false] at bracket
  rcases bracket with rfl | rfl | rfl <;>
    exact ⟨fun _ _ _ => solid_of_not_slash (by decide) (by decide) (by decide), _, _, rfl,
      by decide⟩

theorem fronts_form {f : Form} (legible : f.Legible) : Fronts f.text := by
  cases legible with
  | canonical legible => exact fronts_text legible
  | compound bare inside =>
      rw [Form.text, List.append_assoc]
      exact (fronts_nameText bare).append (by decide)
  | list nonempty inside => exact fronts_bracket (by decide)
  | listWith nonempty inside behind => exact fronts_bracket (by decide)
  | curly legible => exact fronts_bracket (by decide)
  | round legible => exact fronts_bracket (by decide)

theorem fronts_arguments {f : Form} (legible : f.Legible) (fs : List Form) :
    Fronts (Form.argumentsText (f :: fs)) := by
  cases fs with
  | nil =>
      rw [Form.argumentsText, Form.moreArgumentsText, List.append_nil]
      exact fronts_form legible
  | cons g fs => exact (fronts_form legible).append (by decide)

/-! ## Opening brackets -/

theorem rejects_emptyBrackets {opening closing : Char} (n : String) (solid : Solid rest)
    (stops : Stops (· == closing) rest) :
    (emptyBrackets opening closing n).Rejects ((opening, span) :: rest) := by
  have opened : ((exactly opening).pair layout).Reads [(opening, span)] rest (opening, ()) :=
    reads_exactly.pair (reads_layout_nil solid)
  exact (opened.rejects_pair stops.rejects_exactly).map _

/-- A square or curly bracket is a name only together with the closing one. -/
theorem reads_bracket {pair : Char × Char} {value : Token} (mem : pair ∈ pairs) (offset : Nat)
    (reads : punctuation.Reads (locate offset [pair.1]) rest value) (solid : Solid rest)
    (stops : Stops (· == pair.2) rest) :
    token.Reads (locate offset [pair.1]) rest (value, ⟨offset, offset + 1⟩) := by
  apply reads_token (List.cons_ne_nil pair.1 [])
  intro stop finish
  exact (result?_lexeme_bracket mem fun text =>
    rejects_emptyBrackets text solid stops stop finish).trans (reads stop finish)

end Lexer

namespace Item

/-! ## What items between brackets mean -/

theorem Sequence.barless {items : List Item} {ts : List Term} (sequence : Sequence items ts) :
    ∀ item ∈ items, item.isBar = false := by
  have single {items : List Item} {t : Term} (single : Single items t) :
      ∀ item ∈ items, item.isBar = false := by
    cases single <;> simp [isBar]
  induction sequence with
  | last here => exact single here
  | more here sequence ih =>
      exact List.forall_mem_append.mpr ⟨single here, List.forall_mem_cons.mpr ⟨rfl, ih⟩⟩

end Item

namespace Clause

open Lexer Reader

variable {table : OperatorTable} {means means' : List Item → Prop} {tokens : List (Token × Span)}
  {cs ds : List Char} {items front back : List Item} {t tail : Term} {ts : List Term}

theorem plain_listOf (args : List SourceTerm) (tail : SourceTerm) :
    (listOf args tail).plain = (args.map SourceTerm.plain).foldr Term.cons tail.plain := by
  induction args with
  | nil => rfl
  | cons arg args ih =>
      rw [listOf, List.foldr_cons, plain_compound, List.map_cons, List.map_singleton]
      exact congrArg _ (congrArg _ (congrArg (· :: []) ih))

/-- The brackets make the term of the items between them, wherever they stand. -/
def MakesTerm (table : OperatorTable) (bracket : Bracket) (items : List Item) (t : Term) : Prop :=
  ∀ opening inside closing, ∃ s : SourceTerm, s.plain = t ∧
    bracket.Makes table opening inside closing items s

theorem makes_functor (sequence : Item.Sequence items ts) (name : String) :
    MakesTerm table (.functor name) items (.compound name ts) := by
  intro opening inside closing
  obtain ⟨args, rfl, resolved⟩ := sequence.arguments
  exact ⟨_, plain_compound _ args, .functor (areArguments_of_arguments (resolved table inside))⟩

theorem makes_round (single : Item.Single items t) : MakesTerm table .round items t := by
  intro opening inside closing
  obtain ⟨s, plain, resolved⟩ := single.resolve
  exact ⟨s, plain, .round (resolved table maxPriority inside)⟩

theorem makes_curly (single : Item.Single items t) :
    MakesTerm table .curly items (.compound curlyName [t]) := by
  intro opening inside closing
  obtain ⟨s, rfl, resolved⟩ := single.resolve
  exact ⟨_, plain_compound _ [s], .curly (resolved table maxPriority inside)⟩

theorem makes_closed (sequence : Item.Sequence items ts) :
    MakesTerm table .square items (ts.foldr Term.cons (.atom emptyListName)) := by
  intro opening inside closing
  obtain ⟨args, rfl, resolved⟩ := sequence.arguments
  exact ⟨_, plain_listOf args _,
    .square (.closed sequence.barless (areArguments_of_arguments (resolved table _)))⟩

theorem makes_barred (sequence : Item.Sequence front ts) (single : Item.Single back tail)
    (bar : Span) :
    MakesTerm table .square (front ++ .bar bar :: back) (ts.foldr Term.cons tail) := by
  intro opening inside closing
  obtain ⟨args, rfl, resolved⟩ := sequence.arguments
  obtain ⟨s, rfl, resolved'⟩ := single.resolve
  exact ⟨_, plain_listOf args s, .square (.barred sequence.barless
    (areArguments_of_arguments (resolved table _)) (resolved' table argumentPriority _))⟩

/-! ## What is between brackets, and the brackets -/

theorem ReadAs.bracketed {bracket : Bracket} {opening closing : Span}
    (inside : ReadAs table means tokens)
    (makes : ∀ items, means items → MakesTerm table bracket items t) :
    ReadAs table (Item.Sequence · [t])
      ((bracket.opening, opening) :: (tokens ++ [(bracket.closing, closing)])) := by
  refine .single (List.cons_ne_nil _ _) ?_ fun depth rest deep => ?_
  · refine List.forall_mem_cons.mpr ⟨?_, List.forall_mem_append.mpr ⟨inside.whole, ?_⟩⟩
    · exact fun same => bracket.not_closes (.inr (.inr (.inr same)))
    · cases bracket <;> simp [Bracket.closing]
  rw [List.length_cons, List.length_append, List.length_singleton] at deep
  obtain ⟨depth, rfl⟩ : ∃ less, depth = less + 1 := ⟨depth - 1, by omega⟩
  obtain ⟨its, here, repeats⟩ := inside.items depth ((bracket.closing, closing) :: rest) (by omega)
  obtain ⟨s, plain, made⟩ := makes its here opening (stretch tokens) closing
  have some : its ≠ [] := repeats.ne_nil inside.nonempty
  exact ⟨_, .last (.operand plain), reads_bracketed inside.nonempty
    (reads_items some repeats (rejects_closing bracket closing)) made⟩

def Bracket.openingText : Bracket → List Char
  | .functor name => Text.nameText name.toList ++ ['(']
  | .round => ['(']
  | .curly => ['\x7b']
  | .square => ['[']

def Bracket.closingChar : Bracket → Char
  | .functor _ | .round => ')'
  | .curly => '\x7d'
  | .square => ']'

theorem Bracket.openingText_ne_nil (bracket : Bracket) : bracket.openingText ≠ [] := by
  cases bracket with
  | functor name => exact List.append_ne_nil_of_right_ne_nil _ (List.cons_ne_nil _ _)
  | round | curly | square => exact List.cons_ne_nil _ _

theorem mark_closing (bracket : Bracket) : Mark bracket.closingChar bracket.closing := by
  cases bracket <;> exact fun _ _ _ _ => rfl

theorem Bracket.closingChar_mem (bracket : Bracket) :
    bracket.closingChar ∈ [',', ')', ']', '\x7d'] := by
  cases bracket <;> simp [Bracket.closingChar]

/-- The opening bracket is a token in front of anything that does not begin with layout or with a
closing bracket. -/
theorem reads_opening (bracket : Bracket) (offset : Nat) {rest : List (Char × Span)}
    (solid : Solid rest) (stops : Stops (· == ']') rest ∧ Stops (· == '\x7d') rest) :
    token.Reads (locate offset bracket.openingText) rest
      (bracket.opening, ⟨offset, offset + bracket.openingText.length⟩) := by
  cases bracket with
  | functor name => exact reads_functor offset name rest
  | round => exact fun _ _ => rfl
  | curly =>
      have mem : ('\x7b', '\x7d') ∈ pairs := by decide
      exact reads_bracket mem offset (fun _ _ => rfl) solid stops.2
  | square =>
      have mem : ('[', ']') ∈ pairs := by decide
      exact reads_bracket mem offset (fun _ _ => rfl) solid stops.1

theorem tells_bracketed (bracket : Bracket) (inside : Tells (ReadAs table means) cs)
    (fronts : Fronts cs) (makes : ∀ items, means items → MakesTerm table bracket items t) :
    Tells (ReadAs table (Item.Sequence · [t]))
      (bracket.openingText ++ (cs ++ [bracket.closingChar])) := by
  have star : (bracket.closingChar == '*') = false := by cases bracket <;> rfl
  have front (offset : Nat) (rest : List (Char × Span)) :
      Solid (locate offset (cs ++ [bracket.closingChar]) ++ rest) := by
    rw [locate_append, List.append_assoc]
    exact fronts.solid _ _ (stops_cons star)
  have opens (offset : Nat) (rest : List (Char × Span)) :=
    reads_opening bracket offset (front (offset + bracket.openingText.length) rest)
      ((fronts.append star).stops _ rest)
  apply (Tells.bracketed bracket.openingText_ne_nil (mark_closing bracket) bracket.closingChar_mem
    front opens fun offset _ => inside.tight offset).imp
  rintro _ ⟨first, inner, last, rfl, readAs⟩
  exact readAs.bracketed makes

/-- A comma or a bar between what is read, with a space in front of it perhaps. -/
theorem tells_joined (leaf : Leaf) {c : Char} (before : List Char)
    (first : Tells (ReadAs table means) cs) (second : Tells (ReadAs table means') ds)
    (fronts : Fronts ds) (mark : Mark c leaf.token)
    (closed : ∀ offset more, Closed (locate offset (before ++ [c]) ++ more))
    (skips : ∀ offset span more, layout.Reads (locate offset before) ((c, span) :: more) ()) :
    Tells (ReadAs table fun its => ∃ front span back, its = front ++ leaf.item span :: back ∧
      means front ∧ means' back) (cs ++ (before ++ ([c, ' '] ++ ds))) := by
  apply (first.joined before second mark closed skips fun offset rest closed =>
    fronts.solid _ _ (closed.toEnds.exactly (by decide))).imp
  rintro _ ⟨front, span, back, rfl, readAs, readAs'⟩
  have notEnd : leaf.token ≠ .clauseEnd := by cases leaf <;> exact Token.noConfusion
  exact readAs.joined readAs' notEnd (fun _ span _ => reads_leaf leaf span) span

theorem mark_bar : Mark '|' Token.bar := fun _ _ _ _ => rfl

/-- The bar of a list stands behind a space. -/
theorem behind_space (offset : Nat) (more : List (Char × Span)) :
    Closed (locate offset ([' '] ++ ['|']) ++ more) :=
  closed_cons (by decide) (by decide) (by decide) (by decide)

theorem reads_space (offset : Nat) (span : Span) (more : List (Char × Span)) :
    layout.Reads (locate offset [' ']) (('|', span) :: more) () :=
  reads_layout_space (solid_of_not_slash (by decide) (by decide) (by decide))

/-! ## Forms -/

/-- Under the operator table the text of the form is read as its term. -/
def Form.Told (table : OperatorTable) (f : Form) : Prop :=
  Tells (ReadAs table (Item.Sequence · [f.term])) f.text

theorem tells_arguments {f : Form} {fs : List Form} (told : ∀ g ∈ f :: fs, Form.Told table g)
    (legible : ∀ g ∈ fs, g.Legible) :
    Tells (ReadAs table (Item.Sequence · (Form.terms (f :: fs))))
      (Form.argumentsText (f :: fs)) := by
  induction fs generalizing f with
  | nil =>
      rw [Form.argumentsText, Form.moreArgumentsText, List.append_nil]
      exact told f List.mem_cons_self
  | cons g fs ih =>
      have others := ih (fun h mem => told h (List.mem_cons_of_mem f mem))
        fun h mem => legible h (List.mem_cons_of_mem g mem)
      have front := fronts_arguments (legible g List.mem_cons_self) fs
      have both := tells_joined .comma [] (told f List.mem_cons_self) others
        front mark_comma (fun _ _ => (behind_mark (by decide) _ _).1)
        (fun _ _ _ => reads_layout_nil (behind_mark (by decide) _ _).2)
      apply both.imp
      rintro _ readAs
      apply readAs.imp
      rintro _ ⟨front, span, back, rfl, sequence, sequence'⟩
      exact .more sequence.single sequence'

theorem told_of_legible (table : OperatorTable) {f : Form} (legible : f.Legible) :
    Form.Told table f := by
  induction f using Form.induction with
  | canonical t =>
      cases legible with
      | canonical legible => exact (lexed_of_legible legible).imp fun _ => readAs_of_spells table
  | compound name args ih =>
      cases legible with
      | compound bare inside =>
          cases args with
          | nil =>
              have legible : Term.Legible (.compound name []) := .compound bare nofun
              exact (lexed_of_legible legible).imp fun _ => readAs_of_spells table
          | cons f fs =>
              obtain ⟨first, others⟩ := List.forall_mem_cons.mp inside
              have args := tells_arguments (fun g mem => ih g mem (inside g mem)) others
              have whole := tells_bracketed (.functor name) args (fronts_arguments first fs)
                fun _ sequence => makes_functor sequence name
              rw [Bracket.openingText, List.append_assoc] at whole
              rw [Form.Told, Form.text, List.append_assoc]
              exact whole
  | list elements ih =>
      cases legible with
      | list nonempty inside =>
          obtain ⟨f, fs, rfl⟩ := List.exists_cons_of_ne_nil nonempty
          obtain ⟨first, others⟩ := List.forall_mem_cons.mp inside
          have elements := tells_arguments (fun g mem => ih g mem (inside g mem)) others
          exact tells_bracketed .square elements (fronts_arguments first fs)
            fun _ sequence => makes_closed sequence
  | listWith elements tail ih ih' =>
      cases legible with
      | listWith nonempty inside behind =>
          obtain ⟨f, fs, rfl⟩ := List.exists_cons_of_ne_nil nonempty
          obtain ⟨first, others⟩ := List.forall_mem_cons.mp inside
          have elements := tells_arguments (fun g mem => ih g mem (inside g mem)) others
          have parts := tells_joined .bar [' '] elements (ih' behind) (fronts_form behind)
            mark_bar behind_space reads_space
          refine tells_bracketed .square parts ((fronts_arguments first fs).append (by decide)) ?_
          rintro _ ⟨front, bar, back, rfl, sequence, sequence'⟩
          exact makes_barred sequence sequence'.single bar
  | curly inside ih =>
      cases legible with
      | curly legible =>
          exact tells_bracketed .curly (ih legible) (fronts_form legible)
            fun _ sequence => makes_curly sequence.single
  | round inside ih =>
      cases legible with
      | round legible =>
          exact tells_bracketed .round (ih legible) (fronts_form legible)
            fun _ sequence => makes_round sequence.single

/-- Whatever operators there are, a form with a full stop behind it is read as its term. -/
theorem readOne_form (table : OperatorTable) (f : Form) (legible : f.Legible) :
    ∃ s : SourceTerm, readOne table (f.text ++ [' ', '.']) = .ok s ∧ s.plain = f.term := by
  obtain ⟨tokens, span, readAs, tokenized⟩ :=
    (told_of_legible table legible).tokenize_clause fun more => (fronts_form legible).solid 0 more
  exact readOne_of_readAs tokenized readAs

/-- A list with a negative number and curly brackets in it, another list behind its bar, and an
operator in brackets of no meaning, as arguments of a canonical application. -/
theorem readOne_form_nested :
    let list : Form := .listWith [.canonical (.number ⟨-1, 0⟩), .curly (.canonical (.var "X"))]
      (.list [.canonical (.atom "a b")])
    let f : Form := .compound "f" [list, .round (.canonical (.compound "-" [.atom "b"]))]
    f.Legible ∧ String.ofList f.text = "f([-1, \x7bX\x7d | ['a b']], (-(b)))" ∧
      f.term = .compound "f" [
        Term.cons (.number ⟨-1, 0⟩) (Term.cons (.compound "\x7b\x7d" [.var "X"])
          (Term.cons (.atom "a b") (.atom "[]"))),
        .compound "-" [.atom "b"]] ∧
      ∃ s : SourceTerm, readOne .standard (f.text ++ [' ', '.']) = .ok s ∧ s.plain = f.term := by
  intro list f
  have number : Term.Legible (.number ⟨-1, 0⟩) :=
    .number ⟨['1'], [], ⟨1, 0⟩, by decide, by decide, by decide, .inr rfl⟩
  have var : Term.Legible (.var "X") := .var (by decide : _ = ['X']) (by decide) (by decide)
  have minus : Term.Legible (.compound "-" [.atom "b"]) := by
    refine .compound (by decide) ?_
    simpa using Term.Legible.atom (by decide)
  have legible : f.Legible := by
    apply Form.Legible.compound (by decide)
    simp only [List.mem_cons, List.not_mem_nil, or_false, forall_eq_or_imp, forall_eq]
    refine ⟨.listWith (List.cons_ne_nil _ _) ?_ (.list (List.cons_ne_nil _ _) ?_),
      .round (.canonical minus)⟩
    · simpa using ⟨.canonical number, .curly (.canonical var)⟩
    · simpa using Form.Legible.canonical (.atom (by decide))
  exact ⟨legible, by decide, rfl, readOne_form .standard f legible⟩

end Clause

end TermMachine
