import TermMachine.Proofs.Lexer
import TermMachine.Term

/-! # The tokens of canonical texts

`Spells ts tokens`: the tokens are those of the terms, with commas between them. The lexer reads the
canonical text of a term as tokens that spell it, if the names in it are such as the lexer gives out
and no name looks like a comment, `Term.Legible`.

`Tells kind cs`: wherever the text `cs` stands, it is read as tokens of the kind. Texts with a mark
between them or with brackets around them tell what the parts tell.
-/

namespace TermMachine

/-- The names of variables are variables and the numbers are made of digits, as far as reading goes,
and no name of symbol characters starts a comment. -/
inductive Term.Legible : Term → Prop
  | atom {name : String} (bare : Text.opensComment name.toList = false) : Legible (.atom name)
  | number {value : Numeral} (written : value.Written) : Legible (.number value)
  | var {name : String} {c : Char} {cs : List Char} (text : name.toList = c :: cs)
      (first : (Text.isUppercase c || c == '_') = true) (all : cs.all Text.isWordChar = true) :
      Legible (.var name)
  | compound {name : String} {args : List Term} (bare : Text.opensComment name.toList = false)
      (inside : ∀ t ∈ args, Legible t) : Legible (.compound name args)

/-- The tokens are those of the terms in canonical form, with commas between them. -/
inductive Spells : List Term → List (Token × Span) → Prop
  | atom {name : String} {span : Span} : Spells [.atom name] [(.name name, span)]
  | var {name : String} {span : Span} : Spells [.var name] [(.var name, span)]
  | number {value : Numeral} {span : Span} : Spells [.number value] [(.number value, span)]
  /-- A negative number is a minus sign with the number directly behind it. -/
  | negative {value : Numeral} {minus digits : Span} (adjacent : digits.start = minus.stop) :
      Spells [.number value.negate] [(.name "-", minus), (.number value, digits)]
  | constant {name : String} {opening closing : Span} :
      Spells [.compound name []] [(.functor name, opening), (.closeRound, closing)]
  | compound {name : String} {args : List Term} {inner : List (Token × Span)}
      {opening closing : Span} (inside : Spells args inner) :
      Spells [.compound name args] ((.functor name, opening) :: inner ++ [(.closeRound, closing)])
  | more {t : Term} {ts : List Term} {first others : List (Token × Span)} {comma : Span}
      (spells : Spells [t] first) (spells' : Spells ts others) :
      Spells (t :: ts) (first ++ (.comma, comma) :: others)

namespace Lexer

open Reader

variable {offset : Nat} {rest more : List (Char × Span)} {cs ds gap : List Char}
  {tokens tokens' : List (Token × Span)}

/-- The characters are read as tokens with the layout behind each of them. -/
def Lexes (offset : Nat) (cs : List Char) (rest : List (Char × Span))
    (tokens : List (Token × Span)) : Prop :=
  Repeats (token.first layout) rest (locate offset cs) tokens

theorem Lexes.append_at {middle : Nat} (here : offset + cs.length = middle)
    (first : Lexes offset cs (locate middle ds ++ rest) tokens)
    (second : Lexes middle ds rest tokens') : Lexes offset (cs ++ ds) rest (tokens ++ tokens') := by
  subst here
  unfold Lexes
  rw [locate_append]
  exact Repeats.append first second

theorem Lexes.append (first : Lexes offset cs (locate (offset + cs.length) ds ++ rest) tokens)
    (second : Lexes (offset + cs.length) ds rest tokens') :
    Lexes offset (cs ++ ds) rest (tokens ++ tokens') :=
  first.append_at rfl second

/-- A token is read together with the layout behind it. -/
theorem lexes_token {value : Token × Span} (nonempty : cs ≠ [])
    (reads : token.Reads (locate offset cs) (locate (offset + cs.length) gap ++ rest) value)
    (skips : layout.Reads (locate (offset + cs.length) gap) rest ()) :
    Lexes offset (cs ++ gap) rest [value] := by
  unfold Lexes
  rw [locate_append]
  apply Repeats.single
  · exact List.append_ne_nil_of_left_ne_nil (locate_ne_nil nonempty) _
  · exact reads.first skips

theorem lexes_solid {value : Token × Span} (nonempty : cs ≠ [])
    (reads : token.Reads (locate offset cs) rest value) (solid : Solid rest) :
    Lexes offset cs rest [value] := by
  rw [← List.append_nil cs]
  exact lexes_token nonempty reads (reads_layout_nil solid)

/-! ## In front of a term -/

theorem solid_nameText {name : List Char} (bare : Text.opensComment name = false)
    (stops : Stops (· == '*') more) : Solid (locate offset (Text.nameText name) ++ more) := by
  obtain ⟨c, cs, text, starts⟩ := Text.nameText_starts name
  obtain ⟨_, _, blank', _, percent, _⟩ := Text.startsName_iff.mp starts
  rw [text]
  by_cases slash : c = '/'
  · subst slash
    obtain ⟨rfl, symbolic, _⟩ := Text.of_nameText_eq_cons text (by decide)
    apply solid_of_slash
    cases cs with
    | nil => exact stops
    | cons d ds =>
        apply stops_cons
        apply beq_eq_false_iff_ne.mpr
        rintro rfl
        rw [Text.opensComment, List.all_cons, symbolic] at bare
        cases bare
  · exact solid_of_not_slash blank' percent slash

theorem solid_digit {d : Char} (digit : d.isDigit = true) :
    Solid (locate offset (d :: ds) ++ more) :=
  solid_of_not_slash (Text.isBlank_of_isDigit digit) (Text.ne_of_class digit (by decide))
    (Text.ne_of_class digit (by decide))

theorem solid_var {c : Char} (first : (Text.isUppercase c || c == '_') = true) :
    Solid (locate offset (c :: cs) ++ more) := by
  rw [Bool.or_eq_true, beq_iff_eq] at first
  rcases first with upper | rfl
  · exact solid_of_not_slash (Text.isBlank_of_isUppercase upper)
      (Text.ne_of_class upper (by decide)) (Text.ne_of_class upper (by decide))
  · exact solid_of_not_slash (by decide) (by decide) (by decide)

theorem stops_pointed {accepts : Char → Bool} (n : Numeral)
    (refused : ∀ d : Char, d.isDigit = true → accepts d = false) :
    Stops accepts (locate offset (Numeral.pointed n.whole n.fraction) ++ more) := by
  obtain ⟨d, ds, text, digit⟩ := Numeral.pointed_starts n.fraction n.whole_ne_nil n.all_whole
  rw [text]
  exact stops_cons (refused d digit)

theorem solid_pointed (n : Numeral) :
    Solid (locate offset (Numeral.pointed n.whole n.fraction) ++ more) := by
  obtain ⟨d, ds, text, digit⟩ := Numeral.pointed_starts n.fraction n.whole_ne_nil n.all_whole
  rw [text]
  exact solid_digit digit

/-- No layout is in front of the text of a term. -/
theorem solid_text {t : Term} (legible : t.Legible) (stops : Stops (· == '*') more) :
    Solid (locate offset (TermOf.text t) ++ more) := by
  cases legible with
  | atom bare => exact solid_nameText bare stops
  | @number n written =>
      rw [TermOf.text, Numeral.text_eq_pointed]
      split
      · exact solid_of_not_slash (by decide) (by decide) (by decide)
      · exact solid_pointed n
  | var text first all =>
      rw [TermOf.text, text]
      exact solid_var first
  | compound bare inside =>
      rw [TermOf.text, List.append_assoc, locate_append, List.append_assoc]
      exact solid_nameText bare (stops_cons (by decide))

/-! ## Numbers and marks -/

/-- The digits of a number are a token, whatever the sign in front of them. -/
theorem lexes_pointed {n : Numeral} (canonical : n.Canonical)
    (closed : Closed (locate (offset + (Numeral.pointed n.whole n.fraction).length) gap ++ rest))
    (skips : layout.Reads
      (locate (offset + (Numeral.pointed n.whole n.fraction).length) gap) rest ()) :
    Lexes offset (Numeral.pointed n.whole n.fraction ++ gap) rest
      [(.number ⟨n.mantissa.natAbs, n.scale⟩,
        ⟨offset, offset + (Numeral.pointed n.whole n.fraction).length⟩)] :=
  lexes_token (Numeral.pointed_ne_nil n.fraction n.whole_ne_nil)
    (reads_token_number n.whole_ne_nil n.all_whole n.all_fraction canonical.ofDigits?_eq
      closed.toEnds)
    skips

theorem lexes_number {n : Numeral} (canonical : n.Canonical)
    (closed : Closed (locate (offset + n.text.length) gap ++ rest))
    (skips : layout.Reads (locate (offset + n.text.length) gap) rest ()) :
    ∃ tokens, Spells [.number n] tokens ∧ Lexes offset (n.text ++ gap) rest tokens := by
  rw [Numeral.text_eq_pointed] at closed skips ⊢
  by_cases negative : n.mantissa < 0
  · have opposite := Numeral.eq_of_negative negative
    rw [if_pos negative] at closed skips ⊢
    rw [List.length_append, ← Nat.add_assoc] at closed skips
    rw [List.append_assoc]
    have minus : Lexes offset ['-']
        (locate (offset + 1) (Numeral.pointed n.whole n.fraction ++ gap) ++ rest)
        [(.name "-", ⟨offset, offset + 1⟩)] := by
      rw [locate_append, List.append_assoc]
      apply lexes_solid (List.cons_ne_nil _ _)
      · apply reads_minus
        · exact stops_pointed n fun _ => Text.isSymbolChar_of_isDigit
        · apply stops_pointed n
          intro d digit
          exact beq_eq_false_iff_ne.mpr (Text.ne_of_class digit (by decide))
      · exact solid_pointed n
    refine ⟨_, ?_, minus.append (lexes_pointed canonical closed skips)⟩
    have spells (stop : Nat) : Spells [.number (Numeral.negate ⟨n.mantissa.natAbs, n.scale⟩)]
        [(.name "-", ⟨offset, offset + 1⟩), (.number ⟨n.mantissa.natAbs, n.scale⟩,
          ⟨offset + 1, stop⟩)] := .negative rfl
    rw [← opposite] at spells
    exact spells _
  · rw [if_neg negative, List.nil_append] at closed skips ⊢
    refine ⟨_, ?_, lexes_pointed canonical closed skips⟩
    rw [← Numeral.eq_of_nonneg negative]
    exact .number

theorem lexes_mark {c : Char} {value : Token} {span : Span}
    (reads : ∀ more, token.Reads [(c, ⟨offset, offset + 1⟩)] more (value, span))
    (skips : layout.Reads (locate (offset + 1) gap) rest ()) :
    Lexes offset (c :: gap) rest [(value, span)] :=
  lexes_token (List.cons_ne_nil c []) (reads _) skips

/-- A comma or a closing bracket ends a term, and is not layout. -/
theorem behind_mark {c : Char} (mark : c ∈ [',', ')', ']', '\x7d']) (span : Span)
    (more : List (Char × Span)) : Closed ((c, span) :: more) ∧ Solid ((c, span) :: more) := by
  simp only [List.mem_cons, List.not_mem_nil, or_false] at mark
  rcases mark with rfl | rfl | rfl | rfl <;>
    exact ⟨closed_cons (by decide) (by decide) (by decide) (by decide),
      solid_of_not_slash (by decide) (by decide) (by decide)⟩

/-- A character that is a token by itself, whatever follows it. -/
def Mark (c : Char) (value : Token) : Prop :=
  ∀ offset more, token.Reads [(c, ⟨offset, offset + 1⟩)] more (value, ⟨offset, offset + 1⟩)

theorem mark_comma : Mark ',' .comma := fun _ _ _ _ => rfl

theorem mark_closeRound : Mark ')' .closeRound := fun _ _ _ _ => rfl

/-! ## Texts of one kind -/

/-- Wherever something closed follows, the text is read as tokens of the `kind`, and the layout
behind them is skipped. -/
def Tells (kind : List (Token × Span) → Prop) (cs : List Char) : Prop :=
  ∀ offset gap rest, Closed (locate (offset + cs.length) gap ++ rest) →
    layout.Reads (locate (offset + cs.length) gap) rest () →
    ∃ tokens, kind tokens ∧ Lexes offset (cs ++ gap) rest tokens

variable {kind kind' : List (Token × Span) → Prop}

theorem Tells.imp (tells : Tells kind cs) (weaker : ∀ tokens, kind tokens → kind' tokens) :
    Tells kind' cs := by
  intro offset gap rest closed skips
  obtain ⟨tokens, here, lexes⟩ := tells offset gap rest closed skips
  exact ⟨tokens, weaker tokens here, lexes⟩

/-- No layout stands between the text and what follows. -/
theorem Tells.tight (tells : Tells kind cs) (offset : Nat) (closed : Closed rest)
    (solid : Solid rest) : ∃ tokens, kind tokens ∧ Lexes offset cs rest tokens := by
  obtain ⟨tokens, here, lexes⟩ := tells offset [] rest closed (reads_layout_nil solid)
  rw [List.append_nil] at lexes
  exact ⟨tokens, here, lexes⟩

/-- Two texts with a mark between them, which may have a space in front of it and has one behind
it. -/
theorem Tells.joined {c : Char} {value : Token} (before : List Char) (first : Tells kind cs)
    (second : Tells kind' ds) (mark : Mark c value)
    (closed : ∀ offset more, Closed (locate offset (before ++ [c]) ++ more))
    (skips : ∀ offset span more, layout.Reads (locate offset before) ((c, span) :: more) ())
    (solid : ∀ offset rest, Closed rest → Solid (locate offset ds ++ rest)) :
    Tells (fun tokens => ∃ front span back, tokens = front ++ (value, span) :: back ∧
      kind front ∧ kind' back) (cs ++ (before ++ ([c, ' '] ++ ds))) := by
  intro offset gap rest closed' skips'
  let middle := offset + cs.length + before.length
  have length : offset + (cs ++ (before ++ ([c, ' '] ++ ds))).length = middle + 2 + ds.length := by
    simp only [middle, List.length_append, List.length_cons, List.length_nil]
    omega
  rw [length] at closed' skips'
  obtain ⟨back, here', lexes'⟩ := second (middle + 2) gap rest closed' skips'
  have front : Solid (locate (middle + 2) (ds ++ gap) ++ rest) := by
    rw [locate_append, List.append_assoc]
    exact solid _ _ closed'
  have between : Lexes middle [c, ' '] (locate (middle + 2) (ds ++ gap) ++ rest) _ :=
    lexes_mark (mark middle) (reads_layout_space front)
  have text : before ++ ([c, ' '] ++ (ds ++ gap)) = (before ++ [c]) ++ (' ' :: (ds ++ gap)) := by
    simp
  obtain ⟨tokens, here, lexes⟩ := first offset before
    (locate middle ([c, ' '] ++ (ds ++ gap)) ++ rest)
    (by
      rw [← List.append_assoc, ← locate_append, text, locate_append, List.append_assoc]
      exact closed _ _)
    (skips _ _ _)
  have whole := Lexes.append_at (by rw [List.length_append, ← Nat.add_assoc]) lexes
    (between.append lexes')
  refine ⟨_, ⟨tokens, ⟨middle, middle + 1⟩, back, rfl, here, here'⟩, ?_⟩
  simpa only [List.append_assoc, List.singleton_append] using whole

/-- A text in brackets. The last of its tokens has the closing bracket right behind it. -/
theorem Tells.bracketed {opening : List Char} {c : Char} {value value' : Token}
    (nonempty : opening ≠ []) (mark : Mark c value') (closing : c ∈ [',', ')', ']', '\x7d'])
    (front : ∀ offset rest, Solid (locate offset (cs ++ [c]) ++ rest))
    (opens : ∀ offset rest, token.Reads (locate offset opening)
      (locate (offset + opening.length) (cs ++ [c]) ++ rest)
      (value, ⟨offset, offset + opening.length⟩))
    (inside : ∀ offset rest, Closed rest → Solid rest →
      ∃ tokens, kind tokens ∧ Lexes offset cs rest tokens) :
    Tells (fun tokens => ∃ first inner last,
      tokens = (value, first) :: (inner ++ [(value', last)]) ∧ kind inner)
      (opening ++ (cs ++ [c])) := by
  intro offset gap rest closed skips
  let start := offset + opening.length
  have length : offset + (opening ++ (cs ++ [c])).length = start + cs.length + 1 := by
    simp only [start, List.length_append, List.length_singleton]
    omega
  rw [length] at closed skips
  have behind := behind_mark closing ⟨start + cs.length, start + cs.length + 1⟩
    (locate (start + cs.length + 1) gap ++ rest)
  obtain ⟨inner, here, lexes⟩ := inside start _ behind.1 behind.2
  have last : Lexes (start + cs.length) ([c] ++ gap) rest _ :=
    lexes_mark (mark _) skips
  have text : locate start (cs ++ ([c] ++ gap)) ++ rest =
      locate start (cs ++ [c]) ++ (locate (start + (cs ++ [c]).length) gap ++ rest) := by
    rw [← List.append_assoc, locate_append, List.append_assoc]
  have first : Lexes offset opening (locate start (cs ++ ([c] ++ gap)) ++ rest)
      [(value, ⟨offset, offset + opening.length⟩)] := by
    rw [text]
    exact lexes_solid nonempty (opens _ _) (front _ _)
  have whole := first.append (lexes.append last)
  refine ⟨_, ⟨⟨offset, offset + opening.length⟩, inner,
    ⟨start + cs.length, start + cs.length + 1⟩, rfl, here⟩, ?_⟩
  simpa only [List.append_assoc, List.singleton_append] using whole

/-! ## Terms -/

/-- What is to be shown of a term: its text is read as tokens that spell it. -/
def Lexed (t : Term) : Prop := Tells (Spells [t]) (TermOf.text t)

theorem argumentsText_cons (t u : Term) (ts : List Term) : TermOf.argumentsText (t :: u :: ts) =
    TermOf.text t ++ ([',', ' '] ++ TermOf.argumentsText (u :: ts)) := rfl

theorem solid_arguments (offset : Nat) {t : Term} (ts : List Term) (legible : t.Legible)
    (closed : Closed rest) :
    Solid (locate offset (TermOf.argumentsText (t :: ts)) ++ rest) := by
  unfold TermOf.argumentsText
  rw [locate_append, List.append_assoc]
  apply solid_text legible
  cases ts with
  | nil => exact closed.toEnds.exactly (by decide)
  | cons u us => exact stops_cons (by decide)

theorem lexed_arguments {t : Term} {ts : List Term} (lexed : ∀ u ∈ t :: ts, Lexed u)
    (legible : ∀ u ∈ ts, u.Legible) :
    Tells (Spells (t :: ts)) (TermOf.argumentsText (t :: ts)) := by
  induction ts generalizing t with
  | nil =>
      have text : TermOf.argumentsText [t] = TermOf.text t := List.append_nil _
      rw [text]
      exact lexed t List.mem_cons_self
  | cons u us ih =>
      have others := ih (fun v mem => lexed v (List.mem_cons_of_mem t mem))
        fun v mem => legible v (List.mem_cons_of_mem u mem)
      have both := (lexed t List.mem_cons_self).joined [] others mark_comma
        (fun _ _ => (behind_mark (by decide) _ _).1)
        (fun _ _ _ => reads_layout_nil (behind_mark (by decide) _ _).2)
        fun offset _ => solid_arguments offset us (legible u List.mem_cons_self)
      rw [argumentsText_cons]
      apply both.imp
      rintro _ ⟨front, span, back, rfl, spells, spells'⟩
      exact .more spells spells'

/-- What is between the brackets of an application, where there may be nothing. -/
theorem lexes_inside {args : List Term} (lexed : ∀ t ∈ args, Lexed t)
    (legible : ∀ t ∈ args, t.Legible) (offset : Nat) (closed : Closed rest) (solid : Solid rest) :
    Solid (locate offset (TermOf.argumentsText args) ++ rest) ∧ ∃ inner,
      (∀ name opening closing, Spells [.compound name args] ((.functor name, opening) ::
        (inner ++ [(.closeRound, closing)]))) ∧
      Lexes offset (TermOf.argumentsText args) rest inner := by
  cases args with
  | nil => exact ⟨solid, [], fun _ _ _ => .constant, .done⟩
  | cons t ts =>
      have others (u : Term) (mem : u ∈ ts) := legible u (List.mem_cons_of_mem t mem)
      obtain ⟨inner, spells, lexes⟩ := (lexed_arguments lexed others).tight offset closed solid
      exact ⟨solid_arguments offset ts (legible t List.mem_cons_self) closed, inner,
        fun _ _ _ => .compound spells, lexes⟩

theorem text_compound (name : String) (args : List Term) :
    TermOf.text (.compound name args) =
      (Text.nameText name.toList ++ ['(']) ++ (TermOf.argumentsText args ++ [')']) := by
  simp only [TermOf.text, List.append_assoc, List.cons_append, List.nil_append]

theorem lexed_compound (name : String) {args : List Term} (lexed : ∀ t ∈ args, Lexed t)
    (legible : ∀ t ∈ args, t.Legible) : Lexed (.compound name args) := by
  have inside (offset : Nat) {rest : List (Char × Span)} (closed : Closed rest)
      (solid : Solid rest) := lexes_inside lexed legible offset closed solid
  have nonempty : Text.nameText name.toList ++ ['('] ≠ [] :=
    List.append_ne_nil_of_right_ne_nil _ (List.cons_ne_nil '(' [])
  have whole := Tells.bracketed nonempty mark_closeRound (by decide)
    (fun offset rest => by
      rw [locate_append, List.append_assoc]
      have behind := behind_mark (c := ')') (by decide)
      exact (inside offset (behind _ rest).1 (behind _ rest).2).1)
    (fun offset rest => reads_functor offset name _)
    (fun offset rest closed solid => (inside offset closed solid).2)
  rw [Lexed, text_compound]
  apply whole.imp
  rintro _ ⟨first, inner, last, rfl, spells⟩
  exact spells name first last

theorem lexed_of_legible {t : Term} (legible : t.Legible) : Lexed t := by
  induction t using TermOf.induction with
  | atom name =>
      intro offset gap rest closed skips
      exact ⟨_, .atom, lexes_token (Text.nameText_ne_nil _) (reads_name name closed) skips⟩
  | number value =>
      intro offset gap rest closed skips
      cases legible with
      | number written => exact lexes_number written.canonical closed skips
  | var name =>
      intro offset gap rest closed skips
      cases legible with
      | @var name c cs text first all =>
          have nonempty : name.toList ≠ [] := text ▸ List.cons_ne_nil c cs
          rw [TermOf.text] at closed skips ⊢
          exact ⟨_, .var, lexes_token nonempty (reads_var text first all closed.word) skips⟩
  | compound name args ih =>
      cases legible with
      | compound bare inside =>
          exact lexed_compound name (fun u mem => ih u mem (inside u mem)) inside

theorem tokenize_eq {source : List Char} (solid : Solid (locate 0 source))
    (lexes : Lexes 0 source [] tokens) : tokenize source = .ok tokens := by
  have many := lexes.reads_many (fun _ _ => rfl : (token.first layout).Rejects [])
  have reads : Lexer.tokens.Reads ([] ++ locate 0 source ++ []) [] tokens :=
    ((reads_layout_nil (by rwa [List.append_nil])).second many).first reads_finished
  obtain ⟨passed, ok⟩ := reads.exists_ok 0 source.length
  rw [List.nil_append, List.append_nil, List.append_nil] at ok
  rw [tokenize, Input.ofChars, ok]

/-- A text with a full stop behind it consists of the tokens of the text and the end of the
clause. -/
theorem Tells.tokenize_clause (tells : Tells kind cs)
    (solid : ∀ more, Stops (· == '*') more → Solid (locate 0 cs ++ more)) :
    ∃ tokens span, kind tokens ∧
      tokenize (cs ++ [' ', '.']) = .ok (tokens ++ [(.clauseEnd, span)]) := by
  let offset := 0 + cs.length
  have closed : Closed (locate offset [' ', '.']) :=
    closed_cons (by decide) (by decide) (by decide) (by decide)
  have stop : Solid (locate (offset + 1) ['.']) :=
    solid_of_not_slash (by decide) (by decide) (by decide)
  obtain ⟨tokens, here, lexes⟩ := tells 0 [' '] (locate (offset + 1) ['.']) closed
    (reads_layout_space stop)
  have last : Lexes (offset + 1) ['.'] [] [(.clauseEnd, ⟨offset + 1, offset + 2⟩)] :=
    lexes_solid (List.cons_ne_nil _ _) (fun _ _ => rfl) (fun _ _ => rfl)
  refine ⟨tokens, ⟨offset + 1, offset + 2⟩, here, tokenize_eq ?_ ?_⟩
  · rw [locate_append]
    exact solid _ (stops_cons (by decide))
  · have middle : 0 + (cs ++ [' ']).length = offset + 1 := by
      rw [List.length_append, List.length_singleton, ← Nat.add_assoc]
    have whole := Lexes.append_at middle lexes last
    rwa [List.append_assoc] at whole

/-- The text of a term with a full stop behind it consists of the tokens of the term and the end of
the clause. -/
theorem tokenize_text {t : Term} (legible : t.Legible) : ∃ tokens span, Spells [t] tokens ∧
    tokenize (TermOf.text t ++ [' ', '.']) = .ok (tokens ++ [(.clauseEnd, span)]) :=
  (lexed_of_legible legible).tokenize_clause fun _ => solid_text legible

end Lexer

end TermMachine
