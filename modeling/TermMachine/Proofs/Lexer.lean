import TermMachine.Proofs.Numeral
import TermMachine.Proofs.Reader
import TermMachine.Proofs.Text
import TermMachine.Token

/-! # What the lexer reads

Characters are located one after another, so a text in front of another is one list of located
characters in front of another. Words are read up to the end that the lexer finds for them: what
follows them may not go on with them, `Ends`.
-/

namespace TermMachine

theorem locate_append (offset : Nat) (cs ds : List Char) :
    locate offset (cs ++ ds) = locate offset cs ++ locate (offset + cs.length) ds := by
  induction cs generalizing offset with
  | nil => rfl
  | cons c cs ih =>
      simp only [List.cons_append, locate, ih, List.length_cons]
      rw [Nat.add_assoc, Nat.add_comm 1]

theorem map_fst_locate (offset : Nat) (cs : List Char) : (locate offset cs).map Prod.fst = cs := by
  induction cs generalizing offset with
  | nil => rfl
  | cons c cs ih => rw [locate, List.map_cons, ih]

theorem forall_locate {accepts : Char → Bool} {cs : List Char} (offset : Nat)
    (all : cs.all accepts = true) : ∀ item ∈ locate offset cs, accepts item.1 = true := by
  intro item mem
  have inside : item.1 ∈ cs := map_fst_locate offset cs ▸ List.mem_map_of_mem mem
  exact List.all_eq_true.mp all item.1 inside

theorem locate_ne_nil {offset : Nat} {cs : List Char} (nonempty : cs ≠ []) :
    locate offset cs ≠ [] := by
  cases cs with
  | nil => exact absurd rfl nonempty
  | cons c cs => exact List.cons_ne_nil _ _

namespace Reader

theorem stopAfter_locate (offset : Nat) (cs : List Char) :
    stopAfter offset (locate offset cs) = offset + cs.length := by
  induction cs generalizing offset with
  | nil => rfl
  | cons c cs ih =>
      show stopAfter (offset + 1) (locate (offset + 1) cs) = _
      rw [ih, List.length_cons]
      omega

end Reader

namespace Lexer

open Reader

variable {offset : Nat} {rest : List (Char × Span)} {c : Char} {cs : List Char} {span : Span}

/-- Nothing comes next that a word or a number could go on with. -/
structure Ends (rest : List (Char × Span)) : Prop where
  word : Stops Text.isWordChar rest
  symbol : Stops Text.isSymbolChar rest
  quote : Stops (· == '\'') rest

/-- Nothing comes next that could be part of a token in front of it, and no opening bracket. -/
structure Closed (rest : List (Char × Span)) : Prop extends Ends rest where
  bracket : Stops (· == '(') rest

theorem ends_cons (word : Text.isWordChar c = false) (symbol : Text.isSymbolChar c = false)
    (quote : (c == '\'') = false) : Ends ((c, span) :: rest) :=
  ⟨stops_cons word, stops_cons symbol, stops_cons quote⟩

theorem closed_cons (word : Text.isWordChar c = false) (symbol : Text.isSymbolChar c = false)
    (quote : (c == '\'') = false) (bracket : (c == '(') = false) : Closed ((c, span) :: rest) :=
  ⟨ends_cons word symbol quote, stops_cons bracket⟩

theorem Ends.digit (ends : Ends rest) : Stops Char.isDigit rest := by
  intro item mem
  apply Bool.eq_false_iff.mpr
  intro digit
  exact Text.ne_of_class (Text.isWordChar_of_isDigit digit) (ends.word item mem) rfl

theorem Ends.exactly (ends : Ends rest) {d : Char} (symbol : Text.isSymbolChar d = true) :
    Stops (· == d) rest := by
  intro item mem
  exact beq_eq_false_iff_ne.mpr (Text.ne_of_class symbol (ends.symbol item mem)).symm

/-! ## Words -/

theorem reads_many {accepts : Char → Bool} (all : cs.all accepts = true)
    (stops : Stops accepts rest) :
    (satisfying accepts).many.Reads (locate offset cs) rest cs := by
  have repeats : Repeats (satisfying accepts) rest (locate offset cs) _ :=
    .of_satisfying (forall_locate offset all)
  rw [map_fst_locate] at repeats
  exact repeats.reads_many stops.rejects

theorem reads_many1 {accepts : Char → Bool} (nonempty : cs ≠ []) (all : cs.all accepts = true)
    (stops : Stops accepts rest) :
    (satisfying accepts).many1.Reads (locate offset cs) rest cs := by
  have repeats : Repeats (satisfying accepts) rest (locate offset cs) _ :=
    .of_satisfying (forall_locate offset all)
  rw [map_fst_locate] at repeats
  exact repeats.reads_many1 stops.rejects nonempty

theorem reads_run {isFirst isLater : Char → Bool} (first : isFirst c = true)
    (all : cs.all isLater = true) (stops : Stops isLater rest) :
    (run isFirst isLater).Reads (locate offset (c :: cs)) rest (c :: cs) :=
  ((reads_satisfying first).pair (reads_many all stops)).map _

theorem rejects_run {isFirst isLater : Char → Bool} (refused : isFirst c = false) :
    (run isFirst isLater).Rejects ((c, span) :: rest) :=
  (rejects_satisfying refused).pair.map _

/-! ## Layout -/

/-- There is no white space or comment at the front. -/
def Solid (items : List (Char × Span)) : Prop :=
  (choice blank [lineComment, blockComment]).Rejects items

theorem solid_of_not_slash (notBlank : Text.isBlank c = false) (percent : c ≠ '%')
    (slash : c ≠ '/') : Solid ((c, span) :: rest) := by
  apply rejects_choice ((rejects_satisfying notBlank).map _)
  simp only [List.mem_cons, List.not_mem_nil, or_false, forall_eq_or_imp, forall_eq]
  exact ⟨(rejects_exactly percent).pair.map _, (rejects_exactly slash).pair.pair.map _⟩

theorem solid_of_slash (stops : Stops (· == '*') rest) : Solid (('/', span) :: rest) := by
  apply rejects_choice ((rejects_satisfying (by decide)).map _)
  simp only [List.mem_cons, List.not_mem_nil, or_false, forall_eq_or_imp, forall_eq]
  exact ⟨(rejects_exactly (by decide)).pair.map _,
    (reads_exactly.rejects_pair stops.rejects_exactly).pair.map _⟩

theorem reads_layout_nil (solid : Solid rest) : layout.Reads [] rest () :=
  (Repeats.done.reads_many solid).map _

theorem reads_layout_space (solid : Solid rest) : layout.Reads (locate offset [' ']) rest () :=
  ((Repeats.single (List.cons_ne_nil _ _)
    (reads_choice ((reads_satisfying rfl).map _))).reads_many solid).map _

/-! ## Names -/

theorem reads_quotedChar (c : Char) :
    quotedChar.Reads (locate offset (Text.escapeChar c)) rest c := by
  by_cases quote : c = '\''
  · subst quote
    exact fun _ _ => rfl
  by_cases backslash : c = '\\'
  · subst backslash
    exact fun _ _ => rfl
  by_cases lineFeed : c = '\n'
  · subst lineFeed
    exact fun _ _ => rfl
  by_cases tab : c = '\t'
  · subst tab
    exact fun _ _ => rfl
  rw [Text.escapeChar, if_neg quote, if_neg backslash, if_neg lineFeed, if_neg tab]
  apply reads_orElse_of_rejects
  · exact rejects_orElse ((rejects_exactly quote).pair.map _) (rejects_exactly backslash).second
  · exact reads_satisfying (by simp [quote, backslash])

/-- A single quote ends a quoted name. -/
theorem rejects_quotedChar (span : Span) (stops : Stops (· == '\'') rest) :
    quotedChar.Rejects (('\'', span) :: rest) := by
  apply rejects_orElse
  · exact rejects_orElse ((reads_exactly.rejects_pair stops.rejects_exactly).map _)
      (rejects_exactly (by decide)).second
  · exact rejects_satisfying (by decide)

theorem repeats_quotedChar (offset : Nat) (name : List Char) :
    Repeats quotedChar rest (locate offset (name.flatMap Text.escapeChar)) name := by
  induction name generalizing offset with
  | nil => exact .done
  | cons c name ih =>
      rw [List.flatMap_cons, locate_append]
      apply Repeats.step
      · exact locate_ne_nil (Text.escapeChar_ne_nil c)
      · exact reads_quotedChar c
      · exact ih _

theorem reads_quotedName (name : List Char) (stops : Stops (· == '\'') rest) :
    quotedName.Reads (locate offset ('\'' :: name.flatMap Text.escapeChar ++ ['\''])) rest
      (String.ofList name) := by
  rw [locate_append]
  have inside (span : Span) := (repeats_quotedChar (offset + 1) name).reads_many
    (rejects_quotedChar span stops)
  exact ((reads_exactly.second (inside _)).first reads_exactly).map _

theorem reads_nameText (offset : Nat) (name : String) (ends : Ends rest) :
    (choice letterName [quotedName, symbolName, soloName]).Reads
      (locate offset (Text.nameText name.toList)) rest name := by
  rw [← String.ofList_toList (s := name)]
  generalize name.toList = name
  rw [String.toList_ofList]
  cases quotes : Text.needsQuotes name with
  | true =>
      rw [Text.nameText_of_needsQuotes quotes]
      apply reads_choice_of_rejects ((rejects_run (by decide)).map _)
      exact reads_choice (reads_quotedName name ends.quote)
  | false =>
      rw [Text.nameText_of_bare quotes]
      rcases Text.bare_cases quotes with ⟨c, cs, rfl, lower, all⟩ | ⟨nonempty, _, symbolic⟩ | solo
      · exact reads_choice ((reads_run lower all ends.word).map _)
      · cases name with
        | nil => exact absurd rfl nonempty
        | cons c cs =>
            have first := symbolic
            rw [List.all_cons, Bool.and_eq_true] at first
            obtain ⟨_, notLower, notQuote⟩ := Text.of_isSymbolChar first.1
            apply reads_choice_of_rejects ((rejects_run notLower).map _)
            apply reads_choice_of_rejects ((rejects_exactly notQuote).second.first.map _)
            exact reads_choice ((reads_many1 nonempty symbolic ends.symbol).map _)
      · simp only [Text.soloNames, List.mem_cons, List.not_mem_nil, or_false] at solo
        rcases solo with rfl | rfl | rfl | rfl <;> exact fun _ _ => rfl

theorem rejects_clauseEnd (stop : c ≠ '.') : clauseEnd.Rejects ((c, span) :: rest) :=
  ((rejects_exactly stop).pair.map _).labelled _

theorem rejects_number (digit : c.isDigit = false) : number.Rejects ((c, span) :: rest) :=
  (((rejects_satisfying digit).many1.pair).check).labelled _

theorem rejects_var (upper : Text.isUppercase c = false) (underscore : c ≠ '_') :
    var.Rejects ((c, span) :: rest) :=
  (((rejects_run (by simp [upper, underscore])).map _).map _).labelled _

/-- Only a name starts as a written name does. -/
theorem rejects_nameText (offset : Nat) (name : List Char) (more : List (Char × Span)) :
    clauseEnd.Rejects (locate offset (Text.nameText name) ++ more) ∧
      number.Rejects (locate offset (Text.nameText name) ++ more) ∧
      var.Rejects (locate offset (Text.nameText name) ++ more) := by
  obtain ⟨c, cs, text, starts⟩ := Text.nameText_starts name
  obtain ⟨digit, upper, _, underscore, _⟩ := Text.startsName_iff.mp starts
  rw [text]
  refine ⟨?_, rejects_number digit, rejects_var upper underscore⟩
  by_cases stop : c = '.'
  · subst stop
    obtain ⟨_, symbolic, longer⟩ := Text.of_nameText_eq_cons text (by decide)
    -- Another symbol character follows, which is not what a full stop ends a clause in front of.
    cases cs with
    | nil => exact absurd rfl (longer rfl)
    | cons d ds =>
        rw [List.all_cons, Bool.and_eq_true] at symbolic
        obtain ⟨_, _, notBlank, _, percent, _⟩ :=
          Text.startsName_iff.mp (Text.of_isSymbolChar symbolic.1).1
        apply Rejects.labelled
        apply Rejects.map
        apply reads_exactly.rejects_pair
        apply rejects_choice ((rejects_satisfying notBlank).map _)
        simp only [List.mem_cons, List.not_mem_nil, or_false, forall_eq_or_imp, forall_eq]
        exact ⟨(rejects_exactly percent).pair.map _, rejects_finished⟩
  · exact rejects_clauseEnd stop

/-! ## Tokens -/

theorem reads_token {value : Token} (nonempty : cs ≠ [])
    (reads : (choice clauseEnd [number, var, name, punctuation]).Reads (locate offset cs) rest
      value) :
    token.Reads (locate offset cs) rest (value, ⟨offset, offset + cs.length⟩) := by
  cases cs with
  | nil => exact absurd rfl nonempty
  | cons c cs =>
      have spanned := reads.mapSpan (f := fun token span => (token, span))
      rw [stopAfter_locate] at spanned
      rw [List.length_cons, Nat.add_comm cs.length, ← Nat.add_assoc]
      exact spanned

/-- A token that only a name can be. -/
theorem reads_token_name {value : Token} {n : List Char} {more : List Char}
    (reads : name.Reads (locate offset (Text.nameText n ++ more)) rest value) :
    token.Reads (locate offset (Text.nameText n ++ more)) rest
      (value, ⟨offset, offset + (Text.nameText n ++ more).length⟩) := by
  apply reads_token
  · intro none
    exact Text.nameText_ne_nil n (List.append_eq_nil_iff.mp none).1
  rw [locate_append] at reads ⊢
  obtain ⟨clauseEnd, number, var⟩ :=
    rejects_nameText offset n (locate (offset + (Text.nameText n).length) more ++ rest)
  rw [← List.append_assoc] at clauseEnd number var
  apply reads_choice_of_rejects clauseEnd
  apply reads_choice_of_rejects number
  apply reads_choice_of_rejects var
  exact reads_choice reads

theorem reads_name (n : String) (closed : Closed rest) :
    token.Reads (locate offset (Text.nameText n.toList)) rest
      (.name n, ⟨offset, offset + (Text.nameText n.toList).length⟩) := by
  have reads := (reads_nameText offset n closed.toEnds).pair
    (reads_optional_none closed.bracket.rejects_exactly)
  rw [← List.append_nil (Text.nameText n.toList)]
  apply reads_token_name
  rw [locate_append]
  exact (reads.map _).labelled _

theorem reads_functor (offset : Nat) (n : String) (rest : List (Char × Span)) :
    token.Reads (locate offset (Text.nameText n.toList ++ ['('])) rest
      (.functor n, ⟨offset, offset + (Text.nameText n.toList ++ ['(']).length⟩) := by
  have bracket (span : Span) : Ends (('(', span) :: rest) :=
    ends_cons (by decide) (by decide) (by decide)
  have reads (span : Span) := (reads_nameText offset n (bracket span)).pair
    (reads_optional reads_exactly)
  apply reads_token_name
  rw [locate_append]
  exact ((reads _).map _).labelled _

/-- A minus sign is a name of its own also in front of a digit. -/
theorem reads_minus (symbol : Stops Text.isSymbolChar rest) (bracket : Stops (· == '(') rest) :
    token.Reads (locate offset ['-']) rest (.name "-", ⟨offset, offset + 1⟩) := by
  have text : ['-'] = Text.nameText ['-'] ++ [] := by decide
  have symbolic : (choice letterName [quotedName, symbolName, soloName]).Reads
      (locate offset ['-']) rest "-" := by
    apply reads_choice_of_rejects ((rejects_run (by decide)).map _)
    apply reads_choice_of_rejects ((rejects_exactly (by decide)).second.first.map _)
    exact reads_choice ((reads_many1 (List.cons_ne_nil _ _) (by decide) symbol).map _)
  have reads := symbolic.pair (reads_optional_none bracket.rejects_exactly)
  rw [text] at reads ⊢
  exact reads_token_name ((reads.map _).labelled _)

theorem reads_var {n : String} (text : n.toList = c :: cs)
    (first : (Text.isUppercase c || c == '_') = true) (all : cs.all Text.isWordChar = true)
    (stops : Stops Text.isWordChar rest) :
    token.Reads (locate offset n.toList) rest (.var n, ⟨offset, offset + n.toList.length⟩) := by
  have others : c ≠ '.' ∧ c.isDigit = false := by
    rw [Bool.or_eq_true, beq_iff_eq] at first
    rcases first with upper | rfl
    · exact ⟨Text.ne_of_class upper (by decide), Text.isDigit_of_isUppercase upper⟩
    · decide
  obtain rfl : n = String.ofList (c :: cs) := by rw [← text, String.ofList_toList]
  rw [text]
  apply reads_token (List.cons_ne_nil c cs)
  apply reads_choice_of_rejects (rejects_clauseEnd others.1)
  apply reads_choice_of_rejects (rejects_number others.2)
  exact reads_choice ((((reads_run first all stops).map _).map _).labelled _)

/-! ## Numbers -/

theorem reads_number {whole fraction : List Char} {value : Numeral} (nonempty : whole ≠ [])
    (all : whole.all Char.isDigit = true) (all' : fraction.all Char.isDigit = true)
    (read : Numeral.ofDigits? whole fraction = some value) (ends : Ends rest) :
    number.Reads (locate offset (Numeral.pointed whole fraction)) rest (.number value) := by
  apply Reads.labelled
  unfold Numeral.pointed
  by_cases none : fraction = []
  · subst none
    have reads : digits.Reads (locate offset whole) ([] ++ rest) whole :=
      reads_many1 nonempty all ends.digit
    have point : (exactly '.').Rejects rest := (ends.exactly (by decide)).rejects_exactly
    rw [if_pos rfl, ← List.append_nil (locate offset whole)]
    apply (reads.pair (reads_optional_none point.second)).check
    intro span
    simp [read]
  · have reads (span : Span) : digits.Reads (locate offset whole)
        (('.', span) :: locate (offset + whole.length + 1) fraction ++ rest) whole :=
      reads_many1 nonempty all (stops_cons (by decide))
    have behind : digits.Reads (locate (offset + whole.length + 1) fraction) rest fraction :=
      reads_many1 none all' ends.digit
    rw [if_neg none, locate_append]
    apply ((reads _).pair (reads_optional (reads_exactly.second behind))).check
    intro span
    simp [read]

theorem reads_token_number {whole fraction : List Char} {value : Numeral} (nonempty : whole ≠ [])
    (all : whole.all Char.isDigit = true) (all' : fraction.all Char.isDigit = true)
    (read : Numeral.ofDigits? whole fraction = some value) (ends : Ends rest) :
    token.Reads (locate offset (Numeral.pointed whole fraction)) rest
      (.number value, ⟨offset, offset + (Numeral.pointed whole fraction).length⟩) := by
  obtain ⟨d, cs, text, digit⟩ := Numeral.pointed_starts fraction nonempty all
  have reads : number.Reads (locate offset _) rest _ := reads_number nonempty all all' read ends
  rw [text] at reads ⊢
  apply reads_token (List.cons_ne_nil d cs)
  apply reads_choice_of_rejects (rejects_clauseEnd (Text.ne_of_class digit (by decide)))
  exact reads_choice reads

end Lexer

end TermMachine
