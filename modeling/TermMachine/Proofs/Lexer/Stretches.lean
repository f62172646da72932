import TermMachine.Proofs.Lexer
import TermMachine.Proofs.Reader.Progress

/-! # What the lexer takes off a source

White space, comments and tokens each take one character at least, and a token is told of the
stretch of just the characters that were taken for it. What is left of a source is its end, with the
offsets that the characters have in the source.
-/

namespace TermMachine

theorem drop_locate (offset n : Nat) (cs : List Char) :
    (locate offset cs).drop n = locate (offset + n) (cs.drop n) := by
  induction n generalizing offset cs with
  | zero => rfl
  | succ n ih =>
      cases cs with
      | nil => simp [locate]
      | cons c cs =>
          rw [locate, List.drop_succ_cons, ih, List.drop_succ_cons, Nat.add_assoc, Nat.add_comm 1]

theorem take_locate (offset n : Nat) (cs : List Char) :
    (locate offset cs).take n = locate offset (cs.take n) := by
  induction n generalizing offset cs with
  | zero => simp [locate]
  | succ n ih =>
      cases cs with
      | nil => simp [locate]
      | cons c cs => rw [locate, List.take_succ_cons, ih, List.take_succ_cons, locate]

namespace Lexer

open Reader

theorem stretch_locate {cs : List Char} (nonempty : cs ≠ []) (offset : Nat) :
    stretch (locate offset cs) = ⟨offset, offset + cs.length⟩ := by
  cases cs with
  | nil => exact absurd rfl nonempty
  | cons c cs =>
      rw [locate, stretch, stopAfter_locate, List.length_cons]
      simp only [Span.mk.injEq, true_and]
      omega

/-- What is left of a source is the end of its characters, with their offsets. -/
theorem Took.eq_locate {cs : List Char} {offset stop finish : Nat} {read : List (Char × Span)}
    {rest : Input Char} (took : Took ⟨locate offset cs, stop, finish⟩ read rest) :
    rest.items = locate (offset + read.length) (cs.drop read.length) := by
  have items : locate offset cs = read ++ rest.items := took.items
  rw [← drop_locate, items, List.drop_left]

theorem offset_of_locate {input : Input Char} {offset : Nat} {cs : List Char}
    (items : input.items = locate offset cs) (nonempty : input.items ≠ []) :
    input.offset = offset := by
  cases cs with
  | nil => exact absurd items nonempty
  | cons c cs => rw [Input.offset, items, locate]

/-! ## Layout -/

def gap : Reader Char Unit := choice blank [lineComment, blockComment]

theorem consumes_blank : blank.Consumes := consumes_item.map _

theorem consumes_lineComment : lineComment.Consumes :=
  (consumes_item.pair consumes_item.takes.many).map _

theorem consumes_blockComment : blockComment.Consumes := by
  have opening : ((exactly '/').pair (exactly '*')).Consumes :=
    consumes_item.pair consumes_item.takes
  have closing : ((exactly '*').pair (exactly '/')).Consumes :=
    consumes_item.pair consumes_item.takes
  exact (opening.pair closing.skipTo.takes).map _

theorem consumes_gap : gap.Consumes := by
  apply consumes_choice consumes_blank
  simp only [List.forall_mem_cons]
  exact ⟨consumes_lineComment, consumes_blockComment, nofun⟩

theorem takes_layout : layout.Takes := consumes_gap.takes.many.map _

/-- Layout is a piece of layout in front of layout, or nothing. -/
theorem result?_layout (input : Input Char) :
    (layout input).result? =
      match (gap input).result? with
      | none => some ((), input)
      | some first => (layout first.2).result? := by
  have unfolded (input : Input Char) : (layout input).result? =
      (gap.many input).result?.map fun r => ((), r.2) := result?_map _ gap.many input
  rw [unfolded, consumes_gap.result?_many]
  cases (gap input).result? with
  | none => rfl
  | some first =>
      dsimp only
      rw [unfolded, Option.map_map]
      rfl

/-! ## Tokens -/

theorem consumes_run (isFirst isLater : Char → Bool) : (run isFirst isLater).Consumes :=
  (consumes_item.pair consumes_item.takes.many).map _

theorem consumes_clauseEnd : clauseEnd.Consumes := by
  have behind : (choice blank [lineComment, finished]).Takes := by
    apply takes_choice consumes_blank.takes
    simp only [List.forall_mem_cons]
    exact ⟨consumes_lineComment.takes, takes_finished, nofun⟩
  exact ((consumes_item.pair behind).map _).labelled _

theorem consumes_decimal : (digits.pair ((exactly '.').second digits).optional).Consumes := by
  have fraction : ((exactly '.').second digits).Takes :=
    consumes_item.takes.second consumes_item.many1.takes
  exact consumes_item.many1.pair fraction.optional

theorem consumes_number : number.Consumes := (consumes_decimal.check _).labelled _

theorem consumes_var : var.Consumes := (((consumes_run _ _).map _).map _).labelled _

theorem consumes_quotedChar : quotedChar.Consumes := by
  have escaped : (choice ((exactly 'n').map fun _ => '\n')
      [(exactly 't').map fun _ => '\t', exactly '\\', exactly '\'']).Takes := by
    apply takes_choice (consumes_item.map _).takes
    simp only [List.forall_mem_cons]
    exact ⟨(consumes_item.map _).takes, consumes_item.takes, consumes_item.takes, nofun⟩
  have double : ((exactly '\'').pair (exactly '\'')).Consumes :=
    consumes_item.pair consumes_item.takes
  exact ((double.map _).orElse (consumes_item.second escaped)).orElse consumes_item

theorem consumes_quotedName : quotedName.Consumes :=
  (consumes_between _ _ consumes_quotedChar.takes.many).map _

theorem consumes_emptyBrackets (opening closing : Char) (text : String) :
    (emptyBrackets opening closing text).Consumes :=
  ((consumes_item.pair takes_layout).pair consumes_item.takes).map _

theorem consumes_soloName : soloName.Consumes := by
  apply consumes_choice (consumes_item.map _)
  simp only [List.forall_mem_cons]
  exact ⟨consumes_item.map _, consumes_emptyBrackets _ _ _, consumes_emptyBrackets _ _ _, nofun⟩

def nameWord : Reader Char String := choice letterName [quotedName, symbolName, soloName]

theorem consumes_nameWord : nameWord.Consumes := by
  apply consumes_choice ((consumes_run _ _).map _)
  simp only [List.forall_mem_cons]
  exact ⟨consumes_quotedName, consumes_item.many1.map _, consumes_soloName, nofun⟩

theorem consumes_name : name.Consumes :=
  ((consumes_nameWord.pair consumes_item.takes.optional).map _).labelled _

theorem result?_name_of_none {input : Input Char} (failed : (nameWord input).result? = none) :
    (name input).result? = none := by
  unfold name
  rw [result?_labelled, result?_map, result?_pair, ← nameWord, failed]
  rfl

theorem consumes_punctuation : punctuation.Consumes := by
  apply consumes_choice (consumes_item.map _)
  simp only [List.forall_mem_cons]
  exact ⟨consumes_item.map _, consumes_item.map _, consumes_item.map _, consumes_item.map _,
    consumes_item.map _, consumes_item.map _, consumes_item.map _, nofun⟩

def lexeme : Reader Char Token := choice clauseEnd [number, var, name, punctuation]

theorem consumes_lexeme : lexeme.Consumes := by
  apply consumes_choice consumes_clauseEnd
  simp only [List.forall_mem_cons]
  exact ⟨consumes_number, consumes_var, consumes_name, consumes_punctuation, nofun⟩

/-- Square and curly brackets, which are a name if there is nothing but layout between them. -/
def pairs : List (Char × Char) := [('[', ']'), ('\x7b', '\x7d')]

/-- An opening bracket is a token by itself if it makes no name together with a closing one. -/
theorem result?_lexeme_bracket {pair : Char × Char} (mem : pair ∈ pairs) {span : Span}
    {items : List (Char × Span)} {stop finish : Nat}
    (unclosed : ∀ text, (emptyBrackets pair.1 pair.2 text
      ⟨(pair.1, span) :: items, stop, finish⟩).result? = none) :
    (lexeme ⟨(pair.1, span) :: items, stop, finish⟩).result? =
      (punctuation ⟨(pair.1, span) :: items, stop, finish⟩).result? := by
  have solo : (soloName ⟨(pair.1, span) :: items, stop, finish⟩).result? = none := by
    unfold soloName
    simp only [pairs, List.mem_cons, List.not_mem_nil, or_false] at mem
    rcases mem with rfl | rfl
    · rw [result?_choice_of_none rfl, result?_choice_of_none rfl,
        result?_choice_of_none (unclosed _), result?_choice_nil]
      rfl
    · rw [result?_choice_of_none rfl, result?_choice_of_none rfl, result?_choice_of_none rfl,
        result?_choice_nil, unclosed]
  have noName : (name ⟨(pair.1, span) :: items, stop, finish⟩).result? = none := by
    apply result?_name_of_none
    unfold nameWord
    simp only [pairs, List.mem_cons, List.not_mem_nil, or_false] at mem
    rcases mem with rfl | rfl <;>
      rw [result?_choice_of_none rfl, result?_choice_of_none rfl, result?_choice_of_none rfl,
        result?_choice_nil, solo]
  unfold lexeme
  simp only [pairs, List.mem_cons, List.not_mem_nil, or_false] at mem
  rcases mem with rfl | rfl <;>
    rw [result?_choice_of_none rfl, result?_choice_of_none rfl, result?_choice_of_none rfl,
      result?_choice_of_none noName, result?_choice_nil]

/-- What starts with a quote is a quoted name. -/
theorem result?_lexeme_quote {span : Span} {items : List (Char × Span)} {stop finish : Nat}
    (unclosed : (quotedName ⟨('\'', span) :: items, stop, finish⟩).result? = none) :
    (lexeme ⟨('\'', span) :: items, stop, finish⟩).result? = none := by
  have noName : (name ⟨('\'', span) :: items, stop, finish⟩).result? = none := by
    apply result?_name_of_none
    unfold nameWord
    rw [result?_choice_of_none rfl, result?_choice_of_none unclosed, result?_choice_of_none rfl,
      result?_choice_nil]
    rfl
  unfold lexeme
  rw [result?_choice_of_none rfl, result?_choice_of_none rfl, result?_choice_of_none rfl,
    result?_choice_of_none noName, result?_choice_nil]
  rfl

/-- A token covers the stretch of the characters that were taken for it. -/
theorem ensures_token : token.Ensures fun read value => read ≠ [] ∧ value.2 = stretch read := by
  refine (Ensures.mapSpan consumes_lexeme id _).imp ?_
  rintro read _ ⟨value, nonempty, rfl⟩
  exact ⟨nonempty, rfl⟩

theorem consumes_token : token.Consumes := ensures_token.imp fun _ _ h => h.1

theorem consumes_tokenFirst : (token.first layout).Consumes := consumes_token.first takes_layout

/-- A token starts where its input does. -/
theorem start_of_token {input rest : Input Char} {value : Token × Span}
    (ok : (token input).result? = some (value, rest)) : value.2.start = input.offset := by
  unfold token at ok
  rw [result?_mapSpan, Option.map_eq_some_iff] at ok
  obtain ⟨_, _, same⟩ := ok
  cases same
  rfl

/-- The tokens of a source stand behind its first layout, and nothing is left of it. -/
theorem exists_of_tokenize {source : List Char} {tokens : List (Token × Span)}
    (ok : tokenize source = .ok tokens) :
    ∃ front rest, (layout (.ofChars source)).result? = some ((), front) ∧
      ((token.first layout).many front).result? = some (tokens, rest) ∧ rest.items = [] := by
  unfold tokenize at ok
  split at ok
  · next tokens' rest' passed replied =>
      cases ok
      have found := congrArg Reply.result? replied
      unfold Lexer.tokens at found
      rw [result?_first, Reply.result?_ok, Option.bind_eq_some_iff] at found
      obtain ⟨⟨_, rest⟩, before, behind⟩ := found
      obtain ⟨_, nothing, same⟩ := Option.map_eq_some_iff.mp behind
      cases same
      rw [result?_second, Option.bind_eq_some_iff] at before
      obtain ⟨⟨_, front⟩, skipped, many⟩ := before
      exact ⟨front, rest, skipped, many, items_of_finished nothing⟩
  · cases ok

theorem stop_pos_of_mem_locate {offset : Nat} {cs : List Char} :
    ∀ item ∈ locate offset cs, 0 < item.2.stop := by
  induction cs generalizing offset with
  | nil => exact nofun
  | cons c cs ih => exact List.forall_mem_cons.mpr ⟨Nat.succ_pos offset, ih⟩

/-- No token stops at the very start of a source. -/
theorem stop_pos_of_tokenize {source : List Char} {tokens : List (Token × Span)}
    (ok : tokenize source = .ok tokens) : ∀ token ∈ tokens, 0 < token.2.stop := by
  have piece : (token.first layout).Ensures fun read value =>
      (∀ item ∈ read, 0 < item.2.stop) → 0 < value.2.stop := by
    refine (ensures_token.first takes_layout).imp ?_
    rintro read value ⟨front, back, _, rfl, ⟨nonempty, stretch⟩, _⟩ placed
    rw [stretch, stop_stretch nonempty 0]
    exact stopAfter_pos nonempty (fun item mem => placed item (List.mem_append_left back mem)) 0
  obtain ⟨front, rest, skipped, many, _⟩ := exists_of_tokenize ok
  obtain ⟨before, took, _⟩ := takes_layout _ _ front skipped
  obtain ⟨read, took', joined⟩ := piece.many front tokens rest many
  have items : locate 0 source = before ++ read ++ rest.items := (took.trans took').items
  have placed : ∀ item ∈ before ++ read ++ rest.items, 0 < item.2.stop :=
    items ▸ stop_pos_of_mem_locate
  simp only [List.forall_mem_append] at placed
  exact joined.forall_mem (fun _ _ implies => implies) placed.1.2

end Lexer

end TermMachine
