import TermMachine.Clause
import TermMachine.Proofs.Spelling

/-! # Canonical texts are read back

Between brackets there are items, and `Sequence items ts` says that they are the terms with commas
between them. A canonical term is a single item, apart from a negative number, which is a minus sign
and a number. No operator of the table has a say in what they mean: nothing stands beside them.
`ReadAs` says of tokens which items they are read as, in brackets or out of them.

`readOne_text`: a term is read back from its canonical text with a full stop behind it.
-/

namespace TermMachine

namespace Item

/-- The items that one term in canonical form is read as. -/
inductive Single : List Item → Term → Prop
  | operand {s : SourceTerm} {t : Term} {span : Span} (plain : s.plain = t) :
      Single [.operand s span] t
  | name {n : Name} : Single [.name n] (.atom n.text)
  | negative {minus : Name} {value : Numeral} {span : Span} (text : minus.text = "-")
      (adjacent : span.start = minus.span.stop) :
      Single [.name minus, .operand (.number value) span] (.number value.negate)

inductive Sequence : List Item → List Term → Prop
  | last {items : List Item} {t : Term} (single : Single items t) : Sequence items [t]
  | more {items others : List Item} {t : Term} {ts : List Term} {span : Span}
      (single : Single items t) (sequence : Sequence others ts) :
      Sequence (items ++ .comma span :: others) (t :: ts)

theorem Sequence.single {items : List Item} {t : Term} (sequence : Sequence items [t]) :
    Single items t := by
  cases sequence with
  | last single => exact single
  | more single sequence => cases sequence

theorem Sequence.ne_nil {items : List Item} {ts : List Term} (sequence : Sequence items ts) :
    items ≠ [] := by
  cases sequence with
  | last single => cases single <;> exact List.cons_ne_nil _ _
  | more single sequence => exact List.append_ne_nil_of_right_ne_nil _ (List.cons_ne_nil _ _)

/-! ## What items mean -/

theorem resolve_operand (table : OperatorTable) (limit : Nat) (s : SourceTerm) (span span' : Span) :
    Priority.resolve table limit [.operand s span] span' = .ok s := by
  simp [Priority.resolve, Priority.expression, Priority.primary, Priority.extend]

theorem Single.resolve {items : List Item} {t : Term} (single : Single items t) :
    ∃ s : SourceTerm, s.plain = t ∧
      ∀ table limit span, Priority.resolve table limit items span = .ok s := by
  cases single with
  | @operand s t span plain =>
      exact ⟨s, plain, fun table limit span' => resolve_operand table limit s span span'⟩
  | @name n =>
      refine ⟨.atom n, rfl, fun table limit span => ?_⟩
      -- An operator in front of operands is an atom where there is no operand.
      have alone : (table.before? n.text).filter (fun _ => false) = none := by
        cases table.before? n.text <;> rfl
      simp [alone, Priority.resolve, Priority.expression, Priority.primary, Priority.extend,
        Priority.negatedNumber?, Priority.startsTerm]
  | @negative minus value span text adjacent =>
      refine ⟨.number value.negate, rfl, fun table limit span' => ?_⟩
      simp [Priority.resolve, Priority.expression, Priority.primary, Priority.extend,
        Priority.negatedNumber?, text, adjacent]

theorem splitCommas_single {items : List Item} {t : Term} (single : Single items t) :
    splitCommas items = [items] := by
  cases single <;> rfl

theorem splitCommas_more {items : List Item} {t : Term} (single : Single items t) (span : Span)
    (others : List Item) :
    splitCommas (items ++ .comma span :: others) = items :: splitCommas others := by
  cases single <;> rfl

theorem Sequence.arguments {items : List Item} {ts : List Term} (sequence : Sequence items ts) :
    ∃ args : List SourceTerm, args.map SourceTerm.plain = ts ∧
      ∀ table span, Priority.arguments table items span = .ok args := by
  induction sequence with
  | last single =>
      obtain ⟨s, rfl, resolved⟩ := single.resolve
      refine ⟨[s], rfl, fun table span => ?_⟩
      simp only [Priority.arguments, splitCommas_single single, collect, resolved]
  | @more items others t ts comma single sequence ih =>
      obtain ⟨s, rfl, resolved⟩ := single.resolve
      obtain ⟨args, rfl, collected⟩ := ih
      refine ⟨s :: args, rfl, fun table span => ?_⟩
      have behind := collected table span
      unfold Priority.arguments at behind ⊢
      rw [splitCommas_more single, collect, resolved, behind]

end Item

namespace Clause

open Reader

variable {table : OperatorTable} {depth : Nat} {rest : List (Token × Span)}

def itemReader (table : OperatorTable) (depth : Nat) : Reader Token Item :=
  choice (operand table (items table depth)) [name, comma, bar]

theorem reads_name (n : String) (span : Span) :
    (itemReader table depth).Reads [(.name n, span)] rest (.name ⟨n, span⟩) :=
  fun _ _ => rfl

theorem reads_var (n : String) (span : Span) :
    (itemReader table depth).Reads [(.var n, span)] rest (.operand (.var ⟨n, span⟩) span) :=
  fun _ _ => rfl

theorem reads_number (value : Numeral) (span : Span) :
    (itemReader table depth).Reads [(.number value, span)] rest
      (.operand (.number value) span) :=
  fun _ _ => rfl

theorem reads_comma (span : Span) :
    (itemReader table depth).Reads [(.comma, span)] rest (.comma span) :=
  fun _ _ => rfl

theorem rejects_closeRound (span : Span) :
    (itemReader table depth).Rejects ((.closeRound, span) :: rest) :=
  fun _ _ => rfl

theorem rejects_clauseEnd (span : Span) :
    (itemReader table depth).Rejects ((.clauseEnd, span) :: rest) :=
  fun _ _ => rfl

theorem reads_items {tokens : List (Token × Span)} {its : List Item} (nonempty : its ≠ [])
    (repeats : Repeats (itemReader table depth) rest tokens its)
    (rejects : (itemReader table depth).Rejects rest) :
    (items table (depth + 1)).Reads tokens rest its :=
  repeats.reads_many1 rejects nonempty

theorem rejects_items (span : Span) :
    (items table depth).Rejects ((.closeRound, span) :: rest) := by
  cases depth with
  | zero => exact fun _ _ => rfl
  | succ depth => exact (rejects_closeRound span).many1

/-- An application is an operand, from its name to the closing bracket. -/
theorem reads_compound (n : String) (opening : Span) {inner : List (Token × Span)}
    {args? : Option (List SourceTerm)} {closing : Span}
    (reads : ((items table depth).check (Priority.arguments table)).optional.Reads inner
      ((.closeRound, closing) :: rest) args?) :
    (itemReader table depth).Reads ((.functor n, opening) :: (inner ++ [(.closeRound, closing)]))
      rest (.operand (.compound ⟨n, opening⟩ (args?.getD [])) ⟨opening.start, closing.stop⟩) := by
  have functor : functor.Reads [(.functor n, opening)]
      (inner ++ [(.closeRound, closing)] ++ rest) ⟨n, opening⟩ := fun _ _ => rfl
  rw [List.append_assoc] at functor
  have parts := (functor.pair reads).first reads_exactly
  have stop : stopAfter opening.stop (inner ++ [(.closeRound, closing)]) = closing.stop :=
    stopAfter_append _ _ _
  rw [← stop]
  apply reads_choice
  apply Reads.mapSpan (f := Item.operand)
  apply reads_choice
  exact (parts.map _).labelled _

theorem plain_compound (name : Name) (args : List SourceTerm) :
    SourceTerm.plain (.compound name args) = .compound name.text (args.map SourceTerm.plain) := by
  rw [SourceTerm.plain, TermOf.map, TermOf.mapAll_eq_map]
  rfl

/-! ## Tokens of one kind -/

/-- However many brackets are allowed for and whatever follows, the tokens are read as items that
`means` holds of. The end of a clause is not among them. -/
structure ReadAs (table : OperatorTable) (means : List Item → Prop) (tokens : List (Token × Span)) :
    Prop where
  nonempty : tokens ≠ []
  whole : ∀ token ∈ tokens, token.1 ≠ Token.clauseEnd
  items : ∀ depth rest, tokens.length ≤ depth →
    ∃ its, means its ∧ Repeats (itemReader table depth) rest tokens its

variable {means means' : List Item → Prop} {tokens tokens' : List (Token × Span)}

theorem ReadAs.imp (readAs : ReadAs table means tokens) (weaker : ∀ its, means its → means' its) :
    ReadAs table means' tokens := by
  refine ⟨readAs.nonempty, readAs.whole, fun depth rest deep => ?_⟩
  obtain ⟨its, here, repeats⟩ := readAs.items depth rest deep
  exact ⟨its, weaker its here, repeats⟩

theorem ReadAs.single (nonempty : tokens ≠ [])
    (whole : ∀ token ∈ tokens, token.1 ≠ Token.clauseEnd)
    (reads : ∀ depth rest, tokens.length ≤ depth →
      ∃ item, means [item] ∧ (itemReader table depth).Reads tokens rest item) :
    ReadAs table means tokens := by
  refine ⟨nonempty, whole, fun depth rest deep => ?_⟩
  obtain ⟨item, here, reads⟩ := reads depth rest deep
  exact ⟨[item], here, .single nonempty reads⟩

/-- Items with a mark between them that is an item as well. -/
theorem ReadAs.joined {mark : Token} {item : Span → Item} (first : ReadAs table means tokens)
    (second : ReadAs table means' tokens') (notEnd : mark ≠ .clauseEnd)
    (reads : ∀ depth span rest, (itemReader table depth).Reads [(mark, span)] rest (item span))
    (span : Span) :
    ReadAs table (fun its => ∃ front span back, its = front ++ item span :: back ∧ means front ∧
      means' back) (tokens ++ (mark, span) :: tokens') := by
  refine ⟨List.append_ne_nil_of_right_ne_nil _ (List.cons_ne_nil _ _),
    List.forall_mem_append.mpr ⟨first.whole, List.forall_mem_cons.mpr ⟨notEnd, second.whole⟩⟩,
    fun depth rest deep => ?_⟩
  rw [List.length_append, List.length_cons] at deep
  obtain ⟨front, here, repeats⟩ := first.items depth ((mark, span) :: tokens' ++ rest) (by omega)
  obtain ⟨back, here', repeats'⟩ := second.items depth rest (by omega)
  exact ⟨_, ⟨front, span, back, rfl, here, here'⟩, repeats.append
    (.step (List.cons_ne_nil _ _) (reads depth span _) repeats')⟩

/-- Tokens that spell terms are read as the items of the terms. -/
theorem readAs_of_spells (table : OperatorTable) {ts : List Term} (spells : Spells ts tokens) :
    ReadAs table (Item.Sequence · ts) tokens := by
  induction spells with
  | @atom name span =>
      exact .single (List.cons_ne_nil _ _) (by simp) fun _ _ _ =>
        ⟨_, .last .name, reads_name name span⟩
  | @var name span =>
      exact .single (List.cons_ne_nil _ _) (by simp) fun _ _ _ =>
        ⟨_, .last (.operand rfl), reads_var name span⟩
  | @number value span =>
      exact .single (List.cons_ne_nil _ _) (by simp) fun _ _ _ =>
        ⟨_, .last (.operand rfl), reads_number value span⟩
  | @negative value minus digits adjacent =>
      exact ⟨List.cons_ne_nil _ _, by simp, fun _ _ _ =>
        ⟨_, .last (.negative rfl adjacent), .step (List.cons_ne_nil _ _) (reads_name "-" minus)
          (.single (List.cons_ne_nil _ _) (reads_number value digits))⟩⟩
  | @constant name opening closing =>
      refine .single (List.cons_ne_nil _ _) (by simp) fun depth rest _ => ?_
      have empty : ((items table depth).check (Priority.arguments table)).optional.Reads []
          ((.closeRound, closing) :: rest) none :=
        reads_optional_none (rejects_items closing).check
      have operand := reads_compound name opening empty
      exact ⟨_, .last (.operand (plain_compound _ [])), operand⟩
  | @compound name args inner opening closing inside ih =>
      refine .single (List.cons_ne_nil _ _) ?_ fun depth rest deep => ?_
      · exact List.forall_mem_append.mpr ⟨List.forall_mem_cons.mpr ⟨nofun, ih.whole⟩, by simp⟩
      rw [List.length_append, List.length_cons, List.length_singleton] at deep
      obtain ⟨depth, rfl⟩ : ∃ k, depth = k + 1 := ⟨depth - 1, by omega⟩
      obtain ⟨its, sequence, repeats⟩ := ih.items depth ((.closeRound, closing) :: rest) (by omega)
      obtain ⟨args, rfl, resolved⟩ := sequence.arguments
      have reads := (reads_items sequence.ne_nil repeats (rejects_closeRound closing)).check
        (resolved table)
      have operand := reads_compound name opening (reads_optional reads)
      exact ⟨_, .last (.operand (plain_compound _ args)), operand⟩
  | @more t ts first others comma spells spells' ih ih' =>
      have both := ih.joined ih' Token.noConfusion (fun _ span _ => reads_comma span) comma
      apply both.imp
      rintro _ ⟨front, span, back, rfl, single, sequence⟩
      exact .more single.single sequence

/-! ## Clauses -/

theorem splitClauses_single {tokens : List (Token × Span)} (span : Span)
    (inside : ∀ token ∈ tokens, token.1 ≠ Token.clauseEnd) :
    splitClauses (tokens ++ [(Token.clauseEnd, span)]) =
      [tokens ++ [(Token.clauseEnd, span)]] := by
  induction tokens with
  | nil => rfl
  | cons token tokens ih =>
      obtain ⟨here, others⟩ := List.forall_mem_cons.mp inside
      rw [List.cons_append, splitClauses, if_neg here, ih others]

/-- A clause is the term that is read in front of its full stop. -/
theorem ofTokens_of_reads {tokens : List (Token × Span)} {span : Span} {s : SourceTerm}
    (term : (wholeTerm table
      (items table ((tokens ++ [(Token.clauseEnd, span)]).length + 1))).Reads tokens
        [(.clauseEnd, span)] s) (finish : Nat) :
    ofTokens table finish (tokens ++ [(.clauseEnd, span)]) = .ok s := by
  have reads := ((term.first reads_exactly).first reads_finished).labelled "term"
  rw [List.append_nil] at reads
  obtain ⟨passed, ok⟩ := reads.exists_ok 0 finish
  rw [List.append_nil] at ok
  unfold ofTokens clause
  rw [ok]

/-- A source is read as a term if its tokens are, up to the full stop. -/
theorem readOne_of_readAs {source : List Char} {span : Span} {t : Term}
    (tokenized : tokenize source = .ok (tokens ++ [(.clauseEnd, span)]))
    (readAs : ReadAs table (Item.Sequence · [t]) tokens) :
    ∃ s : SourceTerm, readOne table source = .ok s ∧ s.plain = t := by
  obtain ⟨its, sequence, repeats⟩ := readAs.items (tokens ++ [(Token.clauseEnd, span)]).length
    [(.clauseEnd, span)] (by simp)
  obtain ⟨s, plain, resolved⟩ := sequence.single.resolve
  have term : (wholeTerm table (items table _)).Reads tokens [(.clauseEnd, span)] s :=
    (reads_items sequence.ne_nil repeats (rejects_clauseEnd span)).check
      (resolved table maxPriority)
  refine ⟨s, ?_, plain⟩
  have clauses : readAll table source = [.ok s] := by
    unfold readAll
    rw [tokenized]
    dsimp only
    rw [splitClauses_single span readAs.whole, List.map_singleton, ofTokens_of_reads term]
  unfold readOne
  rw [clauses]

/-- Whatever operators there are, a term is read back from its text. -/
theorem readOne_text (table : OperatorTable) (t : Term) (legible : t.Legible) :
    ∃ s : SourceTerm, readOne table (t.render ++ " .").toList = .ok s ∧ s.plain = t := by
  obtain ⟨tokens, span, spells, tokenized⟩ := Lexer.tokenize_text legible
  have source : (t.render ++ " .").toList = TermOf.text t ++ [' ', '.'] := by
    rw [String.toList_append, Term.render, String.toList_ofList]
    rfl
  rw [source]
  exact readOne_of_readAs tokenized (readAs_of_spells table spells)

/-- The text is `+('a b', -1.5, _x)`, of a functor that is an operator, a name in quotes, a negative
number and a variable. -/
theorem readOne_text_mixed :
    let t : Term := .compound "+" [.atom "a b", .number ⟨-15, 1⟩, .var "_x"]
    t.Legible ∧ t.render = "+('a b', -1.5, _x)" ∧
      ∃ s : SourceTerm, readOne .standard (t.render ++ " .").toList = .ok s ∧ s.plain = t := by
  intro t
  have legible : t.Legible := by
    apply Term.Legible.compound (by decide)
    simp only [List.mem_cons, List.not_mem_nil, or_false, forall_eq_or_imp, forall_eq]
    refine ⟨.atom (by decide), .number ?_, ?_⟩
    · exact ⟨['1'], ['5'], ⟨15, 1⟩, by decide, by decide, by decide, .inr rfl⟩
    · exact .var (by decide : _ = ['_', 'x']) (by decide) (by decide)
  exact ⟨legible, by decide, readOne_text .standard t legible⟩

end Clause

end TermMachine
