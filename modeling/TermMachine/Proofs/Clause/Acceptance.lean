import TermMachine.Proofs.Clause.Grammar

/-! # The reader of clauses and the grammar

Every piece begins with a token of its own kind, and nothing that begins a piece can follow pieces.
So the reader never stops too early, and where a term cannot be made of the items in brackets the
brackets are left standing and nothing that is allowed there comes next.

`ofTokens_eq_ok_iff`: a clause is read exactly if it has a tree with a meaning, and is read as that.
-/

namespace TermMachine

namespace Clause

open Reader

variable {table : OperatorTable} {depth : Nat} {rest : List (Token × Span)}

/-! ## Trees are read -/

theorem rejects_closing (bracket : Bracket) (span : Span) :
    (itemReader table depth).Rejects ((bracket.closing, span) :: rest) := by
  cases bracket <;> exact fun _ _ => rfl

theorem reads_leaf (leaf : Leaf) (span : Span) :
    (itemReader table depth).Reads [(leaf.token, span)] rest (leaf.item span) := by
  cases leaf <;> exact fun _ _ => rfl

/-- What is read as an operand is read as an item, with the stretch it covers. -/
theorem reads_operand {token : Token} {opening closing : Span} {inside : List (Token × Span)}
    {last : Token} {t : SourceTerm}
    (reads : (choice (compound table (items table depth))
      [parenthesised table (items table depth), curly table (items table depth),
        list table (items table depth), var, number]).Reads
      ((token, opening) :: (inside ++ [(last, closing)])) rest t) :
    (itemReader table depth).Reads ((token, opening) :: (inside ++ [(last, closing)])) rest
      (.operand t ⟨opening.start, closing.stop⟩) := by
  have stop : stopAfter opening.stop (inside ++ [(last, closing)]) = closing.stop :=
    stopAfter_append _ _ _
  rw [← stop]
  exact reads_choice (reads.mapSpan (f := Item.operand))

theorem reads_between {α : Type} {p : Reader Token α} {value : α} (opening : Token)
    (first : Span) {closing : Token} {last : Span} {inside : List (Token × Span)}
    (reads : p.Reads inside ((closing, last) :: rest) value) :
    (between opening closing p).Reads ((opening, first) :: (inside ++ [(closing, last)])) rest
      value := by
  have opens : (exactly opening).Reads [(opening, first)] (inside ++ (closing, last) :: rest)
      opening := reads_exactly
  have closes : (exactly closing).Reads [(closing, last)] rest closing := reads_exactly
  exact (opens.second reads).first closes

theorem reads_bracketed {bracket : Bracket} {opening closing : Span}
    {inside : List (Token × Span)} {its : List Item} {t : SourceTerm} (nonempty : inside ≠ [])
    (reads : (items table depth).Reads inside ((bracket.closing, closing) :: rest) its)
    (makes : bracket.Makes table opening (stretch inside) closing its t) :
    (itemReader table depth).Reads
      ((bracket.opening, opening) :: (inside ++ [(bracket.closing, closing)])) rest
      (.operand t ⟨opening.start, closing.stop⟩) := by
  have stop : stopAfter opening.stop (inside ++ [(bracket.closing, closing)]) = closing.stop :=
    stopAfter_append _ _ _
  cases makes with
  | functor args =>
      have checked := reads.check_stretch nonempty (arguments_of_areArguments args)
      exact reads_compound _ opening (reads_optional checked)
  | round resolved =>
      have whole : (wholeTerm table (items table depth)).Reads inside _ t :=
        reads.check_stretch nonempty resolved
      refine reads_operand (reads_choice_of_rejects (fun _ _ => rfl) ?_)
      exact reads_choice (reads_between .openRound opening whole)
  | curly resolved =>
      have whole : (wholeTerm table (items table depth)).Reads inside _ _ :=
        reads.check_stretch nonempty resolved
      refine reads_operand (reads_choice_of_rejects (fun _ _ => rfl)
        (reads_choice_of_rejects (fun _ _ => rfl) (reads_choice ?_)))
      have named := (reads_between .openCurly opening whole).mapSpan
        (f := fun term span => (TermOf.compound ⟨curlyName, span⟩ [term] : SourceTerm))
      rwa [stop] at named
  | square list =>
      have whole := reads_between .openSquare opening reads
      refine reads_operand (reads_choice_of_rejects (fun _ _ => rfl)
        (reads_choice_of_rejects (fun _ _ => rfl) (reads_choice_of_rejects (fun _ _ => rfl)
          (reads_choice (Reads.labelled ?_ _)))))
      refine whole.check_stretch (List.cons_ne_nil _ _) ?_
      rw [stretch, stop]
      exact list_eq_ok_iff.mpr list

theorem Pieces.Mean.ne_nil {pieces : Pieces} {its : List Item} (mean : pieces.Mean table its) :
    its ≠ [] := by
  cases mean <;> exact List.cons_ne_nil _ _

mutual

/-- A piece with a meaning is read as its meaning, in front of anything. -/
theorem Piece.Means.reads {item : Item} {depth : Nat} {rest : List (Token × Span)} :
    (piece : Piece) → piece.Means table item → piece.tokens.length ≤ depth →
      (itemReader table depth).Reads piece.tokens rest item
  | .leaf leaf span, means, _ => by
      cases means
      exact reads_leaf leaf span
  | .empty text opening closing, means, _ => by
      cases means
      have nothing : ((items table depth).check (Priority.arguments table)).optional.Reads []
          ((.closeRound, closing) :: rest) none :=
        reads_optional_none (rejects_items closing).check
      have operand := reads_compound text opening nothing
      exact operand
  | .bracketed bracket opening inside closing, means, deep => by
      cases means with
      | bracketed mean makes =>
          rw [Piece.tokens, List.length_cons, List.length_append, List.length_singleton] at deep
          obtain ⟨depth, rfl⟩ : ∃ less, depth = less + 1 := ⟨depth - 1, by omega⟩
          have repeats : Repeats (itemReader table depth) ((bracket.closing, closing) :: rest)
              inside.tokens _ := Pieces.Mean.repeats inside mean (by omega)
          have reads := reads_items mean.ne_nil repeats (rejects_closing bracket closing)
          exact reads_bracketed inside.tokens_ne_nil reads makes

/-- Pieces with a meaning are read one after the other. -/
theorem Pieces.Mean.repeats {its : List Item} {depth : Nat} {rest : List (Token × Span)} :
    (pieces : Pieces) → pieces.Mean table its → pieces.tokens.length ≤ depth →
      Repeats (itemReader table depth) rest pieces.tokens its
  | .last piece, mean, deep => by
      cases mean with
      | last means => exact .single piece.tokens_ne_nil (Piece.Means.reads piece means deep)
  | .more piece others, mean, deep => by
      rw [Pieces.tokens, List.length_append] at deep
      cases mean with
      | more means mean =>
          exact .step piece.tokens_ne_nil (Piece.Means.reads piece means (by omega))
            (Pieces.Mean.repeats others mean (by omega))

end

/-! ## What is read has a tree -/

def IsPiece (table : OperatorTable) (read : List (Token × Span)) (item : Item) : Prop :=
  ∃ piece : Piece, read = piece.tokens ∧ piece.Means table item

def ArePieces (table : OperatorTable) (read : List (Token × Span)) (its : List Item) : Prop :=
  ∃ pieces : Pieces, read = pieces.tokens ∧ pieces.Mean table its

def IsOperand (table : OperatorTable) (read : List (Token × Span)) (t : SourceTerm) : Prop :=
  ∃ piece : Piece, read = piece.tokens ∧ piece.Means table (.operand t (stretch read))

theorem IsOperand.ne_nil {read : List (Token × Span)} {t : SourceTerm}
    (operand : IsOperand table read t) : read ≠ [] := by
  obtain ⟨piece, rfl, _⟩ := operand
  exact piece.tokens_ne_nil

theorem ArePieces.ne_nil {read : List (Token × Span)} {its : List Item}
    (pieces : ArePieces table read its) : read ≠ [] := by
  obtain ⟨pieces, rfl, _⟩ := pieces
  exact pieces.tokens_ne_nil

theorem stretch_bracketed (bracket : Bracket) (opening closing : Span)
    (inside : List (Token × Span)) :
    stretch ((bracket.opening, opening) :: (inside ++ [(bracket.closing, closing)])) =
      ⟨opening.start, closing.stop⟩ := by
  rw [stretch, stopAfter_append]
  rfl

/-- Pieces in brackets are an operand if the brackets can make a term of them. -/
theorem ArePieces.bracketed {opening closing : Span} {inside : List (Token × Span)}
    {its : List Item} {t : SourceTerm} (pieces : ArePieces table inside its) (bracket : Bracket)
    (makes : bracket.Makes table opening (stretch inside) closing its t) :
    IsOperand table ((bracket.opening, opening) :: (inside ++ [(bracket.closing, closing)])) t := by
  obtain ⟨pieces, rfl, mean⟩ := pieces
  rw [IsOperand, stretch_bracketed]
  exact ⟨.bracketed bracket opening pieces closing, rfl, .bracketed mean makes⟩

variable {inner : Reader Token (List Item)}

theorem ensures_wholeTerm (ensures : inner.Ensures (ArePieces table)) :
    (wholeTerm table inner).Ensures fun read t => ∃ its, ArePieces table read its ∧
      Priority.resolve table maxPriority its (stretch read) = .ok t :=
  ensures.check ArePieces.ne_nil _

theorem ensures_functor : functor.Ensures fun read n =>
    read = [(.functor n.text, n.span)] := by
  refine ensures_item.imp ?_
  rintro read n ⟨token, span, rfl, found⟩
  split at found
  · cases found
    rfl
  · cases found

theorem ensures_compound (ensures : inner.Ensures (ArePieces table)) :
    (compound table inner).Ensures (IsOperand table) := by
  have arguments := (ensures.check ArePieces.ne_nil (Priority.arguments table)).optional
  have whole := (ensures_functor.pair arguments).first (ensures_exactly (x := Token.closeRound))
  refine ((whole.map _).labelled "structure").imp ?_
  rintro read _ ⟨⟨n, args?⟩, ⟨_, _, _, rfl, ⟨_, inside, rfl, rfl, given⟩, closing, rfl⟩, rfl⟩
  rcases given with ⟨args, ⟨its, pieces, parts⟩, rfl⟩ | ⟨rfl, rfl⟩
  · exact pieces.bracketed (.functor n.text) (.functor (areArguments_of_arguments parts))
  · exact ⟨.empty n.text n.span closing, rfl, .empty⟩

theorem ensures_parenthesised (ensures : inner.Ensures (ArePieces table)) :
    (parenthesised table inner).Ensures (IsOperand table) := by
  refine ((ensures_wholeTerm ensures).between .openRound .closeRound).imp ?_
  rintro read t ⟨opening, inside, closing, rfl, its, pieces, resolved⟩
  exact pieces.bracketed .round (.round resolved)

theorem ensures_curly (ensures : inner.Ensures (ArePieces table)) :
    (curly table inner).Ensures (IsOperand table) := by
  have whole := (ensures_wholeTerm ensures).between .openCurly .closeCurly
  refine (whole.mapSpan ?_ _).imp ?_
  · rintro read t ⟨opening, inside, closing, rfl, _⟩
    exact List.cons_ne_nil _ _
  · rintro read _ ⟨t, ⟨opening, inside, closing, rfl, its, pieces, resolved⟩, rfl⟩
    have covers := stretch_bracketed .curly opening closing inside
    rw [Bracket.opening, Bracket.closing] at covers
    rw [covers]
    exact pieces.bracketed .curly (.curly resolved)

theorem ensures_list (ensures : inner.Ensures (ArePieces table)) :
    (list table inner).Ensures (IsOperand table) := by
  have whole := (ensures.between .openSquare .closeSquare).check ?_ (Priority.list table)
  · refine (whole.labelled "list").imp ?_
    rintro read t ⟨its, ⟨opening, inside, closing, rfl, pieces⟩, made⟩
    have covers := stretch_bracketed .square opening closing inside
    rw [Bracket.opening, Bracket.closing] at covers
    rw [covers] at made
    exact pieces.bracketed .square (.square (list_eq_ok_iff.mp made))
  · rintro read its ⟨opening, inside, closing, rfl, _⟩
    exact List.cons_ne_nil _ _

theorem ensures_var : var.Ensures (IsOperand table) := by
  refine (ensures_item.labelled "variable").imp ?_
  rintro read t ⟨token, span, rfl, found⟩
  split at found
  · next text =>
      cases found
      exact ⟨.leaf (.var text) span, rfl, .leaf⟩
  · cases found

theorem ensures_number : number.Ensures (IsOperand table) := by
  refine (ensures_item.labelled "number").imp ?_
  rintro read t ⟨token, span, rfl, found⟩
  split at found
  · next value =>
      cases found
      exact ⟨.leaf (.number value) span, rfl, .leaf⟩
  · cases found

theorem ensures_term (ensures : inner.Ensures (ArePieces table)) :
    (choice (compound table inner) [parenthesised table inner, curly table inner,
      list table inner, var, number]).Ensures (IsOperand table) := by
  apply ensures_choice (ensures_compound ensures)
  simp only [List.forall_mem_cons]
  exact ⟨ensures_parenthesised ensures, ensures_curly ensures, ensures_list ensures, ensures_var,
    ensures_number, nofun⟩

theorem ensures_operand (ensures : inner.Ensures (ArePieces table)) :
    (operand table inner).Ensures (IsPiece table) := by
  refine ((ensures_term ensures).mapSpan IsOperand.ne_nil Item.operand).imp ?_
  rintro read _ ⟨t, ⟨piece, tokens, means⟩, rfl⟩
  exact ⟨piece, tokens, means⟩

theorem ensures_name : name.Ensures (IsPiece table) := by
  refine ensures_item.imp ?_
  rintro read item ⟨token, span, rfl, found⟩
  split at found
  · next text =>
      cases found
      exact ⟨.leaf (.name text) span, rfl, .leaf⟩
  · cases found

/-- A mark is read as the item that it is by itself. -/
theorem ensures_mark (leaf : Leaf) {f : Token → Span → Item}
    (same : ∀ token span, f token span = leaf.item span) :
    ((exactly leaf.token).mapSpan f).Ensures (IsPiece table) := by
  refine (ensures_exactly.mapSpan ?_ f).imp ?_
  · rintro read _ ⟨span, rfl⟩
    exact List.cons_ne_nil _ _
  · rintro read _ ⟨token, ⟨span, rfl⟩, rfl⟩
    rw [same]
    exact ⟨.leaf leaf span, rfl, .leaf⟩

theorem ensures_itemReader (ensures : (items table depth).Ensures (ArePieces table)) :
    (itemReader table depth).Ensures (IsPiece table) := by
  apply ensures_choice (ensures_operand ensures)
  simp only [List.forall_mem_cons]
  exact ⟨ensures_name, ensures_mark .comma fun _ _ => rfl, ensures_mark .bar fun _ _ => rfl, nofun⟩

theorem arePieces_of_joined {read : List (Token × Span)} {its : List Item}
    (joined : Joined (IsPiece table) read its) (nonempty : its ≠ []) :
    ArePieces table read its := by
  induction joined with
  | nil => exact absurd rfl nonempty
  | cons first others ih =>
      obtain ⟨piece, rfl, means⟩ := first
      cases others with
      | nil => exact ⟨.last piece, by rw [List.append_nil]; rfl, .last means⟩
      | cons second others =>
          obtain ⟨pieces, same, mean⟩ := ih (List.cons_ne_nil _ _)
          exact ⟨.more piece pieces, by rw [same]; rfl, .more means mean⟩

/-- However deep the brackets, what has been read between them are pieces. -/
theorem ensures_items (depth : Nat) : (items table depth).Ensures (ArePieces table) := by
  induction depth with
  | zero => exact fun _ _ _ ok => nomatch ok
  | succ depth ih =>
      refine (ensures_itemReader ih).many1.imp ?_
      rintro read its ⟨joined, nonempty⟩
      exact arePieces_of_joined joined nonempty

/-! ## Clauses -/

theorem ofTokens_of_value {pieces : Pieces} {tokens : List (Token × Span)} {t : SourceTerm}
    (spell : pieces.Spell tokens) (value : pieces.Value table t) (finish : Nat) :
    ofTokens table finish tokens = .ok t := by
  obtain ⟨stop, rfl⟩ := spell
  obtain ⟨its, mean, resolved⟩ := value
  have repeats : Repeats (itemReader table (pieces.tokens ++ [(Token.clauseEnd, stop)]).length)
      [(.clauseEnd, stop)] pieces.tokens its := Pieces.Mean.repeats pieces mean (by simp)
  have reads := reads_items mean.ne_nil repeats (rejects_clauseEnd stop)
  have whole : (wholeTerm table (items table _)).Reads pieces.tokens [(.clauseEnd, stop)] t :=
    reads.check_stretch pieces.tokens_ne_nil resolved
  exact ofTokens_of_reads whole finish

/-- A clause is a whole term with a full stop behind it, and nothing else. -/
theorem exists_value_of_clause {tokens : List (Token × Span)} {t : SourceTerm} {finish : Nat}
    {rest : Input Token} (found : (clause table ⟨tokens, 0, finish⟩).result? = some (t, rest)) :
    ∃ pieces : Pieces, pieces.Spell tokens ∧ pieces.Value table t := by
  rw [clause, result?_labelled, result?_first, Option.bind_eq_some_iff] at found
  obtain ⟨⟨t, middle⟩, before, behind⟩ := found
  obtain ⟨_, nothing, same⟩ := Option.map_eq_some_iff.mp behind
  cases same
  have inner : (items table (tokens.length + 1)).Ensures (ArePieces table) := ensures_items _
  have term := ensures_wholeTerm inner
  have whole := term.first (ensures_exactly (x := Token.clauseEnd))
  obtain ⟨read, took, front, back, _, rfl, ⟨its, ⟨pieces, rfl, mean⟩, resolved⟩, stop, rfl⟩ :=
    whole _ t middle before
  have all := took.items
  rw [items_of_finished nothing, List.append_nil] at all
  exact ⟨pieces, ⟨stop, all⟩, its, mean, resolved⟩

theorem exists_value_of_ofTokens {tokens : List (Token × Span)} {t : SourceTerm} {finish : Nat}
    (ok : ofTokens table finish tokens = .ok t) :
    ∃ pieces : Pieces, pieces.Spell tokens ∧ pieces.Value table t := by
  unfold ofTokens at ok
  cases replied : clause table ⟨tokens, 0, finish⟩ with
  | ok value rest passed =>
      rw [replied] at ok
      cases ok
      exact exists_value_of_clause (congrArg Reply.result? replied)
  | failed e =>
      rw [replied] at ok
      cases ok

/-- Tokens are read as a term exactly if they are those of a tree that means the term, and that tree
is the only one with these tokens. -/
theorem ofTokens_eq_ok_iff (table : OperatorTable) (finish : Nat) (tokens : List (Token × Span))
    (t : SourceTerm) :
    (ofTokens table finish tokens = .ok t ↔
      ∃ pieces : Pieces, pieces.Spell tokens ∧ pieces.Value table t) ∧
    (∀ pieces pieces' : Pieces, pieces.Spell tokens → pieces'.Spell tokens → pieces = pieces') ∧
    ∀ (pieces : Pieces) (t' : SourceTerm), pieces.Value table t → pieces.Value table t' →
      t = t' := by
  refine ⟨⟨exists_value_of_ofTokens, ?_⟩, fun _ _ => Pieces.Spell.unique,
    fun _ _ => Pieces.Value.unique⟩
  rintro ⟨pieces, spell, value⟩
  exact ofTokens_of_value spell value finish

/-- The text is `f([X|Y]).`, with brackets in brackets. -/
theorem ofTokens_eq_ok_iff_nested :
    let tokens : List (Token × Span) :=
      [(.functor "f", ⟨0, 2⟩), (.openSquare, ⟨2, 3⟩), (.var "X", ⟨3, 4⟩), (.bar, ⟨4, 5⟩),
        (.var "Y", ⟨5, 6⟩), (.closeSquare, ⟨6, 7⟩), (.closeRound, ⟨7, 8⟩), (.clauseEnd, ⟨8, 9⟩)]
    ofTokens .standard 9 tokens = .ok (.compound ⟨"f", ⟨0, 2⟩⟩
      [listOf [.var ⟨"X", ⟨3, 4⟩⟩] (.var ⟨"Y", ⟨5, 6⟩⟩)]) := by
  intro tokens
  have single (s : SourceTerm) (span span' : Span) :
      AreArguments .standard span' [.operand s span] [s] :=
    .last (by simp [Item.isComma]) (Item.resolve_operand .standard _ s span span')
  have list : IsList .standard ⟨2, 7⟩ ([.operand (.var ⟨"X", ⟨3, 4⟩⟩) ⟨3, 4⟩] ++
      .bar ⟨4, 5⟩ :: [.operand (.var ⟨"Y", ⟨5, 6⟩⟩) ⟨5, 6⟩]) _ :=
    .barred (by simp [Item.isBar]) (single (.var ⟨"X", ⟨3, 4⟩⟩) ⟨3, 4⟩ _)
      (Item.resolve_operand .standard _ (.var ⟨"Y", ⟨5, 6⟩⟩) ⟨5, 6⟩ _)
  let parts : Pieces := .more (.leaf (.var "X") ⟨3, 4⟩)
    (.more (.leaf .bar ⟨4, 5⟩) (.last (.leaf (.var "Y") ⟨5, 6⟩)))
  have square : Piece.Means .standard (.bracketed .square ⟨2, 3⟩ parts ⟨6, 7⟩) _ :=
    .bracketed (.more .leaf (.more .leaf (.last .leaf))) (.square list)
  have applied : Piece.Means .standard (.bracketed (.functor "f") ⟨0, 2⟩
      (.last (.bracketed .square ⟨2, 3⟩ parts ⟨6, 7⟩)) ⟨7, 8⟩) _ :=
    .bracketed (.last square) (.functor (single _ _ _))
  exact (ofTokens_eq_ok_iff .standard 9 tokens _).1.mpr
    ⟨_, ⟨⟨8, 9⟩, rfl⟩, _, .last applied, Item.resolve_operand .standard _ _ _ _⟩

end Clause

end TermMachine
