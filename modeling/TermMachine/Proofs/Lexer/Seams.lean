import TermMachine.Proofs.Lexer.Lines

/-! # Sources one behind the other

A source that ends with a line feed behind the end of a clause can have any other behind it. The
tokens of both are the tokens of the one and then the tokens of the other, further on
(`tokenize_append`). All that is opened in the first source is closed in it, because otherwise it
would not consist of tokens or would not end with that one.

The exception are names that start like a comment. They are names only as long as nothing behind
them closes the comment.
-/

namespace TermMachine

namespace Lexer

open Reader

variable {d : Nat} {more : List (Char × Span)} {input rest : Input Char}

/-! ## Tokens -/

theorem settled_lexeme (lined : Lined more input) (occupied : Occupied more input)
    (closed : (lexeme input).result?.isSome = true ∨ more = []) :
    Settled d more lexeme input := by
  have quoted : (quotedName input).result?.isSome = true ∨
      ((exactly '\'') input).result? = none ∨ more = [] := by
    rcases closed with found | nothing
    · obtain ⟨items, stop, finish⟩ := input
      cases opened : ((exactly '\'') ⟨items, stop, finish⟩).result? with
      | none => exact .inr (.inl rfl)
      | some r =>
          obtain ⟨read, took, span, rfl⟩ := ensures_exactly _ r.1 r.2 opened
          obtain rfl : items = ('\'', span) :: r.2.items := took.items
          cases unclosed : (quotedName ⟨('\'', span) :: r.2.items, stop, finish⟩).result? with
          | none => rw [result?_lexeme_quote unclosed] at found; cases found
          | some _ => exact .inl rfl
    · exact .inr (.inr nothing)
  apply settled_choice (settled_clauseEnd lined)
  simp only [List.forall_mem_cons]
  exact ⟨settled_number lined, settled_var lined, settled_name lined occupied quoted,
    settled_punctuation lined, nofun⟩

theorem result?_token (input : Input Char) : (token input).result? =
    (lexeme input).result?.map fun r => ((r.1, input.spanTo r.2), r.2) :=
  result?_mapSpan _ lexeme input

/-- A token of the input stands further on in the longer source. -/
theorem result?_token_embed (lined : Lined more input) (occupied : Occupied more input)
    (closed : (token input).result?.isSome = true ∨ more = []) (finish : Nat) :
    (token (input.embed d more finish)).result? = (token input).result?.map fun r =>
      (r.1.map id (Span.shift d), r.2.embed d more finish) := by
  rw [result?_token, Option.isSome_map] at closed
  rw [result?_token, result?_token, settled_lexeme lined occupied closed]
  cases found : (lexeme input).result? with
  | none => rfl
  | some r =>
      obtain ⟨read, took, nonempty⟩ := consumes_lexeme input r.1 r.2 found
      have some : input.items ≠ [] := by
        rw [took.items]
        exact List.append_ne_nil_of_left_ne_nil nonempty _
      simp only [Option.map_some, spanTo_embed some]
      rfl

/-- No closing bracket stands where layout has come to the end or to a comment. -/
theorem result?_exactly_of_not_calm {c : Char} (slash : '/' ≠ c) (restless : ¬Calm more rest) :
    ((exactly c) rest).result? = none := by
  obtain ⟨items, stop, finish⟩ := rest
  cases items with
  | nil => rfl
  | cons item items =>
      have opens : Opens ⟨item :: items, stop, finish⟩ := by
        by_contra notOpen
        exact restless (.inr ⟨List.cons_ne_nil _ _, notOpen⟩)
      obtain ⟨_, text⟩ := opens
      have first : '/' = item.1 := (List.cons.inj text).1
      exact rejects_exactly (first ▸ slash) stop finish

/-- Where a token is read that does not end a clause, the layout behind an opening bracket is
followed by something. -/
theorem occupied_of_token {middle : Input Char} {value : Token × Span}
    (read : (token input).result? = some (value, middle))
    (calm : value.1 ≠ .clauseEnd →
      ∀ rest, (layout middle).result? = some ((), rest) → Calm more rest) :
    Occupied more input := by
  intro pair mem c inside rest opened skipped
  by_contra restless
  obtain ⟨items, stop, finish⟩ := input
  obtain ⟨front, took, span, rfl⟩ := ensures_exactly _ c inside opened
  obtain rfl : items = (pair.1, span) :: inside.items := took.items
  have unclosed (text : String) : (emptyBrackets pair.1 pair.2 text
      ⟨(pair.1, span) :: inside.items, stop, finish⟩).result? = none := by
    have slash : '/' ≠ pair.2 := by
      simp only [pairs, List.mem_cons, List.not_mem_nil, or_false] at mem
      rcases mem with rfl | rfl <;> decide
    unfold emptyBrackets
    rw [result?_map, result?_pair, result?_pair, opened, Option.bind_some, skipped,
      Option.map_some, Option.bind_some, result?_exactly_of_not_calm slash restless]
    rfl
  rw [result?_token, result?_lexeme_bracket mem unclosed] at read
  -- The bracket is the token, and the layout behind it is that behind the token.
  obtain ⟨items', stop', finish'⟩ := inside
  simp only [exactly, item, beq_self_eq_true, if_true, Reply.result?_ok, Option.some.injEq,
    Prod.mk.injEq, Input.mk.injEq, true_and] at opened
  obtain ⟨rfl, rfl, rfl⟩ := opened
  obtain ⟨bracket, same⟩ : value.1 ≠ .clauseEnd ∧ middle = ⟨items', span.stop, finish⟩ := by
    simp only [pairs, List.mem_cons, List.not_mem_nil, or_false] at mem
    rcases mem with rfl | rfl <;>
    · cases read
      exact ⟨Token.noConfusion, rfl⟩
  rw [same] at calm
  exact restless (calm bracket rest skipped)

theorem eq_of_tokens_nil
    (ok : ((token.first layout).many input).result? = some ([], rest)) : rest = input := by
  rw [consumes_tokenFirst.result?_many] at ok
  split at ok
  · cases ok
    rfl
  · obtain ⟨_, _, same⟩ := Option.map_eq_some_iff.mp ok
    cases same

theorem exists_of_tokens_cons {t : Token × Span} {tokens : List (Token × Span)}
    (ok : ((token.first layout).many input).result? = some (t :: tokens, rest)) :
    ∃ middle next, (token input).result? = some (t, middle) ∧
      (layout middle).result? = some ((), next) ∧
      ((token.first layout).many next).result? = some (tokens, rest) := by
  rw [consumes_tokenFirst.result?_many] at ok
  split at ok
  · cases ok
  · next first found =>
      obtain ⟨_, behind, same⟩ := Option.map_eq_some_iff.mp ok
      cases same
      rw [result?_first, Option.bind_eq_some_iff] at found
      obtain ⟨⟨t, middle⟩, read, found⟩ := found
      obtain ⟨⟨_, next⟩, skipped, same⟩ := Option.map_eq_some_iff.mp found
      cases same
      exact ⟨middle, next, read, skipped, behind⟩

/-- A token that does not start like a comment is something that layout stops in front of. -/
theorem calm_of_tokens_cons {t : Token × Span} {tokens : List (Token × Span)}
    (ok : ((token.first layout).many input).result? = some (t :: tokens, rest))
    (bare : ∀ r, (token input).result? = some r → r.1 = t → more = [] ∨ ¬Opens input) :
    Calm more input := by
  obtain ⟨middle, _, read, _⟩ := exists_of_tokens_cons ok
  obtain ⟨_, took, nonempty⟩ := consumes_token input t middle read
  refine (bare (t, middle) read rfl).imp_right fun notOpen => ⟨?_, notOpen⟩
  rw [took.items]
  exact List.append_ne_nil_of_left_ne_nil nonempty _

/-- The tokens of an input up to its end are the same in the longer source, and what comes behind it
comes behind them. -/
theorem result?_tokens_across (lined : Lined more input) {tokens : List (Token × Span)}
    (many : ((token.first layout).many input).result? = some (tokens, rest))
    (all : rest.items = [])
    (last : more = [] ∨ tokens.getLast?.map Prod.fst = some .clauseEnd)
    (bare : ∀ input' r, input'.items <:+ input.items → (token input').result? = some r →
      r.1 ∈ tokens → more = [] ∨ ¬Opens input') (finish : Nat) :
    ((token.first layout).many (input.embed d more finish)).result? =
      ((layout.second (token.first layout).many)
        ⟨more, rest.previousStop + d, finish⟩).result?.map fun r =>
          (tokens.map (Prod.map id (Span.shift d)) ++ r.1, r.2) := by
  induction tokens generalizing input with
  | nil =>
      obtain rfl := eq_of_tokens_nil many
      obtain rfl : more = [] := last.resolve_right nofun
      obtain ⟨items, stop, finish'⟩ := rest
      subst all
      rfl
  | cons t tokens ih =>
      obtain ⟨middle, next, read, skipped, behind⟩ := exists_of_tokens_cons many
      obtain ⟨_, took, _⟩ := consumes_token input t middle read
      obtain ⟨_, took', _⟩ := takes_layout middle _ next skipped
      have suffix := took'.suffix.trans took.suffix
      -- Where another token follows, the layout between them has come to its end.
      have calm (others : tokens ≠ []) : Calm more next := by
        obtain ⟨t', tokens, rfl⟩ := List.exists_cons_of_ne_nil others
        refine calm_of_tokens_cons behind fun r read' same => bare next r suffix read' ?_
        rw [same]
        exact List.mem_cons_of_mem t List.mem_cons_self
      have occupied : Occupied more input := by
        refine occupied_of_token read fun inside next' skipped' => ?_
        obtain rfl : next = next' := by
          rw [skipped] at skipped'
          exact (Prod.mk.inj (Option.some.inj skipped')).2
        rcases last with nothing | last
        · exact .inl nothing
        · refine calm fun none => inside ?_
          rw [none] at last
          exact Option.some.inj last
      have embedded := result?_token_embed (d := d) lined occupied (.inl (by rw [read]; rfl)) finish
      rw [read, Option.map_some] at embedded
      rw [consumes_tokenFirst.result?_many, result?_first, embedded, Option.bind_some]
      cases tokens with
      | nil =>
          obtain rfl := eq_of_tokens_nil behind
          have lined' : Lined more middle ∨ middle.items = [] := by
            by_cases none : middle.items = []
            · exact .inr none
            · exact .inl (lined.suffix took.suffix (.inl none))
          obtain ⟨front, ahead⟩ := exists_layout ⟨more, rest.previousStop + d, finish⟩
          rw [result?_layout_across lined' skipped all finish, result?_second, ahead]
          rfl
      | cons t' tokens =>
          have ample := (calm (List.cons_ne_nil _ _)).ample
          have lined' : Lined more middle :=
            lined.suffix took.suffix (ample_of_took took' ample)
          have settled : Settled d more layout middle := by
            refine settled_layout lined' fun next' skipped' => ?_
            rw [skipped] at skipped'
            cases skipped'
            exact calm (List.cons_ne_nil _ _)
          have others := ih (lined.suffix suffix ample) behind
            (last.imp_right fun last => by rwa [List.getLast?_cons_cons] at last)
            fun input' r suffix' read' mem =>
              bare input' r (suffix'.trans suffix) read' (List.mem_cons_of_mem t mem)
          rw [settled finish, skipped]
          dsimp only [Option.map_some]
          rw [others, Option.map_map]
          rfl

/-! ## Sources -/

theorem map_shift_locate (d offset : Nat) (cs : List Char) :
    (locate offset cs).map (Prod.map id (Span.shift d)) = locate (offset + d) cs := by
  induction cs generalizing offset with
  | nil => rfl
  | cons c cs ih =>
      rw [locate, List.map_cons, ih, locate, Nat.add_right_comm]
      simp [Span.shift, Nat.add_right_comm]

/-- A token opens a comment exactly if the source does where the token starts. -/
theorem opens_iff {source : List Char} {r : (Token × Span) × Input Char}
    (suffix : input.items <:+ locate 0 source) (read : (token input).result? = some r) :
    Opens input ↔ ['/', '*'] <+: source.drop r.1.2.start := by
  obtain ⟨t, middle⟩ := r
  obtain ⟨_, took, nonempty⟩ := consumes_token input t middle read
  have some : input.items ≠ [] := by
    rw [took.items]
    exact List.append_ne_nil_of_left_ne_nil nonempty _
  have items := List.suffix_iff_eq_drop.mp suffix
  rw [drop_locate, Nat.zero_add] at items
  rw [start_of_token read, offset_of_locate items some, Opens]
  nth_rewrite 1 [items]
  rw [map_fst_locate]

theorem tokenize_of_result? {source : List Char} {tokens : List (Token × Span)}
    (ok : (Lexer.tokens (.ofChars source)).result? = some (tokens, rest)) :
    tokenize source = .ok tokens := by
  unfold tokenize
  cases replied : Lexer.tokens (.ofChars source) with
  | failed e =>
      rw [replied] at ok
      cases ok
  | ok value rest passed =>
      rw [replied] at ok
      cases ok
      rfl

variable (more) in
/-- The tokens of a source are the same in a longer source, and what comes behind it comes behind
them. -/
theorem result?_source_across {source : List Char} {tokens : List (Token × Span)}
    (ok : tokenize source = .ok tokens) (lined : Lined more (.ofChars source))
    (last : more = [] ∨ tokens.getLast?.map Prod.fst = some .clauseEnd)
    (bare : ∀ token ∈ tokens, more = [] ∨ ¬['/', '*'] <+: source.drop token.2.start)
    (d finish : Nat) :
    ((layout.second (token.first layout).many)
      ((Input.ofChars source).embed d more finish)).result? =
      ((layout.second (token.first layout).many)
        ⟨more, source.length + d, finish⟩).result?.map fun r =>
          (tokens.map (Prod.map id (Span.shift d)) ++ r.1, r.2) := by
  obtain ⟨front, rest, skipped, many, all⟩ := exists_of_tokenize ok
  obtain ⟨before, took, _⟩ := takes_layout _ _ front skipped
  obtain ⟨behind, took', _⟩ := consumes_tokenFirst.takes.many front tokens rest many
  have stop : rest.previousStop = source.length := by
    have read := (took.trans took').items
    rw [all, List.append_nil] at read
    rw [(took.trans took').stop, ← read]
    exact (stopAfter_locate 0 source).trans (Nat.zero_add _)
  have bare' (input : Input Char) (r : (Token × Span) × Input Char)
      (suffix : input.items <:+ front.items) (read : (token input).result? = some r)
      (mem : r.1 ∈ tokens) : more = [] ∨ ¬Opens input :=
    (bare r.1 mem).imp_right (mt (opens_iff (suffix.trans took.suffix) read).mp)
  have calm : Calm more front := by
    rcases last with nothing | last
    · exact .inl nothing
    · cases tokens with
      | nil => cases last
      | cons t tokens =>
          exact calm_of_tokens_cons many fun r read same =>
            bare' front r (List.suffix_refl _) read (same ▸ List.mem_cons_self)
  have settled : Settled d more layout (.ofChars source) := by
    refine settled_layout lined fun front' skipped' => ?_
    rw [skipped] at skipped'
    cases skipped'
    exact calm
  have lined' : Lined more front := lined.suffix took.suffix calm.ample
  rw [result?_second, settled finish, skipped, Option.map_some, Option.bind_some,
    result?_tokens_across lined' many all last bare', stop]

/-- The tokens of a source that ends with the end of a clause and a line feed are followed by those
of whatever comes behind it, unless one of them starts like a comment. -/
theorem tokenize_append {source source' : List Char} {tokens tokens' : List (Token × Span)}
    (ok : tokenize source = .ok tokens) (ok' : tokenize source' = .ok tokens')
    (last : tokens.getLast?.map Prod.fst = some .clauseEnd)
    (newline : source.getLast? = some '\n')
    (bare : ∀ token ∈ tokens, ¬['/', '*'] <+: source.drop token.2.start) :
    tokenize (source ++ source') =
      .ok (tokens ++ tokens'.map (Prod.map id (Span.shift source.length))) := by
  have lined : Lined (locate source.length source') (.ofChars source) := by
    refine .inr ?_
    rw [← newline]
    show (locate 0 source).getLast?.map Prod.fst = _
    rw [← List.getLast?_map, map_fst_locate]
  let n := source.length
  let finish := (source ++ source').length
  have first := result?_source_across (locate n source') ok lined (.inr last)
    (fun t mem => .inr (bare t mem)) 0 finish
  have second := result?_source_across [] ok' (.inl rfl) (.inl rfl) (fun _ _ => .inl rfl) n finish
  have whole : (Input.ofChars source).embed 0 (locate n source') finish =
      .ofChars (source ++ source') := by
    simp only [Input.embed, Input.ofChars, map_shift_locate, locate_append, Nat.zero_add, n, finish]
  have behind : (Input.ofChars source').embed n [] finish = ⟨locate n source', n + 0, finish⟩ := by
    simp only [Input.embed, Input.ofChars, map_shift_locate, List.append_nil, Nat.zero_add,
      Nat.add_zero]
  have nothing : ((layout.second (token.first layout).many)
      ⟨[], source'.length + n, finish⟩).result? = some ([], ⟨[], source'.length + n, finish⟩) := rfl
  have same : tokens.map (Prod.map id (Span.shift 0)) = tokens := by
    have zero : Span.shift 0 = id := rfl
    rw [zero, Prod.map_id, List.map_id]
  rw [behind, nothing, Option.map_some, List.append_nil] at second
  rw [whole, second, Option.map_some, same] at first
  apply tokenize_of_result?
  unfold Lexer.tokens
  rw [result?_first, first]
  rfl

end Lexer

end TermMachine
