import TermMachine.Proofs.Lexer.Seams

/-! # What the tokens of a source leave out

The stretches of the tokens follow one another inside the source, and all that is between them is
layout that has come to its end: white space, comments up to the end of their line and comments that
are closed (`tokenize_partition`). The end of a clause has white space or a comment in its stretch,
unless it is the end of the source too.

What a comment to the end of the line or the end of a clause is depends on what stands behind it, so
`Layout` and `FullStop` are told of that too.
-/

namespace TermMachine

namespace Lexer

open Reader

/-! ## Layout -/

/-- A comment to the end of its line, where `rest` stands behind it. -/
inductive LineComment (rest : List Char) : List Char → Prop
  | intro {text : List Char} (inside : '\n' ∉ text) (ended : ∀ c ∈ rest.head?, c = '\n') :
      LineComment rest ('%' :: text)

/-- A piece of layout that is complete, where `rest` stands behind it. -/
inductive Gap (rest : List Char) : List Char → Prop
  | blank {c : Char} (blank : Text.isBlank c = true) : Gap rest [c]
  | line {comment : List Char} (line : LineComment rest comment) : Gap rest comment
  /-- A comment that is closed, and was not so before. -/
  | block {text : List Char} (inside : ¬['*', '/'] <:+: text) :
      Gap rest ('/' :: '*' :: (text ++ ['*', '/']))

/-- Layout that is complete, where `rest` stands behind it. -/
inductive Layout (rest : List Char) : List Char → Prop
  | nil : Layout rest []
  | cons {piece others : List Char} (first : Gap (others ++ rest) piece)
      (more : Layout rest others) : Layout rest (piece ++ others)

/-- The full stop at the end of a clause with what it takes along, where `rest` stands behind it. -/
inductive FullStop (rest : List Char) : List Char → Prop
  | blank {c : Char} (blank : Text.isBlank c = true) : FullStop rest ['.', c]
  | line {comment : List Char} (line : LineComment rest comment) : FullStop rest ('.' :: comment)
  | finish (finish : rest = []) : FullStop rest ['.']

theorem leaves_blank : blank.Leaves fun read _ _ =>
    ∃ c, Text.isBlank c = true ∧ read.map Prod.fst = [c] := by
  refine (ensures_item.map _).leaves.imp ?_
  rintro read _ _ ⟨_, ⟨c, span, rfl, found⟩, _⟩
  have accepted : Text.isBlank c = true := by
    by_contra refused
    simp [refused] at found
  exact ⟨c, accepted, rfl⟩

theorem leaves_lineComment : lineComment.Leaves fun read rest _ =>
    LineComment (rest.map Prod.fst) (read.map Prod.fst) := by
  have percent : (exactly '%').Ensures _ := ensures_exactly
  refine ((percent.leaves.pair (leaves_many_satisfying (· != '\n'))).map _).imp ?_
  rintro _ rest _ ⟨_, ⟨_, text, rfl, ⟨span, rfl⟩, all, stops⟩, _⟩
  show LineComment _ ('%' :: text.map Prod.fst)
  refine .intro ?_ ?_
  · intro mem
    obtain ⟨item, inside, same⟩ := List.mem_map.mp mem
    simpa [same] using all item inside
  · intro c mem
    rw [List.head?_map] at mem
    obtain ⟨item, first, rfl⟩ := Option.map_eq_some_iff.mp mem
    simpa using stops item first

/-- A comment is closed by the first star with a slash behind it. -/
theorem leaves_blockCommentEnd : (skipTo ((exactly '*').pair (exactly '/'))).Leaves fun read _ _ =>
    ∃ text, ¬['*', '/'] <:+: text ∧ read.map Prod.fst = text ++ ['*', '/'] := by
  rintro ⟨items, stop, finish⟩ value rest ok
  induction items generalizing stop with
  | nil =>
      rw [result?_skipTo_nil] at ok
      cases ok
  | cons item items ih =>
      rw [result?_skipTo_cons, Option.or_eq_some_iff] at ok
      rcases ok with here | ⟨further, later⟩
      · have closing : ((exactly '*').pair (exactly '/')).Ensures _ :=
          ensures_exactly.pair ensures_exactly
        obtain ⟨read, took, _, _, rfl, ⟨span, rfl⟩, ⟨span', rfl⟩⟩ := closing _ value rest here
        exact ⟨_, took, [], by simp, rfl⟩
      · obtain ⟨read, took, text, unclosed, chars⟩ := ih item.2.stop later
        obtain rfl : items = read ++ rest.items := took.items
        refine ⟨item :: read, ⟨rfl, took.stop⟩, item.1 :: text, ?_, by simp [chars]⟩
        intro closed
        rcases List.infix_cons_iff.mp closed with here | inside
        · -- The end of the comment would have been found one place further to the front.
          obtain ⟨c, span⟩ := item
          obtain ⟨more, same⟩ := here
          obtain ⟨rfl, rfl⟩ := List.cons.inj same
          cases read with
          | nil => cases chars
          | cons slash read =>
              obtain ⟨d, span'⟩ := slash
              obtain rfl : d = '/' := (List.cons.inj chars).1
              cases further
        · exact unclosed inside

theorem leaves_blockComment : blockComment.Leaves fun read _ _ =>
    ∃ text, ¬['*', '/'] <:+: text ∧
      read.map Prod.fst = '/' :: '*' :: (text ++ ['*', '/']) := by
  have opening : ((exactly '/').pair (exactly '*')).Ensures _ :=
    ensures_exactly.pair ensures_exactly
  refine ((opening.leaves.pair leaves_blockCommentEnd).map _).imp ?_
  rintro _ _ _ ⟨_, ⟨_, _, rfl, ⟨_, _, rfl, ⟨slash, rfl⟩, ⟨star, rfl⟩⟩, text, inside, chars⟩, _⟩
  exact ⟨text, inside, by simp [chars]⟩

theorem leaves_gap : gap.Leaves fun read rest _ =>
    Gap (rest.map Prod.fst) (read.map Prod.fst) := by
  apply leaves_choice
  · refine leaves_blank.imp ?_
    rintro read rest _ ⟨c, blank, chars⟩
    rw [chars]
    exact .blank blank
  · simp only [List.forall_mem_cons]
    refine ⟨leaves_lineComment.imp fun _ _ _ line => .line line, ?_, nofun⟩
    refine leaves_blockComment.imp ?_
    rintro read rest _ ⟨text, inside, chars⟩
    rw [chars]
    exact .block inside

theorem leaves_layout : layout.Leaves fun read rest _ =>
    Layout (rest.map Prod.fst) (read.map Prod.fst) := by
  intro input value rest ok
  induction size : input.items.length using Nat.strongRecOn generalizing input with
  | ind n ih =>
      rw [result?_layout] at ok
      cases found : (gap input).result? with
      | none =>
          rw [found] at ok
          cases ok
          exact ⟨[], .nil _, .nil⟩
      | some first =>
          rw [found] at ok
          obtain ⟨read, took, piece⟩ := leaves_gap input _ _ found
          obtain ⟨more, took', others⟩ := ih _ (size ▸ consumes_gap.length_lt found) _ ok rfl
          rw [took'.items, List.map_append] at piece
          refine ⟨read ++ more, took.trans took', ?_⟩
          show Layout _ ((read ++ more).map Prod.fst)
          rw [List.map_append]
          exact .cons piece others

/-! ## Tokens -/

theorem leaves_clauseEnd : clauseEnd.Leaves fun read rest _ =>
    FullStop (rest.map Prod.fst) (read.map Prod.fst) := by
  have behind : (choice blank [lineComment, finished]).Leaves fun read rest _ =>
      FullStop (rest.map Prod.fst) ('.' :: read.map Prod.fst) := by
    apply leaves_choice
    · refine leaves_blank.imp ?_
      rintro read rest _ ⟨c, blank, chars⟩
      rw [chars]
      exact .blank blank
    · simp only [List.forall_mem_cons]
      refine ⟨leaves_lineComment.imp fun _ _ _ line => .line line, ?_, nofun⟩
      refine leaves_finished.imp ?_
      rintro _ _ _ ⟨rfl, rfl⟩
      exact .finish rfl
  have stop : (exactly '.').Ensures _ := ensures_exactly
  refine (((stop.leaves.pair behind).map _).labelled _).imp ?_
  rintro _ _ _ ⟨_, ⟨_, _, rfl, ⟨span, rfl⟩, related⟩, _⟩
  exact related

/-- The reader reads some other token than the end of a clause. -/
def Continues (p : Reader Char Token) : Prop :=
  p.Ensures fun read value => read ≠ [] ∧ value ≠ .clauseEnd

theorem continues_map {α : Type} {p : Reader Char α} (consumes : p.Consumes) {f : α → Token}
    (other : ∀ a, f a ≠ .clauseEnd) : Continues (p.map f) := by
  refine (Ensures.map consumes f).imp ?_
  rintro _ _ ⟨a, nonempty, rfl⟩
  exact ⟨nonempty, other a⟩

theorem continues_number : Continues number := by
  refine ((Ensures.check consumes_decimal id _).imp ?_).labelled _
  rintro read value ⟨⟨whole, fraction?⟩, nonempty, made⟩
  refine ⟨nonempty, ?_⟩
  dsimp only at made
  split at made
  · cases made
    exact Token.noConfusion
  · cases made

theorem continues_var : Continues var :=
  Ensures.labelled (continues_map ((consumes_run _ _).map _) fun _ => Token.noConfusion) _

theorem continues_name : Continues name := by
  refine Ensures.labelled (continues_map (consumes_nameWord.pair consumes_item.takes.optional) ?_) _
  rintro ⟨text, bracket?⟩
  cases bracket? <;> exact Token.noConfusion

theorem continues_punctuation : Continues punctuation := by
  have mark (c : Char) {value : Token} (other : value ≠ .clauseEnd) :
      Continues ((exactly c).map fun _ => value) :=
    continues_map consumes_item fun _ => other
  apply ensures_choice (mark _ Token.noConfusion)
  simp only [List.forall_mem_cons]
  exact ⟨mark _ Token.noConfusion, mark _ Token.noConfusion, mark _ Token.noConfusion,
    mark _ Token.noConfusion, mark _ Token.noConfusion, mark _ Token.noConfusion,
    mark _ Token.noConfusion, nofun⟩

/-- A token takes one character at least. It covers the stretch of what it takes, and if it ends a
clause then that is a full stop. -/
theorem leaves_token : token.Leaves fun read rest value =>
    read ≠ [] ∧ value.2 = stretch read ∧
      (value.1 = .clauseEnd → FullStop (rest.map Prod.fst) (read.map Prod.fst)) := by
  have lexeme : lexeme.Leaves fun read rest value =>
      read ≠ [] ∧ (value = .clauseEnd → FullStop (rest.map Prod.fst) (read.map Prod.fst)) := by
    have other {p : Reader Char Token} (continues : Continues p) : p.Leaves fun read rest value =>
        read ≠ [] ∧ (value = .clauseEnd → FullStop (rest.map Prod.fst) (read.map Prod.fst)) :=
      continues.leaves.imp fun _ _ _ h => ⟨h.1, fun ends => absurd ends h.2⟩
    apply leaves_choice
    · refine leaves_clauseEnd.imp fun read rest _ stop => ⟨?_, fun _ => stop⟩
      rintro rfl
      cases stop
    · simp only [List.forall_mem_cons]
      exact ⟨other continues_number, other continues_var, other continues_name,
        other continues_punctuation, nofun⟩
  refine (lexeme.mapSpan (fun related => related.1) _).imp ?_
  rintro read rest _ ⟨value, ⟨nonempty, stop⟩, rfl⟩
  exact ⟨nonempty, rfl, stop⟩

/-! ## Sources -/

variable {source : List Char} {tokens : List (Token × Span)} {input rest : Input Char}
  {read : List (Char × Span)} {i : Nat}

/-- What is left of the source stands in it from `i` on. -/
def IsFrom (source : List Char) (i : Nat) (input : Input Char) : Prop :=
  input.items = locate i (source.drop i)

theorem IsFrom.map_fst (isFrom : IsFrom source i input) :
    input.items.map Prod.fst = source.drop i := by
  rw [isFrom, map_fst_locate]

theorem IsFrom.split (isFrom : IsFrom source i input) (took : Took input read rest) :
    locate i (source.drop i) = read ++ rest.items :=
  isFrom.symm.trans took.items

theorem IsFrom.behind (isFrom : IsFrom source i input) (took : Took input read rest) :
    IsFrom source (i + read.length) rest := by
  rw [IsFrom, ← List.drop_drop, ← drop_locate, isFrom.split took, List.drop_left]

theorem IsFrom.read_eq (isFrom : IsFrom source i input) (took : Took input read rest) :
    read = locate i (source.extract i (i + read.length)) := by
  rw [List.extract, Nat.add_sub_cancel_left, ← take_locate, isFrom.split took, List.take_left]

theorem IsFrom.chars (isFrom : IsFrom source i input) (took : Took input read rest) :
    read.map Prod.fst = source.extract i (i + read.length) := by
  nth_rewrite 1 [isFrom.read_eq took]
  exact map_fst_locate _ _

theorem IsFrom.stretch_eq (isFrom : IsFrom source i input) (took : Took input read rest)
    (nonempty : read ≠ []) : stretch read = ⟨i, i + read.length⟩ := by
  have chars := isFrom.chars took
  have some : source.extract i (i + read.length) ≠ [] := by
    rw [← chars]
    simpa using nonempty
  have length : (source.extract i (i + read.length)).length = read.length := by
    rw [← chars, List.length_map]
  nth_rewrite 1 [isFrom.read_eq took]
  rw [stretch_locate some, length]

theorem IsFrom.le_length (isFrom : IsFrom source i input) (took : Took input read rest)
    (nonempty : read ≠ []) : i + read.length ≤ source.length := by
  have lengths := congrArg List.length (isFrom.split took)
  have positive : 0 < read.length := List.length_pos_iff.mpr nonempty
  rw [length_locate, List.length_drop, List.length_append] at lengths
  omega

/-- From `i` on the source consists of the tokens, with nothing but layout in front of each of them
and behind the last one. -/
inductive Laid (source : List Char) : Nat → List (Token × Span) → Prop
  | nil {i : Nat} (layout : Layout [] (source.drop i)) : Laid source i []
  | cons {i : Nat} {token : Token} {span : Span} {tokens : List (Token × Span)}
      (ordered : i ≤ span.start) (nonempty : span.start < span.stop)
      (inside : span.stop ≤ source.length)
      (layout : Layout (source.drop span.start) (source.extract i span.start))
      (ended : token = .clauseEnd →
        FullStop (source.drop span.stop) (source.extract span.start span.stop))
      (others : Laid source span.stop tokens) : Laid source i ((token, span) :: tokens)

theorem laid_of_tokens {front : Input Char} (isFrom : IsFrom source i input)
    (skipped : (layout input).result? = some ((), front))
    (many : ((token.first layout).many front).result? = some (tokens, rest))
    (all : rest.items = []) : Laid source i tokens := by
  induction tokens generalizing i input front with
  | nil =>
      obtain ⟨gap, took, layout⟩ := leaves_layout input () front skipped
      obtain rfl := eq_of_tokens_nil many
      have text := isFrom.map_fst
      rw [took.items, all, List.append_nil] at text
      rw [all, text] at layout
      exact .nil layout
  | cons t tokens ih =>
      obtain ⟨gap, took, layout⟩ := leaves_layout input () front skipped
      obtain ⟨middle, next, read, skipped', others⟩ := exists_of_tokens_cons many
      obtain ⟨word, took', nonempty, stretch, stop⟩ := leaves_token front t middle read
      have isFront := isFrom.behind took
      have isMiddle := isFront.behind took'
      rw [isFront.map_fst, isFrom.chars took] at layout
      rw [isMiddle.map_fst, isFront.chars took'] at stop
      obtain ⟨token, span⟩ := t
      obtain rfl : span = ⟨i + gap.length, i + gap.length + word.length⟩ :=
        stretch.trans (isFront.stretch_eq took' nonempty)
      have positive : 0 < word.length := List.length_pos_iff.mpr nonempty
      refine .cons (Nat.le_add_right _ _) ?_ (isFront.le_length took' nonempty) layout stop
        (ih isMiddle skipped' others)
      show i + gap.length < i + gap.length + word.length
      omega

theorem Laid.bounds (laid : Laid source i tokens) : ∀ token ∈ tokens,
    i ≤ token.2.start ∧ token.2.start < token.2.stop ∧ token.2.stop ≤ source.length := by
  induction laid with
  | nil => exact nofun
  | cons ordered nonempty inside _ _ _ ih =>
      refine List.forall_mem_cons.mpr ⟨⟨ordered, nonempty, inside⟩, fun token mem => ?_⟩
      have bounds := ih token mem
      exact ⟨by omega, bounds.2⟩

theorem Laid.pairwise (laid : Laid source i tokens) :
    tokens.Pairwise fun t u => t.2.start < u.2.start ∧ t.2.stop ≤ u.2.start := by
  induction laid with
  | nil => exact .nil
  | cons _ nonempty _ _ _ others ih =>
      refine .cons (fun token mem => ?_) ih
      have behind := (others.bounds token mem).1
      exact ⟨Nat.lt_of_lt_of_le nonempty behind, behind⟩

theorem Laid.fullStop (laid : Laid source i tokens) : ∀ token ∈ tokens, token.1 = .clauseEnd →
    FullStop (source.drop token.2.stop) (source.extract token.2.start token.2.stop) := by
  induction laid with
  | nil => exact nofun
  | cons _ _ _ _ ended _ ih => exact List.forall_mem_cons.mpr ⟨ended, ih⟩

/-! ## What is not covered -/

def Covered (tokens : List (Token × Span)) (k : Nat) : Prop :=
  ∃ token ∈ tokens, token.2.start ≤ k ∧ k < token.2.stop

/-- Between `i` and `n`, a stretch that no token has a part of, and that cannot be made longer on
either side. -/
structure Uncovered (tokens : List (Token × Span)) (i n : Nat) (gap : Span) : Prop where
  nonempty : gap.start < gap.stop
  inside : gap.stop ≤ n
  free : ∀ k, gap.start ≤ k → k < gap.stop → ¬Covered tokens k
  front : gap.start = i ∨ Covered tokens (gap.start - 1)
  behind : gap.stop = n ∨ Covered tokens gap.stop

theorem covered_cons {token : Token} {span : Span} {k : Nat} :
    Covered ((token, span) :: tokens) k ↔
      (span.start ≤ k ∧ k < span.stop) ∨ Covered tokens k := by
  simp [Covered]

theorem Laid.le_of_covered (laid : Laid source i tokens) {k : Nat} (covered : Covered tokens k) :
    i ≤ k := by
  obtain ⟨token, mem, start, _⟩ := covered
  exact Nat.le_trans (laid.bounds token mem).1 start

/-- What is not covered stands in front of the first token or behind it. -/
theorem Uncovered.cases {token : Token} {span gap : Span} {n : Nat}
    (nonempty : span.start < span.stop) (ordered : i ≤ span.start) (inside : span.stop ≤ n)
    (later : ∀ k, Covered tokens k → span.stop ≤ k)
    (uncovered : Uncovered ((token, span) :: tokens) i n gap) :
    gap = ⟨i, span.start⟩ ∨ Uncovered tokens span.stop n gap := by
  obtain ⟨positive, within, free, front, behind⟩ := uncovered
  rw [covered_cons] at front behind
  have apart : gap.stop ≤ span.start ∨ span.stop ≤ gap.start := by
    by_contra! overlap
    refine free (max gap.start span.start) (by omega) (by omega) ?_
    exact covered_cons.mpr (.inl (by omega))
  rcases apart with before | beyond
  · have start : gap.start = i := by
      rcases front with same | head | tail
      · exact same
      · omega
      · have := later _ tail
        omega
    have stop : gap.stop = span.start := by
      rcases behind with same | head | tail
      · omega
      · omega
      · have := later _ tail
        omega
    exact .inl (Span.mk.injEq .. ▸ ⟨start, stop⟩)
  · refine .inr ⟨positive, within, fun k above below covered => ?_, ?_, ?_⟩
    · exact free k above below (covered_cons.mpr (.inr covered))
    · rcases front with same | head | tail
      · omega
      · exact .inl (by omega)
      · exact .inr tail
    · rcases behind with same | head | tail
      · exact .inl same
      · omega
      · exact .inr tail

/-- What the tokens do not cover is layout. -/
theorem Laid.layout (laid : Laid source i tokens) {gap : Span}
    (uncovered : Uncovered tokens i source.length gap) :
    Layout (source.drop gap.stop) (source.extract gap.start gap.stop) := by
  induction laid with
  | nil layout =>
      have start := uncovered.front.resolve_right (by simp [Covered])
      have stop := uncovered.behind.resolve_right (by simp [Covered])
      rw [start, stop, List.drop_length, List.extract, ← List.length_drop, List.take_length]
      exact layout
  | cons ordered nonempty inside layout _ others ih =>
      rcases uncovered.cases nonempty ordered inside fun _ => others.le_of_covered with rfl | behind
      · exact layout
      · exact ih behind

/-- The tokens of a source cover stretches of it that are not empty, follow each other and do not
overlap. Every stretch between them is layout that is complete, and the end of a clause is a full
stop with the white space or the comment behind it, unless the source stops there. -/
theorem tokenize_partition {source : List Char} {tokens : List (Token × Span)}
    (ok : tokenize source = .ok tokens) :
    (∀ token ∈ tokens, token.2.start < token.2.stop ∧ token.2.stop ≤ source.length) ∧
    (tokens.Pairwise fun t u => t.2.start < u.2.start ∧ t.2.stop ≤ u.2.start) ∧
    (∀ gap, Uncovered tokens 0 source.length gap →
      Layout (source.drop gap.stop) (source.extract gap.start gap.stop)) ∧
    ∀ token ∈ tokens, token.1 = .clauseEnd →
      FullStop (source.drop token.2.stop) (source.extract token.2.start token.2.stop) := by
  obtain ⟨front, rest, skipped, many, all⟩ := exists_of_tokenize ok
  have isFrom : IsFrom source 0 (.ofChars source) := rfl
  have laid : Laid source 0 tokens := laid_of_tokens isFrom skipped many all
  exact ⟨fun token mem => (laid.bounds token mem).2, laid.pairwise, fun _ => laid.layout,
    laid.fullStop⟩

/-- A comment up to the end of its line, one that is closed by its last star, and one that belongs
to the end of a clause. -/
theorem tokenize_partition_comments :
    let source :=
      ['a', '.', '\n', '%', 'x', '\n', '/', '*', 'y', '*', '*', '/', 'B', '.', '%', 'z']
    let tokens : List (Token × Span) :=
      [(.name "a", ⟨0, 1⟩), (.clauseEnd, ⟨1, 3⟩), (.var "B", ⟨12, 13⟩), (.clauseEnd, ⟨13, 16⟩)]
    tokenize source = .ok tokens ∧ Uncovered tokens 0 source.length ⟨3, 12⟩ ∧
      Layout ['B', '.', '%', 'z'] ['%', 'x', '\n', '/', '*', 'y', '*', '*', '/'] ∧
      FullStop ['%', 'x', '\n', '/', '*', 'y', '*', '*', '/', 'B', '.', '%', 'z'] ['.', '\n'] ∧
      FullStop [] ['.', '%', 'z'] := by
  intro source tokens
  have ok : tokenize source = .ok tokens := by decide +kernel
  obtain ⟨_, _, gaps, stops⟩ := tokenize_partition ok
  have uncovered : Uncovered tokens 0 source.length ⟨3, 12⟩ := by
    refine ⟨by decide, by decide, fun k (above : 3 ≤ k) (below : k < 12) => ?_, .inr ?_, .inr ?_⟩
    · simp [tokens, Covered]
      omega
    · simp [tokens, Covered]
    · simp [tokens, Covered]
  exact ⟨ok, uncovered, gaps _ uncovered, stops (.clauseEnd, ⟨1, 3⟩) (by simp [tokens]) rfl,
    stops (.clauseEnd, ⟨13, 16⟩) (by simp [tokens]) rfl⟩

end Lexer

end TermMachine
