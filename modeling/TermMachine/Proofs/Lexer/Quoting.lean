import TermMachine.Proofs.Lexer.Stretches
import TermMachine.Proofs.Spelling

/-! # When a written name is read as a name

A name is written so that it is read back, with one exception. A name of symbol characters is
written bare, and if it is a comment with more symbol characters behind it perhaps, then it is
skipped as one. The slash and the star in front do no harm as long as no star and slash follow.

`tokenize_nameText_iff`: apart from those, every written name is a token of its own, both in front
of a space and in front of an opening bracket.
-/

namespace TermMachine

/-- A comment made of symbol characters, and more of them behind it perhaps. -/
def Text.IsComment (name : List Char) : Prop :=
  name.all isSymbolChar = true ∧
    ∃ inside more, name = '/' :: '*' :: (inside ++ '*' :: '/' :: more)

namespace Lexer

open Reader

variable {offset : Nat} {rest items : List (Char × Span)} {name cs ds : List Char}

/-! ## Comments that are not closed -/

theorem rejects_blockCommentEnd (opened : ¬['*', '/'] <:+: items.map Prod.fst) :
    (skipTo ((exactly '*').pair (exactly '/'))).Rejects items := by
  apply rejects_skipTo
  rintro back ⟨front, rfl⟩
  rcases back with _ | ⟨⟨c, span⟩, back⟩
  · exact rejects_item_nil.pair
  by_cases star : c = '*'
  · subst star
    apply reads_exactly.rejects_pair
    rcases back with _ | ⟨⟨d, span'⟩, back⟩
    · exact rejects_item_nil
    · apply rejects_exactly
      rintro rfl
      apply opened
      rw [List.map_append]
      exact ⟨front.map Prod.fst, back.map Prod.fst, by simp⟩
  · exact (rejects_exactly star).pair

theorem solid_of_opened {slash star : Span} (opened : ¬['*', '/'] <:+: items.map Prod.fst) :
    Solid (('/', slash) :: ('*', star) :: items) := by
  apply rejects_choice ((rejects_satisfying (by decide)).map _)
  simp only [List.mem_cons, List.not_mem_nil, or_false, forall_eq_or_imp, forall_eq]
  have opening : ((exactly '/').pair (exactly '*')).Reads [('/', slash), ('*', star)] items
      ('/', '*') := reads_exactly.pair reads_exactly
  exact ⟨(rejects_exactly (by decide)).pair.map _,
    (opening.rejects_pair (rejects_blockCommentEnd opened)).map _⟩

/-- A slash behind a text is no part of what stands in the text. -/
theorem infix_of_append (none : '/' ∉ ds) (inside : ['*', '/'] <:+: cs ++ ds) :
    ['*', '/'] <:+: cs := by
  obtain ⟨front, back, split⟩ := inside
  rcases List.append_eq_append_iff.mp split with ⟨more, within, _⟩ | ⟨more, beyond, within⟩
  · exact ⟨front, more, within.symm⟩
  · rcases List.eq_nil_or_concat more with rfl | ⟨more, d, rfl⟩
    · exact ⟨front, [], by simpa using beyond⟩
    · have last : '/' = d := by simpa using congrArg List.getLast? beyond
      rw [within, ← last] at none
      exact absurd (by simp) none

theorem eq_of_opensComment (opens : Text.opensComment name = true) :
    name.all Text.isSymbolChar = true ∧ ∃ inside, name = '/' :: '*' :: inside := by
  rw [Text.opensComment, Bool.and_eq_true] at opens
  obtain ⟨symbolic, front⟩ := opens
  obtain ⟨inside, rfl⟩ := List.isPrefixOf_iff_prefix.mp front
  exact ⟨symbolic, inside, rfl⟩

/-- A name of symbol characters is written bare, unless it is a full stop. -/
theorem nameText_of_symbolic (symbolic : name.all Text.isSymbolChar = true) (nonempty : name ≠ [])
    (notStop : name ≠ ['.']) : Text.nameText name = name := by
  apply Text.nameText_of_bare
  cases name with
  | nil => exact absurd rfl nonempty
  | cons c cs =>
      have first := symbolic
      rw [List.all_cons, Bool.and_eq_true] at first
      obtain ⟨_, notLower, _⟩ := Text.of_isSymbolChar first.1
      rw [Text.needsQuotes, notLower, if_neg Bool.false_ne_true, symbolic, Bool.or_true,
        Bool.not_true, Bool.or_false]
      exact beq_eq_false_iff_ne.mpr notStop

/-- No layout is in front of a written name that is no comment, unless a comment is closed behind
it. -/
theorem solid_nameText_of_not_isComment (notComment : ¬Text.IsComment name) (none : '/' ∉ ds)
    (star : ds.head? ≠ some '*') :
    Solid (locate offset (Text.nameText name ++ ds)) := by
  by_cases opens : Text.opensComment name = true
  · obtain ⟨symbolic, inside, rfl⟩ := eq_of_opensComment opens
    rw [nameText_of_symbolic symbolic (List.cons_ne_nil _ _) (by simp)]
    apply solid_of_opened
    show ¬['*', '/'] <:+: (locate _ (inside ++ ds)).map Prod.fst
    rw [map_fst_locate]
    intro closed
    obtain ⟨before, behind, split⟩ := infix_of_append none closed
    refine notComment ⟨symbolic, before, behind, ?_⟩
    rw [← split, List.append_assoc]
    rfl
  · rw [Bool.not_eq_true] at opens
    rw [locate_append]
    apply solid_nameText opens
    cases ds with
    | nil => exact nofun
    | cons d ds => exact stops_cons (beq_eq_false_iff_ne.mpr fun same => star (by rw [same]; rfl))

/-! ## Comments that are closed -/

theorem skipTo_isSome {ι α : Type} [BEq ι] {p : Reader ι α} {finish : Nat}
    (front : List (ι × Span)) {back : List (ι × Span)}
    (found : ∀ stop, (p ⟨back, stop, finish⟩).result?.isSome = true) (stop : Nat) :
    (skipTo p ⟨front ++ back, stop, finish⟩).result?.isSome = true := by
  induction front generalizing stop with
  | nil =>
      cases back with
      | nil => rw [List.nil_append, result?_skipTo_nil, found]
      | cons item back => rw [List.nil_append, result?_skipTo_cons, Option.isSome_or, found]; rfl
  | cons item front ih =>
      rw [List.cons_append, result?_skipTo_cons, Option.isSome_or, ih, Bool.or_true]

theorem gap_isSome_of_isComment (comment : Text.IsComment name) (ds : List Char)
    (stop finish : Nat) :
    (gap ⟨locate offset (name ++ ds), stop, finish⟩).result?.isSome = true := by
  obtain ⟨_, inside, more, rfl⟩ := comment
  have closing (offset stop : Nat) : (((exactly '*').pair (exactly '/'))
      ⟨locate offset ('*' :: '/' :: (more ++ ds)), stop, finish⟩).result?.isSome = true := rfl
  have found := skipTo_isSome (locate (offset + 2) inside)
    (closing (offset + 2 + inside.length)) (offset + 2)
  rw [← locate_append] at found
  have opening : ((exactly '/').pair (exactly '*')).Reads (locate offset ['/', '*'])
      (locate (offset + ['/', '*'].length) (inside ++ '*' :: '/' :: (more ++ ds))) ('/', '*') :=
    reads_exactly.pair reads_exactly
  unfold gap
  rw [result?_choice, List.findSome?_isSome_iff]
  refine ⟨blockComment, by simp, ?_⟩
  have text : '/' :: '*' :: (inside ++ '*' :: '/' :: more) ++ ds =
      ['/', '*'] ++ (inside ++ '*' :: '/' :: (more ++ ds)) := by simp
  rw [text, locate_append, blockComment, result?_map, Option.isSome_map, result?_pair, opening,
    Option.bind_some, Option.isSome_map]
  exact found

/-- If there is layout in front of a source, then no token starts with the source. -/
theorem start_of_gap {source : List Char}
    (skips : (gap (.ofChars source)).result?.isSome = true) {tokens : List (Token × Span)}
    (ok : tokenize source = .ok tokens) : ∀ token ∈ tokens.head?, 0 < token.2.start := by
  obtain ⟨front, rest, skipped, many, _⟩ := exists_of_tokenize ok
  obtain ⟨⟨_, middle⟩, piece⟩ := Option.isSome_iff_exists.mp skips
  rw [result?_layout, piece] at skipped
  obtain ⟨read, took, nonempty⟩ := consumes_gap _ _ middle piece
  obtain ⟨read', took', _⟩ := takes_layout middle _ front skipped
  rw [consumes_tokenFirst.result?_many] at many
  split at many
  · cases many
    exact nofun
  · next first read? =>
      obtain ⟨_, _, same⟩ := Option.map_eq_some_iff.mp many
      cases same
      rintro _ ⟨⟩
      rw [result?_first, Option.bind_eq_some_iff] at read?
      obtain ⟨⟨value, behind⟩, read?, same⟩ := read?
      obtain ⟨_, _, rfl⟩ := Option.map_eq_some_iff.mp same
      obtain ⟨token, took'', nonempty'⟩ := consumes_token _ _ behind read?
      rw [start_of_token read?]
      have some : front.items ≠ [] := by
        rw [took''.items]
        exact List.append_ne_nil_of_left_ne_nil nonempty' _
      rw [offset_of_locate (Took.eq_locate (took.trans took')) some, List.length_append]
      have positive : 0 < read.length := List.length_pos_iff.mpr nonempty
      omega

/-- A written name in front of a space is read as a name, and in front of an opening bracket
together with that as the name of an application, in each case exactly if the name is no comment. -/
theorem tokenize_nameText_iff (n : String) :
    let text := Text.nameText n.toList
    (tokenize (text ++ [' ']) = .ok [(.name n, ⟨0, text.length⟩)] ↔ ¬Text.IsComment n.toList) ∧
      (tokenize (text ++ ['(', ' ']) = .ok [(.functor n, ⟨0, text.length + 1⟩)] ↔
        ¬Text.IsComment n.toList) := by
  intro text
  have skipped (comment : Text.IsComment n.toList) (ds : List Char) {token : Token} {stop : Nat}
      (ok : tokenize (text ++ ds) = .ok [(token, ⟨0, stop⟩)]) : False := by
    have bare : text = n.toList := by
      obtain ⟨symbolic, inside, more, name⟩ := comment
      apply nameText_of_symbolic symbolic <;> simp [name]
    rw [bare] at ok
    exact absurd (start_of_gap (gap_isSome_of_isComment comment ds _ _) ok _ rfl) (by simp)
  refine ⟨⟨fun ok comment => skipped comment _ ok, fun notComment => ?_⟩,
    ⟨fun ok comment => skipped comment _ ok, fun notComment => ?_⟩⟩
  · have solid : Solid (locate 0 (text ++ [' '])) :=
      solid_nameText_of_not_isComment notComment (by decide) (by decide)
    have closed : Closed (locate (0 + text.length) [' '] ++ []) :=
      closed_cons (by decide) (by decide) (by decide) (by decide)
    have lexes := lexes_token (Text.nameText_ne_nil n.toList) (reads_name n closed)
      (reads_layout_space (fun _ _ => rfl : Solid []))
    rw [Nat.zero_add] at lexes
    exact tokenize_eq solid lexes
  · have solid : Solid (locate 0 (text ++ ['(', ' '])) :=
      solid_nameText_of_not_isComment notComment (by decide) (by decide)
    have nonempty : text ++ ['('] ≠ [] :=
      List.append_ne_nil_of_right_ne_nil _ (List.cons_ne_nil _ _)
    have lexes := lexes_token nonempty
      (reads_functor 0 n (locate (0 + (text ++ ['(']).length) [' '] ++ []))
      (reads_layout_space (fun _ _ => rfl : Solid []))
    rw [List.append_assoc, Nat.zero_add, List.length_append] at lexes
    exact tokenize_eq solid lexes

/-- The name `/**/` is written bare and read as a comment, and the brackets behind it as those of no
application. -/
theorem tokenize_comment :
    tokenize (Text.nameText ['/', '*', '*', '/'] ++ [' ']) = .ok [] ∧
      tokenize (Text.nameText ['/', '*', '*', '/'] ++ ['(', ' ']) =
        .ok [(.openRound, ⟨4, 5⟩)] := by
  exact ⟨rfl, rfl⟩

end Lexer

end TermMachine
