import Mathlib.Data.List.Basic
import TermMachine.Proofs.Lexer.Stretches
import TermMachine.Proofs.Reader.Embedding

/-! # Reading up to a line feed

If a source ends with a line feed, then words, numbers and line comments in it are the same in every
longer source, since none of them goes on over the line feed. A quoted name, a comment or the layout
in a pair of brackets could. They are the same if they come to an end inside the source.
-/

namespace TermMachine

namespace Lexer

open Reader

variable {d : Nat} {more : List (Char × Span)} {input rest : Input Char} {α β : Type}
  {p : Reader Char α} {q : Reader Char β} {value : α}

/-! ## Up to a line feed -/

/-- The input ends with a line feed, or nothing comes behind it. -/
def Lined (more : List (Char × Span)) (input : Input Char) : Prop :=
  more = [] ∨ input.items.getLast?.map Prod.fst = some '\n'

theorem Lined.ample (lined : Lined more input) : Ample more input := by
  rcases lined with none | last
  · exact .inr none
  · refine .inl fun none => ?_
    rw [none] at last
    cases last

theorem Lined.suffix (lined : Lined more input) (suffix : rest.items <:+ input.items)
    (ample : Ample more rest) : Lined more rest := by
  rcases ample with some | none
  · obtain ⟨read, items⟩ := suffix
    refine lined.imp_right fun last => ?_
    rwa [← items, List.getLast?_append_of_ne_nil _ some] at last
  · exact .inl none

theorem ample_of_took {read : List (Char × Span)} (took : Took input read rest)
    (ample : Ample more rest) : Ample more input := by
  refine ample.imp_left fun some => ?_
  rw [took.items]
  exact List.append_ne_nil_of_right_ne_nil read some

/-- What has been read does not end with a line feed. -/
def Within (p : Reader Char α) : Prop :=
  p.Ensures fun read _ => read.getLast?.map Prod.fst ≠ some '\n'

/-- Behind what does not end with a line feed there is still the one that the input ends with. -/
theorem Within.lined (within : Within p) (lined : Lined more input)
    (ok : (p input).result? = some (value, rest)) : Lined more rest := by
  obtain ⟨read, took, visible⟩ := within input value rest ok
  apply lined.suffix took.suffix
  rcases lined with none | last
  · exact .inr none
  · refine .inl fun none => visible ?_
    rw [← last, took.items, none, List.append_nil]

theorem within_satisfying {accepts : Char → Bool} (refused : accepts '\n' = false) :
    Within (satisfying accepts) := by
  refine ensures_item.imp ?_
  rintro read _ ⟨c, span, rfl, found⟩ last
  obtain rfl : c = '\n' := Option.some.inj last
  rw [refused, if_neg Bool.false_ne_true] at found
  cases found

theorem within_exactly {c : Char} (visible : c ≠ '\n') : Within (exactly c) := by
  refine ensures_exactly.imp ?_
  rintro read _ ⟨span, rfl⟩ last
  exact visible (Option.some.inj last)

theorem Within.append {read back : List (Char × Span)}
    (first : read.getLast?.map Prod.fst ≠ some '\n')
    (second : back.getLast?.map Prod.fst ≠ some '\n') :
    (read ++ back).getLast?.map Prod.fst ≠ some '\n' := by
  rw [List.getLast?_append]
  cases last : back.getLast? with
  | none => exact first
  | some item => rwa [last] at second

theorem Within.map (within : Within p) (f : α → β) : Within (p.map f) := by
  refine (Ensures.map within f).imp ?_
  rintro read _ ⟨_, visible, _⟩
  exact visible

theorem Within.pair (first : Within p) (second : Within q) : Within (p.pair q) := by
  refine (Ensures.pair first second).imp ?_
  rintro read _ ⟨front, back, rfl, visible, visible'⟩
  exact Within.append visible visible'

/-- The last of two things is enough, if it takes something. -/
theorem Consumes.within_pair (first : p.Takes) (second : Within q) (consumes : q.Consumes) :
    Within (p.pair q) := by
  have both : q.Ensures fun read _ =>
      read.getLast?.map Prod.fst ≠ some '\n' ∧ read ≠ [] := by
    intro input value rest ok
    obtain ⟨read, took, visible⟩ := second input value rest ok
    obtain ⟨read', took', nonempty⟩ := consumes input value rest ok
    have same : read ++ rest.items = read' ++ rest.items := by rw [← took.items, took'.items]
    rw [List.append_cancel_right_eq] at same
    exact ⟨read, took, visible, same ▸ nonempty⟩
  refine (Ensures.pair first both).imp ?_
  rintro read _ ⟨front, back, rfl, _, visible, nonempty⟩
  rwa [List.getLast?_append_of_ne_nil _ nonempty]

theorem within_joined {read : List (Char × Span)} {values : List α}
    (joined : Joined (fun read _ => read.getLast?.map Prod.fst ≠ some '\n') read values) :
    read.getLast?.map Prod.fst ≠ some '\n' := by
  induction joined with
  | nil => exact nofun
  | cons first others ih => exact Within.append first ih

theorem Within.many (within : Within p) : Within p.many :=
  (Ensures.many within).imp fun _ _ => within_joined

theorem Within.many1 (within : Within p) : Within p.many1 := by
  refine (Ensures.many1 within).imp ?_
  rintro read values ⟨joined, _⟩
  exact within_joined joined

theorem within_choice {ps : List (Reader Char α)} (first : Within p)
    (others : ∀ p' ∈ ps, Within p') : Within (choice p ps) :=
  ensures_choice first others

/-! ## Words and numbers -/

theorem settled_satisfying {accepts : Char → Bool} (lined : Lined more input) :
    Settled d more (satisfying accepts) input :=
  settled_item lined.ample

theorem settled_exactly {c : Char} (ample : Ample more input) : Settled d more (exactly c) input :=
  settled_item ample

theorem settled_run {accepts : Char → Bool} (refused : accepts '\n' = false)
    (lined : Lined more input) : Settled d more (satisfying accepts).many input :=
  settled_many (Lined more) consumes_item (fun _ => settled_satisfying)
    (fun _ _ _ => (within_satisfying refused).lined) lined

theorem settled_run1 {accepts : Char → Bool} (refused : accepts '\n' = false)
    (lined : Lined more input) : Settled d more (satisfying accepts).many1 input :=
  settled_many1 (Lined more) consumes_item (fun _ => settled_satisfying)
    (fun _ _ _ => (within_satisfying refused).lined) lined

theorem settled_word {isFirst isLater : Char → Bool} (refused : isFirst '\n' = false)
    (refused' : isLater '\n' = false) (lined : Lined more input) :
    Settled d more (run isFirst isLater) input :=
  ((settled_satisfying lined).pair fun _ _ ok =>
    settled_run refused' ((within_satisfying refused).lined lined ok)).map _

theorem settled_digits (lined : Lined more input) : Settled d more digits input :=
  settled_run1 (by decide) lined

theorem settled_number (lined : Lined more input) : Settled d more number input := by
  have point : Within (exactly '.') := within_exactly (by decide)
  have fraction (rest : Input Char) (lined : Lined more rest) :
      Settled d more ((exactly '.').second digits).optional rest :=
    ((settled_exactly lined.ample).second fun _ _ ok =>
      settled_digits (point.lined lined ok)).optional
  have parts : Settled d more (digits.pair ((exactly '.').second digits).optional) input :=
    (settled_digits lined).pair fun _ rest ok =>
      fraction rest ((within_satisfying (by decide)).many1.lined lined ok)
  refine (parts.check fun (integral, fraction?) span span' => ?_).labelled _
  dsimp only
  cases Numeral.ofDigits? integral (fraction?.getD []) <;> rfl

theorem settled_var (lined : Lined more input) : Settled d more var input :=
  (((settled_word (by decide) (by decide) lined).map _).map _).labelled _

theorem settled_letterName (lined : Lined more input) : Settled d more letterName input :=
  (settled_word (by decide) (by decide) lined).map _

theorem settled_symbolName (lined : Lined more input) : Settled d more symbolName input :=
  (settled_run1 (by decide) lined).map _

theorem settled_punctuation (lined : Lined more input) : Settled d more punctuation input := by
  have mark (c : Char) (value : Token) : Settled d more ((exactly c).map fun _ => value) input :=
    (settled_exactly lined.ample).map _
  apply settled_choice (mark _ _)
  simp only [List.forall_mem_cons]
  exact ⟨mark _ _, mark _ _, mark _ _, mark _ _, mark _ _, mark _ _, mark _ _, nofun⟩

/-! ## Layout -/

theorem settled_blank (lined : Lined more input) : Settled d more blank input :=
  (settled_satisfying lined).map _

theorem settled_lineComment (lined : Lined more input) : Settled d more lineComment input :=
  ((settled_exactly lined.ample).pair fun _ _ ok =>
    settled_run (by decide) ((within_exactly (by decide)).lined lined ok)).map _

theorem settled_clauseEnd (lined : Lined more input) : Settled d more clauseEnd input := by
  refine (((settled_exactly lined.ample).pair fun _ rest ok => ?_).map _).labelled _
  have lined' : Lined more rest := (within_exactly (by decide)).lined lined ok
  apply settled_choice (settled_blank lined')
  simp only [List.forall_mem_cons]
  exact ⟨settled_lineComment lined', settled_finished lined'.ample, nofun⟩

def Opens (input : Input Char) : Prop := ['/', '*'] <+: input.items.map Prod.fst

theorem opens_of_result? {value : Char × Char}
    (ok : (((exactly '/').pair (exactly '*')) input).result? = some (value, rest)) :
    Opens input := by
  have ensures : ((exactly '/').pair (exactly '*')).Ensures _ :=
    ensures_exactly.pair ensures_exactly
  obtain ⟨read, took, front, back, rfl, ⟨span, rfl⟩, ⟨span', rfl⟩⟩ := ensures input value rest ok
  rw [Opens, took.items]
  exact ⟨rest.items.map Prod.fst, rfl⟩

/-- A comment that is opened has to be closed, or it might be closed further on. -/
theorem settled_blockComment (lined : Lined more input)
    (closed : (blockComment input).result?.isSome = true ∨ ¬Opens input ∨ more = []) :
    Settled d more blockComment input := by
  have opening : Within ((exactly '/').pair (exactly '*')) :=
    (within_exactly (by decide)).pair (within_exactly (by decide))
  refine (Settled.pair ((settled_exactly lined.ample).pair fun _ _ ok => ?_) ?_).map _
  · exact settled_exactly ((within_exactly (by decide)).lined lined ok).ample
  · intro value rest ok
    have lined' := opening.lined lined ok
    refine settled_skipTo (fun back stop suffix ample => ?_) (fun _ => rfl) ?_
    · have lined'' : Lined more ⟨back, stop, rest.finish⟩ := lined'.suffix suffix ample
      exact (settled_exactly lined''.ample).pair fun _ _ ok =>
        settled_exactly ((within_exactly (by decide)).lined lined'' ok).ample
    · rcases closed with closed | notOpen | none
      · refine .inl ?_
        unfold blockComment at closed
        rw [result?_map, Option.isSome_map, result?_pair, ok, Option.bind_some,
          Option.isSome_map] at closed
        exact closed
      · exact absurd (opens_of_result? ok) notOpen
      · exact .inr none

theorem settled_gap (lined : Lined more input)
    (closed : (gap input).result?.isSome = true ∨ ¬Opens input ∨ more = []) :
    Settled d more gap input := by
  apply settled_choice_cons (settled_blank lined)
  intro notBlank
  apply settled_choice_cons (settled_lineComment lined)
  intro notLine
  apply settled_choice_nil
  apply settled_blockComment lined
  refine closed.imp_left fun closed => ?_
  unfold gap at closed
  rw [result?_choice] at closed
  simp only [List.findSome?_cons, notBlank, notLine, List.findSome?_nil] at closed
  cases found : (blockComment input).result? with
  | none => rw [found] at closed; cases closed
  | some r => rfl

/-- There is something left of the input, and it does not open a comment. -/
def Calm (more : List (Char × Span)) (input : Input Char) : Prop :=
  more = [] ∨ (input.items ≠ [] ∧ ¬Opens input)

theorem Calm.ample (calm : Calm more input) : Ample more input :=
  calm.elim .inr fun ⟨nonempty, _⟩ => .inl nonempty

theorem exists_layout (input : Input Char) :
    ∃ rest, (layout input).result? = some ((), rest) := by
  obtain ⟨⟨_, rest⟩, ok⟩ := Option.isSome_iff_exists.mp (isSome_many gap input)
  exact ⟨rest, (result?_map _ gap.many input).trans (by rw [ok]; rfl)⟩

/-- Layout that stops in front of something else than a comment. -/
theorem settled_layout (lined : Lined more input)
    (calm : ∀ rest, (layout input).result? = some ((), rest) → Calm more rest) :
    Settled d more layout input := by
  let holds (input : Input Char) := Lined more input ∧
    ∀ rest, (layout input).result? = some ((), rest) → Calm more rest
  refine Settled.map (settled_many holds consumes_gap ?_ ?_ ⟨lined, calm⟩) _
  · rintro input ⟨lined, calm⟩
    apply settled_gap lined
    cases found : (gap input).result? with
    | some r => exact .inl rfl
    | none =>
        have here := calm input (by rw [result?_layout, found])
        exact .inr (here.elim .inr fun ⟨_, notOpen⟩ => .inl notOpen)
  · rintro input _ middle ⟨lined, calm⟩ found
    have same : (layout input).result? = (layout middle).result? := by rw [result?_layout, found]
    rw [same] at calm
    obtain ⟨rest, ok⟩ := exists_layout middle
    obtain ⟨_, took, _⟩ := takes_layout middle _ rest ok
    obtain ⟨_, took', _⟩ := consumes_gap input _ middle found
    exact ⟨lined.suffix took'.suffix (ample_of_took took (calm rest ok).ample), calm⟩

/-- Layout at the very end goes on with what comes behind. -/
theorem result?_layout_across (lined : Lined more input ∨ input.items = [])
    (ok : (layout input).result? = some ((), rest)) (all : rest.items = []) (finish : Nat) :
    (layout (input.embed d more finish)).result? =
      (layout ⟨more, rest.previousStop + d, finish⟩).result? := by
  induction size : input.items.length using Nat.strongRecOn generalizing input with
  | ind n ih =>
      rw [result?_layout] at ok
      cases found : (gap input).result? with
      | none =>
          rw [found] at ok
          cases ok
          rw [Input.embed, all, List.map_nil, List.nil_append]
      | some first =>
          rw [found] at ok
          obtain ⟨read, took, nonempty⟩ := consumes_gap input _ _ found
          have some : input.items ≠ [] := by
            rw [took.items]
            exact List.append_ne_nil_of_left_ne_nil nonempty _
          have lined := lined.resolve_right some
          have lined' : Lined more first.2 ∨ first.2.items = [] := by
            by_cases none : first.2.items = []
            · exact .inr none
            · exact .inl (lined.suffix took.suffix (.inl none))
          have settled : Settled d more gap input :=
            settled_gap lined (.inl (by rw [found]; rfl))
          rw [result?_layout, settled, found]
          exact ih _ (size ▸ consumes_gap.length_lt found) lined' ok rfl

/-! ## Names -/

theorem settled_quotedChar (lined : Lined more input) : Settled d more quotedChar input := by
  have quote : Settled d more ((exactly '\'').pair (exactly '\'')) input :=
    (settled_exactly lined.ample).pair fun _ _ ok =>
      settled_exactly ((within_exactly (by decide)).lined lined ok).ample
  have escape : Settled d more ((exactly '\\').second
      (choice ((exactly 'n').map fun _ => '\n')
        [(exactly 't').map fun _ => '\t', exactly '\\', exactly '\''])) input := by
    refine (settled_exactly lined.ample).second fun _ rest ok => ?_
    have ample : Ample more rest := ((within_exactly (by decide)).lined lined ok).ample
    apply settled_choice ((settled_exactly ample).map _)
    simp only [List.forall_mem_cons]
    exact ⟨(settled_exactly ample).map _, settled_exactly ample, settled_exactly ample, nofun⟩
  exact ((quote.map _).orElse escape).orElse (settled_satisfying lined)

/-- Quoted characters of which something is left over. -/
theorem settled_quotedChars (lined : Lined more input)
    (ample : ∀ value rest, (quotedChar.many input).result? = some (value, rest) →
      Ample more rest) : Settled d more quotedChar.many input := by
  let holds (input : Input Char) := Lined more input ∧ ∀ value rest,
    (quotedChar.many input).result? = some (value, rest) → Ample more rest
  refine settled_many holds consumes_quotedChar (fun _ h => settled_quotedChar h.1) ?_
    ⟨lined, ample⟩
  rintro input c middle ⟨lined, ample⟩ found
  have ample' (value : List Char) (rest : Input Char)
      (ok : (quotedChar.many middle).result? = some (value, rest)) : Ample more rest := by
    refine ample (c :: value) rest ?_
    rw [consumes_quotedChar.result?_many, found]
    dsimp only
    rw [ok]
    rfl
  obtain ⟨⟨value, rest⟩, ok⟩ := Option.isSome_iff_exists.mp (isSome_many quotedChar middle)
  obtain ⟨_, took, _⟩ := consumes_quotedChar.takes.many middle value rest ok
  obtain ⟨_, took', _⟩ := consumes_quotedChar input c middle found
  exact ⟨lined.suffix took'.suffix (ample_of_took took (ample' value rest ok)), ample'⟩

/-- A quoted name that is opened has to be closed, or it might be closed further on. -/
theorem settled_quotedName (lined : Lined more input)
    (closed : (quotedName input).result?.isSome = true ∨
      ((exactly '\'') input).result? = none ∨ more = []) :
    Settled d more quotedName input := by
  have ends (value : Char) (middle : Input Char) (value' : List Char) (rest : Input Char)
      (opened : ((exactly '\'') input).result? = some (value, middle))
      (inside : (quotedChar.many middle).result? = some (value', rest)) : Ample more rest := by
    rcases closed with closed | unopened | none
    · unfold quotedName word between at closed
      rw [result?_map, Option.isSome_map, result?_first, result?_second, opened, Option.bind_some,
        inside, Option.bind_some, Option.isSome_map] at closed
      refine .inl fun nothing => ?_
      obtain ⟨items, stop, finish⟩ := rest
      subst nothing
      cases closed
    · rw [unopened] at opened
      cases opened
    · exact .inr none
  have quote : Within (exactly '\'') := within_exactly (by decide)
  refine Settled.map (Settled.first ((settled_exactly lined.ample).second fun value middle ok => ?_)
    fun value rest ok => ?_) _
  · exact settled_quotedChars (quote.lined lined ok) fun value' rest ok' =>
      ends value middle value' rest ok ok'
  · rw [result?_second, Option.bind_eq_some_iff] at ok
    obtain ⟨⟨c, middle⟩, opened, inside⟩ := ok
    exact settled_exactly (ends c middle value rest opened inside)

theorem settled_emptyBrackets {opening closing : Char} (visible : opening ≠ '\n') (text : String)
    (lined : Lined more input)
    (calm : ∀ c middle rest, ((exactly opening) input).result? = some (c, middle) →
      (layout middle).result? = some ((), rest) → Calm more rest) :
    Settled d more (emptyBrackets opening closing text) input := by
  refine Settled.map (Settled.pair ((settled_exactly lined.ample).pair fun c middle ok => ?_)
    fun value rest ok => ?_) _
  · exact settled_layout ((within_exactly visible).lined lined ok) fun rest ok' =>
      calm c middle rest ok ok'
  · rw [result?_pair, Option.bind_eq_some_iff] at ok
    obtain ⟨⟨c, middle⟩, opened, behind⟩ := ok
    obtain ⟨⟨_, rest⟩, inside, same⟩ := Option.map_eq_some_iff.mp behind
    cases same
    exact settled_exactly (calm c middle rest opened inside).ample

/-- Behind an opening bracket there is something else than layout. -/
def Occupied (more : List (Char × Span)) (input : Input Char) : Prop :=
  ∀ pair ∈ pairs, ∀ c middle rest, ((exactly pair.1) input).result? = some (c, middle) →
    (layout middle).result? = some ((), rest) → Calm more rest

theorem settled_soloName (lined : Lined more input) (occupied : Occupied more input) :
    Settled d more soloName input := by
  apply settled_choice ((settled_exactly lined.ample).map _)
  simp only [List.forall_mem_cons]
  exact ⟨(settled_exactly lined.ample).map _,
    settled_emptyBrackets (by decide) _ lined (occupied ('[', ']') (by simp [pairs])),
    settled_emptyBrackets (by decide) _ lined (occupied ('\x7b', '\x7d') (by simp [pairs])),
    nofun⟩

theorem within_emptyBrackets {opening closing : Char} (visible : closing ≠ '\n') (text : String) :
    Within (emptyBrackets opening closing text) :=
  (Consumes.within_pair (consumes_item.pair takes_layout).takes (within_exactly visible)
    consumes_item).map _

theorem within_run {isFirst isLater : Char → Bool} (refused : isFirst '\n' = false)
    (refused' : isLater '\n' = false) : Within (run isFirst isLater) :=
  ((within_satisfying refused).pair (within_satisfying refused').many).map _

theorem within_quotedName : Within quotedName :=
  ((Consumes.within_pair (consumes_item.second consumes_quotedChar.takes.many).takes
    (within_exactly (by decide)) consumes_item).map _).map _

theorem within_nameWord : Within nameWord := by
  apply within_choice ((within_run (by decide) (by decide)).map _)
  simp only [List.forall_mem_cons]
  refine ⟨within_quotedName, (within_satisfying (by decide)).many1.map _, ?_, nofun⟩
  apply within_choice ((within_exactly (by decide)).map _)
  simp only [List.forall_mem_cons]
  exact ⟨(within_exactly (by decide)).map _, within_emptyBrackets (by decide) _,
    within_emptyBrackets (by decide) _, nofun⟩

theorem settled_name (lined : Lined more input) (occupied : Occupied more input)
    (closed : (quotedName input).result?.isSome = true ∨
      ((exactly '\'') input).result? = none ∨ more = []) :
    Settled d more name input := by
  have text : Settled d more nameWord input := by
    apply settled_choice (settled_letterName lined)
    simp only [List.forall_mem_cons]
    exact ⟨settled_quotedName lined closed, settled_symbolName lined,
      settled_soloName lined occupied, nofun⟩
  exact ((text.pair fun _ _ ok =>
    (settled_exactly (within_nameWord.lined lined ok).ample).optional).map _).labelled _

end Lexer

end TermMachine
