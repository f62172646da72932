import TermMachine.Reader

/-! # What readers read

`p.Reads read rest value`: wherever the items `read` stand in front of `rest`, the reader `p` takes
just them, for the value. `p.Rejects items`: the reader fails on the items. Each combinator has its
lemmas for both, so that what a reader does with a text is put together in the way the reader is.

`p.Ensures P` looks back from a value: whatever `p` has read, the items and their value are related
by `P`. Where it matters what stands behind the items, `p.Leaves R` relates that to them as well.

The account of failures does not matter here, and of the position only that the last item read
leaves its own end behind.
-/

namespace TermMachine

namespace Reader

variable {ι α β : Type} {p : Reader ι α} {q : Reader ι β} {ps : List (Reader ι α)}
  {read read' rest items : List (ι × Span)} {value : α} {value' : β}

/-- Where the last of the items stops, or `stop` if there are none. -/
def stopAfter (stop : Nat) (read : List (ι × Span)) : Nat :=
  read.foldl (fun _ item => item.2.stop) stop

/-- The reader takes the items `read` in front of `rest`, for a value. -/
def Reads (p : Reader ι α) (read rest : List (ι × Span)) (value : α) : Prop :=
  ∀ stop finish, (p ⟨read ++ rest, stop, finish⟩).result? =
    some (value, ⟨rest, stopAfter stop read, finish⟩)

def Rejects (p : Reader ι α) (items : List (ι × Span)) : Prop :=
  ∀ stop finish, (p ⟨items, stop, finish⟩).result? = none

theorem stopAfter_append (stop : Nat) (read read' : List (ι × Span)) :
    stopAfter stop (read ++ read') = stopAfter (stopAfter stop read) read' :=
  List.foldl_append

/-- If every item stops behind the very start, then so does the last one. -/
theorem stopAfter_pos (nonempty : read ≠ []) (placed : ∀ item ∈ read, 0 < item.2.stop)
    (stop : Nat) : 0 < stopAfter stop read := by
  obtain ⟨front, item, rfl⟩ := (List.eq_nil_or_concat read).resolve_left nonempty
  rw [List.concat_eq_append, stopAfter_append]
  exact placed item (by simp)

theorem Reads.exists_ok (reads : p.Reads read rest value) (stop finish : Nat) :
    ∃ passed, p ⟨read ++ rest, stop, finish⟩ =
      .ok value ⟨rest, stopAfter stop read, finish⟩ passed := by
  have found := reads stop finish
  cases reply : p ⟨read ++ rest, stop, finish⟩ with
  | failed e => simp [reply] at found
  | ok value' rest' passed =>
      simp only [reply, Reply.result?_ok, Option.some.injEq, Prod.mk.injEq] at found
      obtain ⟨rfl, rfl⟩ := found
      exact ⟨passed, rfl⟩

theorem Rejects.exists_failed (rejects : p.Rejects items) (stop finish : Nat) :
    ∃ e, p ⟨items, stop, finish⟩ = .failed e := by
  have failed := rejects stop finish
  cases reply : p ⟨items, stop, finish⟩ with
  | failed e => exact ⟨e, rfl⟩
  | ok value rest passed => simp [reply] at failed

/-! ## Single items -/

variable {expected : List (Option ι)} {f : ι → Span → Option α} {x : ι} {span : Span}

theorem reads_item (found : f x span = some value) :
    (item expected f).Reads [(x, span)] rest value := by
  intro stop finish
  simp [item, found, stopAfter]

theorem rejects_item (missing : f x span = none) :
    (item expected f).Rejects ((x, span) :: rest) := by
  intro stop finish
  simp [item, missing]

theorem rejects_item_nil : (item expected f).Rejects [] := fun _ _ => rfl

theorem reads_satisfying {accepts : ι → Bool} (accepted : accepts x = true) :
    (satisfying accepts).Reads [(x, span)] rest x :=
  reads_item (if_pos accepted)

theorem rejects_satisfying {accepts : ι → Bool} (refused : accepts x = false) :
    (satisfying accepts).Rejects ((x, span) :: rest) :=
  rejects_item (by simp [refused])

/-- No item that `accepts` holds of comes next. -/
def Stops (accepts : ι → Bool) (items : List (ι × Span)) : Prop :=
  ∀ item ∈ items.head?, accepts item.1 = false

theorem stops_cons {accepts : ι → Bool} (refused : accepts x = false) :
    Stops accepts ((x, span) :: rest) := by
  intro item mem
  cases mem
  exact refused

theorem Stops.rejects {accepts : ι → Bool} (stops : Stops accepts items) :
    (satisfying accepts).Rejects items := by
  cases items with
  | nil => exact rejects_item_nil
  | cons item items => exact rejects_satisfying (stops item rfl)

theorem reads_finished : (finished : Reader ι Unit).Reads [] [] () := fun _ _ => rfl

theorem rejects_finished : (finished : Reader ι Unit).Rejects ((x, span) :: rest) := fun _ _ => rfl

/-! ## Values -/

theorem Reads.map (reads : p.Reads read rest value) (f : α → β) :
    (p.map f).Reads read rest (f value) := by
  intro stop finish
  rw [result?_map, reads]
  rfl

theorem Rejects.map (rejects : p.Rejects items) (f : α → β) : (p.map f).Rejects items := by
  intro stop finish
  rw [result?_map, rejects]
  rfl

theorem Reads.labelled (reads : p.Reads read rest value) (label : String) :
    (p.labelled label).Reads read rest value := by
  intro stop finish
  rw [result?_labelled, reads]

theorem Rejects.labelled (rejects : p.Rejects items) (label : String) :
    (p.labelled label).Rejects items := by
  intro stop finish
  rw [result?_labelled, rejects]

/-- The stretch that a reader of one item or more is told of starts where the first one does. -/
theorem Reads.mapSpan {f : α → Span → β} (reads : p.Reads ((x, span) :: read) rest value) :
    (p.mapSpan f).Reads ((x, span) :: read) rest
      (f value ⟨span.start, stopAfter span.stop read⟩) := by
  intro stop finish
  rw [result?_mapSpan, reads]
  rfl

theorem Reads.check {f : α → Span → Except (Span × Complaint) β}
    (reads : p.Reads read rest value) (passes : ∀ span, f value span = .ok value') :
    (p.check f).Reads read rest value' := by
  intro stop finish
  rw [result?_check, reads]
  simp [passes, Except.toOption]

theorem Rejects.check {f : α → Span → Except (Span × Complaint) β} (rejects : p.Rejects items) :
    (p.check f).Rejects items := by
  intro stop finish
  rw [result?_check, rejects]
  rfl

theorem reads_optional (reads : p.Reads read rest value) :
    p.optional.Reads read rest (some value) := by
  intro stop finish
  rw [result?_optional, reads]

theorem reads_optional_none (rejects : p.Rejects rest) : p.optional.Reads [] rest none := by
  intro stop finish
  rw [result?_optional, List.nil_append, rejects]
  rfl

variable [BEq ι]

theorem reads_exactly [LawfulBEq ι] : (exactly x).Reads [(x, span)] rest x :=
  reads_item (by simp)

theorem rejects_exactly [LawfulBEq ι] {y : ι} (different : y ≠ x) :
    (exactly x).Rejects ((y, span) :: rest) :=
  rejects_item (by simp [different])

theorem Stops.rejects_exactly [LawfulBEq ι] (stops : Stops (· == x) items) :
    (exactly x).Rejects items := by
  cases items with
  | nil => exact rejects_item_nil
  | cons item items => exact Reader.rejects_exactly (ne_of_beq_false (stops item rfl))

/-! ## One after another -/

theorem Reads.pair (first : p.Reads read (read' ++ rest) value)
    (second : q.Reads read' rest value') :
    (p.pair q).Reads (read ++ read') rest (value, value') := by
  intro stop finish
  rw [result?_pair, List.append_assoc, first, Option.bind_some, second, stopAfter_append]
  rfl

theorem Rejects.pair (rejects : p.Rejects items) : (p.pair q).Rejects items := by
  intro stop finish
  rw [result?_pair, rejects]
  rfl

theorem Reads.rejects_pair (reads : p.Reads read rest value) (rejects : q.Rejects rest) :
    (p.pair q).Rejects (read ++ rest) := by
  intro stop finish
  rw [result?_pair, reads, Option.bind_some, rejects]
  rfl

theorem Reads.first (first : p.Reads read (read' ++ rest) value)
    (second : q.Reads read' rest value') : (p.first q).Reads (read ++ read') rest value :=
  (first.pair second).map Prod.fst

theorem Reads.second (first : p.Reads read (read' ++ rest) value)
    (second : q.Reads read' rest value') : (p.second q).Reads (read ++ read') rest value' :=
  (first.pair second).map Prod.snd

theorem Rejects.first (rejects : p.Rejects items) : (p.first q).Rejects items :=
  rejects.pair.map _

theorem Rejects.second (rejects : p.Rejects items) : (p.second q).Rejects items :=
  rejects.pair.map _

/-! ## Alternatives -/

theorem result?_choice_of_none {p' : Reader ι α} {input : Input ι}
    (failed : (p input).result? = none) :
    (choice p (p' :: ps) input).result? = (choice p' ps input).result? := by
  rw [result?_choice, result?_choice, List.findSome?_cons, failed]

theorem result?_choice_nil (p : Reader ι α) (input : Input ι) :
    (choice p [] input).result? = (p input).result? := by
  rw [result?_choice, List.findSome?_cons, List.findSome?_nil]
  cases (p input).result? <;> rfl

theorem reads_choice (reads : p.Reads read rest value) : (choice p ps).Reads read rest value := by
  intro stop finish
  rw [result?_choice, List.findSome?_cons, reads]

theorem reads_choice_of_rejects {p' : Reader ι α} (rejects : p.Rejects (read ++ rest))
    (reads : (choice p' ps).Reads read rest value) :
    (choice p (p' :: ps)).Reads read rest value := by
  intro stop finish
  rw [result?_choice, List.findSome?_cons, rejects, ← result?_choice, reads]

theorem rejects_choice (first : p.Rejects items) (others : ∀ p' ∈ ps, p'.Rejects items) :
    (choice p ps).Rejects items := by
  intro stop finish
  rw [result?_choice, List.findSome?_eq_none_iff]
  intro p' mem
  rcases List.mem_cons.mp mem with rfl | mem
  · exact first stop finish
  · exact others p' mem stop finish

theorem reads_orElse_of_rejects {q : Reader ι α} (rejects : p.Rejects (read ++ rest))
    (reads : q.Reads read rest value) : (p.orElse q).Reads read rest value := by
  intro stop finish
  rw [result?_orElse, rejects, reads]
  rfl

theorem rejects_orElse {q : Reader ι α} (first : p.Rejects items) (second : q.Rejects items) :
    (p.orElse q).Rejects items := by
  intro stop finish
  rw [result?_orElse, first, second]
  rfl

/-! ## Repetition -/

/-- The items can be read by `p` piece by piece, each piece in front of the others and `rest`. -/
inductive Repeats (p : Reader ι α) (rest : List (ι × Span)) : List (ι × Span) → List α → Prop
  | done : Repeats p rest [] []
  | step {read more : List (ι × Span)} {value : α} {values : List α} (nonempty : read ≠ [])
      (reads : p.Reads read (more ++ rest) value) (repeats : Repeats p rest more values) :
      Repeats p rest (read ++ more) (value :: values)

namespace Repeats

variable {values values' : List α}

omit [BEq ι] in
theorem append (first : Repeats p (read' ++ rest) read values)
    (second : Repeats p rest read' values') :
    Repeats p rest (read ++ read') (values ++ values') := by
  induction first with
  | done => exact second
  | step nonempty reads _ ih =>
      rw [List.append_assoc]
      rw [← List.append_assoc] at reads
      exact .step nonempty reads ih

omit [BEq ι] in
theorem single (nonempty : read ≠ []) (reads : p.Reads read rest value) :
    Repeats p rest read [value] := by
  rw [← List.append_nil read]
  exact .step nonempty reads .done

omit [BEq ι] in
theorem of_satisfying {accepts : ι → Bool} (all : ∀ item ∈ read, accepts item.1 = true) :
    Repeats (satisfying accepts) rest read (read.map Prod.fst) := by
  induction read with
  | nil => exact .done
  | cons item read ih =>
      obtain ⟨first, others⟩ := List.forall_mem_cons.mp all
      exact .step (List.cons_ne_nil item []) (reads_satisfying first) (ih others)

omit [BEq ι] in
theorem ne_nil (repeats : Repeats p rest read values) (nonempty : read ≠ []) : values ≠ [] := by
  cases repeats with
  | done => exact absurd rfl nonempty
  | step => exact List.cons_ne_nil _ _

theorem reads_manyUpTo (repeats : Repeats p rest read values) (rejects : p.Rejects rest) {n : Nat}
    (enough : read.length < n) (passed : Option (Failure ι)) :
    (manyUpTo p n passed).Reads read rest values := by
  induction repeats generalizing n passed with
  | done =>
      intro stop finish
      obtain ⟨n, rfl⟩ := Nat.exists_eq_add_one_of_ne_zero (Nat.ne_of_gt enough)
      obtain ⟨e, failed⟩ := rejects.exists_failed stop finish
      rw [List.nil_append, manyUpTo, failed]
      rfl
  | @step read more value values nonempty reads _ ih =>
      intro stop finish
      obtain ⟨n, rfl⟩ : ∃ k, n = k + 1 :=
        Nat.exists_eq_add_one_of_ne_zero (Nat.ne_of_gt (Nat.lt_of_le_of_lt (Nat.zero_le _) enough))
      obtain ⟨passed', ok⟩ := reads.exists_ok stop finish
      have positive : 0 < read.length := List.length_pos_iff.mpr nonempty
      have shorter : more.length < n := by
        rw [List.length_append] at enough
        omega
      rw [List.append_assoc, manyUpTo, ok]
      dsimp only
      rw [result?_map, ih shorter _ _ finish, stopAfter_append]
      rfl

theorem reads_many (repeats : Repeats p rest read values) (rejects : p.Rejects rest) :
    p.many.Reads read rest values := by
  intro stop finish
  apply repeats.reads_manyUpTo rejects
  simp only [List.length_append]
  omega

theorem reads_many1 (repeats : Repeats p rest read values) (rejects : p.Rejects rest)
    (nonempty : values ≠ []) : p.many1.Reads read rest values := by
  intro stop finish
  cases repeats with
  | done => exact absurd rfl nonempty
  | @step read more value values _ reads repeats =>
      obtain ⟨passed, ok⟩ := reads.exists_ok stop finish
      have enough : more.length < (more ++ rest).length + 1 := by
        rw [List.length_append]
        omega
      rw [List.append_assoc, many1, ok]
      dsimp only
      rw [result?_map, repeats.reads_manyUpTo rejects enough, stopAfter_append]
      rfl

end Repeats

theorem Rejects.many1 (rejects : p.Rejects items) : p.many1.Rejects items := by
  intro stop finish
  obtain ⟨e, failed⟩ := rejects.exists_failed stop finish
  rw [Reader.many1, failed]
  rfl

/-! ## Skipping -/

theorem result?_skipFrom (finish : Nat) (items : List (ι × Span)) (stop : Nat)
    (passed passed' : Option (Failure ι)) :
    (skipFrom p finish items stop passed).result? =
      (skipFrom p finish items stop passed').result? := by
  induction items generalizing stop passed passed' with
  | nil =>
      simp only [skipFrom]
      cases p ⟨[], stop, finish⟩ <;> rfl
  | cons item items ih =>
      simp only [skipFrom]
      cases p ⟨item :: items, stop, finish⟩ with
      | ok value rest passed => rfl
      | failed e => exact ih _ _ _

theorem result?_skipTo_nil (stop finish : Nat) :
    (skipTo p ⟨[], stop, finish⟩).result? = (p ⟨[], stop, finish⟩).result? := by
  simp only [skipTo, skipFrom]
  cases p ⟨[], stop, finish⟩ <;> rfl

theorem result?_skipTo_cons (items : List (ι × Span)) (stop finish : Nat) :
    (skipTo p ⟨(x, span) :: items, stop, finish⟩).result? =
      (p ⟨(x, span) :: items, stop, finish⟩).result?.or
        (skipTo p ⟨items, span.stop, finish⟩).result? := by
  simp only [skipTo, skipFrom]
  cases p ⟨(x, span) :: items, stop, finish⟩ with
  | ok value rest passed => rfl
  | failed e => exact result?_skipFrom finish items span.stop _ _

theorem rejects_skipTo (each : ∀ back, back <:+ items → p.Rejects back) :
    (skipTo p).Rejects items := by
  intro stop finish
  induction items generalizing stop with
  | nil => rw [result?_skipTo_nil, each [] (List.suffix_refl [])]
  | cons item items ih =>
      have later : ∀ back, back <:+ items → p.Rejects back := fun back suffix =>
        each back (suffix.trans (List.suffix_cons item items))
      rw [result?_skipTo_cons, each _ (List.suffix_refl _), ih later]
      rfl

/-! ## What has been read -/

omit [BEq ι]

/-- The stretch from the start of the first item to the end of the last one. -/
def stretch : List (ι × Span) → Span
  | [] => ⟨0, 0⟩
  | (_, span) :: read => ⟨span.start, stopAfter span.stop read⟩

theorem stop_stretch (nonempty : read ≠ []) (stop : Nat) :
    (stretch read).stop = stopAfter stop read := by
  cases read with
  | nil => exact absurd rfl nonempty
  | cons item read => rfl

/-- A check is told of the stretch that was read. -/
theorem Reads.check_stretch {f : α → Span → Except (Span × Complaint) β}
    (reads : p.Reads read rest value) (nonempty : read ≠ [])
    (passes : f value (stretch read) = .ok value') : (p.check f).Reads read rest value' := by
  intro stop finish
  cases read with
  | nil => exact absurd rfl nonempty
  | cons item read =>
      have told : Input.spanTo ⟨item :: read ++ rest, stop, finish⟩
          ⟨rest, stopAfter stop (item :: read), finish⟩ = stretch (item :: read) := rfl
      rw [result?_check, reads, Option.bind_some, told, passes]
      rfl

/-- The items `read` have been taken off an input. -/
structure Took (input : Input ι) (read : List (ι × Span)) (rest : Input ι) : Prop where
  items : input.items = read ++ rest.items
  stop : rest.previousStop = stopAfter input.previousStop read

theorem Took.suffix {input rest : Input ι} (took : Took input read rest) :
    rest.items <:+ input.items :=
  ⟨read, took.items.symm⟩

theorem Took.nil (input : Input ι) : Took input [] input := ⟨rfl, rfl⟩

theorem Took.trans {input middle rest : Input ι} (first : Took input read middle)
    (second : Took middle read' rest) : Took input (read ++ read') rest where
  items := by rw [first.items, second.items, List.append_assoc]
  stop := by rw [second.stop, first.stop, stopAfter_append]

theorem Took.spanTo {input rest : Input ι} (took : Took input read rest) (nonempty : read ≠ []) :
    input.spanTo rest = stretch read := by
  cases read with
  | nil => exact absurd rfl nonempty
  | cons item read =>
      obtain ⟨x, span⟩ := item
      rw [Input.spanTo, took.stop, Input.offset, took.items]
      rfl

/-- Whatever the reader has read, `R` relates the items, those that are left and the value. -/
def Leaves (p : Reader ι α) (R : List (ι × Span) → List (ι × Span) → α → Prop) : Prop :=
  ∀ input value rest, (p input).result? = some (value, rest) →
    ∃ read, Took input read rest ∧ R read rest.items value

/-- Whatever the reader has read, `P` relates the items to their value. -/
def Ensures (p : Reader ι α) (P : List (ι × Span) → α → Prop) : Prop :=
  ∀ input value rest, (p input).result? = some (value, rest) →
    ∃ read, Took input read rest ∧ P read value

variable {R : List (ι × Span) → List (ι × Span) → α → Prop}
  {S : List (ι × Span) → List (ι × Span) → β → Prop}
  {P : List (ι × Span) → α → Prop} {Q : List (ι × Span) → β → Prop}

theorem Ensures.leaves (ensures : p.Ensures P) : p.Leaves fun read _ value => P read value :=
  ensures

theorem Leaves.ensures (leaves : p.Leaves fun read _ value => P read value) : p.Ensures P := leaves

theorem Leaves.imp {R' : List (ι × Span) → List (ι × Span) → α → Prop} (leaves : p.Leaves R)
    (weaker : ∀ read rest value, R read rest value → R' read rest value) : p.Leaves R' := by
  intro input value rest ok
  obtain ⟨read, took, related⟩ := leaves input value rest ok
  exact ⟨read, took, weaker read rest.items value related⟩

theorem Ensures.imp {P' : List (ι × Span) → α → Prop} (ensures : p.Ensures P)
    (weaker : ∀ read value, P read value → P' read value) : p.Ensures P' :=
  (ensures.leaves.imp fun read _ => weaker read).ensures

theorem ensures_item :
    (item expected f).Ensures fun read value => ∃ x span, read = [(x, span)] ∧
      f x span = some value := by
  rintro ⟨items, stop, finish⟩ value rest ok
  cases items with
  | nil => simp [item] at ok
  | cons first items =>
      obtain ⟨x, span⟩ := first
      simp only [item] at ok
      split at ok
      · next found =>
          cases ok
          exact ⟨[(x, span)], ⟨rfl, rfl⟩, x, span, rfl, found⟩
      · cases ok

theorem items_of_finished {input rest : Input ι}
    (ok : (finished input).result? = some ((), rest)) : input.items = [] := by
  rw [finished] at ok
  split at ok
  · next none => exact none
  · cases ok

theorem leaves_finished : (finished : Reader ι Unit).Leaves fun read rest _ =>
    read = [] ∧ rest = [] := by
  intro input value rest ok
  have nothing := items_of_finished ok
  obtain ⟨items, stop, finish⟩ := input
  subst nothing
  cases ok
  exact ⟨[], .nil _, rfl, rfl⟩

theorem Leaves.map (leaves : p.Leaves R) (f : α → β) :
    (p.map f).Leaves fun read rest value => ∃ a, R read rest a ∧ value = f a := by
  intro input value rest ok
  rw [result?_map, Option.map_eq_some_iff] at ok
  obtain ⟨⟨a, rest⟩, found, same⟩ := ok
  cases same
  obtain ⟨read, took, related⟩ := leaves input a rest found
  exact ⟨read, took, a, related, rfl⟩

theorem Ensures.map (ensures : p.Ensures P) (f : α → β) :
    (p.map f).Ensures fun read value => ∃ a, P read a ∧ value = f a :=
  (ensures.leaves.map f).ensures

theorem Leaves.labelled (leaves : p.Leaves R) (label : String) :
    (p.labelled label).Leaves R := by
  intro input value rest ok
  rw [result?_labelled] at ok
  exact leaves input value rest ok

theorem Ensures.labelled (ensures : p.Ensures P) (label : String) :
    (p.labelled label).Ensures P :=
  (ensures.leaves.labelled label).ensures

theorem Leaves.mapSpan (leaves : p.Leaves R)
    (nonempty : ∀ {read rest a}, R read rest a → read ≠ []) (f : α → Span → β) :
    (p.mapSpan f).Leaves fun read rest value =>
      ∃ a, R read rest a ∧ value = f a (stretch read) := by
  intro input value rest ok
  rw [result?_mapSpan, Option.map_eq_some_iff] at ok
  obtain ⟨⟨a, rest⟩, found, same⟩ := ok
  cases same
  obtain ⟨read, took, related⟩ := leaves input a rest found
  exact ⟨read, took, a, related, by rw [took.spanTo (nonempty related)]⟩

theorem Ensures.mapSpan (ensures : p.Ensures P)
    (nonempty : ∀ {read a}, P read a → read ≠ []) (f : α → Span → β) :
    (p.mapSpan f).Ensures fun read value => ∃ a, P read a ∧ value = f a (stretch read) :=
  (ensures.leaves.mapSpan (fun related => nonempty related) f).ensures

theorem Ensures.check (ensures : p.Ensures P) (nonempty : ∀ {read a}, P read a → read ≠ [])
    (f : α → Span → Except (Span × Complaint) β) :
    (p.check f).Ensures fun read value => ∃ a, P read a ∧ f a (stretch read) = .ok value := by
  intro input value rest ok
  rw [result?_check, Option.bind_eq_some_iff] at ok
  obtain ⟨⟨a, middle⟩, found, checked⟩ := ok
  obtain ⟨b, passed, same⟩ := Option.map_eq_some_iff.mp checked
  cases same
  obtain ⟨read, took, related⟩ := ensures input a middle found
  refine ⟨read, took, a, related, ?_⟩
  rw [← took.spanTo (nonempty related)]
  dsimp only at passed
  cases outcome : f a (input.spanTo middle) with
  | ok b' =>
      rw [outcome] at passed
      cases passed
      rfl
  | error e =>
      rw [outcome] at passed
      cases passed

theorem Ensures.optional (ensures : p.Ensures P) :
    p.optional.Ensures fun read value =>
      (∃ a, P read a ∧ value = some a) ∨ (read = [] ∧ value = none) := by
  intro input value rest ok
  rw [result?_optional, Option.some.injEq] at ok
  split at ok
  · next r found =>
      cases ok
      obtain ⟨read, took, related⟩ := ensures input r.1 r.2 found
      exact ⟨read, took, .inl ⟨r.1, related, rfl⟩⟩
  · cases ok
    exact ⟨[], .nil input, .inr ⟨rfl, rfl⟩⟩

variable [BEq ι]

theorem ensures_exactly [LawfulBEq ι] :
    (exactly x).Ensures fun read _ => ∃ span, read = [(x, span)] := by
  refine ensures_item.imp ?_
  rintro read value ⟨y, span, rfl, found⟩
  split at found
  · next same =>
      rw [beq_iff_eq] at same
      exact ⟨span, by rw [same]⟩
  · cases found

theorem Leaves.pair (first : p.Leaves R) (second : q.Leaves S) :
    (p.pair q).Leaves fun read rest value =>
      ∃ front back, read = front ++ back ∧ R front (back ++ rest) value.1 ∧
        S back rest value.2 := by
  intro input value rest ok
  rw [result?_pair, Option.bind_eq_some_iff] at ok
  obtain ⟨⟨a, middle⟩, found, others⟩ := ok
  obtain ⟨⟨b, rest⟩, found', same⟩ := Option.map_eq_some_iff.mp others
  cases same
  obtain ⟨front, took, related⟩ := first input a middle found
  obtain ⟨back, took', related'⟩ := second middle b rest found'
  rw [took'.items] at related
  exact ⟨front ++ back, took.trans took', front, back, rfl, related, related'⟩

theorem Ensures.pair (first : p.Ensures P) (second : q.Ensures Q) :
    (p.pair q).Ensures fun read value =>
      ∃ front back, read = front ++ back ∧ P front value.1 ∧ Q back value.2 :=
  (first.leaves.pair second.leaves).ensures

theorem Ensures.first (first : p.Ensures P) (second : q.Ensures Q) :
    (p.first q).Ensures fun read value =>
      ∃ front back b, read = front ++ back ∧ P front value ∧ Q back b := by
  refine ((first.pair second).map Prod.fst).imp ?_
  rintro read _ ⟨⟨a, b⟩, ⟨front, back, split, related, related'⟩, rfl⟩
  exact ⟨front, back, b, split, related, related'⟩

theorem Ensures.between [LawfulBEq ι] (ensures : p.Ensures P) (opening closing : ι) :
    (Reader.between opening closing p).Ensures fun read value =>
      ∃ first inside last, read = (opening, first) :: (inside ++ [(closing, last)]) ∧
        P inside value := by
  have second := (ensures_exactly (x := opening)).pair ensures
  refine ((second.map Prod.snd).first (ensures_exactly (x := closing))).imp ?_
  rintro read _ ⟨front, back, _, rfl, ⟨⟨_, value⟩, ⟨_, inside, rfl, ⟨first, rfl⟩, related⟩, rfl⟩,
    ⟨last, rfl⟩⟩
  exact ⟨first, inside, last, by simp, related⟩

theorem leaves_choice (first : p.Leaves R) (others : ∀ p' ∈ ps, p'.Leaves R) :
    (choice p ps).Leaves R := by
  intro input value rest ok
  rw [result?_choice] at ok
  obtain ⟨p', mem, found⟩ := List.exists_of_findSome?_eq_some ok
  rcases List.mem_cons.mp mem with rfl | mem
  · exact first input value rest found
  · exact others p' mem input value rest found

theorem ensures_choice (first : p.Ensures P) (others : ∀ p' ∈ ps, p'.Ensures P) :
    (choice p ps).Ensures P :=
  (leaves_choice first.leaves fun p' mem => (others p' mem).leaves).ensures

/-- Piece after piece has been read. -/
inductive Joined (P : List (ι × Span) → α → Prop) : List (ι × Span) → List α → Prop
  | nil : Joined P [] []
  | cons {read more : List (ι × Span)} {value : α} {values : List α} (first : P read value)
      (others : Joined P more values) : Joined P (read ++ more) (value :: values)

omit [BEq ι] in
/-- What all that was read has in common passes to the values. -/
theorem Joined.forall_mem {Q : ι × Span → Prop} {R : α → Prop} {read : List (ι × Span)}
    {values : List α} (joined : Joined P read values)
    (passes : ∀ read value, P read value → (∀ item ∈ read, Q item) → R value)
    (all : ∀ item ∈ read, Q item) : ∀ value ∈ values, R value := by
  induction joined with
  | nil => exact nofun
  | cons first _ ih =>
      obtain ⟨front, behind⟩ := List.forall_mem_append.mp all
      exact List.forall_mem_cons.mpr ⟨passes _ _ first front, ih behind⟩

theorem Ensures.manyUpTo (ensures : p.Ensures P) (n : Nat) (passed : Option (Failure ι)) :
    (manyUpTo p n passed).Ensures (Joined P) := by
  induction n generalizing passed with
  | zero =>
      intro input value rest ok
      cases ok
      exact ⟨[], .nil input, .nil⟩
  | succ n ih =>
      intro input values rest ok
      rw [Reader.manyUpTo] at ok
      split at ok
      · cases ok
        exact ⟨[], .nil input, .nil⟩
      · next value middle passed' replied =>
          obtain ⟨read, took, related⟩ := ensures input value middle (by rw [replied]; rfl)
          obtain ⟨more, took', values, joined, rfl⟩ :=
            (ih _).map (value :: ·) middle values rest ok
          exact ⟨read ++ more, took.trans took', .cons related joined⟩

theorem Ensures.many (ensures : p.Ensures P) : p.many.Ensures (Joined P) :=
  fun input => ensures.manyUpTo _ none input

/-- What is read is followed by items that cannot be read in the same way. -/
theorem leaves_many_satisfying (accepts : ι → Bool) :
    (satisfying accepts).many.Leaves fun read rest _ =>
      (∀ item ∈ read, accepts item.1 = true) ∧ Stops accepts rest := by
  rintro ⟨items, stop, finish⟩ value rest ok
  let read := items.takeWhile fun item => accepts item.1
  let others := items.dropWhile fun item => accepts item.1
  have split : read ++ others = items := List.takeWhile_append_dropWhile
  have all : ∀ item ∈ read, accepts item.1 = true := List.all_eq_true.mp List.all_takeWhile
  have stops : Stops accepts others := by
    intro item mem
    have refused := List.head?_dropWhile_not (fun item : ι × Span => accepts item.1) items
    rw [Option.mem_def.mp mem] at refused
    exact refused
  have repeats : Repeats (satisfying accepts) others read _ := .of_satisfying all
  have found := repeats.reads_many stops.rejects stop finish
  rw [split, ok] at found
  cases found
  exact ⟨read, ⟨split.symm, rfl⟩, all, stops⟩

theorem Ensures.skipTo (ensures : p.Ensures P) :
    (skipTo p).Ensures fun read value => ∃ front back, read = front ++ back ∧ P back value := by
  rintro ⟨items, stop, finish⟩ value rest ok
  induction items generalizing stop with
  | nil =>
      rw [result?_skipTo_nil] at ok
      obtain ⟨read, took, related⟩ := ensures _ value rest ok
      exact ⟨read, took, [], read, rfl, related⟩
  | cons item items ih =>
      rw [result?_skipTo_cons, Option.or_eq_some_iff] at ok
      rcases ok with here | ⟨_, later⟩
      · obtain ⟨read, took, related⟩ := ensures _ value rest here
        exact ⟨read, took, [], read, rfl, related⟩
      · obtain ⟨read, took, front, back, split, related⟩ := ih item.2.stop later
        refine ⟨item :: read, ⟨?_, took.stop⟩, item :: front, back, by rw [split]; rfl, related⟩
        rw [List.cons_append, ← took.items]

theorem Ensures.many1 (ensures : p.Ensures P) :
    p.many1.Ensures fun read values => Joined P read values ∧ values ≠ [] := by
  intro input values rest ok
  rw [Reader.many1] at ok
  split at ok
  · cases ok
  · next value middle passed replied =>
      obtain ⟨read, took, related⟩ := ensures input value middle (by rw [replied]; rfl)
      obtain ⟨more, took', values, joined, rfl⟩ :=
        (ensures.manyUpTo _ _).map (value :: ·) middle values rest ok
      exact ⟨read ++ more, took.trans took', .cons related joined, List.cons_ne_nil _ _⟩

end Reader

end TermMachine
