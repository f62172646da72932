import TermMachine.Proofs.Clause

/-! # The grammar of clauses

A clause is a sequence of pieces and a full stop. A piece is a token that is an item by itself, or
brackets with pieces between them. `Pieces` are the trees of this grammar, which says nothing of
what the tokens mean; `Mean` says what they mean, from the inside out, and leaves out every tree
with items in brackets that make no term.

`ofTokens_eq_ok_iff`: the reader of clauses takes just what the grammar has a tree with a meaning
for, and gives that meaning. No tokens have two trees, and no tree has two meanings.
-/

namespace TermMachine

def Item.isComma : Item → Bool
  | .comma _ => true
  | .operand _ _ | .name _ | .bar _ => false

namespace Clause

/-! ## Trees -/

/-- A token that is an item by itself. -/
inductive Leaf where
  | var (text : String)
  | number (value : Numeral)
  | name (text : String)
  | comma
  | bar

def Leaf.token : Leaf → Token
  | .var text => .var text
  | .number value => .number value
  | .name text => .name text
  | .comma => .comma
  | .bar => .bar

/-- Brackets, the first kind with the name that they hold the arguments of. -/
inductive Bracket where
  | functor (text : String)
  | round
  | curly
  | square

def Bracket.opening : Bracket → Token
  | .functor text => .functor text
  | .round => .openRound
  | .curly => .openCurly
  | .square => .openSquare

def Bracket.closing : Bracket → Token
  | .functor _ | .round => .closeRound
  | .curly => .closeCurly
  | .square => .closeSquare

mutual

/-- What is read as one item. Every token knows its place. -/
inductive Piece where
  | leaf (leaf : Leaf) (span : Span)
  /-- A name with nothing between its brackets. -/
  | empty (text : String) (opening closing : Span)
  | bracketed (bracket : Bracket) (opening : Span) (inside : Pieces) (closing : Span)

inductive Pieces where
  | last (piece : Piece)
  | more (piece : Piece) (others : Pieces)

end

mutual

def Piece.tokens : Piece → List (Token × Span)
  | .leaf leaf span => [(leaf.token, span)]
  | .empty text opening closing => [(.functor text, opening), (.closeRound, closing)]
  | .bracketed bracket opening inside closing =>
      (bracket.opening, opening) :: (inside.tokens ++ [(bracket.closing, closing)])

def Pieces.tokens : Pieces → List (Token × Span)
  | .last piece => piece.tokens
  | .more piece others => piece.tokens ++ others.tokens

end

/-! ## Meanings -/

variable (table : OperatorTable)

/-- Items are arguments if the parts between the commas are terms. -/
inductive AreArguments (span : Span) : List Item → List SourceTerm → Prop
  | last {part : List Item} {t : SourceTerm} (whole : ∀ item ∈ part, item.isComma = false)
      (resolved : Priority.resolve table argumentPriority part span = .ok t) :
      AreArguments span part [t]
  | more {part items : List Item} {comma : Span} {t : SourceTerm} {ts : List SourceTerm}
      (whole : ∀ item ∈ part, item.isComma = false)
      (resolved : Priority.resolve table argumentPriority part span = .ok t)
      (others : AreArguments span items ts) :
      AreArguments span (part ++ .comma comma :: items) (t :: ts)

def listOf (ts : List SourceTerm) (tail : SourceTerm) : SourceTerm :=
  ts.foldr (fun head tail => .compound (Name.unplaced listCellName) [head, tail]) tail

/-- Items are a list if those in front of the first bar are arguments. What is behind the bar is the
tail, as one term. -/
inductive IsList (span : Span) : List Item → SourceTerm → Prop
  | closed {items : List Item} {ts : List SourceTerm} (barless : ∀ item ∈ items, item.isBar = false)
      (elements : AreArguments table span items ts) :
      IsList span items (listOf ts (.atom ⟨emptyListName, .point span.stop⟩))
  | barred {front back : List Item} {bar : Span} {ts : List SourceTerm} {tail : SourceTerm}
      (barless : ∀ item ∈ front, item.isBar = false) (elements : AreArguments table span front ts)
      (resolved : Priority.resolve table argumentPriority back span = .ok tail) :
      IsList span (front ++ .bar bar :: back) (listOf ts tail)

/-- The term that brackets make of the items between them. The items cover the stretch `inside`, and
`opening` and `closing` are the places of the brackets. -/
inductive Bracket.Makes (opening inside closing : Span) (items : List Item) :
    Bracket → SourceTerm → Prop
  | functor {text : String} {ts : List SourceTerm} (args : AreArguments table inside items ts) :
      Makes opening inside closing items (.functor text) (.compound ⟨text, opening⟩ ts)
  | round {t : SourceTerm} (resolved : Priority.resolve table maxPriority items inside = .ok t) :
      Makes opening inside closing items .round t
  | curly {t : SourceTerm} (resolved : Priority.resolve table maxPriority items inside = .ok t) :
      Makes opening inside closing items .curly
        (.compound ⟨curlyName, ⟨opening.start, closing.stop⟩⟩ [t])
  | square {t : SourceTerm} (list : IsList table ⟨opening.start, closing.stop⟩ items t) :
      Makes opening inside closing items .square t

def Leaf.item (span : Span) : Leaf → Item
  | .var text => .operand (.var ⟨text, span⟩) span
  | .number value => .operand (.number value) span
  | .name text => .name ⟨text, span⟩
  | .comma => .comma span
  | .bar => .bar span

mutual

inductive Piece.Means : Piece → Item → Prop
  | leaf {leaf : Leaf} {span : Span} : Piece.Means (.leaf leaf span) (leaf.item span)
  | empty {text : String} {opening closing : Span} :
      Piece.Means (.empty text opening closing)
        (.operand (.compound ⟨text, opening⟩ []) ⟨opening.start, closing.stop⟩)
  | bracketed {bracket : Bracket} {opening closing : Span} {inside : Pieces} {items : List Item}
      {t : SourceTerm} (mean : Pieces.Mean inside items)
      (makes : bracket.Makes table opening (Reader.stretch inside.tokens) closing items t) :
      Piece.Means (.bracketed bracket opening inside closing)
        (.operand t ⟨opening.start, closing.stop⟩)

inductive Pieces.Mean : Pieces → List Item → Prop
  | last {piece : Piece} {item : Item} (means : Piece.Means piece item) :
      Pieces.Mean (.last piece) [item]
  | more {piece : Piece} {others : Pieces} {item : Item} {items : List Item}
      (means : Piece.Means piece item) (mean : Pieces.Mean others items) :
      Pieces.Mean (.more piece others) (item :: items)

end

/-- The tokens are the pieces and a full stop. -/
def Pieces.Spell (pieces : Pieces) (tokens : List (Token × Span)) : Prop :=
  ∃ stop, tokens = pieces.tokens ++ [(.clauseEnd, stop)]

/-- The pieces are one term together. -/
def Pieces.Value (pieces : Pieces) (t : SourceTerm) : Prop :=
  ∃ items, pieces.Mean table items ∧
    Priority.resolve table maxPriority items (Reader.stretch pieces.tokens) = .ok t

variable {table}

/-! ## Items between commas and in front of bars -/

theorem splitCommas_of_whole {part : List Item} (whole : ∀ item ∈ part, item.isComma = false) :
    Item.splitCommas part = [part] := by
  induction part with
  | nil => rfl
  | cons item part ih =>
      obtain ⟨first, others⟩ := List.forall_mem_cons.mp whole
      cases item with
      | comma span => cases first
      | operand _ _ => simp only [Item.splitCommas, ih others]
      | name _ => simp only [Item.splitCommas, ih others]
      | bar _ => simp only [Item.splitCommas, ih others]

theorem splitCommas_append {part : List Item} (whole : ∀ item ∈ part, item.isComma = false)
    (comma : Span) (items : List Item) :
    Item.splitCommas (part ++ .comma comma :: items) = part :: Item.splitCommas items := by
  induction part with
  | nil => rfl
  | cons item part ih =>
      obtain ⟨first, others⟩ := List.forall_mem_cons.mp whole
      cases item with
      | comma span => cases first
      | operand _ _ => simp only [List.cons_append, Item.splitCommas, ih others]
      | name _ => simp only [List.cons_append, Item.splitCommas, ih others]
      | bar _ => simp only [List.cons_append, Item.splitCommas, ih others]

/-- A sequence has no item of a kind, or it has a first one. -/
theorem exists_first (kind : Item → Bool) (items : List Item) :
    (∀ item ∈ items, kind item = false) ∨
      ∃ front item back, items = front ++ item :: back ∧ kind item = true ∧
        ∀ other ∈ front, kind other = false := by
  cases found : items.find? kind with
  | none => exact .inl (by simpa using found)
  | some item =>
      obtain ⟨here, front, back, split, others⟩ := List.find?_eq_some_iff_append.mp found
      exact .inr ⟨front, item, back, split, here, by simpa using others⟩

theorem arguments_of_areArguments {span : Span} {items : List Item} {ts : List SourceTerm}
    (args : AreArguments table span items ts) : Priority.arguments table items span = .ok ts := by
  induction args with
  | last whole resolved =>
      simp only [Priority.arguments, splitCommas_of_whole whole, collect, resolved]
  | more whole resolved _ ih =>
      unfold Priority.arguments at ih ⊢
      rw [splitCommas_append whole]
      exact collect_cons_eq_ok_iff.mpr ⟨_, _, resolved, ih, rfl⟩

theorem areArguments_of_arguments {span : Span} {items : List Item} {ts : List SourceTerm}
    (ok : Priority.arguments table items span = .ok ts) : AreArguments table span items ts := by
  induction size : items.length using Nat.strongRecOn generalizing items ts with
  | ind n ih =>
      unfold Priority.arguments at ok
      rcases exists_first Item.isComma items with whole | ⟨part, item, others, rfl, comma, whole⟩
      · rw [splitCommas_of_whole whole] at ok
        obtain ⟨t, _, resolved, nothing, rfl⟩ := collect_cons_eq_ok_iff.mp ok
        cases nothing
        exact .last whole resolved
      · cases item with
        | comma span =>
            rw [splitCommas_append whole] at ok
            obtain ⟨t, ts, resolved, rest, rfl⟩ := collect_cons_eq_ok_iff.mp ok
            have shorter : others.length < n := by
              rw [← size, List.length_append, List.length_cons]
              omega
            exact .more whole resolved (ih _ shorter rest rfl)
        | operand _ _ => cases comma
        | name _ => cases comma
        | bar _ => cases comma

theorem arguments_eq_ok_iff {span : Span} {items : List Item} {ts : List SourceTerm} :
    Priority.arguments table items span = .ok ts ↔ AreArguments table span items ts :=
  ⟨areArguments_of_arguments, arguments_of_areArguments⟩

theorem takeWhile_barless {items : List Item} (barless : ∀ item ∈ items, item.isBar = false) :
    items.takeWhile (fun item => !item.isBar) = items ∧
      items.dropWhile (fun item => !item.isBar) = [] := by
  have all : ∀ item ∈ items, (!item.isBar) = true := by simpa using barless
  rw [← List.append_nil items, List.takeWhile_append_of_pos all, List.dropWhile_append_of_pos all]
  exact ⟨rfl, rfl⟩

theorem takeWhile_bar {front : List Item} (barless : ∀ item ∈ front, item.isBar = false)
    (bar : Span) (back : List Item) :
    (front ++ .bar bar :: back).takeWhile (fun item => !item.isBar) = front ∧
      (front ++ .bar bar :: back).dropWhile (fun item => !item.isBar) = .bar bar :: back := by
  have all : ∀ item ∈ front, (!item.isBar) = true := by simpa using barless
  rw [List.takeWhile_append_of_pos all, List.dropWhile_append_of_pos all]
  exact ⟨List.append_nil front, rfl⟩

theorem list_eq_ok_iff {span : Span} {items : List Item} {t : SourceTerm} :
    Priority.list table items span = .ok t ↔ IsList table span items t := by
  constructor
  · intro ok
    unfold Priority.list Priority.listTail at ok
    rcases exists_first Item.isBar items with barless | ⟨front, item, back, rfl, bar, barless⟩
    · obtain ⟨taken, dropped⟩ := takeWhile_barless barless
      simp only [taken, dropped] at ok
      split at ok
      · cases ok
      · next elements =>
          cases ok
          exact .closed barless (arguments_eq_ok_iff.mp elements)
    · cases item with
      | bar span =>
          obtain ⟨taken, dropped⟩ := takeWhile_bar barless span back
          simp only [taken, dropped] at ok
          split at ok
          · cases ok
          · next resolved =>
              split at ok
              · cases ok
              · next elements =>
                  cases ok
                  exact .barred barless (arguments_eq_ok_iff.mp elements) resolved
      | operand _ _ => cases bar
      | name _ => cases bar
      | comma _ => cases bar
  · intro list
    unfold Priority.list Priority.listTail
    cases list with
    | closed barless elements =>
        obtain ⟨taken, dropped⟩ := takeWhile_barless barless
        simp only [taken, dropped, arguments_eq_ok_iff.mpr elements]
        rfl
    | @barred front back bar ts tail barless elements resolved =>
        obtain ⟨taken, dropped⟩ := takeWhile_bar barless bar back
        simp only [taken, dropped, resolved, arguments_eq_ok_iff.mpr elements]
        rfl

/-! ## One tree for the tokens -/

def Closes (token : Token) : Prop :=
  token = .closeRound ∨ token = .closeCurly ∨ token = .closeSquare ∨ token = .clauseEnd

theorem closes_closing (bracket : Bracket) : Closes bracket.closing := by
  cases bracket <;> simp [Closes, Bracket.closing]

theorem Leaf.not_closes (leaf : Leaf) : ¬Closes leaf.token := by
  cases leaf <;> simp [Closes, Leaf.token]

theorem Bracket.not_closes (bracket : Bracket) : ¬Closes bracket.opening := by
  cases bracket <;> simp [Closes, Bracket.opening]

theorem Leaf.token_inj {leaf leaf' : Leaf} (same : leaf.token = leaf'.token) : leaf = leaf' := by
  cases leaf <;> cases leaf' <;> simp_all [Leaf.token]

theorem Bracket.opening_inj {bracket bracket' : Bracket}
    (same : bracket.opening = bracket'.opening) : bracket = bracket' := by
  cases bracket <;> cases bracket' <;> simp_all [Bracket.opening]

theorem Leaf.token_ne_opening (leaf : Leaf) (bracket : Bracket) :
    leaf.token ≠ bracket.opening := by
  cases leaf <;> cases bracket <;> simp [Leaf.token, Bracket.opening]

/-- No piece begins with a token that ends pieces. -/
theorem Piece.exists_start (piece : Piece) :
    ∃ token span more, piece.tokens = (token, span) :: more ∧ ¬Closes token := by
  cases piece with
  | leaf leaf span => exact ⟨_, span, _, rfl, leaf.not_closes⟩
  | empty text opening closing =>
      exact ⟨_, opening, _, rfl, (Bracket.functor text).not_closes⟩
  | bracketed bracket opening inside closing => exact ⟨_, opening, _, rfl, bracket.not_closes⟩

theorem Pieces.exists_start (pieces : Pieces) :
    ∃ token span more, pieces.tokens = (token, span) :: more ∧ ¬Closes token := by
  cases pieces with
  | last piece => exact piece.exists_start
  | more piece others =>
      obtain ⟨token, span, more, tokens, opens⟩ := piece.exists_start
      exact ⟨token, span, more ++ others.tokens, by rw [Pieces.tokens, tokens]; rfl, opens⟩

theorem Piece.tokens_ne_nil (piece : Piece) : piece.tokens ≠ [] := by
  obtain ⟨token, span, more, tokens, _⟩ := piece.exists_start
  simp [tokens]

theorem Pieces.tokens_ne_nil (pieces : Pieces) : pieces.tokens ≠ [] := by
  obtain ⟨token, span, more, tokens, _⟩ := pieces.exists_start
  simp [tokens]

theorem Pieces.not_closed (pieces : Pieces) {token : Token} (closes : Closes token) {span : Span}
    {rest rest' : List (Token × Span)} : (token, span) :: rest ≠ pieces.tokens ++ rest' := by
  obtain ⟨first, place, more, tokens, opens⟩ := pieces.exists_start
  rw [tokens, List.cons_append]
  intro same
  obtain ⟨rfl, _⟩ := Prod.mk.inj (List.cons.inj same).1
  exact opens closes

theorem tokens_bracketed_append (bracket : Bracket) (opening closing : Span) (inside : Pieces)
    (rest : List (Token × Span)) :
    (Piece.bracketed bracket opening inside closing).tokens ++ rest =
      (bracket.opening, opening) :: (inside.tokens ++ (bracket.closing, closing) :: rest) := by
  simp [Piece.tokens]

mutual

/-- The tokens show where a piece ends, whatever is behind it. -/
theorem Piece.eq_of_tokens_append {rest rest' : List (Token × Span)} :
    (piece piece' : Piece) → piece.tokens ++ rest = piece'.tokens ++ rest' →
      piece = piece' ∧ rest = rest'
  | .leaf leaf span, .leaf leaf' span', same => by
      simp only [Piece.tokens, List.cons_append, List.nil_append, List.cons.injEq,
        Prod.mk.injEq] at same
      obtain ⟨⟨token, rfl⟩, rfl⟩ := same
      exact ⟨by rw [Leaf.token_inj token], rfl⟩
  | .leaf leaf span, .empty text opening closing, same => by
      have token := (Prod.mk.inj (List.cons.inj same).1).1
      exact absurd token (leaf.token_ne_opening (.functor text))
  | .leaf leaf span, .bracketed bracket opening inside closing, same => by
      have token := (Prod.mk.inj (List.cons.inj same).1).1
      exact absurd token (leaf.token_ne_opening bracket)
  | .empty text opening closing, .leaf leaf span, same => by
      have token := (Prod.mk.inj (List.cons.inj same).1).1
      exact absurd token.symm (leaf.token_ne_opening (.functor text))
  | .empty text opening closing, .empty text' opening' closing', same => by
      simp only [Piece.tokens, List.cons_append, List.nil_append, List.cons.injEq,
        Prod.mk.injEq, Token.functor.injEq, true_and] at same
      obtain ⟨⟨rfl, rfl⟩, rfl, rfl⟩ := same
      exact ⟨rfl, rfl⟩
  | .empty text opening closing, .bracketed bracket opening' inside closing', same => by
      rw [tokens_bracketed_append] at same
      exact absurd (List.cons.inj same).2 (inside.not_closed (.inl rfl))
  | .bracketed bracket opening inside closing, .leaf leaf span, same => by
      have token := (Prod.mk.inj (List.cons.inj same).1).1
      exact absurd token.symm (leaf.token_ne_opening bracket)
  | .bracketed bracket opening inside closing, .empty text opening' closing', same => by
      rw [tokens_bracketed_append] at same
      exact absurd (List.cons.inj same).2.symm (inside.not_closed (.inl rfl))
  | .bracketed bracket opening inside closing, .bracketed bracket' opening' inside' closing',
      same => by
      rw [tokens_bracketed_append, tokens_bracketed_append] at same
      obtain ⟨first, others⟩ := List.cons.inj same
      obtain ⟨token, rfl⟩ := Prod.mk.inj first
      obtain rfl := Bracket.opening_inj token
      obtain ⟨rfl, behind⟩ := Pieces.eq_of_tokens_append inside inside' (closes_closing bracket)
        (closes_closing bracket) others
      obtain ⟨last, rfl⟩ := List.cons.inj behind
      obtain ⟨_, rfl⟩ := Prod.mk.inj last
      exact ⟨rfl, rfl⟩

/-- A token that ends pieces shows where they end. -/
theorem Pieces.eq_of_tokens_append {token token' : Token} {span span' : Span}
    {rest rest' : List (Token × Span)} :
    (pieces pieces' : Pieces) → Closes token → Closes token' →
      pieces.tokens ++ (token, span) :: rest = pieces'.tokens ++ (token', span') :: rest' →
        pieces = pieces' ∧ (token, span) :: rest = (token', span') :: rest'
  | .last piece, .last piece', _, _, same => by
      obtain ⟨rfl, behind⟩ := Piece.eq_of_tokens_append piece piece' same
      exact ⟨rfl, behind⟩
  | .last piece, .more piece' others', closes, _, same => by
      rw [Pieces.tokens, Pieces.tokens, List.append_assoc] at same
      obtain ⟨_, behind⟩ := Piece.eq_of_tokens_append piece piece' same
      exact absurd behind (others'.not_closed closes)
  | .more piece others, .last piece', _, closes', same => by
      rw [Pieces.tokens, Pieces.tokens, List.append_assoc] at same
      obtain ⟨_, behind⟩ := Piece.eq_of_tokens_append piece piece' same
      exact absurd behind.symm (others.not_closed closes')
  | .more piece others, .more piece' others', closes, closes', same => by
      rw [Pieces.tokens, Pieces.tokens, List.append_assoc, List.append_assoc] at same
      obtain ⟨rfl, behind⟩ := Piece.eq_of_tokens_append piece piece' same
      obtain ⟨rfl, ends⟩ := Pieces.eq_of_tokens_append others others' closes closes' behind
      exact ⟨rfl, ends⟩

end

theorem Pieces.Spell.unique {pieces pieces' : Pieces} {tokens : List (Token × Span)}
    (spell : pieces.Spell tokens) (spell' : pieces'.Spell tokens) : pieces = pieces' := by
  obtain ⟨stop, rfl⟩ := spell
  obtain ⟨stop', same⟩ := spell'
  have closes : Closes .clauseEnd := .inr (.inr (.inr rfl))
  exact (Pieces.eq_of_tokens_append pieces pieces' closes closes same).1

/-! ## One meaning for the tree -/

theorem AreArguments.unique {span : Span} {items : List Item} {ts ts' : List SourceTerm}
    (args : AreArguments table span items ts) (args' : AreArguments table span items ts') :
    ts = ts' := by
  have same := (arguments_of_areArguments args).symm.trans (arguments_of_areArguments args')
  exact Except.ok.inj same

theorem IsList.unique {span : Span} {items : List Item} {t t' : SourceTerm}
    (list : IsList table span items t) (list' : IsList table span items t') : t = t' :=
  Except.ok.inj ((list_eq_ok_iff.mpr list).symm.trans (list_eq_ok_iff.mpr list'))

theorem Bracket.Makes.unique {bracket : Bracket} {opening inside closing : Span}
    {items : List Item} {t t' : SourceTerm}
    (makes : bracket.Makes table opening inside closing items t)
    (makes' : bracket.Makes table opening inside closing items t') : t = t' := by
  cases makes with
  | functor args =>
      cases makes' with
      | functor args' => rw [args.unique args']
  | round resolved =>
      cases makes' with
      | round resolved' => exact Except.ok.inj (resolved.symm.trans resolved')
  | curly resolved =>
      cases makes' with
      | curly resolved' => rw [Except.ok.inj (resolved.symm.trans resolved')]
  | square list =>
      cases makes' with
      | square list' => exact list.unique list'

mutual

theorem Piece.Means.unique {item item' : Item} :
    (piece : Piece) → piece.Means table item → piece.Means table item' → item = item'
  | .leaf _ _, means, means' => by
      cases means
      cases means'
      rfl
  | .empty _ _ _, means, means' => by
      cases means
      cases means'
      rfl
  | .bracketed bracket _ inside _, means, means' => by
      cases means with
      | bracketed mean makes =>
          cases means' with
          | bracketed mean' makes' =>
              obtain rfl := Pieces.Mean.unique inside mean mean'
              rw [makes.unique makes']

theorem Pieces.Mean.unique {items items' : List Item} :
    (pieces : Pieces) → pieces.Mean table items → pieces.Mean table items' → items = items'
  | .last piece, mean, mean' => by
      cases mean with
      | last means =>
          cases mean' with
          | last means' => rw [Piece.Means.unique piece means means']
  | .more piece others, mean, mean' => by
      cases mean with
      | more means mean =>
          cases mean' with
          | more means' mean' =>
              rw [Piece.Means.unique piece means means', Pieces.Mean.unique others mean mean']

end

theorem Pieces.Value.unique {pieces : Pieces} {t t' : SourceTerm} (value : pieces.Value table t)
    (value' : pieces.Value table t') : t = t' := by
  obtain ⟨items, mean, resolved⟩ := value
  obtain ⟨items', mean', resolved'⟩ := value'
  obtain rfl := Pieces.Mean.unique pieces mean mean'
  exact Except.ok.inj (resolved.symm.trans resolved')

end Clause

end TermMachine
