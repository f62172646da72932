import TermMachine.Proofs.Solving.Attempt
import TermMachine.Proofs.Solving.Variables

/-! # What the names in an answer mean

A variable name stands in an answer for something in the heap: for an unbound variable, or for a
structure where a term would go on inside of itself. `Explained` is a binding that says what its
names stand for, and an answer is what it looks like once every identity has been given its name.

An answer lists the variables of the query, and those variables of the program whose names the query
does not have. `answer_names`: one name stands for one thing, so far as it is the name of a listed
variable. Everything else is shown with a name that is made of its address, be it what a variable of
the program stands for that is not listed, and these names are not chosen with regard to any others.
Such a name may be that of a listed variable too, and an unbound variable that is the first argument
of a structure has the number that the structure has, `answer_names_clash`.
-/

namespace TermMachine

/-- What stands at a place of an answer: a name that is meant as such, or something in the heap. -/
abbrev Meaning := String ⊕ Identity

namespace Naming

def shown (names : Naming) : Meaning → String := Sum.elim id names.name

/-- None of the variables that the names were taken from stands for the identity, so it has a name
made of its address. In an answer these are the variables that it lists. -/
def Generates (names : Naming) (i : Identity) (name : String) : Prop :=
  names.lookup i = none ∧ name = i.text

theorem name_cases (names : Naming) (i : Identity) :
    names.lookup i = some (names.name i) ∨ names.Generates i (names.name i) := by
  unfold name
  cases found : names.lookup i with
  | none => exact .inr ⟨found, rfl⟩
  | some name => exact .inl rfl

end Naming

def Identity.address : Identity → Address
  | .unbound address => address
  | .compound first => first

theorem Identity.text_eq_iff {i j : Identity} : i.text = j.text ↔ i.address = j.address := by
  have text (i : Identity) : i.text = "_G" ++ toString i.address := by cases i <;> rfl
  rw [text, text, String.append_right_inj]
  refine ⟨fun same => ?_, congrArg toString⟩
  rw [Nat.toString_eq_ofList_toDigits, Nat.toString_eq_ofList_toDigits, String.ofList_inj] at same
  have digits := congrArg (fun ds => Nat.ofDigitChars 10 ds 0) same
  simpa using digits

/-! ## Terms without names for identities -/

theorem collect_map {α β γ ε : Type} {f : α → Except ε γ} {g : α → Except ε β} {φ : β → γ}
    {as : List α} (each : ∀ a ∈ as, f a = (g a).map φ) :
    collect f as = (collect g as).map (List.map φ) := by
  induction as with
  | nil => rfl
  | cons a as ih =>
      have first := each a List.mem_cons_self
      have rest := ih fun b mem => each b (List.mem_cons_of_mem _ mem)
      unfold collect
      rw [first, rest]
      cases g a with
      | error e => rfl
      | ok b =>
          cases collect g as with
          | error e => rfl
          | ok bs => rfl

namespace Heap

/-- The term at an address as `reifyWithin` reads it, before identities are given names. -/
def unnamedWithin (h : Heap) : Nat → List Identity → Address → Except ReifyError (TermOf Meaning)
  | 0, _, _ => .error .tooDeep
  | depth + 1, parents, a =>
      match h.inspect a with
      | .error e => .error (.memory e)
      | .ok (a, .unbound) => .ok (.var (.inr (.unbound a)))
      | .ok (_, .compound s first) =>
          if parents.contains (.compound first) then .ok (.var (.inr (.compound first)))
          else if s.arity = 0 then .ok (.atom (.inl s.name))
          else
            match collect (h.unnamedWithin depth (.compound first :: parents))
                (Arguments.addresses ⟨first, s.arity⟩) with
            | .error e => .error e
            | .ok args => .ok (.compound (.inl s.name) args)

/-- The term at an address, before identities are given names. -/
def unnamed (h : Heap) (a : Address) : Except ReifyError (TermOf Meaning) :=
  h.unnamedWithin (h.top + 2) [] a

theorem reifyWithin_eq_map (h : Heap) (names : Naming) (depth : Nat) (parents : List Identity)
    (a : Address) : h.reifyWithin names depth parents a =
      (h.unnamedWithin depth parents a).map (TermOf.map names.shown) := by
  induction depth generalizing parents a with
  | zero => rfl
  | succ depth ih =>
      cases inspected : h.inspect a with
      | error e =>
          simp only [reifyWithin, unnamedWithin, inspected]
          rfl
      | ok found =>
          obtain ⟨b, v⟩ := found
          cases v with
          | unbound =>
              simp only [reifyWithin, unnamedWithin, inspected]
              rfl
          | compound s first =>
              simp only [reifyWithin, unnamedWithin, inspected]
              by_cases inside : parents.contains (.compound first) = true
              · rw [if_pos inside, if_pos inside]
                rfl
              · rw [if_neg inside, if_neg inside]
                by_cases constant : s.arity = 0
                · rw [if_pos constant, if_pos constant]
                  rfl
                · rw [if_neg constant, if_neg constant,
                    collect_map fun b _ => ih (.compound first :: parents) b]
                  cases collect (h.unnamedWithin depth (.compound first :: parents))
                      (Arguments.addresses ⟨first, s.arity⟩) with
                  | error e => rfl
                  | ok args =>
                      show Except.ok _ = Except.ok (TermOf.map names.shown (.compound _ args))
                      rw [TermOf.map, TermOf.mapAll_eq_map]
                      rfl

theorem reify_eq_map (h : Heap) (names : Naming) (a : Address) :
    h.reify names a = (h.unnamed a).map (TermOf.map names.shown) :=
  h.reifyWithin_eq_map names (h.top + 2) [] a

/-- Only identities stand where a term from the heap has variables. -/
theorem occurrences_unnamedWithin {h : Heap} {depth : Nat} {parents : List Identity} {a : Address}
    {t : TermOf Meaning} (ok : h.unnamedWithin depth parents a = .ok t) :
    ∀ d ∈ t.occurrences, ∃ i, d = .inr i := by
  induction depth generalizing parents a t with
  | zero => cases ok
  | succ depth ih =>
      unfold unnamedWithin at ok
      split at ok
      · cases ok
      · cases ok
        exact fun d mem => ⟨_, List.mem_singleton.mp mem⟩
      · next s first _ =>
          split at ok
          · cases ok
            exact fun d mem => ⟨_, List.mem_singleton.mp mem⟩
          · split at ok
            · cases ok
              exact fun _ => nofun
            · split at ok
              · cases ok
              · next args read =>
                  cases ok
                  intro d mem
                  obtain ⟨t, child, occurs⟩ : ∃ t ∈ args, d ∈ t.occurrences := by
                    rw [TermOf.occurrences, Term.occurrencesAll_eq_flatMap] at mem
                    exact List.mem_flatMap.mp mem
                  obtain ⟨b, _, here⟩ := exists_of_collect read child
                  exact ih here d occurs

end Heap

/-! ## Explained answers -/

/-- A binding that says what its names stand for. -/
structure Explained where
  name : String
  meaning : Meaning
  value : TermOf Meaning
deriving Repr, DecidableEq

namespace Explained

def binding (names : Naming) (e : Explained) : String × Term :=
  (e.name, e.value.map names.shown)

/-- Every place where the binding has the name of a variable, with what stands there. -/
def places (names : Naming) (e : Explained) : List (String × Meaning) :=
  (e.name, e.meaning) :: e.value.occurrences.map fun d => (names.shown d, d)

end Explained

/-- The value of a variable, and what the variable itself stands for. -/
def Heap.explain (h : Heap) : String × Option Address → Except ReifyError Explained
  | (name, none) => .ok ⟨name, .inl name, .var (.inl name)⟩
  | (name, some a) =>
      match h.inspect a with
      | .error e => .error (.memory e)
      | .ok (b, v) => (h.unnamed a).map fun t => ⟨name, .inr (.of b v), t⟩

/-- What a variable stands for: only for itself if no register was ever written for it. -/
def Heap.Means (h : Heap) : String × Option Address → Meaning → Prop
  | (name, none), d => d = .inl name
  | (_, some a), d => ∃ i, h.identity a = some i ∧ d = .inr i

theorem Heap.Means.unique {h : Heap} {pair : String × Option Address} {d d' : Meaning}
    (means : h.Means pair d) (means' : h.Means pair d') : d = d' := by
  obtain ⟨name, slot⟩ := pair
  cases slot with
  | none => exact Eq.trans means (Eq.symm means')
  | some a =>
      obtain ⟨i, found, rfl⟩ := means
      obtain ⟨j, found', rfl⟩ := means'
      rw [found, Option.some.injEq] at found'
      rw [found']

namespace Answer

variable {h : Heap} {vars : List (String × Option Address)} {names : Naming}
  {explained : List Explained}

theorem inspect_of_nameAll {names' : Naming} (named : nameAll h names vars = .ok names')
    {name : String} {a : Address} (mem : (name, some a) ∈ vars) :
    ∃ b v, h.inspect a = .ok (b, v) := by
  induction vars generalizing names with
  | nil => cases mem
  | cons pair vars ih =>
      obtain ⟨name', slot⟩ := pair
      cases slot with
      | none => exact ih named ((List.mem_cons.mp mem).resolve_left nofun)
      | some a' =>
          unfold nameAll at named
          split at named
          · cases named
          · next b v inspected =>
              rcases List.mem_cons.mp mem with same | mem
              · cases same
                exact ⟨b, v, inspected⟩
              · exact ih named mem

theorem explain_of_value {pair : String × Option Address} {binding : String × Term}
    (valued : value h names pair = .ok binding)
    (found : ∀ a, pair.2 = some a → ∃ b v, h.inspect a = .ok (b, v)) :
    ∃ e, h.explain pair = .ok e ∧ e.binding names = binding := by
  obtain ⟨name, slot⟩ := pair
  cases slot with
  | none =>
      cases valued
      exact ⟨_, rfl, rfl⟩
  | some a =>
      obtain ⟨b, v, inspected⟩ := found a rfl
      simp only [value, Heap.reify_eq_map] at valued
      cases unnamed : h.unnamed a with
      | error e => simp [unnamed, Except.map] at valued
      | ok t =>
          simp only [unnamed, Except.map, Except.ok.injEq] at valued
          refine ⟨⟨name, .inr (.of b v), t⟩, ?_, valued⟩
          simp only [Heap.explain, inspected, unnamed, Except.map]

/-- Every answer can be explained. -/
theorem exists_explained {bindings : List (String × Term)}
    (valued : collect (value h names) vars = .ok bindings)
    (found : ∀ pair ∈ vars, ∀ a, pair.2 = some a → ∃ b v, h.inspect a = .ok (b, v)) :
    ∃ explained, collect h.explain vars = .ok explained ∧
      bindings = explained.map (Explained.binding names) := by
  induction vars generalizing bindings with
  | nil =>
      cases valued
      exact ⟨[], rfl, rfl⟩
  | cons pair vars ih =>
      unfold collect at valued
      split at valued
      · cases valued
      · next binding here =>
          split at valued
          · cases valued
          · next rest there =>
              cases valued
              obtain ⟨e, read, rfl⟩ := explain_of_value here (found pair List.mem_cons_self)
              obtain ⟨es, reads, rfl⟩ :=
                ih there fun pair mem => found pair (List.mem_cons_of_mem _ mem)
              exact ⟨e :: es, by simp only [collect, read, reads], rfl⟩

/-! ## One name, one meaning -/

/-- Why a name stands somewhere: it is the name of a listed variable that stands for what is there,
or no listed variable does. -/
inductive Named (h : Heap) (vars : List (String × Option Address)) (names : Naming) :
    String → Meaning → Prop
  | chosen {pair : String × Option Address} {d : Meaning} (mem : pair ∈ vars)
      (means : h.Means pair d) : Named h vars names pair.1 d
  | generated {i : Identity} {name : String} (generates : names.Generates i name) :
      Named h vars names name (.inr i)

theorem named_identity (named : nameAll h [] vars = .ok names) (i : Identity) :
    Named h vars names (names.name i) (.inr i) := by
  rcases names.name_cases i with given | generates
  · rw [lookup_of_nameAll named i] at given
    obtain ⟨⟨name, slot⟩, mem, stands⟩ := List.exists_of_findSome?_eq_some given
    rw [standsFor, Option.ite_none_right_eq_some] at stands
    obtain ⟨identified, same⟩ := stands
    cases slot with
    | none => cases identified
    | some a =>
        obtain rfl : name = names.name i := Option.some.inj same
        exact .chosen mem ⟨i, identified, rfl⟩
  · exact .generated generates

theorem named_of_place (named : nameAll h [] vars = .ok names)
    (read : collect h.explain vars = .ok explained) {place : String × Meaning}
    (mem : place ∈ explained.flatMap (Explained.places names)) :
    Named h vars names place.1 place.2 := by
  obtain ⟨e, he, mem⟩ := List.mem_flatMap.mp mem
  obtain ⟨⟨name, slot⟩, variable', here⟩ := exists_of_collect read he
  cases slot with
  | none =>
      cases here
      have own : Named h vars names name (.inl name) := .chosen variable' rfl
      rcases List.mem_cons.mp mem with rfl | mem
      · exact own
      · obtain rfl := List.mem_singleton.mp mem
        exact own
  | some a =>
      simp only [Heap.explain] at here
      split at here
      · cases here
      · next b v inspected =>
          cases unnamed : h.unnamed a with
          | error _ => simp [unnamed, Except.map] at here
          | ok t =>
              simp only [unnamed, Except.map, Except.ok.injEq] at here
              subst here
              rcases List.mem_cons.mp mem with rfl | mem
              · refine .chosen variable' ⟨.of b v, ?_, rfl⟩
                rw [Heap.identity, inspected]
              · obtain ⟨d, occurs, rfl⟩ := List.mem_map.mp mem
                obtain ⟨i, rfl⟩ := Heap.occurrences_unnamedWithin unnamed d occurs
                exact named_identity named i

/-- Two meanings of one name: what the listed variable of this name stands for and something that
has got its name from its address, or an unbound variable and the structure of which it is the first
argument, neither with a listed variable that stands for it. A variable of the program may well
stand for such a thing if the query has one of the same name, which is listed in its place. -/
inductive Clash (h : Heap) (vars : List (String × Option Address)) (names : Naming)
    (name : String) : Meaning → Meaning → Prop
  | chosen {slot : Option Address} {d : Meaning} {i : Identity} (mem : (name, slot) ∈ vars)
      (means : h.Means (name, slot) d) (generates : names.Generates i name) :
      Clash h vars names name d (.inr i)
  | nested {first : Address} (inner : names.Generates (.unbound first) name)
      (outer : names.Generates (.compound first) name) :
      Clash h vars names name (.inr (.unbound first)) (.inr (.compound first))

theorem Named.eq_or_clash (distinct : (vars.map Prod.fst).Nodup) {name : String} {d d' : Meaning}
    (first : Named h vars names name d) (second : Named h vars names name d') :
    d = d' ∨ Clash h vars names name d d' ∨ Clash h vars names name d' d := by
  cases first with
  | @chosen pair _ mem means =>
      generalize shared : pair.1 = name at second
      cases second with
      | @chosen pair' _ mem' means' =>
          have same : pair = pair' := List.inj_on_of_nodup_map distinct mem mem' shared
          subst same
          exact .inl (means.unique means')
      | generated generates =>
          subst shared
          exact .inr (.inl (.chosen mem means generates))
  | @generated i _ generates =>
      cases second with
      | chosen mem' means' => exact .inr (.inr (.chosen mem' means' generates))
      | @generated j _ generates' =>
          have address : i.address = j.address :=
            Identity.text_eq_iff.mp (generates.2.symm.trans generates'.2)
          cases i with
          | unbound k =>
              cases j with
              | unbound l =>
                  obtain rfl : k = l := address
                  exact .inl rfl
              | compound l =>
                  obtain rfl : k = l := address
                  exact .inr (.inl (.nested generates generates'))
          | compound k =>
              cases j with
              | unbound l =>
                  obtain rfl : k = l := address
                  exact .inr (.inr (.nested generates' generates))
              | compound l =>
                  obtain rfl : k = l := address
                  exact .inl rfl

theorem nodup_firstOfEach {α : Type} (pairs : List (String × α)) :
    ((firstOfEach pairs).map Prod.fst).Nodup := by
  induction pairs with
  | nil => exact List.nodup_nil
  | cons pair pairs ih =>
      rw [firstOfEach, List.map_cons, List.nodup_cons]
      constructor
      · intro mem
        obtain ⟨other, listed, same⟩ := List.mem_map.mp mem
        exact bne_iff_ne.mp (List.mem_filter.mp listed).2 same
      · exact ih.sublist (List.filter_sublist.map Prod.fst)

end Answer

/-! ## Answers to queries -/

/-- The answer that an attempt has led to, with the meaning of its names: `vars` are the variables
that it lists, each name once and for the query if the query has it, with the addresses that were
found for them. -/
structure Attempt.Explains (attempt : Attempt) (u : CompiledUnit) (answer : Answer)
    (vars : List (String × Option Address)) (names : Naming) (explained : List Explained) :
    Prop where
  answered : attempt.result = .ok (some answer)
  captured : ∃ built queryVars programVars, attempt.built? = some built ∧
    built.capture u.query.vars = .ok queryVars ∧
    attempt.machine.capture u.program.vars = .ok programVars ∧
    vars = Answer.firstOfEach (queryVars ++ programVars)
  naming : Answer.nameAll attempt.machine.heap [] vars = .ok names
  explanation : collect attempt.machine.heap.explain vars = .ok explained
  bindings : answer.bindings = explained.map (Explained.binding names)

theorem Answer.exists_explained_of_ofVariables {h : Heap} {vars : List (String × Option Address)}
    {answer : Answer} (made : ofVariables h vars = .ok answer) :
    ∃ names explained, nameAll h [] (firstOfEach vars) = .ok names ∧
      collect h.explain (firstOfEach vars) = .ok explained ∧
      answer.bindings = explained.map (Explained.binding names) := by
  unfold ofVariables at made
  dsimp only at made
  split at made
  · cases made
  · next names named =>
      split at made
      · cases made
      · next bindings valued =>
          cases made
          have found : ∀ pair ∈ firstOfEach vars, ∀ a, pair.2 = some a →
              ∃ b v, h.inspect a = .ok (b, v) := by
            intro pair mem a here
            have listed : (pair.1, some a) ∈ firstOfEach vars := here ▸ mem
            exact inspect_of_nameAll named listed
          obtain ⟨explained, read, same⟩ := exists_explained valued found
          exact ⟨names, explained, named, read, same⟩

theorem CompiledUnit.exists_explains {u : CompiledUnit} {fuel : Nat} {limits : Limits}
    {answer : Answer} (solved : (u.solve fuel limits).result = .ok (some answer)) :
    ∃ vars names explained, (u.solve fuel limits).Explains u answer vars names explained := by
  obtain ⟨built, m, queryVars, programVars, succeeds, made, attempt⟩ := exists_succeeds solved
  obtain ⟨names, explained, named, read, same⟩ := Answer.exists_explained_of_ofVariables made
  rw [attempt]
  exact ⟨_, names, explained, rfl,
    ⟨built, queryVars, programVars, rfl, succeeds.ofQuery, succeeds.ofProgram, rfl⟩,
    named, read, same⟩

namespace Attempt.Explains

variable {attempt : Attempt} {query program : Term} {answer : Answer}
  {vars : List (String × Option Address)} {names : Naming} {explained : List Explained}

/-- All variables of the query and the program are listed by name, and no others. -/
theorem mem_names_iff
    (explains : attempt.Explains (.ofTerms query program) answer vars names explained)
    {name : String} : name ∈ vars.map Prod.fst ↔ name ∈ query.vars ∨ name ∈ program.vars := by
  obtain ⟨built, queryVars, programVars, _, ofQuery, ofProgram, rfl⟩ := explains.captured
  rw [Answer.mem_names_firstOfEach, List.map_append, List.mem_append,
    Machine.names_of_capture ofQuery, Machine.names_of_capture ofProgram]
  exact or_congr (by rw [← CompiledTerm.names_vars query]; rfl)
    (by rw [← CompiledTerm.names_vars program]; rfl)

theorem nodup_vars {u : CompiledUnit} (explains : attempt.Explains u answer vars names explained) :
    (vars.map Prod.fst).Nodup := by
  obtain ⟨_, _, _, _, _, _, rfl⟩ := explains.captured
  exact Answer.nodup_firstOfEach _

end Attempt.Explains

/-- An answer lists each name of a variable once. Wherever two of its places have one name, they
stand for one thing in the heap, unless one of them has a generated name that is also the name of a
listed variable, or that an unbound variable and the structure around it share. -/
theorem answer_names (query program : Term) (fuel : Nat) (limits : Limits) (answer : Answer)
    (solved : ((CompiledUnit.ofTerms query program).solve fuel limits).result =
      .ok (some answer)) :
    ∃ vars names explained,
      ((CompiledUnit.ofTerms query program).solve fuel limits).Explains
        (.ofTerms query program) answer vars names explained ∧
      (vars.map Prod.fst).Nodup ∧
      (∀ name, name ∈ vars.map Prod.fst ↔ name ∈ query.vars ∨ name ∈ program.vars) ∧
      ∀ p ∈ explained.flatMap (Explained.places names),
        ∀ q ∈ explained.flatMap (Explained.places names), p.1 = q.1 → p.2 = q.2 ∨
          Answer.Clash ((CompiledUnit.ofTerms query program).solve fuel limits).machine.heap
            vars names p.1 p.2 q.2 ∨
          Answer.Clash ((CompiledUnit.ofTerms query program).solve fuel limits).machine.heap
            vars names p.1 q.2 p.2 := by
  obtain ⟨vars, names, explained, explains⟩ := CompiledUnit.exists_explains solved
  have distinct : (vars.map Prod.fst).Nodup := explains.nodup_vars
  refine ⟨vars, names, explained, explains, distinct, fun name => explains.mem_names_iff, ?_⟩
  intro p hp q hq same
  have first := Answer.named_of_place explains.naming explains.explanation hp
  have second := Answer.named_of_place explains.naming explains.explanation hq
  rw [← same] at second
  exact first.eq_or_clash distinct second

/-- For `f(X, Y)` and `f(g(Z), Z)` the answer has five places, four of them with the name `Y`. -/
theorem answer_names_shared :
    let u := CompiledUnit.ofTerms (.compound "f" [.var "X", .var "Y"])
      (.compound "f" [.compound "g" [.var "Z"], .var "Z"])
    let answer : Answer :=
      ⟨[("X", .compound "g" [.var "Y"]), ("Y", .var "Y"), ("Z", .var "Y")]⟩
    (u.solve 100 .unlimited).result = .ok (some answer) ∧ ∃ vars names explained,
      (u.solve 100 .unlimited).Explains u answer vars names explained ∧
      ∀ p ∈ explained.flatMap (Explained.places names),
        ∀ q ∈ explained.flatMap (Explained.places names), p.1 = q.1 → p.2 = q.2 ∨
          Answer.Clash (u.solve 100 .unlimited).machine.heap vars names p.1 p.2 q.2 ∨
          Answer.Clash (u.solve 100 .unlimited).machine.heap vars names p.1 q.2 p.2 := by
  have solved : ((CompiledUnit.ofTerms (.compound "f" [.var "X", .var "Y"])
      (.compound "f" [.compound "g" [.var "Z"], .var "Z"])).solve 100 .unlimited).result =
      .ok (some ⟨[("X", .compound "g" [.var "Y"]), ("Y", .var "Y"), ("Z", .var "Y")]⟩) := by
    decide +kernel
  obtain ⟨vars, names, explained, explains, _, _, unambiguous⟩ := answer_names _ _ _ _ _ solved
  exact ⟨solved, vars, names, explained, explains, unambiguous⟩

/-- The answer for `f(X, _G6)` and `f(f(X), Y)` is `X = f(_G6)`. There `_G6` is the variable `X` of
the program, which is not listed and has got the name from its address, and not the variable `_G6`
of the query. The answer for `p(A, B, B)` and `p(C, g(B), g(f(A, B)))` is `B = g(f(_G10, _G10))`,
with the variable `A` of the program first and then the structure that the two are in. -/
theorem answer_names_clash :
    (let u := CompiledUnit.ofTerms (.compound "f" [.var "X", .var "_G6"])
        (.compound "f" [.compound "f" [.var "X"], .var "Y"])
      ∃ answer vars names explained,
        (u.solve 100 .unlimited).Explains u answer vars names explained ∧
        ("_G6", .inr (.unbound 3)) ∈ explained.flatMap (Explained.places names) ∧
        ("_G6", .inr (.unbound 6)) ∈ explained.flatMap (Explained.places names)) ∧
    (let u := CompiledUnit.ofTerms (.compound "p" [.var "A", .var "B", .var "B"])
        (.compound "p"
          [.var "C", .compound "g" [.var "B"], .compound "g" [.compound "f" [.var "A", .var "B"]]])
      ∃ answer vars names explained,
        (u.solve 100 .unlimited).Explains u answer vars names explained ∧
        ("_G10", .inr (.unbound 10)) ∈ explained.flatMap (Explained.places names) ∧
        ("_G10", .inr (.compound 10)) ∈ explained.flatMap (Explained.places names)) := by
  constructor
  · intro u
    refine ⟨⟨[("X", .compound "f" [.var "_G6"]), ("_G6", .var "_G6"), ("Y", .var "_G6")]⟩,
      [("X", some 2), ("_G6", some 3), ("Y", some 3)],
      [(.compound 6, "X"), (.unbound 3, "_G6")],
      [⟨"X", .inr (.compound 6), .compound (.inl "f") [.var (.inr (.unbound 6))]⟩,
        ⟨"_G6", .inr (.unbound 3), .var (.inr (.unbound 3))⟩,
        ⟨"Y", .inr (.unbound 3), .var (.inr (.unbound 3))⟩],
      ⟨?_, ?_, ?_, ?_, ?_⟩, ?_, ?_⟩
    · decide +kernel
    · have queried : (u.solve 100 .unlimited).built?.map (fun m => m.capture u.query.vars) =
          some (.ok [("X", some 2), ("_G6", some 3)]) := by decide +kernel
      obtain ⟨built, kept, captured⟩ := Option.map_eq_some_iff.mp queried
      exact ⟨built, _, [("X", some 6), ("Y", some 3)], kept, captured, by decide +kernel, rfl⟩
    · decide +kernel
    · decide +kernel
    · decide +kernel
    · exact List.mem_of_getElem? (i := 2) rfl
    · exact List.mem_of_getElem? (i := 1) rfl
  · intro u
    refine ⟨⟨[("A", .var "A"), ("B", .compound "g" [.compound "f" [.var "_G10", .var "_G10"]]),
        ("C", .var "A")]⟩,
      [("A", some 2), ("B", some 3), ("C", some 2)],
      [(.unbound 2, "A"), (.compound 7, "B")],
      [⟨"A", .inr (.unbound 2), .var (.inr (.unbound 2))⟩,
        ⟨"B", .inr (.compound 7), .compound (.inl "g") [.compound (.inl "f")
          [.var (.inr (.unbound 10)), .var (.inr (.compound 10))]]⟩,
        ⟨"C", .inr (.unbound 2), .var (.inr (.unbound 2))⟩],
      ⟨?_, ?_, ?_, ?_, ?_⟩, ?_, ?_⟩
    · decide +kernel
    · have queried : (u.solve 100 .unlimited).built?.map (fun m => m.capture u.query.vars) =
          some (.ok [("A", some 2), ("B", some 3)]) := by decide +kernel
      obtain ⟨built, kept, captured⟩ := Option.map_eq_some_iff.mp queried
      exact ⟨built, _, [("C", some 2), ("B", some 7), ("A", some 10)], kept, captured,
        by decide +kernel, rfl⟩
    · decide +kernel
    · decide +kernel
    · decide +kernel
    · exact List.mem_of_getElem? (i := 3) rfl
    · exact List.mem_of_getElem? (i := 4) rfl

end TermMachine
