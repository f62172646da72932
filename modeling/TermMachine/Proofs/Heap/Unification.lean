import TermMachine.Proofs.Heap.Change

/-! # Unification as a sequence of bindings

`PairStep` lists what working off one pair can do in a readable heap, and `unifyPair_step` says that
the list is complete. All that a unification does to the heap is therefore a sequence of
bindings, `Bindings`, and whatever a single binding keeps is kept by every unification, be it
successful or not. The heap can always be read.
-/

namespace TermMachine

namespace Heap

/-- Working off the pair `(a, b)` in front of `work`. -/
inductive PairStep (h : Heap) (a b : Address) (work : List (Address × Address)) :
    PairOutcome → Prop
  | same {c : Address} (ha : h.EndsAt a c) (hb : h.EndsAt b c) : PairStep h a b work (.next h work)
  /-- One of the terms is a variable, and is bound to the other one. -/
  | bind {source target : Address} (binding : h.Binding source target)
      (ends : (h.EndsAt a source ∧ h.EndsAt b target) ∨ (h.EndsAt a target ∧ h.EndsAt b source)) :
      PairStep h a b work (.next (h.assign source target) work)
  | shared {s : Symbol} {p : Address} (ha : h.Compound a s p) (hb : h.Compound b s p) :
      PairStep h a b work (.next h work)
  | descend {s : Symbol} {p q : Address} (ha : h.Compound a s p) (hb : h.Compound b s q)
      (apart : p ≠ q) :
      PairStep h a b work
        (.next h ((List.range' (p + 1) s.arity).zip (List.range' (q + 1) s.arity) ++ work))
  | clash {s t : Symbol} {p q : Address} (ha : h.Compound a s p) (hb : h.Compound b t q)
      (differ : s ≠ t) : PairStep h a b work .clash

/-- Two terms that end at different cells, one of them a variable, are bound. -/
theorem pairStep_bind {h : Heap} {a b c d : Address} {work : List (Address × Address)}
    (ha : h.EndsAt a c) (hb : h.EndsAt b d) (ne : c ≠ d)
    (free : h.cells[c]? = some (.ref c) ∨ h.cells[d]? = some (.ref d)) :
    PairStep h a b work
      (match h.bind c d with
        | .ok h => .next h work
        | .error e => .error e) := by
  obtain ⟨source, target, ok, binding, order⟩ :=
    bind_spec ha.last_refl hb.last_refl ne free
  rw [ok]
  rcases order with ⟨rfl, rfl⟩ | ⟨rfl, rfl⟩
  · exact .bind binding (.inl ⟨ha, hb⟩)
  · exact .bind binding (.inr ⟨ha, hb⟩)

theorem unifyPair_step {h : Heap} (hr : h.Readable) {a b : Address} (ha : h.IsTerm a)
    (hb : h.IsTerm b) (work : List (Address × Address)) :
    PairStep h a b work (h.unifyPair a b work) := by
  rcases hr.value ha with ⟨c, hc⟩ | ⟨s, p, hp⟩ <;> rcases hr.value hb with ⟨d, hd⟩ | ⟨t, q, hq⟩
  · have hv := inspect_eq_unbound_iff.mpr hc
    have hw := inspect_eq_unbound_iff.mpr hd
    by_cases ne : c = d
    · subst ne
      simp only [unifyPair, hv, hw]
      exact .same hc.1 hd.1
    · simp only [unifyPair, hv, hw, if_neg ne]
      exact pairStep_bind hc.1 hd.1 ne (.inl hc.2)
  · have hv := inspect_eq_unbound_iff.mpr hc
    obtain ⟨d, hd, ⟨f, cell⟩, hw⟩ := hq.inspect
    have ne : c ≠ d := by
      rintro rfl
      simp [hc.2] at cell
    simp only [unifyPair, hv, hw, if_neg ne]
    exact pairStep_bind hc.1 hd ne (.inl hc.2)
  · have hw := inspect_eq_unbound_iff.mpr hd
    obtain ⟨c, hc, ⟨f, cell⟩, hv⟩ := hp.inspect
    have ne : c ≠ d := by
      rintro rfl
      simp [hd.2] at cell
    simp only [unifyPair, hv, hw, if_neg ne]
    exact pairStep_bind hc hd.1 ne (.inr hd.2)
  · obtain ⟨c, hc, _, hv⟩ := hp.inspect
    obtain ⟨d, hd, _, hw⟩ := hq.inspect
    by_cases same : c = d
    · subst same
      simp only [unifyPair, hv, hw]
      exact .same hc hd
    · by_cases symbols : s = t
      · subst symbols
        by_cases shared : p = q
        · subst shared
          simp only [unifyPair, hv, hw, if_neg same]
          exact .shared hp hq
        · have apart : p + 1 ≠ q + 1 := fun eq => shared (Nat.succ.inj eq)
          simp only [unifyPair, hv, hw, if_neg same, if_neg apart, Arguments.addresses]
          exact .descend hp hq shared
      · simp only [unifyPair, hv, hw, if_neg same, if_neg symbols]
        exact .clash hp hq symbols

inductive Bindings : Heap → Heap → Prop
  | refl (h : Heap) : Bindings h h
  | step {h h' : Heap} {source target : Address} (binding : h.Binding source target)
      (rest : Bindings (h.assign source target) h') : Bindings h h'

/-- What a single binding keeps is kept by any number of them. -/
theorem Bindings.keep {P : Heap → Prop} {h h' : Heap} (bs : Bindings h h')
    (one : ∀ {g : Heap} {source target : Address}, g.Binding source target → P g →
      P (g.assign source target)) (holds : P h) : P h' := by
  induction bs with
  | refl _ => exact holds
  | step binding _ ih => exact ih (one binding holds)

theorem Bindings.readable {h h' : Heap} (bs : Bindings h h') (hr : h.Readable) : h'.Readable :=
  bs.keep (fun binding hr => binding.readable hr) hr

theorem Bindings.linked {h h' : Heap} (bs : Bindings h h') (hl : h.Linked) : h'.Linked :=
  bs.keep (fun binding hl => binding.linked hl) hl

theorem Bindings.isTerm {h h' : Heap} (bs : Bindings h h') {a : Address} (ha : h.IsTerm a) :
    h'.IsTerm a := bs.keep (P := (·.IsTerm a)) (fun binding => binding.isTerm_iff.mpr) ha

theorem Bindings.filled {h h' : Heap} (bs : Bindings h h') {p n : Nat} (hp : h.Filled p n) :
    h'.Filled p n := bs.keep (P := (·.Filled p n)) (fun binding => binding.filled_iff.mpr) hp

theorem Bindings.symbol_iff {h h' : Heap} (bs : Bindings h h') {p : Address} {s : Symbol} :
    h'.cells[p]? = some (.symbol s) ↔ h.cells[p]? = some (.symbol s) :=
  bs.keep (P := fun g => g.cells[p]? = some (.symbol s) ↔ h.cells[p]? = some (.symbol s))
    (fun binding => binding.symbol_iff.trans) Iff.rfl

theorem Bindings.top {h h' : Heap} (bs : Bindings h h') : h'.top = h.top :=
  bs.keep (P := fun g => g.top = h.top) (fun _ same => (top_assign ..).trans same) rfl

theorem Bindings.growsTo {h h' : Heap} (bs : Bindings h h') : h.GrowsTo h' :=
  ⟨bs.top.ge, bs.isTerm⟩

theorem Bindings.capacity {h h' : Heap} (bs : Bindings h h') : h'.capacity = h.capacity :=
  bs.keep (P := fun g => g.capacity = h.capacity) (fun _ same => same) rfl

theorem Bindings.rooted {h h' : Heap} (bs : Bindings h h') {roots : Set Address}
    (hr : h.Rooted roots) : h'.Rooted roots :=
  bs.keep (P := (·.Rooted roots)) (fun binding hr => binding.rooted hr) hr

def Unification.heap : Unification → Heap
  | .unified h | .clash h | .error _ h | .unfinished h _ => h

def TermPairs (h : Heap) (work : List (Address × Address)) : Prop :=
  ∀ pair ∈ work, h.IsTerm pair.1 ∧ h.IsTerm pair.2

theorem termPairs_single {h : Heap} {a b : Address} (ha : h.IsTerm a) (hb : h.IsTerm b) :
    h.TermPairs [(a, b)] := by
  simpa [TermPairs] using ⟨ha, hb⟩

theorem TermPairs.descend {h : Heap} (hr : h.Readable) {a b p q : Address} {s : Symbol}
    {work : List (Address × Address)} (ha : h.Compound a s p) (hb : h.Compound b s q)
    (hw : h.TermPairs work) :
    h.TermPairs
      ((List.range' (p + 1) s.arity).zip (List.range' (q + 1) s.arity) ++ work) := by
  intro pair mem
  rcases List.mem_append.mp mem with mem | mem
  · obtain ⟨left, right⟩ := List.of_mem_zip mem
    obtain ⟨i, hi, eq⟩ := List.mem_range'.mp left
    obtain ⟨j, hj, eq'⟩ := List.mem_range'.mp right
    rw [Nat.one_mul] at eq eq'
    rw [eq, eq']
    exact ⟨hr.argument ha hi, hr.argument hb hj⟩
  · exact hw pair mem

/-- Working off a pair leaves terms to work off, and has made one binding at most. -/
theorem PairStep.next {h h' : Heap} {a b : Address} {work work' : List (Address × Address)}
    (step : PairStep h a b work (.next h' work')) (hr : h.Readable) (hw : h.TermPairs work) :
    Bindings h h' ∧ h'.TermPairs work' := by
  cases step with
  | same _ _ => exact ⟨.refl h, hw⟩
  | shared _ _ => exact ⟨.refl h, hw⟩
  | descend hp hq _ => exact ⟨.refl h, hw.descend hr hp hq⟩
  | bind binding _ =>
      refine ⟨.step binding (.refl _), fun pair mem => ?_⟩
      obtain ⟨left, right⟩ := hw pair mem
      exact ⟨binding.isTerm_iff.mpr left, binding.isTerm_iff.mpr right⟩

/-- What is known when the first of the waiting pairs, all of them pairs of terms, has been worked
off. -/
inductive Handled (h : Heap) (a b : Address) (work : List (Address × Address)) : PairOutcome → Prop
  | clash (step : PairStep h a b work .clash) : Handled h a b work .clash
  | next {h' : Heap} {work' : List (Address × Address)}
      (step : PairStep h a b work (.next h' work')) (bs : Bindings h h') (readable : h'.Readable)
      (pairs : h'.TermPairs work') : Handled h a b work (.next h' work')

theorem TermPairs.handled {h : Heap} {a b : Address} {work : List (Address × Address)}
    (hw : h.TermPairs ((a, b) :: work)) (hr : h.Readable) :
    Handled h a b work (h.unifyPair a b work) := by
  obtain ⟨ha, hb⟩ := hw (a, b) List.mem_cons_self
  have later : h.TermPairs work := fun pair mem => hw pair (List.mem_cons_of_mem _ mem)
  have step := unifyPair_step hr ha hb work
  cases outcome : h.unifyPair a b work with
  | error e =>
      rw [outcome] at step
      cases step
  | clash =>
      rw [outcome] at step
      exact .clash step
  | next h' work' =>
      rw [outcome] at step
      obtain ⟨bs, pairs⟩ := step.next hr later
      exact .next step bs (bs.readable hr) pairs

theorem Bindings.trans {h g k : Heap} (hg : Bindings h g) (gk : Bindings g k) : Bindings h k := by
  induction hg with
  | refl _ => exact gk
  | step binding _ ih => exact .step binding (ih gk)

/-- A unification of terms only makes bindings, and meets no error. -/
theorem unifyAll_bindings {h : Heap} {work : List (Address × Address)} (hr : h.Readable)
    (hw : h.TermPairs work) (fuel : Nat) :
    Bindings h (unifyAll fuel h work).heap ∧
      ∀ e h', unifyAll fuel h work ≠ .error e h' := by
  induction fuel generalizing h work with
  | zero =>
      cases work with
      | nil =>
          refine ⟨.refl h, fun e h' failed => ?_⟩
          cases failed
      | cons pair work =>
          refine ⟨.refl h, fun e h' failed => ?_⟩
          cases failed
  | succ fuel ih =>
      cases work with
      | nil =>
          refine ⟨.refl h, fun e h' failed => ?_⟩
          cases failed
      | cons pair work =>
          have handled := hw.handled hr
          simp only [unifyAll]
          generalize h.unifyPair pair.1 pair.2 work = outcome at handled
          cases handled with
          | clash _ =>
              refine ⟨.refl h, fun e h' failed => ?_⟩
              cases failed
          | next _ bs readable pairs =>
              obtain ⟨rest, noError⟩ := ih readable pairs
              exact ⟨bs.trans rest, noError⟩

theorem unify_bindings {h h' : Heap} {a b : Address} {fuel : Nat} (hr : h.Readable)
    (pair : h.TermPairs [(a, b)]) (ok : unify fuel h a b = .unified h') : Bindings h h' := by
  have bs := (unifyAll_bindings hr pair fuel).1
  rw [unify] at ok
  rwa [ok] at bs

end Heap

end TermMachine
