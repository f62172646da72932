/-!
# Collecting results

Work on a list that stops at its first error.
-/

namespace TermMachine

/-- Applies `f` from left to right, up to the first error. -/
def collect {α β ε : Type} (f : α → Except ε β) : List α → Except ε (List β)
  | [] => .ok []
  | a :: as =>
      match f a with
      | .error e => .error e
      | .ok b =>
          match collect f as with
          | .error e => .error e
          | .ok bs => .ok (b :: bs)

variable {α β ε : Type}

/-- A collection succeeds exactly if every single application does, with the results in order. -/
theorem collect_eq_ok_iff {f : α → Except ε β} {as : List α} {bs : List β} :
    collect f as = .ok bs ↔ as.map f = bs.map .ok := by
  induction as generalizing bs with
  | nil => cases bs <;> simp [collect]
  | cons a as ih =>
      cases hb : f a with
      | error e => cases bs <;> simp [collect, hb]
      | ok b =>
          cases hbs : collect f as with
          | error e =>
              refine ⟨by simp [collect, hb, hbs], fun h => ?_⟩
              cases bs with
              | nil => simp at h
              | cons b' bs =>
                  simp only [List.map_cons, List.cons.injEq] at h
                  have found := ih.mpr h.2
                  rw [hbs] at found
                  cases found
          | ok rest =>
              cases bs with
              | nil => simp [collect, hb, hbs]
              | cons b' bs =>
                  have tail : rest = bs ↔ as.map f = bs.map .ok := by
                    rw [← ih, hbs, Except.ok.injEq]
                  simp [collect, hb, hbs, tail]

theorem exists_collect {f : α → Except ε β} {as : List α}
    (each : ∀ a ∈ as, ∃ b, f a = .ok b) : ∃ bs, collect f as = .ok bs := by
  induction as with
  | nil => exact ⟨[], rfl⟩
  | cons a as ih =>
      obtain ⟨b, first⟩ := each a List.mem_cons_self
      obtain ⟨bs, rest⟩ := ih fun a mem => each a (List.mem_cons_of_mem _ mem)
      exact ⟨b :: bs, by simp only [collect, first, rest]⟩

theorem collect_cons_eq_ok_iff {f : α → Except ε β} {a : α} {as : List α}
    {bs : List β} :
    collect f (a :: as) = .ok bs ↔
      ∃ b bs', f a = .ok b ∧ collect f as = .ok bs' ∧ bs = b :: bs' := by
  rw [collect_eq_ok_iff, List.map_cons]
  cases bs with
  | nil => simp
  | cons b bs => simp [collect_eq_ok_iff]

theorem exists_of_collect {f : α → Except ε β} {as : List α} {bs : List β}
    (ok : collect f as = .ok bs) {b : β} (mem : b ∈ bs) : ∃ a ∈ as, f a = .ok b := by
  have images := collect_eq_ok_iff.mp ok
  have image : Except.ok b ∈ as.map f := images ▸ List.mem_map_of_mem mem
  obtain ⟨a, ha, same⟩ := List.mem_map.mp image
  exact ⟨a, ha, same⟩

theorem map_of_collect {γ : Type} {f : α → Except ε β} {key : α → γ} {key' : β → γ}
    (keeps : ∀ a b, f a = .ok b → key' b = key a) {as : List α} {bs : List β}
    (collected : collect f as = .ok bs) : bs.map key' = as.map key := by
  induction as generalizing bs with
  | nil =>
      cases collected
      rfl
  | cons a as ih =>
      obtain ⟨b, rest, first, more, rfl⟩ := collect_cons_eq_ok_iff.mp collected
      rw [List.map_cons, List.map_cons, keeps a b first, ih more]

end TermMachine
