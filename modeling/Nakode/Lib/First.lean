import Mathlib

/-!
# The first element that is changed

`update` replaces the first element of a list that a partial function is defined on, by any number
of elements. It fails where there is none.
-/

namespace First

variable {α : Type} {f : α → Option (List α)} {l l' : List α}

def update (f : α → Option (List α)) : List α → Option (List α)
  | [] => none
  | a :: l =>
    match f a with
    | some new => some (new ++ l)
    | none => (update f l).map (a :: ·)

theorem update_eq_none_iff : update f l = none ↔ ∀ a ∈ l, f a = none := by
  induction l with
  | nil => simp [update]
  | cons a l ih =>
    rw [update, List.forall_mem_cons]
    cases hf : f a with
    | some new => simp
    | none => rw [Option.map_eq_none_iff, ih, and_iff_right rfl]

/-- One element is replaced. -/
theorem exists_of_update (h : update f l = some l') :
    ∃ before a after new, l = before ++ a :: after ∧ f a = some new ∧
      l' = before ++ new ++ after := by
  induction l generalizing l' with
  | nil => cases h
  | cons a l ih =>
    rw [update] at h
    cases hf : f a with
    | some new =>
      rw [hf] at h
      cases h
      exact ⟨[], a, l, new, rfl, hf, rfl⟩
    | none =>
      rw [hf] at h
      obtain ⟨rest, hrest, rfl⟩ := Option.map_eq_some_iff.1 h
      obtain ⟨before, b, after, new, rfl, hb, rfl⟩ := ih hrest
      exact ⟨a :: before, b, after, new, rfl, hb, rfl⟩

end First
