import Mathlib

/-!
# Contiguous logs

A log whose entries each lead from a point to a later one is contiguous when each entry begins where
the one before it ends (`Spans`). Reading a contiguous log from a point on finds the entries that
end after it; they lead from the point to the end of the log exactly when the point is the end
itself or the beginning of an entry (`Spans.resumes_iff`), and then they are the entries that begin
at the point or later, also in a longer log of which only the end was kept (`Spans.filter_eq`).
-/

/-- The entries lead from one point to another, each from where the one before it ends. -/
def Spans {ν β : Type} [LinearOrder ν] (base next : β → ν) : ν → List β → ν → Prop
  | a, [], b => a = b
  | a, x :: xs, b => base x = a ∧ base x < next x ∧ Spans base next (next x) xs b

namespace Spans

variable {ν β : Type} [LinearOrder ν] {base next : β → ν} {a b c r : ν} {xs ys : List β}

theorem append_iff :
    Spans base next a (xs ++ ys) c ↔ ∃ b, Spans base next a xs b ∧ Spans base next b ys c := by
  induction xs generalizing a with
  | nil => simp [Spans]
  | cons x xs ih => simp [Spans, ih, and_assoc]

theorem append (h : Spans base next a xs b) (h' : Spans base next b ys c) :
    Spans base next a (xs ++ ys) c :=
  append_iff.2 ⟨b, h, h'⟩

theorem singleton {x : β} (h : base x < next x) : Spans base next (base x) [x] (next x) :=
  ⟨rfl, h, rfl⟩

/-- Entries that are read through a map lead between the same points. -/
theorem map_iff {γ : Type} {f : γ → β} {zs : List γ} :
    Spans base next a (zs.map f) b ↔ Spans (base ∘ f) (next ∘ f) a zs b := by
  induction zs generalizing a with
  | nil => rfl
  | cons z zs ih => simp only [List.map_cons, Spans, Function.comp, ih]

theorem le (h : Spans base next a xs b) : a ≤ b := by
  induction xs generalizing a with
  | nil => exact le_of_eq h
  | cons x xs ih =>
    obtain ⟨rfl, hlt, hrest⟩ := h
    exact le_of_lt (lt_of_lt_of_le hlt (ih hrest))

/-- A log that leads nowhere is empty. -/
theorem eq_nil (h : Spans base next a xs a) : xs = [] := by
  cases xs with
  | nil => rfl
  | cons x xs =>
    obtain ⟨rfl, hlt, hrest⟩ := h
    exact absurd hrest.le (not_le_of_gt hlt)

/-- Every entry lies between the two points. -/
theorem bounds (h : Spans base next a xs b) {x : β} (hx : x ∈ xs) :
    a ≤ base x ∧ base x < next x ∧ next x ≤ b := by
  induction xs generalizing a with
  | nil => cases hx
  | cons y ys ih =>
    obtain ⟨rfl, hlt, hrest⟩ := h
    rcases List.mem_cons.1 hx with rfl | hx
    · exact ⟨le_refl _, hlt, hrest.le⟩
    · obtain ⟨hle, hrest⟩ := ih hrest hx
      exact ⟨le_of_lt (lt_of_lt_of_le hlt hle), hrest⟩

/-- The entries that end after a point lead from the point to the end exactly when the point is the
end or where one of the entries begins. -/
theorem resumes_iff (h : Spans base next a xs b) :
    Spans base next r (xs.filter (r < next ·)) b ↔ r = b ∨ ∃ x ∈ xs, base x = r := by
  induction xs generalizing a with
  | nil => simp [Spans]
  | cons y ys ih =>
    obtain ⟨hbase, hlt, hrest⟩ := h
    have hkeep : r < next y → ys.filter (r < next ·) = ys := by
      intro hr
      refine List.filter_eq_self.2 fun x hx => ?_
      obtain ⟨hle, hx, -⟩ := hrest.bounds hx
      simpa using lt_trans hr (lt_of_le_of_lt hle hx)
    by_cases hr : r < next y
    · rw [List.filter_cons_of_pos (by simpa using hr), hkeep hr]
      constructor
      · rintro ⟨rfl, -⟩
        exact .inr ⟨y, List.mem_cons_self, rfl⟩
      · rintro (rfl | ⟨x, hx, rfl⟩)
        · exact absurd hrest.le (not_le_of_gt hr)
        · rcases List.mem_cons.1 hx with rfl | hx
          · exact ⟨rfl, hlt, hrest⟩
          · exact absurd (hrest.bounds hx).1 (not_le_of_gt hr)
    · rw [List.filter_cons_of_neg (by simpa using hr), ih hrest]
      refine or_congr_right ⟨fun ⟨x, hx, heq⟩ => ⟨x, List.mem_cons_of_mem _ hx, heq⟩, ?_⟩
      rintro ⟨x, hx, rfl⟩
      rcases List.mem_cons.1 hx with rfl | hx
      · exact absurd hlt hr
      · exact ⟨x, hx, rfl⟩

/-- What a kept end of a log resumes with is every entry of the whole log that begins at the point
or later. -/
theorem filter_eq {dropped kept : List β} (h : Spans base next a (dropped ++ kept) b)
    (hresumes : Spans base next r (kept.filter (r < next ·)) b) :
    kept.filter (r < next ·) = (dropped ++ kept).filter (r ≤ base ·) := by
  obtain ⟨m, hdropped, hkept⟩ := append_iff.1 h
  have hm : m ≤ r := by
    rcases hkept.resumes_iff.1 hresumes with rfl | ⟨x, hx, rfl⟩
    · exact hkept.le
    · exact (hkept.bounds hx).1
  have hnone : dropped.filter (r ≤ base ·) = [] := by
    refine List.filter_eq_nil_iff.2 fun x hx => ?_
    obtain ⟨-, hlt, hle⟩ := hdropped.bounds hx
    simpa using lt_of_lt_of_le hlt (le_trans hle hm)
  rw [List.filter_append, hnone, List.nil_append]
  refine List.filter_congr fun x hx => ?_
  rw [Bool.eq_iff_iff, decide_eq_true_eq, decide_eq_true_eq]
  refine ⟨fun hr => ?_, fun hr => lt_of_le_of_lt hr (hkept.bounds hx).2.1⟩
  exact (hresumes.bounds (List.mem_filter.2 ⟨hx, by simpa using hr⟩)).1

end Spans
