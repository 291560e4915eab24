import Mathlib

/-!
# Greedy wrapping

A line is cut into pieces from its beginning on: a piece ends where the next element would take it
over a width, but for a piece that weighs nothing, which takes any element.
-/

namespace Wrap

variable {α : Type} (weight : α → Nat) (width : Nat)

def total (l : List α) : Nat := (l.map weight).sum

/-- A piece ends before an element. -/
def Ends (piece : List α) (a : α) : Prop :=
  0 < total weight piece ∧ width < total weight piece + weight a

instance (piece : List α) (a : α) : Decidable (Ends weight width piece a) :=
  inferInstanceAs (Decidable (_ ∧ _))

/-- The pieces of a line, the first of which has been begun. -/
def pieces : List α → List α → List (List α)
  | piece, [] => [piece]
  | piece, a :: l =>
    if Ends weight width piece a then piece :: pieces [a] l else pieces (piece ++ [a]) l

theorem total_nil : total weight ([] : List α) = 0 := rfl

theorem total_concat (l : List α) (a : α) : total weight (l ++ [a]) = total weight l + weight a := by
  simp [total]

/-- Nothing is lost and nothing is twice in the pieces. -/
theorem flatten_pieces (piece l : List α) : (pieces weight width piece l).flatten = piece ++ l := by
  induction l generalizing piece with
  | nil => simp [pieces]
  | cons a l ih =>
    rw [pieces]
    split
    · rw [List.flatten_cons, ih]
      rfl
    · rw [ih, List.append_assoc]
      rfl

/-- The first piece goes on with what it has been begun with. -/
theorem exists_pieces (piece l : List α) :
    ∃ more later, pieces weight width piece l = (piece ++ more) :: later := by
  induction l generalizing piece with
  | nil => exact ⟨[], [], by rw [pieces, List.append_nil]⟩
  | cons a l ih =>
    rw [pieces]
    split
    · exact ⟨[], _, by rw [List.append_nil]⟩
    · obtain ⟨more, later, hpieces⟩ := ih (piece ++ [a])
      exact ⟨a :: more, later, by rw [hpieces, List.append_assoc]; rfl⟩

theorem total_le_of_mem_pieces (hweight : ∀ a, weight a ≤ width) {piece l : List α}
    (hpiece : total weight piece ≤ width) : ∀ p ∈ pieces weight width piece l,
    total weight p ≤ width := by
  induction l generalizing piece with
  | nil => exact List.forall_mem_singleton.2 hpiece
  | cons a l ih =>
    rw [pieces]
    split
    · refine List.forall_mem_cons.2 ⟨hpiece, ih ?_⟩
      rw [total, List.map_singleton, List.sum_singleton]
      exact hweight a
    · next hends =>
      refine ih ?_
      have ha := hweight a
      rw [Ends] at hends
      rw [total_concat]
      omega

end Wrap
