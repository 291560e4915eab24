import Mathlib

/-!
# The newest elements within a budget

A loop that carries a running total drops elements from the front until the rest fits or one element
is left (`newest`). What it leaves is an end of the list. It is the longest one that
fits the budget (`IsNewest`), or it is the last element alone and that is larger than the budget
(`isNewest_or`).
-/

namespace Newest

variable {α : Type} (size : α → Nat) (maximum : Nat)

def total (l : List α) : Nat := (l.map size).sum

/-- Drops from the front while the running total is above the budget and more than one element is
left. -/
def newest (running : Nat) : List α → List α
  | [] => []
  | [a] => [a]
  | a :: b :: l =>
    if maximum < running then newest (running - size a) (b :: l) else a :: b :: l

/-- The end of a list that fits and that every end that fits is an end of. -/
structure IsNewest (l kept : List α) : Prop where
  suffix : kept <:+ l
  fits : total size kept ≤ maximum
  longest : ∀ other, other <:+ l → total size other ≤ maximum → other <:+ kept

variable {size} {maximum}

theorem total_cons (a : α) (l : List α) : total size (a :: l) = size a + total size l := by
  rw [total, List.map_cons, List.sum_cons, total]

theorem newest_suffix (running : Nat) (l : List α) : newest size maximum running l <:+ l := by
  fun_induction newest size maximum running l with
  | case1 | case2 | case4 => exact List.suffix_rfl
  | case3 running a b l _ ih => exact ih.trans (List.suffix_cons a (b :: l))

theorem newest_ne_nil {l : List α} (running : Nat) (h : l ≠ []) :
    newest size maximum running l ≠ [] := by
  fun_induction newest size maximum running l with
  | case1 => exact absurd rfl h
  | case2 | case4 => exact List.cons_ne_nil _ _
  | case3 running a b l _ ih => exact ih (List.cons_ne_nil b l)

/-- What is left fits, or is the last element, which does not fit. -/
theorem newest_fits_or {l : List α} {running : Nat} (h : running = total size l) :
    total size (newest size maximum running l) ≤ maximum ∨
      ∃ a, newest size maximum running l = [a] ∧ maximum < size a := by
  fun_induction newest size maximum running l with
  | case1 => exact .inl (Nat.zero_le _)
  | case2 running a =>
    rcases Nat.lt_or_ge maximum (size a) with hlarge | hfits
    · exact .inr ⟨a, rfl, hlarge⟩
    · exact .inl (by simpa [total] using hfits)
  | case3 running a b l _ ih =>
    rw [total_cons] at h
    exact ih (by omega)
  | case4 running a b l hfits => exact .inl (by omega)

/-- Nothing that could stay is dropped. -/
theorem suffix_newest {l t : List α} {running : Nat} (h : running = total size l) (ht : t <:+ l)
    (hfits : total size t ≤ maximum) : t <:+ newest size maximum running l := by
  fun_induction newest size maximum running l with
  | case1 | case2 | case4 => exact ht
  | case3 running a b l hlarge ih =>
    rcases List.suffix_cons_iff.1 ht with rfl | ht
    · omega
    · rw [total_cons] at h
      exact ih (by omega) ht

/-- What the loop leaves is the longest end that fits, or the last element when even that does
not. -/
theorem isNewest_or (l : List α) :
    IsNewest size maximum l (newest size maximum (total size l) l) ∨
      ∃ a, newest size maximum (total size l) l = [a] ∧ maximum < size a := by
  have hends : total size (newest size maximum (total size l) l) ≤ maximum ∨
      ∃ a, newest size maximum (total size l) l = [a] ∧ maximum < size a := newest_fits_or rfl
  rcases hends with hfits | hlast
  · exact .inl ⟨newest_suffix _ l, hfits, fun other hother hle => suffix_newest rfl hother hle⟩
  · exact .inr hlast

end Newest
