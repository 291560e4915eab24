import Mathlib

/-!
# The least element of a list

`least` is the first element of a list after a stable sort by a key. It is an element with a least
key, and there is none exactly if the list is empty.
-/

namespace Least

variable {α κ : Type} [LinearOrder κ] {key : α → κ} {l : List α} {a : α}

/-- `sort_by_key`, then the first. -/
def least (key : α → κ) (l : List α) : Option α :=
  (l.insertionSort fun a b => key a ≤ key b).head?

theorem least_eq_none_iff : least key l = none ↔ l = [] := by
  rw [least, List.head?_eq_none_iff]
  constructor
  · intro h
    have hperm := List.perm_insertionSort (fun a b => key a ≤ key b) l
    rw [h] at hperm
    exact hperm.symm.eq_nil
  · rintro rfl
    rfl

theorem least_mem (h : least key l = some a) : a ∈ l :=
  (List.perm_insertionSort _ l).mem_iff.1 (List.mem_of_head? h)

theorem least_le (h : least key l = some a) {b : α} (hb : b ∈ l) : key a ≤ key b := by
  have hsorted : (l.insertionSort fun a b => key a ≤ key b).Pairwise fun a b => key a ≤ key b :=
    List.pairwise_insertionSort _ l
  have hmem := (List.perm_insertionSort (fun a b => key a ≤ key b) l).mem_iff.2 hb
  obtain ⟨rest, hsplit⟩ := List.head?_eq_some_iff.1 h
  rw [hsplit] at hsorted hmem
  obtain rfl | hmem := List.mem_cons.1 hmem
  · exact le_rfl
  · exact List.rel_of_pairwise_cons hsorted hmem

end Least
