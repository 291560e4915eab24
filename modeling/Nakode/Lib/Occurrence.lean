import Nakode.Lib.Pieces

/-!
# Occurrences of a pattern

`find?` and `rfind?` are `str::find` and `str::rfind`: they cut a text at the first or the last
occurrence of a pattern into what stands before it and what stands behind it. A pattern that begins
with a mark and has no other one is found first where no mark stands before it (`find?_append`), and
last where it does not occur behind it (`rfind?_append`).
-/

namespace Occurrence

open Pieces

variable {α : Type} [DecidableEq α] {m : α} {pat p l before after : List α}

def find? (pat : List α) : List α → Option (List α × List α)
  | [] => if pat = [] then some ([], []) else none
  | a :: l =>
    if pat.isPrefixOf (a :: l) then some ([], (a :: l).drop pat.length)
    else (find? pat l).map fun (before, after) => (a :: before, after)

def rfind? (pat : List α) : List α → Option (List α × List α)
  | [] => if pat = [] then some ([], []) else none
  | a :: l =>
    match rfind? pat l with
    | some (before, after) => some (a :: before, after)
    | none => if pat.isPrefixOf (a :: l) then some ([], (a :: l).drop pat.length) else none

/-- The first mark begins the first occurrence. -/
theorem find?_append (hbefore : m ∉ before) :
    find? (m :: p) (before ++ (m :: p ++ after)) = some (before, after) := by
  induction before with
  | nil =>
    have hpat : (m :: p).isPrefixOf (m :: (p ++ after)) = true :=
      List.isPrefixOf_iff_prefix.2 (List.prefix_append (m :: p) after)
    rw [List.nil_append, List.cons_append, find?, if_pos hpat]
    simp
  | cons a before ih =>
    rw [List.mem_cons, not_or] at hbefore
    rw [List.cons_append, find?, if_neg, ih hbefore.2]
    · rfl
    · rw [List.isPrefixOf_iff_prefix, List.cons_prefix_cons]
      exact fun h => hbefore.1 h.1

theorem rfind?_eq_none (hpat : pat ≠ []) (h : ¬pat <:+: l) : rfind? pat l = none := by
  induction l with
  | nil => rw [rfind?, if_neg hpat]
  | cons a l ih =>
    rw [List.infix_cons_iff, not_or] at h
    rw [rfind?, ih h.2]
    dsimp only
    rw [if_neg]
    rw [List.isPrefixOf_iff_prefix]
    exact h.1

/-- The last occurrence is one behind which there is none. -/
theorem rfind?_append (hp : m ∉ p) (h : ¬m :: p <:+: after) :
    rfind? (m :: p) (before ++ (m :: p ++ after)) = some (before, after) := by
  induction before with
  | nil =>
    have hnone : rfind? (m :: p) (p ++ after) = none :=
      rfind?_eq_none (List.cons_ne_nil m p) (by rwa [infix_append_iff hp])
    have hpat : (m :: p).isPrefixOf (m :: (p ++ after)) = true :=
      List.isPrefixOf_iff_prefix.2 (List.prefix_append (m :: p) after)
    rw [List.nil_append, List.cons_append, rfind?, hnone]
    dsimp only
    rw [if_pos hpat]
    simp
  | cons a before ih => rw [List.cons_append, rfind?, ih]

end Occurrence
