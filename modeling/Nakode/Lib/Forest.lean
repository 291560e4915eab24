import Mathlib

/-!
# One-level forests

A forest is the partial function that gives each child its parent. It has one level when no parent
is itself a child: then no node is its own parent, and there are no cycles. `attach` is what a
change of one node's parent must look at to keep one level.
-/

namespace Forest

variable {α : Type} {parent parent' : α → Option α}

/-- No parent is itself a child. -/
def OneLevel (parent : α → Option α) : Prop :=
  ∀ child above, parent child = some above → parent above = none

namespace OneLevel

theorem empty : OneLevel fun _ : α => none := by
  intro _ _ h
  cases h

/-- No node is its own parent. -/
theorem irreflexive (h : OneLevel parent) (node : α) : parent node ≠ some node := by
  intro hself
  have hnone := h node node hself
  rw [hself] at hnone
  cases hnone

/-- A child has no children. -/
theorem childless (h : OneLevel parent) {child above : α} (hchild : parent child = some above)
    (below : α) : parent below ≠ some child := by
  intro hbelow
  have hnone := h below child hbelow
  rw [hchild] at hnone
  cases hnone

/-- Taking links away keeps one level. -/
theorem detach (h : OneLevel parent)
    (hsub : ∀ child above, parent' child = some above → parent child = some above) :
    OneLevel parent' := by
  intro child above hchild
  cases habove : parent' above with
  | none => rfl
  | some top =>
    have hnone := h child above (hsub child above hchild)
    rw [hsub above top habove] at hnone
    cases hnone

/-- Giving a node without children a root as its parent keeps one level. -/
theorem attach [DecidableEq α] (h : OneLevel parent) {node above : α} (hne : node ≠ above)
    (hroot : parent above = none) (hleaf : ∀ below, parent below ≠ some node)
    (hparent : ∀ n, parent' n = if n = node then some above else parent n) : OneLevel parent' := by
  intro child top hchild
  rw [hparent] at hchild ⊢
  split at hchild
  · obtain rfl := Option.some.inj hchild
    rw [if_neg (Ne.symm hne), hroot]
  · have htop : top ≠ node := by
      rintro rfl
      exact hleaf child hchild
    rw [if_neg htop]
    exact h child top hchild

end OneLevel

end Forest
