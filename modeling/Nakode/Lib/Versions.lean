import Mathlib

/-!
# Versions of a cell that several writers share

A cell holds one value at a time, and every value has a revision. A writer changes a value it has
read, which may be an old one by then, and the cell takes the changed value only when its revision
is newer than that of the value it holds, or when it holds the changed value already. A change
raises the revision by one. So a changed value is taken only where it changes what the cell holds
(`History.eq_of_taken`), and the values that the cell has held form a history in which each is the
change of the one before: a writer with an old value cannot undo what another one wrote.
-/

namespace Versions

variable {ρ : Type} {First : ρ → Prop} {Next : ρ → ρ → Prop}

/-- The values that a cell has held, the newest first: the first one is `First`, and each further
one is the `Next` of the one before. -/
inductive History (First : ρ → Prop) (Next : ρ → ρ → Prop) : List ρ → Prop
  | nil : History First Next []
  | first {v : ρ} : First v → History First Next [v]
  | next {v w : ρ} {older : List ρ} : History First Next (v :: older) → Next v w →
      History First Next (w :: v :: older)

namespace History

theorem tail {v : ρ} {older : List ρ} (h : History First Next (v :: older)) :
    History First Next older := by
  cases h with
  | first => exact .nil
  | next h _ => exact h

/-- What held of the first value and is kept by every change holds of all of them. -/
theorem forall_mem {P : ρ → Prop} {vs : List ρ} (h : History First Next vs)
    (hfirst : ∀ v, First v → P v) (hnext : ∀ v w, Next v w → P v → P w) : ∀ v ∈ vs, P v := by
  induction h with
  | nil => simp
  | first hv => simpa using hfirst _ hv
  | next _ hvw ih => exact List.forall_mem_cons.2 ⟨hnext _ _ hvw (ih _ List.mem_cons_self), ih⟩

/-- Two values that stand next to each other. -/
theorem next_of_append {vs newer older : List ρ} {v w : ρ} (h : History First Next vs)
    (hvs : vs = newer ++ w :: v :: older) : Next v w := by
  induction newer generalizing vs with
  | nil =>
    subst hvs
    cases h with
    | next _ hvw => exact hvw
  | cons x newer ih =>
    subst hvs
    exact ih h.tail rfl

variable {revision : ρ → Nat} (hrevision : ∀ v w, Next v w → revision w = revision v + 1)

include hrevision

/-- An older value has a lower revision. -/
theorem revision_lt {current v : ρ} {older : List ρ}
    (h : History First Next (current :: older)) (hv : v ∈ older) :
    revision v < revision current := by
  induction older generalizing current with
  | nil => cases hv
  | cons last older ih =>
    cases h with
    | next h hnext =>
      have hcurrent := hrevision _ _ hnext
      rcases List.mem_cons.1 hv with rfl | hv
      · omega
      · have := ih h hv
        omega

/-- The value with the revision before the current one is the one that was changed to it. -/
theorem next_of_revision {current v : ρ} {older : List ρ}
    (h : History First Next (current :: older)) (hv : v ∈ older)
    (hlast : revision current = revision v + 1) : Next v current := by
  cases h with
  | first => cases hv
  | next h hnext =>
    rcases List.mem_cons.1 hv with rfl | hv
    · exact hnext
    · have hlt := h.revision_lt hrevision hv
      have hcurrent := hrevision _ _ hnext
      omega

/-- The change of a value is taken only when it is the current one that is changed, or when the
cell has the changed value already. -/
theorem eq_of_taken {current v new : ρ} {older : List ρ}
    (h : History First Next (current :: older)) (hv : v ∈ current :: older)
    (hnew : revision new ≤ revision v + 1)
    (hguard : revision current < revision new ∨ current = new) : v = current ∨ current = new := by
  rcases List.mem_cons.1 hv with rfl | hv
  · exact .inl rfl
  · have hlt := h.revision_lt hrevision hv
    refine .inr (hguard.resolve_left ?_)
    omega

end History

end Versions
