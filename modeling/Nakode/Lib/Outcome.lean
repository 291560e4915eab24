import Mathlib

/-!
# Computations that may fail

`ensure` is a check: it goes on when its condition holds and fails with the given error otherwise.
The lemmas here say what an accepted computation did, one for each way a computation is put
together, so that the accepted runs of a `do` block are read off its text: each check held, each
part was accepted (`bind_eq_ok`).
-/

namespace Outcome

variable {ε α β : Type}

/-- Goes on when the condition holds and fails otherwise. -/
def ensure (c : Bool) (e : ε) : Except ε Unit := if c then .ok () else .error e

@[simp] theorem ensure_eq_ok {c : Bool} {e : ε} {u : Unit} : ensure c e = .ok u ↔ c = true := by
  cases c <;> simp [ensure]

@[simp] theorem ensure_eq_error {c : Bool} {e e' : ε} :
    ensure c e = .error e' ↔ c = false ∧ e = e' := by
  cases c <;> simp [ensure]

@[simp] theorem ensure_true (e : ε) : ensure true e = .ok () := rfl

@[simp] theorem ensure_false (e : ε) : ensure false e = .error e := rfl

/-- Two parts in sequence are accepted exactly when both are. -/
@[simp] theorem bind_eq_ok {x : Except ε α} {f : α → Except ε β} {b : β} :
    (x >>= f) = .ok b ↔ ∃ a, x = .ok a ∧ f a = .ok b := by
  cases x <;> simp [bind, Except.bind]

/-- Two parts in sequence fail exactly when the first does, or the second after it. -/
theorem bind_eq_error {x : Except ε α} {f : α → Except ε β} {e : ε} :
    (x >>= f) = .error e ↔ x = .error e ∨ ∃ a, x = .ok a ∧ f a = .error e := by
  cases x <;> simp [bind, Except.bind]

@[simp] theorem pure_eq_error {a : α} {e : ε} : (pure a : Except ε α) = .error e ↔ False := by
  simp [pure, Except.pure]

@[simp] theorem pure_eq_ok {a b : α} : (pure a : Except ε α) = .ok b ↔ a = b := by
  simp [pure, Except.pure]

@[simp] theorem ok_bind (a : α) (f : α → Except ε β) : (Except.ok a >>= f) = f a := rfl

@[simp] theorem error_bind (e : ε) (f : α → Except ε β) :
    ((Except.error e : Except ε α) >>= f) = .error e := rfl

/-- A value that is there, or the error for its absence. -/
def need (x : Option α) (e : ε) : Except ε α :=
  match x with
  | some a => .ok a
  | none => .error e

@[simp] theorem need_eq_ok {x : Option α} {e : ε} {a : α} : need x e = .ok a ↔ x = some a := by
  cases x <;> simp [need]

@[simp] theorem need_eq_error {x : Option α} {e e' : ε} :
    need x e = .error e' ↔ x = none ∧ e = e' := by
  cases x <;> simp [need]

@[simp] theorem need_some (a : α) (e : ε) : need (some a) e = .ok a := rfl

@[simp] theorem need_none (e : ε) : need (none : Option α) e = .error e := rfl

/-- A computation over a list succeeds when each step does. -/
theorem mapM_eq_ok_iff {f : α → Except ε β} {l : List α} {m : List β} :
    l.mapM f = .ok m ↔ List.Forall₂ (fun a b => f a = .ok b) l m := by
  induction l generalizing m with
  | nil => cases m <;> simp [pure, Except.pure]
  | cons a l ih =>
    rw [List.mapM_cons]
    cases hfa : f a with
    | error e =>
      constructor
      · intro h
        cases h
      · intro h
        cases h with
        | cons hb _ => cases hfa.symm.trans hb
    | ok b =>
      cases hl : l.mapM f with
      | error e =>
        constructor
        · intro h
          cases h
        · intro h
          cases h with
          | cons _ hrest => cases hl.symm.trans (ih.2 hrest)
      | ok bs =>
        constructor
        · intro h
          cases h
          exact .cons hfa (ih.1 hl)
        · intro h
          cases h with
          | cons hb hrest =>
            cases hfa.symm.trans hb
            cases hl.symm.trans (ih.2 hrest)
            rfl

/-- Renaming the error of a computation changes nothing about when it is accepted. -/
@[simp] theorem mapError_eq_ok {ε' : Type} {f : ε → ε'} {x : Except ε α} {a : α} :
    x.mapError f = .ok a ↔ x = .ok a := by
  cases x <;> simp [Except.mapError]

/-- The result of an accepted computation. -/
def result? : Except ε α → Option α
  | .ok a => some a
  | .error _ => none

@[simp] theorem result?_ok (a : α) : result? (.ok a : Except ε α) = some a := rfl

@[simp] theorem result?_error (e : ε) : result? (.error e : Except ε α) = none := rfl

@[simp] theorem result?_eq_some {x : Except ε α} {a : α} : result? x = some a ↔ x = .ok a := by
  cases x <;> simp

end Outcome
