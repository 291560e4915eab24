import Mathlib

/-!
# Runs of a labelled transition system

A system is a step relation whose steps carry labels, and a run is a finite sequence of steps. The
rules here pass a property from one step to a whole run: a property that every step keeps holds at
the end of a run (`Run.invariant`), and a preorder that every step respects relates the ends of a
run (`Run.rel`). A run in which only some of the steps are allowed is a run of a restricted system
(`System.restrict`), whose condition may look at the state a step starts in.
-/

namespace Transition

/-- A labelled transition system. -/
structure System (σ ι : Type) where
  next : σ → ι → σ → Prop

namespace System

variable {σ ι : Type} (T : System σ ι)

/-- `T.Run s is t`: from `s`, steps labelled `is` lead to `t`. -/
inductive Run : σ → List ι → σ → Prop
  | nil (s : σ) : Run s [] s
  | cons {s s' t : σ} {i : ι} {is : List ι} : T.next s i s' → Run s' is t → Run s (i :: is) t

variable {T}

namespace Run

theorem single {s t : σ} {i : ι} (h : T.next s i t) : T.Run s [i] t := .cons h (.nil t)

/-- One run after another is a run. -/
theorem append {s t u : σ} {is js : List ι} (h : T.Run s is t) (h' : T.Run t js u) :
    T.Run s (is ++ js) u := by
  induction h with
  | nil => exact h'
  | cons hstep _ ih => exact .cons hstep (ih h')

/-- A property that every step keeps holds at the end of a run. -/
theorem invariant {s t : σ} {is : List ι} (h : T.Run s is t) {Q : σ → Prop}
    (hstep : ∀ {s i s'}, T.next s i s' → Q s → Q s') (hs : Q s) : Q t := by
  induction h with
  | nil => exact hs
  | cons hnext _ ih => exact ih (hstep hnext hs)

/-- A preorder that every step respects, given an invariant, relates the ends of a run. -/
theorem rel {s t : σ} {is : List ι} (h : T.Run s is t) {Q : σ → Prop} {R : σ → σ → Prop}
    (hrefl : ∀ s, R s s) (htrans : ∀ {s t u}, R s t → R t u → R s u)
    (hstep : ∀ {s i s'}, T.next s i s' → Q s → Q s' ∧ R s s') (hs : Q s) : R s t := by
  induction h with
  | nil => exact hrefl _
  | cons hnext _ ih =>
    obtain ⟨hq, hr⟩ := hstep hnext hs
    exact htrans hr (ih hq)

/-- A run of one system is a run of another that allows its steps. -/
theorem mono {T' : System σ ι} (hT : ∀ {s i s'}, T.next s i s' → T'.next s i s') {s t : σ}
    {is : List ι} (h : T.Run s is t) : T'.Run s is t := by
  induction h with
  | nil => exact .nil _
  | cons hnext _ ih => exact .cons (hT hnext) ih

end Run

/-! ## Step functions -/

/-- The system whose steps a partial function computes. -/
def ofStep (step : σ → ι → Option σ) : System σ ι where
  next s i s' := step s i = some s'

/-! ## Restricted systems -/

variable (T)

/-- The steps of a system that meet a condition on their label and on the state they start in. -/
def restrict (C : σ → ι → Prop) : System σ ι where
  next s i s' := C s i ∧ T.next s i s'

variable {T}

/-- A run of steps that meet a condition is a run. -/
theorem Run.of_restrict {C : σ → ι → Prop} {s t : σ} {is : List ι} (h : (T.restrict C).Run s is t) :
    T.Run s is t :=
  h.mono And.right

/-- What a step function computes along a list of labels is a run, of steps that meet a condition if
each is checked for it. -/
theorem Run.of_foldlM {step : σ → ι → Option σ} {C : σ → ι → Prop} [∀ s i, Decidable (C s i)]
    {s t : σ} {is : List ι}
    (h : is.foldlM (fun s i => if C s i then step s i else none) s = some t) :
    ((ofStep step).restrict C).Run s is t := by
  induction is generalizing s with
  | nil =>
    cases h
    exact .nil _
  | cons i is ih =>
    rw [List.foldlM_cons] at h
    obtain ⟨s', hs', hrest⟩ := Option.bind_eq_some_iff.1 h
    split at hs'
    · next hC => exact .cons ⟨hC, hs'⟩ (ih hrest)
    · cases hs'

end System

end Transition
