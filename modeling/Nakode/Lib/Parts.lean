import Mathlib

/-!
# Operations on one part of a state

A state has parts, and an operation acts on one of them (`Acts`): its result and what it makes of
the part depend on the part only, an invariant of the part is kept, and the other parts stay as they
are. Such operations in sequence act on the part again (`Acts.bind`), also where what is done depends
on the part (`Acts.read`).
-/

namespace Parts

variable {σ ι κ ρ τ : Type} {part : σ → ι → κ} {i : ι} {I : κ → Prop}

/-- An operation acts on one part of a state, which has an invariant. -/
structure Acts (part : σ → ι → κ) (i : ι) (I : κ → Prop) (op : σ → ρ × σ) : Prop where
  same : ∀ s s', I (part s i) → part s i = part s' i →
    (op s).1 = (op s').1 ∧ part (op s).2 i = part (op s').2 i
  keeps : ∀ s, I (part s i) → I (part (op s).2 i)
  frame : ∀ s, I (part s i) → ∀ j, j ≠ i → part (op s).2 j = part s j

namespace Acts

/-- An operation that does nothing to the state. -/
theorem pure (r : ρ) : Acts part i I fun s => (r, s) :=
  ⟨fun _ _ _ h => ⟨rfl, h⟩, fun _ h => h, fun _ _ _ _ => rfl⟩

/-- An operation of which it is known what it makes of the part. -/
theorem write {f : σ → σ} (r : κ → ρ) (g : κ → κ)
    (hhere : ∀ s, I (part s i) → part (f s) i = g (part s i)) (hkeeps : ∀ c, I c → I (g c))
    (hframe : ∀ s j, j ≠ i → part (f s) j = part s j) :
    Acts part i I fun s => (r (part s i), f s) := by
  refine ⟨fun s s' hs hsame => ⟨congrArg r hsame, ?_⟩, fun s hs => ?_, fun s _ => hframe s⟩
  · show part (f s) i = part (f s') i
    rw [hhere s hs, hhere s' (hsame ▸ hs), hsame]
  · show I (part (f s) i)
    rw [hhere s hs]
    exact hkeeps _ hs

/-- An operation that first reads the part. -/
theorem read {k : κ → σ → ρ × σ} (h : ∀ c, I c → Acts part i I (k c)) :
    Acts part i I fun s => k (part s i) s := by
  refine ⟨fun s s' hs hsame => ?_, fun s hs => (h _ hs).keeps s hs, fun s hs => (h _ hs).frame s hs⟩
  have hsame' := (h _ hs).same s s' hs hsame
  show (k (part s i) s).1 = (k (part s' i) s').1
    ∧ part (k (part s i) s).2 i = part (k (part s' i) s').2 i
  rwa [← hsame]

/-- One operation after another. -/
theorem bind {op : σ → ρ × σ} {k : ρ → σ → τ × σ} (h : Acts part i I op) (Q : ρ → Prop)
    (hresult : ∀ s, I (part s i) → Q (op s).1) (hk : ∀ r, Q r → Acts part i I (k r)) :
    Acts part i I fun s => k (op s).1 (op s).2 := by
  refine ⟨fun s s' hs hsame => ?_, fun s hs => ?_, fun s hs j hj => ?_⟩
  · obtain ⟨hresult', hpart⟩ := h.same s s' hs hsame
    have hsame' := (hk _ (hresult s hs)).same (op s).2 (op s').2 (h.keeps s hs) hpart
    show (k (op s).1 (op s).2).1 = (k (op s').1 (op s').2).1
      ∧ part (k (op s).1 (op s).2).2 i = part (k (op s').1 (op s').2).2 i
    rwa [← hresult']
  · exact (hk _ (hresult s hs)).keeps _ (h.keeps s hs)
  · exact ((hk _ (hresult s hs)).frame _ (h.keeps s hs) j hj).trans (h.frame s hs j hj)

end Acts

end Parts
