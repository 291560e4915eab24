import Mathlib

/-!
# Greedy prefixes

A loop that takes elements while they fit what it has taken so far returns the longest prefix whose
every step fitted (`isPrefix_greedy_iff`). Where the parts of a list are written one behind the
other, the length of the parts before one of them is where it begins (`slice_flatMap`), and a loop
that carries that length along is a map over the positions (`runningFrom_eq`).
-/

namespace Greedy

variable {σ α β γ : Type}

/-! ## Taking while it fits -/

/-- The elements taken from a state on, until one does not fit. -/
def greedy (fits : σ → α → Bool) (next : σ → α → σ) : σ → List α → List α
  | _, [] => []
  | s, a :: l => if fits s a then a :: greedy fits next (next s a) l else []

/-- The prefixes of what is taken are the prefixes whose every element fitted what was taken before
it. -/
theorem isPrefix_greedy_iff {fits : σ → α → Bool} {next : σ → α → σ} {s : σ} {l p : List α} :
    p <+: greedy fits next s l ↔
      p <+: l ∧ ∀ q a, q ++ [a] <+: p → fits (q.foldl next s) a = true := by
  induction l generalizing s p with
  | nil =>
    simp only [greedy, List.prefix_nil]
    refine ⟨?_, And.left⟩
    rintro rfl
    simp
  | cons b l ih =>
    cases p with
    | nil => simp
    | cons a p =>
      rw [greedy]
      constructor
      · intro h
        split at h
        · next hfits =>
          obtain ⟨rfl, h⟩ := List.cons_prefix_cons.1 h
          obtain ⟨hp, hsteps⟩ := ih.1 h
          refine ⟨List.cons_prefix_cons.2 ⟨rfl, hp⟩, fun q c hq => ?_⟩
          cases q with
          | nil =>
            obtain ⟨rfl, -⟩ := List.cons_prefix_cons.1 hq
            exact hfits
          | cons d q =>
            obtain ⟨rfl, hrest⟩ := List.cons_prefix_cons.1 hq
            exact hsteps q c hrest
        · exact absurd (List.prefix_nil.1 h) (List.cons_ne_nil _ _)
      · rintro ⟨hp, hsteps⟩
        obtain ⟨rfl, hrest⟩ := List.cons_prefix_cons.1 hp
        have hfits : fits s a = true := hsteps [] a (List.cons_prefix_cons.2 ⟨rfl, List.nil_prefix⟩)
        rw [if_pos hfits]
        refine List.cons_prefix_cons.2 ⟨rfl, ih.2 ⟨hrest, fun q c hq => ?_⟩⟩
        exact hsteps (a :: q) c (List.cons_prefix_cons.2 ⟨rfl, hq⟩)

theorem greedy_isPrefix (fits : σ → α → Bool) (next : σ → α → σ) (s : σ) (l : List α) :
    greedy fits next s l <+: l :=
  (isPrefix_greedy_iff.1 List.prefix_rfl).1

/-- What is taken fits a budget that every step pays for. -/
theorem sum_greedy_le {fits : σ → α → Bool} {next : σ → α → σ} {size : α → Nat} {left : σ → Nat}
    {Q : σ → Prop} (hnext : ∀ s a, Q s → fits s a = true →
      Q (next s a) ∧ size a + left (next s a) ≤ left s) {s : σ} (hs : Q s) (l : List α) :
    ((greedy fits next s l).map size).sum ≤ left s := by
  induction l generalizing s with
  | nil => exact Nat.zero_le _
  | cons a l ih =>
    rw [greedy]
    split
    · next hfits =>
      obtain ⟨hq, hle⟩ := hnext s a hs hfits
      have hrest := ih hq
      rw [List.map_cons, List.sum_cons]
      omega
    · exact Nat.zero_le _

/-! ## Parts behind each other -/

/-- A part of a concatenation lies where the parts before it end. -/
theorem slice_flatMap (f : α → List β) (l : List α) {i : Nat} {a : α} (h : l[i]? = some a) :
    ((l.flatMap f).drop ((l.take i).flatMap f).length).take (f a).length = f a := by
  induction l generalizing i with
  | nil => simp at h
  | cons b l ih =>
    cases i with
    | zero =>
      obtain rfl : b = a := by simpa using h
      simp
    | succ i =>
      have hrest := ih (i := i) (by simpa using h)
      rw [List.take_succ_cons, List.flatMap_cons, List.flatMap_cons, List.length_append,
        ← List.drop_drop, List.drop_left]
      exact hrest

/-- A loop over a list that carries a running size. -/
def runningFrom (size : α → Nat) (f : Nat → α → γ) : Nat → List α → List γ
  | _, [] => []
  | n, a :: l => f n a :: runningFrom size f (n + size a) l

/-- At each position the loop has the sizes of what came before. -/
theorem runningFrom_eq (size : α → Nat) (f : Nat → α → γ) (n : Nat) (l : List α) :
    runningFrom size f n l = l.mapIdx fun i => f (n + ((l.take i).map size).sum) := by
  induction l generalizing n with
  | nil => rfl
  | cons a l ih =>
    rw [runningFrom, ih, List.mapIdx_cons]
    simp [Nat.add_assoc]

end Greedy
