import Mathlib

/-!
# Replacing ranges of a list

An edit replaces a range of a list. Edits at separate ranges, in order, are applied from the last to
the first, so that no replacement moves a range that is still to be replaced (`applyBack`). The
result is the list rendered element by element outside the ranges, with the replacements between
(`render`, `applyBack_eq`). Two renderings of which one is never the longer are the same exactly if
they render the elements outside the ranges alike (`render_eq_iff`).
-/

namespace Splice

variable {α β γ : Type}

structure Edit (α : Type) where
  index : Nat
  length : Nat
  replacement : List α
  deriving DecidableEq, Repr

/-- The edit with its replacement rendered. -/
def Edit.render (f : α → List β) (e : Edit α) : Edit β :=
  ⟨e.index, e.length, e.replacement.flatMap f⟩

def replaceRange (xs : List α) (e : Edit α) : List α :=
  xs.take e.index ++ e.replacement ++ xs.drop (e.index + e.length)

/-- The edits, from the last to the first. -/
def applyBack (edits : List (Edit α)) (xs : List α) : List α :=
  edits.foldr (fun e xs => replaceRange xs e) xs

/-- Edits whose ranges follow one another, from a position on. -/
def Separate (pos : Nat) : List (Edit α) → Prop
  | [] => True
  | e :: es => pos ≤ e.index ∧ Separate (e.index + e.length) es

/-- A list that begins at a position, rendered outside the ranges. -/
def render (f : α → List β) (pos : Nat) : List (Edit β) → List α → List β
  | [], xs => xs.flatMap f
  | e :: es, xs =>
    (xs.take (e.index - pos)).flatMap f ++ e.replacement ++
      render f (e.index + e.length) es (xs.drop (e.index - pos + e.length))

/-- The elements outside the ranges, in order. -/
def outside (pos : Nat) : List (Edit β) → List α → List α
  | [], xs => xs
  | e :: es, xs =>
    xs.take (e.index - pos) ++ outside (e.index + e.length) es (xs.drop (e.index - pos + e.length))

theorem Separate.mono {edits : List (Edit α)} {pos pos' : Nat} (h : Separate pos edits)
    (hle : pos' ≤ pos) : Separate pos' edits := by
  cases edits with
  | nil => trivial
  | cons e es => exact ⟨Nat.le_trans hle h.1, h.2⟩

theorem Separate.pairwise {edits : List (Edit α)} {pos : Nat} (h : Separate pos edits) :
    (∀ e ∈ edits, pos ≤ e.index) ∧
      edits.Pairwise fun a b => a.index + a.length ≤ b.index := by
  induction edits generalizing pos with
  | nil => exact ⟨by simp, .nil⟩
  | cons e es ih =>
    obtain ⟨hle, hrest⟩ := h
    obtain ⟨hall, hpair⟩ := ih hrest
    refine ⟨?_, .cons hall hpair⟩
    intro e' he'
    rcases List.mem_cons.1 he' with rfl | hmem
    · exact hle
    · have := hall e' hmem
      omega

/-- Applied from the last to the first, the edits render the list. -/
theorem applyBack_append {edits : List (Edit α)} {pos : Nat} (before xs : List α)
    (hbefore : before.length = pos) (hsep : Separate pos edits)
    (hin : ∀ e ∈ edits, e.index + e.length ≤ pos + xs.length) :
    applyBack edits (before ++ xs) = before ++ render (fun x => [x]) pos edits xs := by
  induction edits generalizing pos before xs with
  | nil => simp [applyBack, render]
  | cons e es ih =>
    obtain ⟨hle, hrest⟩ := hsep
    have hend := hin e List.mem_cons_self
    have hxs : xs.take (e.index - pos + e.length) ++ xs.drop (e.index - pos + e.length) = xs :=
      List.take_append_drop ..
    have hlen : (before ++ xs.take (e.index - pos + e.length)).length = e.index + e.length := by
      rw [List.length_append, List.length_take]
      omega
    have hrest := ih (before ++ xs.take (e.index - pos + e.length))
      (xs.drop (e.index - pos + e.length)) hlen hrest (by
        intro e' he'
        have := hin e' (List.mem_cons_of_mem _ he')
        rw [List.length_drop]
        omega)
    rw [List.append_assoc, hxs] at hrest
    rw [applyBack, List.foldr_cons, ← applyBack, hrest, replaceRange, render]
    have hdrop : ((before ++ xs.take (e.index - pos + e.length)) ++
        render (fun x => [x]) (e.index + e.length) es
          (xs.drop (e.index - pos + e.length))).drop (e.index + e.length) =
        render (fun x => [x]) (e.index + e.length) es (xs.drop (e.index - pos + e.length)) := by
      rw [← hlen, List.drop_left]
    have htake : ((before ++ xs.take (e.index - pos + e.length)) ++
        render (fun x => [x]) (e.index + e.length) es
          (xs.drop (e.index - pos + e.length))).take e.index = before ++ xs.take (e.index - pos) := by
      rw [List.take_append_of_le_length (by omega), List.take_append, hbefore, List.take_take,
        List.take_of_length_le (by omega)]
      congr 2
      omega
    rw [hdrop, htake]
    simp [List.append_assoc]

theorem applyBack_eq {edits : List (Edit α)} (xs : List α) (hsep : Separate 0 edits)
    (hin : ∀ e ∈ edits, e.index + e.length ≤ xs.length) :
    applyBack edits xs = render (fun x => [x]) 0 edits xs := by
  have h := applyBack_append [] xs rfl hsep (by simpa using hin)
  simpa using h

/-- Rendering a list that is rendered. -/
theorem flatMap_render (f : α → List β) (g : β → List γ) (pos : Nat) (edits : List (Edit β))
    (xs : List α) : (render f pos edits xs).flatMap g =
      render (fun x => (f x).flatMap g) pos (edits.map (·.render g)) xs := by
  induction edits generalizing pos xs with
  | nil => simp [render, List.flatMap_assoc]
  | cons e es ih => simp [render, List.flatMap_append, List.flatMap_assoc, ih, Edit.render]

theorem render_map (f : β → List γ) (g : α → β) (pos : Nat) (edits : List (Edit γ))
    (xs : List α) : render f pos edits (xs.map g) = render (fun x => f (g x)) pos edits xs := by
  induction edits generalizing pos xs with
  | nil => simp [render, List.flatMap_map]
  | cons e es ih => simp [render, ← List.map_take, ← List.map_drop, List.flatMap_map, ih]

theorem outside_map_render (f : β → List γ) (pos : Nat) (edits : List (Edit β)) (xs : List α) :
    outside pos (edits.map (·.render f)) xs = outside pos edits xs := by
  induction edits generalizing pos xs with
  | nil => rfl
  | cons e es ih =>
    rw [List.map_cons, outside, outside, ih]
    rfl

/-- What the list with its edits holds was there or came with an edit. -/
theorem mem_applyBack {edits : List (Edit α)} {xs : List α} {x : α} (h : x ∈ applyBack edits xs) :
    x ∈ xs ∨ ∃ e ∈ edits, x ∈ e.replacement := by
  induction edits with
  | nil => exact .inl h
  | cons e es ih =>
    rw [applyBack, List.foldr_cons, ← applyBack, replaceRange, List.mem_append,
      List.mem_append] at h
    rcases h with (h | h) | h
    · exact (ih (List.mem_of_mem_take h)).imp_right fun ⟨e', he', hx⟩ =>
        ⟨e', List.mem_cons_of_mem _ he', hx⟩
    · exact .inr ⟨e, List.mem_cons_self, h⟩
    · exact (ih (List.mem_of_mem_drop h)).imp_right fun ⟨e', he', hx⟩ =>
        ⟨e', List.mem_cons_of_mem _ he', hx⟩

/-! ## When two renderings are the same -/

variable {f g : α → List β}

theorem length_flatMap_le {xs : List α} (hle : ∀ x ∈ xs, (f x).length ≤ (g x).length) :
    (xs.flatMap f).length ≤ (xs.flatMap g).length := by
  induction xs with
  | nil => simp
  | cons x xs ih =>
    have h := hle x List.mem_cons_self
    have hrest := ih fun y hy => hle y (List.mem_cons_of_mem _ hy)
    simp only [List.flatMap_cons, List.length_append]
    omega

theorem length_render_le {pos : Nat} {edits : List (Edit β)} {xs : List α}
    (hle : ∀ x ∈ xs, (f x).length ≤ (g x).length) :
    (render f pos edits xs).length ≤ (render g pos edits xs).length := by
  induction edits generalizing pos xs with
  | nil => exact length_flatMap_le hle
  | cons e es ih =>
    have htake : ((xs.take (e.index - pos)).flatMap f).length ≤
        ((xs.take (e.index - pos)).flatMap g).length :=
      length_flatMap_le fun x hx => hle x (List.mem_of_mem_take hx)
    have hrest : (render f (e.index + e.length) es (xs.drop (e.index - pos + e.length))).length ≤
        (render g (e.index + e.length) es (xs.drop (e.index - pos + e.length))).length :=
      ih fun x hx => hle x (List.mem_of_mem_drop hx)
    simp only [render, List.length_append]
    omega

theorem flatMap_eq_iff {xs : List α} (hle : ∀ x ∈ xs, (f x).length ≤ (g x).length) :
    xs.flatMap f = xs.flatMap g ↔ ∀ x ∈ xs, f x = g x := by
  induction xs with
  | nil => simp
  | cons x xs ih =>
    have hrest : ∀ y ∈ xs, (f y).length ≤ (g y).length :=
      fun y hy => hle y (List.mem_cons_of_mem _ hy)
    rw [List.forall_mem_cons, List.flatMap_cons, List.flatMap_cons, ← ih hrest]
    constructor
    · intro heq
      have hsum := congrArg List.length heq
      have hx := hle x List.mem_cons_self
      have hxs := length_flatMap_le hrest
      rw [List.length_append, List.length_append] at hsum
      exact List.append_inj heq (by omega)
    · rintro ⟨hx, hxs⟩
      rw [hx, hxs]

theorem render_eq_iff {pos : Nat} {edits : List (Edit β)} {xs : List α}
    (hle : ∀ x ∈ xs, (f x).length ≤ (g x).length) :
    render f pos edits xs = render g pos edits xs ↔ ∀ x ∈ outside pos edits xs, f x = g x := by
  induction edits generalizing pos xs with
  | nil => exact flatMap_eq_iff hle
  | cons e es ih =>
    have htake : ∀ x ∈ xs.take (e.index - pos), (f x).length ≤ (g x).length :=
      fun x hx => hle x (List.mem_of_mem_take hx)
    have hdrop : ∀ x ∈ xs.drop (e.index - pos + e.length), (f x).length ≤ (g x).length :=
      fun x hx => hle x (List.mem_of_mem_drop hx)
    simp only [render, outside, List.forall_mem_append]
    rw [← flatMap_eq_iff htake, ← ih hdrop]
    constructor
    · intro heq
      have hsum := congrArg List.length heq
      have h₁ := length_flatMap_le htake
      have h₂ : (render f (e.index + e.length) es (xs.drop (e.index - pos + e.length))).length ≤
          (render g (e.index + e.length) es (xs.drop (e.index - pos + e.length))).length :=
        length_render_le hdrop
      simp only [List.length_append] at hsum
      rw [List.append_assoc, List.append_assoc] at heq
      obtain ⟨hfirst, hrest⟩ := List.append_inj heq (by omega)
      exact ⟨hfirst, List.append_cancel_left hrest⟩
    · rintro ⟨h₁, h₂⟩
      rw [h₁, h₂]

end Splice
