import Nakode.Lib.Trace

/-!
# First in, first out, in batches

A ledger admits items in increasing order, withdraws items that still wait, and cuts the waiting
items off into named batches: a cut takes every waiting item up to a cutoff. `Ledger.Sound` says
what that gives at any time: the batches in the order they were cut, followed by the items that
wait, are in the order of admission without repetition, and a withdrawn item is in neither. Along
a run batches and withdrawals are only ever added (`Ledger.Extends`).
-/

namespace Fifo

open Transition

/-- The items that wait, the batches in the order they were cut, and the items withdrawn. -/
structure Ledger (ι β : Type) where
  pending : List ι
  batches : List (β × List ι)
  removed : Set ι

/-- What happens to a ledger. -/
inductive Move (ι β : Type) where
  | admission (x : ι)
  | remove (x : ι)
  | cut (name : β) (cutoff : ι)

namespace Ledger

variable {ι β : Type} [LinearOrder ι]

/-- The items in the order they are delivered: the batches, then what waits. -/
def line (l : Ledger ι β) : List ι := l.batches.flatMap Prod.snd ++ l.pending

/-- The moves of a ledger. -/
def system (ι β : Type) [LinearOrder ι] : System (Ledger ι β) (Move ι β) where
  next l move l' :=
    match move with
    | .admission x => (∀ y ∈ l.line, y < x) ∧ x ∉ l.removed ∧
        l' = { l with pending := l.pending ++ [x] }
    | .remove x => x ∈ l.pending ∧
        l' = { l with pending := l.pending.filter (· ≠ x), removed := insert x l.removed }
    | .cut name cutoff => name ∉ l.batches.map Prod.fst ∧
        l' = { l with
          pending := l.pending.filter (cutoff < ·)
          batches := l.batches ++ [(name, l.pending.filter (· ≤ cutoff))] }

/-- Delivered in the order of admission, nothing twice, nothing withdrawn. -/
structure Sound (l : Ledger ι β) : Prop where
  ordered : l.line.Pairwise (· < ·)
  withdrawn : ∀ x ∈ l.removed, x ∉ l.line
  named : (l.batches.map Prod.fst).Nodup

/-- Cutting a sorted list at a value and joining the parts gives the list. -/
theorem filter_le_append_filter_lt (c : ι) :
    ∀ {xs : List ι}, xs.Pairwise (· < ·) → xs.filter (· ≤ c) ++ xs.filter (c < ·) = xs
  | [], _ => rfl
  | x :: xs, h => by
    obtain ⟨hx, hxs⟩ := List.pairwise_cons.1 h
    by_cases hc : x ≤ c
    · simp only [List.filter_cons, hc, decide_true, if_true, not_lt.2 hc, decide_false,
        Bool.false_eq_true, if_false, List.cons_append, filter_le_append_filter_lt c hxs]
    · -- everything after `x` is above the cut as well
      have hle : xs.filter (· ≤ c) = [] :=
        List.filter_eq_nil_iff.2 fun y hy => by simpa using (not_le.1 hc).trans (hx y hy)
      have hlt : xs.filter (c < ·) = xs :=
        List.filter_eq_self.2 fun y hy => by simpa using (not_le.1 hc).trans (hx y hy)
      simp [hc, not_le.1 hc, hle, hlt]

/-- A list sorted by a key, filtered up to the last key of a prefix, is that prefix. -/
theorem filter_le_getLast {α : Type} {key : α → ι} {xs pre : List α}
    (h : xs.Pairwise fun x y => key x < key y) (hpre : pre <+: xs) {c : α}
    (hc : pre.getLast? = some c) : xs.filter (fun x => key x ≤ key c) = pre := by
  obtain ⟨rest, rfl⟩ := hpre
  obtain ⟨hpre, -, hrest⟩ := List.pairwise_append.1 h
  have hmem : c ∈ pre := List.mem_of_getLast? hc
  obtain ⟨init, rfl⟩ : ∃ init, pre = init ++ [c] := by
    rw [List.getLast?_eq_some_iff] at hc
    exact hc
  have hle : ∀ x ∈ init ++ [c], key x ≤ key c := by
    intro x hx
    rcases List.mem_append.1 hx with hx | hx
    · exact ((List.pairwise_append.1 hpre).2.2 x hx c (by simp)).le
    · rw [List.mem_singleton.1 hx]
  rw [List.filter_append, List.filter_eq_self.2 (by simpa using hle),
    List.filter_eq_nil_iff.2 (fun y hy => by simpa using hrest c hmem y hy), List.append_nil]

/-! ## Every move keeps a ledger sound -/

theorem Sound.step {l l' : Ledger ι β} {move : Move ι β} (hl : l.Sound)
    (h : (system ι β).next l move l') : l'.Sound := by
  obtain ⟨hordered, hwithdrawn, hnamed⟩ := hl
  cases move with
  | admission x =>
    obtain ⟨habove, hx, rfl⟩ := h
    have hline : ({ l with pending := l.pending ++ [x] } : Ledger ι β).line = l.line ++ [x] := by
      simp [line]
    refine ⟨?_, fun y hy hmem => ?_, hnamed⟩
    · rw [hline, List.pairwise_append]
      exact ⟨hordered, List.pairwise_singleton _ _, fun y hy z hz => by
        rw [List.mem_singleton.1 hz]; exact habove y hy⟩
    · rw [hline, List.mem_append, List.mem_singleton] at hmem
      rcases hmem with hmem | rfl
      · exact hwithdrawn y hy hmem
      · exact hx hy
  | remove x =>
    obtain ⟨hx, rfl⟩ := h
    have hsub : (l.batches.flatMap Prod.snd ++ l.pending.filter (· ≠ x)).Sublist l.line :=
      List.Sublist.append_left List.filter_sublist _
    refine ⟨hordered.sublist hsub, fun y hy hmem => ?_, hnamed⟩
    rcases hy with rfl | hy
    · -- `y` waited, so no batch has it, and the filter drops it from what waits
      rcases List.mem_append.1 hmem with hbatch | hpending
      · exact absurd ((List.pairwise_append.1 hordered).2.2 y hbatch y hx) (lt_irrefl y)
      · simp at hpending
    · exact hwithdrawn y hy (hsub.subset hmem)
  | cut name cutoff =>
    obtain ⟨hname, rfl⟩ := h
    have hpending := (List.pairwise_append.1 hordered).2.1
    have hline : ({ l with
        pending := l.pending.filter (cutoff < ·)
        batches := l.batches ++ [(name, l.pending.filter (· ≤ cutoff))] } : Ledger ι β).line
        = l.line := by
      simp only [line, List.flatMap_append, List.flatMap_cons, List.flatMap_nil, List.append_nil,
        List.append_assoc, filter_le_append_filter_lt cutoff hpending]
    refine ⟨hline ▸ hordered, fun y hy => hline ▸ hwithdrawn y hy, ?_⟩
    rw [List.map_append, List.nodup_append]
    refine ⟨hnamed, by simp, fun a ha b hb => ?_⟩
    simp only [List.map_cons, List.map_nil, List.mem_singleton] at hb
    rintro rfl
    exact hname (hb ▸ ha)

theorem sound_run {l l' : Ledger ι β} {moves : List (Move ι β)}
    (h : (system ι β).Run l moves l') (hl : l.Sound) : l'.Sound :=
  h.invariant (fun hstep hl => hl.step hstep) hl

theorem sound_empty : (⟨[], [], ∅⟩ : Ledger ι β).Sound :=
  ⟨by simp [line], fun _ hx => absurd hx (Set.notMem_empty _), by simp⟩

/-! ## What a sound ledger gives -/

namespace Sound

variable {l : Ledger ι β} (hl : l.Sound)
include hl

/-- An item of an earlier batch comes before every item of a later one. -/
theorem batches_pairwise :
    l.batches.Pairwise fun a b => ∀ x ∈ a.2, ∀ y ∈ b.2, x < y := by
  have h : (l.batches.flatMap Prod.snd).Pairwise (· < ·) :=
    (List.pairwise_append.1 hl.ordered).1
  rw [List.pairwise_flatMap] at h
  exact h.2

end Sound

/-! ## Nothing is taken back -/

/-- Batches and withdrawals are only added. -/
structure Extends (l' l : Ledger ι β) : Prop where
  batches : l.batches <+: l'.batches
  removed : l.removed ⊆ l'.removed

omit [LinearOrder ι] in
theorem Extends.refl (l : Ledger ι β) : l.Extends l := ⟨List.prefix_rfl, subset_rfl⟩

omit [LinearOrder ι] in
theorem Extends.trans {l l' l'' : Ledger ι β} (h : l''.Extends l') (h' : l'.Extends l) :
    l''.Extends l :=
  ⟨h'.batches.trans h.batches, h'.removed.trans h.removed⟩

theorem extends_step {l l' : Ledger ι β} {move : Move ι β} (h : (system ι β).next l move l') :
    l'.Extends l := by
  cases move with
  | admission x => obtain ⟨-, -, rfl⟩ := h; exact ⟨List.prefix_rfl, subset_rfl⟩
  | remove x => obtain ⟨-, rfl⟩ := h; exact ⟨List.prefix_rfl, Set.subset_insert _ _⟩
  | cut name cutoff => obtain ⟨-, rfl⟩ := h; exact ⟨List.prefix_append _ _, subset_rfl⟩

end Ledger

end Fifo
