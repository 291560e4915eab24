import Mathlib

/-!
# Chains of digests

Each item of a list is hashed together with the digest before it. Where the hash tells apart what it
was given, equal ends come from equal starts and equal items (`run_inj`).
-/

namespace HashChain

variable {α β δ : Type} (hash : β → δ) (link : δ → α → β)

/-- The digest after a list of items. -/
def run (start : δ) (items : List α) : δ := items.foldl (fun current a => hash (link current a)) start

/-- What was hashed for a list of items. -/
def inputs (start : δ) : List α → List β
  | [] => []
  | a :: items => link start a :: inputs (hash (link start a)) items

theorem run_cons (start : δ) (a : α) (items : List α) :
    run hash link start (a :: items) = run hash link (hash (link start a)) items :=
  rfl

theorem run_concat (start : δ) (items : List α) (a : α) :
    run hash link start (items ++ [a]) = hash (link (run hash link start items) a) := by
  rw [run, List.foldl_append]
  rfl

theorem inputs_concat (start : δ) (items : List α) (a : α) :
    inputs hash link start (items ++ [a])
      = inputs hash link start items ++ [link (run hash link start items) a] := by
  induction items generalizing start with
  | nil => rfl
  | cons b items ih =>
    rw [List.cons_append, inputs, inputs, ih]
    rfl

/-- The inputs of the first items are inputs of all. -/
theorem inputs_take_subset (start : δ) (items : List α) (n : Nat) :
    inputs hash link start (items.take n) ⊆ inputs hash link start items := by
  induction items generalizing start n with
  | nil =>
    rw [List.take_nil]
    exact List.Subset.refl _
  | cons a items ih =>
    cases n with
    | zero => exact List.nil_subset _
    | succ n => exact List.cons_subset_cons _ (ih _ n)

variable {hash link}

/-- A chain ends as another one only if both started alike and took the same items. -/
theorem run_inj {used : Set β} (hhash : Set.InjOn hash used) {start start' : β}
    (hstart : start ∈ used) (hstart' : start' ∈ used)
    (hfresh : ∀ current a, link current a ≠ start) (hfresh' : ∀ current a, link current a ≠ start')
    {items items' : List α}
    (hlink : ∀ a ∈ items, ∀ a' ∈ items', ∀ current current', link current a = link current' a' →
      current = current' ∧ a = a')
    (hused : ∀ x ∈ inputs hash link (hash start) items, x ∈ used)
    (hused' : ∀ x ∈ inputs hash link (hash start') items', x ∈ used)
    (h : run hash link (hash start) items = run hash link (hash start') items') :
    start = start' ∧ items = items' := by
  induction items using List.reverseRecOn generalizing items' with
  | nil =>
    cases items' using List.reverseRecOn with
    | nil => exact ⟨hhash hstart hstart' h, rfl⟩
    | append_singleton items' a' =>
      rw [run_concat] at h
      rw [inputs_concat] at hused'
      exact absurd (hhash hstart (hused' _ (List.mem_concat_self ..)) h).symm (hfresh _ _)
  | append_singleton items a ih =>
    rw [run_concat] at h
    rw [inputs_concat] at hused
    have hin := hused _ (List.mem_append_right _ List.mem_cons_self)
    cases items' using List.reverseRecOn with
    | nil => exact absurd (hhash hin hstart' h) (hfresh' _ _)
    | append_singleton items' a' =>
      rw [run_concat] at h
      rw [inputs_concat] at hused'
      have hin' := hused' _ (List.mem_append_right _ List.mem_cons_self)
      obtain ⟨hrun, rfl⟩ := hlink a (List.mem_append_right _ List.mem_cons_self) a'
        (List.mem_append_right _ List.mem_cons_self) _ _ (hhash hin hin' h)
      obtain ⟨hstarts, rfl⟩ := ih
        (fun b hb b' hb' => hlink b (List.mem_append_left _ hb) b' (List.mem_append_left _ hb'))
        (fun x hx => hused x (List.mem_append_left _ hx))
        (fun x hx => hused' x (List.mem_append_left _ hx)) hrun
      exact ⟨hstarts, rfl⟩

end HashChain
