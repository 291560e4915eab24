import Mathlib

/-!
# Groups of a list

A loop that puts each element into the group of its key, or into a new group at the end, leaves each
key with the elements that have it, in their order (`mem_groups_iff`). The positions of the elements
that satisfy a predicate (`positions`) can be taken out one after the other from the last to the
first, and what is left are the others in their order (`eraseAll_positions`).
-/

namespace Grouping

variable {α κ : Type} [DecidableEq κ] {key : α → κ}

/-! ## Grouping -/

/-- Puts an element into the group of its key. -/
def add (key : α → κ) (a : α) : List (κ × List α) → List (κ × List α)
  | [] => [(key a, [a])]
  | (k, l) :: groups =>
    if k = key a then (k, l ++ [a]) :: groups else (k, l) :: add key a groups

/-- The groups of a list, in the order of their first elements. -/
def groups (key : α → κ) (l : List α) : List (κ × List α) :=
  l.foldl (fun groups a => add key a groups) []

theorem mem_add_iff {a : α} {gs : List (κ × List α)} (hkeys : (gs.map Prod.fst).Nodup)
    {k : κ} {l : List α} :
    (k, l) ∈ add key a gs ↔
      (k ≠ key a ∧ (k, l) ∈ gs) ∨
      (k = key a ∧ ∃ l', l = l' ++ [a] ∧ ((k, l') ∈ gs ∨ l' = [] ∧ k ∉ gs.map Prod.fst)) := by
  induction gs with
  | nil =>
    rw [add, List.mem_singleton, Prod.mk.injEq]
    constructor
    · rintro ⟨rfl, rfl⟩
      exact .inr ⟨rfl, [], rfl, .inr ⟨rfl, List.not_mem_nil⟩⟩
    · rintro (⟨-, h⟩ | ⟨rfl, l', rfl, h | ⟨rfl, -⟩⟩)
      · cases h
      · cases h
      · exact ⟨rfl, rfl⟩
  | cons g gs ih =>
    obtain ⟨k', l'⟩ := g
    rw [List.map_cons, List.nodup_cons] at hkeys
    have hhead : ∀ m, (k', m) ∉ gs := fun m hm =>
      hkeys.1 (List.mem_map.2 ⟨(k', m), hm, rfl⟩)
    rw [add]
    by_cases hk : k' = key a
    · rw [if_pos hk, List.mem_cons, Prod.mk.injEq]
      constructor
      · rintro (⟨rfl, rfl⟩ | h)
        · exact .inr ⟨hk, l', rfl, .inl List.mem_cons_self⟩
        · exact .inl ⟨fun heq => hhead l (hk ▸ heq ▸ h), List.mem_cons_of_mem _ h⟩
      · rintro (⟨hne, h⟩ | ⟨rfl, m, rfl, h | ⟨-, h⟩⟩)
        · rcases List.mem_cons.1 h with h | h
          · obtain ⟨rfl, rfl⟩ := Prod.mk.injEq .. ▸ h
            exact absurd hk hne
          · exact .inr h
        · rcases List.mem_cons.1 h with h | h
          · obtain ⟨rfl, rfl⟩ := Prod.mk.injEq .. ▸ h
            exact .inl ⟨rfl, rfl⟩
          · exact absurd h (hk ▸ hhead m)
        · exact absurd (by simp [hk]) h
    · rw [if_neg hk, List.mem_cons, Prod.mk.injEq, ih hkeys.2]
      constructor
      · rintro (⟨rfl, rfl⟩ | ⟨hne, h⟩ | ⟨rfl, m, rfl, h | ⟨rfl, h⟩⟩)
        · exact .inl ⟨hk, List.mem_cons_self⟩
        · exact .inl ⟨hne, List.mem_cons_of_mem _ h⟩
        · exact .inr ⟨rfl, m, rfl, .inl (List.mem_cons_of_mem _ h)⟩
        · refine .inr ⟨rfl, [], rfl, .inr ⟨rfl, ?_⟩⟩
          rw [List.map_cons, List.mem_cons]
          rintro (heq | hmem)
          · exact hk heq.symm
          · exact h hmem
      · rintro (⟨hne, h⟩ | ⟨rfl, m, rfl, h | ⟨rfl, h⟩⟩)
        · rcases List.mem_cons.1 h with h | h
          · exact .inl (Prod.mk.injEq .. ▸ h)
          · exact .inr (.inl ⟨hne, h⟩)
        · rcases List.mem_cons.1 h with h | h
          · exact absurd (congrArg Prod.fst h).symm hk
          · exact .inr (.inr ⟨rfl, m, rfl, .inl h⟩)
        · rw [List.map_cons, List.mem_cons, not_or] at h
          exact .inr (.inr ⟨rfl, [], rfl, .inr ⟨rfl, h.2⟩⟩)

theorem keys_add (a : α) (gs : List (κ × List α)) :
    (add key a gs).map Prod.fst =
      if key a ∈ gs.map Prod.fst then gs.map Prod.fst else gs.map Prod.fst ++ [key a] := by
  induction gs with
  | nil => rfl
  | cons g gs ih =>
    rw [add]
    by_cases hk : g.1 = key a
    · rw [if_pos hk, if_pos (by simp [hk])]
      rfl
    · rw [if_neg hk, List.map_cons, ih, List.map_cons]
      by_cases hmem : key a ∈ gs.map Prod.fst
      · rw [if_pos hmem, if_pos (List.mem_cons_of_mem _ hmem)]
      · rw [if_neg hmem, if_neg]
        · rfl
        · rw [List.mem_cons, not_or]
          exact ⟨fun heq => hk heq.symm, hmem⟩

theorem groups_append (l : List α) (a : α) :
    groups key (l ++ [a]) = add key a (groups key l) := by
  rw [groups, List.foldl_append]
  rfl

/-- The groups have different keys. -/
theorem nodup_keys_groups (key : α → κ) (l : List α) : ((groups key l).map Prod.fst).Nodup := by
  induction l using List.reverseRecOn with
  | nil => exact .nil
  | append_singleton l a ih =>
    rw [groups_append, keys_add]
    split
    · exact ih
    · next hnew =>
      rw [List.nodup_append]
      refine ⟨ih, List.nodup_singleton _, ?_⟩
      rintro k hk _ hmem rfl
      exact hnew (List.mem_singleton.1 hmem ▸ hk)

theorem mem_keys_groups {l : List α} {k : κ} :
    k ∈ (groups key l).map Prod.fst ↔ ∃ a ∈ l, key a = k := by
  induction l using List.reverseRecOn with
  | nil => simp [groups]
  | append_singleton l a ih =>
    rw [groups_append, keys_add]
    simp only [List.mem_append, List.mem_singleton, or_and_right, exists_or, exists_eq_left]
    split
    · next hold =>
      rw [ih]
      refine ⟨.inl, ?_⟩
      rintro (h | rfl)
      · exact h
      · exact ih.1 hold
    · rw [List.mem_append, ih, List.mem_singleton, eq_comm]

/-- A group holds the elements with its key, and there is one for each key. -/
theorem mem_groups_iff {l : List α} {k : κ} {m : List α} :
    (k, m) ∈ groups key l ↔ m = l.filter (fun a => key a = k) ∧ ∃ a ∈ l, key a = k := by
  induction l using List.reverseRecOn generalizing k m with
  | nil => simp [groups]
  | append_singleton l a ih =>
    rw [groups_append, mem_add_iff (nodup_keys_groups key l)]
    simp only [ih, mem_keys_groups, List.filter_append, List.mem_append, List.mem_singleton,
      or_and_right, exists_or, exists_eq_left]
    by_cases hk : k = key a
    · subst hk
      have hempty : (¬ ∃ b ∈ l, key b = key a) → l.filter (fun b => key b = key a) = [] := by
        intro hnone
        rw [List.filter_eq_nil_iff]
        intro b hb hkey
        exact hnone ⟨b, hb, of_decide_eq_true hkey⟩
      simp only [ne_eq, not_true, false_and, false_or, true_and, decide_true,
        List.filter_cons_of_pos, List.filter_nil, or_true, and_true]
      constructor
      · rintro ⟨l', rfl, ⟨rfl, -⟩ | ⟨rfl, hnone⟩⟩
        · rfl
        · rw [hempty hnone]
      · rintro rfl
        refine ⟨_, rfl, ?_⟩
        by_cases hsome : ∃ b ∈ l, key b = key a
        · exact .inl ⟨rfl, hsome⟩
        · exact .inr ⟨hempty hsome, hsome⟩
    · have hne : ¬ key a = k := fun h => hk h.symm
      simp [hk, hne]

/-! ## Positions -/

/-- The positions of the elements that satisfy a predicate. -/
def positions (p : α → Bool) (l : List α) : List Nat :=
  (l.zipIdx.filter fun x => p x.1).map Prod.snd

theorem positions_append (p : α → Bool) (l : List α) (a : α) :
    positions p (l ++ [a]) = positions p l ++ if p a then [l.length] else [] := by
  rw [positions, List.zipIdx_append, List.filter_append, List.map_append, ← positions]
  congr 1
  cases hp : p a <;> simp [hp]

theorem lt_of_mem_positions {p : α → Bool} {l : List α} {i : Nat} (h : i ∈ positions p l) :
    i < l.length := by
  obtain ⟨x, hx, rfl⟩ := List.mem_map.1 h
  have := List.mem_zipIdx (List.mem_of_mem_filter hx)
  omega

theorem pairwise_positions (p : α → Bool) (l : List α) : (positions p l).Pairwise (· < ·) := by
  induction l using List.reverseRecOn with
  | nil => exact .nil
  | append_singleton l a ih =>
    rw [positions_append, List.pairwise_append]
    refine ⟨ih, ?_, ?_⟩
    · split
      · exact List.pairwise_singleton _ _
      · exact .nil
    · intro i hi j hj
      split at hj
      · rw [List.mem_singleton.1 hj]
        exact lt_of_mem_positions hi
      · cases hj

/-- Takes out the elements at some positions, one after the other. -/
def eraseAll (l : List α) (is : List Nat) : List α := is.foldl List.eraseIdx l

theorem eraseAll_append {l : List α} (m : List α) {is : List Nat}
    (hdesc : is.Pairwise (· > ·)) (hlt : ∀ i ∈ is, i < l.length) :
    eraseAll (l ++ m) is = eraseAll l is ++ m := by
  induction is generalizing l with
  | nil => rfl
  | cons i is ih =>
    rw [List.pairwise_cons] at hdesc
    have hi := hlt i List.mem_cons_self
    rw [eraseAll, eraseAll, List.foldl_cons, List.foldl_cons,
      List.eraseIdx_append_of_lt_length hi]
    refine ih hdesc.2 fun j hj => ?_
    have := hdesc.1 j hj
    rw [List.length_eraseIdx_of_lt hi]
    omega

/-- From the last to the first, the positions of a predicate can be taken out. -/
theorem eraseAll_positions (p : α → Bool) (l : List α) :
    eraseAll l (positions p l).reverse = l.filter fun a => !p a := by
  induction l using List.reverseRecOn with
  | nil => rfl
  | append_singleton l a ih =>
    have hrest := eraseAll_append [a] (List.pairwise_reverse.2 (pairwise_positions p l))
      fun i hi => lt_of_mem_positions (List.mem_reverse.1 hi)
    rw [positions_append, List.filter_append, ← ih]
    cases hp : p a with
    | false =>
      rw [if_neg Bool.false_ne_true, List.append_nil, hrest]
      simp [hp]
    | true =>
      have herase : (l ++ [a]).eraseIdx l.length = l := by simp [List.eraseIdx_append_of_length_le]
      rw [if_pos rfl, List.reverse_append, List.reverse_singleton, List.singleton_append, eraseAll,
        List.foldl_cons, herase]
      simp [hp, eraseAll]

end Grouping
