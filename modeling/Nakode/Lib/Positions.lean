import Nakode.Lib.Table

/-!
# Positions by key

An index of a list whose elements may have a key: it leads from each key to the position of the
element that has it (`Indexes`). The rules say how it follows the list through changes in place,
new elements at the end, and the new index after elements moved (`rebuild_indexes`).
-/

namespace Positions

open Relational (Table)

variable {α κ : Type} [DecidableEq κ] {key : α → Option κ} {index : Table κ Nat} {l : List α}

/-- The index has exactly the keys of the list, each with the position of its element. -/
def Indexes (key : α → Option κ) (index : Table κ Nat) (l : List α) : Prop :=
  ∀ k i, index.find? k = some i ↔ ∃ a, l[i]? = some a ∧ key a = some k

/-- The index of a list from a position on, over an index of what is before. -/
def rebuild (key : α → Option κ) : Nat → List α → Table κ Nat → Table κ Nat
  | _, [], index => index
  | n, a :: l, index =>
    rebuild key (n + 1) l (match key a with
      | some k => index.upsert k n fun _ => n
      | none => index)

namespace Indexes

theorem nil : Indexes key ∅ [] := by
  intro k i
  simp

/-- No two elements have one key. -/
theorem nodup (h : Indexes key index l) : (l.filterMap key).Nodup := by
  rw [List.Nodup, List.pairwise_filterMap, List.pairwise_iff_getElem]
  intro i j hi hj hlt k hk k' hk' heq
  subst heq
  have hat : index.find? k = some i := (h k i).2 ⟨l[i], List.getElem?_eq_getElem hi, hk⟩
  have hat' : index.find? k = some j := (h k j).2 ⟨l[j], List.getElem?_eq_getElem hj, hk'⟩
  rw [hat] at hat'
  obtain rfl := Option.some.inj hat'
  omega

theorem lt_length (h : Indexes key index l) {k : κ} {i : Nat} (hat : index.find? k = some i) :
    i < l.length := by
  obtain ⟨a, ha, -⟩ := (h k i).1 hat
  exact (List.getElem?_eq_some_iff.1 ha).1

/-- The elements change in place and keep their keys. -/
theorem change (h : Indexes key index l) {l' : List α} {f : Nat → α → α}
    (hl' : ∀ i, l'[i]? = l[i]?.map (f i))
    (hkey : ∀ i a, l[i]? = some a → key (f i a) = key a) : Indexes key index l' := by
  intro k i
  rw [h k i, hl']
  constructor
  · rintro ⟨a, ha, hk⟩
    exact ⟨f i a, by simp [ha], (hkey i a ha).trans hk⟩
  · rintro ⟨b, hb, hk⟩
    obtain ⟨a, ha, rfl⟩ := Option.map_eq_some_iff.1 hb
    exact ⟨a, ha, (hkey i a ha).symm.trans hk⟩

theorem modify (h : Indexes key index l) {i : Nat} {f : α → α}
    (hkey : ∀ a, l[i]? = some a → key (f a) = key a) : Indexes key index (l.modify i f) := by
  refine h.change (f := fun j a => if i = j then f a else a) (fun j => List.getElem?_modify ..) ?_
  intro j a ha
  split
  · next heq => exact hkey a (heq ▸ ha)
  · rfl

theorem map (h : Indexes key index l) {f : α → α} (hkey : ∀ a ∈ l, key (f a) = key a) :
    Indexes key index (l.map f) :=
  h.change (fun _ => List.getElem?_map) fun _ a ha => hkey a (List.mem_of_getElem? ha)

theorem mapIdx (h : Indexes key index l) {f : Nat → α → α} (hkey : ∀ i a, key (f i a) = key a) :
    Indexes key index (l.mapIdx f) :=
  h.change (fun _ => List.getElem?_mapIdx) fun i a _ => hkey i a

/-- An element without a key is added at the end. -/
theorem concat_none (h : Indexes key index l) {a : α} (ha : key a = none) :
    Indexes key index (l ++ [a]) := by
  intro k i
  rw [h k i]
  constructor
  · rintro ⟨b, hb, hk⟩
    exact ⟨b, List.getElem?_append_left (List.getElem?_eq_some_iff.1 hb).1 ▸ hb, hk⟩
  · rintro ⟨b, hb, hk⟩
    rw [List.getElem?_append] at hb
    split at hb
    · exact ⟨b, hb, hk⟩
    · obtain rfl := List.mem_singleton.1 (List.mem_of_getElem? hb)
      rw [ha] at hk
      cases hk

/-- An element with a new key is added at the end. -/
theorem concat (h : Indexes key index l) {a : α} {k : κ} (ha : key a = some k)
    (hfree : index.find? k = none) :
    Indexes key (index.upsert k l.length fun _ => l.length) (l ++ [a]) := by
  intro k' i
  rw [Relational.Table.find?_upsert]
  by_cases hk : k' = k
  · subst hk
    rw [if_pos rfl, hfree]
    constructor
    · intro hi
      obtain rfl := Option.some.inj hi
      exact ⟨a, by simp, ha⟩
    · rintro ⟨b, hb, hk⟩
      rw [List.getElem?_append] at hb
      split at hb
      · have hat := (h k' i).2 ⟨b, hb, hk⟩
        rw [hfree] at hat
        cases hat
      · next hge =>
        obtain ⟨hlt, -⟩ := List.getElem?_eq_some_iff.1 hb
        rw [List.length_singleton] at hlt
        have hi : l.length = i := by omega
        exact congrArg some hi
  · rw [if_neg hk, h k' i]
    constructor
    · rintro ⟨b, hb, hk⟩
      exact ⟨b, List.getElem?_append_left (List.getElem?_eq_some_iff.1 hb).1 ▸ hb, hk⟩
    · rintro ⟨b, hb, hk'⟩
      rw [List.getElem?_append] at hb
      split at hb
      · exact ⟨b, hb, hk'⟩
      · obtain rfl := List.mem_singleton.1 (List.mem_of_getElem? hb)
        rw [ha] at hk'
        exact absurd (Option.some.inj hk').symm hk

end Indexes

/-- A new index over the list that an index is already of. -/
theorem Indexes.rebuild {done : List α} (h : Indexes key index done)
    (hnodup : ((done ++ l).filterMap key).Nodup) :
    Indexes key (Positions.rebuild key done.length l index) (done ++ l) := by
  induction l generalizing done index with
  | nil => simpa [Positions.rebuild] using h
  | cons a l ih =>
    have hsplit : done ++ a :: l = (done ++ [a]) ++ l := by simp
    have hlen : (done ++ [a]).length = done.length + 1 := by simp
    rw [hsplit] at hnodup ⊢
    rw [Positions.rebuild, ← hlen]
    refine ih ?_ hnodup
    cases ha : key a with
    | none => exact h.concat_none ha
    | some k =>
      refine h.concat ha ?_
      by_contra hat
      obtain ⟨i, hi⟩ := Option.ne_none_iff_exists'.1 hat
      obtain ⟨b, hb, hk⟩ := (h k i).1 hi
      rw [List.filterMap_append, List.filterMap_append, List.nodup_append,
        List.nodup_append] at hnodup
      refine hnodup.1.2.2 k (List.mem_filterMap.2 ⟨b, List.mem_of_getElem? hb, hk⟩) k ?_ rfl
      simp [ha]

theorem rebuild_indexes (h : (l.filterMap key).Nodup) : Indexes key (rebuild key 0 l ∅) l :=
  @Indexes.rebuild _ _ _ key ∅ l [] .nil h

end Positions
