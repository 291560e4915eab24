import Nakode.Lib.Table

/-!
# The last few records of a journal

A list that takes elements at its end and gives up its first one when there are more than `cap`
(`push`) is the `window` of everything it took (`window_cons`).

Records are written under keys, and only the last `cap` of them are kept: in a table, beside the
list of their keys in the order of writing (`record`). When a key is written only while no record
is kept under it, the keys of the journal of everything that was written are `Spaced`: a key comes
back only after `cap` other ones. The table and the list are then exactly the last `cap` records
of the journal (`Keeps`), and a record is gone only after records under `cap` further keys
(`Spaced.further`). Journals are lists with the newest record first.
-/

namespace Retention

open Relational

variable {κ β : Type}

/-! ## Keys that come back -/

/-- Newest first, no key is written while it is among the last `cap` ones. -/
def Spaced (cap : Nat) : List κ → Prop
  | [] => True
  | k :: older => k ∉ older.take cap ∧ Spaced cap older

namespace Spaced

variable {cap : Nat}

theorem tail {k : κ} {older : List κ} (h : Spaced cap (k :: older)) : Spaced cap older := h.2

theorem drop {ks : List κ} (h : Spaced cap ks) (n : Nat) : Spaced cap (ks.drop n) := by
  induction n generalizing ks with
  | zero => exact h
  | succ n ih =>
    cases ks with
    | nil => exact h
    | cons k older => exact ih h.tail

/-- The last `cap + 1` keys are distinct. -/
theorem nodup_take {ks : List κ} (h : Spaced cap ks) : (ks.take (cap + 1)).Nodup := by
  induction ks with
  | nil => simp
  | cons k older ih =>
    rw [List.take_succ_cons]
    have hsub : (older.take cap).Sublist (older.take (cap + 1)) := by
      have hprefix := List.take_prefix_take_left (l := older) (Nat.le_succ cap)
      exact hprefix.sublist
    exact List.nodup_cons.2 ⟨h.1, (ih h.tail).sublist hsub⟩

/-- Before a key that is no longer among the last `cap` ones there are `cap` further ones. -/
theorem further {newer older : List κ} {k : κ} (h : Spaced cap (newer ++ k :: older))
    (hlen : cap ≤ newer.length) :
    ∃ ks : List κ, ks.length = cap ∧ ks.Nodup ∧ k ∉ ks ∧ ∀ x ∈ ks, x ∈ newer := by
  have hwindow := (h.drop (newer.length - cap)).nodup_take
  have hsplit : ((newer ++ k :: older).drop (newer.length - cap)).take (cap + 1)
      = newer.drop (newer.length - cap) ++ [k] := by
    have hdrop : (newer.drop (newer.length - cap)).length = cap := by
      rw [List.length_drop]
      omega
    rw [List.drop_append_of_le_length (Nat.sub_le _ _), List.take_append, hdrop,
      List.take_of_length_le (by omega), Nat.add_sub_cancel_left]
    rfl
  rw [hsplit] at hwindow
  obtain ⟨hnodup, -, hk⟩ := List.nodup_append.1 hwindow
  have hfresh : k ∉ newer.drop (newer.length - cap) := by
    intro hmem
    exact hk k hmem k (List.mem_singleton_self k) rfl
  refine ⟨newer.drop (newer.length - cap), ?_, hnodup, hfresh,
    fun x hx => List.mem_of_mem_drop hx⟩
  rw [List.length_drop]
  omega

end Spaced

/-! ## Windows -/

section Window

variable {α : Type} {cap : Nat}

/-- The last `cap` elements of a journal, the oldest first. -/
def window (cap : Nat) (journal : List α) : List α := (journal.take cap).reverse

/-- `push_back`, and `pop_front` when there are more than `cap` elements then. -/
def push (cap : Nat) (xs : List α) (x : α) : List α :=
  if cap < (xs ++ [x]).length then (xs ++ [x]).tail else xs ++ [x]

theorem mem_window {journal : List α} {x : α} : x ∈ window cap journal ↔ x ∈ journal.take cap :=
  List.mem_reverse

theorem mem_of_mem_window {journal : List α} {x : α} (h : x ∈ window cap journal) : x ∈ journal :=
  List.mem_of_mem_take (mem_window.1 h)

theorem length_window (journal : List α) : (window cap journal).length = min cap journal.length := by
  rw [window, List.length_reverse, List.length_take]

theorem mem_push (hcap : 0 < cap) (xs : List α) (x : α) : x ∈ push cap xs x := by
  unfold push
  split
  · next hfull =>
    have hne : xs ≠ [] := by
      rintro rfl
      simp only [List.nil_append, List.length_singleton] at hfull
      omega
    rw [List.tail_append_of_ne_nil hne]
    simp
  · simp

theorem window_cons (hcap : 0 < cap) (x : α) (journal : List α) :
    window cap (x :: journal) = push cap (window cap journal) x := by
  obtain ⟨n, rfl⟩ : ∃ n, cap = n + 1 := ⟨cap - 1, by omega⟩
  have hcons : window (n + 1) (x :: journal) = (journal.take n).reverse ++ [x] := by
    rw [window, List.take_succ_cons, List.reverse_cons]
  have hlen : (window (n + 1) journal ++ [x]).length = min (n + 1) journal.length + 1 := by
    rw [List.length_append, length_window, List.length_singleton]
  rw [hcons, push, hlen]
  split
  · next hfull =>
    have hne : window (n + 1) journal ≠ [] := by
      intro hnil
      have hzero : (window (n + 1) journal).length = min (n + 1) journal.length :=
        length_window journal
      rw [hnil, List.length_nil] at hzero
      omega
    have hdrop : (journal.take (n + 1)).dropLast = journal.take n := by
      rw [List.dropLast_eq_take, List.length_take, List.take_take]
      exact congrArg (journal.take ·) (by omega)
    rw [List.tail_append_of_ne_nil hne, window, List.tail_reverse, hdrop]
  · next hroom =>
    rw [window, List.take_of_length_le (by omega), List.take_of_length_le (by omega)]

/-- The elements with the last `n` keys of a list are its last `n` elements. -/
theorem filter_newest {κ : Type} [DecidableEq κ] {key : α → κ} {xs : List α}
    (hnodup : (xs.map key).Nodup) (n : Nat) :
    xs.filter (fun x => ((xs.map key).reverse.take n).contains (key x))
      = xs.drop (xs.length - n) := by
  have hkeys : (xs.map key).reverse.take n = ((xs.drop (xs.length - n)).map key).reverse := by
    rw [List.take_reverse, List.length_map, ← List.map_drop]
  rw [hkeys]
  have hsplit := List.take_append_drop (xs.length - n) xs
  rw [← hsplit, List.map_append, List.nodup_append] at hnodup
  generalize xs.drop (xs.length - n) = recent at *
  generalize xs.take (xs.length - n) = rest at *
  rw [← hsplit, List.filter_append]
  have hrest : rest.filter (fun x => ((recent.map key).reverse).contains (key x)) = [] := by
    refine List.filter_eq_nil_iff.2 fun x hx hin => ?_
    have hmem : key x ∈ recent.map key := by simpa using hin
    exact hnodup.2.2 _ (List.mem_map_of_mem hx) _ hmem rfl
  have hrecent : recent.filter (fun x => ((recent.map key).reverse).contains (key x)) = recent := by
    refine List.filter_eq_self.2 fun x hx => ?_
    have hmem : key x ∈ recent.map key := List.mem_map_of_mem hx
    simpa using hmem
  rw [hrest, hrecent, List.nil_append]

/-- A window is cut to its length by one more element. -/
theorem push_eq_drop {xs : List α} (hlen : xs.length ≤ cap) (x : α) :
    push cap xs x = (xs ++ [x]).drop ((xs ++ [x]).length - cap) := by
  unfold push
  split
  · next hfull =>
    have hone : (xs ++ [x]).length - cap = 1 := by
      rw [List.length_append, List.length_singleton] at hfull ⊢
      omega
    rw [hone, List.drop_one]
  · next hroom =>
    rw [Nat.sub_eq_zero_of_le (by omega), List.drop_zero]

/-- Leaving out elements that are no longer in the window does not change it. -/
theorem window_of_sublist {saved journal : List α} (hsub : saved.Sublist journal)
    (hnodup : journal.Nodup) (hall : ∀ x ∈ window cap journal, x ∈ saved) :
    window cap saved = window cap journal := by
  have hsplit := List.take_append_drop cap journal
  rw [← hsplit] at hsub hnodup
  obtain ⟨recent, rest, rfl, hrecent, hrest⟩ := List.sublist_append_iff.1 hsub
  obtain ⟨hnodup, -, hapart⟩ := List.nodup_append.1 hnodup
  have hmem : ∀ x ∈ journal.take cap, x ∈ recent := by
    intro x hx
    refine (List.mem_append.1 (hall x (mem_window.2 hx))).resolve_right fun hin => ?_
    exact hapart x hx x (hrest.subset hin) rfl
  have heq : recent = journal.take cap :=
    hrecent.eq_of_length_le (List.subperm_of_subset hnodup hmem).length_le
  rw [window, window, heq]
  refine congrArg List.reverse ?_
  by_cases hlen : cap ≤ journal.length
  · rw [List.take_append_of_le_length (by rw [List.length_take]; omega), List.take_take,
      Nat.min_self]
  · rw [List.drop_of_length_le (by omega), List.sublist_nil] at hrest
    rw [hrest, List.append_nil, List.take_take, Nat.min_self]

end Window

/-! ## The records that are kept -/

variable [DecidableEq κ]

/-- A record is written. When there are more than `cap` of them the oldest one is given up. -/
def record (cap : Nat) (entries : Table κ β) (order : List κ) (k : κ) (b : β) :
    Table κ β × List κ :=
  let entries := entries.upsert k b fun _ => b
  match order ++ [k] with
  | expired :: order =>
    if cap < (expired :: order).length then (entries.delete fun k' _ => k' = expired, order)
    else (entries, expired :: order)
  | [] => (entries, [])

/-- The table and the list are the last `cap` records of a journal. -/
structure Keeps (cap : Nat) (entries : Table κ β) (order : List κ) (journal : List (κ × β)) :
    Prop where
  rows : entries.rows = window cap journal
  order : order = entries.rows.map Prod.fst
  spaced : Spaced cap (journal.map Prod.fst)

namespace Keeps

variable {cap : Nat} {entries : Table κ β} {order : List κ} {journal : List (κ × β)}

omit [DecidableEq κ] in
theorem empty (cap : Nat) : Keeps cap (∅ : Table κ β) [] [] :=
  ⟨by simp [window], by simp, trivial⟩

omit [DecidableEq κ] in
theorem length_le (h : Keeps cap entries order journal) : order.length ≤ cap := by
  rw [h.order, List.length_map, h.rows, length_window]
  exact Nat.min_le_left _ _

theorem mem_order (h : Keeps cap entries order journal) {k : κ} :
    k ∈ order ↔ (entries.find? k).isSome := by
  rw [h.order, Table.mem_keys_iff]

/-- What is kept under a key is one of the last `cap` records. -/
theorem find?_eq_some (h : Keeps cap entries order journal) {k : κ} {b : β} :
    entries.find? k = some b ↔ (k, b) ∈ journal.take cap := by
  rw [Table.find?_eq_some_iff, h.rows, mem_window]

/-- A record is kept as long as fewer than `cap` records follow it. -/
theorem kept (h : Keeps cap entries order journal) {newer older : List (κ × β)} {k : κ} {b : β}
    (hj : journal = newer ++ (k, b) :: older) (hlen : newer.length < cap) :
    entries.find? k = some b := by
  refine h.find?_eq_some.2 (List.mem_take_iff_getElem.2 ⟨newer.length, ?_, ?_⟩)
  · simp only [hj, List.length_append, List.length_cons]
    omega
  · simp [hj]

/-- What is kept under a key is the last record that was written under it. -/
theorem last (h : Keeps cap entries order journal) {k : κ} {b : β}
    (hfind : entries.find? k = some b) :
    ∃ newer older, journal = newer ++ (k, b) :: older ∧ ∀ x ∈ newer, x.1 ≠ k := by
  obtain ⟨newer, rest, hsplit⟩ := List.append_of_mem (h.find?_eq_some.1 hfind)
  have hj : journal = newer ++ (k, b) :: (rest ++ journal.drop cap) := by
    rw [← List.cons_append, ← List.append_assoc, ← hsplit, List.take_append_drop]
  have hnodup : ((journal.take cap).map Prod.fst).Nodup := by
    have hkeys := entries.keys
    rw [h.rows, window, List.map_reverse, List.nodup_reverse] at hkeys
    exact hkeys
  rw [hsplit, List.map_append, List.nodup_append] at hnodup
  refine ⟨newer, _, hj, fun x hx heq => ?_⟩
  exact hnodup.2.2 x.1 (List.mem_map_of_mem hx) k (by simp) heq

/-- A key under which nothing is kept is written. -/
theorem record (h : Keeps cap entries order journal) {k : κ} (hfree : entries.find? k = none)
    (b : β) (hcap : 0 < cap) :
    Keeps cap (Retention.record cap entries order k b).1 (Retention.record cap entries order k b).2
      ((k, b) :: journal) := by
  have hupsert : (entries.upsert k b fun _ => b).rows = entries.rows ++ [(k, b)] := by
    simp only [Table.upsert, hfree, Table.rows_insertOrIgnore hfree]
  have hspaced : Spaced cap (((k, b) :: journal).map Prod.fst) := by
    refine ⟨fun hmem => ?_, h.spaced⟩
    have hfound : (entries.find? k).isSome := by
      rw [← h.mem_order, h.order, h.rows, window, List.map_reverse, List.map_take]
      exact List.mem_reverse.2 hmem
    simp [hfree] at hfound
  have hwindow := window_cons hcap (k, b) journal
  rw [← h.rows, push, ← hupsert] at hwindow
  rw [Retention.record, h.order]
  cases hrows : entries.rows with
  | nil =>
    have hone : (entries.upsert k b fun _ => b).rows = [(k, b)] := by rw [hupsert, hrows]; rfl
    have hroom : ¬ cap < 1 := by omega
    rw [hone, List.length_singleton, if_neg hroom] at hwindow
    refine ⟨?_, ?_, hspaced⟩ <;> simp [hroom, hone, hwindow]
  | cons oldest rest =>
    have hcons : (entries.upsert k b fun _ => b).rows = oldest :: (rest ++ [(k, b)]) := by
      rw [hupsert, hrows, List.cons_append]
    have hkeys := (entries.upsert k b fun _ => b).keys
    rw [hcons, List.map_cons, List.nodup_cons] at hkeys
    -- The oldest record is the head of the rows, and no other row has its key.
    have hrest : (entries.upsert k b fun _ => b).rows.filter (fun r => !decide (r.1 = oldest.1))
        = rest ++ [(k, b)] := by
      rw [hcons, List.filter_cons_of_neg (by simp)]
      refine List.filter_eq_self.2 fun r hr => ?_
      have hne : r.1 ≠ oldest.1 := fun heq => hkeys.1 (heq ▸ List.mem_map_of_mem hr)
      simpa using hne
    have hlength : (oldest.1 :: (rest.map Prod.fst ++ [k])).length
        = (entries.upsert k b fun _ => b).rows.length := by simp [hcons]
    simp only [List.map_cons, List.cons_append, hlength]
    rw [hcons, List.tail_cons, ← hcons] at hwindow
    split
    · next hfull =>
      rw [if_pos hfull] at hwindow
      refine ⟨?_, ?_, hspaced⟩
      · rw [hwindow]
        exact hrest
      · change _ = List.map Prod.fst (List.filter _ _)
        rw [hrest, List.map_append]
        rfl
    · next hroom =>
      rw [if_neg hroom] at hwindow
      refine ⟨hwindow.symm, ?_, hspaced⟩
      simp only [hcons, List.map_append, List.map_cons, List.map_nil]

end Keeps

end Retention
