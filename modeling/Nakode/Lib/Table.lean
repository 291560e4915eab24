import Mathlib

/-!
# Tables with a primary key

A table is the list of its rows in insertion order, each under its key, and carries the
`PRIMARY KEY` constraint as a field: no two rows have the same key. The statements of SQL that a
transaction is made of (`INSERT`, `INSERT OR IGNORE`, `INSERT … ON CONFLICT DO UPDATE`,
`UPDATE … WHERE`, `DELETE … WHERE`) are functions on tables, and each comes with the lemma that
reads a row back after it. `Sequenced` adds `AUTOINCREMENT`: keys are given out in order and are
never given out again, not even after the row is deleted.
-/

namespace Relational

/-- The rows of a table under their primary keys, in insertion order. -/
structure Table (κ ρ : Type) where
  rows : List (κ × ρ)
  keys : (rows.map Prod.fst).Nodup

namespace Table

variable {κ ρ : Type}

@[ext] theorem ext {t t' : Table κ ρ} (h : t.rows = t'.rows) : t = t' := by
  cases t; cases t'; cases h; rfl

/-- The table without rows. -/
def empty : Table κ ρ := ⟨[], .nil⟩

instance : EmptyCollection (Table κ ρ) := ⟨empty⟩

@[simp] theorem rows_empty : (∅ : Table κ ρ).rows = [] := rfl

/-- `EXISTS (SELECT 1 … WHERE p)`. -/
def has (t : Table κ ρ) (p : κ → ρ → Bool) : Bool := t.rows.any fun r => p r.1 r.2

/-- `SELECT COUNT(*) … WHERE p`. -/
def count (t : Table κ ρ) (p : κ → ρ → Bool) : Nat := t.rows.countP fun r => p r.1 r.2

/-- `UPDATE … SET f WHERE p`. -/
def update (t : Table κ ρ) (p : κ → ρ → Bool) (f : ρ → ρ) : Table κ ρ where
  rows := t.rows.map fun r => (r.1, if p r.1 r.2 then f r.2 else r.2)
  keys := by simpa [List.map_map, Function.comp_def] using t.keys

/-- `DELETE … WHERE p`. -/
def delete (t : Table κ ρ) (p : κ → ρ → Bool) : Table κ ρ where
  rows := t.rows.filter fun r => !p r.1 r.2
  keys := t.keys.sublist (List.filter_sublist.map _)

/-- Deleting rows raises no count. -/
theorem count_delete_le (t : Table κ ρ) (p q : κ → ρ → Bool) :
    (t.delete q).count p ≤ t.count p :=
  List.filter_sublist.countP_le

variable [DecidableEq κ]

/-- `SELECT … WHERE key = k`. -/
def find? (t : Table κ ρ) (k : κ) : Option ρ := t.rows.lookup k

/-- `INSERT OR IGNORE`: the row is appended unless its key is taken. -/
def insertOrIgnore (t : Table κ ρ) (k : κ) (r : ρ) : Table κ ρ :=
  if h : k ∈ t.rows.map Prod.fst then t else
    { rows := t.rows ++ [(k, r)]
      keys := by
        rw [List.map_append]
        exact t.keys.append (List.nodup_singleton k) (by simpa using h) }

/-- `INSERT`: no table when the key is taken. -/
def insert? (t : Table κ ρ) (k : κ) (r : ρ) : Option (Table κ ρ) :=
  if (t.find? k).isSome then none else some (t.insertOrIgnore k r)

/-- `INSERT … ON CONFLICT(key) DO UPDATE SET f`. -/
def upsert (t : Table κ ρ) (k : κ) (r : ρ) (f : ρ → ρ) : Table κ ρ :=
  match t.find? k with
  | some _ => t.update (fun k' _ => k' = k) f
  | none => t.insertOrIgnore k r

/-! ## Reading a row -/

/-- A row is found under its key exactly when it is one of the table's rows. -/
theorem find?_eq_some_iff {t : Table κ ρ} {k : κ} {r : ρ} :
    t.find? k = some r ↔ (k, r) ∈ t.rows := by
  obtain ⟨rows, hk⟩ := t
  induction rows with
  | nil => simp [find?]
  | cons x rest ih =>
    obtain ⟨k', r'⟩ := x
    obtain ⟨hx, hrest⟩ := List.nodup_cons.1 hk
    simp only [find?, List.lookup_cons] at ih ⊢
    by_cases h : k = k'
    · subst h
      have : ∀ s, (k, s) ∉ rest := fun s hs => hx (List.mem_map.2 ⟨(k, s), hs, rfl⟩)
      simp [this, eq_comm]
    · have hb : (k == k') = false := by simpa using h
      simp [hb, ih hrest, h]

/-- No row is found under a key exactly when no row has it. -/
theorem find?_eq_none_iff {t : Table κ ρ} {k : κ} :
    t.find? k = none ↔ ∀ r, (k, r) ∉ t.rows := by
  rw [Option.eq_none_iff_forall_ne_some]
  exact forall_congr' fun r => not_congr find?_eq_some_iff

/-- A key is taken exactly when a row is found under it. -/
theorem mem_keys_iff {t : Table κ ρ} {k : κ} :
    k ∈ t.rows.map Prod.fst ↔ (t.find? k).isSome := by
  rw [Option.isSome_iff_exists]
  simp only [find?_eq_some_iff, List.mem_map, Prod.exists, exists_and_right, exists_eq_right]

/-- A pair is a row of the table exactly when its second part is found under its first. -/
theorem mem_rows_iff {t : Table κ ρ} {x : κ × ρ} : x ∈ t.rows ↔ t.find? x.1 = some x.2 :=
  find?_eq_some_iff.symm

theorem has_iff {t : Table κ ρ} {p : κ → ρ → Bool} :
    t.has p = true ↔ ∃ k r, t.find? k = some r ∧ p k r = true := by
  simp [has, find?_eq_some_iff]

theorem has_eq_false_iff {t : Table κ ρ} {p : κ → ρ → Bool} :
    t.has p = false ↔ ∀ k r, t.find? k = some r → p k r = false := by
  simp [has, find?_eq_some_iff]

@[simp] theorem find?_empty (k : κ) : (∅ : Table κ ρ).find? k = none := rfl

/-! ## Reading a row back after a statement -/

@[simp] theorem find?_update (t : Table κ ρ) (p : κ → ρ → Bool) (f : ρ → ρ) (k : κ) :
    (t.update p f).find? k = (t.find? k).map fun r => if p k r then f r else r := by
  obtain ⟨rows, hk⟩ := t
  simp only [find?, update]
  clear hk
  induction rows with
  | nil => rfl
  | cons x rest ih =>
    obtain ⟨k', r⟩ := x
    simp only [List.map_cons, List.lookup_cons]
    by_cases h : k = k'
    · subst h; simp
    · have hb : (k == k') = false := by simpa using h
      simp only [hb, ih]

@[simp] theorem find?_delete (t : Table κ ρ) (p : κ → ρ → Bool) (k : κ) :
    (t.delete p).find? k = (t.find? k).filter fun r => !p k r := by
  ext r
  rw [find?_eq_some_iff, Option.filter_eq_some_iff, find?_eq_some_iff]
  simp [delete]

theorem find?_delete_of_kept {t : Table κ ρ} {p : κ → ρ → Bool} {k : κ}
    (h : ∀ r, t.find? k = some r → p k r = false) : (t.delete p).find? k = t.find? k := by
  rw [find?_delete]
  cases hr : t.find? k with
  | none => rfl
  | some r => simp [h r hr]

theorem find?_delete_of_gone {t : Table κ ρ} {p : κ → ρ → Bool} {k : κ}
    (h : ∀ r, t.find? k = some r → p k r = true) : (t.delete p).find? k = none := by
  rw [find?_delete]
  cases hr : t.find? k with
  | none => rfl
  | some r => simp [h r hr]

/-- The rows after an `INSERT` that the key constraint accepts. -/
theorem rows_insertOrIgnore {t : Table κ ρ} {k : κ} (h : t.find? k = none) (r : ρ) :
    (t.insertOrIgnore k r).rows = t.rows ++ [(k, r)] := by
  have hk : k ∉ t.rows.map Prod.fst := by rw [mem_keys_iff, h]; simp
  simp only [insertOrIgnore, hk, dif_neg, not_false_eq_true]

/-- An `INSERT OR IGNORE` under a taken key does nothing. -/
theorem insertOrIgnore_of_some {t : Table κ ρ} {k : κ} {s : ρ} (h : t.find? k = some s) (r : ρ) :
    t.insertOrIgnore k r = t := by
  have hk : k ∈ t.rows.map Prod.fst := by rw [mem_keys_iff, h]; rfl
  simp only [insertOrIgnore, hk, dif_pos]

@[simp] theorem find?_insertOrIgnore (t : Table κ ρ) (k : κ) (r : ρ) (k' : κ) :
    (t.insertOrIgnore k r).find? k' = if k' = k then some ((t.find? k).getD r) else t.find? k' := by
  cases h : t.find? k with
  | some s =>
    rw [insertOrIgnore_of_some h]
    split
    · next hk => subst hk; simpa using h
    · rfl
  | none =>
    ext s
    rw [find?_eq_some_iff, rows_insertOrIgnore h, List.mem_append, ← find?_eq_some_iff]
    split
    · next hk => subst hk; simp [h, eq_comm]
    · next hk => simp [hk]

/-- An accepted `INSERT` is an `INSERT OR IGNORE` under a free key. -/
theorem insert?_eq_some_iff {t t' : Table κ ρ} {k : κ} {r : ρ} :
    t.insert? k r = some t' ↔ t.find? k = none ∧ t.insertOrIgnore k r = t' := by
  unfold insert?
  cases t.find? k <;> simp

@[simp] theorem find?_upsert (t : Table κ ρ) (k : κ) (r : ρ) (f : ρ → ρ) (k' : κ) :
    (t.upsert k r f).find? k' = if k' = k then some ((t.find? k).elim r f) else t.find? k' := by
  unfold upsert
  cases h : t.find? k with
  | some s =>
    simp only [find?_update, decide_eq_true_eq, Option.elim_some]
    split
    · next hk => subst hk; simp [h]
    · next hk => cases t.find? k' <;> simp
  | none =>
    simp only [find?_insertOrIgnore, h, Option.getD_none, Option.elim_none]

omit [DecidableEq κ] in
/-- The keys of the rows that meet a condition after an `UPDATE`. -/
theorem keys_filter_update (t : Table κ ρ) (p : κ → ρ → Bool) (f : ρ → ρ) (q : κ × ρ → Bool) :
    ((t.update p f).rows.filter q).map Prod.fst
      = (t.rows.filter fun r => q (r.1, if p r.1 r.2 then f r.2 else r.2)).map Prod.fst := by
  simp [update, List.filter_map, Function.comp_def]

/-- The rows that meet a condition are left by an `UPDATE` that changes none of them and makes no
other row meet it. -/
theorem filter_update_eq {t : Table κ ρ} {p : κ → ρ → Bool} {f : ρ → ρ} {q : κ × ρ → Bool}
    (h : ∀ k r, t.find? k = some r → p k r = true → q (k, r) = false ∧ q (k, f r) = false) :
    (t.update p f).rows.filter q = t.rows.filter q := by
  simp only [update, List.filter_map]
  have hcongr : t.rows.filter (q ∘ fun x => (x.1, if p x.1 x.2 then f x.2 else x.2))
      = t.rows.filter q := by
    refine List.filter_congr fun x hx => ?_
    have hx' := h x.1 x.2 (mem_rows_iff.1 hx)
    cases hp : p x.1 x.2 with
    | true =>
      obtain ⟨hold, hnew⟩ := hx' hp
      simp [hp, hnew, show q x = false from hold]
    | false => simp [hp]
  rw [hcongr]
  conv_rhs => rw [← List.map_id (t.rows.filter q)]
  refine List.map_congr_left fun x hx => ?_
  obtain ⟨hmem, hq⟩ := List.mem_filter.1 hx
  cases hp : p x.1 x.2 with
  | true =>
    have hold := (h x.1 x.2 (mem_rows_iff.1 hmem) hp).1
    rw [show q x = false from hold] at hq
    cases hq
  | false => simp

/-- The rows that meet a condition after an `UPDATE` are those it changed, when none met it before
and each changed row does. -/
theorem filter_update_eq_map {t : Table κ ρ} {p : κ → ρ → Bool} {f : ρ → ρ} {q : κ × ρ → Bool}
    (h : ∀ k r, t.find? k = some r → q (k, if p k r then f r else r) = p k r) :
    (t.update p f).rows.filter q
      = (t.rows.filter fun x => p x.1 x.2).map fun x => (x.1, f x.2) := by
  simp only [update, List.filter_map]
  have hcongr : t.rows.filter (q ∘ fun x => (x.1, if p x.1 x.2 then f x.2 else x.2))
      = t.rows.filter fun x => p x.1 x.2 :=
    List.filter_congr fun x hx => h x.1 x.2 (mem_rows_iff.1 hx)
  rw [hcongr]
  refine List.map_congr_left fun x hx => ?_
  rw [(List.mem_filter.1 hx).2]
  rfl

/-! ## Counting -/

/-- Inserting a row under a free key adds at most that row to a count. -/
theorem count_insertOrIgnore {t : Table κ ρ} {k : κ} (h : t.find? k = none) (r : ρ)
    (p : κ → ρ → Bool) :
    (t.insertOrIgnore k r).count p = t.count p + if p k r then 1 else 0 := by
  simp only [count, rows_insertOrIgnore h, List.countP_append, List.countP_singleton]

omit [DecidableEq κ] in
/-- An `UPDATE` whose rows do not meet a condition does not raise its count. -/
theorem count_update_le {t : Table κ ρ} {p q : κ → ρ → Bool} {f : ρ → ρ}
    (h : ∀ k r, p k r = true → q k (f r) = false) : (t.update p f).count q ≤ t.count q := by
  simp only [count, update, List.countP_map]
  refine List.countP_mono_left fun x _ hx => ?_
  simp only [Function.comp_apply] at hx
  split at hx
  · next hp => rw [h x.1 x.2 hp] at hx; cases hx
  · exact hx

/-- An `UPDATE` of one row under its key adds at most one row to a count. -/
theorem count_update_key_le (t : Table κ ρ) (k : κ) (f : ρ → ρ) (p : κ → ρ → Bool) :
    (t.update (fun k' _ => k' == k) f).count p ≤ t.count p + 1 := by
  obtain ⟨rows, hk⟩ := t
  simp only [count, update]
  induction rows with
  | nil => simp
  | cons x rest ih =>
    obtain ⟨hx, hrest⟩ := List.nodup_cons.1 hk
    simp only [List.map_cons, List.countP_cons]
    by_cases h : x.1 = k
    · -- the key is unique, so the rest of the rows is left as it was
      have hsame : rest.map (fun r => (r.1, if (r.1 == k) = true then f r.2 else r.2)) = rest := by
        conv_rhs => rw [← List.map_id rest]
        refine List.map_congr_left fun y hy => ?_
        have : y.1 ≠ k := fun hyk => hx (h ▸ hyk ▸ List.mem_map_of_mem hy)
        simp [this]
      rw [hsame]
      split <;> split <;> omega
    · have := ih hrest
      have hb : (x.1 == k) = false := by simpa using h
      simp only [hb, Bool.false_eq_true, if_false]
      omega

end Table

/-! ## Tables with an `AUTOINCREMENT` key -/

/-- A table whose keys are given out by the table in increasing order. `next` is the next key,
above every key ever given out; rows are in key order, which is the order of `ORDER BY key`. -/
structure Sequenced (ρ : Type) extends Table Nat ρ where
  next : Nat
  ordered : rows.Pairwise fun a b => a.1 < b.1
  below : ∀ r ∈ rows, r.1 < next

namespace Sequenced

variable {ρ : Type}

@[ext] theorem ext {t t' : Sequenced ρ} (h : t.toTable = t'.toTable) (hn : t.next = t'.next) :
    t = t' := by
  obtain ⟨T, n, _, _⟩ := t
  obtain ⟨T', n', _, _⟩ := t'
  cases h
  cases hn
  rfl

/-- The table without rows; the first key is 1. -/
def empty : Sequenced ρ := ⟨Table.empty, 1, .nil, by simp [Table.empty]⟩

instance : EmptyCollection (Sequenced ρ) := ⟨empty⟩

/-- `INSERT` under the next key. -/
def append (t : Sequenced ρ) (r : ρ) : Sequenced ρ where
  rows := t.rows ++ [(t.next, r)]
  keys := by
    rw [List.map_append]
    refine t.keys.append (List.nodup_singleton _) fun k hk hk' => ?_
    obtain ⟨x, hx, rfl⟩ := List.mem_map.1 hk
    exact absurd (List.mem_singleton.1 hk') (Nat.ne_of_lt (t.below x hx))
  next := t.next + 1
  ordered := by
    rw [List.pairwise_append]
    refine ⟨t.ordered, List.pairwise_singleton _ _, fun a ha b hb => ?_⟩
    cases List.mem_singleton.1 hb
    exact t.below a ha
  below := by
    intro r hr
    rcases List.mem_append.1 hr with hr | hr
    · exact Nat.lt_succ_of_lt (t.below r hr)
    · cases List.mem_singleton.1 hr
      exact Nat.lt_succ_self _

/-- `UPDATE … SET f WHERE p`; the key column is never set. -/
def update (t : Sequenced ρ) (p : Nat → ρ → Bool) (f : ρ → ρ) : Sequenced ρ where
  toTable := t.toTable.update p f
  next := t.next
  ordered := by
    simp only [Table.update, List.pairwise_map]
    exact t.ordered
  below := by
    intro r hr
    obtain ⟨x, hx, rfl⟩ := List.mem_map.1 hr
    exact t.below x hx

/-- `DELETE … WHERE p`; the next key is not set back. -/
def delete (t : Sequenced ρ) (p : Nat → ρ → Bool) : Sequenced ρ where
  toTable := t.toTable.delete p
  next := t.next
  ordered := t.ordered.sublist List.filter_sublist
  below := fun r hr => t.below r (List.mem_filter.1 hr).1

@[simp] theorem toTable_update (t : Sequenced ρ) (p : Nat → ρ → Bool) (f : ρ → ρ) :
    (t.update p f).toTable = t.toTable.update p f := rfl
@[simp] theorem toTable_delete (t : Sequenced ρ) (p : Nat → ρ → Bool) :
    (t.delete p).toTable = t.toTable.delete p := rfl
@[simp] theorem next_update (t : Sequenced ρ) (p : Nat → ρ → Bool) (f : ρ → ρ) :
    (t.update p f).next = t.next := rfl
@[simp] theorem next_delete (t : Sequenced ρ) (p : Nat → ρ → Bool) :
    (t.delete p).next = t.next := rfl
@[simp] theorem next_append (t : Sequenced ρ) (r : ρ) : (t.append r).next = t.next + 1 := rfl
@[simp] theorem rows_append (t : Sequenced ρ) (r : ρ) :
    (t.append r).rows = t.rows ++ [(t.next, r)] := rfl
@[simp] theorem find?_empty (k : Nat) : (∅ : Sequenced ρ).find? k = none := rfl
@[simp] theorem rows_empty : (∅ : Sequenced ρ).rows = [] := rfl

/-- Every key in the table is below the next one. -/
theorem lt_next {t : Sequenced ρ} {k : Nat} {r : ρ} (h : t.find? k = some r) : k < t.next :=
  t.below (k, r) (Table.find?_eq_some_iff.1 h)

/-- The next key, and every key above it, is free. -/
theorem find?_of_next_le {t : Sequenced ρ} {k : Nat} (h : t.next ≤ k) : t.find? k = none := by
  cases hk : t.find? k with
  | none => rfl
  | some r => exact absurd (lt_next hk) (Nat.not_lt.2 h)

@[simp] theorem find?_append (t : Sequenced ρ) (r : ρ) (k : Nat) :
    (t.append r).find? k = if k = t.next then some r else t.find? k := by
  ext s
  rw [Table.find?_eq_some_iff, rows_append, List.mem_append, ← Table.find?_eq_some_iff]
  split
  · next h =>
    subst h
    simp [find?_of_next_le (Nat.le_refl t.next), eq_comm]
  · next h => simp [h]

/-- An `UPDATE` that the new row meets and no other row does changes the new row. -/
theorem update_append {t : Sequenced ρ} {p : Nat → ρ → Bool} (f : ρ → ρ) (r : ρ)
    (h : ∀ k s, t.find? k = some s → p k s = false) (hr : p t.next r = true) :
    (t.append r).update p f = t.append (f r) := by
  have hold : ∀ x ∈ t.rows, (x.1, if p x.1 x.2 then f x.2 else x.2) = x := fun x hx => by
    rw [h x.1 x.2 (Table.mem_rows_iff.1 hx)]; rfl
  refine Sequenced.ext (Table.ext ?_) rfl
  simp only [toTable_update, Table.update, rows_append, List.map_append, List.map_cons,
    List.map_nil, hr, if_true]
  rw [List.map_congr_left hold, List.map_id']

end Sequenced

end Relational
