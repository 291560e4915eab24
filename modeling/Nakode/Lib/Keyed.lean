import Mathlib

/-!
# Lists with distinct keys

The elements of a list are found by a key that no two of them share. A list is brought up to date
with another one by putting elements in the place of those with the same key (`replace?`), or by
reading the keys of the other list in order (`arrange?`); both give exactly the other list when
every element of it is either sent along or held already (`replace?_eq`, `arrange?_eq`).
-/

namespace Keyed

variable {α κ : Type}

/-- `Iterator::rposition`: the index of the last element that meets a condition. -/
def rposition? (p : α → Bool) : List α → Option Nat
  | [] => none
  | x :: xs =>
    match rposition? p xs with
    | some i => some (i + 1)
    | none => if p x then some 0 else none

theorem rposition?_eq_none_iff {p : α → Bool} {xs : List α} :
    rposition? p xs = none ↔ ∀ x ∈ xs, p x = false := by
  induction xs with
  | nil => simp [rposition?]
  | cons x xs ih =>
    rw [rposition?]
    cases h : rposition? p xs with
    | some i =>
      have hsome : ¬ ∀ x ∈ xs, p x = false := by simp [← ih, h]
      simp only [reduceCtorEq, List.forall_mem_cons, false_iff, not_and]
      exact fun _ => hsome
    | none =>
      have hxs := ih.1 h
      simpa using fun _ : p x = false => hxs

/-- Two lists side by side, position by position. -/
theorem mem_zip_iff {β : Type} {xs : List α} {ys : List β} {a : α} {b : β} :
    (a, b) ∈ xs.zip ys ↔ ∃ i : Nat, xs[i]? = some a ∧ ys[i]? = some b := by
  simp only [List.mem_iff_getElem?, List.getElem?_zip_eq_some]

variable {key : α → κ}

/-- Two elements with one key are equal. -/
theorem eq_of_mem {xs : List α} (hnodup : (xs.map key).Nodup) {x y : α} (hx : x ∈ xs)
    (hy : y ∈ xs) (h : key x = key y) : x = y :=
  List.inj_on_of_nodup_map hnodup hx hy h

/-- Lists with the same keys have the same key at each index. -/
theorem key_getElem {xs ys : List α} (hkeys : ys.map key = xs.map key) {i : Nat}
    (hi : i < ys.length) (hi' : i < xs.length) : key ys[i] = key xs[i] := by
  have hget := congrArg (·[i]?) hkeys
  simpa [hi, hi'] using hget

variable [DecidableEq κ]

/-- The position of the one element with a key. -/
theorem rposition?_eq_some {xs : List α} (hnodup : (xs.map key).Nodup) {i : Nat}
    (hi : i < xs.length) : rposition? (key · == key xs[i]) xs = some i := by
  induction xs generalizing i with
  | nil => cases hi
  | cons x xs ih =>
    obtain ⟨hx, hnodup⟩ := List.nodup_cons.1 hnodup
    cases i with
    | zero =>
      have hnone : rposition? (key · == key x) xs = none := by
        refine rposition?_eq_none_iff.2 fun y hy => beq_eq_false_iff_ne.2 fun heq => hx ?_
        exact heq ▸ List.mem_map_of_mem hy
      simp [rposition?, hnone]
    | succ i => simp [rposition?, ih hnodup (Nat.lt_of_succ_lt_succ hi)]

/-- The element with a key is found under it. -/
theorem find?_eq_some {xs : List α} (hnodup : (xs.map key).Nodup) {x : α} (hx : x ∈ xs) :
    xs.find? (key · == key x) = some x := by
  cases h : xs.find? (key · == key x) with
  | none => simpa using List.find?_eq_none.1 h x hx
  | some y =>
    have hkey : key y = key x := by simpa using List.find?_some h
    rw [eq_of_mem hnodup (List.mem_of_find?_eq_some h) hx hkey]

/-! ## Bringing a list up to date -/

/-- Each element that is sent takes the place of the held one with its key. -/
def replace? (key : α → κ) (held : List α) : List α → Option (List α)
  | [] => some held
  | x :: sent => do
    let i ← rposition? (key · == key x) held
    replace? key (held.set i x) sent

/-- The last element with a key, as a map collected from the list has it. -/
def last? (key : α → κ) (xs : List α) (k : κ) : Option α := xs.reverse.find? (key · == k)

/-- The elements with the given keys, in their order, each from those sent if it is there (which
then is taken out) and else from those held. -/
def arrange? (key : α → κ) (held : List α) : List α → List κ → Option (List α)
  | _, [] => some []
  | sent, k :: ks => do
    match last? key sent k with
    | some x => return x :: (← arrange? key held (sent.filter (key · != k)) ks)
    | none => return (← last? key held k) :: (← arrange? key held sent ks)

theorem last?_eq_some {xs : List α} (hnodup : (xs.map key).Nodup) {x : α} (hx : x ∈ xs) :
    last? key xs (key x) = some x := by
  refine find?_eq_some ?_ (List.mem_reverse.2 hx)
  rw [List.map_reverse]
  exact List.nodup_reverse.2 hnodup

theorem last?_eq_none {xs : List α} {k : κ} (h : ∀ x ∈ xs, key x ≠ k) : last? key xs k = none :=
  List.find?_eq_none.2 fun x hx => by simpa using h x (List.mem_reverse.1 hx)

/-- A list with the same keys becomes `xs` when each element of `xs` that differs is sent. -/
theorem replace?_eq {xs held sent : List α} (hnodup : (xs.map key).Nodup)
    (hkeys : held.map key = xs.map key) (hsent : ∀ x ∈ sent, x ∈ xs)
    (hall : ∀ x ∈ xs, x ∈ sent ∨ x ∈ held) : replace? key held sent = some xs := by
  induction sent generalizing held with
  | nil =>
    refine congrArg some (List.ext_getElem (by simpa using congrArg List.length hkeys) ?_)
    intro i hi hi'
    have hmem : xs[i] ∈ held := (hall _ (List.getElem_mem hi')).resolve_left (by simp)
    exact eq_of_mem (hkeys ▸ hnodup) (List.getElem_mem hi) hmem (key_getElem hkeys hi hi')
  | cons x sent ih =>
    obtain ⟨i, hi, rfl⟩ := List.mem_iff_getElem.1 (hsent x List.mem_cons_self)
    have hlength : held.length = xs.length := by simpa using congrArg List.length hkeys
    have hi' : i < held.length := hlength ▸ hi
    have hkey := key_getElem hkeys hi' hi
    have hposition : rposition? (key · == key xs[i]) held = some i := by
      rw [← hkey]
      exact rposition?_eq_some (hkeys ▸ hnodup) hi'
    rw [replace?, hposition]
    refine ih ?_ (fun y hy => hsent y (List.mem_cons_of_mem _ hy)) ?_
    · rw [List.map_set, ← hkey, ← List.getElem_map key (h := by simpa using hi'),
        List.set_getElem_self, hkeys]
    · intro y hy
      rcases hall y hy with hy' | hy'
      · rcases List.mem_cons.1 hy' with rfl | hy'
        · exact .inr (List.mem_set hi' _)
        · exact .inl hy'
      · obtain ⟨j, hj, rfl⟩ := List.mem_iff_getElem.1 hy'
        by_cases hij : i = j
        · subst hij
          rw [eq_of_mem hnodup hy (List.getElem_mem hi) hkey]
          exact .inr (List.mem_set hi' _)
        · refine .inr (List.mem_iff_getElem.2 ⟨j, by simpa using hj, ?_⟩)
          simp [hij]

/-- Reading the keys of `xs` gives `xs` when each element of it is sent or held. -/
theorem arrange?_eq {xs held sent : List α} (hnodup : (xs.map key).Nodup)
    (hheld : (held.map key).Nodup) (hsent : (sent.map key).Nodup)
    (hfrom : ∀ x ∈ xs, ∀ y ∈ sent, key y = key x → y = x)
    (hall : ∀ x ∈ xs, x ∈ sent ∨ x ∈ held) : arrange? key held sent (xs.map key) = some xs := by
  induction xs generalizing sent with
  | nil => rfl
  | cons x xs ih =>
    obtain ⟨hx, hnodup⟩ := List.nodup_cons.1 hnodup
    have hne : ∀ y ∈ xs, key y ≠ key x := fun y hy heq => hx (heq ▸ List.mem_map_of_mem hy)
    rw [List.map_cons, arrange?]
    by_cases hmem : x ∈ sent
    · rw [last?_eq_some hsent hmem]
      have hrest := @ih (sent.filter (key · != key x)) hnodup
        (hsent.sublist (List.filter_sublist.map _))
        (fun y hy z hz => hfrom y (List.mem_cons_of_mem _ hy) z (List.mem_of_mem_filter hz))
        (fun y hy => (hall y (List.mem_cons_of_mem _ hy)).imp_left fun hy' =>
          List.mem_filter.2 ⟨hy', by simpa using hne y hy⟩)
      simp [hrest]
    · have hnone : last? key sent (key x) = none := by
        refine last?_eq_none fun y hy heq => hmem ?_
        exact hfrom x List.mem_cons_self y hy heq ▸ hy
      have hx' : x ∈ held := (hall x List.mem_cons_self).resolve_left hmem
      have hrest := ih hnodup hsent
        (fun y hy z hz => hfrom y (List.mem_cons_of_mem _ hy) z hz)
        (fun y hy => hall y (List.mem_cons_of_mem _ hy))
      simp [hnone, last?_eq_some hheld hx', hrest]

end Keyed
