import Mathlib

/-!
# Binary search

A search in a sorted list for the place of a key halves the part of the list that the place can be
in. The index it gives has only smaller or equal keys before it and only greater or equal keys from
it on (`searchIndex_spec`), so an element with the key can be inserted there
(`pairwise_insertSorted`).
-/

namespace BinarySearch

variable {α κ : Type}

/-- `size` is halved while it is more than one, and `base` moves up past what is not greater. -/
def narrow (cmp : α → Ordering) (l : List α) : Nat → Nat → Nat → Nat
  | 0, base, _ => base
  | fuel + 1, base, size =>
    if size ≤ 1 then base
    else
      let half := size / 2
      let mid := base + half
      narrow cmp l fuel (if l[mid]?.any (cmp · == .gt) then base else mid) (size - half)

/-- `slice::binary_search_by`: where an element was found, or where it can be inserted. -/
def binarySearchBy (cmp : α → Ordering) (l : List α) : Except Nat Nat :=
  let base := narrow cmp l l.length 0 l.length
  match l[base]?.map cmp with
  | none => .error 0
  | some .eq => .ok base
  | some .lt => .error (base + 1)
  | some .gt => .error base

/-- `binary_search_by(..).unwrap_or_else(|index| index)` -/
def searchIndex (cmp : α → Ordering) (l : List α) : Nat :=
  match binarySearchBy cmp l with
  | .ok index => index
  | .error index => index

def insertSorted (cmp : α → Ordering) (a : α) (l : List α) : List α :=
  l.insertIdx (searchIndex cmp l) a

/-- An element may stand between those it comes after and those it comes before. -/
theorem pairwise_insertIdx {R : κ → κ → Prop} {m : List κ} {k : κ}
    (hm : m.Pairwise R) {n : Nat}
    (hbefore : ∀ i (h : i < m.length), i < n → R m[i] k)
    (hafter : ∀ i (h : i < m.length), n ≤ i → R k m[i]) : (m.insertIdx n k).Pairwise R := by
  induction m generalizing n with
  | nil =>
    cases n with
    | zero => exact List.pairwise_singleton R k
    | succ n => exact .nil
  | cons b m ih =>
    obtain ⟨hb, hm'⟩ := List.pairwise_cons.1 hm
    cases n with
    | zero =>
      refine .cons (fun c hc => ?_) hm
      obtain ⟨i, hi, rfl⟩ := List.getElem_of_mem hc
      exact hafter i hi (Nat.zero_le i)
    | succ n =>
      rw [List.insertIdx_succ_cons]
      refine .cons (fun c hc => ?_) (ih hm' ?_ ?_)
      · rcases List.eq_or_mem_of_mem_insertIdx hc with rfl | hc
        · exact hbefore 0 (Nat.succ_pos _) (Nat.succ_pos _)
        · exact hb c hc
      · intro i hi hlt
        exact hbefore (i + 1) (Nat.succ_lt_succ hi) (Nat.succ_lt_succ hlt)
      · intro i hi hle
        exact hafter (i + 1) (Nat.succ_lt_succ hi) (Nat.succ_le_succ hle)

variable [LinearOrder κ] {key : α → κ} {k : κ} {cmp : α → Ordering} {l : List α}

/-- What the search keeps: the place is among the next `size` elements. -/
structure Bounds (key : α → κ) (k : κ) (l : List α) (base size : Nat) : Prop where
  pos : 0 < size
  within : base + size ≤ l.length
  before : ∀ i (h : i < l.length), i < base → key l[i] ≤ k
  after : ∀ i (h : i < l.length), base + size ≤ i → k ≤ key l[i]

theorem getElem_le (hsorted : (l.map key).Pairwise (· ≤ ·)) {i j : Nat} (hi : i < l.length)
    (hj : j < l.length) (hij : i ≤ j) : key l[i] ≤ key l[j] := by
  rcases Nat.lt_or_eq_of_le hij with hlt | rfl
  · have h := List.pairwise_iff_getElem.1 hsorted i j (by simpa using hi) (by simpa using hj) hlt
    rwa [List.getElem_map, List.getElem_map] at h
  · exact le_rfl

theorem bounds_narrow (hsorted : (l.map key).Pairwise (· ≤ ·))
    (hcmp : ∀ a ∈ l, cmp a = compare (key a) k) {fuel base size : Nat}
    (h : Bounds key k l base size) (hfuel : size ≤ fuel) :
    Bounds key k l (narrow cmp l fuel base size) 1 := by
  induction fuel generalizing base size with
  | zero => exact absurd h.pos (by omega)
  | succ fuel ih =>
    rw [narrow]
    split
    · next hone =>
      obtain rfl : size = 1 := by have := h.pos; omega
      exact h
    · next hmany =>
      have hwithin := h.within
      have hmid : base + size / 2 < l.length := by omega
      dsimp only
      rw [List.getElem?_eq_getElem hmid, Option.any_some, hcmp _ (List.getElem_mem hmid)]
      refine ih ?_ (by omega)
      by_cases hgt : k < key l[base + size / 2]
      · rw [if_pos (beq_iff_eq.2 (compare_gt_iff_gt.2 hgt))]
        refine ⟨by omega, by omega, h.before, fun i hi hle => ?_⟩
        -- the size is rounded up, so that the rest begins at the middle or one behind it
        exact hgt.le.trans (getElem_le hsorted hmid hi (by omega))
      · rw [if_neg (mt (fun hcmp => compare_gt_iff_gt.1 (beq_iff_eq.1 hcmp)) hgt)]
        refine ⟨by omega, by omega, fun i hi hlt => ?_, fun i hi hle => h.after i hi (by omega)⟩
        exact (getElem_le hsorted hi hmid (Nat.le_of_lt hlt)).trans (not_lt.1 hgt)

/-- The place of a key: nothing before it is greater, and nothing from it on is smaller. -/
theorem searchIndex_spec (hsorted : (l.map key).Pairwise (· ≤ ·))
    (hcmp : ∀ a ∈ l, cmp a = compare (key a) k) :
    searchIndex cmp l ≤ l.length ∧ (∀ i (h : i < l.length), i < searchIndex cmp l → key l[i] ≤ k) ∧
      ∀ i (h : i < l.length), searchIndex cmp l ≤ i → k ≤ key l[i] := by
  rcases Nat.eq_zero_or_pos l.length with hzero | hpos
  · obtain rfl := List.eq_nil_of_length_eq_zero hzero
    exact ⟨Nat.le_refl 0, nofun, nofun⟩
  have hbounds : Bounds key k l (narrow cmp l l.length 0 l.length) 1 :=
    bounds_narrow hsorted hcmp ⟨hpos, by omega, nofun, fun i hi hle => by omega⟩ (Nat.le_refl _)
  rw [searchIndex, binarySearchBy]
  generalize narrow cmp l l.length 0 l.length = base at hbounds
  have hbase : base < l.length := hbounds.within
  rw [List.getElem?_eq_getElem hbase, Option.map_some, hcmp _ (List.getElem_mem hbase)]
  cases hplace : compare (key l[base]) k with
  | lt =>
    refine ⟨hbase, fun i hi hlt => ?_, hbounds.after⟩
    exact (getElem_le hsorted hi hbase (Nat.le_of_lt_succ hlt)).trans
      (compare_lt_iff_lt.1 hplace).le
  | eq =>
    refine ⟨Nat.le_of_lt hbase, hbounds.before, fun i hi hle => ?_⟩
    exact (compare_eq_iff_eq.1 hplace).ge.trans (getElem_le hsorted hbase hi hle)
  | gt =>
    refine ⟨Nat.le_of_lt hbase, hbounds.before, fun i hi hle => ?_⟩
    exact (compare_gt_iff_gt.1 hplace).le.trans (getElem_le hsorted hbase hi hle)

theorem perm_insertSorted (hsorted : (l.map key).Pairwise (· ≤ ·))
    (hcmp : ∀ a ∈ l, cmp a = compare (key a) k) (a : α) :
    (insertSorted cmp a l).Perm (a :: l) :=
  List.perm_insertIdx a l (searchIndex_spec hsorted hcmp).1

/-- An element that is inserted at its key's place leaves the list sorted. -/
theorem pairwise_insertSorted {a : α} (hsorted : (l.map key).Pairwise (· ≤ ·))
    (hcmp : ∀ b ∈ l, cmp b = compare (key b) (key a)) :
    ((insertSorted cmp a l).map key).Pairwise (· ≤ ·) := by
  obtain ⟨-, hbefore, hafter⟩ := searchIndex_spec hsorted hcmp
  rw [insertSorted, List.map_insertIdx]
  refine pairwise_insertIdx hsorted (fun i hi hlt => ?_) (fun i hi hle => ?_)
  · rw [List.getElem_map]
    exact hbefore i (by simpa using hi) hlt
  · rw [List.getElem_map]
    exact hafter i (by simpa using hi) hle

end BinarySearch
