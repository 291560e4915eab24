import Mathlib

/-!
# Weaving a ledger into a sequence

The rows of a sequence are marked: some stand for an entry of a ledger (`matched`), some are claims
that no entry was found for (`free`), and the others are kept. A walk over the rows puts each entry
of the ledger where its row stands and the entries without a row before what follows them (`weave`).
A cursor says which entry comes next, and a free row whose text is that of the entry at the cursor
stands for this entry.

The walk keeps the other rows (`keeps_weave`) and has every entry (`mem_numbers_weave`), but an
entry comes twice when a free row takes it before its own row is reached. `Overtaken` says where that
happens, without the cursor, and `numbers_weave_iff` that every entry comes once exactly when it does
not happen.
-/

namespace Weave

variable {α τ : Type}

inductive Row (α τ : Type) where
  | other (a : α)
  | free (text : τ)
  | matched (a : α) (k : Nat)
  deriving DecidableEq, Repr

namespace Row

def number? : Row α τ → Option Nat
  | .matched _ k => some k
  | _ => none

def other? : Row α τ → Option α
  | .other a => some a
  | _ => none

def free? : Row α τ → Option τ
  | .free t => some t
  | _ => none

end Row

inductive Piece (α : Type) where
  | own (k : Nat)
  | keep (a : α)
  | claim (a : α) (k : Nat)
  deriving DecidableEq, Repr

namespace Piece

def number? : Piece α → Option Nat
  | .own k => some k
  | .keep _ => none
  | .claim _ k => some k

def keep? : Piece α → Option α
  | .keep a => some a
  | _ => none

end Piece

/-- The numbers of the entries that the pieces are, in order. -/
def numbers (pieces : List (Piece α)) : List Nat := pieces.filterMap Piece.number?

def keeps (pieces : List (Piece α)) : List α := pieces.filterMap Piece.keep?

/-- The entries from one number to another. -/
def owns (n k : Nat) : List (Piece α) := (List.range' n (k - n)).map .own

/-- The next entry that has a row. Without one, the walk waits for the rows that may stand for an
entry. -/
def upcoming (total n : Nat) (rows : List (Row α τ)) : Nat :=
  (rows.findSome? Row.number?).getD (if rows.any (·.other?.isNone) then n else total)

/-- The walk from an entry on. -/
def weave [DecidableEq τ] (ledger : List τ) : Nat → List (Row α τ) → List (Piece α)
  | n, [] => owns n ledger.length
  | n, .other a :: rows =>
    owns n (upcoming ledger.length n rows) ++
      .keep a :: weave ledger (max n (upcoming ledger.length n rows)) rows
  | n, .free t :: rows =>
    if ledger[n]? = some t then .own n :: weave ledger (n + 1) rows else weave ledger n rows
  | n, .matched a k :: rows => owns n k ++ .claim a k :: weave ledger (k + 1) rows

/-! ## What the pieces are -/

@[simp] theorem numbers_append (p q : List (Piece α)) :
    numbers (p ++ q) = numbers p ++ numbers q :=
  List.filterMap_append

@[simp] theorem numbers_own (k : Nat) (p : List (Piece α)) :
    numbers (.own k :: p) = k :: numbers p := rfl

@[simp] theorem numbers_keep (a : α) (p : List (Piece α)) : numbers (.keep a :: p) = numbers p := rfl

@[simp] theorem numbers_claim (a : α) (k : Nat) (p : List (Piece α)) :
    numbers (.claim a k :: p) = k :: numbers p := rfl

@[simp] theorem numbers_owns (n k : Nat) : numbers (owns n k : List (Piece α)) =
    List.range' n (k - n) := by
  rw [numbers, owns, List.filterMap_map]
  exact List.filterMap_some

@[simp] theorem keeps_append (p q : List (Piece α)) : keeps (p ++ q) = keeps p ++ keeps q :=
  List.filterMap_append

@[simp] theorem keeps_own (k : Nat) (p : List (Piece α)) : keeps (.own k :: p) = keeps p := rfl

@[simp] theorem keeps_keep (a : α) (p : List (Piece α)) : keeps (.keep a :: p) = a :: keeps p := rfl

@[simp] theorem keeps_claim (a : α) (k : Nat) (p : List (Piece α)) :
    keeps (.claim a k :: p) = keeps p := rfl

@[simp] theorem keeps_owns (n k : Nat) : keeps (owns n k : List (Piece α)) = [] := by
  rw [keeps, owns, List.filterMap_map]
  exact List.filterMap_eq_nil_iff.2 fun _ _ => rfl

/-! ## Rows in the order of the ledger -/

/-- The rows stand for different entries from `n` on, in the order of the ledger. -/
structure Ascending (total n : Nat) (rows : List (Row α τ)) : Prop where
  pairwise : (rows.filterMap Row.number?).Pairwise (· < ·)
  bounds : ∀ k ∈ rows.filterMap Row.number?, n ≤ k ∧ k < total

theorem findSome?_number? (rows : List (Row α τ)) :
    rows.findSome? Row.number? = (rows.filterMap Row.number?).head? :=
  List.head?_filterMap.symm

theorem mem_of_findSome? {k : Nat} {rows : List (Row α τ)}
    (h : rows.findSome? Row.number? = some k) : k ∈ rows.filterMap Row.number? := by
  rw [findSome?_number?] at h
  exact List.mem_of_mem_head? h

theorem Ascending.mono {total n k : Nat} {rows : List (Row α τ)} (h : Ascending total n rows)
    (hk : ∀ j ∈ rows.findSome? Row.number?, k ≤ j) : Ascending total k rows := by
  refine ⟨h.pairwise, fun j hj => ⟨?_, (h.bounds j hj).2⟩⟩
  rw [findSome?_number?] at hk
  have hpairwise := h.pairwise
  cases hnumbers : rows.filterMap Row.number? with
  | nil =>
    rw [hnumbers] at hj
    cases hj
  | cons i rest =>
    rw [hnumbers] at hk hj hpairwise
    have hi : k ≤ i := hk i rfl
    rcases List.mem_cons.1 hj with rfl | hj
    · exact hi
    · have := (List.pairwise_cons.1 hpairwise).1 j hj
      omega

theorem upcoming_le {total n : Nat} {rows : List (Row α τ)}
    (hrows : ∀ k ∈ rows.filterMap Row.number?, k < total) (hn : n ≤ total) :
    upcoming total n rows ≤ total := by
  unfold upcoming
  cases hfirst : rows.findSome? Row.number? with
  | some k => exact Nat.le_of_lt (hrows k (mem_of_findSome? hfirst))
  | none =>
    rw [Option.getD_none]
    split <;> omega

theorem upcoming_spec {total n : Nat} {rows : List (Row α τ)} (h : Ascending total n rows)
    (hn : n ≤ total) : n ≤ upcoming total n rows ∧
      ∀ j ∈ rows.findSome? Row.number?, upcoming total n rows ≤ j := by
  unfold upcoming
  cases hfirst : rows.findSome? Row.number? with
  | some k =>
    refine ⟨(h.bounds k (mem_of_findSome? hfirst)).1, ?_⟩
    intro j hj
    cases hj
    exact Nat.le_refl k
  | none =>
    refine ⟨?_, fun j hj => by cases hj⟩
    rw [Option.getD_none]
    split <;> omega

theorem findSome?_gap {gap rows : List (Row α τ)} {a : α} {k : Nat}
    (hgap : gap.filterMap Row.number? = []) :
    (gap ++ .matched a k :: rows).findSome? Row.number? = some k := by
  rw [findSome?_number?, List.filterMap_append, hgap]
  rfl

theorem upcoming_gap {gap rows : List (Row α τ)} {a : α} {k n total : Nat}
    (hgap : gap.filterMap Row.number? = []) :
    upcoming total n (gap ++ .matched a k :: rows) = k := by
  rw [upcoming, findSome?_gap hgap, Option.getD_some]

/-- Rows are a gap, or a gap, a matched row and the rows behind it. -/
theorem gap_induction {P : List (Row α τ) → Prop}
    (gap : ∀ rows, rows.filterMap Row.number? = [] → P rows)
    (matched : ∀ gap a k rows, gap.filterMap Row.number? = [] → P rows →
      P (gap ++ .matched a k :: rows)) (rows : List (Row α τ)) : P rows := by
  have hrows : ∀ front : List (Row α τ), front.filterMap Row.number? = [] → P (front ++ rows) := by
    induction rows with
    | nil =>
      intro front hfront
      rw [List.append_nil]
      exact gap front hfront
    | cons row rows ih =>
      intro front hfront
      have hmove : ∀ r : Row α τ, r.number? = none → P (front ++ r :: rows) := by
        intro r hr
        have hsnoc : (front ++ [r]).filterMap Row.number? = [] := by
          rw [List.filterMap_append, hfront, List.nil_append, List.filterMap_cons_none hr,
            List.filterMap_nil]
        have := ih (front ++ [r]) hsnoc
        rwa [List.append_assoc] at this
      cases row with
      | other a => exact hmove _ rfl
      | free t => exact hmove _ rfl
      | matched a k => exact matched front a k rows hfront (ih [] rfl)
  exact hrows [] rfl

theorem Ascending.of_gap {total n k : Nat} {gap rows : List (Row α τ)} {a : α}
    (hgap : gap.filterMap Row.number? = [])
    (h : Ascending total n (gap ++ .matched a k :: rows)) :
    n ≤ k ∧ k < total ∧ Ascending total (k + 1) rows := by
  have hnumbers : (gap ++ .matched a k :: rows).filterMap Row.number? =
      k :: rows.filterMap (Row.number? (τ := τ)) := by
    rw [List.filterMap_append, hgap]
    rfl
  obtain ⟨hpairwise, hbounds⟩ := h
  rw [hnumbers] at hpairwise hbounds
  obtain ⟨hlater, hpairwise⟩ := List.pairwise_cons.1 hpairwise
  obtain ⟨hnk, hk⟩ := hbounds k List.mem_cons_self
  exact ⟨hnk, hk, hpairwise,
    fun j hj => ⟨hlater j hj, (hbounds j (List.mem_cons_of_mem _ hj)).2⟩⟩

theorem gap_unique {gap gap' rows rows' : List (Row α τ)} {a a' : α} {k k' : Nat}
    (hgap : gap.filterMap Row.number? = []) (hgap' : gap'.filterMap Row.number? = [])
    (h : gap ++ .matched a k :: rows = gap' ++ .matched a' k' :: rows') :
    gap = gap' ∧ a = a' ∧ k = k' ∧ rows = rows' := by
  induction gap generalizing gap' with
  | nil =>
    cases gap' with
    | nil => simpa [and_assoc] using h
    | cons row gap' =>
      obtain ⟨rfl, -⟩ := List.cons.inj h
      cases hgap'
  | cons row gap ih =>
    cases gap' with
    | nil =>
      obtain ⟨rfl, -⟩ := List.cons.inj h
      cases hgap
    | cons row' gap' =>
      obtain ⟨rfl, hcons⟩ := List.cons.inj h
      cases row with
      | other b =>
        have hgap' : gap'.filterMap Row.number? = [] := hgap'
        obtain ⟨rfl, hrest⟩ := ih hgap hgap' hcons
        exact ⟨rfl, hrest⟩
      | free t =>
        have hgap' : gap'.filterMap Row.number? = [] := hgap'
        obtain ⟨rfl, hrest⟩ := ih hgap hgap' hcons
        exact ⟨rfl, hrest⟩
      | matched b j => cases hgap

theorem range'_split {n k total : Nat} (hnk : n ≤ k) (hk : k ≤ total) :
    List.range' n (total - n) = List.range' n (k - n) ++ List.range' k (total - k) := by
  have h := @List.range'_append n (k - n) (total - k) 1
  rw [Nat.one_mul, Nat.add_sub_cancel' hnk] at h
  rw [h]
  congr 1
  omega

theorem range'_cons {n total : Nat} (hn : n < total) :
    List.range' n (total - n) = n :: List.range' (n + 1) (total - (n + 1)) := by
  rw [show total - n = (total - (n + 1)) + 1 by omega, List.range'_succ]

/-- What a piece of the weave of rows is. -/
def Piece.From (total : Nat) (rows : List (Row α τ)) : Piece α → Prop
  | .own k => k < total
  | .keep a => .other a ∈ rows
  | .claim a k => k < total ∧ .matched a k ∈ rows

theorem Piece.From.cons {total : Nat} {rows : List (Row α τ)} {piece : Piece α}
    (h : piece.From total rows) (row : Row α τ) : piece.From total (row :: rows) := by
  cases piece with
  | own k => exact h
  | keep a => exact List.mem_cons_of_mem _ h
  | claim a k => exact ⟨h.1, List.mem_cons_of_mem _ h.2⟩

theorem Piece.from_owns {total n k : Nat} {rows : List (Row α τ)} {piece : Piece α}
    (hk : k ≤ total) (h : piece ∈ owns n k) : piece.From total rows := by
  obtain ⟨j, hj, rfl⟩ := List.mem_map.1 h
  rw [List.mem_range'_1] at hj
  show j < total
  omega

/-! ## Entries that are overtaken -/

/-- Between the rows of two entries, a free row has the text of the second one, and the cursor
reached it: another row came before, or free rows for all entries between the two. -/
inductive Overtaken (ledger : List τ) : Nat → List (Row α τ) → Prop
  | here {n k : Nat} {gap gap' rows : List (Row α τ)} {t : τ} {a : α}
      (hgap : gap.filterMap Row.number? = []) (hgap' : gap'.filterMap Row.number? = [])
      (htext : ledger[k]? = some t)
      (hreached : gap.filterMap Row.other? ≠ [] ∨
        ((ledger.take k).drop n).Sublist (gap.filterMap Row.free?)) :
      Overtaken ledger n (gap ++ .free t :: gap' ++ .matched a k :: rows)
  | later {n k : Nat} {gap rows : List (Row α τ)} {a : α} (hgap : gap.filterMap Row.number? = [])
      (h : Overtaken ledger (k + 1) rows) : Overtaken ledger n (gap ++ .matched a k :: rows)

variable {ledger : List τ}

theorem Overtaken.exists_number {n : Nat} {rows : List (Row α τ)} (h : Overtaken ledger n rows) :
    ∃ k, k ∈ rows.filterMap Row.number? := by
  cases h with
  | @here _ k _ _ _ _ a =>
    exact ⟨k, List.mem_filterMap.2 ⟨.matched a k,
      List.mem_append_right _ List.mem_cons_self, rfl⟩⟩
  | @later _ k _ _ a =>
    exact ⟨k, List.mem_filterMap.2 ⟨.matched a k,
      List.mem_append_right _ List.mem_cons_self, rfl⟩⟩

theorem not_overtaken_of_gap {n : Nat} {gap : List (Row α τ)}
    (hgap : gap.filterMap Row.number? = []) : ¬Overtaken ledger n gap := by
  intro h
  obtain ⟨k, hk⟩ := h.exists_number
  rw [hgap] at hk
  cases hk

theorem overtaken_gap_iff {n k : Nat} {gap rows : List (Row α τ)} {a : α}
    (hgap : gap.filterMap Row.number? = []) :
    Overtaken ledger n (gap ++ .matched a k :: rows) ↔
      (∃ front t back, gap = front ++ .free t :: back ∧ ledger[k]? = some t ∧
        (front.filterMap Row.other? ≠ [] ∨
          ((ledger.take k).drop n).Sublist (front.filterMap Row.free?))) ∨
      Overtaken ledger (k + 1) rows := by
  constructor
  · intro h
    generalize hall : gap ++ .matched a k :: rows = all at h
    cases h with
    | @here _ j front back rest t b hfront hback htext hreached =>
      have hgap' : (front ++ .free t :: back).filterMap Row.number? = [] := by
        rw [List.filterMap_append, hfront]
        exact hback
      obtain ⟨rfl, -, rfl, -⟩ := gap_unique hgap hgap' hall
      exact .inl ⟨front, t, back, rfl, htext, hreached⟩
    | @later _ j gap' rest b hgap' h =>
      obtain ⟨-, -, rfl, rfl⟩ := gap_unique hgap hgap' hall
      exact .inr h
  · rintro (⟨front, t, back, rfl, htext, hreached⟩ | h)
    · rw [List.filterMap_append, List.append_eq_nil_iff] at hgap
      exact .here hgap.1 hgap.2 htext hreached
    · exact .later hgap h

variable [DecidableEq τ]

/-- The other rows are kept in their order. -/
theorem keeps_weave (n : Nat) (rows : List (Row α τ)) :
    keeps (weave ledger n rows) = rows.filterMap Row.other? := by
  fun_induction weave ledger n rows with
  | case1 n => rw [keeps_owns, List.filterMap_nil]
  | case2 n a rows ih =>
    rw [keeps_append, keeps_owns, keeps_keep, ih]
    rfl
  | case3 n t rows _ ih =>
    rw [keeps_own, ih]
    rfl
  | case4 n t rows _ ih =>
    rw [ih]
    rfl
  | case5 n a k rows ih =>
    rw [keeps_append, keeps_owns, keeps_claim, ih]
    rfl

/-- A matched row stands behind what stood before it. -/
theorem weave_matched (ledger : List τ) (before after : List (Row α τ)) (a : α) (k n : Nat) :
    ∃ front back, weave ledger n (before ++ .matched a k :: after) = front ++ .claim a k :: back ∧
      keeps front = before.filterMap Row.other? := by
  induction before generalizing n with
  | nil => exact ⟨owns n k, _, rfl, keeps_owns n k⟩
  | cons row before ih =>
    cases row with
    | other b =>
      obtain ⟨front, back, h, hkeeps⟩ := ih (max n (upcoming ledger.length n
        (before ++ .matched a k :: after)))
      refine ⟨owns n (upcoming ledger.length n (before ++ .matched a k :: after)) ++
        .keep b :: front, back, ?_, ?_⟩
      · rw [List.cons_append, weave, h, List.append_assoc, List.cons_append]
      · rw [keeps_append, keeps_owns, keeps_keep, hkeeps]
        rfl
    | free t =>
      rw [List.cons_append, weave]
      split
      · obtain ⟨front, back, h, hkeeps⟩ := ih (n + 1)
        exact ⟨.own n :: front, back, by rw [h, List.cons_append], hkeeps⟩
      · exact ih n
    | matched b j =>
      obtain ⟨front, back, h, hkeeps⟩ := ih (j + 1)
      refine ⟨owns n j ++ .claim b j :: front, back, ?_, ?_⟩
      · rw [List.cons_append, weave, h, List.append_assoc, List.cons_append]
      · rw [keeps_append, keeps_owns, keeps_claim, hkeeps]
        rfl

/-- The number of a matched row is among the numbers. -/
theorem mem_numbers_weave {n k : Nat} {rows : List (Row α τ)}
    (hk : k ∈ rows.filterMap Row.number?) : k ∈ numbers (weave ledger n rows) := by
  obtain ⟨row, hrow, hnumber⟩ := List.mem_filterMap.1 hk
  cases row with
  | matched a j =>
    obtain rfl : j = k := by simpa [Row.number?] using hnumber
    obtain ⟨before, after, rfl⟩ := List.append_of_mem hrow
    obtain ⟨front, back, h, -⟩ := weave_matched ledger before after a j n
    rw [h, numbers_append, numbers_claim]
    exact List.mem_append_right _ List.mem_cons_self
  | other a => cases hnumber
  | free t => cases hnumber

/-! ## Entries that come once -/

/-- A free row takes the entry at the cursor, and the entry has a row that follows. -/
def Taken (ledger : List τ) : Nat → List (Row α τ) → Prop
  | _, [] => False
  | n, .other _ :: rows => Taken ledger (max n (upcoming ledger.length n rows)) rows
  | n, .free t :: rows =>
    if ledger[n]? = some t then
      rows.findSome? Row.number? = some n ∨ Taken ledger (n + 1) rows
    else Taken ledger n rows
  | _, .matched _ k :: rows => Taken ledger (k + 1) rows

theorem from_of_mem_weave {n : Nat} {rows : List (Row α τ)}
    (hrows : ∀ k ∈ rows.filterMap Row.number?, k < ledger.length) (hn : n ≤ ledger.length)
    {piece : Piece α} (hpiece : piece ∈ weave ledger n rows) : piece.From ledger.length rows := by
  fun_induction weave ledger n rows with
  | case1 n => exact Piece.from_owns (Nat.le_refl _) hpiece
  | case2 n a rows ih =>
    have hrows : ∀ k ∈ rows.filterMap Row.number?, k < ledger.length := hrows
    have htotal := upcoming_le hrows hn
    rcases List.mem_append.1 hpiece with hpiece | hpiece
    · exact Piece.from_owns htotal hpiece
    · rcases List.mem_cons.1 hpiece with rfl | hpiece
      · exact List.mem_cons_self
      · exact (ih hrows (Nat.max_le.2 ⟨hn, htotal⟩) hpiece).cons _
  | case3 n t rows htext ih =>
    have hlt : n < ledger.length := (List.getElem?_eq_some_iff.1 htext).1
    rcases List.mem_cons.1 hpiece with rfl | hpiece
    · exact hlt
    · exact (ih hrows hlt hpiece).cons _
  | case4 n t rows htext ih => exact (ih hrows hn hpiece).cons _
  | case5 n a k rows ih =>
    obtain ⟨hk, hrows⟩ := List.forall_mem_cons.1 hrows
    rcases List.mem_append.1 hpiece with hpiece | hpiece
    · exact Piece.from_owns (Nat.le_of_lt hk) hpiece
    · rcases List.mem_cons.1 hpiece with rfl | hpiece
      · exact ⟨hk, List.mem_cons_self⟩
      · exact (ih hrows hk hpiece).cons _

/-- Every entry comes once exactly when no free row takes an entry that has a row. -/
theorem numbers_weave_iff_not_taken {n : Nat} {rows : List (Row α τ)}
    (h : Ascending ledger.length n rows) (hn : n ≤ ledger.length) :
    numbers (weave ledger n rows) = List.range' n (ledger.length - n) ↔ ¬Taken ledger n rows := by
  fun_induction weave ledger n rows with
  | case1 n => simp [Taken]
  | case2 n a rows ih =>
    have hrows : Ascending ledger.length n rows := ⟨h.pairwise, h.bounds⟩
    obtain ⟨hle, hfirst⟩ := upcoming_spec hrows hn
    have htotal := upcoming_le (fun k hk => (hrows.bounds k hk).2) hn
    rw [Nat.max_eq_right hle] at ih ⊢
    rw [numbers_append, numbers_owns, numbers_keep, range'_split hle htotal,
      List.append_cancel_left_eq, ih (hrows.mono hfirst) htotal, Taken, Nat.max_eq_right hle]
  | case3 n t rows htext ih =>
    have hrows : Ascending ledger.length n rows := ⟨h.pairwise, h.bounds⟩
    have hlt : n < ledger.length := (List.getElem?_eq_some_iff.1 htext).1
    rw [numbers_own, range'_cons hlt, List.cons.injEq, Taken, if_pos htext]
    by_cases hnext : rows.findSome? Row.number? = some n
    · have hmem : n ∈ numbers (weave ledger (n + 1) rows) :=
        mem_numbers_weave (mem_of_findSome? hnext)
      constructor
      · rintro ⟨-, heq⟩
        rw [heq, List.mem_range'_1] at hmem
        omega
      · intro hnot
        exact absurd (Or.inl hnext) hnot
    · have hmono : Ascending ledger.length (n + 1) rows := by
        refine hrows.mono fun j hj => ?_
        have hnj := (hrows.bounds j (mem_of_findSome? hj)).1
        have hne : j ≠ n := by
          rintro rfl
          exact hnext hj
        omega
      rw [ih hmono hlt, not_or]
      tauto
  | case4 n t rows htext ih =>
    rw [ih ⟨h.pairwise, h.bounds⟩ hn, Taken, if_neg htext]
  | case5 n a k rows ih =>
    have hnumbers : (Row.matched a k :: rows).filterMap Row.number? =
        k :: rows.filterMap (Row.number? (τ := τ)) := rfl
    obtain ⟨hpairwise, hbounds⟩ := h
    rw [hnumbers] at hpairwise hbounds
    obtain ⟨hlater, hpairwise⟩ := List.pairwise_cons.1 hpairwise
    obtain ⟨hnk, hk⟩ := hbounds k List.mem_cons_self
    have hrows : Ascending ledger.length (k + 1) rows :=
      ⟨hpairwise, fun j hj => ⟨hlater j hj, (hbounds j (List.mem_cons_of_mem _ hj)).2⟩⟩
    rw [numbers_append, numbers_owns, numbers_claim, range'_split hnk (Nat.le_of_lt hk),
      range'_cons hk,
      List.append_cancel_left_eq, List.cons.injEq, ih hrows hk, Taken]
    exact and_iff_right rfl

/-! ## The cursor -/

/-- Where the cursor is behind rows that stand before the row of `k`. -/
def cursor (ledger : List τ) (k : Nat) : Nat → List (Row α τ) → Nat
  | n, [] => n
  | n, .other _ :: rows => cursor ledger k (max n k) rows
  | n, .free t :: rows => cursor ledger k (if ledger[n]? = some t then n + 1 else n) rows
  | n, .matched _ _ :: rows => cursor ledger k n rows

/-- A free row takes `k` among rows that stand before the row of `k`. -/
def TakenIn (ledger : List τ) (k n : Nat) (gap : List (Row α τ)) : Prop :=
  ∃ front t back, gap = front ++ .free t :: back ∧ cursor ledger k n front = k ∧
    ledger[k]? = some t

theorem not_takenIn_nil {k n : Nat} : ¬TakenIn ledger k n ([] : List (Row α τ)) := by
  rintro ⟨front, t, back, h, -, -⟩
  simp at h

theorem takenIn_cons_iff {k n : Nat} {row : Row α τ} {gap : List (Row α τ)} :
    TakenIn ledger k n (row :: gap) ↔
      (∃ t, row = .free t ∧ n = k ∧ ledger[k]? = some t) ∨
      TakenIn ledger k (cursor ledger k n [row]) gap := by
  constructor
  · rintro ⟨front, t, back, h, hcursor, htext⟩
    cases front with
    | nil =>
      obtain ⟨rfl, rfl⟩ := List.cons.inj h
      exact .inl ⟨t, rfl, hcursor, htext⟩
    | cons r front =>
      obtain ⟨rfl, rfl⟩ := List.cons.inj h
      refine .inr ⟨front, t, back, rfl, ?_, htext⟩
      cases row <;> exact hcursor
  · rintro (⟨t, rfl, rfl, htext⟩ | ⟨front, t, back, rfl, hcursor, htext⟩)
    · exact ⟨[], t, gap, rfl, rfl, htext⟩
    · refine ⟨row :: front, t, back, rfl, ?_, htext⟩
      cases row <;> exact hcursor

/-- An entry with a row is taken in front of this row or not at all. -/
theorem taken_gap_iff {n k : Nat} {gap rows : List (Row α τ)} {a : α}
    (hgap : gap.filterMap Row.number? = []) :
    Taken ledger n (gap ++ .matched a k :: rows) ↔
      TakenIn ledger k n gap ∨ Taken ledger (k + 1) rows := by
  induction gap generalizing n with
  | nil => simp [Taken, not_takenIn_nil]
  | cons row gap ih =>
    cases row with
    | other b =>
      have hgap : gap.filterMap Row.number? = [] := hgap
      rw [List.cons_append, Taken, upcoming_gap hgap, ih hgap, takenIn_cons_iff]
      simp [cursor]
    | free t =>
      have hgap : gap.filterMap Row.number? = [] := hgap
      rw [List.cons_append, Taken, findSome?_gap hgap, takenIn_cons_iff]
      by_cases htext : ledger[n]? = some t
      · rw [if_pos htext, ih hgap]
        simp only [cursor, if_pos htext, Option.some.injEq, Row.free.injEq, exists_eq_left']
        constructor
        · rintro (rfl | h | h)
          · exact .inl (.inl ⟨rfl, htext⟩)
          · exact .inl (.inr h)
          · exact .inr h
        · rintro ((⟨rfl, -⟩ | h) | h)
          · exact .inl rfl
          · exact .inr (.inl h)
          · exact .inr (.inr h)
      · rw [if_neg htext, ih hgap]
        simp only [cursor, if_neg htext, Row.free.injEq, exists_eq_left']
        constructor
        · rintro (h | h)
          · exact .inl (.inr h)
          · exact .inr h
        · rintro ((⟨rfl, h⟩ | h) | h)
          · exact absurd h htext
          · exact .inl h
          · exact .inr h
    | matched b j => cases hgap

theorem not_taken_of_gap {n : Nat} {gap : List (Row α τ)} (hgap : gap.filterMap Row.number? = []) :
    ¬Taken ledger n gap := by
  induction gap generalizing n with
  | nil => exact id
  | cons row gap ih =>
    cases row with
    | other b => exact ih hgap
    | free t =>
      have hnone : gap.findSome? Row.number? = none := by
        have hgap : gap.filterMap Row.number? = [] := hgap
        rw [findSome?_number?, hgap]
        rfl
      rw [Taken, hnone]
      split
      · simpa using ih hgap
      · exact ih hgap
    | matched b j => cases hgap

theorem le_cursor (k n : Nat) (gap : List (Row α τ)) : n ≤ cursor ledger k n gap := by
  fun_induction cursor ledger k n gap with
  | case1 n => exact Nat.le_refl n
  | case2 n a rows ih => omega
  | case3 n t rows ih =>
    refine Nat.le_trans ?_ ih
    split <;> omega
  | case4 n a j rows ih => exact ih

/-- The cursor gets where another row sends it, and past a sequence of texts that free rows have. -/
theorem le_cursor_of_reached {k n : Nat} {gap : List (Row α τ)}
    (h : gap.filterMap Row.other? ≠ [] ∨
      ((ledger.take k).drop n).Sublist (gap.filterMap Row.free?)) (hk : k ≤ ledger.length) :
    k ≤ cursor ledger k n gap := by
  fun_induction cursor ledger k n gap with
  | case1 n =>
    rcases h with h | h
    · exact absurd rfl h
    · have := List.length_eq_zero_iff.2 (List.sublist_nil.1 h)
      rw [List.length_drop, List.length_take] at this
      omega
  | case2 n a rows ih => exact Nat.le_trans (Nat.le_max_right n k) (le_cursor _ _ _)
  | case3 n t rows ih =>
    rcases h with h | h
    · exact ih (.inl h)
    · by_cases hnk : n < k
      · have hcons : (ledger.take k).drop n = ledger[n] :: (ledger.take k).drop (n + 1) := by
          rw [List.drop_eq_getElem_cons (by rw [List.length_take]; omega), List.getElem_take]
        have hfree : (Row.free t :: rows).filterMap Row.free? =
            t :: rows.filterMap (Row.free? (α := α)) := rfl
        rw [hcons, hfree] at h
        refine ih (.inr ?_)
        split
        · exact List.Sublist.of_cons_cons h
        · next htext =>
          rcases List.sublist_cons_iff.1 h with h | ⟨rest, heq, -⟩
          · rw [hcons]
            exact h
          · obtain ⟨rfl, -⟩ := List.cons.inj heq
            exact absurd (List.getElem?_eq_getElem _) htext
      · refine Nat.le_trans ?_ (le_cursor _ _ _)
        split <;> omega
  | case4 n a j rows ih => exact ih h

/-- A cursor that stays before an entry gets there as the texts go by, or is sent there. -/
theorem reached_of_cursor {k n : Nat} {gap : List (Row α τ)}
    (hgap : gap.filterMap Row.number? = []) (hk : cursor ledger k n gap = k) :
    gap.filterMap Row.other? ≠ [] ∨
      ((ledger.take k).drop n).Sublist (gap.filterMap Row.free?) := by
  fun_induction cursor ledger k n gap with
  | case1 n =>
    refine .inr ?_
    rw [List.drop_eq_nil_of_le (by rw [List.length_take]; omega)]
    exact List.Sublist.refl _
  | case2 n a rows ih => exact .inl (List.cons_ne_nil _ _)
  | case3 n t rows ih =>
    have hfree : (Row.free t :: rows).filterMap Row.free? =
        t :: rows.filterMap (Row.free? (α := α)) := rfl
    rcases ih hgap hk with h | h
    · exact .inl h
    · rw [hfree]
      refine .inr ?_
      by_cases htext : ledger[n]? = some t
      · rw [if_pos htext] at h
        by_cases hnk : n < k
        · obtain ⟨hlt, rfl⟩ := List.getElem?_eq_some_iff.1 htext
          rw [List.drop_eq_getElem_cons (by rw [List.length_take]; omega), List.getElem_take]
          exact h.cons_cons _
        · rw [List.drop_eq_nil_of_le (by rw [List.length_take]; omega)]
          exact List.nil_sublist _
      · rw [if_neg htext] at h
        exact h.cons t
  | case4 n a j rows ih => cases hgap

/-- A cursor that passes an entry was at the entry in front of a free row with its text. -/
theorem takenIn_of_lt_cursor {k n : Nat} {gap : List (Row α τ)} (hn : n ≤ k)
    (hk : k < cursor ledger k n gap) : TakenIn ledger k n gap := by
  induction gap generalizing n with
  | nil => exact absurd hk (Nat.not_lt.2 hn)
  | cons row gap ih =>
    rw [takenIn_cons_iff]
    cases row with
    | other a => exact .inr (ih (Nat.max_le.2 ⟨hn, Nat.le_refl k⟩) hk)
    | free t =>
      by_cases htaken : n = k ∧ ledger[k]? = some t
      · exact .inl ⟨t, rfl, htaken⟩
      · refine .inr (ih ?_ hk)
        simp only [cursor]
        split
        · next htext =>
          have hne : n ≠ k := by
            rintro rfl
            exact htaken ⟨rfl, htext⟩
          omega
        · exact hn
    | matched a j => exact .inr (ih hn hk)

/-- The free row that takes an entry can be told without the cursor. -/
theorem takenIn_iff {k n : Nat} {gap : List (Row α τ)} (hgap : gap.filterMap Row.number? = [])
    (hn : n ≤ k) (hk : k ≤ ledger.length) : TakenIn ledger k n gap ↔
      ∃ front t back, gap = front ++ .free t :: back ∧ ledger[k]? = some t ∧
        (front.filterMap Row.other? ≠ [] ∨
          ((ledger.take k).drop n).Sublist (front.filterMap Row.free?)) := by
  constructor
  · rintro ⟨front, t, back, rfl, hcursor, htext⟩
    rw [List.filterMap_append, List.append_eq_nil_iff] at hgap
    exact ⟨front, t, back, rfl, htext, reached_of_cursor hgap.1 hcursor⟩
  · rintro ⟨front, t, back, rfl, htext, hreached⟩
    rcases Nat.eq_or_lt_of_le (le_cursor_of_reached hreached hk) with heq | hlt
    · exact ⟨front, t, back, rfl, heq.symm, htext⟩
    · obtain ⟨front', t', back', rfl, hcursor, htext'⟩ := takenIn_of_lt_cursor hn hlt
      exact ⟨front', t', back' ++ .free t :: back, by simp, hcursor, htext'⟩

theorem taken_iff_overtaken {n : Nat} {rows : List (Row α τ)}
    (h : Ascending ledger.length n rows) : Taken ledger n rows ↔ Overtaken ledger n rows := by
  induction rows using gap_induction generalizing n with
  | gap rows hgap => exact iff_of_false (not_taken_of_gap hgap) (not_overtaken_of_gap hgap)
  | matched gap a k rows hgap ih =>
    obtain ⟨hn, hk, hrows⟩ := h.of_gap hgap
    rw [taken_gap_iff hgap, overtaken_gap_iff hgap, ih hrows,
      takenIn_iff hgap hn (Nat.le_of_lt hk)]

/-- Every entry comes once, in the order of the ledger, exactly when none is overtaken. -/
theorem numbers_weave_iff {rows : List (Row α τ)} (h : Ascending ledger.length 0 rows) :
    numbers (weave ledger 0 rows) = List.range ledger.length ↔ ¬Overtaken ledger 0 rows := by
  rw [← taken_iff_overtaken h, ← numbers_weave_iff_not_taken h (Nat.zero_le _),
    List.range_eq_range', Nat.sub_zero]

end Weave
