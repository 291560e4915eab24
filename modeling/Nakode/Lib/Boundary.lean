import Nakode.Lib.Utf8

/-!
# Character boundaries

An offset is a boundary of a text when a character begins or the text ends there
(`isCharBoundary_iff`). Two boundaries cut a text into three parts (`exists_between`), and none lies
inside a character (`le_of_isCharBoundary`). A loop that steps over what is no boundary stops at the
first one after an offset (`nextBoundary_spec`), or at the last one before it
(`previousBoundary_spec`).
-/

namespace Text

/-- `str::is_char_boundary`. -/
def isCharBoundary (s : String) (n : Nat) : Bool := (splitAt? s n).isSome

theorem isCharBoundary_iff {s : String} {n : Nat} :
    isCharBoundary s n = true ↔ ∃ before after, s = before ++ after ∧ len before = n := by
  simp only [isCharBoundary, Option.isSome_iff_exists, Prod.exists, splitAt?_eq_some_iff]

theorem isCharBoundary_len (s : String) : isCharBoundary s (len s) = true :=
  isCharBoundary_iff.2 ⟨s, "", by simp, rfl⟩

/-- Of two ways to cut a text, the first parts are nested. -/
theorem exists_between {a b c d : String} (h : a ++ b = c ++ d) (hle : len a ≤ len c) :
    ∃ mid, c = a ++ mid ∧ b = mid ++ d := by
  have hchars := congrArg String.toList h
  rw [String.toList_append, String.toList_append] at hchars
  rcases List.append_eq_append_iff.1 hchars with ⟨mid, hc, hb⟩ | ⟨mid, ha, hd⟩
  · refine ⟨String.ofList mid, ?_, ?_⟩
    · rw [← String.toList_inj, hc, String.toList_append, String.toList_ofList]
    · rw [← String.toList_inj, hb, String.toList_append, String.toList_ofList]
  · have hacut : a = c ++ String.ofList mid := by
      rw [← String.toList_inj, ha, String.toList_append, String.toList_ofList]
    have hempty : String.ofList mid = "" := by
      rw [hacut, len_append] at hle
      exact len_eq_zero.1 (by omega)
    have hmid : mid = [] := by
      have := congrArg String.toList hempty
      rwa [String.toList_ofList] at this
    rw [hmid, List.nil_append] at hd
    rw [hempty, String.append_empty] at hacut
    refine ⟨"", by rw [hacut, String.append_empty], ?_⟩
    rw [← String.toList_inj, ← hd, String.empty_append]

/-- The part of a text between two offsets, where both are boundaries. -/
theorem get?_eq_some_iff {s part : String} {start stop : Nat} :
    get? s start stop = some part ↔
      ∃ before after, s = before ++ part ++ after ∧ len before = start ∧
        len before + len part = stop := by
  unfold get?
  constructor
  · intro h
    split at h
    · cases h
    · next hle =>
      obtain ⟨⟨before, rest⟩, hbefore, h⟩ := Option.bind_eq_some_iff.1 h
      obtain ⟨⟨inner, after⟩, hinner, rfl⟩ := Option.map_eq_some_iff.1 h
      obtain ⟨rfl, hstart⟩ := splitAt?_eq_some_iff.1 hbefore
      obtain ⟨rfl, hlen⟩ := splitAt?_eq_some_iff.1 hinner
      exact ⟨before, after, by simp [String.append_assoc], hstart, by dsimp only; omega⟩
  · rintro ⟨before, after, rfl, rfl, rfl⟩
    have hfirst : splitAt? (before ++ part ++ after) (len before) = some (before, part ++ after) :=
      splitAt?_eq_some_iff.2 ⟨String.append_assoc .., rfl⟩
    have hsecond : splitAt? (part ++ after) (len before + len part - len before)
        = some (part, after) :=
      splitAt?_eq_some_iff.2 ⟨rfl, by omega⟩
    rw [if_neg (by omega), hfirst, Option.bind_some]
    dsimp only
    rw [hsecond]
    rfl

/-- A boundary before the end of a character is not after its beginning. -/
theorem le_of_isCharBoundary {before after : String} {c : Char} {n : Nat}
    (h : isCharBoundary (before ++ String.singleton c ++ after) n = true)
    (hlt : n < len before + c.utf8Size) : n ≤ len before := by
  obtain ⟨left, right, heq, rfl⟩ := isCharBoundary_iff.1 h
  by_contra hgt
  rw [String.append_assoc] at heq
  obtain ⟨mid, rfl, hmid⟩ := exists_between heq (by omega)
  rw [len_append] at hlt hgt
  have hchars := congrArg String.toList hmid
  rw [String.toList_append, String.toList_append, String.toList_singleton,
    List.singleton_append] at hchars
  cases hcs : mid.toList with
  | nil =>
    rw [len_eq mid, hcs] at hgt
    exact hgt (by simp)
  | cons d cs =>
    rw [hcs, List.cons_append, List.cons.injEq] at hchars
    rw [len_eq mid, hcs, String.utf8Len_cons, ← hchars.1] at hlt
    omega

/-! ## The next boundary -/

/-- The first boundary from an offset on, among the given number of offsets. -/
def nextBoundary (s : String) : Nat → Nat → Nat
  | 0, start => start
  | left + 1, start =>
    if isCharBoundary s start then start else nextBoundary s left (start + 1)

theorem nextBoundary_spec {s : String} (left start : Nat)
    (hstop : isCharBoundary s (start + left) = true) :
    start ≤ nextBoundary s left start ∧ nextBoundary s left start ≤ start + left ∧
      isCharBoundary s (nextBoundary s left start) = true ∧
      ∀ n, start ≤ n → n < nextBoundary s left start → isCharBoundary s n = false := by
  induction left generalizing start with
  | zero => exact ⟨Nat.le_refl _, Nat.le_refl _, hstop, fun n hn hlt => absurd hn (by
      rw [nextBoundary] at hlt
      omega)⟩
  | succ left ih =>
    rw [nextBoundary]
    split
    · next hstart => exact ⟨Nat.le_refl _, Nat.le_add_right _ _, hstart, fun n hn hlt => by omega⟩
    · next hstart =>
      obtain ⟨hlow, hhigh, hnext, hnone⟩ := ih (start + 1)
        (by rwa [Nat.add_right_comm])
      refine ⟨by omega, by omega, hnext, fun n hn hlt => ?_⟩
      obtain rfl | hmore := Nat.eq_or_lt_of_le hn
      · exact Bool.eq_false_iff.2 hstart
      · exact hnone n hmore hlt

/-- The last boundary up to an offset. -/
def previousBoundary (s : String) : Nat → Nat
  | 0 => 0
  | n + 1 => if isCharBoundary s (n + 1) then n + 1 else previousBoundary s n

theorem previousBoundary_spec (s : String) (n : Nat) :
    previousBoundary s n ≤ n ∧ isCharBoundary s (previousBoundary s n) = true := by
  induction n with
  | zero => exact ⟨Nat.le_refl 0, isCharBoundary_iff.2 ⟨"", s, (String.empty_append ..).symm, rfl⟩⟩
  | succ n ih =>
    rw [previousBoundary]
    split
    · next h => exact ⟨Nat.le_refl _, h⟩
    · exact ⟨Nat.le_succ_of_le ih.1, ih.2⟩

/-- No boundary up to the offset is later. -/
theorem le_previousBoundary {s : String} {m n : Nat} (hm : isCharBoundary s m = true)
    (hle : m ≤ n) : m ≤ previousBoundary s n := by
  induction n with
  | zero => exact hle
  | succ n ih =>
    rw [previousBoundary]
    split
    · exact hle
    · next hn =>
      refine ih (Nat.le_of_lt_succ (Nat.lt_of_le_of_ne hle ?_))
      rintro rfl
      exact hn hm

end Text
