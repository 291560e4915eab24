import Nakode.Lib.Boundary

/-!
# Chunks of a delta

A delta goes out in chunks of a number of bytes at most. Each round of the loop takes that many
bytes, goes back to a character boundary and, where this leaves nothing, takes one character
(`chunkEnd`). So every round goes on (`lt_chunkEnd`), the loop ends without a panic, and it cuts the
text as `Text.utf8Chunks` does (`utf8Chunks_eq`).
-/

namespace Nakode.Sync.Chunks

open String (utf8Len)
open Text (len len_eq len_append len_ofList isCharBoundary isCharBoundary_iff splitAt?
  splitAt?_eq_some_iff get? get?_eq_some_iff headChars headChars_prefix utf8Len_headChars_le
  utf8Len_le_headChars firstChunk firstChunk_eq firstChunk_begins utf8Chunks_ofList
  previousBoundary previousBoundary_spec le_previousBoundary exists_between)

variable {value chunk : String} {start stop maximum : Nat}

/-! ## The loop -/

/-- The inner loop: back to a character boundary, but not before `start`. -/
def backUp (value : String) (start : Nat) : Nat → Nat
  | 0 => 0
  | stop + 1 =>
    if start < stop + 1 ∧ isCharBoundary value (stop + 1) = false then backUp value start stop
    else stop + 1

/-- `value[start..].char_indices().nth(1)`, or the end of the text. -/
def secondChar (value : String) (start : Nat) : Option Nat :=
  (splitAt? value start).map fun (_, rest) =>
    match rest.toList with
    | c :: _ :: _ => start + c.utf8Size
    | _ => len value

/-- Where a chunk ends. A text is shorter than `usize::MAX`, so that the saturation of the sum does
not show in the minimum. -/
def chunkEnd (value : String) (maximumBytes start : Nat) : Option Nat :=
  let stop := backUp value start (min (start + maximumBytes) (len value))
  if stop = start then secondChar value start else some stop

theorem le_backUp (h : start ≤ stop) : start ≤ backUp value start stop := by
  induction stop with
  | zero => exact h
  | succ stop ih =>
    rw [backUp]
    split
    · next hback => exact ih (by omega)
    · exact h

/-- Each round goes on. -/
theorem lt_chunkEnd (hstart : start < len value) (h : chunkEnd value maximum start = some stop) :
    start < stop := by
  rw [chunkEnd] at h
  split at h
  · obtain ⟨⟨_, rest⟩, -, rfl⟩ := Option.map_eq_some_iff.1 h
    dsimp only
    split
    · next c _ _ _ => exact Nat.lt_add_of_pos_right c.utf8Size_pos
    · exact hstart
  · next hne =>
    obtain rfl := Option.some.inj h
    exact Nat.lt_of_le_of_ne (le_backUp (by omega)) (Ne.symm hne)

/-- The outer loop; a slice that is not between character boundaries panics. -/
def chunksFrom (value : String) (maximumBytes start : Nat) (chunks : List String) :
    Option (List String) :=
  if _hstart : start < len value then
    match _hend : chunkEnd value maximumBytes start with
    | none => none
    | some stop =>
      match get? value start stop with
      | none => none
      | some chunk => chunksFrom value maximumBytes stop (chunks ++ [chunk])
  else some chunks
termination_by len value - start
decreasing_by
  have hnext := lt_chunkEnd _hstart _hend
  omega

def utf8Chunks (value : String) (maximumBytes : Nat) : Option (List String) :=
  if value.isEmpty then some [] else chunksFrom value maximumBytes 0 []

/-! ## One round -/

theorem backUp_eq (hstart : isCharBoundary value start = true) (h : start ≤ stop) :
    backUp value start stop = previousBoundary value stop := by
  induction stop with
  | zero => rfl
  | succ stop ih =>
    rw [backUp, previousBoundary]
    by_cases hstop : isCharBoundary value (stop + 1) = true
    · rw [if_neg (by simp [hstop]), if_pos hstop]
    · have hlt : start < stop + 1 := by
        refine Nat.lt_of_le_of_ne h ?_
        rintro rfl
        exact hstop hstart
      rw [if_pos ⟨hlt, Bool.eq_false_iff.2 hstop⟩, if_neg hstop, ih (by omega)]

/-- The last boundary within the budget is behind all characters that fit. -/
theorem previousBoundary_budget (before : String) (cs : List Char) :
    previousBoundary (before ++ String.ofList cs)
        (min (len before + maximum) (len (before ++ String.ofList cs)))
      = len before + utf8Len (headChars maximum cs) := by
  obtain ⟨after, hafter⟩ := headChars_prefix maximum cs
  have hfits := utf8Len_headChars_le maximum cs
  have hcs : utf8Len cs = utf8Len (headChars maximum cs) + utf8Len after := by
    rw [← String.utf8Len_append, hafter]
  have hlen : len (before ++ String.ofList cs) = len before + utf8Len cs := by
    rw [len_append, len_ofList]
  obtain ⟨hle, hboundary⟩ := previousBoundary_spec (before ++ String.ofList cs)
    (min (len before + maximum) (len (before ++ String.ofList cs)))
  refine Nat.le_antisymm ?_ (le_previousBoundary ?_ (by omega))
  · obtain ⟨left, right, htext, hleft⟩ := isCharBoundary_iff.1 hboundary
    rw [← hleft] at hle ⊢
    by_cases hshort : len left ≤ len before
    · omega
    · obtain ⟨part, rfl, hpart⟩ := exists_between htext (by omega)
      have hprefix : part.toList <+: cs := by
        have hchars := congrArg String.toList hpart
        rw [String.toList_ofList, String.toList_append] at hchars
        exact hchars ▸ List.prefix_append _ _
      simp only [len_append, len_eq part] at hle ⊢
      have hbudget : utf8Len part.toList ≤ maximum := by omega
      have hmost := utf8Len_le_headChars hprefix hbudget
      omega
  · refine isCharBoundary_iff.2 ⟨before ++ String.ofList (headChars maximum cs),
      String.ofList after, ?_, ?_⟩
    · rw [String.append_assoc, ← String.ofList_append, hafter]
    · rw [len_append, len_ofList]

/-- A round takes the first chunk of what is left. -/
theorem chunkEnd_eq (before : String) {cs : List Char} (hcs : cs ≠ []) :
    chunkEnd (before ++ String.ofList cs) maximum (len before)
      = some (len before + utf8Len (firstChunk maximum cs)) := by
  have hstart : isCharBoundary (before ++ String.ofList cs) (len before) = true :=
    isCharBoundary_iff.2 ⟨before, String.ofList cs, rfl, rfl⟩
  have hle : len before ≤ len (before ++ String.ofList cs) := by
    rw [len_append]
    exact Nat.le_add_right _ _
  rw [chunkEnd, backUp_eq hstart (by omega), previousBoundary_budget]
  cases cs with
  | nil => exact absurd rfl hcs
  | cons c cs =>
    have hpos := c.utf8Size_pos
    rw [firstChunk_eq]
    by_cases hfits : c.utf8Size ≤ maximum
    · rw [if_pos hfits, if_neg]
      rw [headChars, if_pos hfits, String.utf8Len_cons]
      omega
    · have hsplit : splitAt? (before ++ String.ofList (c :: cs)) (len before)
          = some (before, String.ofList (c :: cs)) := splitAt?_eq_some_iff.2 ⟨rfl, rfl⟩
      rw [if_neg hfits, headChars, if_neg hfits, if_pos (by simp), secondChar, hsplit,
        Option.map_some]
      dsimp only
      rw [String.toList_ofList]
      cases cs with
      | nil => rw [len_append, len_ofList]
      | cons d cs => simp

/-! ## The whole loop -/

/-- The induction is on what is left of the text. -/
theorem chunksFrom_eq (before : String) (cs : List Char) (chunks : List String) :
    chunksFrom (before ++ String.ofList cs) maximum (len before) chunks
      = some (chunks ++ Text.utf8Chunks (String.ofList cs) maximum) := by
  induction hlen : cs.length using Nat.strong_induction_on generalizing before cs chunks with
  | _ n ih =>
    subst hlen
    rw [chunksFrom]
    cases cs with
    | nil => simp [Text.utf8Chunks]
    | cons c cs =>
      have hne : c :: cs ≠ [] := List.cons_ne_nil c cs
      have hafter := List.prefix_iff_eq_append.1 (firstChunk_begins maximum (c :: cs))
      rw [utf8Chunks_ofList hne]
      generalize (c :: cs).drop (firstChunk maximum (c :: cs)).length = after at hafter ⊢
      have hpos := c.utf8Size_pos
      have hlt : len before < len (before ++ String.ofList (c :: cs)) := by
        rw [len_append, len_ofList, String.utf8Len_cons]
        omega
      have htext : before ++ String.ofList (c :: cs)
          = before ++ String.ofList (firstChunk maximum (c :: cs)) ++ String.ofList after := by
        rw [String.append_assoc, ← String.ofList_append, hafter]
      have hslice : get? (before ++ String.ofList (c :: cs)) (len before)
          (len before + utf8Len (firstChunk maximum (c :: cs)))
          = some (String.ofList (firstChunk maximum (c :: cs))) :=
        get?_eq_some_iff.2 ⟨before, String.ofList after, htext, rfl, by rw [len_ofList]⟩
      have hshort : after.length < (c :: cs).length := by
        have hlength := congrArg List.length hafter
        rw [List.length_append, firstChunk, List.length_cons] at hlength
        omega
      have hrest := ih after.length hshort (before ++ String.ofList (firstChunk maximum (c :: cs)))
        after (chunks ++ [String.ofList (firstChunk maximum (c :: cs))]) rfl
      rw [← htext, len_append, len_ofList] at hrest
      rw [dif_pos hlt]
      split
      · next hend =>
        rw [chunkEnd_eq before hne] at hend
        cases hend
      · next stop hend =>
        rw [chunkEnd_eq before hne] at hend
        obtain rfl := Option.some.inj hend
        rw [hslice]
        dsimp only
        rw [hrest, List.append_assoc, List.singleton_append]

/-- The loop ends, without a panic, and cuts the text into what fits. -/
theorem utf8Chunks_eq (value : String) (maximumBytes : Nat) :
    utf8Chunks value maximumBytes = some (Text.utf8Chunks value maximumBytes) := by
  rw [utf8Chunks]
  split
  · next hempty => rw [String.isEmpty_iff.1 hempty]; rfl
  · have h := @chunksFrom_eq maximumBytes "" value.toList []
    rwa [String.ofList_toList, String.empty_append, List.nil_append] at h

/-! ## What is promised -/

/-- The chunks of a text. -/
structure Cut (value : String) (maximumBytes : Nat) (chunks : List String) : Prop where
  nonempty : ∀ chunk ∈ chunks, chunk ≠ ""
  whole : String.join chunks = value
  /-- Each chunk ends on a character boundary of the text. -/
  boundaries : ∀ before after, chunks = before ++ after →
    isCharBoundary value (len (String.join before)) = true
  /-- A chunk fits, or it is one character that does not. -/
  fits : ∀ chunk ∈ chunks,
    len chunk ≤ maximumBytes ∨ ∃ c : Char, chunk = String.singleton c ∧ maximumBytes < c.utf8Size

/-- The loop ends for each text and each maximum, without a panic, with the chunks of the text. -/
theorem utf8_chunks_cut (value : String) (maximumBytes : Nat) :
    ∃ chunks, utf8Chunks value maximumBytes = some chunks ∧ Cut value maximumBytes chunks := by
  have hwhole := Text.join_utf8Chunks value maximumBytes
  refine ⟨_, utf8Chunks_eq value maximumBytes, ?_, hwhole, ?_, ?_⟩
  · intro chunk hchunk
    exact Text.ne_empty_of_mem_utf8Chunks hchunk
  · intro before after hchunks
    rw [hchunks, String.join_append] at hwhole
    exact isCharBoundary_iff.2 ⟨String.join before, String.join after, hwhole.symm, rfl⟩
  · intro chunk hchunk
    exact Text.len_le_of_mem_utf8Chunks hchunk

/-- A character is not cut, and one that is too wide is a chunk of its own. -/
example : utf8Chunks "aé界b" 2 = some ["a", "é", "界", "b"] := by
  rw [utf8Chunks_eq]
  decide

end Nakode.Sync.Chunks
