import Nakode.Lib.Text

/-!
# Byte offsets of UTF-8 text

Rust addresses a string by the bytes of its UTF-8 encoding, and only where a character begins or the
text ends. A text is cut at such an offset into the two parts that make it up (`splitAt?_eq_some_iff`).
The longest end of at most a number of bytes (`utf8Tail`) is an end of the text
(`utf8Tail_append`), is all of it when it fits, and is empty for a text only when not even one
character fits (`utf8Tail_ne_empty`).
-/

namespace Text

open String (utf8Len)

theorem len_ofList (cs : List Char) : len (String.ofList cs) = utf8Len cs :=
  String.utf8ByteSize_ofList cs

theorem len_eq (s : String) : len s = utf8Len s.toList := by
  rw [← len_ofList, String.ofList_toList]

@[simp] theorem len_append (s t : String) : len (s ++ t) = len s + len t :=
  String.utf8ByteSize_append

@[simp] theorem len_empty : len "" = 0 := rfl

@[simp] theorem len_eq_zero {s : String} : len s = 0 ↔ s = "" := String.utf8ByteSize_eq_zero_iff

/-! ## Cutting at an offset -/

/-- The characters before and after a byte offset, when a character begins or the text ends there. -/
def splitChars? : List Char → Nat → Option (List Char × List Char)
  | cs, 0 => some ([], cs)
  | [], _ + 1 => none
  | c :: cs, n + 1 =>
    if n + 1 < c.utf8Size then none
    else (splitChars? cs (n + 1 - c.utf8Size)).map fun (before, after) => (c :: before, after)

theorem splitChars?_eq_some_iff {cs before after : List Char} {n : Nat} :
    splitChars? cs n = some (before, after) ↔ cs = before ++ after ∧ utf8Len before = n := by
  induction cs generalizing n before after with
  | nil => cases n <;> cases before <;> simp [splitChars?, eq_comm]
  | cons c cs ih =>
    cases n with
    | zero =>
      cases before with
      | nil => simp [splitChars?]
      | cons b before =>
        have hpos := b.utf8Size_pos
        simp only [splitChars?, Option.some.injEq, Prod.mk.injEq, List.nil_eq, reduceCtorEq,
          false_and, List.cons_append, List.cons.injEq, utf8Len, false_iff, not_and]
        omega
    | succ n =>
      rw [splitChars?]
      cases before with
      | nil => split <;> simp
      | cons b before =>
        have hpos := c.utf8Size_pos
        split
        · simp only [reduceCtorEq, List.cons_append, List.cons.injEq, utf8Len, false_iff, not_and,
            and_imp]
          rintro rfl -
          omega
        · simp only [Option.map_eq_some_iff, Prod.exists, Prod.mk.injEq, List.cons.injEq,
            List.cons_append, utf8Len]
          constructor
          · rintro ⟨_, _, hsplit, ⟨rfl, rfl⟩, rfl⟩
            obtain ⟨rfl, hlen⟩ := ih.1 hsplit
            exact ⟨⟨rfl, rfl⟩, by omega⟩
          · rintro ⟨⟨rfl, rfl⟩, hlen⟩
            exact ⟨_, _, ih.2 ⟨rfl, by omega⟩, ⟨rfl, rfl⟩, rfl⟩

/-- `str::split_at_checked`. -/
def splitAt? (s : String) (n : Nat) : Option (String × String) :=
  (splitChars? s.toList n).map fun (before, after) => (String.ofList before, String.ofList after)

/-- A text is cut exactly where it is made up of two parts. -/
theorem splitAt?_eq_some_iff {s before after : String} {n : Nat} :
    splitAt? s n = some (before, after) ↔ s = before ++ after ∧ len before = n := by
  simp only [splitAt?, Option.map_eq_some_iff, Prod.exists, Prod.mk.injEq, splitChars?_eq_some_iff]
  constructor
  · rintro ⟨_, _, ⟨hs, hlen⟩, rfl, rfl⟩
    rw [← String.ofList_append, ← hs, String.ofList_toList, len_ofList]
    exact ⟨rfl, hlen⟩
  · rintro ⟨rfl, hlen⟩
    exact ⟨_, _, ⟨String.toList_append, len_eq before ▸ hlen⟩, String.ofList_toList,
      String.ofList_toList⟩

/-- `s.get(start..stop)`. -/
def get? (s : String) (start stop : Nat) : Option String :=
  if stop < start then none
  else (splitAt? s start).bind fun (_, rest) => (splitAt? rest (stop - start)).map (·.1)

/-! ## The end of a text -/

/-- The longest end of at most the given number of bytes. -/
def tailChars (maximum : Nat) : List Char → List Char
  | [] => []
  | c :: cs => if utf8Len (c :: cs) ≤ maximum then c :: cs else tailChars maximum cs

/-- The end of a text from the first character that begins within its last bytes. -/
def utf8Tail (s : String) (maximum : Nat) : String := String.ofList (tailChars maximum s.toList)

theorem tailChars_suffix (maximum : Nat) (cs : List Char) : tailChars maximum cs <:+ cs := by
  induction cs with
  | nil => exact List.suffix_refl _
  | cons c cs ih =>
    rw [tailChars]
    split
    · exact List.suffix_refl _
    · exact ih.trans (List.suffix_cons c cs)

theorem utf8Len_tailChars_le (maximum : Nat) (cs : List Char) :
    utf8Len (tailChars maximum cs) ≤ maximum := by
  induction cs with
  | nil => exact Nat.zero_le _
  | cons c cs ih =>
    rw [tailChars]
    split
    · assumption
    · exact ih

/-- A character fits into four bytes. -/
theorem tailChars_ne_nil {maximum : Nat} {cs : List Char} (hcs : cs ≠ []) (h : 4 ≤ maximum) :
    tailChars maximum cs ≠ [] := by
  induction cs with
  | nil => exact absurd rfl hcs
  | cons c cs ih =>
    rw [tailChars]
    split
    · exact List.cons_ne_nil _ _
    · next hlen =>
      refine ih fun hnil => hlen ?_
      have hfour := c.utf8Size_le_four
      simp only [hnil, utf8Len]
      omega

theorem len_utf8Tail_le (s : String) (maximum : Nat) : len (utf8Tail s maximum) ≤ maximum := by
  rw [utf8Tail, len_ofList]
  exact utf8Len_tailChars_le maximum _

/-- The tail is an end of the text. -/
theorem utf8Tail_append (s : String) (maximum : Nat) : ∃ before, s = before ++ utf8Tail s maximum := by
  obtain ⟨before, hbefore⟩ := tailChars_suffix maximum s.toList
  exact ⟨String.ofList before, by rw [utf8Tail, ← String.ofList_append, hbefore,
    String.ofList_toList]⟩

theorem utf8Tail_ne_empty {s : String} {maximum : Nat} (hs : s ≠ "") (h : 4 ≤ maximum) :
    utf8Tail s maximum ≠ "" := by
  intro hempty
  have hnil := congrArg String.toList hempty
  rw [utf8Tail, String.toList_ofList] at hnil
  exact tailChars_ne_nil (mt String.toList_eq_nil_iff.1 hs) h hnil

/-- A text that fits is its own tail. -/
theorem utf8Tail_eq_self {s : String} {maximum : Nat} (h : len s ≤ maximum) :
    utf8Tail s maximum = s := by
  rw [len_eq] at h
  rw [utf8Tail]
  cases hs : s.toList with
  | nil => rw [tailChars, ← hs, String.ofList_toList]
  | cons c cs =>
    rw [hs] at h
    rw [tailChars, if_pos h, ← hs, String.ofList_toList]

/-- The longest beginning of at most the given number of bytes. -/
def headChars : Nat → List Char → List Char
  | _, [] => []
  | maximum, c :: cs =>
    if c.utf8Size ≤ maximum then c :: headChars (maximum - c.utf8Size) cs else []

/-- The beginning of a text up to the last character boundary within its first bytes. -/
def utf8Head (s : String) (maximum : Nat) : String := String.ofList (headChars maximum s.toList)

theorem headChars_prefix (maximum : Nat) (cs : List Char) : headChars maximum cs <+: cs := by
  induction cs generalizing maximum with
  | nil => exact List.prefix_rfl
  | cons c cs ih =>
    rw [headChars]
    split
    · exact List.cons_prefix_cons.2 ⟨rfl, ih _⟩
    · exact List.nil_prefix

theorem utf8Len_headChars_le (maximum : Nat) (cs : List Char) :
    utf8Len (headChars maximum cs) ≤ maximum := by
  induction cs generalizing maximum with
  | nil => exact Nat.zero_le _
  | cons c cs ih =>
    rw [headChars]
    split
    · have htail := ih (maximum - c.utf8Size)
      rw [String.utf8Len_cons]
      omega
    · exact Nat.zero_le _

/-- No longer beginning fits. -/
theorem utf8Len_le_headChars {maximum : Nat} {part cs : List Char} (hpart : part <+: cs)
    (hfits : utf8Len part ≤ maximum) : utf8Len part ≤ utf8Len (headChars maximum cs) := by
  induction cs generalizing maximum part with
  | nil => rw [List.prefix_nil.1 hpart]; exact Nat.zero_le _
  | cons c cs ih =>
    cases part with
    | nil => exact Nat.zero_le _
    | cons b part =>
      obtain ⟨rfl, htail⟩ := List.cons_prefix_cons.1 hpart
      rw [String.utf8Len_cons] at hfits
      rw [headChars, if_pos (by omega), String.utf8Len_cons, String.utf8Len_cons]
      have hrest : utf8Len part ≤ maximum - b.utf8Size := by omega
      exact Nat.add_le_add_right (ih htail hrest) _

/-! ## Chunks -/

/-- Whole characters are taken as long as they fit, and at least one for each chunk. -/
def chunksFrom (maximum : Nat) (chunk : List Char) (size : Nat) : List Char → List String
  | [] => [String.ofList chunk.reverse]
  | c :: cs =>
    if size + c.utf8Size ≤ maximum then chunksFrom maximum (c :: chunk) (size + c.utf8Size) cs
    else String.ofList chunk.reverse :: chunksFrom maximum [c] c.utf8Size cs

/-- Consecutive parts of a string of at most the given number of bytes each. -/
def utf8Chunks (s : String) (maximum : Nat) : List String :=
  match s.toList with
  | [] => []
  | c :: cs => chunksFrom maximum [c] c.utf8Size cs

theorem chunksFrom_ne_nil (maximum : Nat) (chunk : List Char) (size : Nat) (cs : List Char) :
    chunksFrom maximum chunk size cs ≠ [] := by
  induction cs generalizing chunk size with
  | nil => exact List.cons_ne_nil _ _
  | cons c cs ih =>
    rw [chunksFrom]
    split
    · exact ih _ _
    · exact List.cons_ne_nil _ _

theorem join_chunksFrom (maximum : Nat) (chunk : List Char) (size : Nat) (cs : List Char) :
    String.join (chunksFrom maximum chunk size cs) = String.ofList (chunk.reverse ++ cs) := by
  induction cs generalizing chunk size with
  | nil => simp [chunksFrom]
  | cons c cs ih =>
    rw [chunksFrom]
    split
    · rw [ih]
      simp
    · rw [String.join_cons, ih, ← String.ofList_append]
      rfl

theorem ofList_ne_empty {cs : List Char} (h : cs ≠ []) : String.ofList cs ≠ "" := by
  intro hempty
  have hnil := congrArg String.toList hempty
  rw [String.toList_ofList] at hnil
  exact h hnil

theorem ne_empty_of_mem_chunksFrom {maximum : Nat} {chunk : List Char} {size : Nat}
    {cs : List Char} (hchunk : chunk ≠ []) {s : String}
    (hs : s ∈ chunksFrom maximum chunk size cs) : s ≠ "" := by
  have hne : String.ofList chunk.reverse ≠ "" := ofList_ne_empty (by simpa using hchunk)
  induction cs generalizing chunk size with
  | nil =>
    rw [List.mem_singleton.1 hs]
    exact hne
  | cons c cs ih =>
    rw [chunksFrom] at hs
    split at hs
    · exact ih (List.cons_ne_nil c chunk) hs (ofList_ne_empty (by simp))
    · rcases List.mem_cons.1 hs with rfl | hs
      · exact hne
      · exact ih (List.cons_ne_nil c []) hs (ofList_ne_empty (by simp))

theorem ne_empty_of_mem_utf8Chunks {s chunk : String} {maximum : Nat}
    (h : chunk ∈ utf8Chunks s maximum) : chunk ≠ "" := by
  unfold utf8Chunks at h
  split at h
  · cases h
  · exact ne_empty_of_mem_chunksFrom (List.cons_ne_nil _ _) h

/-- The chunks make up the string. -/
theorem join_utf8Chunks (s : String) (maximum : Nat) : String.join (utf8Chunks s maximum) = s := by
  unfold utf8Chunks
  split
  · next hs => rw [String.toList_eq_nil_iff.1 hs]; rfl
  · next c cs hs =>
    rw [join_chunksFrom, List.reverse_singleton, List.singleton_append, ← hs, String.ofList_toList]

/-- A string that is not empty has a chunk. -/
theorem utf8Chunks_ne_nil {s : String} (h : s ≠ "") (maximum : Nat) :
    utf8Chunks s maximum ≠ [] := by
  unfold utf8Chunks
  split
  · next hs => exact absurd (String.toList_eq_nil_iff.1 hs) h
  · exact chunksFrom_ne_nil _ _ _ _

/-! ## The first chunk -/

/-- A first character, and what fits behind it. -/
def firstChunk (maximum : Nat) : List Char → List Char
  | [] => []
  | c :: cs => c :: headChars (maximum - c.utf8Size) cs

theorem firstChunk_begins (maximum : Nat) (cs : List Char) : firstChunk maximum cs <+: cs := by
  cases cs with
  | nil => exact List.prefix_rfl
  | cons c cs => exact List.cons_prefix_cons.2 ⟨rfl, headChars_prefix _ cs⟩

theorem firstChunk_eq {maximum : Nat} {c : Char} {cs : List Char} :
    firstChunk maximum (c :: cs)
      = if c.utf8Size ≤ maximum then headChars maximum (c :: cs) else [c] := by
  rw [firstChunk, headChars]
  split
  · rfl
  · next hwide =>
    rw [Nat.sub_eq_zero_of_le (by omega)]
    cases cs with
    | nil => rfl
    | cons d cs =>
      have hpos := d.utf8Size_pos
      rw [headChars, if_neg (by omega)]

theorem chunksFrom_eq (maximum : Nat) (chunk : List Char) (size : Nat) (cs : List Char) :
    chunksFrom maximum chunk size cs
      = String.ofList (chunk.reverse ++ headChars (maximum - size) cs)
        :: utf8Chunks (String.ofList (cs.drop (headChars (maximum - size) cs).length)) maximum := by
  induction cs generalizing chunk size with
  | nil => simp [chunksFrom, headChars, utf8Chunks]
  | cons c cs ih =>
    have hpos := c.utf8Size_pos
    rw [chunksFrom, headChars]
    by_cases hfits : size + c.utf8Size ≤ maximum
    · rw [if_pos hfits, if_pos (by omega), ih, Nat.sub_add_eq]
      simp
    · rw [if_neg hfits, if_neg (by omega), utf8Chunks, String.toList_ofList]
      simp

/-- The chunks of a text that is not empty. -/
theorem utf8Chunks_ofList {maximum : Nat} {cs : List Char} (hcs : cs ≠ []) :
    utf8Chunks (String.ofList cs) maximum
      = String.ofList (firstChunk maximum cs)
        :: utf8Chunks (String.ofList (cs.drop (firstChunk maximum cs).length)) maximum := by
  cases cs with
  | nil => exact absurd rfl hcs
  | cons c cs =>
    rw [utf8Chunks, String.toList_ofList]
    show chunksFrom maximum [c] c.utf8Size cs = _
    rw [chunksFrom_eq]
    rfl

/-- A chunk fits, or it is one character that does not. -/
theorem len_le_of_mem_utf8Chunks {s chunk : String} {maximum : Nat}
    (h : chunk ∈ utf8Chunks s maximum) :
    len chunk ≤ maximum ∨ ∃ c : Char, chunk = String.singleton c ∧ maximum < c.utf8Size := by
  rw [← String.ofList_toList (s := s)] at h
  generalize hcs : s.toList = cs at h
  clear hcs
  induction hlen : cs.length using Nat.strong_induction_on generalizing cs with
  | _ n ih =>
    subst hlen
    cases cs with
    | nil => cases h
    | cons c cs =>
      rw [utf8Chunks_ofList (List.cons_ne_nil c cs)] at h
      obtain rfl | h := List.mem_cons.1 h
      · rw [firstChunk_eq]
        split
        · exact .inl (len_ofList _ ▸ utf8Len_headChars_le _ _)
        · next hwide => exact .inr ⟨c, rfl, by omega⟩
      · refine ih _ ?_ _ h rfl
        rw [List.length_drop, firstChunk, List.length_cons, List.length_cons]
        omega

end Text
