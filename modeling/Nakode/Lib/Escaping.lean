import Nakode.Lib.Utf8

/-!
# Sizes of printed JSON

Escaping makes a string at most six times as long (`len_quote_le`). What a second escaping adds is
bounded by the sizes before and after the first one (`quote_twice_le`), since the escapes that grow
most at first grow least afterwards.
-/

namespace Text

open String (utf8Len)

/-! ## Characters -/

/-- A text takes at most four bytes for each character. -/
theorem utf8Len_le (cs : List Char) : utf8Len cs ≤ 4 * cs.length := by
  induction cs with
  | nil => exact Nat.le_refl 0
  | cons c cs ih =>
    have := c.utf8Size_le_four
    rw [String.utf8Len_cons, List.length_cons]
    omega

theorem escape_hexDigit : ∀ n < 16,
    (hexDigit n).utf8Size = 1 ∧ utf8Len (escapeChar (hexDigit n)) = 1 := by
  decide

/-- A character stands for itself, or it is escaped. -/
theorem escapeChar_cases (c : Char) :
    escapeChar c = ['\\', '"'] ∨ escapeChar c = ['\\', '\\'] ∨
      escapeChar c = ['\\', 'n'] ∨ escapeChar c = ['\\', 'r'] ∨ escapeChar c = ['\\', 't'] ∨
      escapeChar c = ['\\', 'b'] ∨ escapeChar c = ['\\', 'f'] ∨
      (∃ a b, a < 16 ∧ b < 16 ∧
        escapeChar c = ['\\', 'u', '0', '0', hexDigit a, hexDigit b]) ∨ escapeChar c = [c] := by
  unfold escapeChar
  split
  · simp
  · simp
  · simp
  · simp
  · simp
  · dsimp only
    split
    · simp
    · split
      · simp
      · split
        · next hlow =>
          exact .inr (.inr (.inr (.inr (.inr (.inr (.inr (.inl
            ⟨c.toNat / 16, c.toNat % 16, by omega, by omega, rfl⟩)))))))
        · simp

theorem utf8Len_escapeChar_pos (c : Char) : 0 < utf8Len (escapeChar c) := by
  have hcons : ∀ (a : Char) (rest : List Char), 0 < utf8Len (a :: rest) := by
    intro a rest
    have := a.utf8Size_pos
    rw [String.utf8Len_cons]
    omega
  rcases escapeChar_cases c with h | h | h | h | h | h | h | ⟨_, _, -, -, h⟩ | h <;> rw [h] <;>
    exact hcons ..

/-- The sizes of a character that is escaped once and twice. -/
theorem escapeChar_sizes (c : Char) :
    utf8Len (escapeChar c) ≤ 6 ∧ utf8Len (escapeChar c) ≤ 6 * c.utf8Size ∧
    4 * utf8Len ((escapeChar c).flatMap escapeChar)
      ≤ 3 * utf8Len (escapeChar c) + 10 * c.utf8Size := by
  have hpos := c.utf8Size_pos
  have hfour := c.utf8Size_le_four
  have hshort : ∀ {cs : List Char}, escapeChar c = cs → utf8Len cs = 2 →
      utf8Len (cs.flatMap escapeChar) ≤ 4 →
      utf8Len (escapeChar c) ≤ 6 ∧ utf8Len (escapeChar c) ≤ 6 * c.utf8Size ∧
      4 * utf8Len ((escapeChar c).flatMap escapeChar)
        ≤ 3 * utf8Len (escapeChar c) + 10 * c.utf8Size := by
    intro cs hcs hlen htwice
    rw [hcs]
    omega
  rcases escapeChar_cases c with h | h | h | h | h | h | h | ⟨a, b, ha, hb, h⟩ | h
  · exact hshort h (by decide) (by decide)
  · exact hshort h (by decide) (by decide)
  · exact hshort h (by decide) (by decide)
  · exact hshort h (by decide) (by decide)
  · exact hshort h (by decide) (by decide)
  · exact hshort h (by decide) (by decide)
  · exact hshort h (by decide) (by decide)
  · obtain ⟨hsa, hea⟩ := escape_hexDigit a ha
    obtain ⟨hsb, heb⟩ := escape_hexDigit b hb
    have hlen : utf8Len ['\\', 'u', '0', '0', hexDigit a, hexDigit b] = 6 := by
      simp only [String.utf8Len_cons, String.utf8Len_nil, hsa, hsb]
      decide
    have htwice : utf8Len (['\\', 'u', '0', '0', hexDigit a, hexDigit b].flatMap escapeChar) = 7 := by
      simp only [List.flatMap_cons, List.flatMap_nil, String.utf8Len_append, hea, heb]
      decide
    rw [h]
    omega
  · have hlen : utf8Len [c] = c.utf8Size := by simp
    have htwice : utf8Len ([c].flatMap escapeChar) = c.utf8Size := by simp [h]
    rw [h]
    omega

/-! ## Strings -/

theorem utf8Len_escape_le (cs : List Char) :
    utf8Len (cs.flatMap escapeChar) ≤ 6 * utf8Len cs := by
  induction cs with
  | nil => exact Nat.le_refl 0
  | cons c cs ih =>
    have := (escapeChar_sizes c).2.1
    rw [List.flatMap_cons, String.utf8Len_append, String.utf8Len_cons]
    omega

theorem utf8Len_escape_le_length (cs : List Char) :
    utf8Len (cs.flatMap escapeChar) ≤ 6 * cs.length := by
  induction cs with
  | nil => exact Nat.le_refl 0
  | cons c cs ih =>
    have := (escapeChar_sizes c).1
    rw [List.flatMap_cons, String.utf8Len_append, List.length_cons]
    omega

theorem escape_twice_le (cs : List Char) :
    4 * utf8Len ((cs.flatMap escapeChar).flatMap escapeChar)
      ≤ 3 * utf8Len (cs.flatMap escapeChar) + 10 * utf8Len cs := by
  induction cs with
  | nil => exact Nat.le_refl 0
  | cons c cs ih =>
    have := (escapeChar_sizes c).2.2
    rw [List.flatMap_cons, List.flatMap_append, String.utf8Len_append, String.utf8Len_append,
      String.utf8Len_cons]
    omega

/-- The bytes of a string with its characters escaped. -/
def escapedLen (s : String) : Nat := utf8Len (s.toList.flatMap escapeChar)

@[simp] theorem escapedLen_append (s t : String) :
    escapedLen (s ++ t) = escapedLen s + escapedLen t := by
  simp [escapedLen, List.flatMap_append]

theorem len_quote (s : String) : len (quote s) = escapedLen s + 2 := by
  rw [quote, len_ofList, List.cons_append, String.utf8Len_cons, String.utf8Len_append, escapedLen]
  have : utf8Len ['"'] = 1 ∧ '"'.utf8Size = 1 := by decide
  omega

/-- Escaping makes a string at most six times as long. -/
theorem len_quote_le (s : String) : len (quote s) ≤ 6 * len s + 2 := by
  rw [len_quote, len_eq, escapedLen]
  have := utf8Len_escape_le s.toList
  omega

/-- No escape of a character is longer than six bytes. -/
theorem len_quote_le_length (s : String) : len (quote s) ≤ 6 * s.toList.length + 2 := by
  rw [len_quote, escapedLen]
  have := utf8Len_escape_le_length s.toList
  omega

/-- What a second escaping of a string adds. -/
theorem escapedLen_quote_le (s : String) :
    4 * escapedLen (quote s) ≤ 3 * len (quote s) + 10 * len s + 10 := by
  have htwice := escape_twice_le s.toList
  have hquote : utf8Len (escapeChar '"') = 2 := by decide
  rw [len_quote, len_eq, escapedLen, escapedLen, quote, String.toList_ofList, List.cons_append,
    List.flatMap_cons, List.flatMap_append, String.utf8Len_append, String.utf8Len_append,
    List.flatMap_singleton, hquote]
  omega

/-! ## Values -/

theorem render_str (s : String) : (Json.str s).render = quote s := rfl

/-- The fields of an object take what their parts take, with a colon and a comma each. -/
theorem len_renderFields_le (fields : List (String × Json)) :
    len (Json.renderFields fields)
      ≤ (fields.map fun field => len (quote field.1) + len field.2.render + 2).sum := by
  have hcolon : len ":" = 1 ∧ len "," = 1 := by decide
  induction fields with
  | nil => exact Nat.le_refl 0
  | cons field rest ih =>
    cases rest with
    | nil =>
      simp only [Json.renderFields, len_append, List.map_cons, List.map_nil, List.sum_cons,
        List.sum_nil]
      omega
    | cons next rest =>
      simp only [Json.renderFields, len_append, List.map_cons, List.sum_cons] at ih ⊢
      omega

theorem len_render_obj_le (fields : List (String × Json)) :
    len (Json.obj fields).render
      ≤ (fields.map fun field => len (quote field.1) + len field.2.render + 2).sum + 2 := by
  have hbraces : len "\x7b" = 1 ∧ len "\x7d" = 1 := by decide
  have := len_renderFields_le fields
  simp only [Json.render, len_append]
  omega

/-- A 64-bit number takes at most twenty characters. -/
theorem len_render_int_le {n : Int} (hlow : -2 ^ 63 ≤ n) (hhigh : n < 2 ^ 64) :
    len (Json.int n).render ≤ 84 := by
  have hdigits : ∀ m : Nat, m < 10 ^ 20 → len m.repr ≤ 80 := by
    intro m hm
    have hlen : m.repr.length ≤ 20 := (Nat.length_repr_le_iff (by omega)).2 hm
    have := utf8Len_le m.repr.toList
    rw [String.length_toList] at this
    rw [len_eq]
    omega
  cases n with
  | ofNat m =>
    have := hdigits m (by simp only [Int.ofNat_eq_natCast] at hhigh; omega)
    exact Nat.le_trans this (by omega)
  | negSucc m =>
    have := hdigits (m + 1) (by omega)
    have hminus : len "-" = 1 := by decide
    have heq : (Json.int (Int.negSucc m)).render = "-" ++ (m + 1).repr := rfl
    rw [heq, len_append]
    omega

end Text
