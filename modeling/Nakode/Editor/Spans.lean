import Nakode.Editor.Focus

/-!
# What a move passes over

What stands before or after the cursor goes on behind its line with a line break, or not at all
(`Behind`), so what a move reads of the flat text it reads within the line. The loops of the editor
over a line stop where these readings do (`retreat_eq`, `advance_eq`).
-/

namespace Nakode.Editor

open Keyed (rposition? rposition?_eq_none_iff)
open Text (isWhitespace)
open Lines (terminated)

section

variable {α : Type} {p : α → Bool} {l rest : List α}

theorem takeWhile_append_of_stop (h : ∀ a ∈ rest.head?, p a = false) :
    (l ++ rest).takeWhile p = l.takeWhile p := by
  induction l with
  | nil =>
    cases rest with
    | nil => rfl
    | cons a rest => rw [List.nil_append, List.takeWhile_cons, h a rfl]; rfl
  | cons a l ih => rw [List.cons_append, List.takeWhile_cons, List.takeWhile_cons, ih]

theorem dropWhile_append_of_stop (h : ∀ a ∈ rest.head?, p a = false) :
    (l ++ rest).dropWhile p = l.dropWhile p ++ rest := by
  induction l with
  | nil =>
    cases rest with
    | nil => rfl
    | cons a rest => rw [List.nil_append, List.dropWhile_cons, h a rfl]; rfl
  | cons a l ih =>
    rw [List.cons_append, List.dropWhile_cons, List.dropWhile_cons, ih]
    split <;> rfl

theorem dropWhile_stops {a : α} (h : l.dropWhile p = a :: rest) : p a = false := by
  have hhead := List.head?_dropWhile_not p l
  rw [h] at hhead
  simpa using hhead

end

/-- Behind a line there is a line break or nothing. -/
def Behind (rest : List Char) : Prop := ∀ c ∈ rest.head?, c = '\n'

theorem behind_above (above : List (List Char)) : Behind (terminated '\n' above).reverse := by
  obtain rfl | ⟨above, line, rfl⟩ := above.eq_nil_or_concat'
  · rintro c ⟨⟩
  · rw [terminated, List.flatMap_append, List.flatMap_singleton, List.reverse_append,
      List.reverse_concat]
    rintro c ⟨⟩
    rfl

theorem behind_below (below : List (List Char)) : Behind (below.flatMap ('\n' :: ·)) := by
  cases below with
  | nil => rintro c ⟨⟩
  | cons line below =>
    rintro c ⟨⟩
    rfl

variable {U : CharTables} {l rest : List Char}

theorem inLine_of_notMem (h : '\n' ∉ l) : ∀ c ∈ l, inLine c = true := by
  intro c hc
  refine decide_eq_true ?_
  rintro rfl
  exact h hc

theorem Behind.stops {p : Char → Bool} (h : Behind rest) (hp : p '\n' = false) :
    ∀ c ∈ rest.head?, p c = false := by
  intro c hc
  rw [h c hc]
  exact hp

theorem takeWhile_inLine (hl : '\n' ∉ l) (h : Behind rest) : (l ++ rest).takeWhile inLine = l := by
  rw [takeWhile_append_of_stop (h.stops rfl), List.takeWhile_eq_self_iff]
  exact inLine_of_notMem hl

theorem dropWhile_inLine (hl : '\n' ∉ l) (h : Behind rest) :
    (l ++ rest).dropWhile inLine = rest := by
  rw [dropWhile_append_of_stop (h.stops rfl), List.dropWhile_eq_nil_iff.2 (inLine_of_notMem hl),
    List.nil_append]

theorem characterClass_eq_whitespace {c : Char} :
    characterClass U c = .whitespace ↔ isWhitespace c = true := by
  rw [characterClass]
  split
  · next h => simp [h]
  · next h => split <;> simp [h]

/-- Within a line, a word is passed over in two loops. -/
theorem wordSpan_eq (hl : '\n' ∉ l) :
    wordSpan U l = l.takeWhile isWhitespace ++
      match l.dropWhile isWhitespace with
      | [] => []
      | c :: cs => (c :: cs).takeWhile fun d => characterClass U d = characterClass U c := by
  have hblank : ∀ c ∈ l, isBlank c = isWhitespace c := by
    intro c hc
    rw [isBlank, inLine_of_notMem hl c hc, Bool.and_true]
  have htake : l.takeWhile isBlank = l.takeWhile isWhitespace := by
    clear hl
    induction l with
    | nil => rfl
    | cons c l ih =>
      obtain ⟨hc, hl⟩ := List.forall_mem_cons.1 hblank
      rw [List.takeWhile_cons, List.takeWhile_cons, hc, ih hl]
  have hdrop : l.dropWhile isBlank = l.dropWhile isWhitespace := by
    have hboth := (List.takeWhile_append_dropWhile (p := isBlank) (l := l)).trans
      (List.takeWhile_append_dropWhile (p := isWhitespace) (l := l)).symm
    rw [htake] at hboth
    exact List.append_cancel_left hboth
  rw [wordSpan, htake, hdrop]
  cases hrest : l.dropWhile isWhitespace with
  | nil => rfl
  | cons c cs =>
    have hc : c ≠ '\n' := by
      rintro rfl
      exact hl ((List.dropWhile_sublist _).mem (hrest ▸ List.mem_cons_self))
    dsimp only
    rw [if_neg hc]

/-- A word ends with its line. -/
theorem wordSpan_append (hl : '\n' ∉ l) (h : Behind rest) :
    wordSpan U (l ++ rest) = wordSpan U l := by
  rw [wordSpan, takeWhile_append_of_stop (h.stops rfl), dropWhile_append_of_stop (h.stops rfl),
    wordSpan]
  congr 1
  cases hword : l.dropWhile isBlank with
  | nil =>
    rw [List.nil_append]
    cases rest with
    | nil => rfl
    | cons c rest =>
      dsimp only
      rw [if_pos (h c rfl)]
  | cons c cs =>
    have hc : c ∈ l := (List.dropWhile_sublist _).mem (hword ▸ List.mem_cons_self)
    have hclass : characterClass U '\n' ≠ characterClass U c := by
      intro hclass
      have hspace : isWhitespace c = true := by
        rw [← characterClass_eq_whitespace (U := U), ← hclass, characterClass_eq_whitespace]
        decide
      have hblank := dropWhile_stops hword
      rw [isBlank, hspace, inLine_of_notMem hl c hc] at hblank
      cases hblank
    rw [List.cons_append]
    dsimp only
    split
    · rfl
    · rw [← List.cons_append, takeWhile_append_of_stop (h.stops (decide_eq_false hclass))]

/-- A word is passed over from the cursor on. -/
theorem wordSpan_begins (U : CharTables) (l : List Char) : wordSpan U l <+: l := by
  have hboth := List.takeWhile_append_dropWhile (p := isBlank) (l := l)
  rw [wordSpan]
  conv => rhs; rw [← hboth]
  refine (List.prefix_append_right_inj _).2 ?_
  split
  · exact List.nil_prefix
  · next c cs hword =>
    rw [hword]
    split
    · exact List.nil_prefix
    · exact List.takeWhile_prefix _

theorem retreat_eq (p : Char → Bool) (left right : List Char) :
    retreat p (left ++ right) left.length = some (left.reverse.dropWhile p).length := by
  induction left using List.reverseRecOn generalizing right with
  | nil => rfl
  | append_singleton left c ih =>
    have hc : (left ++ [c] ++ right)[left.length]? = some c := by simp
    rw [List.length_append, List.length_singleton, retreat, hc, Option.bind_some,
      List.reverse_concat, List.dropWhile_cons]
    split
    · rw [List.append_assoc, ih]
    · simp

theorem advance_eq (p : Char → Bool) (l : List Char) (column : Nat) :
    advance p l column = column + (l.takeWhile p).length := by
  induction l generalizing column with
  | nil => rfl
  | cons c l ih =>
    rw [advance, List.takeWhile_cons]
    split
    · rw [ih, List.length_cons]
      omega
    · rfl

theorem rposition?_append {α : Type} {p : α → Bool} {before after : List α} {a : α}
    (ha : p a = true) (hafter : ∀ b ∈ after, p b = false) :
    rposition? p (before ++ a :: after) = some before.length := by
  induction before with
  | nil => rw [List.nil_append, rposition?, rposition?_eq_none_iff.2 hafter, if_pos ha]; rfl
  | cons b before ih => rw [List.cons_append, rposition?, ih]; rfl

end Nakode.Editor
