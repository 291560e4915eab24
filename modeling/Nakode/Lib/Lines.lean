import Mathlib

/-!
# Lines

A text is its lines with a terminator between them (`List.splitOn`, `List.intercalate`), or pieces
that end with the terminator, but for the last one (`splitInclusive`). The two agree but for a last
line with nothing in it, which is no piece (`splitInclusive_join`).
-/

namespace Lines

variable {α : Type} {x : α} {line l : List α} {lines : List (List α)}

/-- The lines with the terminator between them. -/
def join (x : α) (lines : List (List α)) : List α := [x].intercalate lines

/-- The lines with the terminator behind each of them. -/
def terminated (x : α) (lines : List (List α)) : List α := lines.flatMap (· ++ [x])

/-- The pieces of a text with these lines. -/
def pieces (x : α) : List (List α) → List (List α)
  | [] => []
  | [line] => if line = [] then [] else [line]
  | line :: next :: lines => (line ++ [x]) :: pieces x (next :: lines)

theorem join_cons_cons {next : List α} :
    join x (line :: next :: lines) = line ++ x :: join x (next :: lines) := by
  simp [join, List.intercalate_cons_cons]

theorem join_singleton : join x [line] = line := List.intercalate_singleton

theorem terminated_cons : terminated x (line :: lines) = line ++ x :: terminated x lines := by
  simp [terminated]

theorem join_append (hne : lines ≠ []) : join x lines ++ [x] = terminated x lines := by
  induction lines with
  | nil => exact absurd rfl hne
  | cons line lines ih =>
    cases lines with
    | nil => rw [join_singleton, terminated_cons]; rfl
    | cons next lines =>
      rw [join_cons_cons, terminated_cons, List.append_assoc, List.cons_append,
        ih (List.cons_ne_nil _ _)]

/-- The lines before a place with their terminators, and the lines from there on, are the text. -/
theorem terminated_append_join {before : List (List α)} (hne : lines ≠ []) :
    terminated x before ++ join x lines = join x (before ++ lines) := by
  induction before with
  | nil => rfl
  | cons line before ih =>
    obtain ⟨next, rest, hrest⟩ :=
      List.exists_cons_of_ne_nil (List.append_ne_nil_of_right_ne_nil before hne)
    rw [terminated_cons, List.append_assoc, List.cons_append, ih, List.cons_append, hrest,
      join_cons_cons]

theorem flatten_pieces : (pieces x lines).flatten = join x lines := by
  induction lines with
  | nil => rfl
  | cons line lines ih =>
    cases lines with
    | nil =>
      rw [pieces, join_singleton]
      split
      · next hline => rw [hline]; rfl
      · exact List.append_nil line
    | cons next lines => rw [pieces, List.flatten_cons, ih, join_cons_cons, List.append_assoc]; rfl

theorem length_pieces_le (x : α) (lines : List (List α)) :
    (pieces x lines).length ≤ lines.length := by
  induction lines with
  | nil => exact le_rfl
  | cons line lines ih =>
    cases lines with
    | nil =>
      rw [pieces]
      split
      · exact Nat.zero_le _
      · exact le_rfl
    | cons next lines => exact Nat.succ_le_succ ih

/-- What stands before a piece are the lines before it, with their terminators. -/
theorem flatten_take_pieces {k : Nat} (hk : k < (pieces x lines).length) :
    ((pieces x lines).take k).flatten = terminated x (lines.take k) := by
  induction lines generalizing k with
  | nil => simp [pieces] at hk
  | cons line lines ih =>
    cases k with
    | zero => rfl
    | succ k =>
      cases lines with
      | nil =>
        have hle := length_pieces_le x [line]
        rw [List.length_singleton] at hle
        omega
      | cons next lines =>
        rw [pieces, List.length_cons] at hk
        rw [pieces, List.take_succ_cons, List.flatten_cons, ih (by omega), List.take_succ_cons,
          terminated_cons, List.append_assoc]
        rfl

/-! ## Splitting -/

section
variable [DecidableEq α]

theorem join_splitOn (x : α) (l : List α) : join x (l.splitOn x) = l := List.intercalate_splitOn x

theorem notMem_of_mem_splitOn (h : line ∈ l.splitOn x) : x ∉ line := by
  induction l generalizing line with
  | nil =>
    rw [List.splitOn_nil, List.mem_singleton] at h
    rw [h]
    exact List.not_mem_nil
  | cons a l ih =>
    rw [List.splitOn_cons_eq_if_modifyHead] at h
    split at h
    · obtain rfl | h := List.mem_cons.1 h
      · exact List.not_mem_nil
      · exact ih h
    · next hne =>
      obtain ⟨first, rest, hsplit⟩ := List.exists_cons_of_ne_nil (List.splitOn_ne_nil x l)
      rw [hsplit] at h ih
      obtain rfl | h := List.mem_cons.1 h
      · rw [List.mem_cons, not_or]
        refine ⟨?_, ih List.mem_cons_self⟩
        rintro rfl
        exact hne (beq_self_eq_true x)
      · exact ih (List.mem_cons_of_mem _ h)

/-- The pieces of a text that end with the terminator, and what is left behind the last one. -/
def splitInclusive (x : α) : List α → List (List α)
  | [] => []
  | a :: l =>
    if a = x then [a] :: splitInclusive x l
    else match splitInclusive x l with
      | [] => [[a]]
      | piece :: rest => (a :: piece) :: rest

theorem splitInclusive_append_cons (h : x ∉ line) :
    splitInclusive x (line ++ x :: l) = (line ++ [x]) :: splitInclusive x l := by
  induction line with
  | nil => rw [List.nil_append, splitInclusive, if_pos rfl, List.nil_append]
  | cons a line ih =>
    rw [List.mem_cons, not_or] at h
    rw [List.cons_append, splitInclusive, if_neg (Ne.symm h.1), ih h.2]
    rfl

theorem splitInclusive_of_notMem (h : x ∉ line) :
    splitInclusive x line = if line = [] then [] else [line] := by
  induction line with
  | nil => rfl
  | cons a line ih =>
    rw [List.mem_cons, not_or] at h
    rw [splitInclusive, if_neg (Ne.symm h.1), ih h.2, if_neg (List.cons_ne_nil _ _)]
    by_cases hline : line = []
    · rw [if_pos hline, hline]
    · rw [if_neg hline]

/-- The pieces of a text are its lines with their terminators, but for a last line with nothing in
it. -/
theorem splitInclusive_join (h : ∀ line ∈ lines, x ∉ line) :
    splitInclusive x (join x lines) = pieces x lines := by
  induction lines with
  | nil => rfl
  | cons line lines ih =>
    obtain ⟨hline, hlines⟩ := List.forall_mem_cons.1 h
    cases lines with
    | nil => rw [join_singleton, splitInclusive_of_notMem hline, pieces]
    | cons next lines => rw [join_cons_cons, splitInclusive_append_cons hline, ih hlines, pieces]

end

/-- A piece without the line break at its end, which is a line feed with or without a carriage
return. -/
def stripEnding (piece : List Char) : List Char :=
  if piece.getLast? = some '\n' then
    if piece.dropLast.getLast? = some '\r' then piece.dropLast.dropLast else piece.dropLast
  else piece

/-- `str::lines`. -/
def linesOf (text : List Char) : List (List Char) := (splitInclusive '\n' text).map stripEnding

/-- Lines with no line break are read back. -/
theorem linesOf_terminated {ls : List (List Char)} (h : ∀ line ∈ ls, '\n' ∉ line ∧ '\r' ∉ line) :
    linesOf (terminated '\n' ls) = ls := by
  induction ls with
  | nil => rfl
  | cons line ls ih =>
    obtain ⟨⟨hlf, hcr⟩, hls⟩ := List.forall_mem_cons.1 h
    have hstrip : stripEnding (line ++ ['\n']) = line := by
      rw [stripEnding, if_pos List.getLast?_concat, List.dropLast_concat, if_neg]
      intro hlast
      exact hcr (List.mem_of_getLast? hlast)
    rw [linesOf, terminated_cons, splitInclusive_append_cons hlf, List.map_cons, hstrip]
    exact congrArg (line :: ·) (ih hls)

/-! ## Sizes -/

open String (utf8Len)

theorem length_le_utf8Len (x : Char) (lines : List (List Char)) :
    lines.length ≤ utf8Len (terminated x lines) := by
  induction lines with
  | nil => exact le_rfl
  | cons line lines ih =>
    have hpos := x.utf8Size_pos
    rw [terminated_cons, String.utf8Len_append, String.utf8Len_cons, List.length_cons]
    omega

/-- A line takes its bytes, and each line its terminator's. -/
theorem utf8Len_add_length_le {x : Char} {line : List Char} {lines : List (List Char)}
    (h : line ∈ lines) : utf8Len line + lines.length ≤ utf8Len (terminated x lines) := by
  have hpos := x.utf8Size_pos
  induction lines with
  | nil => cases h
  | cons first lines ih =>
    rw [terminated_cons, String.utf8Len_append, String.utf8Len_cons, List.length_cons]
    obtain rfl | h := List.mem_cons.1 h
    · have hlength := length_le_utf8Len x lines
      omega
    · have hrest := ih h
      omega

end Lines
