import Nakode.Editor.State
import Nakode.Lib.Wrap

/-!
# The window on the prompt

A line is wrapped to the width of the window, and the window shows the visual lines up to that of
the cursor, or from the first one on. The cursor lies in the piece of its line that its position is
in (`wrapDisplayLine_cursor`), and this piece is in the window (`window_shows`).
-/

namespace Nakode.Editor

open Wrap (total pieces Ends)

variable (U : CharTables)

structure EditorWindow where
  lines : List (List Char)
  promptLineStarts : List Bool
  cursorX : UInt16
  cursorY : UInt16

def characterWidth (character : Char) : Nat :=
  if character = '\t' then 4 else (U.width character).getD 0

structure WrappedDisplayLine where
  lines : List (List Char)
  cursor : Option (Nat × Nat)

/-- What is shown for a character, and how wide it is. -/
def rendered (width : Nat) (character : Char) : List Char × Nat :=
  let (rendered, renderedWidth) :=
    if character = '\t' then ([' ', ' ', ' ', ' '], 4)
    else if isControl character then (['\uFFFD'], 1)
    else ([character], characterWidth U character)
  if width < renderedWidth then (['\uFFFD'], 1) else (rendered, renderedWidth)

/-- The variables of the loop of `wrap_display_line`. -/
structure Wrapping where
  lines : List (List Char)
  line : List Char
  displayColumn : Nat
  cursor : Option (Nat × Nat)

/-- The body of the loop. The columns are bounded by the width, so their sum does not overflow. -/
def Wrapping.put (width : Nat) (cursorColumn : Option Nat) (w : Wrapping) (characterIndex : Nat)
    (character : Char) : Wrapping :=
  let (rendered, renderedWidth) := rendered U width character
  let w :=
    if 0 < w.displayColumn ∧ width < w.displayColumn + renderedWidth then
      { w with lines := w.lines ++ [w.line], line := [], displayColumn := 0 }
    else w
  let w :=
    if cursorColumn = some characterIndex then
      { w with cursor := some (w.lines.length, w.displayColumn) }
    else w
  { w with line := w.line ++ rendered, displayColumn := w.displayColumn + renderedWidth }

def Wrapping.putAll (width : Nat) (cursorColumn : Option Nat) :
    Wrapping → Nat → List Char → Wrapping
  | w, _, [] => w
  | w, characterIndex, character :: characters =>
    putAll width cursorColumn (w.put U width cursorColumn characterIndex character)
      (characterIndex + 1) characters

def wrapDisplayLine (text : List Char) (width : Nat) (cursorColumn : Option Nat) :
    WrappedDisplayLine :=
  let w := Wrapping.putAll U width cursorColumn ⟨[], [], 0, none⟩ 0 text
  let cursor :=
    if cursorColumn = some text.length then some (w.lines.length, w.displayColumn) else w.cursor
  ⟨w.lines ++ [w.line], cursor⟩

/-- The variables of the loop of `window`. -/
structure Visual where
  visualLines : List (List Char)
  promptLineStarts : List Bool
  cursor : Nat × Nat

def Visual.put (e : EditorState) (width : Nat) (v : Visual) (row : Nat) (line : List Char) :
    Visual :=
  let wrapped := wrapDisplayLine U line width (if row = e.row then some e.column else none)
  let cursor :=
    match wrapped.cursor with
    | some (cursorRow, cursorColumn) => (v.visualLines.length + cursorRow, cursorColumn)
    | none => v.cursor
  { visualLines := v.visualLines ++ wrapped.lines
    promptLineStarts := v.promptLineStarts ++
      (List.range wrapped.lines.length).map fun visualRow => row == 0 && visualRow == 0
    cursor }

def Visual.putAll (e : EditorState) (width : Nat) : Visual → Nat → List (List Char) → Visual
  | v, _, [] => v
  | v, row, line :: lines => putAll e width (v.put U e width row line) (row + 1) lines

/-- `u16::try_from`. -/
def toU16? (n : Nat) : Option UInt16 := if n < 2 ^ 16 then some (UInt16.ofNat n) else none

def EditorState.window (e : EditorState) (height width : UInt16) : Option EditorWindow := do
  let height := max height.toNat 1
  let width := max width.toNat 1
  let v := Visual.putAll U e width ⟨[], [], (0, 0)⟩ 0 e.lines
  let firstVisualRow := v.cursor.1 - (height - 1)
  let cursorX ← toU16? (min v.cursor.2 (width - 1))
  let cursorY ← toU16? (v.cursor.1 - firstVisualRow)
  some
    { lines := (v.visualLines.drop firstVisualRow).take height
      promptLineStarts := (v.promptLineStarts.drop firstVisualRow).take height
      cursorX
      cursorY }

/-! ## Wrapping -/

def renderedWidth (width : Nat) (character : Char) : Nat := (rendered U width character).2

/-- What is shown for a piece of a line. -/
def shown (width : Nat) (piece : List Char) : List Char :=
  piece.flatMap fun character => (rendered U width character).1

variable {U} {width : Nat}

theorem renderedWidth_le (hwidth : 1 ≤ width) (c : Char) : renderedWidth U width c ≤ width := by
  have hbounded : ∀ r : List Char × Nat,
      (if width < r.2 then (['\uFFFD'], 1) else r).2 ≤ width := by
    intro r
    split
    · exact hwidth
    · omega
  exact hbounded _

theorem shown_concat (piece : List Char) (c : Char) :
    shown U width (piece ++ [c]) = shown U width piece ++ (rendered U width c).1 := by
  rw [shown, List.flatMap_append, List.flatMap_singleton, shown]

/-- The variables of the loop when the last piece has been begun. -/
structure Wrapping.Holds (U : CharTables) (width : Nat) (w : Wrapping) (piece : List Char) :
    Prop where
  line : w.line = shown U width piece
  displayColumn : w.displayColumn = total (renderedWidth U width) piece

namespace Wrapping

variable {w : Wrapping} {piece : List Char} {c : Char} {cursorColumn : Option Nat} {i : Nat}

section

variable (cursorColumn i)

theorem put_of_ends (h : w.Holds U width piece) (hends : Ends (renderedWidth U width) width piece c) :
    w.put U width cursorColumn i c =
      ⟨w.lines ++ [shown U width piece], (rendered U width c).1, renderedWidth U width c,
        if cursorColumn = some i then some (w.lines.length + 1, 0) else w.cursor⟩ := by
  rw [Ends, ← h.displayColumn, renderedWidth] at hends
  rw [put, ← h.line]
  dsimp only
  rw [if_pos hends]
  split <;> simp [renderedWidth]

theorem put_of_not_ends (h : w.Holds U width piece) (hends : ¬Ends (renderedWidth U width) width piece c) :
    w.put U width cursorColumn i c =
      ⟨w.lines, w.line ++ (rendered U width c).1, w.displayColumn + renderedWidth U width c,
        if cursorColumn = some i then some (w.lines.length, w.displayColumn) else w.cursor⟩ := by
  rw [Ends, ← h.displayColumn, renderedWidth] at hends
  rw [put]
  dsimp only
  rw [if_neg hends]
  split <;> rfl

theorem Holds.put_of_ends (h : w.Holds U width piece) (hends : Ends (renderedWidth U width) width piece c) :
    (w.put U width cursorColumn i c).Holds U width [c] := by
  rw [Wrapping.put_of_ends cursorColumn i h hends]
  refine ⟨(List.flatMap_singleton _ _).symm, ?_⟩
  rw [total, List.map_singleton, List.sum_singleton]

theorem Holds.put_of_not_ends (h : w.Holds U width piece) (hends : ¬Ends (renderedWidth U width) width piece c) :
    (w.put U width cursorColumn i c).Holds U width (piece ++ [c]) := by
  rw [Wrapping.put_of_not_ends cursorColumn i h hends]
  exact ⟨by rw [shown_concat, h.line], by rw [Wrap.total_concat, h.displayColumn]⟩

end

/-- The lines of the loop are the pieces of the text. -/
theorem Holds.lines_putAll (h : w.Holds U width piece) (l : List Char) :
    (w.putAll U width cursorColumn i l).lines ++ [(w.putAll U width cursorColumn i l).line]
      = w.lines ++ (pieces (renderedWidth U width) width piece l).map (shown U width) := by
  induction l generalizing w i piece with
  | nil => rw [putAll, pieces, List.map_singleton, h.line]
  | cons c l ih =>
    rw [putAll, pieces]
    by_cases hends : Ends (renderedWidth U width) width piece c
    · rw [if_pos hends, ih (h.put_of_ends _ _ hends), Wrapping.put_of_ends _ _ h hends, List.map_cons,
        List.append_assoc, List.singleton_append]
    · rw [if_neg hends, ih (h.put_of_not_ends _ _ hends),
        Wrapping.put_of_not_ends _ _ h hends]

/-- The cursor is found once. -/
theorem cursor_putAll (hcolumn : ∀ column ∈ cursorColumn, column < i) (l : List Char) :
    (w.putAll U width cursorColumn i l).cursor = w.cursor := by
  induction l generalizing w i with
  | nil => rfl
  | cons c l ih =>
    have hne : cursorColumn ≠ some i := by
      intro heq
      exact Nat.lt_irrefl _ (hcolumn i heq)
    rw [putAll, ih fun column hmem => Nat.lt_succ_of_lt (hcolumn column hmem), put]
    dsimp only
    rw [if_neg hne]
    split <;> rfl

/-- The piece of the text that the cursor lies in: the character after it is in the piece too, but
at the end of the text. -/
theorem Holds.exists_piece (h : w.Holds U width piece) (hcursor : w.cursor = none) (l : List Char)
    {column : Nat} (hcolumn : column ≤ l.length) :
    ∃ earlier left right later,
      pieces (renderedWidth U width) width piece l = earlier ++ (left ++ right) :: later ∧
      earlier.flatten ++ left = piece ++ l.take column ∧ (right = [] → later = []) ∧
      (if column = l.length then
          some ((w.putAll U width (some (i + column)) i l).lines.length,
            (w.putAll U width (some (i + column)) i l).displayColumn)
        else (w.putAll U width (some (i + column)) i l).cursor)
        = some (w.lines.length + earlier.length, total (renderedWidth U width) left) := by
  induction l generalizing w i piece column with
  | nil =>
    obtain rfl : column = 0 := Nat.le_zero.1 hcolumn
    refine ⟨[], piece, [], [], ?_, ?_, fun _ => rfl, ?_⟩
    · rw [pieces, List.append_nil, List.nil_append]
    · simp
    · rw [List.length_nil, if_pos rfl, putAll, h.displayColumn]
      rfl
  | cons c l ih =>
    cases column with
    | zero =>
      have hpast : ∀ column ∈ some (i + 0), column < i + 1 := by simp
      rw [List.length_cons, if_neg (Nat.succ_ne_zero l.length).symm, putAll, Wrapping.cursor_putAll hpast, pieces]
      by_cases hends : Ends (renderedWidth U width) width piece c
      · obtain ⟨more, later, hpieces⟩ := Wrap.exists_pieces (renderedWidth U width) width [c] l
        refine ⟨[piece], [], [c] ++ more, later, ?_, ?_, ?_, ?_⟩
        · rw [if_pos hends, hpieces]
          rfl
        · simp
        · intro hnil
          cases hnil
        · rw [Wrapping.put_of_ends _ _ h hends]
          exact if_pos rfl
      · obtain ⟨more, later, hpieces⟩ :=
          Wrap.exists_pieces (renderedWidth U width) width (piece ++ [c]) l
        refine ⟨[], piece, [c] ++ more, later, ?_, ?_, ?_, ?_⟩
        · rw [if_neg hends, hpieces, List.append_assoc]
          rfl
        · simp
        · intro hnil
          cases hnil
        · rw [Wrapping.put_of_not_ends _ _ h hends, h.displayColumn]
          exact if_pos rfl
    | succ column =>
      have hcolumn := Nat.le_of_succ_le_succ hcolumn
      have hnext : i + (column + 1) = i + 1 + column := by omega
      have hne : some (i + 1 + column) ≠ some i := by
        rw [Ne, Option.some_inj]
        omega
      have hlast : column + 1 = (c :: l).length ↔ column = l.length := Nat.succ_inj
      rw [putAll, pieces, if_congr hlast rfl rfl, List.take_succ_cons, hnext]
      by_cases hends : Ends (renderedWidth U width) width piece c
      · have hput := Wrapping.put_of_ends (some (i + 1 + column)) i h hends
        rw [if_neg hne] at hput
        obtain ⟨earlier, left, right, later, hpieces, hflatten, hright, hfound⟩ :=
          ih (h.put_of_ends (some (i + 1 + column)) i hends) (by rw [hput]; exact hcursor) hcolumn
        refine ⟨piece :: earlier, left, right, later, ?_, ?_, hright, ?_⟩
        · rw [if_pos hends, hpieces, List.cons_append]
        · rw [List.flatten_cons, List.append_assoc, hflatten, List.singleton_append]
        · rw [hfound, hput]
          simp only [List.length_append, List.length_cons, List.length_nil]
          congr 2
          omega
      · have hput := Wrapping.put_of_not_ends (some (i + 1 + column)) i h hends
        rw [if_neg hne] at hput
        obtain ⟨earlier, left, right, later, hpieces, hflatten, hright, hfound⟩ :=
          ih (h.put_of_not_ends (some (i + 1 + column)) i hends) (by rw [hput]; exact hcursor)
            hcolumn
        refine ⟨earlier, left, right, later, ?_, ?_, hright, ?_⟩
        · rw [if_neg hends, hpieces]
        · rw [hflatten, List.append_assoc, List.singleton_append]
        · rw [hfound, hput]

end Wrapping

variable (U width) in
theorem holds_empty : Wrapping.Holds U width ⟨[], [], 0, none⟩ [] := ⟨rfl, rfl⟩

/-- The visual lines of a line. -/
def visualLines (U : CharTables) (width : Nat) (line : List Char) : List (List Char) :=
  (pieces (renderedWidth U width) width [] line).map (shown U width)

theorem lines_wrapDisplayLine (text : List Char) (cursorColumn : Option Nat) :
    (wrapDisplayLine U text width cursorColumn).lines = visualLines U width text :=
  (holds_empty U width).lines_putAll text

theorem cursor_wrapDisplayLine_none (text : List Char) :
    (wrapDisplayLine U text width none).cursor = none :=
  Wrapping.cursor_putAll (by simp) text

/-- The piece of a line that a position is in. -/
structure PieceAt (U : CharTables) (width : Nat) (line : List Char) (column : Nat) where
  earlier : List (List Char)
  left : List Char
  right : List Char
  later : List (List Char)
  pieces_eq : pieces (renderedWidth U width) width [] line = earlier ++ (left ++ right) :: later
  before : earlier.flatten ++ left = line.take column
  last : right = [] → later = []

/-- The pieces of a line are the line. -/
theorem PieceAt.line_eq {line : List Char} {column : Nat} (piece : PieceAt U width line column) :
    line = piece.earlier.flatten ++ (piece.left ++ piece.right) ++ piece.later.flatten := by
  have hflatten := Wrap.flatten_pieces (renderedWidth U width) width [] line
  rw [piece.pieces_eq, List.flatten_append, List.flatten_cons, List.nil_append] at hflatten
  exact hflatten.symm.trans (List.append_assoc _ _ _).symm

/-- A piece fits in the width. -/
theorem PieceAt.total_le {line : List Char} {column : Nat} (piece : PieceAt U width line column)
    (hwidth : 1 ≤ width) : total (renderedWidth U width) (piece.left ++ piece.right) ≤ width := by
  have hfits := Wrap.total_le_of_mem_pieces (renderedWidth U width) width (renderedWidth_le hwidth)
    ((Wrap.total_nil _).trans_le (Nat.zero_le _)) (l := line)
  refine hfits _ ?_
  rw [piece.pieces_eq]
  exact List.mem_append_right _ List.mem_cons_self

variable (U width) in
theorem cursor_wrapDisplayLine {text : List Char} {column : Nat} (hcolumn : column ≤ text.length) :
    ∃ piece : PieceAt U width text column,
      (wrapDisplayLine U text width (some column)).cursor
        = some (piece.earlier.length, total (renderedWidth U width) piece.left) := by
  obtain ⟨earlier, left, right, later, hpieces, hbefore, hlast, hcursor⟩ :=
    (holds_empty U width).exists_piece (i := 0) rfl text hcolumn
  refine ⟨⟨earlier, left, right, later, hpieces, hbefore, hlast⟩, ?_⟩
  simp only [Nat.zero_add, List.length_nil] at hcursor
  rw [wrapDisplayLine, ← hcursor]
  exact if_congr Option.some_inj rfl rfl

/-! ## The window -/

section

variable {e : EditorState} {v : Visual}

theorem visualLines_put (row : Nat) (line : List Char) :
    (v.put U e width row line).visualLines = v.visualLines ++ visualLines U width line := by
  rw [Visual.put, ← lines_wrapDisplayLine]

theorem visualLines_putAll (row : Nat) (lines : List (List Char)) :
    (v.putAll U e width row lines).visualLines
      = v.visualLines ++ lines.flatMap (visualLines U width) := by
  induction lines generalizing v row with
  | nil => rw [Visual.putAll, List.flatMap_nil, List.append_nil]
  | cons line lines ih =>
    rw [Visual.putAll, ih, visualLines_put, List.append_assoc, List.flatMap_cons]

theorem putAll_append (row : Nat) (lines lines' : List (List Char)) :
    v.putAll U e width row (lines ++ lines')
      = (v.putAll U e width row lines).putAll U e width (row + lines.length) lines' := by
  induction lines generalizing v row with
  | nil => rfl
  | cons line lines ih =>
    rw [List.cons_append, Visual.putAll, ih, Visual.putAll, List.length_cons, Nat.add_assoc,
      Nat.add_comm 1]

/-- Below the line of the cursor, the cursor stays where it is. -/
theorem cursor_visual_putAll {row : Nat} (hrow : e.row < row) (lines : List (List Char)) :
    (v.putAll U e width row lines).cursor = v.cursor := by
  induction lines generalizing v row with
  | nil => rfl
  | cons line lines ih =>
    rw [Visual.putAll, ih (Nat.lt_succ_of_lt hrow), Visual.put]
    dsimp only
    rw [if_neg (Nat.ne_of_gt hrow), cursor_wrapDisplayLine_none]

end

/-- A window shows a part of the visual lines, and the cursor in it lies on the line that shows its
position, as wide from its beginning as what stands there, or at the right edge of the window. -/
structure Shows (U : CharTables) (e : EditorState) (height width : Nat) (w : EditorWindow) : Prop
    where
  one_le : 1 ≤ w.lines.length
  le_height : w.lines.length ≤ height
  cursor : ∃ (line : List Char) (piece : PieceAt U width line e.column) (first : Nat),
    e.lines[e.row]? = some line ∧
    w.lines = ((e.lines.flatMap (visualLines U width)).drop first).take height ∧
    first + w.cursorY.toNat
      = ((e.lines.take e.row).flatMap (visualLines U width)).length + piece.earlier.length ∧
    w.lines[w.cursorY.toNat]? = some (shown U width (piece.left ++ piece.right)) ∧
    total (renderedWidth U width) (piece.left ++ piece.right) ≤ width ∧
    w.cursorX.toNat = min (total (renderedWidth U width) piece.left) (width - 1)

theorem toU16?_of_lt {n : Nat} (h : n < 2 ^ 16) : ∃ m, toU16? n = some m ∧ m.toNat = n := by
  refine ⟨UInt16.ofNat n, if_pos h, ?_⟩
  rw [UInt16.toNat_ofNat']
  exact Nat.mod_eq_of_lt h

theorem lines_split {e : EditorState} {line : List Char} (hline : e.lines[e.row]? = some line) :
    e.lines = e.lines.take e.row ++ line :: e.lines.drop (e.row + 1) := by
  obtain ⟨hrow, rfl⟩ := List.getElem?_eq_some_iff.1 hline
  rw [← List.drop_eq_getElem_cons hrow, List.take_append_drop]

/-- The visual line of the cursor is the piece that its position is in. -/
theorem exists_cursor (U : CharTables) (width : Nat) {e : EditorState} {line : List Char} (hline : e.lines[e.row]? = some line)
    (hcolumn : e.column ≤ line.length) :
    ∃ piece : PieceAt U width line e.column,
      (Visual.putAll U e width ⟨[], [], (0, 0)⟩ 0 e.lines).cursor
        = (((e.lines.take e.row).flatMap (visualLines U width)).length + piece.earlier.length,
            total (renderedWidth U width) piece.left) ∧
      (e.lines.flatMap (visualLines U width))[
          ((e.lines.take e.row).flatMap (visualLines U width)).length + piece.earlier.length]?
        = some (shown U width (piece.left ++ piece.right)) := by
  obtain ⟨piece, hpiece⟩ := cursor_wrapDisplayLine U width hcolumn
  have hlength : (e.lines.take e.row).length = e.row :=
    List.length_take_of_le (List.getElem?_eq_some_iff.1 hline).1.le
  have hlines := lines_split hline
  refine ⟨piece, ?_, ?_⟩
  · conv => lhs; rw [hlines]
    rw [putAll_append, hlength, Nat.zero_add, Visual.putAll, cursor_visual_putAll (Nat.lt_succ_self _),
      Visual.put]
    dsimp only
    rw [if_pos rfl, hpiece, visualLines_putAll]
    rfl
  · have hvisual : visualLines U width line = piece.earlier.map (shown U width) ++
        shown U width (piece.left ++ piece.right) :: piece.later.map (shown U width) := by
      rw [visualLines, piece.pieces_eq, List.map_append, List.map_cons]
    have hall : e.lines.flatMap (visualLines U width)
        = (e.lines.take e.row).flatMap (visualLines U width) ++ (visualLines U width line ++
            (e.lines.drop (e.row + 1)).flatMap (visualLines U width)) := by
      conv => lhs; rw [hlines]
      rw [List.flatMap_append, List.flatMap_cons]
    rw [hall, hvisual, List.getElem?_append_right (Nat.le_add_right _ _), Nat.add_sub_cancel_left,
      List.append_assoc, List.getElem?_append_right (List.length_map _).le, List.length_map,
      Nat.sub_self]
    rfl

theorem exists_window {e : EditorState} {line : List Char} (hline : e.lines[e.row]? = some line)
    (hcolumn : e.column ≤ line.length) (height width : UInt16) :
    ∃ w, e.window U height width = some w ∧
      Shows U e (max height.toNat 1) (max width.toNat 1) w := by
  have hheight : max height.toNat 1 ≤ 2 ^ 16 := by
    have := height.toNat_lt
    omega
  have hwidth : max width.toNat 1 ≤ 2 ^ 16 := by
    have := width.toNat_lt
    omega
  have hheight₁ : 1 ≤ max height.toNat 1 := Nat.le_max_right _ _
  have hwidth₁ : 1 ≤ max width.toNat 1 := Nat.le_max_right _ _
  rw [EditorState.window]
  generalize max height.toNat 1 = h at *
  generalize max width.toNat 1 = n at *
  obtain ⟨piece, hcursor, hshown⟩ := exists_cursor U n hline hcolumn
  have hvisual : (Visual.putAll U e n ⟨[], [], (0, 0)⟩ 0 e.lines).visualLines
      = e.lines.flatMap (visualLines U n) := visualLines_putAll 0 e.lines
  generalize Visual.putAll U e n ⟨[], [], (0, 0)⟩ 0 e.lines = v at *
  generalize hrow : ((e.lines.take e.row).flatMap (visualLines U n)).length + piece.earlier.length
    = row at *
  rw [hcursor, hvisual]
  obtain ⟨x, hx, hcursorX⟩ := toU16?_of_lt (n := min (total (renderedWidth U n) piece.left) (n - 1))
    (by omega)
  obtain ⟨y, hy, hcursorY⟩ := toU16?_of_lt (n := row - (row - (h - 1))) (by omega)
  have hlt := (List.getElem?_eq_some_iff.1 hshown).1
  refine ⟨_, by rw [hx, hy]; rfl, ?_, ?_, line, piece, row - (h - 1), hline, rfl, ?_, ?_,
    piece.total_le hwidth₁, hcursorX⟩
  · rw [List.length_take, List.length_drop]
    omega
  · exact List.length_take_le _ _
  · rw [hcursorY, hrow]
    omega
  · rw [hcursorY, List.getElem?_take_of_lt (by omega), List.getElem?_drop, ← hshown]
    congr 1
    omega

end Nakode.Editor
