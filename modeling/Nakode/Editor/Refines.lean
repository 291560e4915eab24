import Nakode.Editor.Edits
import Nakode.Editor.Window

/-!
# The editor refines a flat text

Every operation of the editor does on the lines what it does on the flat text (`step_yields`), so
after any operations the editor holds what they make of the flat text, and none of them panics
(`run_yields`). What is read of the editor is then read of a flat text and its lines (`Refines`).
-/

namespace Nakode.Editor

variable {U : CharTables} {e : EditorState} {b : Buffer Char}

/-! ## Runs -/

theorem move_yields (move : Move) (h : Represents e b) :
    Yields (e.move U move) (b.goTo (Flat.target U b move)) := by
  obtain ⟨f, revision, hf, rfl, rfl⟩ := h
  obtain ⟨f', hmoves⟩ := moves U hf move
  have hclean : f'.Clean := hf.of_lines hmoves.lines
  refine hclean.yields_of revision (hmoves.step revision) ?_
  rw [hmoves.target]
  exact Focus.goTo_cursor hmoves.lines

/-- A move stays in the text. -/
theorem target_le (U : CharTables) (move : Move) (h : Represents e b) :
    Flat.target U b move ≤ b.text.length := by
  obtain ⟨f, revision, hf, rfl, rfl⟩ := h
  obtain ⟨f', hmoves⟩ := moves U hf move
  rw [hmoves.target, ← Focus.text_of_lines hmoves.lines]
  exact f'.buffer.cursor_le

theorem erase_yields (deletion : Deletion) (h : Represents e b) :
    Yields (e.erase U deletion) (b.eraseTo (Flat.reach U b deletion)) := by
  cases deletion with
  | backspace => exact backspace_yields U h
  | delete => exact delete_yields U h
  | deleteWordBackward => exact deleteWordBackward_yields U h
  | deleteToLineStart => exact deleteToLineStart_yields U h

theorem step_yields (op : Op) (h : Represents e b) : Yields (e.step U op) (Flat.step U b op) := by
  cases op with
  | setText text => exact setText_yields e text
  | clear => exact ⟨_, rfl, represents_empty _⟩
  | insertChar character => exact insertChar_yields character h
  | insertStr text => exact insertStr_yields text h
  | insertNewline => exact insertNewline_yields h
  | erase deletion => exact erase_yields deletion h
  | move move => exact move_yields move h
  | replaceTokenBeforeCursor replacement => exact replaceTokenBeforeCursor_yields replacement h

theorem run_yields (U : CharTables) (ops : List Op) :
    Yields (EditorState.run U ops) (Flat.run U ops) := by
  have hrun : ∀ (ops : List Op) (e : EditorState) (b : Buffer Char), Represents e b →
      Yields (ops.foldlM (EditorState.step U) e) (ops.foldl (Flat.step U) b) := by
    intro ops
    induction ops with
    | nil => exact fun e b h => ⟨e, rfl, h⟩
    | cons op ops ih => exact fun e b h => (step_yields op h).bind fun e' h' => ih e' _ h'
  exact hrun ops _ _ (represents_empty 0)

/-! ## What is read of the editor -/

/-- A deletion takes out what stands between the cursor and where its move takes it. -/
def ErasesUpTo (e e' moved : EditorState) : Prop :=
  e'.text = e.text.take (min e.offset moved.offset) ++ e.text.drop (max e.offset moved.offset) ∧
    e'.offset = min e.offset moved.offset

structure Refines (U : CharTables) (e : EditorState) (b : Buffer Char) : Prop where
  lines_ne_nil : e.lines ≠ []
  unbroken : ∀ line ∈ e.lines, '\n' ∉ line ∧ '\r' ∉ line
  position : ∃ line, e.lines[e.row]? = some line ∧ e.column ≤ line.length
  text : e.text = b.text
  offset : e.offset = b.cursor
  erase : ∀ deletion, ∃ e' moved, e.erase U deletion = some e' ∧
    e.move U (Flat.moveOf (e.column == 0) deletion) = some moved ∧ ErasesUpTo e e' moved
  window : ∀ height width : UInt16, ∃ w, e.window U height width = some w ∧
    Shows U e (max height.toNat 1) (max width.toNat 1) w

theorem Represents.text (h : Represents e b) : e.text = b.text := by
  obtain ⟨f, revision, hf, rfl, rfl⟩ := h
  exact f.text_state revision

theorem Represents.offset (h : Represents e b) : e.offset = b.cursor := by
  obtain ⟨f, revision, hf, rfl, rfl⟩ := h
  exact f.offset_state revision

theorem Represents.position (h : Represents e b) :
    ∃ line, e.lines[e.row]? = some line ∧ e.column ≤ line.length := by
  obtain ⟨f, revision, hf, rfl, rfl⟩ := h
  refine ⟨f.left ++ f.right, getElem?_focus, ?_⟩
  rw [List.length_append]
  exact Nat.le_add_right _ _

theorem Represents.lineStart (h : Represents e b) :
    (Flat.lineBefore b).isEmpty = (e.column == 0) := by
  obtain ⟨⟨above, left, right, below⟩, revision, hf, rfl, rfl⟩ := h
  rw [isEmpty_lineBefore hf.mk.1]
  cases left <;> rfl

theorem Represents.erases (h : Represents e b) (deletion : Deletion) :
    ∃ e' moved, e.erase U deletion = some e' ∧
      e.move U (Flat.moveOf (e.column == 0) deletion) = some moved ∧ ErasesUpTo e e' moved := by
  obtain ⟨e', he', herased⟩ := erase_yields (U := U) deletion h
  obtain ⟨moved, hmoved, hmove⟩ := move_yields (U := U) (Flat.moveOf (e.column == 0) deletion) h
  have hreach : Flat.target U b (Flat.moveOf (e.column == 0) deletion) = Flat.reach U b deletion := by
    rw [Flat.reach, h.lineStart]
  have hbound : Flat.reach U b deletion ≤ b.text.length := target_le U _ h
  have hcursor : moved.offset = Flat.reach U b deletion := by
    rw [hmove.offset, hreach, Buffer.cursor_goTo b hbound]
  refine ⟨e', moved, he', hmoved, ?_, ?_⟩
  · rw [herased.text, Buffer.text_eraseTo, hcursor, h.text, h.offset]
  · rw [herased.offset, Buffer.cursor_eraseTo, hcursor, h.offset]

theorem Represents.refines (h : Represents e b) : Refines U e b where
  lines_ne_nil := by
    obtain ⟨line, hline, -⟩ := h.position
    intro hnil
    rw [hnil] at hline
    cases hline
  unbroken := by
    obtain ⟨f, revision, hf, rfl, rfl⟩ := h
    exact hf
  position := h.position
  text := h.text
  offset := h.offset
  erase := h.erases
  window := by
    obtain ⟨line, hline, hcolumn⟩ := h.position
    exact exists_window hline hcolumn

/-- After any operations on the empty editor, none of which panics, the editor is a flat text with
a cursor in it, on which the same operations have been made. -/
theorem editor_refines (U : CharTables) (ops : List Op) :
    ∃ e, EditorState.run U ops = some e ∧ Refines U e (Flat.run U ops) := by
  obtain ⟨e, hrun, he⟩ := run_yields U ops
  exact ⟨e, hrun, he.refines⟩

/-- At the beginning of a line, a word deletion goes back over the line break only, and the move
over the word before it as well. -/
theorem word_deletion_at_line_start :
    ¬∀ (U : CharTables) (ops : List Op) (e e' moved : EditorState),
      EditorState.run U ops = some e → e.deleteWordBackward U = some e' →
      e.moveWordLeft U = some moved → ErasesUpTo e e' moved := by
  intro h
  have herases := h ⟨Char.isAlphanum, fun _ => some 1⟩ [.insertStr ['a', 'b', '\n']] _ _ _ rfl rfl rfl
  exact absurd herases.1 (by decide)

end Nakode.Editor
