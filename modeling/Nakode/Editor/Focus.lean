import Nakode.Editor.Flat

/-!
# The line with the cursor

A text with its cursor is the lines above the cursor, what stands before and after it in its line,
and the lines below (`Focus`). This is a state of the editor and it is a flat text with a cursor, so
an editor represents a flat text where both are of one focus (`Represents`).
-/

namespace Nakode.Editor

open String (utf8Len)
open Text (splitChars? splitChars?_eq_some_iff)
open Lines (terminated terminated_cons join)

structure Focus where
  above : List (List Char)
  left : List Char
  right : List Char
  below : List (List Char)

namespace Focus

variable (f : Focus)

def lines : List (List Char) := f.above ++ (f.left ++ f.right) :: f.below

def state (revision : Nat) : EditorState := ⟨f.lines, f.above.length, f.left.length, revision⟩

def buffer : Buffer Char :=
  ⟨terminated '\n' f.above ++ f.left, f.right ++ f.below.flatMap ('\n' :: ·)⟩

/-- No line has a line break in it. -/
def Clean : Prop := ∀ line ∈ f.lines, '\n' ∉ line ∧ '\r' ∉ line

theorem text_state (revision : Nat) : (f.state revision).text = f.buffer.text := by
  have hbelow : ∀ (line : List Char) (below : List (List Char)),
      join '\n' (line :: below) = line ++ below.flatMap ('\n' :: ·) := by
    intro line below
    induction below generalizing line with
    | nil => rw [Lines.join_singleton, List.flatMap_nil, List.append_nil]
    | cons next below ih => rw [Lines.join_cons_cons, ih, List.flatMap_cons]; rfl
  show join '\n' (f.above ++ (f.left ++ f.right) :: f.below) = _
  rw [← Lines.terminated_append_join (List.cons_ne_nil _ _), hbelow, buffer, Buffer.text]
  simp

end Focus

/-- The number of characters before the cursor. -/
def EditorState.offset (e : EditorState) : Nat :=
  ((e.lines.take e.row).map (·.length + 1)).sum + e.column

theorem length_terminated (lines : List (List Char)) :
    (terminated '\n' lines).length = (lines.map (·.length + 1)).sum := by
  rw [terminated, List.length_flatMap]
  simp

theorem Focus.offset_state (f : Focus) (revision : Nat) :
    (f.state revision).offset = f.buffer.cursor := by
  show ((f.lines.take f.above.length).map (·.length + 1)).sum + f.left.length = _
  rw [Focus.lines, List.take_left, ← length_terminated, Focus.buffer, Buffer.cursor,
    List.length_append]

/-- The lines and the cursor of an editor are those of a flat text. -/
def Represents (e : EditorState) (b : Buffer Char) : Prop :=
  ∃ (f : Focus) (revision : Nat), f.Clean ∧ e = f.state revision ∧ b = f.buffer

/-- An operation does not panic and gives an editor that represents a flat text. -/
def Yields (result : Option EditorState) (b : Buffer Char) : Prop :=
  ∃ e, result = some e ∧ Represents e b

theorem Focus.Clean.yields {f : Focus} (h : f.Clean) (revision : Nat) :
    Yields (some (f.state revision)) f.buffer :=
  ⟨_, rfl, f, revision, h, rfl, rfl⟩

theorem Focus.Clean.yields_of {f : Focus} (h : f.Clean) (revision : Nat)
    {result : Option EditorState} {b : Buffer Char} (hresult : result = some (f.state revision))
    (hb : b = f.buffer) : Yields result b :=
  ⟨_, hresult, f, revision, h, rfl, hb⟩

theorem Focus.clean_iff {above below : List (List Char)} {left right : List Char} :
    (Focus.mk above left right below).Clean ↔
      (∀ line ∈ above, '\n' ∉ line ∧ '\r' ∉ line) ∧ ('\n' ∉ left ∧ '\r' ∉ left) ∧
        ('\n' ∉ right ∧ '\r' ∉ right) ∧ ∀ line ∈ below, '\n' ∉ line ∧ '\r' ∉ line := by
  rw [Focus.Clean, Focus.lines, List.forall_mem_append, List.forall_mem_cons]
  simp only [List.mem_append, not_or]
  tauto

theorem unbroken_of_sublist {l l' : List Char} (h : l.Sublist l') (hl : '\n' ∉ l' ∧ '\r' ∉ l') :
    '\n' ∉ l ∧ '\r' ∉ l :=
  ⟨fun hc => hl.1 (h.subset hc), fun hc => hl.2 (h.subset hc)⟩

/-! ## Lines by their index -/

section

variable {α : Type} {above below : List α} {line next : α}

theorem getElem?_focus : (above ++ line :: below)[above.length]? = some line := by simp

theorem set_focus : (above ++ line :: below).set above.length next = above ++ next :: below := by
  simp

/-- The line below is taken out. -/
theorem eraseIdx_focus :
    (above ++ line :: next :: below).eraseIdx (above.length + 1) = above ++ line :: below := by
  rw [List.eraseIdx_append_of_length_le (Nat.le_succ _), Nat.succ_sub (Nat.le_refl _), Nat.sub_self]
  rfl

end

theorem insertLine_focus {above below : List (List Char)} {line next : List Char} :
    insertLine (above ++ line :: below) (above.length + 1) next
      = some (above ++ line :: next :: below) := by
  rw [insertLine, if_pos (by simp)]
  have hinsert : (above ++ line :: below).insertIdx (above.length + 1) next
      = above ++ line :: next :: below := by
    induction above with
    | nil => rfl
    | cons first above ih =>
      rw [List.cons_append, List.length_cons, List.insertIdx_succ_cons, ih, List.cons_append]
  rw [hinsert]

/-! ## Characters by their index -/

theorem getElem?_charIndices (offset : Nat) (cs : List Char) (i : Nat) :
    (charIndices offset cs)[i]? = cs[i]?.map fun c => (offset + utf8Len (cs.take i), c) := by
  induction cs generalizing offset i with
  | nil => rfl
  | cons c cs ih =>
    cases i with
    | zero => rfl
    | succ i =>
      rw [charIndices, List.getElem?_cons_succ, ih, List.getElem?_cons_succ, List.take_succ_cons,
        String.utf8Len_cons, Nat.add_assoc, Nat.add_comm c.utf8Size]

theorem charToByte_eq (text : List Char) (i : Nat) :
    charToByte text i = utf8Len (text.take i) := by
  rw [charToByte, getElem?_charIndices]
  cases h : text[i]? with
  | none => rw [List.take_of_length_le (List.getElem?_eq_none_iff.1 h)]; rfl
  | some c => rw [Option.map_some, Nat.zero_add]

theorem charToByte_append (before after : List Char) :
    charToByte (before ++ after) before.length = utf8Len before := by
  rw [charToByte_eq, List.take_left]

theorem splitChars?_append (before after : List Char) :
    splitChars? (before ++ after) (utf8Len before) = some (before, after) :=
  splitChars?_eq_some_iff.2 ⟨rfl, rfl⟩

theorem replaceRange_append (before gone after replacement : List Char) :
    replaceRange (before ++ (gone ++ after)) (utf8Len before) (utf8Len (before ++ gone)) replacement
      = some (before ++ replacement ++ after) := by
  rw [replaceRange, String.utf8Len_append, if_neg (by omega), splitChars?_append, Option.bind_some]
  dsimp only
  rw [Nat.add_sub_cancel_left, splitChars?_append, Option.map_some]

end Nakode.Editor
