import Nakode.Editor.Spans

/-!
# Moves

A move leaves the lines as they are and takes the cursor where the flat text says (`Moves`). There is
one lemma for each move, and `moves` is all of them.
-/

namespace Nakode.Editor

open Text (isWhitespace)
open Lines (terminated)

variable {U : CharTables} {f f' : Focus} {above below : List (List Char)} {left right : List Char}

theorem Focus.text_of_lines (h : f'.lines = f.lines) : f'.buffer.text = f.buffer.text := by
  rw [← f'.text_state 0, ← f.text_state 0]
  exact congrArg (Lines.join '\n') h

theorem Focus.Clean.of_lines (hf : f.Clean) (h : f'.lines = f.lines) : f'.Clean := by
  rw [Focus.Clean, h]
  exact hf

/-- A text with its cursor in another place. -/
theorem Focus.goTo_cursor (h : f'.lines = f.lines) :
    f.buffer.goTo f'.buffer.cursor = f'.buffer := by
  rw [Buffer.goTo, ← Focus.text_of_lines h, Buffer.text, Buffer.cursor, List.take_left,
    List.drop_left]

/-- A move takes a focus to another one. -/
structure Moves (U : CharTables) (f : Focus) (move : Move) (f' : Focus) : Prop where
  lines : f'.lines = f.lines
  step : ∀ revision, (f.state revision).move U move = some (f'.state revision)
  target : Flat.target U f.buffer move = f'.buffer.cursor

theorem length_terminated_concat (above : List (List Char)) (line : List Char) :
    (terminated '\n' (above ++ [line])).length
      = (terminated '\n' above).length + line.length + 1 := by
  simp [terminated, Nat.add_assoc]

theorem cursor_mk :
    (Focus.mk above left right below).buffer.cursor
      = (terminated '\n' above).length + left.length := List.length_append

theorem lineBefore_mk (hleft : '\n' ∉ left) :
    Flat.lineBefore (Focus.mk above left right below).buffer = left.reverse := by
  show (terminated '\n' above ++ left).reverse.takeWhile inLine = _
  rw [List.reverse_append]
  exact takeWhile_inLine (by simpa using hleft) (behind_above above)

theorem lineAfter_mk (hright : '\n' ∉ right) :
    Flat.lineAfter (Focus.mk above left right below).buffer = right :=
  takeWhile_inLine hright (behind_below below)

/-- The lines of a focus do not tell where its cursor is. -/
theorem Focus.Clean.mk (hf : (Focus.mk above left right below).Clean) :
    '\n' ∉ left ∧ '\n' ∉ right := by
  have hline := (hf (left ++ right) (List.mem_append_right _ List.mem_cons_self)).1
  rw [List.mem_append, not_or] at hline
  exact hline

/-! ## One character -/

theorem moves_left (f : Focus) : ∃ f', Moves U f .left f' := by
  obtain ⟨above, left, right, below⟩ := f
  obtain rfl | ⟨left, c, rfl⟩ := left.eq_nil_or_concat'
  · obtain rfl | ⟨above, line, rfl⟩ := above.eq_nil_or_concat'
    · exact ⟨_, rfl, fun _ => rfl, rfl⟩
    · refine ⟨⟨above, line, [], right :: below⟩, by simp [Focus.lines], fun revision => ?_, ?_⟩
      · simp [EditorState.move, EditorState.moveLeft, Focus.state, Focus.lines]
      · rw [Flat.target, cursor_mk, cursor_mk, length_terminated_concat]
        simp
  · refine ⟨⟨above, left, c :: right, below⟩, by simp [Focus.lines], fun revision => ?_, ?_⟩
    · simp [EditorState.move, EditorState.moveLeft, Focus.state, Focus.lines]
    · rw [Flat.target, cursor_mk, cursor_mk]
      simp

theorem moves_right (f : Focus) : ∃ f', Moves U f .right f' := by
  obtain ⟨above, left, right, below⟩ := f
  cases right with
  | nil =>
    cases below with
    | nil =>
      refine ⟨_, rfl, fun revision => ?_, ?_⟩
      · simp [EditorState.move, EditorState.moveRight, Focus.state, Focus.lines]
      · rw [Flat.target, cursor_mk]
        simp [Focus.buffer, Buffer.text]
    | cons line below =>
      refine ⟨⟨above ++ [left], [], line, below⟩, by simp [Focus.lines], fun revision => ?_, ?_⟩
      · simp [EditorState.move, EditorState.moveRight, Focus.state, Focus.lines]
      · rw [Flat.target, cursor_mk, cursor_mk, length_terminated_concat]
        simp only [Focus.buffer, Buffer.text, List.flatMap_cons, List.length_append,
          List.length_cons, List.length_nil]
        omega
  | cons c right =>
    refine ⟨⟨above, left ++ [c], right, below⟩, by simp [Focus.lines], fun revision => ?_, ?_⟩
    · simp [EditorState.move, EditorState.moveRight, Focus.state, Focus.lines]
    · rw [Flat.target, cursor_mk, cursor_mk]
      simp [Focus.buffer, Buffer.text, Nat.add_assoc]
      omega

/-! ## Lines -/

theorem moves_home (hf : f.Clean) : ∃ f', Moves U f .home f' := by
  obtain ⟨above, left, right, below⟩ := f
  refine ⟨⟨above, [], left ++ right, below⟩, rfl, fun revision => rfl, ?_⟩
  rw [Flat.target, lineBefore_mk hf.mk.1, cursor_mk, cursor_mk, List.length_reverse]
  simp

theorem moves_lineEnd (hf : f.Clean) : ∃ f', Moves U f .lineEnd f' := by
  obtain ⟨above, left, right, below⟩ := f
  refine ⟨⟨above, left ++ right, [], below⟩, by simp [Focus.lines], fun revision => ?_, ?_⟩
  · simp [EditorState.move, EditorState.moveEnd, Focus.state, Focus.lines]
  · rw [Flat.target, lineAfter_mk hf.mk.2, cursor_mk, cursor_mk, List.length_append, Nat.add_assoc]

theorem moves_documentStart (f : Focus) : ∃ f', Moves U f .documentStart f' := by
  obtain ⟨first, rest, hlines⟩ : ∃ first rest, f.lines = first :: rest :=
    List.exists_cons_of_ne_nil (List.append_ne_nil_of_right_ne_nil _ (List.cons_ne_nil _ _))
  refine ⟨⟨[], [], first, rest⟩, hlines.symm, fun revision => ?_, rfl⟩
  show some (EditorState.mk f.lines 0 0 revision) = _
  rw [hlines]
  rfl

theorem moves_documentEnd (f : Focus) : ∃ f', Moves U f .documentEnd f' := by
  obtain ⟨init, last, hlines⟩ : ∃ init last, f.lines = init ++ [last] :=
    f.lines.eq_nil_or_concat'.resolve_left
      (List.append_ne_nil_of_right_ne_nil _ (List.cons_ne_nil _ _))
  have hsame : (Focus.mk init last [] []).lines = f.lines := by
    rw [hlines, Focus.lines, List.append_nil]
  refine ⟨⟨init, last, [], []⟩, hsame, fun revision => ?_, ?_⟩
  · show (f.lines[f.lines.length - 1]?.bind fun line =>
      some (EditorState.mk f.lines (f.lines.length - 1) line.length revision)) = _
    rw [hlines]
    simp [Focus.state, Focus.lines]
  · rw [Flat.target, ← Focus.text_of_lines hsame, cursor_mk]
    simp [Focus.buffer, Buffer.text]

theorem moves_up (hf : f.Clean) : ∃ f', Moves U f .up f' := by
  obtain ⟨above, left, right, below⟩ := f
  have hleft := hf.mk.1
  obtain rfl | ⟨above, line, rfl⟩ := above.eq_nil_or_concat'
  · refine ⟨_, rfl, fun _ => rfl, ?_⟩
    have hfirst : (Focus.mk [] left right below).buffer.before.reverse.dropWhile inLine = [] := by
      rw [List.dropWhile_eq_nil_iff]
      exact inLine_of_notMem (by simpa [Focus.buffer, terminated] using hleft)
    rw [Flat.target, hfirst]
  · have hline : '\n' ∉ line := (hf line (by simp [Focus.lines])).1
    have habove : (Focus.mk (above ++ [line]) left right below).buffer.before.reverse.dropWhile inLine
        = '\n' :: (line.reverse ++ (terminated '\n' above).reverse) := by
      show (terminated '\n' (above ++ [line]) ++ left).reverse.dropWhile inLine = _
      rw [List.reverse_append, dropWhile_inLine (by simpa using hleft) (behind_above _)]
      simp [terminated]
    refine ⟨⟨above, line.take left.length, line.drop left.length, (left ++ right) :: below⟩,
      by simp [Focus.lines], fun revision => ?_, ?_⟩
    · simp [EditorState.move, EditorState.moveUp, Focus.state, Focus.lines]
    · rw [Flat.target, habove]
      dsimp only
      rw [takeWhile_inLine (by simpa using hline) (behind_above above), lineBefore_mk hleft,
        cursor_mk]
      simp

theorem moves_down (hf : f.Clean) : ∃ f', Moves U f .down f' := by
  obtain ⟨above, left, right, below⟩ := f
  obtain ⟨hleft, hright⟩ := hf.mk
  have hafter : (Focus.mk above left right below).buffer.after.dropWhile inLine
      = below.flatMap ('\n' :: ·) := dropWhile_inLine hright (behind_below below)
  cases below with
  | nil =>
    refine ⟨_, rfl, fun _ => ?_, ?_⟩
    · simp [EditorState.move, EditorState.moveDown, Focus.state, Focus.lines]
    · rw [Flat.target, hafter]
      rfl
  | cons line below =>
    have hline : '\n' ∉ line := (hf line (by simp [Focus.lines])).1
    refine ⟨⟨above ++ [left ++ right], line.take left.length, line.drop left.length, below⟩,
      by simp [Focus.lines], fun revision => ?_, ?_⟩
    · simp [EditorState.move, EditorState.moveDown, Focus.state, Focus.lines]
    · rw [Flat.target, hafter, List.flatMap_cons, List.cons_append]
      dsimp only
      rw [takeWhile_inLine hline (behind_below below), lineBefore_mk hleft, lineAfter_mk hright,
        cursor_mk, cursor_mk, length_terminated_concat]
      simp
      omega


/-! ## Words -/

theorem length_takeWhile_add {α : Type} (p : α → Bool) (l : List α) :
    (l.takeWhile p).length + (l.dropWhile p).length = l.length := by
  rw [← List.length_append, List.takeWhile_append_dropWhile]

theorem wordLeftInLine_state (hleft : '\n' ∉ left) (revision : Nat) :
    ((Focus.mk above left right below).state revision).wordLeftInLine U
      = some ⟨(Focus.mk above left right below).lines, above.length,
          left.length - (wordSpan U left.reverse).length, revision⟩ := by
  have hline : (Focus.mk above left right below).lines[above.length]? = some (left ++ right) :=
    getElem?_focus
  have hspace := length_takeWhile_add isWhitespace left.reverse
  have hboth := List.takeWhile_append_dropWhile (p := isWhitespace) (l := left.reverse)
  rw [List.length_reverse] at hspace
  rw [wordSpan_eq (by simpa using hleft), List.length_append]
  show ((Focus.mk above left right below).lines[above.length]?.bind fun characters =>
    (retreat isWhitespace characters left.length).bind fun column => _) = _
  rw [hline, Option.bind_some, retreat_eq, Option.bind_some]
  cases hword : left.reverse.dropWhile isWhitespace with
  | nil =>
    rw [hword, List.length_nil, Nat.add_zero] at hspace
    rw [hspace]
    simp [Focus.state]
  | cons c cs =>
    rw [hword] at hboth hspace
    have hchars : left ++ right = (c :: cs).reverse
        ++ ((left.reverse.takeWhile isWhitespace).reverse ++ right) := by
      rw [← List.append_assoc, ← List.reverse_append, hboth, List.reverse_reverse]
    have hc : (left ++ right)[cs.length]? = some c := by
      rw [hchars]
      simp
    have hclass := length_takeWhile_add
      (fun d => decide (characterClass U d = characterClass U c)) (c :: cs)
    have hretreat := retreat_eq (fun d => decide (characterClass U d = characterClass U c))
      (c :: cs).reverse ((left.reverse.takeWhile isWhitespace).reverse ++ right)
    rw [← hchars, List.length_reverse, List.reverse_reverse, List.length_cons] at hretreat
    rw [List.length_cons] at hclass hspace
    dsimp only [List.length_cons]
    rw [hc]
    show (retreat (fun d => decide (characterClass U d = characterClass U c)) (left ++ right)
      (cs.length + 1)).bind _ = _
    rw [hretreat, Option.bind_some]
    congr 2
    omega

theorem wordRightInLine_state (hright : '\n' ∉ right) (revision : Nat) :
    ((Focus.mk above left right below).state revision).wordRightInLine U
      = some ⟨(Focus.mk above left right below).lines, above.length,
          left.length + (wordSpan U right).length, revision⟩ := by
  have hline : (Focus.mk above left right below).lines[above.length]? = some (left ++ right) :=
    getElem?_focus
  have hspace := length_takeWhile_add isWhitespace right
  have hboth := List.takeWhile_append_dropWhile (p := isWhitespace) (l := right)
  rw [wordSpan_eq hright, List.length_append]
  have hdrop : (left ++ right).drop (left.length + (right.takeWhile isWhitespace).length)
      = right.dropWhile isWhitespace := by
    have hrest := congrArg (List.drop (right.takeWhile isWhitespace).length) hboth
    rw [List.drop_left] at hrest
    rw [← List.drop_drop, List.drop_left, ← hrest]
  have hnext : (left ++ right)[left.length + (right.takeWhile isWhitespace).length]?
      = (right.dropWhile isWhitespace).head? := by
    rw [← hdrop, List.head?_drop]
  show ((Focus.mk above left right below).lines[above.length]?.bind fun characters => _) = _
  rw [hline, Option.bind_some]
  dsimp only [Focus.state]
  rw [List.drop_left, advance_eq, hnext, hdrop]
  cases hword : right.dropWhile isWhitespace with
  | nil => rfl
  | cons c cs =>
    dsimp only [List.head?_cons]
    rw [advance_eq, Nat.add_assoc]

theorem moves_back (U : CharTables) (above below : List (List Char)) {left : List Char}
    (right : List Char) (hleft : '\n' ∉ left) :
    ∃ f' : Focus, f'.lines = (Focus.mk above left right below).lines ∧
      (∀ revision, ((Focus.mk above left right below).state revision).wordLeftInLine U
        = some (f'.state revision)) ∧
      f'.buffer.cursor
        = (terminated '\n' above).length + left.length - (wordSpan U left.reverse).length := by
  have hle := (wordSpan_begins U left.reverse).length_le
  rw [List.length_reverse] at hle
  have hlines : (Focus.mk above (left.take (left.length - (wordSpan U left.reverse).length))
      (left.drop (left.length - (wordSpan U left.reverse).length) ++ right) below).lines
      = (Focus.mk above left right below).lines := by
    rw [Focus.lines, ← List.append_assoc, List.take_append_drop]
    rfl
  refine ⟨_, hlines, ?_, ?_⟩
  · intro revision
    rw [wordLeftInLine_state hleft, Focus.state, hlines]
    simp
  · rw [cursor_mk, List.length_take]
    omega

/-- Behind the beginning of a line, a word is passed over within the line. -/
theorem wordMove_before (hleft : '\n' ∉ left) (hempty : left ≠ []) :
    wordMove U (Focus.mk above left right below).buffer.before.reverse
      = wordSpan U left.reverse := by
  show wordMove U (terminated '\n' above ++ left).reverse = _
  obtain ⟨c, cs, hcs⟩ := List.exists_cons_of_ne_nil (mt List.reverse_eq_nil_iff.1 hempty)
  have hc : c ≠ '\n' := by
    rintro rfl
    exact hleft (List.mem_reverse.1 (hcs ▸ List.mem_cons_self))
  rw [← wordSpan_append (by simpa using hleft) (behind_above above), List.reverse_append, hcs,
    List.cons_append, wordMove, if_neg hc]

theorem moves_wordLeft (hf : f.Clean) : ∃ f', Moves U f .wordLeft f' := by
  obtain ⟨above, left, right, below⟩ := f
  have hleft := hf.mk.1
  by_cases hempty : left = []
  · subst hempty
    obtain rfl | ⟨above, line, rfl⟩ := above.eq_nil_or_concat'
    · exact ⟨_, rfl, fun _ => rfl, rfl⟩
    · have hline : '\n' ∉ line := (hf line (by simp [Focus.lines])).1
      obtain ⟨f', hlines, hstep, hcursor⟩ := moves_back U above (right :: below) [] hline
      refine ⟨f', hlines.trans (by simp [Focus.lines]), fun revision => ?_, ?_⟩
      · rw [← hstep]
        simp [EditorState.move, EditorState.moveWordLeft, Focus.state, Focus.lines]
      · have habove : (Focus.mk (above ++ [line]) [] right below).buffer.before.reverse
            = '\n' :: (line.reverse ++ (terminated '\n' above).reverse) := by
          simp [Focus.buffer, terminated]
        rw [Flat.target, habove, wordMove, if_pos rfl,
          wordSpan_append (by simpa using hline) (behind_above above), hcursor, cursor_mk,
          length_terminated_concat, List.length_cons, List.length_nil]
        omega
  · obtain ⟨f', hlines, hstep, hcursor⟩ := moves_back U above below right hleft
    refine ⟨f', hlines, fun revision => ?_, ?_⟩
    · rw [← hstep]
      simp [EditorState.move, EditorState.moveWordLeft, Focus.state, hempty]
    · rw [Flat.target, wordMove_before hleft hempty, hcursor, cursor_mk]

theorem moves_forth (U : CharTables) (above below : List (List Char)) (left : List Char)
    {right : List Char} (hright : '\n' ∉ right) :
    ∃ f' : Focus, f'.lines = (Focus.mk above left right below).lines ∧
      (∀ revision, ((Focus.mk above left right below).state revision).wordRightInLine U
        = some (f'.state revision)) ∧
      f'.buffer.cursor
        = (terminated '\n' above).length + left.length + (wordSpan U right).length := by
  have hle := (wordSpan_begins U right).length_le
  refine ⟨⟨above, left ++ right.take (wordSpan U right).length,
    right.drop (wordSpan U right).length, below⟩, ?_, ?_, ?_⟩
  · simp [Focus.lines]
  · intro revision
    rw [wordRightInLine_state hright]
    simp [Focus.state, Focus.lines, hle]
  · rw [cursor_mk, List.length_append, List.length_take]
    omega

theorem moves_wordRight (hf : f.Clean) : ∃ f', Moves U f .wordRight f' := by
  obtain ⟨above, left, right, below⟩ := f
  have hright := hf.mk.2
  cases right with
  | nil =>
    cases below with
    | nil =>
      refine ⟨_, rfl, fun _ => ?_, rfl⟩
      simp [EditorState.move, EditorState.moveWordRight, Focus.state, Focus.lines]
    | cons line below =>
      have hline : '\n' ∉ line := (hf line (by simp [Focus.lines])).1
      obtain ⟨f', hlines, hstep, hcursor⟩ := moves_forth U (above ++ [left]) below [] hline
      refine ⟨f', hlines.trans (by simp [Focus.lines]), fun revision => ?_, ?_⟩
      · rw [← hstep]
        simp [EditorState.move, EditorState.moveWordRight, Focus.state, Focus.lines]
      · have hafter : (Focus.mk above left [] (line :: below)).buffer.after
            = '\n' :: (line ++ below.flatMap ('\n' :: ·)) := rfl
        rw [Flat.target, hafter, wordMove, if_pos rfl,
          wordSpan_append hline (behind_below below), hcursor, cursor_mk,
          length_terminated_concat, List.length_cons, List.length_nil]
        omega
  | cons c right =>
    obtain ⟨f', hlines, hstep, hcursor⟩ := moves_forth U above below left hright
    refine ⟨f', hlines, fun revision => ?_, ?_⟩
    · rw [← hstep]
      simp [EditorState.move, EditorState.moveWordRight, Focus.state, Focus.lines]
    · have hmove : wordMove U (c :: right ++ below.flatMap ('\n' :: ·))
          = wordSpan U (c :: right) := by
        have hc : c ≠ '\n' := by
          rintro rfl
          exact hright List.mem_cons_self
        rw [← wordSpan_append hright (behind_below below), List.cons_append, wordMove, if_neg hc]
      show (Focus.mk above left (c :: right) below).buffer.cursor
        + (wordMove U (c :: right ++ below.flatMap ('\n' :: ·))).length = _
      rw [hmove, hcursor, cursor_mk]

/-- Every move takes a focus to the place that the flat text says. -/
theorem moves (U : CharTables) (hf : f.Clean) (move : Move) : ∃ f', Moves U f move f' := by
  cases move with
  | left => exact moves_left f
  | right => exact moves_right f
  | wordLeft => exact moves_wordLeft hf
  | wordRight => exact moves_wordRight hf
  | up => exact moves_up hf
  | down => exact moves_down hf
  | home => exact moves_home hf
  | lineEnd => exact moves_lineEnd hf
  | documentStart => exact moves_documentStart f
  | documentEnd => exact moves_documentEnd f

end Nakode.Editor
