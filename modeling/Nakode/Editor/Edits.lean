import Nakode.Editor.Moves

/-!
# Edits

Each edit of the lines is the edit of the flat text that its name says: an insertion inserts what is
left of a text when its line breaks are line feeds and other controls are replaced, and a deletion
erases up to the position that its move reaches.
-/

namespace Nakode.Editor

open Keyed (rposition? rposition?_eq_none_iff)
open Lines (terminated)
open Text (isWhitespace)

variable {U : CharTables} {f : Focus} {above below : List (List Char)} {left right : List Char}
  {e : EditorState} {b : Buffer Char}

/-! ## Insertions -/

theorem insertVisibleChar_yields {c : Char} (h : Represents e b) (hc : c ≠ '\n' ∧ c ≠ '\r') :
    Yields (e.insertVisibleChar c) (b.insert [c]) := by
  obtain ⟨⟨above, left, right, below⟩, revision, hf, rfl, rfl⟩ := h
  obtain ⟨habove, hleft, hright, hbelow⟩ := Focus.clean_iff.1 hf
  have hclean : (Focus.mk above (left ++ [c]) right below).Clean := by
    refine Focus.clean_iff.2 ⟨habove, ?_, hright, hbelow⟩
    simp [hleft, Ne.symm hc.1, Ne.symm hc.2]
  refine hclean.yields_of ((revision + 1) % 2 ^ 64) ?_ ?_
  · simp only [EditorState.insertVisibleChar, Focus.state, Focus.lines, getElem?_focus,
      Option.bind_eq_bind, Option.bind_some, insertAt, charToByte_append, splitChars?_append,
      Option.map_some, set_focus, EditorState.markChanged]
    simp
  · simp [Focus.buffer, Buffer.insert]

theorem insertNewline_yields (h : Represents e b) : Yields e.insertNewline (b.insert ['\n']) := by
  obtain ⟨⟨above, left, right, below⟩, revision, hf, rfl, rfl⟩ := h
  obtain ⟨habove, hleft, hright, hbelow⟩ := Focus.clean_iff.1 hf
  have hclean : (Focus.mk (above ++ [left]) [] right below).Clean := by
    refine Focus.clean_iff.2 ⟨?_, by simp, hright, hbelow⟩
    exact List.forall_mem_append.2 ⟨habove, List.forall_mem_singleton.2 hleft⟩
  refine hclean.yields_of ((revision + 1) % 2 ^ 64) ?_ ?_
  · simp only [EditorState.insertNewline, Focus.state, Focus.lines, getElem?_focus,
      Option.bind_eq_bind, Option.bind_some, charToByte_append, splitChars?_append, set_focus,
      insertLine_focus, EditorState.markChanged]
    simp
  · simp [Focus.buffer, Buffer.insert, terminated]

theorem Represents.self (h : Represents e b) : Yields (some e) (b.insert []) := by
  refine ⟨e, rfl, ?_⟩
  rw [Buffer.insert, List.append_nil]
  exact h

theorem insertChar_yields (c : Char) (h : Represents e b) :
    Yields (e.insertChar c) (b.insert (Flat.visible c)) := by
  rw [EditorState.insertChar, Flat.visible]
  by_cases hlf : c = '\n'
  · subst hlf
    exact insertNewline_yields h
  rw [if_neg hlf]
  by_cases hcr : c = '\r'
  · rw [if_pos hcr, if_pos hcr]
    exact h.self
  rw [if_neg hcr, if_neg hcr]
  by_cases htab : c = '\t'
  · subst htab
    exact insertVisibleChar_yields h (by decide)
  rw [if_neg htab]
  by_cases hcontrol : isControl c = true
  · rw [if_pos hcontrol, if_pos ⟨hlf, htab, hcontrol⟩]
    exact insertVisibleChar_yields h (by decide)
  · rw [if_neg hcontrol, if_neg fun hall => hcontrol hall.2.2]
    exact insertVisibleChar_yields h ⟨hlf, hcr⟩

theorem Yields.bind {result : Option EditorState} {next : EditorState → Option EditorState}
    {b' : Buffer Char} (h : Yields result b) (hnext : ∀ e, Represents e b → Yields (next e) b') :
    Yields (result.bind next) b' := by
  obtain ⟨e, rfl, he⟩ := h
  exact hnext e he

theorem insertStr_yields (text : List Char) (h : Represents e b) :
    Yields (EditorState.insertStr text e) (b.insert (Flat.inserted text)) := by
  have hinsert : ∀ (l l' : List Char) (b : Buffer Char),
      b.insert (l ++ l') = (b.insert l).insert l' := by
    intro l l' b
    rw [Buffer.insert, Buffer.insert, Buffer.insert, List.append_assoc]
  induction text generalizing e b with
  | nil => exact h.self
  | cons c text ih =>
    rw [EditorState.insertStr, Flat.inserted, Flat.lineFeeds]
    by_cases hcr : c = '\r'
    · rw [if_pos hcr, if_pos hcr]
      by_cases hnext : text.head? = some '\n'
      · rw [if_pos hnext, if_pos hnext]
        exact ih h
      · rw [if_neg hnext, if_neg hnext, List.flatMap_cons, hinsert]
        exact (insertNewline_yields h).bind fun e he => ih he
    · rw [if_neg hcr, if_neg hcr, List.flatMap_cons, hinsert]
      exact (insertChar_yields c h).bind fun e he => ih he

theorem represents_empty (revision : Nat) : Represents ⟨[[]], 0, 0, revision⟩ .empty :=
  ⟨⟨[], [], [], []⟩, revision, by simp [Focus.Clean, Focus.lines], rfl, rfl⟩

theorem setText_yields (e : EditorState) (text : List Char) :
    Yields (e.setText text) ⟨Flat.inserted text, []⟩ := by
  have h : Represents e.clear .empty := represents_empty _
  exact insertStr_yields text h

/-! ## Deletions -/

theorem isEmpty_lineBefore (hleft : '\n' ∉ left) :
    (Flat.lineBefore (Focus.mk above left right below).buffer).isEmpty = left.isEmpty := by
  rw [lineBefore_mk hleft, List.isEmpty_reverse]

/-- Back to a place in the line. -/
theorem eraseTo_line (left gone : List Char) :
    (Focus.mk above (left ++ gone) right below).buffer.eraseTo
        ((terminated '\n' above).length + left.length)
      = (Focus.mk above left right below).buffer := by
  show (⟨terminated '\n' above ++ (left ++ gone), _⟩ : Buffer Char).eraseTo _ = _
  rw [← List.append_assoc, ← List.length_append, Buffer.eraseTo_back]
  rfl

theorem backspace_yields (U : CharTables) (h : Represents e b) :
    Yields e.backspace (b.eraseTo (Flat.target U b .left)) := by
  obtain ⟨⟨above, left, right, below⟩, revision, hf, rfl, rfl⟩ := h
  obtain ⟨habove, hleft, hright, hbelow⟩ := Focus.clean_iff.1 hf
  rw [Flat.target, cursor_mk]
  obtain rfl | ⟨left, c, rfl⟩ := left.eq_nil_or_concat'
  · obtain rfl | ⟨above, line, rfl⟩ := above.eq_nil_or_concat'
    · exact hf.yields revision
    · obtain ⟨habove, hline⟩ := List.forall_mem_append.1 habove
      have hclean : (Focus.mk above line right below).Clean :=
        Focus.clean_iff.2 ⟨habove, hline line List.mem_cons_self, hright, hbelow⟩
      refine hclean.yields_of ((revision + 1) % 2 ^ 64) ?_ ?_
      · have hlines : (Focus.mk (above ++ [line]) [] right below).lines
            = above ++ line :: right :: below := by simp [Focus.lines]
        have hnext : (above ++ line :: right :: below)[above.length + 1]? = some right := by simp
        rw [EditorState.backspace, Focus.state, hlines]
        simp only [List.length_append, List.length_singleton, List.length_nil, Nat.lt_irrefl,
          if_false, Nat.zero_lt_succ, if_true, hnext, Option.bind_eq_bind, Option.bind_some,
          eraseIdx_focus, Nat.add_sub_cancel, getElem?_focus, set_focus, EditorState.markChanged]
        rfl
      · have hbuffer : (Focus.mk (above ++ [line]) [] right below).buffer
            = ⟨terminated '\n' above ++ line ++ ['\n'],
              right ++ below.flatMap ('\n' :: ·)⟩ := by
          simp [Focus.buffer, terminated]
        have hcursor : (terminated '\n' (above ++ [line])).length + ([] : List Char).length - 1
            = (terminated '\n' above ++ line).length := by
          rw [length_terminated_concat, List.length_append, List.length_nil]
          omega
        rw [hcursor, hbuffer, Buffer.eraseTo_back]
        rfl
  · have hclean : (Focus.mk above left right below).Clean :=
      Focus.clean_iff.2 ⟨habove, unbroken_of_sublist (List.sublist_append_left left [c]) hleft,
        hright, hbelow⟩
    refine hclean.yields_of ((revision + 1) % 2 ^ 64) ?_ ?_
    · have hback := charToByte_append left ([c] ++ right)
      have hline := charToByte_append (left ++ [c]) right
      have hcut := replaceRange_append left [c] right []
      rw [List.length_append, List.length_singleton, List.append_assoc] at hline
      simp only [EditorState.backspace, Focus.state, Focus.lines, List.length_append,
        List.length_singleton, Nat.zero_lt_succ, if_true, getElem?_focus, Option.bind_eq_bind,
        Option.bind_some, Nat.add_sub_cancel, List.append_assoc, hback, hline, hcut, set_focus,
        EditorState.markChanged, List.nil_append]
    · have hcursor : (terminated '\n' above).length + (left ++ [c]).length - 1
          = (terminated '\n' above).length + left.length := by
        rw [List.length_append, List.length_singleton]
        omega
      rw [hcursor, eraseTo_line]

theorem delete_yields (U : CharTables) (h : Represents e b) :
    Yields e.delete (b.eraseTo (Flat.target U b .right)) := by
  obtain ⟨⟨above, left, right, below⟩, revision, hf, rfl, rfl⟩ := h
  obtain ⟨habove, hleft, hright, hbelow⟩ := Focus.clean_iff.1 hf
  rw [Flat.target]
  cases right with
  | nil =>
    cases below with
    | nil =>
      refine hf.yields_of revision ?_ ?_
      · simp [EditorState.delete, Focus.state, Focus.lines]
      · have hend : min ((Focus.mk above left [] []).buffer.cursor + 1)
            (Focus.mk above left [] []).buffer.text.length
            = (terminated '\n' above ++ left).length + ([] : List Char).length := by
          simp [Focus.buffer, Buffer.text, Buffer.cursor]
        rw [hend]
        exact Buffer.eraseTo_forward _ [] _
    | cons line below =>
      obtain ⟨hline, hbelow⟩ := List.forall_mem_cons.1 hbelow
      have hclean : (Focus.mk above left line below).Clean :=
        Focus.clean_iff.2 ⟨habove, hleft, hline, hbelow⟩
      refine hclean.yields_of ((revision + 1) % 2 ^ 64) ?_ ?_
      · have hnext : (above ++ (left ++ []) :: line :: below)[above.length + 1]? = some line := by
          simp
        have hmore : above.length + 1 < (above ++ (left ++ []) :: line :: below).length := by
          simp
        simp only [EditorState.delete, Focus.state, Focus.lines, getElem?_focus,
          Option.bind_eq_bind, Option.bind_some, List.append_nil, Nat.lt_irrefl, if_false]
        rw [List.append_nil] at hnext hmore
        rw [if_pos hmore, hnext, Option.bind_some, eraseIdx_focus, getElem?_focus,
          Option.bind_some, set_focus]
        rfl
      · have hend : min ((Focus.mk above left [] (line :: below)).buffer.cursor + 1)
            (Focus.mk above left [] (line :: below)).buffer.text.length
            = (terminated '\n' above ++ left).length + ['\n'].length := by
          simp only [Focus.buffer, Buffer.text, Buffer.cursor, List.flatMap_cons,
            List.length_append, List.length_cons, List.length_nil]
          omega
        rw [hend]
        exact Buffer.eraseTo_forward _ ['\n'] _
  | cons c right =>
    have hclean : (Focus.mk above left right below).Clean :=
      Focus.clean_iff.2 ⟨habove, hleft, unbroken_of_sublist (List.sublist_cons_self c right) hright,
        hbelow⟩
    refine hclean.yields_of ((revision + 1) % 2 ^ 64) ?_ ?_
    · have hhere := charToByte_append left ([c] ++ right)
      have hnext := charToByte_append (left ++ [c]) right
      have hcut := replaceRange_append left [c] right []
      have hmore : left.length < (left ++ c :: right).length := by simp
      rw [List.length_append, List.length_singleton, List.append_assoc] at hnext
      simp only [EditorState.delete, Focus.state, Focus.lines, getElem?_focus,
        Option.bind_eq_bind, Option.bind_some]
      refine (if_pos hmore).trans ?_
      show ((replaceRange (left ++ ([c] ++ right)) (charToByte (left ++ ([c] ++ right)) left.length)
        (charToByte (left ++ ([c] ++ right)) (left.length + 1)) []).bind _) = _
      rw [hhere, hnext, hcut, Option.bind_some, set_focus, List.append_nil]
      rfl
    · have hend : min ((Focus.mk above left (c :: right) below).buffer.cursor + 1)
          (Focus.mk above left (c :: right) below).buffer.text.length
          = (terminated '\n' above ++ left).length + [c].length := by
        simp only [Focus.buffer, Buffer.text, Buffer.cursor, List.length_append,
          List.length_cons, List.length_nil]
        omega
      rw [hend]
      exact Buffer.eraseTo_forward _ [c] _

/-- A part of a line before the cursor is taken out. -/
theorem eraseBack_yields (keep gone : List Char)
    (hf : (Focus.mk above (keep ++ gone) right below).Clean) (revision : Nat) :
    Yields
      ((replaceRange (keep ++ gone ++ right) (charToByte (keep ++ gone ++ right) keep.length)
          (charToByte (keep ++ gone ++ right) (keep ++ gone).length) []).bind fun line =>
        some (EditorState.markChanged
          ⟨(above ++ (keep ++ gone ++ right) :: below).set above.length line, above.length,
            keep.length, revision⟩))
      (Focus.mk above keep right below).buffer := by
  obtain ⟨habove, hleft, hright, hbelow⟩ := Focus.clean_iff.1 hf
  have hclean : (Focus.mk above keep right below).Clean :=
    Focus.clean_iff.2 ⟨habove, unbroken_of_sublist (List.sublist_append_left keep gone) hleft,
      hright, hbelow⟩
  refine hclean.yields_of ((revision + 1) % 2 ^ 64) ?_ rfl
  have hstart := charToByte_append keep (gone ++ right)
  have hstop := charToByte_append (keep ++ gone) right
  rw [← List.append_assoc] at hstart
  rw [hstart, hstop, List.append_assoc, replaceRange_append, Option.bind_some, set_focus,
    List.append_nil]
  rfl

theorem deleteWordBackward_yields (U : CharTables) (h : Represents e b) :
    Yields (e.deleteWordBackward U) (b.eraseTo (Flat.reach U b .deleteWordBackward)) := by
  have hback := backspace_yields U h
  obtain ⟨⟨above, left, right, below⟩, revision, hf, rfl, rfl⟩ := h
  have hleft := hf.mk.1
  rw [Flat.reach, isEmpty_lineBefore hleft]
  by_cases hempty : left = []
  · subst hempty
    exact hback
  · have hcolumn : ((Focus.mk above left right below).state revision).column ≠ 0 :=
      mt List.eq_nil_of_length_eq_zero hempty
    have hle := (wordSpan_begins U left.reverse).length_le
    rw [List.length_reverse] at hle
    generalize hkeep : left.take (left.length - (wordSpan U left.reverse).length) = keep
    generalize hgone : left.drop (left.length - (wordSpan U left.reverse).length) = gone
    have hsplit : left = keep ++ gone := by rw [← hkeep, ← hgone, List.take_append_drop]
    have hlength : keep.length = left.length - (wordSpan U left.reverse).length := by
      rw [← hkeep, List.length_take]
      omega
    have hmoved : ((Focus.mk above left right below).state revision).moveWordLeft U
        = some ⟨above ++ (left ++ right) :: below, above.length, keep.length, revision⟩ := by
      rw [EditorState.moveWordLeft, if_neg hcolumn, wordLeftInLine_state hleft, hlength]
      rfl
    have hreach : Flat.target U (Focus.mk above left right below).buffer .wordLeft
        = (terminated '\n' above).length + keep.length := by
      rw [Flat.target, wordMove_before hleft hempty, cursor_mk, hlength]
      omega
    have hmove : Flat.moveOf left.isEmpty .deleteWordBackward = .wordLeft := by
      cases left with
      | nil => exact absurd rfl hempty
      | cons c left => rfl
    have herase : (Focus.mk above left right below).buffer.eraseTo
        ((terminated '\n' above).length + keep.length) = (Focus.mk above keep right below).buffer := by
      rw [hsplit, eraseTo_line]
    rw [hmove, hreach, herase, EditorState.deleteWordBackward, if_neg hcolumn, hmoved]
    subst hsplit
    have hyields := eraseBack_yields keep gone hf revision
    show Yields ((above ++ (keep ++ gone ++ right) :: below)[above.length]?.bind _) _
    rw [getElem?_focus]
    exact hyields

theorem deleteToLineStart_yields (U : CharTables) (h : Represents e b) :
    Yields e.deleteToLineStart (b.eraseTo (Flat.reach U b .deleteToLineStart)) := by
  have hback := backspace_yields U h
  obtain ⟨⟨above, left, right, below⟩, revision, hf, rfl, rfl⟩ := h
  have hleft := hf.mk.1
  rw [Flat.reach, isEmpty_lineBefore hleft]
  by_cases hempty : left = []
  · subst hempty
    exact hback
  · have hcolumn : ((Focus.mk above left right below).state revision).column ≠ 0 :=
      mt List.eq_nil_of_length_eq_zero hempty
    have hmove : Flat.moveOf left.isEmpty .deleteToLineStart = .home := by
      cases left with
      | nil => exact absurd rfl hempty
      | cons c left => rfl
    have hreach : Flat.target U (Focus.mk above left right below).buffer .home
        = (terminated '\n' above).length + ([] : List Char).length := by
      rw [Flat.target, lineBefore_mk hleft, cursor_mk, List.length_reverse, List.length_nil]
      omega
    have herase : (Focus.mk above left right below).buffer.eraseTo
        ((terminated '\n' above).length + ([] : List Char).length)
        = (Focus.mk above [] right below).buffer := eraseTo_line [] left
    have hzero : charToByte (left ++ right) 0 = 0 := by rw [charToByte_eq]; rfl
    have hyields := eraseBack_yields [] left hf revision
    rw [hmove, hreach, herase, EditorState.deleteToLineStart, if_neg hcolumn]
    show Yields ((above ++ (left ++ right) :: below)[above.length]?.bind _) _
    rw [getElem?_focus, Option.bind_some]
    rw [List.nil_append, List.length_nil, hzero] at hyields
    exact hyields

/-! ## Tokens -/

/-- A list is what stands up to the last element of a kind, and what follows it. -/
theorem eq_append_takeWhile_reverse {α : Type} (p : α → Bool) (l : List α) :
    l = (l.reverse.dropWhile p).reverse ++ (l.reverse.takeWhile p).reverse := by
  rw [← List.reverse_append, List.takeWhile_append_dropWhile, List.reverse_reverse]

/-- What follows the last element of a kind. -/
theorem rposition?_elim {α : Type} (p : α → Bool) (l : List α) :
    (rposition? p l).elim 0 (· + 1) = l.length - (l.reverse.takeWhile fun a => !p a).length := by
  have hl := eq_append_takeWhile_reverse (fun a => !p a) l
  have hlength := length_takeWhile_add (fun a => !p a) l.reverse
  have hafter : ∀ b ∈ (l.reverse.takeWhile fun a => !p a).reverse, p b = false := by
    intro b hb
    simpa using List.all_eq_true.1 List.all_takeWhile b (List.mem_reverse.1 hb)
  rw [List.length_reverse] at hlength
  cases hrest : l.reverse.dropWhile fun a => !p a with
  | nil =>
    have hnone : ∀ a ∈ l, p a = false := by
      intro a ha
      simpa using List.dropWhile_eq_nil_iff.1 hrest a (List.mem_reverse.2 ha)
    rw [hrest, List.length_nil] at hlength
    rw [rposition?_eq_none_iff.2 hnone, Option.elim_none]
    omega
  | cons a rest =>
    have ha : p a = true := by simpa using dropWhile_stops hrest
    rw [hrest, List.length_cons] at hlength
    rw [hrest, List.reverse_cons, List.append_assoc, List.singleton_append] at hl
    have hposition : rposition? p l = some rest.reverse.length :=
      (congrArg (rposition? p) hl).trans (rposition?_append ha hafter)
    rw [hposition, Option.elim_some, List.length_reverse]
    omega

theorem tokenLength_le (back : List Char) : tokenLength back ≤ back.length := by
  have hword := (List.takeWhile_prefix (l := back) fun c => !isWhitespace c).length_le
  rw [tokenLength]
  split
  · next hslash =>
    generalize back.takeWhile (fun c => !isWhitespace c) = word at *
    have hlength := length_takeWhile_add (fun c => decide (c ≠ '/')) word
    have hne : word.dropWhile (fun c => decide (c ≠ '/')) ≠ [] := by
      rw [Ne, List.dropWhile_eq_nil_iff]
      intro hall
      simpa using hall _ hslash
    have hpos := List.length_pos_of_ne_nil hne
    omega
  · exact hword

/-- Where a token begins that ends a line. -/
theorem tokenStart (left : List Char) {start : Nat}
    (hstart : start = (rposition? isWhitespace left).elim 0 (· + 1)) :
    (rposition? (· == '/') (left.drop start)).elim start (start + ·)
      = left.length - tokenLength left.reverse := by
  have hle := tokenLength_le left.reverse
  have hleft := eq_append_takeWhile_reverse (fun c => !isWhitespace c) left
  have hword := length_takeWhile_add (fun c => !isWhitespace c) left.reverse
  rw [rposition?_elim] at hstart
  rw [tokenLength] at hle ⊢
  rw [List.length_reverse] at hword hle
  generalize left.reverse.takeWhile (fun c => !isWhitespace c) = word at *
  generalize left.reverse.dropWhile (fun c => !isWhitespace c) = rest at *
  have hdrop : left.drop start = word.reverse := by
    have hrest : start = rest.reverse.length := by
      rw [List.length_reverse]
      omega
    rw [hrest]
    conv => lhs; rw [hleft]
    rw [List.drop_left]
  have hlast := rposition?_elim (· == '/') word.reverse
  have hslashes : (fun a => !(a == '/')) = fun a => decide (a ≠ '/') := by
    funext a
    rw [decide_not, beq_eq_decide]
  rw [List.reverse_reverse, List.length_reverse, hslashes] at hlast
  rw [hdrop]
  cases hslash : rposition? (· == '/') word.reverse with
  | none =>
    have hnone : '/' ∉ word := by
      intro hmem
      simpa using rposition?_eq_none_iff.1 hslash '/' (List.mem_reverse.2 hmem)
    rw [Option.elim_none, if_neg hnone, hstart]
  | some i =>
    have hsome : '/' ∈ word := by
      by_contra hnot
      have hnone : rposition? (· == '/') word.reverse = none := by
        refine rposition?_eq_none_iff.2 fun a ha => beq_eq_false_iff_ne.2 ?_
        rintro rfl
        exact hnot (List.mem_reverse.1 ha)
      rw [hnone] at hslash
      cases hslash
    rw [if_pos hsome] at hle ⊢
    rw [hslash, Option.elim_some] at hlast
    rw [Option.elim_some]
    omega

theorem tokenBeforeCursor_state (f : Focus) (revision : Nat) :
    ∃ token, (f.state revision).tokenBeforeCursor = some token ∧
      token.characterCount = tokenLength f.left.reverse := by
  have hle := tokenLength_le f.left.reverse
  have hstart := tokenStart f.left rfl
  rw [List.length_reverse] at hle
  show ∃ token, (f.lines[f.above.length]?.bind fun line => _) = some token ∧ _
  rw [Focus.lines, getElem?_focus, Option.bind_some]
  have htake : (f.left ++ f.right).take (f.state revision).column = f.left := List.take_left
  refine ⟨_, rfl, ?_⟩
  dsimp only
  rw [htake, hstart]
  omega

theorem replaceTokenBeforeCursor_yields (replacement : Unbroken) (h : Represents e b) :
    Yields (e.replaceTokenBeforeCursor replacement.chars)
      ((b.eraseTo (b.cursor - tokenLength b.before.reverse)).insert replacement.chars) := by
  obtain ⟨⟨above, left, right, below⟩, revision, hf, rfl, rfl⟩ := h
  obtain ⟨habove, hleft, hright, hbelow⟩ := Focus.clean_iff.1 hf
  obtain ⟨token, htoken, hcount⟩ := tokenBeforeCursor_state ⟨above, left, right, below⟩ revision
  have hle := tokenLength_le left.reverse
  rw [List.length_reverse] at hle
  have hflat : tokenLength (Focus.mk above left right below).buffer.before.reverse
      = tokenLength left.reverse := by
    show tokenLength (terminated '\n' above ++ left).reverse = _
    rw [List.reverse_append, tokenLength,
      takeWhile_append_of_stop ((behind_above above).stops (by decide)), tokenLength]
  rw [hflat, cursor_mk]
  dsimp only at hcount
  generalize tokenLength left.reverse = n at *
  generalize hkeep : left.take (left.length - n) = keep
  generalize hgone : left.drop (left.length - n) = gone
  have hsplit : left = keep ++ gone := by rw [← hkeep, ← hgone, List.take_append_drop]
  have hlength : keep.length = left.length - n := by
    rw [← hkeep, List.length_take]
    omega
  have hclean : (Focus.mk above (keep ++ replacement.chars) right below).Clean := by
    have hkept := unbroken_of_sublist (List.sublist_append_left keep gone) (hsplit ▸ hleft)
    refine Focus.clean_iff.2 ⟨habove, ?_, hright, hbelow⟩
    simp [hkept, replacement.unbroken]
  refine hclean.yields_of ((revision + 1) % 2 ^ 64) ?_ ?_
  · rw [EditorState.replaceTokenBeforeCursor, htoken]
    show ((above ++ (left ++ right) :: below)[above.length]?.bind fun line =>
      (replaceRange line (charToByte line (left.length - token.characterCount))
        (charToByte line left.length) replacement.chars).bind _) = _
    subst hsplit
    have hstart := charToByte_append keep (gone ++ right)
    have hstop := charToByte_append (keep ++ gone) right
    rw [← List.append_assoc] at hstart
    rw [getElem?_focus, Option.bind_some, hcount, ← hlength, hstart, hstop, List.append_assoc,
      replaceRange_append, Option.bind_some]
    show some (EditorState.markChanged ⟨(above ++ (keep ++ gone ++ right) :: below).set above.length
      (keep ++ replacement.chars ++ right), above.length,
      (keep ++ gone).length - n + replacement.chars.length, revision⟩) = _
    rw [set_focus, ← hlength, ← List.length_append]
    rfl
  · have hposition : (terminated '\n' above).length + left.length - n
        = (terminated '\n' above).length + keep.length := by omega
    rw [hposition, hsplit, eraseTo_line]
    simp [Focus.buffer, Buffer.insert]

end Nakode.Editor
