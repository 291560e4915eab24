import Nakode.Session
import Nakode.Lib.Escaping

/-!
# The size of a turn's report

A report holds at most 16 KiB. The text of a terminal turn is cut to the longest beginning whose
characters take at most 12 KiB once escaped (`isPrefix_encodedPrefix_iff`), so the record around it
fits a report for every turn id of at most 200 bytes (`completion_fits_report`).
-/

namespace Nakode

open Outcome Text
open String (utf8Len)

/-- A text is trimmed to nothing exactly when it is blank. -/
theorem trim_eq_empty_iff {s : String} :
    trim s = "" ↔ ∀ c ∈ s.toList, isWhitespace c = true := by
  rw [trim, ← String.toList_eq_nil_iff, String.toList_ofList, List.reverse_eq_nil_iff,
    List.dropWhile_eq_nil_iff]
  constructor
  · intro h c hc
    by_cases hdropped : s.toList.dropWhile isWhitespace = []
    · exact List.dropWhile_eq_nil_iff.1 hdropped c hc
    · have hhead := List.head_dropWhile_not isWhitespace hdropped
      rw [h _ (List.mem_reverse.2 (List.head_mem hdropped))] at hhead
      cases hhead
  · intro h c hc
    exact h c ((List.dropWhile_sublist _).subset (List.mem_reverse.1 hc))

namespace Completion

/-! ## The text -/

/-- The beginnings of the text kept are those whose escapes fit the budget. -/
theorem isPrefix_encodedPrefix_iff {budget : Nat} {cs p : List Char} :
    p <+: encodedPrefix budget cs ↔ p <+: cs ∧ utf8Len (p.flatMap escapeChar) ≤ budget := by
  induction cs generalizing budget p with
  | nil =>
    rw [encodedPrefix, List.prefix_nil]
    constructor
    · rintro rfl
      exact ⟨rfl, Nat.zero_le _⟩
    · exact And.left
  | cons c cs ih =>
    cases p with
    | nil => simp
    | cons d p =>
      rw [encodedPrefix, len_ofList, List.cons_prefix_cons, List.flatMap_cons,
        String.utf8Len_append]
      by_cases hbudget : budget < utf8Len (escapeChar c)
      · rw [if_pos hbudget]
        constructor
        · intro h
          exact absurd (List.prefix_nil.1 h) (List.cons_ne_nil _ _)
        · rintro ⟨⟨rfl, -⟩, hfits⟩
          omega
      · rw [if_neg hbudget, List.cons_prefix_cons, ih]
        constructor
        · rintro ⟨rfl, hp, hfits⟩
          exact ⟨⟨rfl, hp⟩, by omega⟩
        · rintro ⟨⟨rfl, hp⟩, hfits⟩
          exact ⟨rfl, hp, by omega⟩

theorem encodedPrefix_isPrefix (budget : Nat) (cs : List Char) : encodedPrefix budget cs <+: cs :=
  (isPrefix_encodedPrefix_iff.1 List.prefix_rfl).1

theorem utf8Len_encodedPrefix_le (budget : Nat) (cs : List Char) :
    utf8Len ((encodedPrefix budget cs).flatMap escapeChar) ≤ budget :=
  (isPrefix_encodedPrefix_iff.1 List.prefix_rfl).2

/-- A text that is not blank is kept up to a beginning of it. -/
theorem capture_eq (turn : String) {text : String} (hblank : trim text ≠ "") :
    ∃ rest, text = String.ofList (encodedPrefix finalBytes text.toList) ++ rest ∧
      capture turn (some text) =
        { version := 1
          turnId := turn
          finalText := some (String.ofList (encodedPrefix finalBytes text.toList))
          finalTotalBytes := len text
          truncated := decide (rest ≠ "") } := by
  obtain ⟨rest, hrest⟩ := encodedPrefix_isPrefix finalBytes text.toList
  have htext : text = String.ofList (encodedPrefix finalBytes text.toList) ++ String.ofList rest := by
    rw [← String.ofList_append, hrest, String.ofList_toList]
  refine ⟨String.ofList rest, htext, ?_⟩
  have hkept : (some text).filter (fun text => !(trim text).isEmpty) = some text := by
    simp [Option.filter, hblank]
  have htruncated : (len (String.ofList (encodedPrefix finalBytes text.toList)) < len text) ↔
      String.ofList rest ≠ "" := by
    have hlen := congrArg len htext
    rw [len_append] at hlen
    have hzero := len_eq_zero (s := String.ofList rest)
    rw [ne_eq, ← hzero]
    omega
  simp only [capture, hkept, Option.map_some, Option.getD_some, Option.any_some, htruncated]

theorem capture_none (turn : String) {text : Option String}
    (hblank : ∀ t ∈ text, trim t = "") :
    capture turn text = ⟨1, turn, none, 0, false⟩ := by
  have hdropped : text.filter (fun text => !(trim text).isEmpty) = none := by
    cases text with
    | none => rfl
    | some t => simp [Option.filter, hblank t rfl]
  simp [capture, hdropped]

/-! ## The record -/

/-- The names of the fields, their punctuation and the numbers take at most 300 bytes. -/
theorem len_encode_le (c : Completion) (hversion : c.version = 1) (htotal : c.finalTotalBytes < 2 ^ 64) :
    len c.encode ≤ len (quote c.turnId) + len (Json.ofOption c.finalText).render + 300 := by
  have hkeys : len (quote "version") + len (quote "turn_id") + len (quote "final_text")
      + len (quote "final_total_bytes") + len (quote "truncated") = 60 := by decide
  have hone : len (Json.int ((1 : Nat) : Int)).render = 1 := by decide
  have hcount : len (Json.int (c.finalTotalBytes : Int)).render ≤ 84 :=
    len_render_int_le (by omega) (by omega)
  have htruncated : len (Json.bool c.truncated).render ≤ 5 := by
    cases c.truncated <;> decide
  have hobject := len_render_obj_le
    [("version", .int c.version), ("turn_id", .str c.turnId),
      ("final_text", .ofOption c.finalText), ("final_total_bytes", .int c.finalTotalBytes),
      ("truncated", .bool c.truncated)]
  simp only [List.map_cons, List.map_nil, List.sum_cons, List.sum_nil, hversion, hone,
    render_str] at hobject
  rw [encode, hversion]
  omega

/-- The text takes at most 12 KiB and the turn id at most six times its bytes. -/
theorem len_encode_capture_le {turn : String} {text : Option String} (hturn : len turn ≤ 200)
    (htext : ∀ t ∈ text, len t < 2 ^ 64) : len (capture turn text).encode ≤ 16 * 1024 := by
  have hquote := len_quote_le turn
  by_cases hblank : ∀ t ∈ text, trim t = ""
  · have hnull : len (Json.ofOption none).render = 4 := by decide
    have h := len_encode_le ⟨1, turn, none, 0, false⟩ rfl (Nat.two_pow_pos 64)
    rw [capture_none turn hblank]
    simp only [hnull] at h
    omega
  · obtain ⟨t, rfl, ht⟩ : ∃ t, text = some t ∧ trim t ≠ "" := by
      cases text with
      | none => exact absurd (fun _ h => nomatch h) hblank
      | some t => exact ⟨t, rfl, fun h => hblank fun _ hmem => Option.some.inj hmem ▸ h⟩
    obtain ⟨rest, -, hcapture⟩ := capture_eq turn ht
    have hfits := utf8Len_encodedPrefix_le finalBytes t.toList
    have hescaped := len_quote (String.ofList (encodedPrefix finalBytes t.toList))
    rw [escapedLen, String.toList_ofList] at hescaped
    have h := len_encode_le ⟨1, turn, some (String.ofList (encodedPrefix finalBytes t.toList)),
      len t, decide (rest ≠ "")⟩ rfl (htext t rfl)
    rw [hcapture]
    simp only [Json.ofOption, render_str] at h
    unfold finalBytes at hfits h hescaped ⊢
    omega

theorem encode_ne_empty (c : Completion) : c.encode ≠ "" := by
  intro h
  have hlen := congrArg len h
  have hbraces : len "\x7b" = 1 := by decide
  rw [encode, Json.render, len_append, len_append, hbraces, len_empty] at hlen
  omega

end Completion

/-! ## The evidence -/

variable {δ : Type}

/-- Nothing a report command refuses with the right id, state and size is about these. -/
theorem code_of_publishInTransaction {db : Db δ} {child reportId state body : String} {nowMs : Int}
    {e : ServiceError} (hid : reportId ≠ "" ∧ len reportId ≤ 200)
    (hturn : startsWith reportId "turn:" = false)
    (hquestion : startsWith reportId "question:" = false)
    (hstate : (ReportState.ofText? state).isSome) (hbody : body ≠ "" ∧ len body ≤ 16 * 1024)
    (h : publishInTransaction db child reportId state body nowMs = .error e) :
    e.code = .conflict := by
  obtain ⟨saved, hsaved⟩ := Option.isSome_iff_exists.1 hstate
  have hvalid : (!(reportId.isEmpty || startsWith reportId "turn:"
      || startsWith reportId "question:" || decide (len reportId > 200)
      || body.isEmpty || decide (len body > 16 * 1024))) = true := by
    simp [hid.1, hid.2, hturn, hquestion, hbody.1, hbody.2]
  unfold publishInTransaction at h
  simp only [hvalid, hsaved, ensure_true, ok_bind, need_some] at h
  rcases bind_eq_error.1 h with hlinked | ⟨_, -, h⟩
  · obtain ⟨-, rfl⟩ := ensure_eq_error.1 hlinked
    rfl
  · split at h
    · rcases bind_eq_error.1 h with hsame | ⟨_, -, h⟩
      · obtain ⟨-, rfl⟩ := ensure_eq_error.1 hsame
        rfl
      · cases h
    · rcases bind_eq_error.1 h with hcount | ⟨_, -, h⟩
      · obtain ⟨-, rfl⟩ := ensure_eq_error.1 hcount
        rfl
      · cases h

open Completion in
/-- A turn's evidence has no text exactly when there is none that is not blank. Else it has the
longest beginning that takes at most 12 KiB in JSON, and it fits a report. -/
theorem completion_fits_report (turn : String) (text : Option String) (hturn : len turn ≤ 200)
    (htext : ∀ t ∈ text, len t < 2 ^ 64) :
    ((capture turn text).finalText = none ↔ ∀ t ∈ text, ∀ c ∈ t.toList, isWhitespace c = true) ∧
    (∀ kept, (capture turn text).finalText = some kept → ∃ rest, text = some (kept ++ rest) ∧
      len (quote kept) - 2 ≤ 12 * 1024 ∧
      (∀ longer after, kept ++ rest = longer ++ after → len (quote longer) - 2 ≤ 12 * 1024 →
        len longer ≤ len kept) ∧
      (capture turn text).finalTotalBytes = len (kept ++ rest) ∧
      ((capture turn text).truncated = true ↔ len kept < len (kept ++ rest))) ∧
    ((capture turn text).encode ≠ "" ∧ len (capture turn text).encode ≤ 16 * 1024) ∧
    (∀ (db : Db δ) (child reportId state : String) (nowMs : Int) (e : ServiceError),
      reportId ≠ "" → len reportId ≤ 200 → startsWith reportId "turn:" = false →
      startsWith reportId "question:" = false → (ReportState.ofText? state).isSome →
      publishInTransaction db child reportId state (capture turn text).encode nowMs = .error e →
      e.code = .conflict) ∧
    ∀ (db : Db δ) (child : String) (outcome : TurnOutcome) (observedAt : Int),
      db.directory.exists? child = true → (db.kinship.links.find? child).isSome →
      db.reports.lookup? child ("turn:" ++ turn) = none →
      updateLastTurn db child ⟨turn, outcome, some (capture turn text), observedAt⟩ =
        .ok { db with reports := db.reports.append ⟨child, "turn:" ++ turn, outcome.report,
          (capture turn text).encode, observedAt * 1000⟩ } := by
  have hsize := len_encode_capture_le hturn htext
  refine ⟨?_, ?_, ⟨encode_ne_empty _, hsize⟩, ?_, ?_⟩
  · constructor
    · intro hnone t ht
      by_contra hblank
      obtain ⟨_, -, hcapture⟩ := capture_eq turn (mt trim_eq_empty_iff.1 hblank)
      rw [ht, hcapture] at hnone
      cases hnone
    · intro hblank
      rw [capture_none turn fun t ht => trim_eq_empty_iff.2 (hblank t ht)]
  · intro kept hkept
    have hsome : ∃ t, text = some t ∧ trim t ≠ "" := by
      by_contra hnone
      rw [capture_none turn] at hkept
      · cases hkept
      · intro t ht
        by_contra hblank
        exact hnone ⟨t, ht, hblank⟩
    obtain ⟨t, rfl, ht⟩ := hsome
    obtain ⟨rest, heq, hcapture⟩ := capture_eq turn ht
    rw [hcapture] at hkept ⊢
    obtain rfl := Option.some.inj hkept
    refine ⟨rest, congrArg some heq, ?_, ?_, congrArg len heq, ?_⟩
    · rw [len_quote, escapedLen, String.toList_ofList]
      exact utf8Len_encodedPrefix_le finalBytes t.toList
    · intro longer after hlonger hfits
      rw [← heq] at hlonger
      have hpre : longer.toList <+: encodedPrefix finalBytes t.toList := by
        refine isPrefix_encodedPrefix_iff.2 ⟨⟨after.toList, ?_⟩, ?_⟩
        · rw [hlonger, String.toList_append]
        · rwa [len_quote, escapedLen] at hfits
      obtain ⟨more, hmore⟩ := hpre
      rw [len_ofList, ← hmore, String.utf8Len_append, len_eq]
      exact Nat.le_add_right _ _
    · have hzero := len_eq_zero (s := rest)
      rw [decide_eq_true_iff, len_append, ne_eq, ← hzero]
      omega
  · intro db child reportId state nowMs e hid hlen hnoTurn hnoQuestion hstate h
    exact code_of_publishInTransaction ⟨hid, hlen⟩ hnoTurn hnoQuestion hstate
      ⟨encode_ne_empty _, hsize⟩ h
  · intro db child outcome observedAt hexists hlinked hnone
    have hsome := Option.isSome_iff_ne_none.1 hlinked
    simp [updateLastTurn, hexists, hsome, hnone]

/-- A crab takes four bytes and a control character six. -/
theorem completion_fits_report_escaped :
    len (Completion.capture "turn-1" (some "🦀\u0001")).encode ≤ 16 * 1024 :=
  (completion_fits_report (δ := Nat) "turn-1" (some "🦀\u0001") (by decide)
    (by rintro _ ⟨⟩; decide)).2.2.1.2

end Nakode
