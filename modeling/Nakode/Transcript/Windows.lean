import Nakode.Delegation.Runs
import Nakode.Lib.Boundary
import Nakode.Transcript.Projection

/-!
# Windows onto long texts

A client reads a long text of a run (`runTextWindow`) or the body of a transcript entry
(`transcriptBodyWindow`) backward, one window of bytes at a time. Both are one loop
(`textWindow`): it looks for the first character boundary among the last bytes before the cursor.
`none` stands for a slice that is not on boundaries, where the server would panic; there is none.
The calls fail exactly on the limits and cursors of `Refused`, each window is the part of the text
that ends at the cursor (`IsWindow`), and a client that goes on from where a window starts gets the
whole text (`text_windows_reconstruct`).
-/

namespace Nakode

open Relational (Table)
open Delegation (SubagentRun SubagentStatus)
open Text

/-! ## One window -/

structure TextWindow where
  text : String
  startByte : Nat
  totalBytes : Nat
  hasEarlier : Bool
  deriving DecidableEq, Repr

/-- The errors that the windows of every kind of text share. -/
structure WindowErrors (ε : Type) where
  /-- The limit that was asked for and the largest one. -/
  limitOutOfBounds : Nat → Nat → ε
  /-- The cursor and the bytes there are. -/
  cursorOutOfBounds : Nat → Nat → ε
  cursorNotUtf8Boundary : Nat → ε
  /-- The bytes of the character before the cursor. -/
  limitTooSmallForCharacter : Nat → ε

/-- The window of a text before a cursor, with the loop that looks for its start. -/
def textWindow {ε : Type} (errors : WindowErrors ε) (text : String) (beforeByte : Option Nat)
    (limitBytes : Nat) : Option (Except ε TextWindow) :=
  let stop := beforeByte.getD (len text)
  if stop > len text then some (.error (errors.cursorOutOfBounds stop (len text)))
  else if !isCharBoundary text stop then some (.error (errors.cursorNotUtf8Boundary stop))
  else
    let first := stop - limitBytes
    let start := nextBoundary text (stop - first) first
    if start == stop && stop > 0 then
      (get? text 0 stop).map fun before =>
        .error (errors.limitTooSmallForCharacter (before.toList.getLast?.elim 1 Char.utf8Size))
    else
      (get? text start stop).map fun window =>
        .ok
          { text := window
            startByte := start
            totalBytes := len text
            hasEarlier := start > 0 }

/-! ## The texts of a session -/

def maxRunTextBytes : Nat := 64 * 1024

inductive RunTextField where
  | objective
  | latestActivity
  | outcome
  | result
  deriving DecidableEq, Repr

inductive RunTextWindowError where
  | runNotFound
  | fieldUnavailable
  | limitOutOfBounds (actual maximum : Nat)
  | cursorOutOfBounds (actual total : Nat)
  | cursorNotUtf8Boundary (actual : Nat)
  | limitTooSmallForCharacter (minimum : Nat)
  deriving DecidableEq, Repr

def RunTextWindowError.errors : WindowErrors RunTextWindowError :=
  ⟨.limitOutOfBounds, .cursorOutOfBounds, .cursorNotUtf8Boundary, .limitTooSmallForCharacter⟩

def TranscriptBodyWindowError.errors : WindowErrors TranscriptBodyWindowError :=
  ⟨.limitOutOfBounds, .cursorOutOfBounds, .cursorNotUtf8Boundary, .limitTooSmallForCharacter⟩

structure RunTextWindow where
  runId : String
  field : RunTextField
  text : String
  startByte : Nat
  totalBytes : Nat
  hasEarlier : Bool
  deriving DecidableEq, Repr

def RunTextWindow.window (w : RunTextWindow) : TextWindow :=
  ⟨w.text, w.startByte, w.totalBytes, w.hasEarlier⟩

def TranscriptBodyWindow.window (w : TranscriptBodyWindow) : TextWindow :=
  ⟨w.body, w.startByte, w.totalBytes, w.hasEarlier⟩

/-- What the windows read of a session's state: its transcript, its runs, and the transcript of each
run. -/
structure SessionTexts where
  transcript : DomainTranscript
  subagents : List SubagentRun
  subagentChats : Table String DomainTranscript

namespace SessionTexts

variable (s : SessionTexts)

/-- The body of the latest entry of a run that satisfies a predicate. -/
def latestRunTranscriptBody (run : SubagentRun) (predicate : TranscriptEntry → Bool) :
    Option String := do
  let transcript ← s.subagentChats.find? run.id
  let entry ← transcript.entries.reverse.find? predicate
  return entry.body

def runOutcomeText (run : SubagentRun) : Option String :=
  match run.status with
  | .starting | .working => none
  | .completed =>
    (s.latestRunTranscriptBody run fun entry => entry.kind == .assistant) <|> run.latestActivity
  | .incomplete =>
    (s.latestRunTranscriptBody run fun entry => entry.kind == .assistant
      || (entry.kind == .system && entry.title == "SALVAGED PARTIAL RESULT"))
      <|> run.latestActivity
  | .failed =>
    (s.latestRunTranscriptBody run fun entry => entry.kind == .error) <|> run.latestActivity
  | .interrupted =>
    (s.latestRunTranscriptBody run fun entry => entry.status == .interrupted
      && (entry.kind == .system || entry.kind == .warning || entry.kind == .error))
      <|> run.latestActivity

def runText (run : SubagentRun) : RunTextField → Option String
  | .objective => some run.objective
  | .latestActivity => some run.latestActivity
  | .outcome => s.runOutcomeText run
  | .result =>
    if run.status == .completed || run.status == .incomplete then s.runOutcomeText run else none

/-- The window of at most `limitBytes` bytes of a text of a run that ends at a byte. -/
def runTextWindow (runId : String) (field : RunTextField) (beforeByte : Option Nat)
    (limitBytes : Nat) : Option (Except RunTextWindowError RunTextWindow) :=
  if limitBytes == 0 || limitBytes > maxRunTextBytes then
    some (.error (.limitOutOfBounds limitBytes maxRunTextBytes))
  else match s.subagents.find? (·.id == runId) with
    | none => some (.error .runNotFound)
    | some run => match s.runText run field with
      | none => some (.error .fieldUnavailable)
      | some text =>
        (textWindow RunTextWindowError.errors text beforeByte limitBytes).map fun outcome =>
          outcome.map fun window =>
            { runId, field
              text := window.text
              startByte := window.startByte
              totalBytes := window.totalBytes
              hasEarlier := window.hasEarlier }

/-- The session's transcript, or one delegated run's. -/
def ownerTranscript : Option String → Option DomainTranscript
  | some runId => s.subagentChats.find? runId
  | none => some s.transcript

def transcriptEntryBody (runId : Option String) (entryId : String) : Option String := do
  let transcript ← s.ownerTranscript runId
  transcript.transcriptEntryBody entryId

/-- The window of at most `limitBytes` bytes of a body that ends at a byte. -/
def transcriptBodyWindow (D : Digests) (runId : Option String) (entryId : String)
    (beforeByte : Option Nat) (limitBytes : Nat) :
    Option (Except TranscriptBodyWindowError TranscriptBodyWindow) :=
  if limitBytes == 0 || limitBytes > maxTranscriptEntryBodyBytes then
    some (.error (.limitOutOfBounds limitBytes maxTranscriptEntryBodyBytes))
  else match s.transcriptEntryBody runId entryId with
    | none => some (.error .entryNotFound)
    | some body =>
      (textWindow TranscriptBodyWindowError.errors body beforeByte limitBytes).map fun outcome =>
        outcome.map fun window =>
          { bodySha256 := D.transcriptBodyDigest body
            entryId
            body := window.text
            startByte := window.startByte
            totalBytes := window.totalBytes
            hasEarlier := window.hasEarlier }

end SessionTexts

/-! ## What a window is -/

/-- What a call is refused for: its limit, a cursor past the end or inside a character, or a
character before the cursor that the limit does not hold. -/
inductive Refused {ε : Type} (errors : WindowErrors ε) (maximum : Nat) (text : String)
    (beforeByte : Option Nat) (limitBytes : Nat) : ε → Prop
  | limit (h : limitBytes = 0 ∨ maximum < limitBytes) :
    Refused errors maximum text beforeByte limitBytes (errors.limitOutOfBounds limitBytes maximum)
  | past {stop : Nat} (hlimit : 0 < limitBytes ∧ limitBytes ≤ maximum)
      (hcursor : beforeByte = some stop) (h : len text < stop) :
    Refused errors maximum text beforeByte limitBytes (errors.cursorOutOfBounds stop (len text))
  | inside {stop : Nat} (hlimit : 0 < limitBytes ∧ limitBytes ≤ maximum)
      (hcursor : beforeByte = some stop) (hle : stop ≤ len text)
      (h : ∀ before after, text = before ++ after → len before ≠ stop) :
    Refused errors maximum text beforeByte limitBytes (errors.cursorNotUtf8Boundary stop)
  | narrow {before after : String} {c : Char} (hlimit : 0 < limitBytes ∧ limitBytes ≤ maximum)
      (htext : text = before ++ String.singleton c ++ after)
      (hcursor : beforeByte.getD (len text) = len before + c.utf8Size)
      (h : limitBytes < c.utf8Size) :
    Refused errors maximum text beforeByte limitBytes
      (errors.limitTooSmallForCharacter c.utf8Size)

/-- The part of a text that ends at an offset, of at most some bytes. -/
structure IsWindow (text : String) (stop limitBytes : Nat) (window : TextWindow) : Prop where
  part : ∃ before after, text = before ++ window.text ++ after ∧ len before = window.startByte
  stops : window.startByte + len window.text = stop
  bytes_le : len window.text ≤ limitBytes
  total : window.totalBytes = len text
  earlier : window.hasEarlier = true ↔ 0 < window.startByte
  /-- There is no window before the beginning only. -/
  progress : 0 < stop → window.startByte < stop

/-- A text that is not empty has a last character. -/
theorem exists_last {s : String} (h : 0 < len s) :
    ∃ before c, s = before ++ String.singleton c ∧ s.toList.getLast? = some c := by
  have hchars : s.toList ≠ [] := by
    intro hnil
    rw [len_eq, hnil] at h
    exact Nat.lt_irrefl 0 h
  refine ⟨String.ofList s.toList.dropLast, s.toList.getLast hchars, ?_,
    List.getLast?_eq_some_getLast hchars⟩
  rw [← String.toList_inj, String.toList_append, String.toList_ofList, String.toList_singleton,
    List.dropLast_append_getLast hchars]

theorem len_singleton (c : Char) : len (String.singleton c) = c.utf8Size := by
  rw [len_eq, String.toList_singleton]
  simp

section
variable {ε : Type} {errors : WindowErrors ε} {maximum : Nat} {text : String}
  {beforeByte : Option Nat} {limitBytes : Nat}

/-- A call with a limit within the bounds gives the window that ends at the cursor, or the error of
what refuses it. -/
theorem textWindow_cases (errors : WindowErrors ε) (text : String) (beforeByte : Option Nat)
    (hlimit : 0 < limitBytes ∧ limitBytes ≤ maximum) :
    (∃ e, textWindow errors text beforeByte limitBytes = some (.error e) ∧
      Refused errors maximum text beforeByte limitBytes e) ∨
    ∃ window, textWindow errors text beforeByte limitBytes = some (.ok window) ∧
      IsWindow text (beforeByte.getD (len text)) limitBytes window := by
  generalize hstop : beforeByte.getD (len text) = stop
  unfold textWindow
  rw [hstop]
  dsimp only
  by_cases hpast : stop > len text
  · rw [if_pos hpast]
    cases beforeByte with
    | none =>
      rw [Option.getD_none] at hstop
      omega
    | some cursor =>
      obtain rfl : cursor = stop := hstop
      exact .inl ⟨_, rfl, .past hlimit rfl hpast⟩
  rw [if_neg hpast]
  by_cases hboundary : isCharBoundary text stop = true
  swap
  · rw [if_pos (by simp [hboundary])]
    cases beforeByte with
    | none =>
      rw [Option.getD_none] at hstop
      exact absurd (hstop ▸ isCharBoundary_len text) hboundary
    | some cursor =>
      obtain rfl : cursor = stop := hstop
      exact .inl ⟨_, rfl, .inside hlimit rfl (by omega) fun before after htext hlen =>
        hboundary (isCharBoundary_iff.2 ⟨before, after, htext, hlen⟩)⟩
  rw [if_neg (by simp [hboundary])]
  obtain ⟨hlow, hhigh, hstart, hnone⟩ := nextBoundary_spec (s := text)
    (stop - (stop - limitBytes)) (stop - limitBytes) (by
      rwa [Nat.add_sub_cancel' (Nat.sub_le stop limitBytes)])
  generalize nextBoundary text (stop - (stop - limitBytes)) (stop - limitBytes) = start at *
  rw [Nat.add_sub_cancel' (Nat.sub_le stop limitBytes)] at hhigh
  obtain ⟨before, after, rfl, rfl⟩ := isCharBoundary_iff.1 hboundary
  obtain ⟨left, right, hsplit, rfl⟩ := isCharBoundary_iff.1 hstart
  obtain ⟨window, rfl, rfl⟩ := exists_between hsplit.symm hhigh
  by_cases hnarrow : len left = len (left ++ window) ∧ 0 < len (left ++ window)
  · -- Nothing fits before the cursor: its last character is wider than the limit.
    obtain ⟨prior, c, hlast, hgetLast⟩ := exists_last hnarrow.2
    have hslice : get? (left ++ window ++ after) 0 (len (left ++ window)) = some (left ++ window) :=
      get?_eq_some_iff.2 ⟨"", after, by rw [String.empty_append], rfl, by simp⟩
    rw [if_pos (by simpa using hnarrow), hslice, Option.map_some, hgetLast, Option.elim_some]
    refine .inl ⟨_, rfl, .narrow hlimit (show left ++ window ++ after =
      prior ++ String.singleton c ++ after by rw [hlast]) ?_ ?_⟩
    · rw [hstop, hlast, len_append, len_singleton]
    · by_contra hfits
      have hsize := c.utf8Size_pos
      have hlen := congrArg len hlast
      rw [len_append prior, len_singleton] at hlen
      have hprior : isCharBoundary (left ++ window ++ after) (len prior) = true :=
        isCharBoundary_iff.2 ⟨prior, String.singleton c ++ after,
          by rw [hlast, String.append_assoc], rfl⟩
      rw [hnone (len prior) (by omega) (by omega)] at hprior
      cases hprior
  · have hslice : get? (left ++ window ++ after) (len left) (len (left ++ window)) = some window :=
      get?_eq_some_iff.2 ⟨left, after, rfl, rfl, (len_append ..).symm⟩
    rw [if_neg (by simpa using hnarrow), hslice, Option.map_some]
    refine .inr ⟨_, rfl, ⟨⟨left, after, rfl, rfl⟩, (len_append ..).symm, ?_, rfl, ?_, ?_⟩⟩
    · rw [len_append] at hlow
      dsimp only
      omega
    · exact decide_eq_true_iff
    · intro hpos
      dsimp only
      omega

/-- A refused call has no window. -/
theorem IsWindow.not_refused {window : TextWindow} (hwindow : IsWindow text
    (beforeByte.getD (len text)) limitBytes window) (hlimit : 0 < limitBytes ∧ limitBytes ≤ maximum)
    {e : ε} : ¬ Refused errors maximum text beforeByte limitBytes e := by
  obtain ⟨left, after, htext, hleft⟩ := hwindow.part
  have hlen := congrArg len htext
  rw [len_append, len_append] at hlen
  have hstop := hwindow.stops
  intro hrefused
  cases hrefused with
  | limit h => omega
  | past _ hcursor h =>
    rw [hcursor, Option.getD_some] at hstop
    omega
  | inside _ hcursor hle h =>
    rw [hcursor, Option.getD_some] at hstop
    exact h (left ++ window.text) after htext (by rw [len_append]; omega)
  | @narrow before rest c _ hsplit hcursor h =>
    have hpos := c.utf8Size_pos
    have hprogress := hwindow.progress (by omega)
    have hbytes := hwindow.bytes_le
    have hboundary : isCharBoundary (before ++ String.singleton c ++ rest) window.startByte = true :=
      isCharBoundary_iff.2 ⟨left, window.text ++ after, by rw [← hsplit, htext, String.append_assoc],
        hleft⟩
    have := le_of_isCharBoundary hboundary (by omega)
    omega

/-- A call is refused for one reason. -/
theorem Refused.eq {e e' : ε} (h : Refused errors maximum text beforeByte limitBytes e)
    (h' : Refused errors maximum text beforeByte limitBytes e') : e = e' := by
  have hboundary : ∀ {before after : String} {c : Char},
      text = before ++ String.singleton c ++ after →
      ∃ left right, text = left ++ right ∧ len left = len before + c.utf8Size := by
    intro before after c htext
    exact ⟨_, after, htext, by rw [len_append, len_singleton]⟩
  cases h with
  | limit hlimit =>
    cases h' with
    | limit => rfl
    | past hlimit' | inside hlimit' | narrow hlimit' => omega
  | past hlimit hcursor hpast =>
    cases h' with
    | limit hlimit' => omega
    | past _ hcursor' => rw [Option.some.inj (hcursor.symm.trans hcursor')]
    | inside _ hcursor' hle =>
      cases hcursor.symm.trans hcursor'
      omega
    | narrow _ htext hcursor' =>
      obtain ⟨left, right, hsplit, hleft⟩ := hboundary htext
      have hlen := congrArg len hsplit
      rw [len_append] at hlen
      rw [hcursor, Option.getD_some] at hcursor'
      omega
  | inside hlimit hcursor hle hinside =>
    cases h' with
    | limit hlimit' => omega
    | past _ hcursor' hpast =>
      cases hcursor.symm.trans hcursor'
      omega
    | inside _ hcursor' => rw [Option.some.inj (hcursor.symm.trans hcursor')]
    | narrow _ htext hcursor' =>
      obtain ⟨left, right, hsplit, hleft⟩ := hboundary htext
      rw [hcursor, Option.getD_some] at hcursor'
      exact absurd (hleft.trans hcursor'.symm) (hinside left right hsplit)
  | @narrow before after c hlimit htext hcursor =>
    cases h' with
    | limit hlimit' => omega
    | past _ hcursor' hpast =>
      obtain ⟨left, right, hsplit, hleft⟩ := hboundary htext
      have hlen := congrArg len hsplit
      rw [len_append] at hlen
      rw [hcursor', Option.getD_some] at hcursor
      omega
    | inside _ hcursor' _ hinside =>
      obtain ⟨left, right, hsplit, hleft⟩ := hboundary htext
      rw [hcursor', Option.getD_some] at hcursor
      exact absurd (hleft.trans hcursor.symm) (hinside left right hsplit)
    | @narrow before' after' c' _ htext' hcursor' =>
      -- Two characters that end at one offset begin at one.
      have hends := hcursor.symm.trans hcursor'
      have hsize := c.utf8Size_pos
      have hsize' := c'.utf8Size_pos
      have hle : len before' ≤ len before := le_of_isCharBoundary 
        (htext ▸ isCharBoundary_iff.2 ⟨before', _, htext'.trans (String.append_assoc ..), rfl⟩)
        (by omega)
      have hle' : len before ≤ len before' := le_of_isCharBoundary 
        (htext' ▸ isCharBoundary_iff.2 ⟨before, _, htext.trans (String.append_assoc ..), rfl⟩)
        (by omega)
      rw [show c.utf8Size = c'.utf8Size by omega]

end

/-! ## Reading backward -/

section
variable {ε ω : Type}

/-- The windows of a client that goes on before where each window starts. -/
inductive TextWalk (call : Option Nat → Nat → Option (Except ε ω)) (view : ω → TextWindow)
    (limitBytes : Nat) : Option Nat → List TextWindow → Prop
  | last {beforeByte : Option Nat} {window : ω}
      (h : call beforeByte limitBytes = some (.ok window))
      (hlast : (view window).hasEarlier = false) : TextWalk call view limitBytes beforeByte [view window]
  | earlier {beforeByte : Option Nat} {window : ω} {windows : List TextWindow}
      (h : call beforeByte limitBytes = some (.ok window))
      (hearlier : (view window).hasEarlier = true)
      (rest : TextWalk call view limitBytes (some (view window).startByte) windows) :
      TextWalk call view limitBytes beforeByte (view window :: windows)

/-- What holds of the calls that serve a text. -/
structure Serves (errors : WindowErrors ε) (maximum : Nat) (text : String)
    (call : Option Nat → Nat → Option (Except ε ω)) (view : ω → TextWindow) : Prop where
  /-- No call panics. -/
  answered : ∀ beforeByte limitBytes, call beforeByte limitBytes ≠ none
  refused : ∀ beforeByte limitBytes e, call beforeByte limitBytes = some (.error e) ↔
    Refused errors maximum text beforeByte limitBytes e
  window : ∀ beforeByte limitBytes w, call beforeByte limitBytes = some (.ok w) →
    IsWindow text (beforeByte.getD (len text)) limitBytes (view w)
  /-- Reading backward ends, without an error, and gives the text. -/
  walk : ∀ limitBytes, 4 ≤ limitBytes → limitBytes ≤ maximum →
    ∃ windows, TextWalk call view limitBytes none windows ∧
      windows.IsChain (fun later earlier =>
        earlier.startByte + len earlier.text = later.startByte) ∧
      String.join (windows.reverse.map (·.text)) = text

variable {errors : WindowErrors ε} {maximum : Nat} {text : String}
  {call : Option Nat → Nat → Option (Except ε ω)} {view : ω → TextWindow}

/-- With a limit of a character or more, the call before a boundary gives a window. -/
theorem exists_window
    (hrefused : ∀ beforeByte limitBytes e, call beforeByte limitBytes = some (.error e) →
      Refused errors maximum text beforeByte limitBytes e)
    (hanswered : ∀ beforeByte limitBytes, call beforeByte limitBytes ≠ none)
    {beforeByte : Option Nat} {limitBytes : Nat} (hfour : 4 ≤ limitBytes)
    (hmaximum : limitBytes ≤ maximum) {before after : String} (htext : text = before ++ after)
    (hcursor : beforeByte.getD (len text) = len before) :
    ∃ w, call beforeByte limitBytes = some (.ok w) := by
  have hlen := congrArg len htext
  rw [len_append] at hlen
  cases hcall : call beforeByte limitBytes with
  | none => exact absurd hcall (hanswered _ _)
  | some outcome =>
    cases outcome with
    | ok w => exact ⟨w, rfl⟩
    | error e =>
      cases hrefused _ _ _ hcall with
      | limit h => omega
      | past _ hsome h =>
        rw [hsome, Option.getD_some] at hcursor
        omega
      | inside _ hsome _ h =>
        rw [hsome, Option.getD_some] at hcursor
        exact absurd hcursor.symm (h before after htext)
      | @narrow _ _ c _ _ _ h =>
        have := c.utf8Size_le_four
        omega

/-- The windows before a boundary make up the text before it. The induction is on the boundary: each
window starts before it. -/
theorem exists_textWalk
    (hrefused : ∀ beforeByte limitBytes e, call beforeByte limitBytes = some (.error e) →
      Refused errors maximum text beforeByte limitBytes e)
    (hanswered : ∀ beforeByte limitBytes, call beforeByte limitBytes ≠ none)
    (hwindow : ∀ beforeByte limitBytes w, call beforeByte limitBytes = some (.ok w) →
      IsWindow text (beforeByte.getD (len text)) limitBytes (view w))
    {limitBytes : Nat} (hfour : 4 ≤ limitBytes) (hmaximum : limitBytes ≤ maximum)
    (beforeByte : Option Nat) {before after : String} (htext : text = before ++ after)
    (hcursor : beforeByte.getD (len text) = len before) :
    ∃ window windows, TextWalk call view limitBytes beforeByte (window :: windows) ∧
      window.startByte + len window.text = len before ∧
      (window :: windows).IsChain (fun later earlier =>
        earlier.startByte + len earlier.text = later.startByte) ∧
      String.join ((window :: windows).reverse.map (·.text)) = before := by
  induction hsize : len before using Nat.strong_induction_on generalizing beforeByte before after with
  | h size ih =>
    obtain ⟨w, hcall⟩ := exists_window hrefused hanswered hfour hmaximum htext hcursor
    have hw := hwindow _ _ _ hcall
    rw [hcursor, hsize] at hw
    obtain ⟨left, right, hpart, hleft⟩ := hw.part
    have hstops := hw.stops
    have hbefore : before = left ++ (view w).text := by
      obtain ⟨mid, hmid, -⟩ := exists_between (htext.symm.trans hpart) (by
        rw [len_append]
        omega)
      have hempty : mid = "" := by
        have hlen := congrArg len hmid
        rw [len_append, len_append] at hlen
        exact len_eq_zero.1 (by omega)
      rw [hmid, hempty, String.append_empty]
    cases hearlier : (view w).hasEarlier with
    | false =>
      have hzero : len left = 0 := by
        by_contra hpos
        rw [hw.earlier.2 (by omega)] at hearlier
        cases hearlier
      refine ⟨view w, [], .last hcall hearlier, hstops, .singleton _, ?_⟩
      rw [hbefore, len_eq_zero.1 hzero]
      simp
    | true =>
      have hpos := hw.earlier.1 hearlier
      obtain ⟨next, windows, hwalk, hends, hchain, hjoin⟩ := ih (view w).startByte
        (hw.progress (by omega)) (some (view w).startByte)
        (hpart.trans (String.append_assoc ..)) hleft.symm hleft
      refine ⟨view w, next :: windows, .earlier hcall hearlier hwalk, hstops,
        .cons_cons hends hchain, ?_⟩
      rw [List.reverse_cons, List.map_append, String.join_append, hjoin, hbefore]
      simp

/-- The calls that check the limit and then run the loop serve the text. -/
theorem serves_textWindow (make : TextWindow → ω) (hview : ∀ w, view (make w) = w)
    (hcall : ∀ beforeByte limitBytes, call beforeByte limitBytes =
      if limitBytes == 0 || limitBytes > maximum then
        some (.error (errors.limitOutOfBounds limitBytes maximum))
      else (textWindow errors text beforeByte limitBytes).map fun outcome => outcome.map make) :
    Serves errors maximum text call view := by
  have hcases : ∀ beforeByte limitBytes,
      (∃ e, call beforeByte limitBytes = some (.error e) ∧
        Refused errors maximum text beforeByte limitBytes e) ∨
      ∃ w, call beforeByte limitBytes = some (.ok w) ∧
        IsWindow text (beforeByte.getD (len text)) limitBytes (view w) ∧
        ∀ e : ε, ¬ Refused errors maximum text beforeByte limitBytes e := by
    intro beforeByte limitBytes
    rw [hcall]
    by_cases hlimit : limitBytes = 0 ∨ maximum < limitBytes
    · rw [if_pos (by simpa using hlimit)]
      exact .inl ⟨_, rfl, .limit hlimit⟩
    · rw [if_neg (by simpa using hlimit)]
      obtain ⟨e, he, hrefused⟩ | ⟨w, hw, hwindow⟩ := textWindow_cases errors text beforeByte
        (show 0 < limitBytes ∧ limitBytes ≤ maximum by omega)
      · exact .inl ⟨e, by rw [he]; rfl, hrefused⟩
      · exact .inr ⟨make w, by rw [hw]; rfl, by rwa [hview], fun e =>
          hwindow.not_refused (by omega)⟩
  have hanswered : ∀ beforeByte limitBytes, call beforeByte limitBytes ≠ none := by
    intro beforeByte limitBytes
    obtain ⟨e, he, -⟩ | ⟨w, hw, -⟩ := hcases beforeByte limitBytes
    · simp [he]
    · simp [hw]
  have hrefused : ∀ beforeByte limitBytes e, call beforeByte limitBytes = some (.error e) →
      Refused errors maximum text beforeByte limitBytes e := by
    intro beforeByte limitBytes e he
    obtain ⟨e', he', h⟩ | ⟨w, hw, -⟩ := hcases beforeByte limitBytes
    · rw [he'] at he
      cases he
      exact h
    · rw [hw] at he
      cases he
  have hwindow : ∀ beforeByte limitBytes w, call beforeByte limitBytes = some (.ok w) →
      IsWindow text (beforeByte.getD (len text)) limitBytes (view w) := by
    intro beforeByte limitBytes w hw
    obtain ⟨e, he, -⟩ | ⟨w', hw', h, -⟩ := hcases beforeByte limitBytes
    · rw [he] at hw
      cases hw
    · rw [hw'] at hw
      cases hw
      exact h
  refine ⟨hanswered, fun beforeByte limitBytes e => ⟨hrefused _ _ _, ?_⟩, hwindow, ?_⟩
  · intro h
    obtain ⟨e', he', h'⟩ | ⟨_, -, -, hnone⟩ := hcases beforeByte limitBytes
    · rw [he', h.eq h']
    · exact absurd h (hnone e)
  · intro limitBytes hfour hmaximum
    obtain ⟨window, windows, hwalk, -, hchain, hjoin⟩ := exists_textWalk hrefused hanswered hwindow
      hfour hmaximum none (String.append_empty ..).symm rfl
    exact ⟨_, hwalk, hchain, hjoin⟩

end

/-! ## The two queries -/

/-- Every end of a text that fits is an end of its tail. -/
theorem suffix_tailChars {maximum : Nat} {cs part : List Char} (h : part <:+ cs)
    (hfits : String.utf8Len part ≤ maximum) : part <:+ tailChars maximum cs := by
  induction cs with
  | nil => exact h
  | cons c cs ih =>
    rw [tailChars]
    split
    · exact h
    · next hlong =>
      obtain rfl | hrest := List.suffix_cons_iff.1 h
      · exact absurd hfits hlong
      · exact ih hrest

/-- The loop finds where the tail of the text before the cursor starts. -/
theorem textWindow_eq_tail {ε : Type} (errors : WindowErrors ε) (before after : String)
    (limitBytes : Nat) :
    textWindow errors (before ++ after) (some (len before)) limitBytes = some
      (if len before - len (utf8Tail before limitBytes) = len before ∧ len before > 0 then
        .error (errors.limitTooSmallForCharacter (before.toList.getLast?.elim 1 Char.utf8Size))
      else .ok
        { text := utf8Tail before limitBytes
          startByte := len before - len (utf8Tail before limitBytes)
          totalBytes := len (before ++ after)
          hasEarlier := len before - len (utf8Tail before limitBytes) > 0 }) := by
  have hboundary : isCharBoundary (before ++ after) (len before) = true :=
    isCharBoundary_iff.2 ⟨before, after, rfl, rfl⟩
  obtain ⟨prior, hprior⟩ := utf8Tail_append before limitBytes
  have hlen := congrArg len hprior
  rw [len_append] at hlen
  have hfits := len_utf8Tail_le before limitBytes
  have hstart : nextBoundary (before ++ after) (len before - (len before - limitBytes))
      (len before - limitBytes) = len before - len (utf8Tail before limitBytes) := by
    obtain ⟨hlow, hhigh, hfirst, hnone⟩ := nextBoundary_spec (s := before ++ after)
      (len before - (len before - limitBytes)) (len before - limitBytes)
      (by rwa [Nat.add_sub_cancel' (Nat.sub_le _ _)])
    generalize nextBoundary (before ++ after) (len before - (len before - limitBytes))
      (len before - limitBytes) = start at *
    refine Nat.le_antisymm ?_ ?_
    · by_contra hlt
      have hcut : isCharBoundary (before ++ after) (len prior) = true :=
        isCharBoundary_iff.2 ⟨prior, utf8Tail before limitBytes ++ after,
          by rw [← String.append_assoc, ← hprior], rfl⟩
      rw [hnone (len prior) (by omega) (by omega)] at hcut
      cases hcut
    · obtain ⟨left, right, hsplit, hleft⟩ := isCharBoundary_iff.1 hfirst
      obtain ⟨part, hpart, -⟩ := exists_between hsplit.symm (by omega)
      have hpartLen := congrArg len hpart
      rw [len_append] at hpartLen
      have hsuffix : part.toList <:+ tailChars limitBytes before.toList := by
        refine suffix_tailChars ⟨left.toList, ?_⟩ ?_
        · rw [hpart, String.toList_append]
        · rw [← len_eq]
          omega
      obtain ⟨more, hmore⟩ := hsuffix
      have htail : len (utf8Tail before limitBytes) = String.utf8Len more + len part := by
        rw [utf8Tail, len_ofList, ← hmore, String.utf8Len_append, len_eq]
      omega
  have hbefore : get? (before ++ after) 0 (len before) = some before :=
    get?_eq_some_iff.2 ⟨"", after, by rw [String.empty_append], rfl, by simp⟩
  have hwindow : get? (before ++ after) (len before - len (utf8Tail before limitBytes)) (len before)
      = some (utf8Tail before limitBytes) :=
    get?_eq_some_iff.2 ⟨prior, after, by rw [← hprior], by omega, by omega⟩
  have hpast : ¬ len before > len (before ++ after) := by
    rw [len_append]
    omega
  simp only [textWindow, Option.getD_some, hboundary, hpast, hstart, hbefore, hwindow,
    Option.map_some, Bool.not_true, Bool.false_eq_true, if_false, Bool.and_eq_true, beq_iff_eq,
    decide_eq_true_eq]
  split <;> rfl

namespace SessionTexts

variable (D : Digests) (s : SessionTexts)

/-- The query of a transcript is the query of the session that owns it. -/
theorem transcriptBodyWindow_eq {runId : Option String} {t : DomainTranscript}
    (howner : s.ownerTranscript runId = some t) (entryId : String) (beforeByte : Option Nat)
    (limitBytes : Nat) :
    s.transcriptBodyWindow D runId entryId beforeByte limitBytes =
      some (D.transcriptBodyWindow t entryId beforeByte limitBytes) := by
  have hbody : s.transcriptEntryBody runId entryId = t.transcriptEntryBody entryId := by
    rw [transcriptEntryBody, howner]
    rfl
  rw [transcriptBodyWindow, Digests.transcriptBodyWindow, hbody]
  split
  · rfl
  · next hlimit =>
    cases t.transcriptEntryBody entryId with
    | none => rfl
    | some body =>
      dsimp only
      by_cases hpast : beforeByte.getD (len body) > len body
      · rw [if_pos hpast, textWindow, if_pos hpast]
        rfl
      · rw [if_neg hpast]
        cases hsplit : splitAt? body (beforeByte.getD (len body)) with
        | none =>
          have hinside : (!isCharBoundary body (beforeByte.getD (len body))) = true := by
            rw [isCharBoundary, hsplit]
            rfl
          rw [textWindow, if_neg hpast, if_pos hinside]
          rfl
        | some cut =>
          obtain ⟨before, after⟩ := cut
          obtain ⟨rfl, hlen⟩ := splitAt?_eq_some_iff.1 hsplit
          have hcursor : textWindow TranscriptBodyWindowError.errors (before ++ after) beforeByte
              limitBytes = textWindow TranscriptBodyWindowError.errors (before ++ after)
                (some (beforeByte.getD (len (before ++ after)))) limitBytes := rfl
          rw [hcursor, ← hlen, textWindow_eq_tail]
          dsimp only
          split <;> rfl

/-- A client reads every text of a run and every body of a transcript back, and its calls fail on
the limits and cursors of `Refused` only. -/
theorem text_windows_reconstruct :
    (∀ runId run field text, s.subagents.find? (·.id == runId) = some run →
      s.runText run field = some text →
      Serves RunTextWindowError.errors maxRunTextBytes text (s.runTextWindow runId field)
        RunTextWindow.window) ∧
    ∀ runId entryId body, s.transcriptEntryBody runId entryId = some body →
      Serves TranscriptBodyWindowError.errors maxTranscriptEntryBodyBytes body
        (s.transcriptBodyWindow D runId entryId) TranscriptBodyWindow.window := by
  constructor
  · intro runId run field text hrun htext
    refine serves_textWindow (fun window => ⟨runId, field, window.text, window.startByte,
      window.totalBytes, window.hasEarlier⟩) (fun _ => rfl) ?_
    intro beforeByte limitBytes
    rw [runTextWindow, hrun]
    dsimp only
    rw [htext]
    rfl
  · intro runId entryId body hbody
    refine serves_textWindow (fun window => ⟨D.transcriptBodyDigest body, entryId,
      window.text, window.startByte, window.totalBytes, window.hasEarlier⟩) (fun _ => rfl) ?_
    intro beforeByte limitBytes
    rw [transcriptBodyWindow, hbody]
    rfl

end SessionTexts

end Nakode
