import Nakode.Lib.Utf8
import Nakode.Protocol
import Nakode.Transcript.View

/-!
# Hydration

How the SDK completes a transcript (`hydrate_transcript`): starting from the page of a snapshot it
reads earlier pages until it has as many entries as it was asked for or the transcript begins, then
reads every body to its first byte, and checks each answer against what it already holds.
-/

namespace Nakode

/-- What the SDK reads a transcript through. -/
structure TranscriptService where
  getTranscriptPage : Option String → Nat → Except ServiceError TranscriptPage
  getTranscriptBodyWindow : String → Option Nat → Nat → Except ServiceError TranscriptBodyWindow

inductive SdkError where
  | status (error : ServiceError)
  | invalidProjection (message : String)
  deriving DecidableEq, Repr

/-- The answer of the server. -/
def SdkError.lift {α : Type} : Except ServiceError α → Except SdkError α
  | .ok a => .ok a
  | .error error => .error (.status error)

def bodyWindowLimit : Nat := 256 * 1024

/-! ## Bodies -/

/-- A window ends where the body that is held begins, and is of the same body. -/
def contiguous (entry : TranscriptEntryView) (window : TranscriptBodyWindow) : Bool :=
  !(window.entryId != entry.id
    || (entry.bodySha256 != "" && window.bodySha256 != entry.bodySha256)
    || window.totalBytes != entry.bodyTotalBytes
    || window.startByte + Text.len window.body != entry.bodyStartByte
    || window.startByte ≥ entry.bodyStartByte)

/-- The earlier part of a body is put before what is held, until it is complete. -/
def hydrateTranscriptEntry (S : TranscriptService) (entry : TranscriptEntryView) :
    Except SdkError TranscriptEntryView :=
  if entry.bodyStartByte > 0 then
    match SdkError.lift
      (S.getTranscriptBodyWindow entry.id (some entry.bodyStartByte) bodyWindowLimit) with
    | .error error => .error error
    | .ok window =>
      if _h : contiguous entry window then
        if !window.hasEarlier && window.startByte != 0 then
          .error (.invalidProjection ("transcript body for " ++ entry.id ++ " ended early"))
        else
          hydrateTranscriptEntry S
            { entry with body := window.body ++ entry.body, bodyStartByte := window.startByte }
      else .error (.invalidProjection ("transcript body for " ++ entry.id ++ " is not contiguous"))
  else if Text.len entry.body != entry.bodyTotalBytes then
    .error (.invalidProjection ("transcript body for " ++ entry.id ++ " ended early"))
  else .ok entry
termination_by entry.bodyStartByte
decreasing_by
  simp only [contiguous, Bool.not_eq_true', Bool.or_eq_false_iff, decide_eq_false_iff_not] at _h
  exact Nat.lt_of_not_le _h.2

/-- A body that is held from its first byte is complete when it has the length it should have. -/
theorem hydrateTranscriptEntry_whole {S : TranscriptService} {entry : TranscriptEntryView}
    (hstart : entry.bodyStartByte = 0) (htotal : Text.len entry.body = entry.bodyTotalBytes) :
    hydrateTranscriptEntry S entry = .ok entry := by
  rw [hydrateTranscriptEntry]
  simp [hstart, htotal]

/-- A window that fits is put before the body. -/
theorem hydrateTranscriptEntry_window {S : TranscriptService} {entry : TranscriptEntryView}
    {window : TranscriptBodyWindow} (hstart : 0 < entry.bodyStartByte)
    (hwindow : S.getTranscriptBodyWindow entry.id (some entry.bodyStartByte) bodyWindowLimit
      = .ok window)
    (hfits : contiguous entry window = true)
    (hearlier : window.hasEarlier = decide (window.startByte > 0)) :
    hydrateTranscriptEntry S entry = hydrateTranscriptEntry S
      { entry with body := window.body ++ entry.body, bodyStartByte := window.startByte } := by
  have hended : (!window.hasEarlier && window.startByte != 0) = false := by
    rw [hearlier]
    cases window.startByte <;> simp
  rw [hydrateTranscriptEntry, if_pos hstart, hwindow]
  simp only [SdkError.lift, hfits, dif_pos, hended, Bool.false_eq_true, if_false]

/-- A body is completed only with windows of a body of its length and digest. -/
theorem hydrateTranscriptEntry_ok {S : TranscriptService} {entry result : TranscriptEntryView}
    (hstart : 0 < entry.bodyStartByte) (h : hydrateTranscriptEntry S entry = .ok result) :
    ∃ window, S.getTranscriptBodyWindow entry.id (some entry.bodyStartByte) bodyWindowLimit
        = .ok window
      ∧ contiguous entry window = true := by
  rw [hydrateTranscriptEntry, if_pos hstart] at h
  cases hwindow : S.getTranscriptBodyWindow entry.id (some entry.bodyStartByte) bodyWindowLimit with
  | error error => simp [hwindow, SdkError.lift] at h
  | ok window =>
    refine ⟨window, rfl, ?_⟩
    cases hfits : contiguous entry window with
    | true => rfl
    | false => simp [hwindow, SdkError.lift, hfits] at h

/-! ## Pages -/

/-- The page ends where the held one begins, and shares no entry with it. -/
def validateTranscriptPage (current previous : TranscriptPage) : Except SdkError Unit :=
  if (current.prefixBefore != "" && previous.prefixThrough != current.prefixBefore)
      || previous.entries.isEmpty
      || !(previous.entries.map (·.id)).Nodup
      || previous.entries.any (fun entry => (current.entries.map (·.id)).contains entry.id)
      || previous.nextBeforeEntryId.any fun id => previous.entries.head?.all (·.id != id) then
    .error (.invalidProjection "transcript page is not contiguous")
  else .ok ()

/-- An entry takes the place of the one with its id, or follows. -/
def putEntry (combined : List TranscriptEntryView) (entry : TranscriptEntryView) :
    List TranscriptEntryView :=
  match combined.findIdx? (·.id == entry.id) with
  | some position => combined.set position entry
  | none => combined ++ [entry]

def prependEntries (current older : List TranscriptEntryView) (limit : Nat) :
    List TranscriptEntryView :=
  let combined := current.foldl putEntry older
  combined.drop (combined.length - limit)

/-- A limit as the request carries it. -/
def boundedLimit (remaining : Nat) : Nat := min (max remaining 1) (2 ^ 32 - 1)

/-- Earlier pages are read until the limit is reached or the transcript begins, if within the
fuel. -/
def hydratePages (S : TranscriptService) (limit : Nat) :
    Nat → TranscriptPage → Option (Except SdkError TranscriptPage)
  | fuel, transcript =>
    if !(transcript.hasEarlier && transcript.entries.length < limit) then some (.ok transcript)
    else if transcript.prefixBefore != "" && transcript.nextBeforeEntryId.isNone then
      -- has_earlier may mean that earlier history was not kept
      some (.ok transcript)
    else match fuel with
      | 0 => none
      | fuel + 1 =>
        match transcript.entries.head? with
        | none => some (.error (.invalidProjection "transcript cursor made no progress"))
        | some first =>
          match SdkError.lift (S.getTranscriptPage (some first.id)
            (boundedLimit (limit - transcript.entries.length))) with
          | .error error => some (.error error)
          | .ok page =>
            match validateTranscriptPage transcript page with
            | .error error => some (.error error)
            | .ok () =>
              let entries := prependEntries transcript.entries page.entries limit
              if entries.length == transcript.entries.length then
                some (.error (.invalidProjection "transcript cursor made no progress"))
              else hydratePages S limit fuel { transcript with
                prefixBefore := page.prefixBefore
                nextBeforeEntryId := page.nextBeforeEntryId
                entries := entries
                hasEarlier := page.hasEarlier }

theorem hydratePages_done {S : TranscriptService} {limit fuel : Nat} {transcript : TranscriptPage}
    (h : (transcript.hasEarlier && decide (transcript.entries.length < limit)) = false
      ∨ (transcript.prefixBefore != "" && transcript.nextBeforeEntryId.isNone) = true) :
    hydratePages S limit fuel transcript = some (.ok transcript) := by
  unfold hydratePages
  rcases h with h | h
  · simp [h]
  · simp [h]

theorem hydratePages_next {S : TranscriptService} {limit fuel : Nat}
    {transcript page : TranscriptPage} {first : TranscriptEntryView}
    (hmore : (transcript.hasEarlier && decide (transcript.entries.length < limit)) = true)
    (hnext : (transcript.prefixBefore != "" && transcript.nextBeforeEntryId.isNone) = false)
    (hfirst : transcript.entries.head? = some first)
    (hpage : S.getTranscriptPage (some first.id)
      (boundedLimit (limit - transcript.entries.length)) = .ok page)
    (hvalid : validateTranscriptPage transcript page = .ok ())
    (hprogress : (prependEntries transcript.entries page.entries limit).length
      ≠ transcript.entries.length) :
    hydratePages S limit (fuel + 1) transcript = hydratePages S limit fuel { transcript with
      prefixBefore := page.prefixBefore
      nextBeforeEntryId := page.nextBeforeEntryId
      entries := prependEntries transcript.entries page.entries limit
      hasEarlier := page.hasEarlier } := by
  rw [hydratePages]
  simp [hmore, hnext, hfirst, hpage, hvalid, hprogress, SdkError.lift]

/-- A tool or diff entry of a turn. -/
def isToolCallOf (ownerTurnId : String) (entry : TranscriptEntryView) : Bool :=
  entry.ownerTurnId == some ownerTurnId && (entry.kind == .tool || entry.kind == .diff)

/-- A page with more entries than the limit keeps its newest, and no longer describes its original
boundary. -/
def trimPage (transcript : TranscriptPage) (limit : Nat) : TranscriptPage :=
  if transcript.entries.length > limit then
    let entries := transcript.entries.drop (transcript.entries.length - limit)
    { transcript with
      entries := entries
      prefixBefore := ""
      nextBeforeEntryId := entries.head?.map (·.id)
      hasEarlier := true }
  else transcript

/-- The tool calls of the current owner that the pages do not show, when the pages were read. -/
def omittedAfter (transcript hydrated : TranscriptPage) (limit : Nat) : Nat :=
  if !hydrated.hasEarlier then 0
  else match transcript.currentOwnerEntry.bind (·.ownerTurnId) with
    | none => hydrated.currentOwnerOmittedToolCalls
    | some ownerTurnId =>
      let trimmed := (transcript.entries.take (transcript.entries.length - limit)).countP
        (isToolCallOf ownerTurnId)
      let restored := hydrated.entries.countP fun entry =>
        !(transcript.entries.map (·.id)).contains entry.id && isToolCallOf ownerTurnId entry
      hydrated.currentOwnerOmittedToolCalls + trimmed - restored

def hydrateCurrentOwner (S : TranscriptService) :
    Option TranscriptEntryView → Except SdkError (Option TranscriptEntryView)
  | none => .ok none
  | some currentOwner => (hydrateTranscriptEntry S currentOwner).map some

/-- The newest entries of a transcript, at most `limit` of them, each with its whole body. -/
def hydrateTranscript (S : TranscriptService) (fuel : Nat) (transcript : TranscriptPage)
    (limit : Nat) : Option (Except SdkError TranscriptPage) :=
  (hydratePages S limit fuel (trimPage transcript limit)).map fun pages => do
    let paged ← pages
    let entries ← paged.entries.mapM (hydrateTranscriptEntry S)
    let currentOwnerEntry ← hydrateCurrentOwner S paged.currentOwnerEntry
    let hydrated := { paged with entries := entries, currentOwnerEntry := currentOwnerEntry }
    return { hydrated with
      currentOwnerOmittedToolCalls := omittedAfter transcript hydrated limit }

theorem hydrateCurrentOwner_ok_iff {S : TranscriptService} {owner : Option TranscriptEntryView} :
    (∃ result, hydrateCurrentOwner S owner = .ok result)
      ↔ ∀ view ∈ owner, ∃ result, hydrateTranscriptEntry S view = .ok result := by
  cases owner with
  | none => exact iff_of_true ⟨none, rfl⟩ fun _ h => absurd h (Option.not_mem_none _)
  | some view =>
    simp only [hydrateCurrentOwner, Option.mem_some_iff, forall_eq']
    cases hydrateTranscriptEntry S view with
    | error error => exact iff_of_false (fun ⟨_, h⟩ => nomatch h) (fun ⟨_, h⟩ => nomatch h)
    | ok result => exact iff_of_true ⟨_, rfl⟩ ⟨result, rfl⟩

section
variable {S : TranscriptService} {fuel limit : Nat} {transcript paged : TranscriptPage}
  {rows : List TranscriptEntryView}
  (hpaged : hydratePages S limit fuel (trimPage transcript limit) = some (.ok paged))
  (hrows : paged.entries.mapM (hydrateTranscriptEntry S) = .ok rows)

include hpaged hrows

/-- With the pages read and the rows completed, only the current owner entry is left to complete. -/
theorem hydrateTranscript_ok_iff :
    (∃ result, hydrateTranscript S fuel transcript limit = some (.ok result))
      ↔ ∀ view ∈ paged.currentOwnerEntry, ∃ result, hydrateTranscriptEntry S view = .ok result := by
  rw [← hydrateCurrentOwner_ok_iff]
  simp only [hydrateTranscript, hpaged, Option.map_some, bind, Except.bind, hrows]
  cases hydrateCurrentOwner S paged.currentOwnerEntry with
  | error error => exact iff_of_false (fun ⟨_, h⟩ => nomatch h) (fun ⟨_, h⟩ => nomatch h)
  | ok result => exact iff_of_true ⟨_, rfl⟩ ⟨result, rfl⟩

theorem hydrateTranscript_entries {result : TranscriptPage}
    (h : hydrateTranscript S fuel transcript limit = some (.ok result)) : result.entries = rows := by
  simp only [hydrateTranscript, hpaged, Option.map_some, bind, Except.bind, hrows] at h
  cases howner : hydrateCurrentOwner S paged.currentOwnerEntry with
  | error error => rw [howner] at h; cases h
  | ok owner => rw [howner] at h; cases h; rfl

end

end Nakode
