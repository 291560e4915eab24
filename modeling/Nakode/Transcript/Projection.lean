import Nakode.Lib.Table
import Nakode.Lib.Utf8
import Nakode.Protocol
import Nakode.Transcript.View

/-!
# Transcripts and their projection

The transcript that the server owns (`DomainTranscript`) and what it answers to a client that reads
it: a page of entries that ends before a given one, bounded in entries and in bytes
(`projected_transcript_page`), and a window onto one body (`transcript_body_window`). Each page
carries proofs of the entries before its start and through its end, a chain of digests
(`transcript_prefixes`). The digests are computed here; the server keeps those of unchanged entries.
-/

namespace Nakode

open Relational (Table)

/-! ## Transcripts -/

inductive EntryKind where
  | system
  | user
  | assistant
  | steering
  | reasoning
  | tool
  | diff
  | warning
  | error
  deriving DecidableEq, Repr

inductive EntryStatus where
  | running
  | complete
  | failed
  | interrupted
  deriving DecidableEq, Repr

structure TranscriptEntry where
  coordinationJson : Option String := none
  id : String
  key : Option String := none
  kind : EntryKind
  title : String
  body : String
  status : EntryStatus
  createdAtMs : Option Nat := none
  providerId : Option String := none
  modelId : Option String := none
  ownerTurnId : Option String := none
  reasoningEffort : Option String := none
  fastMode : Option Bool := none
  sourceTransport : Option String := none
  toolAuditJson : Option String := none
  deriving DecidableEq, Repr

structure TranscriptImageArtifact where
  label : String
  data : List UInt8

structure DomainTranscript where
  entries : List TranscriptEntry
  /-- The images of an entry, by its key. -/
  images : Table String (List TranscriptImageArtifact)
  streamActive : Bool
  streamLabel : String
  /-- Older history was not kept. -/
  historyTruncated : Bool

/-- SHA-256, the reader of a string field of a JSON object, and UUIDs by name. -/
structure Digests where
  sha256 : List UInt8 → Vector UInt8 32
  auditField : String → String → Option String
  uuidV5 : String → String

/-- `str::as_bytes`. -/
def bytes (s : String) : List UInt8 := s.toUTF8.data.toList

/-- `u64::to_le_bytes`. -/
def leBytes (n : Nat) : List UInt8 := (List.range 8).map fun i => UInt8.ofNat (n / 256 ^ i)

def hexDigest (digest : Vector UInt8 32) : String :=
  String.ofList (digest.toList.flatMap fun byte =>
    [Text.hexDigit (byte.toNat / 16), Text.hexDigit (byte.toNat % 16)])

def EntryKind.view : EntryKind → TranscriptEntryKind
  | .system => .system
  | .user => .user
  | .assistant => .assistant
  | .steering => .steering
  | .reasoning => .reasoning
  | .tool => .tool
  | .diff => .diff
  | .warning => .warning
  | .error => .error

/-- The name of a kind in JSON. -/
def EntryKind.name : EntryKind → String
  | .system => "System"
  | .user => "User"
  | .assistant => "Assistant"
  | .steering => "Steering"
  | .reasoning => "Reasoning"
  | .tool => "Tool"
  | .diff => "Diff"
  | .warning => "Warning"
  | .error => "Error"

def EntryStatus.view : EntryStatus → TranscriptEntryStatus
  | .running => .running
  | .complete => .complete
  | .failed => .failed
  | .interrupted => .interrupted

/-- The name of a status in JSON. -/
def EntryStatus.name : EntryStatus → String
  | .running => "Running"
  | .complete => "Complete"
  | .failed => "Failed"
  | .interrupted => "Interrupted"

/-- The JSON of an entry. -/
def TranscriptEntry.json (entry : TranscriptEntry) : Text.Json :=
  .obj [("coordination_json", .ofOption entry.coordinationJson), ("id", .str entry.id),
    ("key", .ofOption entry.key), ("kind", .str entry.kind.name), ("title", .str entry.title),
    ("body", .str entry.body), ("status", .str entry.status.name),
    ("created_at_ms", match entry.createdAtMs with
      | some ms => .int ms
      | none => .null),
    ("provider_id", .ofOption entry.providerId), ("model_id", .ofOption entry.modelId),
    ("owner_turn_id", .ofOption entry.ownerTurnId),
    ("reasoning_effort", .ofOption entry.reasoningEffort),
    ("fast_mode", match entry.fastMode with
      | some b => .bool b
      | none => .null),
    ("source_transport", .ofOption entry.sourceTransport),
    ("tool_audit_json", .ofOption entry.toolAuditJson)]

def visibleTranscriptEntry (entry : TranscriptEntry) : Bool :=
  !entry.key.any (Text.startsWith · "subagent:")

namespace DomainTranscript

def imageArtifacts (t : DomainTranscript) (entry : TranscriptEntry) :
    List TranscriptImageArtifact :=
  (entry.key.bind t.images.find?).getD []

/-- The entries that clients see. -/
def visible (t : DomainTranscript) : List TranscriptEntry :=
  t.entries.filter visibleTranscriptEntry

/-- The newest user entry. -/
def currentOwner (t : DomainTranscript) : Option TranscriptEntry :=
  t.visible.reverse.find? (·.kind == .user)

end DomainTranscript

/-! ## Digests and prefix proofs -/

/-- What an entry contributes to transcript proofs, derived from the entry alone. -/
structure EntryDigest where
  content : Vector UInt8 32
  bodySha256 : String
  parentItemId : Option String
  codemodeTool : Bool

namespace Digests

variable (D : Digests)

def transcriptBodyDigest (body : String) : String := hexDigest (D.sha256 (bytes body))

def toolAuditIdentity (entry : TranscriptEntry) (field : String) : Option String :=
  entry.toolAuditJson.bind fun audit => D.auditField audit field

/-- The body joins the proof through its own digest. -/
def entryDigest (entry : TranscriptEntry) : EntryDigest :=
  let bodySha256 := D.transcriptBodyDigest entry.body
  let metadata := { entry with body := "" }
  { content := D.sha256 (bytes metadata.json.render ++ bytes bodySha256)
    bodySha256 := bodySha256
    parentItemId := D.toolAuditIdentity entry "parentItemId"
    codemodeTool := entry.kind == .tool
      && D.toolAuditIdentity entry "name" == some "codemode" }

/-- The ids of the code-mode tools of a transcript. -/
def codemodeTools (t : DomainTranscript) : List String :=
  (t.entries.filter fun entry => (D.entryDigest entry).codemodeTool).map (·.id)

/-- The chain after a visible entry. -/
def chainStep (t : DomainTranscript) (current : Vector UInt8 32) (entry : TranscriptEntry) :
    Vector UInt8 32 :=
  let digest := D.entryDigest entry
  D.sha256 (current.toList ++ digest.content.toList
    ++ leBytes (t.imageArtifacts entry).length
    ++ match digest.parentItemId.filter (D.codemodeTools t).contains with
      | some parent => 1 :: leBytes (Text.len parent) ++ bytes parent
      | none => [0])

/-- The proofs after each visible entry. An entry that is not visible leaves the chain unchanged. -/
def prefixesFrom (t : DomainTranscript) (current : Vector UInt8 32) :
    List TranscriptEntry → List String
  | [] => []
  | entry :: rest =>
    if visibleTranscriptEntry entry then
      let next := D.chainStep t current entry
      hexDigest next :: prefixesFrom t next rest
    else prefixesFrom t current rest

def prefixStart (t : DomainTranscript) : Vector UInt8 32 :=
  D.sha256 (bytes "nakode.transcript.prefix.v3" ++ [if t.historyTruncated then 1 else 0])

/-- A proof for each number of visible entries. -/
def transcriptPrefixes (t : DomainTranscript) : List String :=
  hexDigest (D.prefixStart t) :: D.prefixesFrom t (D.prefixStart t) t.entries

/-! ## Entry views -/

def transcriptArtifactId (entryId : String) (index : Nat) : String :=
  D.uuidV5 ("artifact:" ++ entryId ++ ":" ++ toString index)

def parentToolEntryId (t : DomainTranscript) (entry : TranscriptEntry) : Option String := do
  let parentItemId ← D.toolAuditIdentity entry "parentItemId"
  let parent ← t.entries.find? fun candidate =>
    candidate.kind == .tool && candidate.id == parentItemId
      && D.toolAuditIdentity candidate "name" == some "codemode"
  return parent.id

/-- The text that stands in for coordination messages left out of a bounded view. -/
def coordinationNotice : String :=
  "Coordination messages omitted; open the full session transcript."

/-- As much of the notice as the body would have taken. -/
def coordinationStub (body : String) : String :=
  String.ofList (coordinationNotice.toList.take (Text.len body))

def transcriptEntryView (t : DomainTranscript) (entry : TranscriptEntry) (body : String)
    (includeAudit includeCoordination : Bool) : TranscriptEntryView :=
  let view : TranscriptEntryView :=
    { bodySha256 := (D.entryDigest entry).bodySha256
      id := entry.id
      kind := entry.kind.view
      title := entry.title
      body := body
      bodyStartByte := Text.len entry.body - Text.len body
      bodyTotalBytes := Text.len entry.body
      status := entry.status.view
      artifacts := (List.range (t.imageArtifacts entry).length).map
        (D.transcriptArtifactId entry.id)
      createdAtMs := entry.createdAtMs
      providerId := entry.providerId
      modelId := entry.modelId
      ownerTurnId := entry.ownerTurnId
      resolvedReasoningEffort := entry.reasoningEffort
      resolvedFastMode := entry.fastMode
      sourceTransport := entry.sourceTransport
      sourcePromptId := if entry.kind = .user then
          entry.key.bind fun key => if Text.startsWith key "user:" then
            some (String.ofList (key.toList.drop 5)) else none
        else none
      toolAuditJson := if includeAudit then entry.toolAuditJson else none
      coordinationJson := if includeCoordination then entry.coordinationJson else none
      parentToolEntryId := D.parentToolEntryId t entry }
  if entry.coordinationJson.isSome && !includeCoordination then
    let stub := coordinationStub body
    { view with
      kind := .system
      title := "Coordination messages omitted from this bounded view; open the full transcript"
      body := stub
      bodyStartByte := 0
      bodyTotalBytes := Text.len stub
      bodySha256 := D.transcriptBodyDigest stub
      artifacts := []
      sourcePromptId := none }
  else view

end Digests

/-! ## Pages -/

def maxTranscriptPageEntries : Nat := 128
def maxTranscriptPageBodyBytes : Nat := 512 * 1024
def maxTranscriptSnapshotEntries : Nat := 256
def maxTranscriptSnapshotBodyBytes : Nat := 1024 * 1024
def maxTranscriptEntryBodyBytes : Nat := 256 * 1024
def transcriptWindowAlignment : Nat := 64

/-- The bytes of an entry's tool audit and coordination record. -/
def TranscriptEntry.auditBytes (entry : TranscriptEntry) : Nat :=
  entry.toolAuditJson.elim 0 Text.len + entry.coordinationJson.elim 0 Text.len

/-- How many entries the live session snapshot holds so that it starts on a multiple of the
alignment. -/
def alignedNewestWindow (len limit : Nat) : Nat :=
  if len ≤ limit || limit ≤ transcriptWindowAlignment then limit
  else len - (len - limit + (transcriptWindowAlignment - 1)) / transcriptWindowAlignment
    * transcriptWindowAlignment

namespace Digests

variable (D : Digests)

/-- The rows of a page, from its newest entry on, until a limit or the byte budget is reached. The
first row is always shown; its audit is left out when it does not fit. -/
def projectRows (t : DomainTranscript) : Nat → Nat → Bool → List TranscriptEntry →
    List TranscriptEntryView
  | 0, _, _, _ => []
  | _ + 1, _, _, [] => []
  | limit + 1, remaining, first, entry :: older =>
    if !first && (entry.auditBytes > remaining || (remaining == 0 && entry.body != "")) then []
    else
      let includeAudit := decide (entry.auditBytes ≤ remaining)
      let remaining := if includeAudit then remaining - entry.auditBytes else remaining
      let body := Text.utf8Tail entry.body (min remaining maxTranscriptEntryBodyBytes)
      D.transcriptEntryView t entry body includeAudit includeAudit
        :: projectRows t limit (remaining - Text.len body) false older

def omittedOwnerToolCalls (entries : List TranscriptEntry) (currentOwner : Option TranscriptEntry)
    (projected : List TranscriptEntryView) : Nat :=
  match currentOwner.bind (·.ownerTurnId) with
  | none => 0
  | some turnId => entries.countP fun entry =>
    (entry.kind == .tool || entry.kind == .diff) && entry.ownerTurnId == some turnId
      && !(projected.map (·.id)).contains entry.id

/-- The current owner entry beside a page: without its body when it is one of the rows. -/
def projectedCurrentOwner (t : DomainTranscript) (currentOwner : Option TranscriptEntry)
    (projected : List TranscriptEntryView) (reservedOwnerBody : Option String)
    (includeCoordination : Bool) : Option TranscriptEntryView :=
  currentOwner.map fun entry =>
    match projected.find? (·.id == entry.id) with
    | some projected => { projected with body := "", bodyStartByte := projected.bodyTotalBytes }
    | none => D.transcriptEntryView t entry (reservedOwnerBody.getD "") false includeCoordination

/-- What a page keeps of its budget for the current owner entry, and what is left for its rows. -/
structure OwnerReserve where
  coordinationBytes : Nat
  body : Option String
  remaining : Nat

/-- The coordination record of the current owner entry is reserved when it fits, and the end of its
body when the entry is older than the window of rows. -/
def ownerReserve (entries : List TranscriptEntry) (currentOwner : Option TranscriptEntry)
    (windowStart bodyBudget : Nat) : OwnerReserve :=
  let outside := currentOwner.any fun owner =>
    (entries.findIdx? (·.id == owner.id)).any (· < windowStart)
  let coordinationBytes :=
    ((currentOwner.bind (·.coordinationJson)).filter (Text.len · ≤ bodyBudget)).elim 0 Text.len
  let bodyBudget := bodyBudget - coordinationBytes
  let body := (currentOwner.filter fun _ => outside).map fun entry =>
    Text.utf8Tail entry.body (min bodyBudget maxTranscriptEntryBodyBytes)
  ⟨coordinationBytes, body, bodyBudget - body.elim 0 Text.len⟩

/-- The page of at most `limit` visible entries that ends before an entry, or with the newest. -/
def projectedTranscriptPage (t : DomainTranscript) (before : Option String) (limit bodyBudget : Nat) :
    Option TranscriptPage := do
  let entries := t.visible
  let stop ← match before with
    | none => some entries.length
    | some before => entries.findIdx? (·.id == before)
  let currentOwner := if before.isNone then t.currentOwner else none
  let reserve := ownerReserve (entries.take stop) currentOwner (stop - limit) bodyBudget
  let prefixes := D.transcriptPrefixes t
  let projected :=
    (D.projectRows t limit reserve.remaining true (entries.take stop).reverse).reverse
  let start := stop - projected.length
  let prefixBefore ← prefixes[start]?
  let prefixThrough ← prefixes[stop]?
  return {
    prefixBefore := prefixBefore
    prefixThrough := prefixThrough
    nextBeforeEntryId := if start > 0 then projected.head?.map (·.id) else none
    entries := projected
    hasEarlier := t.historyTruncated || decide (projected.length < stop)
    streamActive := before.isNone && t.streamActive
    streamLabel := t.streamLabel
    currentOwnerEntry := D.projectedCurrentOwner t currentOwner projected reserve.body
      (decide (reserve.coordinationBytes > 0))
    currentOwnerOmittedToolCalls := omittedOwnerToolCalls entries currentOwner projected }

/-- The newest page of a session snapshot. -/
def transcriptPage (t : DomainTranscript) : Option TranscriptPage :=
  D.projectedTranscriptPage t none
    (alignedNewestWindow t.visible.length maxTranscriptSnapshotEntries)
    maxTranscriptSnapshotBodyBytes

/-- A page that a client asks for, of a session's transcript or of a run's. -/
def sessionTranscriptPage (t : DomainTranscript) (before : Option String) (limit : Nat) :
    Option TranscriptPage :=
  D.projectedTranscriptPage t before (min limit maxTranscriptPageEntries)
    maxTranscriptPageBodyBytes

end Digests

/-! ## Body windows -/

inductive TranscriptBodyWindowError where
  | entryNotFound
  | limitOutOfBounds (actual maximum : Nat)
  | cursorOutOfBounds (actual total : Nat)
  | cursorNotUtf8Boundary (actual : Nat)
  | limitTooSmallForCharacter (minimum : Nat)
  deriving DecidableEq, Repr

def DomainTranscript.transcriptEntryBody (t : DomainTranscript) (entryId : String) :
    Option String :=
  (t.entries.find? (·.id == entryId)).map (·.body)

/-- The window of at most `limitBytes` bytes of a body that ends at a byte. -/
def Digests.transcriptBodyWindow (D : Digests) (t : DomainTranscript) (entryId : String)
    (beforeByte : Option Nat) (limitBytes : Nat) :
    Except TranscriptBodyWindowError TranscriptBodyWindow :=
  if limitBytes == 0 || limitBytes > maxTranscriptEntryBodyBytes then
    .error (.limitOutOfBounds limitBytes maxTranscriptEntryBodyBytes)
  else match t.transcriptEntryBody entryId with
    | none => .error .entryNotFound
    | some body =>
      let stop := beforeByte.getD (Text.len body)
      if stop > Text.len body then .error (.cursorOutOfBounds stop (Text.len body))
      else match Text.splitAt? body stop with
        | none => .error (.cursorNotUtf8Boundary stop)
        | some (before, _) =>
          let window := Text.utf8Tail before limitBytes
          let start := stop - Text.len window
          if start = stop ∧ stop > 0 then
            .error (.limitTooSmallForCharacter
              (before.toList.getLast?.elim 1 Char.utf8Size))
          else .ok
            { bodySha256 := D.transcriptBodyDigest body
              entryId := entryId
              body := window
              startByte := start
              totalBytes := Text.len body
              hasEarlier := decide (start > 0) }

/-! ## What a client is answered -/

/-- A resource that is not there. Its id, which has no characters to escape, is quoted. -/
def notFound (kind id : String) : ServiceError :=
  ⟨.notFound, kind ++ " \"" ++ id ++ "\" was not found", false⟩

def transcriptBodyWindowError (error : TranscriptBodyWindowError) (entryId : String) :
    ServiceError :=
  match error with
  | .entryNotFound => notFound "transcript entry" entryId
  | .limitOutOfBounds actual maximum =>
    ⟨.invalidRequest, "body window limit must be between 1 and " ++ toString maximum
      ++ " bytes; received " ++ toString actual, false⟩
  | .cursorOutOfBounds actual total =>
    ⟨.invalidRequest, "body window cursor " ++ toString actual ++ " exceeds entry length "
      ++ toString total, false⟩
  | .cursorNotUtf8Boundary actual =>
    ⟨.invalidRequest, "body window cursor " ++ toString actual
      ++ " is not a UTF-8 character boundary", false⟩
  | .limitTooSmallForCharacter minimum =>
    ⟨.invalidRequest, "body window limit is too small for the preceding UTF-8 character; "
      ++ "minimum is " ++ toString minimum ++ " bytes", false⟩

def Digests.queryTranscriptPage (D : Digests) (t : DomainTranscript) (before : Option String)
    (limit : Nat) : Except ServiceError TranscriptPage :=
  match D.sessionTranscriptPage t before limit with
  | some page => .ok page
  | none => .error (notFound "transcript entry" (before.getD ""))

def Digests.queryTranscriptBodyWindow (D : Digests) (t : DomainTranscript) (entryId : String)
    (beforeByte : Option Nat) (limitBytes : Nat) : Except ServiceError TranscriptBodyWindow :=
  match D.transcriptBodyWindow t entryId beforeByte limitBytes with
  | .ok window => .ok window
  | .error error => .error (transcriptBodyWindowError error entryId)

end Nakode
