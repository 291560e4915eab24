import Nakode.Lib.Keyed
import Nakode.Lib.Utf8
import Nakode.Protocol
import Nakode.Sync.Histories
import Nakode.Transcript.View

/-!
# Publications and changes-since reads

What the server publishes when a session changed: the events that lead from the last published view
to the current one (`session_publications`). With each publication it notes the generation in which
every transcript entry, and the order of the window, last changed (`track_changes`), so that a watch
that holds an earlier generation reads only the entries that changed since (`session_changes_view`),
which the SDK puts into the state it holds (`apply_transcript_changes`).
-/

namespace Nakode.Sync

open Relational (Table)
open Keyed (rposition?)

/-! ## The published view -/

/-- A session's view. What the transcript and the revision leave of it is `rest`. -/
structure SessionView (μ : Type) where
  id : String
  revision : Nat
  transcript : TranscriptPage
  rest : μ
  deriving DecidableEq

/-- The events of a session. Those that carry no entry or window of its transcript are `other`. -/
inductive ViewEvent (μ ν : Type) where
  | sessionChanged (session : SessionView μ)
  | transcriptEntryCreated (sessionId : String) (revision : Nat) (entry : TranscriptEntryView)
  | transcriptEntryPatched (sessionId : String) (revision : Nat) (entry : TranscriptEntryView)
  | transcriptEntryDelta (sessionId : String) (revision : Nat) (entryId : String)
      (appendAtByte : Nat) (delta : String) (status : TranscriptEntryStatus)
  | transcriptWindowChanged (sessionId : String) (revision : Nat) (window : TranscriptWindowView)
  | other (event : ν)

/-- The events on the rest of a view: those on its metadata, those on its queue, interactions, todos
and runs, and the event that repeats the metadata. -/
structure RestEvents (μ ν : Type) where
  metadata : SessionView μ → SessionView μ → List ν
  others : SessionView μ → SessionView μ → List ν
  unchanged : SessionView μ → ν

/-- A session in memory: what its view shows, and the bodies of the whole transcript by entry. -/
structure ServiceEngine (μ : Type) where
  revision : Nat
  transcript : TranscriptPage
  bodies : List (String × String)
  rest : μ

structure PublishedSessionProjection (μ : Type) where
  view : SessionView μ
  transcriptLengths : Table String Nat
  /-- Which publication this is; zero until `trackChanges` has run. -/
  generation : Nat
  /-- The generation each transcript entry last changed in, aligned with the entries of the view. -/
  entryGenerations : List Nat
  /-- The generation the window's entry order last changed in. -/
  orderGeneration : Nat
  /-- The first generation this session's tracking covers. -/
  trackedSince : Nat

structure ServerCore (μ : Type) where
  sessionsById : Table String (ServiceEngine μ)
  publishedSessions : Table String (PublishedSessionProjection μ)
  /-- Counts session publications across every session. -/
  publicationGeneration : Nat
  sessionHistories : SessionHistories
  sessionInventoryComplete : Bool

variable {μ ν : Type}

namespace ServiceEngine

def sessionView (engine : ServiceEngine μ) (sessionId : String) : SessionView μ :=
  ⟨sessionId, engine.revision, engine.transcript, engine.rest⟩

def transcriptEntryBody (engine : ServiceEngine μ) (entryId : String) : Option String :=
  (engine.bodies.find? (·.1 == entryId)).map (·.2)

end ServiceEngine

/-- From the newest entry on, until every wanted one was found. -/
def lengthsFrom (wanted : List String) (lengths : Table String Nat) :
    List (String × String) → Table String Nat
  | [] => lengths
  | (id, body) :: older =>
    if lengths.rows.length == wanted.eraseDups.length then lengths
    else if wanted.contains id then
      lengthsFrom wanted (lengths.upsert id (Text.len body) fun _ => Text.len body) older
    else lengthsFrom wanted lengths older

def transcriptLengths (engine : ServiceEngine μ) (page : TranscriptPage) : Table String Nat :=
  lengthsFrom (page.entries.map (·.id)) ∅ engine.bodies.reverse

/-! ## Events -/

def appendedTranscriptDelta (engine : ServiceEngine μ) (previous : TranscriptEntryView)
    (previousLength currentLength : Option Nat) : Option String := do
  let previousLength ← previousLength
  let currentLength ← currentLength
  if currentLength < previousLength || Text.len previous.body > previousLength then none
  else
    let body ← engine.transcriptEntryBody previous.id
    let visibleStart := previousLength - Text.len previous.body
    if Text.get? body visibleStart previousLength != some previous.body then none
    else Text.get? body previousLength currentLength

/-- The chunks of a delta, each at the byte where the one before it ends. -/
def deltaEvents (view : SessionView μ) (entry : TranscriptEntryView) :
    Nat → List String → List (ViewEvent μ ν)
  | _, [] => []
  | appendAtByte, chunk :: chunks =>
    .transcriptEntryDelta view.id view.revision entry.id appendAtByte chunk entry.status
      :: deltaEvents view entry (appendAtByte + Text.len chunk) chunks

/-- The events of one entry of the current page. -/
def entryEvents (engine : ServiceEngine μ) (view : SessionView μ) (previous : TranscriptPage)
    (previousLengths currentLengths : Table String Nat) (entry : TranscriptEntryView) :
    List (ViewEvent μ ν) :=
  match previous.entries.find? (·.id == entry.id) with
  | none => [.transcriptEntryCreated view.id view.revision entry]
  | some previousEntry =>
    if previousEntry = entry then []
    else
      let delta := appendedTranscriptDelta engine previousEntry (previousLengths.find? entry.id)
        (currentLengths.find? entry.id)
      match delta.filter fun delta => previousEntry.kind == entry.kind
        && previousEntry.title == entry.title && previousEntry.artifacts == entry.artifacts
        && delta != "" with
      | some delta => deltaEvents view entry ((previousLengths.find? entry.id).getD 0)
          (Text.utf8Chunks delta maxTranscriptDeltaBytes)
      | none => [.transcriptEntryPatched view.id view.revision entry]

def transcriptWindow (page : TranscriptPage) : TranscriptWindowView :=
  ⟨page.entries.map (·.id), page.hasEarlier, page.streamActive, page.streamLabel⟩

def transcriptEvents (engine : ServiceEngine μ) (view : SessionView μ) (previous : TranscriptPage)
    (previousLengths : Table String Nat) (current : TranscriptPage)
    (currentLengths : Table String Nat) : List (ViewEvent μ ν) :=
  current.entries.flatMap (entryEvents engine view previous previousLengths currentLengths)
    ++ if transcriptWindow previous = transcriptWindow current then []
      else [.transcriptWindowChanged view.id view.revision (transcriptWindow current)]

/-- The publications of a session: its whole view when nothing was published before, and otherwise
what changed, or the metadata once more when nothing did. -/
def sessionPublications (R : RestEvents μ ν) (engine : Option (ServiceEngine μ))
    (previous : Option (PublishedSessionProjection μ)) (current : PublishedSessionProjection μ) :
    List (ViewEvent μ ν) :=
  match previous with
  | none => [.sessionChanged current.view]
  | some previous =>
    match engine with
    | none => []
    | some engine =>
      let publications := (R.metadata previous.view current.view).map .other
        ++ transcriptEvents engine current.view previous.view.transcript
          previous.transcriptLengths current.view.transcript current.transcriptLengths
        ++ (R.others previous.view current.view).map .other
      if publications.isEmpty then [.other (R.unchanged current.view)] else publications

/-! ## Generations -/

/-- Entries keep their generations when the window only dropped older entries or appended newer
ones. Any other reordering marks the whole window changed. -/
def carriedGenerations (previous : PublishedSessionProjection μ)
    (entries : List TranscriptEntryView) (generation : Nat) : List Nat :=
  let changed := List.replicate entries.length generation
  let previousEntries := previous.view.transcript.entries
  match entries.head? with
  | none => changed
  | some first =>
    match previousEntries.findIdx? (·.id == first.id) with
    | none => changed
    | some offset =>
      let kept := previousEntries.length - offset
      if kept ≤ entries.length
          && ((previousEntries.drop offset).zip entries).all fun (before, after) =>
            before.id == after.id then
        previous.entryGenerations.drop offset ++ changed.drop kept
      else changed

/-- The entry that an event says has changed. -/
def ViewEvent.changedId? : ViewEvent μ ν → Option String
  | .transcriptEntryCreated _ _ entry => some entry.id
  | .transcriptEntryPatched _ _ entry => some entry.id
  | .transcriptEntryDelta _ _ entryId _ _ _ => some entryId
  | _ => none

def ViewEvent.isWindow : ViewEvent μ ν → Bool
  | .transcriptWindowChanged .. => true
  | _ => false

/-- An entry that an event says has changed gets the generation. -/
def markChanged (entries : List TranscriptEntryView) (generation : Nat) (generations : List Nat)
    (event : ViewEvent μ ν) : List Nat :=
  match event.changedId? with
  | none => generations
  | some changed =>
    match rposition? (·.id == changed) entries with
    | none => generations
    | some index => generations.set index generation

/-- Records which transcript entries the publications changed. -/
def trackChanges (current : PublishedSessionProjection μ)
    (previous : Option (PublishedSessionProjection μ)) (publications : List (ViewEvent μ ν))
    (generation : Nat) : PublishedSessionProjection μ :=
  let entries := current.view.transcript.entries
  match previous.filter (·.generation != 0) with
  | none =>
    { current with
      generation := generation
      trackedSince := generation
      orderGeneration := generation
      entryGenerations := List.replicate entries.length generation }
  | some previous =>
    let reordered := publications.any (·.isWindow)
      || previous.entryGenerations.length != entries.length
    let generations := if reordered then carriedGenerations previous entries generation
      else previous.entryGenerations
    { current with
      generation := generation
      trackedSince := previous.trackedSince
      orderGeneration := if reordered then generation else previous.orderGeneration
      entryGenerations := publications.foldl (markChanged entries generation) generations }

/-! ## The server -/

structure TranscriptChanges where
  /-- The complete window order, when it changed since the requested generation. -/
  entryIds : Option (List String)
  deriving DecidableEq

structure SessionChangesView (μ : Type) where
  generation : Nat
  changes : Option TranscriptChanges
  session : SessionView μ
  deriving DecidableEq

namespace ServerCore

def publishedSession (s : ServerCore μ) (sessionId : String) :
    Option (PublishedSessionProjection μ) := do
  let engine ← s.sessionsById.find? sessionId
  let view := engine.sessionView sessionId
  return ⟨view, transcriptLengths engine view.transcript, 0, [], 0, 0⟩

/-- A server with its default session, whose view is not tracked yet. -/
def new (sessionId : String) (engine : ServiceEngine μ) (histories : SessionHistories)
    (inventoryComplete : Bool) : ServerCore μ :=
  let core : ServerCore μ := ⟨(∅ : Table String (ServiceEngine μ)).insertOrIgnore sessionId engine,
    ∅, 0, histories, inventoryComplete⟩
  match core.publishedSession sessionId with
  | none => core
  | some projection =>
    { core with publishedSessions := core.publishedSessions.insertOrIgnore sessionId projection }

/-- A resource that is not there. Its id, which has no characters to escape, is quoted. -/
def unobservedResource (s : ServerCore μ) (kind id : String) : ServiceError :=
  if s.sessionInventoryComplete then ⟨.notFound, kind ++ " \"" ++ id ++ "\" was not found", false⟩
  else ⟨.internal, "Session inventory is unavailable; resource absence cannot be established. "
    ++ "Retry after the service recovers.", true⟩

def sessionView (s : ServerCore μ) (sessionId : String) : Except ServiceError (SessionView μ) :=
  match s.sessionsById.find? sessionId with
  | some engine => .ok (engine.sessionView sessionId)
  | none => .error (s.unobservedResource "session" sessionId)

/-- Publishes the current view of a session: the events, and the server after it. -/
def publishSessionState [DecidableEq μ] (R : RestEvents μ ν) (codec : Codec (ViewEvent μ ν))
    (s : ServerCore μ) (sessionId : String) (nowMs : Nat) : List (ViewEvent μ ν) × ServerCore μ :=
  match s.publishedSession sessionId with
  | none => ([], s)
  | some session =>
    let previous := s.publishedSessions.find? sessionId
    let publications :=
      sessionPublications R (s.sessionsById.find? sessionId) previous session
    let generation := s.publicationGeneration + 1
    let session := trackChanges session previous publications generation
    let histories :=
      if s.sessionHistories.observes sessionId
          && previous.all (·.view != session.view) then
        s.sessionHistories.record codec sessionId (previous.map (·.view.revision))
          session.view.revision publications nowMs
      else s.sessionHistories
    (publications,
      { s with
        publishedSessions := s.publishedSessions.upsert sessionId session fun _ => session
        publicationGeneration := generation
        sessionHistories := histories })

def releaseSession (s : ServerCore μ) (sessionId : String) : ServerCore μ :=
  { s with
    sessionsById := s.sessionsById.delete fun id _ => id == sessionId
    publishedSessions := s.publishedSessions.delete fun id _ => id == sessionId
    sessionHistories := s.sessionHistories.remove sessionId }

/-- The published session with only the transcript entries changed since a generation. It is a
complete view when the generation predates the session's tracking, and a freshly projected one
(generation zero) when the session changed without publishing. -/
def sessionChangesView (s : ServerCore μ) (sessionId : String) (since : Nat) :
    Except ServiceError (SessionChangesView μ) :=
  let revision := (s.sessionsById.find? sessionId).map (·.revision)
  match (s.publishedSessions.find? sessionId).filter fun published =>
    published.generation != 0 && some published.view.revision == revision with
  | none => do
    let session ← s.sessionView sessionId
    return ⟨0, none, session⟩
  | some published =>
    let session := published.view
    let entries := session.transcript.entries
    if !(since != 0 && since ≥ published.trackedSince) then
      .ok ⟨published.generation, none, session⟩
    else
      let changed := ((entries.zip published.entryGenerations).filter (·.2 > since)).map (·.1)
      let entryIds := if published.orderGeneration > since then some (entries.map (·.id)) else none
      .ok ⟨published.generation, some ⟨entryIds⟩,
        { session with transcript := { session.transcript with entries := changed } }⟩

end ServerCore

/-! ## The client -/

/-- The state of a session as the SDK holds it. -/
structure SessionState (μ : Type) where
  id : String
  revision : Nat
  transcript : Option TranscriptPage
  rest : μ

/-- The view as the gRPC service sends it. -/
def SessionView.state (view : SessionView μ) : SessionState μ :=
  ⟨view.id, view.revision, some view.transcript, view.rest⟩

/-- Rebuilds a complete session state from one snapshot of a transcript-changes watch. Without
changes the snapshot is already complete. With them, its entries are only those created or changed
since `previous`, and the window keeps the order of `previous` unless a new one is given. -/
def applyTranscriptChanges (previous : Option (SessionState μ)) (state : SessionState μ)
    (changes : Option TranscriptChanges) : Option (SessionState μ) :=
  match changes with
  | none => some state
  | some changes => do
    let previousEntries := (← (← previous).transcript).entries
    let transcript ← state.transcript
    let sent := transcript.entries
    let entries ← match changes.entryIds with
      | none => Keyed.replace? (·.id) previousEntries sent
      | some order => Keyed.arrange? (·.id) previousEntries sent order
    return { state with transcript := some { transcript with entries := entries } }

end Nakode.Sync
