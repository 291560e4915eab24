import Nakode.Domain.State
import Nakode.Lib.Retention
import Nakode.Lib.Trace

/-!
# Context that a session's runs share

A session and its delegated runs publish short findings under keys of their own
(`SharedContext.publish`). The session holds the newest of them, the store keeps as many in a table
of its own (`save`), and a resumed session installs what the store lists
(`SharedContext.install`). `system` has the publications of one session in any order with the saves
and resumes, and a log of every entry that was added.
-/

namespace Nakode.Delegation

open Domain (DomainCommandError)
open Transition

def maxSharedContextEntries : Nat := 64

def maxSharedContextBodyBytes : Nat := 4 * 1024

def maxU64 : Nat := 2 ^ 64 - 1

def maxI64 : Nat := 2 ^ 63 - 1

structure SharedContextEntry where
  sequence : Nat
  id : String
  parentSessionId : String
  authorRunId : Option String
  authorLabel : String
  kind : String
  body : String
  deriving DecidableEq, Repr

/-- What a publication is made of. -/
structure Publication where
  authorRunId : Option String
  idempotencyKey : String
  kind : String
  body : String
  deriving DecidableEq, Repr

/-- The state of a session that its publications read and change. A run is known by its id and the
agent it runs. -/
structure SharedContext where
  nakodeSessionId : String
  subagents : List (String × String)
  sharedContext : List SharedContextEntry
  sharedContextTotal : Nat
  deriving DecidableEq, Repr

namespace SharedContext

variable (s : SharedContext)

/-- `install_shared_context`: the newest of the stored entries. -/
def install (entries : List SharedContextEntry) : SharedContext :=
  let entries := entries.insertionSort (·.sequence ≤ ·.sequence)
  { s with
    sharedContextTotal := (entries.getLast?.map (·.sequence)).getD 0
    sharedContext := entries.drop (entries.length - maxSharedContextEntries) }

/-- The label of an author that the session knows: the agent of a run, or the session itself. -/
def authorLabel? : Option String → Option String
  | none => some "parent"
  | some runId => (s.subagents.find? (·.1 == runId)).map (·.2)

/-- `publish_shared_context`: the id of the entry, the entries to persist, and the state then. -/
def publish (p : Publication) :
    Except DomainCommandError (String × List SharedContextEntry × SharedContext) :=
  let id := Text.trim p.idempotencyKey
  let kind := Text.trim p.kind
  let body := Text.trim p.body
  if id.isEmpty || Text.len id > 128 then
    .error (.invalid "shared context idempotency key must be 1..=128 bytes")
  else if !(kind == "finding" || kind == "decision" || kind == "validation") then
    .error (.invalid "shared context kind must be finding, decision, or validation")
  else if body.isEmpty || Text.len body > maxSharedContextBodyBytes then
    .error (.invalid "shared context body must be 1..=4096 bytes")
  else
    match s.authorLabel? p.authorRunId with
    | none => .error (.notFound ("run " ++ Text.quote (p.authorRunId.getD "")))
    | some authorLabel =>
      match s.sharedContext.find? (·.id == id) with
      | some existing =>
        if existing.authorRunId = p.authorRunId ∧ existing.kind = kind ∧ existing.body = body then
          .ok (existing.id, [], s)
        else
          .error (.conflict "shared context idempotency key was replayed with different content")
      | none =>
        let entry : SharedContextEntry :=
          { sequence := min maxU64 (s.sharedContextTotal + 1)
            id
            parentSessionId := s.nakodeSessionId
            authorRunId := p.authorRunId
            authorLabel
            kind
            body }
        .ok (entry.id, [entry],
          { s with
            sharedContextTotal := min maxU64 (s.sharedContextTotal + 1)
            sharedContext := Retention.push maxSharedContextEntries s.sharedContext entry })

/-- `validation_evidence_sequence`: the retained sequence of a validation. -/
def validationEvidenceSequence (requesterRunId : Option String) (identity : String) :
    Except String (Option Nat) :=
  if requesterRunId.any fun runId => !s.subagents.any (·.1 == runId) then
    .error ("unknown attributed requester run " ++ Text.quote (requesterRunId.getD ""))
  else if Text.len identity != 64 || !identity.toList.all fun c =>
      c.isDigit || ('a' ≤ c && c ≤ 'f') || ('A' ≤ c && c ≤ 'F') then
    .error "validation evidence identity must be a 64-character SHA-256 hex digest"
  else
    .ok ((s.sharedContext.find? fun entry =>
      entry.id == "validation:" ++ identity && entry.kind == "validation").map (·.sequence))

/-- The publication of a validation. -/
def evidence (requesterRunId : Option String) (identity body : String) : Publication :=
  ⟨requesterRunId, "validation:" ++ identity, "validation", body⟩

/-- `record_validation_evidence`: a validation is published unless one is retained. The text of
a refused publication is a parameter. -/
def recordValidationEvidence (refusal : DomainCommandError → String)
    (requesterRunId : Option String) (identity body : String) :
    Except String (Nat × List SharedContextEntry) × SharedContext :=
  match s.validationEvidenceSequence requesterRunId identity with
  | .error error => (.error error, s)
  | .ok (some sequence) => (.ok (sequence, []), s)
  | .ok none =>
    match s.publish (evidence requesterRunId identity body) with
    | .error error => (.error (refusal error), s)
    | .ok (_, effects, s') =>
      match s'.validationEvidenceSequence requesterRunId identity with
      | .error error => (.error error, s')
      | .ok (some sequence) => (.ok (sequence, effects), s')
      | .ok none => (.error "recorded validation evidence was not retained", s')

end SharedContext

/-! ## The store -/

/-- The rows of `shared_run_context`, of all sessions. -/
abbrev Rows := List SharedContextEntry

/-- The sequences of a session that are kept: the newest ones. -/
def keptSequences (rows : Rows) (session : String) : List Nat :=
  (((rows.filter (·.parentSessionId == session)).map (·.sequence)).insertionSort (· ≥ ·)).take
    maxSharedContextEntries

/-- `save_shared_context`: `INSERT OR IGNORE`, a look at the row under the id, and the deletion of
the session's old rows, in one transaction. -/
def save (rows : Rows) (entry : SharedContextEntry) : Option Rows :=
  let row := { entry with sequence := min maxI64 entry.sequence }
  let inserted :=
    if rows.any fun r => r.parentSessionId == row.parentSessionId &&
        (r.sequence == row.sequence || r.id == row.id) then rows
    else rows ++ [row]
  match inserted.find? fun r => r.parentSessionId == row.parentSessionId && r.id == row.id with
  | none => none
  | some stored =>
    if stored.authorRunId = entry.authorRunId ∧ stored.authorLabel = entry.authorLabel ∧
        stored.kind = entry.kind ∧ stored.body = entry.body then
      some (inserted.filter fun r => r.parentSessionId != entry.parentSessionId ||
        (keptSequences inserted entry.parentSessionId).contains r.sequence)
    else
      none

/-- `list_shared_context`. -/
def list (rows : Rows) (session : String) : List SharedContextEntry :=
  (rows.filter (·.parentSessionId == session)).insertionSort (·.sequence ≤ ·.sequence)

/-! ## Runs -/

/-- A session and the store, with every entry that was added and every entry that was saved, the
newest first. -/
structure Shared where
  state : SharedContext
  rows : Rows
  log : List SharedContextEntry
  saved : List SharedContextEntry

inductive Action where
  /-- A run of the session starts. -/
  | start (runId agent : String)
  /-- The store takes the entry of a publication unless it has no row for the session or fails. -/
  | publish (p : Publication) (taken : Bool)
  | evidence (requesterRunId : Option String) (identity body : String) (taken : Bool)
  /-- The session is resumed, with the runs that the store lists. -/
  | resume (runs : List (String × String))

/-- The effects of a publication are carried out. -/
def Shared.persist (a : Shared) (state : SharedContext) (taken : Bool) :
    List SharedContextEntry → Shared
  | [] => { a with state }
  | entry :: rest =>
    let a := { a with log := entry :: a.log }
    match (if taken then save a.rows entry else none) with
    | some rows => persist { a with rows, saved := entry :: a.saved } state taken rest
    | none => persist a state taken rest

def Shared.apply (refusal : DomainCommandError → String) (a : Shared) : Action → Shared
  | .start runId agent =>
    { a with state := { a.state with subagents := a.state.subagents ++ [(runId, agent)] } }
  | .publish p taken =>
    match a.state.publish p with
    | .ok (_, effects, state) => a.persist state taken effects
    | .error _ => a
  | .evidence requesterRunId identity body taken =>
    match a.state.recordValidationEvidence refusal requesterRunId identity body with
    | (.ok (_, effects), state) => a.persist state taken effects
    | (.error _, state) => { a with state }
  | .resume runs =>
    let state : SharedContext := ⟨a.state.nakodeSessionId, runs, [], 0⟩
    { a with state := state.install (list a.rows a.state.nakodeSessionId) }

def system (refusal : DomainCommandError → String) : System Shared Action where
  next a action a' := a' = a.apply refusal action

/-- A session without entries, and a store with no rows but those of other sessions. -/
def Shared.new (session : String) (rows : Rows) : Shared :=
  ⟨⟨session, [], [], 0⟩, rows.filter (·.parentSessionId != session), [], []⟩

end Nakode.Delegation
