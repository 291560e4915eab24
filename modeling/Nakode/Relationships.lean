import Nakode.ChildReports

/-!
# Claim and transfer of a child session

`reparent` claims an orphan or transfers a child from an expected parent. It is fenced by the
relationship revision, which the triggers of `session_child_links` count, and records each
committed change under its command key and its source call.
-/

namespace Nakode

open Outcome

variable {δ : Type}

structure Reparent where
  parent : String
  call : String
  child : String
  previousParent : Option String
  revision : Nat
  transfer : Bool

def Reparent.fromCommand : Command → Except ServiceError Reparent
  | .reparentChildSession parent call child previousParent revision transfer =>
    .ok { parent, call, child, previousParent, revision, transfer }
  | _ => .error (refuse "not a relationship command")

/-- `relationships::authorize`: distinct sessions with the same bound profile, neither a native
run, and an expected previous parent with that profile too. -/
def authorizeReparent (db : Db δ) (request : Reparent) : Except ServiceError Unit :=
  let d := db.directory
  let sameOwner := d.exists? request.child && d.exists? request.parent
    && request.child != request.parent
    && (match d.profiles.find? request.child, d.profiles.find? request.parent with
      | some p, some q => p == q
      | _, _ => false)
    && (d.runs.find? request.parent).isNone && (d.runs.find? request.child).isNone
    && request.previousParent.all fun previous =>
      match d.profiles.find? previous, d.profiles.find? request.child with
      | some p, some q => p == q
      | _, _ => false
  ensure sameOwner
    (refuse ("claim/transfer requires exact durable sessions on this runtime with " ++
      "the same bound profile; native runs and unbound sessions are not eligible"))

/-- An unsettled message holds evidence from the child, or a delegated instruction to it. -/
def unsettledDelivery (db : Db δ) (child : String) : Bool :=
  db.inbox.messages.has fun sequence m =>
    db.inbox.unsettled sequence m &&
    let source := db.inbox.sources.find? sequence
    (db.inbox.deliveries.has (fun report message =>
        message == sequence && (db.reports.rows.find? report).any (·.childId == child))
      || source.any (fun s => s.kind == .durableChildEvidence && s.sessionId == child)
      || (m.sessionId == child && source.any (·.kind == .delegatedInstruction)))

/-- Pending, claimed, blocked and uncertain messages are not moved: they refuse the change. -/
def ensureDeliverySettled (db : Db δ) (request : Reparent) : Except ServiceError Unit :=
  ensure (!unsettledDelivery db request.child)
    (refuse ("relationship has unsettled child reports or delegated instructions; drain or " ++
      "explicitly withdraw pending messages first; uncertain dispatch must not be replayed"))

/-- `relationships::apply`. -/
def applyReparent (db : Db δ) (clockMs : Int) (request : Reparent) :
    Except ServiceError (Db δ) := do
  ensure (request.transfer == request.previousParent.isSome
      && request.previousParent != some request.parent)
    (refuse ("claim requires an orphan; explicit transfer requires a different expected " ++
      "current parent"))
  ensure (db.kinship.parent? request.child == request.previousParent
      && db.kinship.revision request.child == request.revision)
    (refuse ("relationship changed; read authoritative parent and revision before a new " ++
      "explicit attempt"))
  ensure (!(db.kinship.nested request.parent request.child
      || db.directory.closed request.parent || db.directory.closed request.child
      || db.kinship.childCount request.parent ≥ 32))
    (refuse ("claim/transfer requires open, one-level sessions and fewer than 32 children; " ++
      "cycles and nested parents are not supported"))
  ensure (!db.kinship.held request.child clockMs)
    (refuse "its current parent is stopping or deleting this session; claim/transfer is refused")
  ensureDeliverySettled db request
  if request.transfer then
    (repointLink db clockMs request.child request.parent).mapError reportFailure
  else
    linkInTransaction db clockMs request.parent request.child

structure ReparentRequest where
  command : Command
  key : String
  replayOnly : Bool
  nowMs : Int
  clockMs : Int

/-- The receipt of a transition: under the command key, or under the parent and its source call. -/
def Kinship.transition? (k : Kinship δ) (key parent call : String) : Option (TransitionRow δ) :=
  (k.transitions.rows.find? fun row =>
    row.1 == key || (row.2.parentId == parent && row.2.sourceCallId == call)).map (·.2)

/-- `ReportStore::reparent`: the transition and its receipt in one transaction. `authenticate` is
the runtime's answer for the source call. -/
def reparent [DecidableEq δ] (deps : Deps δ) (db : Db δ) (request : ReparentRequest)
    (authenticate : Except ServiceError Unit) : Except ServiceError (Db δ) := do
  let change ← Reparent.fromCommand request.command
  ensure (change.revision < 2 ^ 63 - 1) (refuse "relationship revision is out of range")
  ensure (!request.key.isEmpty && Text.len request.key ≤ 200
      && !change.call.isEmpty && Text.len change.call ≤ 200)
    (refuse "relationship command and source call keys must be 1–200 bytes")
  let digest := deps.commandDigest request.command
  authorizeReparent db change
  match db.kinship.transition? request.key change.parent change.call with
  | some saved =>
    ensure (saved.digest == digest)
      (refuse "relationship receipt already exists with different arguments")
    return db
  | none =>
    ensure (!request.replayOnly)
      (refuse "relationship receipt is unavailable; no mutation executed")
    authenticate
    let db ← applyReparent db request.clockMs change
    let transitions ← need (db.kinship.transitions.insert? request.key
        { digest
          childId := change.child
          previousParentId := change.previousParent
          parentId := change.parent
          previousRevision := change.revision
          revision := change.revision + 1
          sourceCallId := change.call
          changedAtMs := request.nowMs })
      (reportFailure "UNIQUE constraint failed: session_relationship_transitions.command_key")
    return { db with kinship := { db.kinship with transitions := transitions } }

end Nakode
