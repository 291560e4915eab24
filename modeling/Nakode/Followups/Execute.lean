import Nakode.Followups.Batches

/-!
# Inbox commands

`executeAuthenticated` performs a command of the inbox under its idempotency key, in one
transaction with the receipt that answers every retry.
-/

namespace Nakode

open Outcome Relational

variable {δ : Type}

/-- What a command leaves besides the changed database: its session and its resource. -/
abbrev Admitted (δ : Type) := (String × Option String) × Db δ

def admitExternalReport [DecidableEq δ] (deps : Deps δ) (db : Db δ) (request : InboxRequest)
    (digest : δ) : Except ServiceError (Admitted δ) :=
  match request.command with
  | .admitExternalChildReport session messageId child title report state body => do
    validateMessageIdentity messageId
    authorize db session true
    let (prompt, source, display) ← externalReport deps session child title report state body
    let known ← messageExists db session messageId digest
    if known then return ((session, some messageId), db)
    let db ← admitMessage deps db session messageId prompt request.sender request.nowMs digest
    let db ← saveSource db session messageId source
    return ((session, some messageId), setDisplayText db session messageId display)
  | _ => .error (refuse "not an external child report")

def setFollowupPaused (db : Db δ) (session : String) (paused : Bool) :
    Except ServiceError (Db δ) := do
  authorize db session true
  let inbox := db.inbox.setPaused session paused
  return { db with inbox := if paused then inbox else inbox.unblock session }

/-- The runtime's part of a command: what the prompt materializes to, and whether the source call
of a relay is authentic. -/
structure Runtime where
  materialize : PromptInput → Except ServiceError PromptInput
  authenticate : Except ServiceError Unit
  clockMs : Int

/-- `EnqueueFollowup` and `RelayAgentFollowup`. -/
def admitFollowup [DecidableEq δ] (deps : Deps δ) (runtime : Runtime) (db : Db δ)
    (request : InboxRequest) (session messageId : String) (prompt : PromptInput) (digest : δ) :
    Except ServiceError (Admitted δ) := do
  validateMessageIdentity messageId
  authorize db session true
  let known ← messageExists db session messageId digest
  if known then return ((session, some messageId), db)
  let source ← authenticateSource db request.command runtime.authenticate
  let prompt ← runtime.materialize prompt
  let db ← admitMessage deps db session messageId prompt request.sender request.nowMs digest
  match source with
  | none => return ((session, some messageId), db)
  | some source =>
    let db ← saveSource db session messageId source
    if source.ownerChat then
      let db ← adopt db runtime.clockMs source.sessionId session
      return ((session, some messageId), db)
    else return ((session, some messageId), db)

/-- The effect of a command that has no receipt yet. -/
def executeCommand [DecidableEq δ] (deps : Deps δ) (runtime : Runtime) (db : Db δ)
    (request : InboxRequest) (digest : δ) : Except ServiceError (Admitted δ) :=
  match request.command with
  | .enqueueFollowup session messageId prompt
  | .relayAgentFollowup session messageId _ _ prompt _ =>
    admitFollowup deps runtime db request session messageId prompt digest
  | .admitExternalChildReport .. => admitExternalReport deps db request digest
  | .removeFollowup session messageId => do
    let db ← removePending db session messageId
    return ((session, some messageId), db)
  | .setFollowupPaused session paused => do
    let db ← setFollowupPaused db session paused
    return ((session, none), db)
  | _ => .error (refuse "not a follow-up command")

def executeAuthenticated [DecidableEq δ] (deps : Deps δ) (runtime : Runtime) (db : Db δ)
    (request : InboxRequest) : Except ServiceError (Option String × Db δ) := do
  validateRequestIdentities request.key request.sender
  let digest := deps.commandDigest request.command
  match db.inbox.receipts.find? request.key with
  | some saved =>
    ensure (saved.digest = digest)
      (refuse "follow-up idempotency key reused for different content")
    return (saved.resourceId, db)
  | none =>
    ensure (!request.replayOnly) (refuse "follow-up receipt missing; no mutation executed")
    let ((session, id), db) ← executeCommand deps runtime db request digest
    let receipts ← need (db.inbox.receipts.insert? request.key ⟨session, digest, id⟩)
      (failure "UNIQUE constraint failed: followup_receipts.command_key")
    return (id, { db with inbox := { db.inbox with receipts := receipts } })

end Nakode
