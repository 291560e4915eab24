import Nakode.Bridges.Server
import Nakode.Lib.Table
import Nakode.Lib.Trace

/-!
# Servers that share the rows of their bridges

The database of an installation has a row for each bridge, and a ledger of the events that were
decided for each session, of which only the last ones are kept. Any number of servers read and
write it, each in transactions of its own: a record is saved only when its revision is newer than
the stored one or the rows are equal, and an event is recorded only once. A server that cannot save
restores the bridges it had before. `Installation` also keeps what no step reads: every version
that a row has had, and every decision that was recorded.
-/

namespace Nakode.Bridges

open Domain (DomainCommandError)
open Relational (Table)
open Transition

/-! ## The rows -/

structure InboundEventRow where
  disposition : BridgeContinuationDisposition
  recordedAtMs : Int
  deriving DecidableEq, Repr

/-- `session_bridges` and `session_bridge_inbound_events`. -/
structure BridgeStore where
  sessionBridges : Table String SessionBridgeRecord
  inboundEvents : Table (String × String) InboundEventRow

/-- The columns of a record. The events that it remembers are rows of their own. -/
def SessionBridgeRecord.row (bridge : SessionBridgeRecord) : SessionBridgeRecord :=
  { bridge with recentInboundEventIds := [] }

def i64Max : Nat := 2 ^ 63 - 1

/-- `MAX_BRIDGE_REPLAY_EVENTS_PER_SESSION` -/
def maxBridgeReplayEventsPerSession : Nat := 4 * 1024

/-- The unique index on the transport and the thread. -/
def threadTaken (rows : Table String SessionBridgeRecord) (bridge : SessionBridgeRecord) : Bool :=
  bridge.transport.isSome && bridge.externalThreadId.isSome &&
    rows.has fun sessionId other => sessionId != bridge.sessionId &&
      other.transport == bridge.transport && other.externalThreadId == bridge.externalThreadId

/-- The stored row is newer than the record, or another one of its revision. -/
def supersedes (current bridge : SessionBridgeRecord) : Bool :=
  bridge.revision < current.revision ||
    (current.revision == bridge.revision && current != bridge.row)

def saveSessionBridgeOn (rows : Table String SessionBridgeRecord) (bridge : SessionBridgeRecord) :
    Option (Table String SessionBridgeRecord) :=
  if i64Max < bridge.revision then none
  else if (rows.find? bridge.sessionId).any (supersedes · bridge) then none
  else if threadTaken rows bridge then none
  else some (rows.upsert bridge.sessionId bridge.row fun _ => bridge.row)

/-- No record may lose the prompt that its row still waits for. -/
def protectBridgePendingInboundOn (rows : Table String SessionBridgeRecord)
    (bridges : List SessionBridgeRecord) : Bool :=
  bridges.all fun bridge =>
    ((rows.find? bridge.sessionId).bind (·.pendingInbound)).all fun existing =>
      bridge.pendingInbound.any (·.clientPromptId == existing.clientPromptId)

/-- An event that is to be recorded for a session. -/
structure Claim where
  sessionId : String
  externalEventId : String
  disposition : BridgeContinuationDisposition
  deriving DecidableEq, Repr

def Claim.key (claim : Claim) : String × String := (claim.sessionId, claim.externalEventId)

def protectedPendingEvent (bridges : List SessionBridgeRecord) (sessionId : String) :
    Option String :=
  ((bridges.find? (·.sessionId == sessionId)).bind (·.pendingInbound)).map (·.externalEventId)

/-- The rows of a session but for the protected one, the newest first. -/
def prunable (events : Table (String × String) InboundEventRow) (sessionId : String)
    (pendingEvent : Option String) : List ((String × String) × InboundEventRow) :=
  (events.rows.filter fun row => row.1.1 == sessionId && some row.1.2 != pendingEvent).reverse
    |>.mergeSort fun a b => b.2.recordedAtMs ≤ a.2.recordedAtMs

def saveBridgeInboundEventOn (events : Table (String × String) InboundEventRow)
    (bridges : List SessionBridgeRecord) (claim : Claim) (recordedAtMs : Int) :
    Option (Table (String × String) InboundEventRow) :=
  if bridges.any (·.sessionId == claim.sessionId) then
    (events.insert? claim.key ⟨claim.disposition, recordedAtMs⟩).map fun events =>
      let pruned := (prunable events claim.sessionId
        (protectedPendingEvent bridges claim.sessionId)).drop maxBridgeReplayEventsPerSession
      events.delete fun key _ => key ∈ pruned.map Prod.fst
  else none

/-! ## The installation -/

/-- A server. While it handles a continuation, it has looked the event up, and is to record it when
the ledger did not have it. -/
structure Process (ι : Type) where
  core : BridgeCore
  pendingBridgeAcknowledgements : String → Option (String × String)
  handling : Option (Continuation ι × Bool)

structure Installation (ι : Type) where
  store : BridgeStore
  process : Nat → Option (Process ι)
  /-- The versions of each row, the newest first. -/
  versions : String → List SessionBridgeRecord
  /-- The events that were recorded, the newest first. -/
  decided : List Claim

/-- An event of the provider of a session. -/
inductive ProviderEvent where
  | turnAccepted (turnId : String)
  | turnStarted (turnId : String)
  | turnCompleted (turnId : String)
  | other
  deriving DecidableEq, Repr

/-- The turn whose origin is recorded with an event. -/
def ProviderEvent.turnId? : ProviderEvent → Option String
  | .turnAccepted turnId | .turnStarted turnId | .turnCompleted turnId => some turnId
  | .other => none

/-- The turn that a started or completed turn is. -/
def ProviderEvent.running? : ProviderEvent → Option String
  | .turnStarted turnId | .turnCompleted turnId => some turnId
  | _ => none

inductive Reply where
  | accepted (result : CommandAccepted)
  | refused (error : DomainCommandError)
  | checkpointFailed
  | nothing
  deriving DecidableEq, Repr

inductive Action (ι ε : Type) where
  | start (pid : Nat)
  | crash (pid : Nat)
  /-- `refresh_catalogs` reads the bridges of a workspace again. -/
  | refresh (pid : Nat) (workspace : String)
  | command (pid : Nat) (env : Environment ι ε) (command : BridgeCommand) (diskFails : Bool)
  /-- The event of a continuation is looked up in the ledger. -/
  | lookUp (pid : Nat) (continuation : Continuation ι)
  /-- The continuation is decided. `createsSession` is set when its effects also create the row of
  the session. -/
  | decide (pid : Nat) (env : Environment ι ε) (recordedAtMs : Int)
      (createsSession diskFails : Bool)
  /-- The session is deleted: its bridge is archived in one transaction with its ledger. -/
  | delete (pid : Nat) (env : Environment ι ε) (sessionId : String) (archivedAtMs : Int)
      (diskFails : Bool)
  /-- An event of the session's provider; `after` is the session once its engine has seen it. -/
  | event (pid : Nat) (before after : Environment ι ε) (sessionId : String)
      (event : ProviderEvent) (diskFails : Bool)

/-- `ORDER BY updated_at_ms, session_id`. -/
def listed (rows : List SessionBridgeRecord) : List SessionBridgeRecord :=
  rows.mergeSort fun a b =>
    a.updatedAtMs < b.updatedAtMs ||
      (a.updatedAtMs == b.updatedAtMs && decide (a.sessionId ≤ b.sessionId))

namespace BridgeStore

def listSessionBridgesAll (store : BridgeStore) : List SessionBridgeRecord :=
  listed (store.sessionBridges.rows.map Prod.snd)

def listSessionBridges (store : BridgeStore) (workspace : String) : List SessionBridgeRecord :=
  listed ((store.sessionBridges.rows.map Prod.snd).filter (·.workspace == workspace))

end BridgeStore

namespace Process

variable {ι ε : Type} (process : Process ι)

/-- Which prompt a started or completed turn acknowledges, if any. -/
def acknowledgedBridge (before : Environment ι ε) (sessionId : String) (event : ProviderEvent) :
    Option (String × String) :=
  event.running?.bind fun turnId =>
    match (process.pendingBridgeAcknowledgements sessionId).filter (·.2 == turnId) with
    | some acknowledged => some acknowledged
    | none =>
      if event = .turnStarted turnId then
        (process.core.bridgePromptAcknowledgementId before sessionId turnId false).map
          fun promptId => (promptId, turnId)
      else none

/-- The acceptance of a turn ties its identity to the prompt that is being started. -/
def noteAcceptance (before : Environment ι ε) (sessionId : String) :
    ProviderEvent → Process ι
  | .turnAccepted turnId =>
    match process.core.bridgePromptAcknowledgementId before sessionId turnId true with
    | some promptId =>
      { process with
        pendingBridgeAcknowledgements := Function.update process.pendingBridgeAcknowledgements
          sessionId (some (promptId, turnId)) }
    | none => process
  | _ => process

/-- The record of a session in memory. -/
def bridge? (sessionId : String) : Option SessionBridgeRecord :=
  process.core.sessionBridges.find? (·.sessionId == sessionId)

/-- An event of a turn that cannot be tied to the prompt that waits is dropped. -/
def dropsEvent (before : Environment ι ε) (sessionId : String) (event : ProviderEvent) : Bool :=
  event.running?.isSome && (process.acknowledgedBridge before sessionId event).isNone &&
    ((process.bridge? sessionId).bind (·.pendingInbound)).isSome

/-- Whether the core is kept, to be restored when the event cannot be saved. -/
def checkpointsEvent (before : Environment ι ε) (sessionId : String) (event : ProviderEvent) :
    Bool :=
  (process.acknowledgedBridge before sessionId event).isSome ||
    (process.bridge? sessionId).any fun bridge =>
      bridge.pendingInbound.isSome || bridge.activeSourceMessageId.isSome

/-- The records that an event changes, and the bridges after it. -/
def eventChanges (before after : Environment ι ε) (sessionId : String) (event : ProviderEvent) :
    List SessionBridgeRecord × BridgeCore :=
  let origin := event.turnId?.elim ([], process.core)
    (process.core.recordBridgeTurnOrigin after sessionId)
  let acknowledged := (process.acknowledgedBridge before sessionId event).elim ([], origin.2)
    fun acknowledged => origin.2.acknowledgeBridgePrompt after sessionId acknowledged.1
  (origin.1 ++ acknowledged.1, acknowledged.2)

end Process

namespace Installation

variable {ι ε : Type}

/-- A database without bridges, and no server. -/
def initial : Installation ι where
  store := ⟨∅, ∅⟩
  process _ := none
  versions _ := []
  decided := []

variable (i : Installation ι)

/-- A record is saved, and its row is a new version unless it was stored already. -/
def save (bridge : SessionBridgeRecord) : Option (Installation ι) :=
  (saveSessionBridgeOn i.store.sessionBridges bridge).map fun rows =>
    { i with
      store := { i.store with sessionBridges := rows }
      versions :=
        if i.store.sessionBridges.find? bridge.sessionId = some bridge.row then i.versions
        else Function.update i.versions bridge.sessionId
          (bridge.row :: i.versions bridge.sessionId) }

def saveClaim (bridges : List SessionBridgeRecord) (recordedAtMs : Int) (claim : Claim) :
    Option (Installation ι) :=
  (saveBridgeInboundEventOn i.store.inboundEvents bridges claim recordedAtMs).map fun events =>
    { i with
      store := { i.store with inboundEvents := events }
      decided := claim :: i.decided }

/-- One transaction, of the records and the event. -/
def commit (bridges : List SessionBridgeRecord) (claim : Option Claim) (recordedAtMs : Int) :
    Option (Installation ι) :=
  (bridges.foldlM save i).bind fun i => claim.elim (some i) (i.saveClaim bridges recordedAtMs)

/-- `persist_command_dispatch_effects`, as far as bridges go. -/
def persist (bridges : List SessionBridgeRecord) (claim : Option Claim) (recordedAtMs : Int)
    (createsSession diskFails : Bool) : Option (Installation ι) :=
  if bridges = [] then some i
  else if diskFails then none
  else if createsSession && claim.isSome &&
      !protectBridgePendingInboundOn i.store.sessionBridges bridges then none
  else i.commit bridges claim recordedAtMs

def withProcess (pid : Nat) (process : Process ι) : Installation ι :=
  { i with process := Function.update i.process pid (some process) }

/-- A server with the bridges of the database. -/
def started : Process ι where
  core := ⟨i.store.listSessionBridgesAll, fun _ => none⟩
  pendingBridgeAcknowledgements _ := none
  handling := none

/-- What a server makes of the outcome of a command: it saves the records, and answers. The bridges
are restored when they cannot be saved, but not when the command was refused. -/
def settle (pid : Nat) (process : Process ι) (outcome : BridgeCore.Outcome ε)
    (claim : CommandAccepted → Option Claim) (recordedAtMs : Int)
    (createsSession diskFails : Bool) : Reply × Installation ι :=
  match outcome with
  | (.error error, core) => (.refused error, i.withProcess pid { process with core })
  | (.ok (result, effects), core) =>
    match i.persist (persisted effects) (claim result) recordedAtMs createsSession diskFails with
    | none => (.checkpointFailed, i.withProcess pid process)
    | some i => (.accepted result, i.withProcess pid { process with core })

/-- The event of a continuation is looked up, and remembered if it was recorded. -/
def lookUp (pid : Nat) (process : Process ι) (c : Continuation ι) : Installation ι :=
  match i.store.inboundEvents.find? (c.sessionId, c.externalEventId) with
  | some row =>
    i.withProcess pid { process with
      core := process.core.rememberBridgeInboundEvent c.sessionId c.externalEventId
        row.disposition
      handling := some (c, false) }
  | none => i.withProcess pid { process with handling := some (c, true) }

/-- The claim that goes with the answer to a continuation. -/
def claimed (c : Continuation ι) (claims : Bool) (result : CommandAccepted) : Option Claim :=
  if claims then
    result.bridgeContinuation.map fun disposition =>
      ⟨c.sessionId, c.externalEventId, disposition⟩
  else none

def decideContinuation (promptId : String → String) (pid : Nat) (process : Process ι)
    (env : Environment ι ε) (c : Continuation ι) (claims : Bool) (recordedAtMs : Int)
    (createsSession diskFails : Bool) : Reply × Installation ι :=
  let process := { process with handling := none }
  i.settle pid process (process.core.continueSessionFromBridge promptId env c)
    (claimed c claims) recordedAtMs createsSession diskFails

/-- The row of a deleted session is archived, whatever the server that deletes it has in memory. -/
def archive (sessionId : String) (archivedAtMs : Int) : Option (Installation ι) :=
  match (i.store.sessionBridges.find? sessionId).bind (·.setLifecycle archivedAtMs .archived) with
  | none => some i
  | some archived =>
    if i64Max < archived.revision then none
    else
      some { i with
        store := { i.store with
          sessionBridges := i.store.sessionBridges.upsert sessionId archived fun _ => archived }
        versions := Function.update i.versions sessionId (archived :: i.versions sessionId) }

def deleteSession (pid : Nat) (process : Process ι) (env : Environment ι ε) (sessionId : String)
    (archivedAtMs : Int) (diskFails : Bool) : Reply × Installation ι :=
  let core := (process.core.updateBridge sessionId (·.setLifecycle env.nowMs .archived)).2
  match if diskFails then none else i.archive sessionId archivedAtMs with
  | none => (.checkpointFailed, i)
  | some i =>
    (.accepted { resourceId := sessionId },
      { i with
        store := { i.store with
          inboundEvents := i.store.inboundEvents.delete fun key _ => key.1 == sessionId }
        process := Function.update i.process pid (some { process with core }) })

/-- `handle_backend_event`, as far as bridges go. -/
def handleEvent (pid : Nat) (process : Process ι) (before after : Environment ι ε)
    (sessionId : String) (event : ProviderEvent) (diskFails : Bool) : Installation ι :=
  let process := process.noteAcceptance before sessionId event
  if process.dropsEvent before sessionId event then i.withProcess pid process
  else
    let acknowledged := process.acknowledgedBridge before sessionId event
    let changes := process.eventChanges before after sessionId event
    match i.persist changes.1 none 0 false diskFails with
    | none =>
      i.withProcess pid { process with
        core := if process.checkpointsEvent before sessionId event then process.core else changes.2
        pendingBridgeAcknowledgements := acknowledged.elim process.pendingBridgeAcknowledgements
          fun acknowledged => Function.update process.pendingBridgeAcknowledgements sessionId
            (some acknowledged) }
    | some i =>
      i.withProcess pid { process with
        core := changes.2
        pendingBridgeAcknowledgements :=
          if acknowledged.isSome then
            Function.update process.pendingBridgeAcknowledgements sessionId none
          else process.pendingBridgeAcknowledgements }

def step (promptId : String → String) : Action ι ε → Option (Reply × Installation ι)
  | .start pid =>
    match i.process pid with
    | none => some (.nothing, i.withProcess pid i.started)
    | some _ => none
  | .crash pid => some (.nothing, { i with process := Function.update i.process pid none })
  | .refresh pid workspace =>
    (i.process pid).bind fun process =>
      if process.handling.isNone then
        some (.nothing, i.withProcess pid { process with
          core := { process.core with
            sessionBridges := i.store.listSessionBridges workspace } })
      else none
  | .command pid env command diskFails =>
    (i.process pid).bind fun process =>
      if process.handling.isNone then
        some (i.settle pid process (process.core.execute env command) (fun _ => none) 0 false
          diskFails)
      else none
  | .lookUp pid c =>
    (i.process pid).bind fun process =>
      if process.handling.isNone then some (.nothing, i.lookUp pid process c) else none
  | .decide pid env recordedAtMs createsSession diskFails =>
    (i.process pid).bind fun process =>
      process.handling.map fun handling =>
        i.decideContinuation promptId pid process env handling.1 handling.2 recordedAtMs
          createsSession diskFails
  | .delete pid env sessionId archivedAtMs diskFails =>
    (i.process pid).bind fun process =>
      if process.handling.isNone then
        some (i.deleteSession pid process env sessionId archivedAtMs diskFails)
      else none
  | .event pid before after sessionId event diskFails =>
    (i.process pid).bind fun process =>
      if process.handling.isNone then
        some (.nothing, i.handleEvent pid process before after sessionId event diskFails)
      else none

/-- The installation, with the reply of each action. -/
def system (promptId : String → String) : System (Installation ι) (Action ι ε × Reply) where
  next i action i' := i.step promptId action.1 = some (action.2, i')

end Installation

end Nakode.Bridges
