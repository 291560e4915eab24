import Nakode.Bridges.Record

/-!
# The bridges of a server

`BridgeCore` is what a server keeps about bridges in memory: the records, and how it decided the
events it remembers. A command gives an answer with effects, or an error, and the core after it;
the two lifecycle commands change records before they do what may fail. The engine of a session and
the agent catalogue on disk are not part of the model: what they answer is in the `Environment` of
a command.
-/

namespace Nakode.Bridges

open Domain (DomainCommandError PromptAttachment)

/-- What the engine of a session answers. -/
structure Engine (ι ε : Type) where
  workspace : String
  providerIsLive : Bool
  startingPromptId : Option String
  userSourceTransportForTurn : String → Option String
  reloadAgentCatalogue : Except DomainCommandError Unit
  convertPrompt : ι → Except DomainCommandError (String × List PromptAttachment)
  submitPrompt : (promptId text : String) → List PromptAttachment → (source : Option String) →
    Except DomainCommandError (List ε)
  replayPendingPrompt : (promptId text : String) → List PromptAttachment →
    (source : Option String) → Except DomainCommandError (List ε)

/-- What a command finds outside the bridges: the time, the workspace of the default session, the
engines of the attached sessions and the sessions in the inventory. -/
structure Environment (ι ε : Type) where
  nowMs : Int
  workspace : String
  ensureWorkspace : String → Except DomainCommandError Unit
  engine : String → Option (Engine ι ε)
  inventory : List String
  /-- What the rest of `OpenSession` gives, once the bridge is accepted. -/
  openSession : Except DomainCommandError (List ε)

inductive Effect (ε : Type) where
  | persistSessionBridge (bridge : SessionBridgeRecord)
  | engine (effect : ε)

/-- The records that the effects of a command ask to be saved, in order. -/
def persisted {ε : Type} (effects : List (Effect ε)) : List SessionBridgeRecord :=
  effects.filterMap fun effect =>
    match effect with
    | .persistSessionBridge bridge => some bridge
    | .engine _ => none

structure CommandAccepted where
  resourceId : String
  bridgeContinuation : Option BridgeContinuationDisposition := none
  replayedBridgeContinuation : Option BridgeContinuationDisposition := none
  replayedBridgeSourceActive : Option Bool := none
  deriving DecidableEq, Repr

/-- A prompt of a thread. -/
structure Continuation (ι : Type) where
  sessionId : String
  transport : String
  externalThreadId : String
  externalEventId : String
  sourceMessageId : String
  prompt : ι
  consumeAsBusy : Bool

inductive BridgeCommand where
  | createSession (sessionId workspace : String) (intent : SessionBridgeIntent)
      (title : Option String)
  | openSession (sessionId : String) (profileId : Option String)
      (intent : Option SessionBridgeIntent)
  | setSessionBridgeLifecycle (sessionId : String) (lifecycle : BridgeLifecycle)
  | setWorkspaceBridgeLifecycle (workspaceId : String) (lifecycle : BridgeLifecycle)
  | bindSessionBridgeThread (sessionId transport externalParentId externalThreadId : String)
  | clearSessionBridgeThread (sessionId transport externalThreadId : String)
  | prepareBridgeDelivery (sessionId : String) (projectionKind : BridgeProjectionKind)
      (turnId : String) (expectedLastProjected : Option BridgeProjectionRecord)
      (bodySha256 : String) (partCount : UInt64)
  | completeBridgeDeliveryPart (sessionId : String) (projectionKind : BridgeProjectionKind)
      (turnId : String) (partIndex : UInt64) (externalMessageId : String)
  | finalizeBridgeDelivery (sessionId : String) (projectionKind : BridgeProjectionKind)
      (turnId : String) (clearActiveSourceMessageId : Option String)
  | setBridgeLiveMessage (sessionId : String)
      (turnId externalMessageId clearActiveSourceMessageId : Option String)
  deriving DecidableEq, Repr

structure BridgeCore where
  sessionBridges : List SessionBridgeRecord
  /-- `inbound_event_dispositions`, by session and event. -/
  inboundEventDispositions : String × String → Option BridgeContinuationDisposition

/-- The first element that meets a condition is replaced. -/
def putFirst {α : Type} (p : α → Bool) (new : α) : List α → List α
  | [] => []
  | x :: xs => if p x then new :: xs else x :: putFirst p new xs

namespace BridgeCore

variable {ι ε : Type} (core : BridgeCore)

/-- `DomainCommandOutcome`, with the core that a command leaves behind. -/
abbrev Outcome (ε : Type) :=
  Except DomainCommandError (CommandAccepted × List (Effect ε)) × BridgeCore

def sessionBridge (sessionId : String) : Except DomainCommandError SessionBridgeRecord :=
  match core.sessionBridges.find? (·.sessionId == sessionId) with
  | some bridge => .ok bridge
  | none => .error (.notFound sessionId)

/-- What is written through `session_bridge_mut`. -/
def setBridge (bridge : SessionBridgeRecord) : BridgeCore :=
  { core with
    sessionBridges := putFirst (·.sessionId == bridge.sessionId) bridge core.sessionBridges }

/-- A command that checks and changes one record, and asks for it to be saved. -/
def onBridge (sessionId : String)
    (change : SessionBridgeRecord → Except DomainCommandError (Option SessionBridgeRecord)) :
    Outcome ε :=
  match core.sessionBridge sessionId with
  | .error error => (.error error, core)
  | .ok bridge =>
    match change bridge with
    | .error error => (.error error, core)
    | .ok none => (.ok ({ resourceId := sessionId }, []), core)
    | .ok (some changed) =>
      (.ok ({ resourceId := sessionId }, [.persistSessionBridge changed]), core.setBridge changed)

/-! ## Opening a bridge -/

/-- The part of `CreateSession` that opens a bridge, for a session with a fresh identity. -/
def createSessionBridge (env : Environment ι ε) (sessionId workspace : String)
    (intent : SessionBridgeIntent) (title : Option String) : Outcome ε :=
  match validatedBridgeTitle intent.displayTitle title with
  | .error error => (.error error, core)
  | .ok displayTitle =>
    let record := openedRecord sessionId workspace displayTitle intent env.nowMs
    (.ok ({ resourceId := sessionId }, [.persistSessionBridge record]),
      { core with sessionBridges := core.sessionBridges ++ [record] })

def openSessionBridgeRecord (env : Environment ι ε) (sessionId : String)
    (profileId : Option String) (intent : Option SessionBridgeIntent) :
    Except DomainCommandError (Option SessionBridgeRecord) :=
  match intent with
  | none => .ok none
  | some intent =>
    match env.engine sessionId with
    | none =>
      if sessionId ∈ env.inventory then
        .error (.conflict "bridge adoption requires an attached session")
      else .error (.notFound sessionId)
    | some engine =>
      if profileId.isNone ∨ engine.providerIsLive = false then
        .error (.conflict "bridge adoption requires a live profile-bound session")
      else
        match core.sessionBridges.find? (·.sessionId == sessionId) with
        | some existing =>
          if existing.kind ≠ intent.kind ∨ existing.lifecycle ≠ intent.lifecycle then
            .error (.conflict "established bridge kind or lifecycle differs")
          else .ok none
        | none =>
          match validatedBridgeTitle intent.displayTitle none with
          | .error error => .error error
          | .ok displayTitle =>
            .ok (some (openedRecord sessionId engine.workspace displayTitle intent env.nowMs))

/-- The part of `OpenSession` that adopts a bridge. -/
def openSession (env : Environment ι ε) (sessionId : String) (profileId : Option String)
    (intent : Option SessionBridgeIntent) : Outcome ε :=
  match core.openSessionBridgeRecord env sessionId profileId intent with
  | .error error => (.error error, core)
  | .ok bridge =>
    match env.openSession with
    | .error error => (.error error, core)
    | .ok effects =>
      (.ok ({ resourceId := sessionId },
          effects.map .engine ++ bridge.toList.map .persistSessionBridge),
        { core with sessionBridges := core.sessionBridges ++ bridge.toList })

/-! ## The lifecycle -/

/-- Replays the prompt that waits for its acknowledgement, if the engine takes it now. -/
def resumePendingBridgePrompt (env : Environment ι ε) (sessionId : String) :
    Except DomainCommandError (List ε) :=
  match core.sessionBridge sessionId with
  | .error _ => .ok []
  | .ok bridge =>
    if bridge.lifecycle ≠ .open then .ok []
    else
      match bridge.pendingInbound with
      | none => .ok []
      | some pending =>
        match env.engine sessionId with
        | none => .error (.notFound sessionId)
        | some engine =>
          match engine.reloadAgentCatalogue with
          | .error error => .error error
          | .ok () =>
            match engine.replayPendingPrompt pending.clientPromptId pending.text
                pending.attachments bridge.transport with
            | .ok effects => .ok effects
            | .error (.conflict _) => .ok []
            | .error error => .error error

def setSessionBridgeLifecycle (env : Environment ι ε) (sessionId : String)
    (lifecycle : BridgeLifecycle) : Outcome ε :=
  match core.sessionBridge sessionId with
  | .error error => (.error error, core)
  | .ok bridge =>
    let changed := bridge.setLifecycle env.nowMs lifecycle
    let after := changed.elim core core.setBridge
    let effects := changed.toList.map .persistSessionBridge
    if lifecycle = .open then
      match after.resumePendingBridgePrompt env sessionId with
      | .error error => (.error error, after)
      | .ok replayed => (.ok ({ resourceId := sessionId }, effects ++ replayed.map .engine), after)
    else (.ok ({ resourceId := sessionId }, effects), after)

/-- The records of a workspace with another lifecycle, as they are changed. -/
def lifecycleChanges (env : Environment ι ε) (lifecycle : BridgeLifecycle) :
    List SessionBridgeRecord :=
  core.sessionBridges.filterMap fun bridge =>
    if bridge.workspace = env.workspace then bridge.setLifecycle env.nowMs lifecycle else none

def setWorkspaceBridgeLifecycle (env : Environment ι ε) (workspaceId : String)
    (lifecycle : BridgeLifecycle) : Outcome ε :=
  match env.ensureWorkspace workspaceId with
  | .error error => (.error error, core)
  | .ok () =>
    let changes := core.lifecycleChanges env lifecycle
    let after : BridgeCore := { core with
      sessionBridges := core.sessionBridges.map fun bridge =>
        if bridge.workspace = env.workspace then
          (bridge.setLifecycle env.nowMs lifecycle).getD bridge
        else bridge }
    let reopened := (changes.filter fun bridge =>
      lifecycle = .open && bridge.pendingInbound.isSome).map (·.sessionId)
    match reopened.mapM (after.resumePendingBridgePrompt env) with
    | .error error => (.error error, after)
    | .ok replayed =>
      (.ok ({ resourceId := workspaceId },
        changes.map Effect.persistSessionBridge ++ replayed.flatten.map Effect.engine), after)

/-! ## Prompts from a thread -/

/-- The event is remembered with its disposition, and what it evicts is forgotten. -/
def rememberBridgeInboundEvent (sessionId externalEventId : String)
    (disposition : BridgeContinuationDisposition) : BridgeCore :=
  let remembered := (core.sessionBridges.find? (·.sessionId == sessionId)).map
    (·.rememberInboundEvent externalEventId)
  let core := remembered.elim core fun change => core.setBridge change.1
  let evicted := remembered.bind (·.2)
  let kept := evicted.elim core.inboundEventDispositions fun event =>
    Function.update core.inboundEventDispositions (sessionId, event) none
  { core with
    inboundEventDispositions := Function.update kept (sessionId, externalEventId)
      (some disposition) }

def acceptedBridgeContinuation (sessionId : String) (disposition : BridgeContinuationDisposition)
    (effects : List (Effect ε)) : CommandAccepted × List (Effect ε) :=
  ({ resourceId := sessionId, bridgeContinuation := some disposition }, effects)

/-- An event that is decided: it is remembered, and then the record is changed and saved. -/
def decideInboundEvent (env : Environment ι ε) (sessionId externalEventId : String)
    (disposition : BridgeContinuationDisposition)
    (change : SessionBridgeRecord → SessionBridgeRecord) (effects : List ε) : Outcome ε :=
  let remembered := core.rememberBridgeInboundEvent sessionId externalEventId disposition
  match remembered.sessionBridge sessionId with
  | .error error => (.error error, remembered)
  | .ok bridge =>
    let changed := (change bridge).bumpBridgeRevision env.nowMs
    (.ok (acceptedBridgeContinuation sessionId disposition
      (.persistSessionBridge changed :: effects.map .engine)), remembered.setBridge changed)

/-- The identities of a continuation, as they are checked before anything is read. -/
def validateContinuation (c : Continuation ι) : Except DomainCommandError Unit := do
  validateExternalIdentity "transport" c.transport 32
  validateExternalIdentity "external thread id" c.externalThreadId 128
  validateExternalIdentity "external event id" c.externalEventId 128
  validateExternalIdentity "source message id" c.sourceMessageId 128

/-- What the engine makes of a continuation: the prompt as it was converted, and its answer. -/
def submitContinuation (promptId : String → String) (env : Environment ι ε) (c : Continuation ι) :
    Except DomainCommandError
      (BridgePendingInboundRecord × Except DomainCommandError (List ε)) :=
  match env.engine c.sessionId with
  | none => .error (.notFound c.sessionId)
  | some engine =>
    match engine.reloadAgentCatalogue with
    | .error error => .error error
    | .ok () =>
      match engine.convertPrompt c.prompt with
      | .error error => .error error
      | .ok (text, attachments) =>
        let clientPromptId := promptId c.externalEventId
        .ok (⟨c.externalEventId, c.sourceMessageId, clientPromptId, text, attachments⟩,
          engine.submitPrompt clientPromptId text attachments (some c.transport))

/-- The answer to an event that is remembered. -/
def duplicateContinuation (bridge : SessionBridgeRecord) (c : Continuation ι) :
    CommandAccepted :=
  let replayed := (core.inboundEventDispositions (c.sessionId, c.externalEventId)).filter
    fun disposition => disposition == .accepted || disposition == .busy
  { resourceId := c.sessionId
    bridgeContinuation := some .duplicate
    replayedBridgeContinuation := replayed
    replayedBridgeSourceActive :=
      if replayed = some .accepted then
        some (bridge.activeSourceMessageId == some c.sourceMessageId)
      else none }

def continueSessionFromBridge (promptId : String → String) (env : Environment ι ε)
    (c : Continuation ι) : Outcome ε :=
  match validateContinuation c with
  | .error error => (.error error, core)
  | .ok () =>
    match core.sessionBridge c.sessionId with
    | .error error => (.error error, core)
    | .ok bridge =>
      if bridge.lifecycle ≠ .open ∨ bridge.transport ≠ some c.transport ∨
          bridge.externalThreadId ≠ some c.externalThreadId then
        (.error (.conflict "message does not belong to an open bound session bridge"), core)
      else if c.externalEventId ∈ bridge.recentInboundEventIds then
        (.ok (core.duplicateContinuation bridge c, []), core)
      else if c.consumeAsBusy = true ∨ bridge.pendingInbound.isSome then
        core.decideInboundEvent env c.sessionId c.externalEventId .busy id []
      else
        match submitContinuation promptId env c with
        | .error error => (.error error, core)
        | .ok (pending, .ok effects) =>
          core.decideInboundEvent env c.sessionId c.externalEventId .accepted
            (·.withPending c.sourceMessageId pending) effects
        | .ok (_, .error (.conflict _)) =>
          -- A message that comes while the session is busy is consumed, so that its replay can
          -- never become a prompt later.
          core.decideInboundEvent env c.sessionId c.externalEventId .busy id []
        | .ok (_, .error error) => (.error error, core)

/-! ## The commands -/

/-- The check on an identity that a command may leave out. -/
def validateOptionalIdentity (field : String) (value : Option String) (maximumBytes : Nat) :
    Except DomainCommandError Unit :=
  value.elim (.ok ()) fun value => validateExternalIdentity field value maximumBytes

/-- What a command checks about its own arguments, and against the other records. -/
def checkCommand : BridgeCommand → Except DomainCommandError Unit
  | .bindSessionBridgeThread sessionId transport externalParentId externalThreadId => do
    validateExternalIdentity "transport" transport 32
    validateExternalIdentity "external parent id" externalParentId 128
    validateExternalIdentity "external thread id" externalThreadId 128
    if core.sessionBridges.any fun candidate => candidate.sessionId != sessionId &&
        candidate.transport == some transport &&
        candidate.externalThreadId == some externalThreadId then
      throw (.conflict "external thread is already paired with another session")
  | .prepareBridgeDelivery _ _ _ _ bodySha256 _ => validateDeliveryPlan bodySha256
  | .completeBridgeDeliveryPart _ _ _ _ externalMessageId =>
    validateExternalIdentity "external message id" externalMessageId 128
  | .finalizeBridgeDelivery _ _ _ clearActiveSourceMessageId =>
    validateOptionalIdentity "active source message id" clearActiveSourceMessageId 128
  | .setBridgeLiveMessage _ turnId externalMessageId clearActiveSourceMessageId => do
    if turnId.isSome ≠ externalMessageId.isSome then
      throw (.invalid
        "live turn and external message identities must be set or cleared together")
    validateOptionalIdentity "external message id" externalMessageId 128
    validateOptionalIdentity "active source message id" clearActiveSourceMessageId 128
  | _ => .ok ()

/-- The command on the bridges as they are. -/
def apply (env : Environment ι ε) : BridgeCommand → Outcome ε
  | .createSession sessionId workspace intent title =>
    core.createSessionBridge env sessionId workspace intent title
  | .openSession sessionId profileId intent => core.openSession env sessionId profileId intent
  | .setSessionBridgeLifecycle sessionId lifecycle =>
    core.setSessionBridgeLifecycle env sessionId lifecycle
  | .setWorkspaceBridgeLifecycle workspaceId lifecycle =>
    core.setWorkspaceBridgeLifecycle env workspaceId lifecycle
  | .bindSessionBridgeThread sessionId transport externalParentId externalThreadId =>
    core.onBridge sessionId
      (·.bindThread env.nowMs transport externalParentId externalThreadId)
  | .clearSessionBridgeThread sessionId transport externalThreadId =>
    core.onBridge sessionId (·.clearThread env.nowMs transport externalThreadId)
  | .prepareBridgeDelivery sessionId projectionKind turnId expected bodySha256 partCount =>
    core.onBridge sessionId
      (·.prepareDelivery env.nowMs projectionKind turnId expected bodySha256 partCount)
  | .completeBridgeDeliveryPart sessionId projectionKind turnId partIndex externalMessageId =>
    core.onBridge sessionId
      (·.completeDeliveryPart env.nowMs projectionKind turnId partIndex externalMessageId)
  | .finalizeBridgeDelivery sessionId projectionKind turnId clearActiveSourceMessageId =>
    core.onBridge sessionId
      (·.finalizeDelivery env.nowMs projectionKind turnId clearActiveSourceMessageId)
  | .setBridgeLiveMessage sessionId turnId externalMessageId clearActiveSourceMessageId =>
    core.onBridge sessionId
      (·.setLiveMessage env.nowMs turnId externalMessageId clearActiveSourceMessageId)

def execute (env : Environment ι ε) (command : BridgeCommand) : Outcome ε :=
  match core.checkCommand command with
  | .error error => (.error error, core)
  | .ok () => core.apply env command

/-! ## Events of a provider -/

/-- The prompt that a provider has taken with a turn: the one that waits, under the identity that
the provider gives back or, once it has accepted, under the one that is being started. -/
def bridgePromptAcknowledgementId (env : Environment ι ε) (sessionId providerTurnId : String)
    (accepted : Bool) : Option String :=
  match core.sessionBridge sessionId with
  | .error _ => none
  | .ok bridge =>
    bridge.pendingInbound.bind fun pending =>
      if pending.clientPromptId = providerTurnId ∨ (accepted = true ∧
          (env.engine sessionId).bind (·.startingPromptId) = some pending.clientPromptId) then
        some pending.clientPromptId
      else none

/-- A record is changed, if there is one and it changes, and saved. -/
def updateBridge (sessionId : String)
    (change : SessionBridgeRecord → Option SessionBridgeRecord) :
    List SessionBridgeRecord × BridgeCore :=
  match (core.sessionBridges.find? (·.sessionId == sessionId)).bind change with
  | some changed => ([changed], core.setBridge changed)
  | none => ([], core)

def recordBridgeTurnOrigin (env : Environment ι ε) (sessionId providerTurnId : String) :
    List SessionBridgeRecord × BridgeCore :=
  match env.engine sessionId with
  | none => ([], core)
  | some engine =>
    core.updateBridge sessionId (·.recordTurnOrigin env.nowMs providerTurnId
      (engine.userSourceTransportForTurn providerTurnId))

def acknowledgeBridgePrompt (env : Environment ι ε) (sessionId clientPromptId : String) :
    List SessionBridgeRecord × BridgeCore :=
  core.updateBridge sessionId (·.acknowledgePrompt env.nowMs clientPromptId)

end BridgeCore

end Nakode.Bridges
