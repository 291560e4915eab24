import Nakode.Database
import Nakode.Domain.State

/-!
# The record of a session bridge

A bridge pairs a session with a thread of an external transport. Its record keeps the pairing, the
delivery of one projection of the transcript (`BridgeDeliveryRecord`, a checkpoint of constant
size), the prompt of the thread that is not acknowledged yet, and a revision. Each operation here
is the part of a server command that reads and changes one record: it refuses, accepts without a
change (`none`), or gives the new record.
-/

namespace Nakode.Bridges

open Domain (DomainCommandError PromptAttachment)

inductive BridgeProjectionKind where
  | user
  | assistant
  deriving DecidableEq, Repr

inductive BridgeContinuationDisposition where
  | accepted
  | duplicate
  | busy
  deriving DecidableEq, Repr

/-- A position in the ordered projection of a transcript. -/
structure BridgeProjectionRecord where
  kind : BridgeProjectionKind
  turnId : String
  deriving DecidableEq, Repr

structure BridgeDeliveryRecord where
  projectionKind : BridgeProjectionKind
  turnId : String
  previousProjection : Option BridgeProjectionRecord
  bodySha256 : String
  partCount : Nat
  completedParts : Nat
  lastExternalMessageId : Option String
  deriving DecidableEq, Repr

structure BridgeInboundTurnOriginRecord where
  turnId : String
  transport : String
  deriving DecidableEq, Repr

structure BridgePendingInboundRecord where
  externalEventId : String
  sourceMessageId : String
  clientPromptId : String
  text : String
  attachments : List PromptAttachment
  deriving DecidableEq, Repr

structure SessionBridgeRecord where
  sessionId : String
  workspace : String
  kind : OrchestratorKind
  lifecycle : BridgeLifecycle
  displayTitle : String
  revision : Nat
  transport : Option String
  externalParentId : Option String
  externalThreadId : Option String
  lastProjected : Option BridgeProjectionRecord
  delivery : Option BridgeDeliveryRecord
  liveTurnId : Option String
  liveExternalMessageId : Option String
  activeSourceMessageId : Option String
  recentInboundEventIds : List String
  pendingInbound : Option BridgePendingInboundRecord
  inboundTurnOrigins : List BridgeInboundTurnOriginRecord
  updatedAtMs : Int
  deriving DecidableEq, Repr

structure SessionBridgeIntent where
  kind : OrchestratorKind
  lifecycle : BridgeLifecycle
  displayTitle : String
  deriving DecidableEq, Repr

/-! ## What is checked before a record is read -/

/-- `char::is_control`. -/
def isControl (c : Char) : Bool := c.toNat ≤ 0x1F || (0x7F ≤ c.toNat && c.toNat ≤ 0x9F)

def validateExternalIdentity (field value : String) (maximumBytes : Nat) :
    Except DomainCommandError Unit :=
  if value.isEmpty || maximumBytes < Text.len value || value.toList.any isControl ||
      Text.trim value != value then
    .error (.invalid
      s!"{field} must be a non-empty normalized value of at most {maximumBytes} bytes")
  else .ok ()

/-- `byte.is_ascii_hexdigit() && !byte.is_ascii_uppercase()` -/
def isLowerHexDigit (c : Char) : Bool :=
  ('0' ≤ c && c ≤ '9') || ('a' ≤ c && c ≤ 'f')

def validateDeliveryPlan (bodySha256 : String) : Except DomainCommandError Unit :=
  if Text.len bodySha256 != 64 || !bodySha256.toList.all isLowerHexDigit then
    .error (.invalid "bridge delivery body_sha256 must be 64 lowercase hexadecimal characters")
  else .ok ()

def validatedBridgeTitle (requested : String) (fallback : Option String) :
    Except DomainCommandError String :=
  let candidate :=
    if (Text.trim requested).isEmpty then fallback.getD "Nakode session" else requested
  let title := Text.trim (Text.firstLine candidate)
  if title.toList.any isControl then
    .error (.invalid "bridge display title contains control characters")
  else if title.isEmpty then .ok "Nakode session"
  else .ok (Text.take 100 title)

/-- The record of a bridge that is opened for a session. -/
def openedRecord (sessionId workspace displayTitle : String) (intent : SessionBridgeIntent)
    (nowMs : Int) : SessionBridgeRecord where
  sessionId
  workspace
  kind := intent.kind
  lifecycle := intent.lifecycle
  displayTitle
  revision := 1
  transport := none
  externalParentId := none
  externalThreadId := none
  lastProjected := none
  delivery := none
  liveTurnId := none
  liveExternalMessageId := none
  activeSourceMessageId := none
  recentInboundEventIds := []
  pendingInbound := none
  inboundTurnOrigins := []
  updatedAtMs := nowMs

/-- `RECENT_INBOUND_CACHE_CAPACITY` -/
def recentInboundCacheCapacity : Nat := 256

def u64Max : Nat := 2 ^ 64 - 1

def saturatingAdd (a b : Nat) : Nat := min (a + b) u64Max

namespace SessionBridgeRecord

variable (bridge : SessionBridgeRecord)

def bumpBridgeRevision (nowMs : Int) : SessionBridgeRecord :=
  { bridge with revision := saturatingAdd bridge.revision 1, updatedAtMs := nowMs }

/-! ## The lifecycle and the thread -/

def setLifecycle (nowMs : Int) (lifecycle : BridgeLifecycle) : Option SessionBridgeRecord :=
  if bridge.lifecycle = lifecycle then none
  else some ({ bridge with lifecycle }.bumpBridgeRevision nowMs)

def bindThread (nowMs : Int) (transport externalParentId externalThreadId : String) :
    Except DomainCommandError (Option SessionBridgeRecord) :=
  if bridge.transport = some transport ∧ bridge.externalParentId = some externalParentId ∧
      bridge.externalThreadId = some externalThreadId then .ok none
  else if bridge.transport = none ∧ bridge.externalParentId = none ∧
      bridge.externalThreadId = none then
    .ok (some ({ bridge with
      transport := some transport
      externalParentId := some externalParentId
      externalThreadId := some externalThreadId }.bumpBridgeRevision nowMs))
  else
    .error (.conflict "session bridge is already paired with a different external thread")

/-- The record without its thread. The parts that were sent to the thread are gone with it. -/
def withoutThread : SessionBridgeRecord :=
  { bridge with
    transport := none
    externalParentId := none
    externalThreadId := none
    liveTurnId := none
    liveExternalMessageId := none
    activeSourceMessageId := none
    delivery := bridge.delivery.map fun delivery =>
      { delivery with completedParts := 0, lastExternalMessageId := none } }

def clearThread (nowMs : Int) (transport externalThreadId : String) :
    Except DomainCommandError (Option SessionBridgeRecord) :=
  if bridge.pendingInbound.isSome then
    .error (.conflict
      "cannot clear an external thread while its accepted inbound prompt is unresolved")
  else if bridge.transport ≠ some transport ∨ bridge.externalThreadId ≠ some externalThreadId then
    .error (.conflict "external thread no longer matches this session bridge")
  else
    .ok (some (bridge.withoutThread.bumpBridgeRevision nowMs))

/-! ## The delivery of a projection -/

/-- A projection without parts is one that came in from the thread itself. -/
def zeroPartSuppressionAllowed (partCount : UInt64) (projectionKind : BridgeProjectionKind)
    (turnId : String) : Bool :=
  partCount == 0 && projectionKind == .user && bridge.inboundTurnOrigins.any fun origin =>
    origin.turnId == turnId && origin.transport == bridge.transport.getD ""

def prepareDelivery (nowMs : Int) (projectionKind : BridgeProjectionKind) (turnId : String)
    (expected : Option BridgeProjectionRecord) (bodySha256 : String) (partCount : UInt64) :
    Except DomainCommandError (Option SessionBridgeRecord) :=
  if bridge.lastProjected = some ⟨projectionKind, turnId⟩ then .ok none
  else if partCount = 0 ∧
      bridge.zeroPartSuppressionAllowed partCount projectionKind turnId = false then
    .error (.invalid "zero-part projection requires trusted inbound user provenance")
  else
    match bridge.delivery with
    | some current =>
      if current.projectionKind = projectionKind ∧ current.turnId = turnId ∧
          current.previousProjection = expected ∧ current.bodySha256 = bodySha256 ∧
          current.partCount = partCount.toNat then .ok none
      else
        .error (.conflict "another transcript delivery is already pending for this session")
    | none =>
      if bridge.lastProjected ≠ expected then
        .error (.conflict
          "bridge transcript projection cursor advanced; refresh before delivering")
      else
        .ok (some ({ bridge with
          delivery := some {
            projectionKind
            turnId
            previousProjection := expected
            bodySha256
            partCount := partCount.toNat
            completedParts := 0
            lastExternalMessageId := none } }.bumpBridgeRevision nowMs))

def completeDeliveryPart (nowMs : Int) (projectionKind : BridgeProjectionKind) (turnId : String)
    (partIndex : UInt64) (externalMessageId : String) :
    Except DomainCommandError (Option SessionBridgeRecord) :=
  match bridge.delivery with
  | none => .error (.conflict "no transcript delivery is pending")
  | some delivery =>
    if delivery.projectionKind ≠ projectionKind ∨ delivery.turnId ≠ turnId then
      .error (.conflict "pending transcript delivery belongs to another projection")
    else if delivery.partCount ≤ partIndex.toNat then
      .error (.invalid "delivery part index exceeds the prepared part count")
    else if partIndex.toNat < delivery.completedParts then
      -- Of the parts behind the checkpoint, only the last one is still known by its message.
      if saturatingAdd partIndex.toNat 1 = delivery.completedParts ∧
          delivery.lastExternalMessageId ≠ some externalMessageId then
        .error (.conflict "completed delivery part has a different external message identity")
      else .ok none
    else if partIndex.toNat ≠ delivery.completedParts then
      .error (.conflict "delivery parts must be checkpointed in order")
    else
      .ok (some ({ bridge with
        delivery := some { delivery with
          completedParts := saturatingAdd delivery.completedParts 1
          lastExternalMessageId := some externalMessageId } }.bumpBridgeRevision nowMs))

/-- The origins of a turn are kept until its projection is delivered, and a turn that is answered
gives up the live message and the reaction to its source. -/
def projected (projectionKind : BridgeProjectionKind) (turnId : String)
    (clearActiveSourceMessageId : Option String) : SessionBridgeRecord :=
  let answered := projectionKind = .assistant ∧ bridge.liveTurnId = some turnId
  { bridge with
    lastProjected := some ⟨projectionKind, turnId⟩
    delivery := none
    inboundTurnOrigins := bridge.inboundTurnOrigins.filter (·.turnId != turnId)
    liveTurnId := if answered then none else bridge.liveTurnId
    liveExternalMessageId := if answered then none else bridge.liveExternalMessageId
    activeSourceMessageId :=
      if projectionKind = .assistant ∧ clearActiveSourceMessageId.isSome ∧
          bridge.activeSourceMessageId = clearActiveSourceMessageId then none
      else bridge.activeSourceMessageId }

def finalizeDelivery (nowMs : Int) (projectionKind : BridgeProjectionKind) (turnId : String)
    (clearActiveSourceMessageId : Option String) :
    Except DomainCommandError (Option SessionBridgeRecord) :=
  if bridge.lastProjected = some ⟨projectionKind, turnId⟩ then .ok none
  else
    match bridge.delivery with
    | none => .error (.conflict "no transcript delivery is pending")
    | some delivery =>
      if delivery.projectionKind ≠ projectionKind ∨ delivery.turnId ≠ turnId then
        .error (.conflict "pending transcript delivery belongs to another projection")
      else if bridge.lastProjected ≠ delivery.previousProjection then
        .error (.conflict "bridge transcript projection cursor changed during delivery")
      else if delivery.completedParts ≠ delivery.partCount then
        .error (.conflict "transcript delivery still has unsent parts")
      else
        .ok (some ((bridge.projected projectionKind turnId
          clearActiveSourceMessageId).bumpBridgeRevision nowMs))

/-! ## The live message -/

def setLiveMessage (nowMs : Int) (turnId externalMessageId clearActiveSourceMessageId :
    Option String) : Except DomainCommandError (Option SessionBridgeRecord) :=
  let clearSource := clearActiveSourceMessageId.isSome ∧
    bridge.activeSourceMessageId = clearActiveSourceMessageId
  if clearActiveSourceMessageId.isSome ∧ bridge.activeSourceMessageId.isSome ∧
      bridge.activeSourceMessageId ≠ clearActiveSourceMessageId then
    .error (.conflict "bridge source-message owner changed before terminal cleanup")
  else if bridge.liveTurnId = turnId ∧ bridge.liveExternalMessageId = externalMessageId ∧
      ¬ clearSource then .ok none
  else
    .ok (some ({ bridge with
      liveTurnId := turnId
      liveExternalMessageId := externalMessageId
      activeSourceMessageId := if clearSource then none else bridge.activeSourceMessageId
        }.bumpBridgeRevision nowMs))

/-! ## Prompts from the thread -/

/-- The record that remembers an event, and the event it forgets for it. -/
def rememberInboundEvent (externalEventId : String) : SessionBridgeRecord × Option String :=
  if externalEventId ∈ bridge.recentInboundEventIds then (bridge, none)
  else if bridge.recentInboundEventIds.length = recentInboundCacheCapacity then
    ({ bridge with
      recentInboundEventIds := bridge.recentInboundEventIds.tail ++ [externalEventId] },
      bridge.recentInboundEventIds.head?)
  else
    ({ bridge with recentInboundEventIds := bridge.recentInboundEventIds ++ [externalEventId] },
      none)

/-- The record with a prompt that the engine has taken, until a provider acknowledges it. -/
def withPending (sourceMessageId : String) (pending : BridgePendingInboundRecord) :
    SessionBridgeRecord :=
  { bridge with activeSourceMessageId := some sourceMessageId, pendingInbound := some pending }

/-- A turn of another source than the thread gives up the reaction that an earlier turn left. -/
def recordTurnOrigin (nowMs : Int) (providerTurnId : String) (sourceTransport : Option String) :
    Option SessionBridgeRecord :=
  let fresh := sourceTransport.filter fun transport =>
    !bridge.inboundTurnOrigins.any fun origin =>
      origin.turnId == providerTurnId && origin.transport == transport
  let stale := sourceTransport ≠ bridge.transport ∧ bridge.activeSourceMessageId.isSome
  if fresh = none ∧ ¬ stale then none
  else
    some ({ bridge with
      inboundTurnOrigins := bridge.inboundTurnOrigins ++
        fresh.toList.map (BridgeInboundTurnOriginRecord.mk providerTurnId)
      activeSourceMessageId := if stale then none else bridge.activeSourceMessageId
        }.bumpBridgeRevision nowMs)

def acknowledgePrompt (nowMs : Int) (clientPromptId : String) : Option SessionBridgeRecord :=
  if bridge.pendingInbound.map (·.clientPromptId) ≠ some clientPromptId then none
  else some ({ bridge with pendingInbound := none }.bumpBridgeRevision nowMs)

end SessionBridgeRecord

end Nakode.Bridges
