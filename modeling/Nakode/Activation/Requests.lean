import Nakode.Activation.Journal

/-!
# What rewrites the activation journal

The scheduled and manual checks, the conditional force, the requests that were queued when the
activation succeeded, the helper's own identity, the observation of the running service and the
recording of an installation. Each runs under the activation lease.
-/

namespace Nakode.ActivationJournal

open Interaction

/-! ## Status -/

def synthesizedJournal : Activation ActivationError Journal := do
  let installed : InstalledIdentity := ⟨← executableIdentity, cargoPkgVersion⟩
  let running ← runningIdentity
  let isCurrent := running.all (runningServiceHasBuild · installed.executable)
  let unreachableRuntime := running.any (·.server.isNone)
  let journal ← newJournal installed running
  let journal := { journal with attemptId := "current", nextCheckAtUnixMs := none }
  if isCurrent then
    return { journal with phase := .current }
  else
    let message :=
      if unreachableRuntime then
        "the service runtime record exists, but its API is not reachable; " ++
          "activation state cannot be verified"
      else
        "the installed binary differs from the running service, " ++
          "but no activation helper is recorded"
    return { journal with phase := .failed, failure := some ⟨message, true⟩ }

def statusJournal : Activation ActivationError Journal := do
  match ← readJournal with
  | some journal => return journal
  | none => synthesizedJournal

/-! ## Checks -/

def failChangedInstalledExecutable (journal : Journal) (trigger : CheckTrigger) (started : Nat) :
    Activation ActivationError Bool := do
  let journal := { journal with
    phase := .failed
    failure := some ⟨"the installed executable changed after this activation attempt was recorded",
      false⟩
    nextCheckAtUnixMs := none }
  let journal ← recordNow journal trigger started .failed "installed executable identity changed"
  let _ ← writeJournal (journal.heartbeat (← nowMs))
  return false

def recordRetryableActivationFailure (trigger : CheckTrigger) (started : Nat)
    (blockers : List Blocker) (message : String) : Activation ActivationError Bool := do
  let journal ← readRequiredJournal
  let journal := { journal with
    blockers
    phase := if blockers = [] then .failed else .blocked
    failure := some ⟨message, true⟩
    nextCheckAtUnixMs := some (saturatingAdd (← nowMs) checkCadenceMs) }
  let journal ← recordNow journal trigger started .failed message
  let _ ← writeJournal (journal.heartbeat (← nowMs))
  return false

def finishActivation (trigger : CheckTrigger) (started : Nat) :
    Activation ActivationError Unit := do
  Act.attempt Query.waitForApi id
  let running ← runningIdentity
  let expected ← executableIdentity
  if running.any (runningServiceHasBuild · expected) then
    let journal ← readRequiredJournal
    let journal := { journal with
      running
      phase := .activated
      blockers := []
      failure := none
      nextCheckAtUnixMs := none }
    let journal ← recordNow journal trigger started .activated
      "installed binary activated and verified"
    let _ ← writeJournal (journal.heartbeat (← nowMs))
  else
    throw (.rejected "replacement service became ready with an unexpected executable identity")

def finishActivationOrRecordFailure (trigger : CheckTrigger) (started : Nat) :
    Activation ActivationError Bool := do
  match ← Act.result (finishActivation trigger started) with
  | .ok () => return true
  | .error error => recordRetryableActivationFailure trigger started [] error.display

/-- `collect_blockers(..).unwrap_or_default()`. -/
def collectBlockersOrNone {ε : Type} : Activation ε (List Blocker) := do
  match ← collectBlockers with
  | .ok blockers => return blockers
  | .error _ => return []

def activateQuiescentService (trigger : CheckTrigger) (started : Nat) :
    Activation ActivationError Bool := do
  match ← restartServiceQuiescent with
  | .ok () => finishActivationOrRecordFailure trigger started
  | .error error =>
    let blockers ← collectBlockersOrNone
    recordRetryableActivationFailure trigger started blockers error.display

/-- The service is replaced as nothing is in its way. -/
def activateNow (journal : Journal) (trigger : CheckTrigger) (started : Nat) :
    Activation ActivationError Bool := do
  let journal := { journal with phase := .activating, blockers := [] }
  let _ ← writeJournal (journal.heartbeat (← nowMs))
  activateQuiescentService trigger started

/-- Neither the service nor the process that is recorded for it answers. -/
def serviceIsGone (runningApiIsReachable : Bool) {ε : Type} : Activation ε Bool := do
  if runningApiIsReachable then return false
  if ← lifecycleIsLive then return false
  runtimeOwnerIsDisproven

/-- What a check finds out about the running service, and what it does then. -/
def checkRunningService (journal : Journal) (trigger : CheckTrigger) (started : Nat) :
    Activation ActivationError Bool := do
  let journal := { journal with running := ← runningIdentity }
  if journal.running.any (runningServiceHasBuild · journal.installed.executable) then
    let journal := { journal with phase := .activated, blockers := [], nextCheckAtUnixMs := none }
    let journal ← recordNow journal trigger started .activated
      "installed service was already active"
    let _ ← writeJournal journal
    return true
  let runningApiIsReachable := journal.running.any (·.server.isSome)
  if ← serviceIsGone runningApiIsReachable then
    activateNow journal trigger started
  else match ← collectBlockers with
    | .ok [] => activateNow journal trigger started
    | .ok blockers =>
      let journal := { journal with
        phase := .blocked
        blockers
        nextCheckAtUnixMs := some (saturatingAdd (← nowMs) checkCadenceMs) }
      let journal ← recordNow journal trigger started .blocked
        "activation is waiting for whole-service quiescence"
      let _ ← writeJournal (journal.heartbeat (← nowMs))
      return false
    | .error error =>
      let journal := { journal with
        phase := .failed
        failure := some ⟨error, true⟩
        nextCheckAtUnixMs := some (saturatingAdd (← nowMs) checkCadenceMs) }
      let journal ← recordNow journal trigger started .failed error
      let _ ← writeJournal (journal.heartbeat (← nowMs))
      return false

def checkOnceFenced (trigger : CheckTrigger) : Activation ActivationError Bool := do
  let started ← nowMs
  let journal ← readRequiredJournal
  let installedNow ← executableIdentity
  if matchesRecordedTarget journal.installed.executable installedNow then
    let installed :=
      if journal.installed.executable.buildRevision.isNone && installedNow.buildRevision.isSome then
        { journal.installed with executable := installedNow }
      else journal.installed
    let journal := { journal with
      installed
      phase := .checking
      lastCheckAtUnixMs := some started
      nextCheckAtUnixMs := none
      failure := none }
    let journal ← writeJournal (journal.heartbeat (← nowMs))
    checkRunningService journal trigger started
  else
    failChangedInstalledExecutable journal trigger started

def checkOnce (trigger : CheckTrigger) : Activation ActivationError Bool := do
  acquireLease
  checkOnceFenced trigger

/-! ## Idempotency -/

inductive IdempotencyReplay where
  | new
  | accepted
  | rejected (status : Status)

def idempotencyReplay (journal : Journal) (key : String) : Except Status IdempotencyReplay :=
  if key = "" then .error ⟨.invalidArgument, "idempotency_key must not be empty"⟩
  else if ¬journal.hasIdempotencyKey key then .ok .new
  else match journal.idempotencyRejections.find? (·.key == key) with
    | some rejection => .ok (.rejected (rejection.code.status rejection.message))
    | none => .ok .accepted

def rememberIdempotencyAcceptance (journal : Journal) (key : String) : Except Status Journal :=
  match journal.rememberIdempotencyKey key with
  | some journal => .ok journal
  | none => .error ⟨.internal,
      "idempotency key changed while the activation mutation lease was held"⟩

def rememberIdempotencyRejection (journal : Journal) (key : String) (rejection : Status) :
    Except Status Journal :=
  match journal.rememberIdempotencyRejection key rejection with
  | some journal => .ok journal
  | none => .error ⟨.internal,
      "idempotency rejection changed while the activation mutation lease was held"⟩

/-- The error of the journal's file as a status. -/
def orInternal {α : Type} (x : Activation ActivationError α) : Activation Status α :=
  Act.mapError internalStatus x

def persistAcceptedExecutionRejection (key : String) (rejection : Status) :
    Activation Status Unit := do
  let journal ← orInternal readRequiredJournal
  match journal.rememberAcceptedIdempotencyRejection key rejection with
  | some journal =>
    let _ ← orInternal (writeJournal journal)
  | none => throw ⟨.internal,
      "accepted idempotency outcome changed while the activation mutation lease was held"⟩

/-- The rejection of an accepted key, recorded. -/
def rejectAccepted {α : Type} (key : String) (rejection : Status) : Activation Status α := do
  persistAcceptedExecutionRejection key rejection
  throw rejection

/-! ## Conditional force -/

structure ForceActivateRequest where
  idempotencyKey : String
  expectedActivationRevision : Nat
  expectedBlockers : List Blocker
  expectedAttemptId : String
  deriving DecidableEq

def normalizedBlockerSet (blockers : List Blocker) : Finset (String × Nat) :=
  (blockers.map fun blocker => (blocker.sessionId, blocker.sessionRevision)).toFinset

def validateForceFence (journal : Journal) (request : ForceActivateRequest) :
    Except Status (Finset (String × Nat)) :=
  if journal.attemptId ≠ request.expectedAttemptId then
    .error ⟨.aborted, s!"activation attempt changed (expected {request.expectedAttemptId}, " ++
      s!"current {journal.attemptId})"⟩
  else if journal.revision ≠ request.expectedActivationRevision then
    .error ⟨.aborted, "activation status changed (expected revision " ++
      s!"{request.expectedActivationRevision}, current revision {journal.revision})"⟩
  else
    let expected := normalizedBlockerSet request.expectedBlockers
    if expected = normalizedBlockerSet journal.blockers then .ok expected
    else .error ⟨.aborted,
      "the confirmed blocker set does not match current activation status"⟩

/-- A force request that is refused at once, with its record. -/
def refuseForce (journal : Journal) (started : Nat) (key : String) (error : Status) :
    Activation Status Journal := do
  let journal ← recordNow journal .forced started .cancelled error.message
  let journal ← (rememberIdempotencyRejection journal key error : Except Status Journal)
  let _ ← orInternal (writeJournal journal)
  throw error

def forceUnsupported : Status :=
  ⟨.unimplemented, "the running service does not advertise conditional activation force"⟩

def performConditionalForce (expectedRuntime : Finset (String × Nat)) (key : String)
    (started : Nat) : Activation Status Unit := do
  match ← restartServiceConditionally expectedRuntime with
  | .ok () =>
    match ← Act.result (finishActivationOrRecordFailure .forced started) with
    | .ok true => return ()
    | .ok false =>
      let journal ← orInternal readRequiredJournal
      let message := journal.failure.elim "replacement service could not be verified" (·.message)
      rejectAccepted key ⟨.unavailable, message⟩
    | .error error => rejectAccepted key (internalStatus error)
  | .error error =>
    let blockers ← collectBlockersOrNone
    let _ ← orInternal (recordRetryableActivationFailure .forced started blockers error.display)
    rejectAccepted key ⟨.aborted, error.display⟩

/-- The status after an accepted request. -/
def acceptedStatus (key : String) : Activation Status Journal := do
  match ← Act.result statusJournal with
  | .ok status => return status
  | .error error => rejectAccepted key (internalStatus error)

/-- The lease, the journal, and what it says about the key. -/
def beginRequest (key : String) : Activation Status (Journal × IdempotencyReplay) := do
  Act.mapError (fun error => ⟨.aborted, error.display⟩) acquireLease
  match ← orInternal readJournal with
  | some journal =>
    let replay ← (idempotencyReplay journal key : Except Status IdempotencyReplay)
    return (journal, replay)
  | none => throw ⟨.failedPrecondition, "no activation is pending"⟩

def manualRecheck (key : String) : Activation Status Journal := do
  match ← beginRequest key with
  | (journal, .accepted) => return journal
  | (_, .rejected error) => throw error
  | (journal, .new) =>
    let journal ← (rememberIdempotencyAcceptance journal key : Except Status Journal)
    let _ ← orInternal (writeJournal journal)
    match ← Act.result (checkOnceFenced .manual) with
    | .error error => rejectAccepted key (internalStatus error)
    | .ok _ => acceptedStatus key

def forceActivate (request : ForceActivateRequest) : Activation Status Journal := do
  match ← beginRequest request.idempotencyKey with
  | (journal, .accepted) => return journal
  | (_, .rejected error) => throw error
  | (journal, .new) =>
    let started ← nowMs
    if !journal.supportsForce then
      refuseForce journal started request.idempotencyKey forceUnsupported
    else match validateForceFence journal request with
      | .error error => refuseForce journal started request.idempotencyKey error
      | .ok expected =>
        let journal ←
          (rememberIdempotencyAcceptance journal request.idempotencyKey : Except Status Journal)
        let journal := { journal with
          phase := .forcing, failure := none, nextCheckAtUnixMs := none }
        let _ ← orInternal (writeJournal (journal.heartbeat (← nowMs)))
        performConditionalForce expected request.idempotencyKey started
        acceptedStatus request.idempotencyKey

/-! ## Requests that were queued when the activation succeeded -/

/-- The journal of the activation that succeeded, and what it says about the key. -/
def beginTerminal (key changed : String) : Activation Status (Journal × IdempotencyReplay) := do
  let journal ← orInternal readRequiredJournal
  if journal.phase = .activated then
    let replay ← (idempotencyReplay journal key : Except Status IdempotencyReplay)
    return (journal, replay)
  else throw ⟨.unavailable, changed⟩

/-- The key is accepted, and the check that it asked for is recorded as done. -/
def completeTerminal (journal : Journal) (trigger : CheckTrigger) (completed : Nat)
    (key detail : String) : Activation Status Journal := do
  let journal ← (rememberIdempotencyAcceptance journal key : Except Status Journal)
  let journal ← recordNow journal trigger completed .activated detail
  orInternal (writeJournal journal)

def completeTerminalRecheck (key : String) : Activation Status Journal := do
  match ← beginTerminal key
    "activation changed before the queued recheck could run; rediscover the endpoint" with
  | (journal, .accepted) => return journal
  | (_, .rejected error) => throw error
  | (journal, .new) =>
    completeTerminal journal .manual (← nowMs) key
      "activation completed before the queued recheck ran"

def completeTerminalForce (request : ForceActivateRequest) : Activation Status Journal := do
  match ← beginTerminal request.idempotencyKey
    "activation changed before the queued force request could run; rediscover the endpoint" with
  | (journal, .accepted) => return journal
  | (_, .rejected error) => throw error
  | (journal, .new) =>
    let completed ← nowMs
    if !journal.supportsForce then
      refuseForce journal completed request.idempotencyKey forceUnsupported
    else match validateForceFence journal request with
      | .error error => refuseForce journal completed request.idempotencyKey error
      | .ok _ =>
        completeTerminal journal .forced completed request.idempotencyKey
          "activation completed before the queued conditional force ran"

/-! ## Identities -/

def installHelperIdentity (pid : Nat) (instanceId : String) : Activation ActivationError Unit := do
  acquireLease
  match ← readJournal with
  | some journal =>
    let now ← nowMs
    let _ ← writeJournal { journal with
      helper := some ⟨pid, instanceId, now, now⟩, failure := none }
  | none => throw (.rejected "activation helper has no pending journal")

/-- The journal of an observed service when the file could not be decoded. -/
def recoverObserved (installed : ExecutableIdentity) (runtime : ServiceRuntimeRecord)
    (server : Option ServerReport) : Activation ActivationError Unit := do
  let quarantined ← quarantineCorruptJournal
  let started ← nowMs
  let recovered ← newJournal ⟨installed, cargoPkgVersion⟩ (some ⟨runtime, server⟩)
  let recovered := { recovered with phase := .activated, nextCheckAtUnixMs := none }
  let recovered ← recordNow recovered .recovered started .activated
    ("endpoint discovery reconstructed current activation state; " ++
      s!"corrupt journal quarantined at {quarantined}")
  let _ ← writeJournal recovered

/-- The journal of an observed service that has the recorded build. -/
def reconcileObserved (journal : Journal) (installed : ExecutableIdentity)
    (observedRunning : RunningIdentity) : Activation ActivationError Unit := do
  let provenanceUpgraded :=
    journal.installed.executable.buildRevision.isNone && installed.buildRevision.isSome
  let journal :=
    if provenanceUpgraded then { journal with installed := ⟨installed, cargoPkgVersion⟩ }
    else journal
  let runningChanged := journal.running ≠ some observedRunning
  if journal.phase ≠ .current ∧ journal.phase ≠ .activated then
    let started ← match journal.lastCheckAtUnixMs with
      | some started => pure started
      | none => nowMs
    let journal := { journal with
      phase := .activated
      running := some observedRunning
      blockers := []
      failure := none
      nextCheckAtUnixMs := none }
    let journal ← recordNow journal .recovered started .activated
      "endpoint discovery verified the installed service"
    let _ ← writeJournal journal
  else if provenanceUpgraded ∨ runningChanged then
    let _ ← writeJournal { journal with running := some observedRunning }

def observeCurrentService (installed : ExecutableIdentity) (runtime : ServiceRuntimeRecord)
    (server : Option ServerReport) : Activation ActivationError Unit := do
  if server.isNone || !runtimeMatchesCli runtime installed server then return ()
  acquireLease
  if (← readRuntimeRecord) ≠ some runtime then return ()
  match ← Act.result readJournal with
  | .ok (some journal) =>
    if matchesRecordedTarget journal.installed.executable installed then
      reconcileObserved journal installed ⟨runtime, server⟩
  | .ok none => return ()
  | .error (.decode _ _) => recoverObserved installed runtime server
  | .error error => throw error

/-- The journal to go on with, whether it is of a recorded attempt, and where a file that could not
be decoded is now. -/
def attemptToSchedule (installed : InstalledIdentity) (running : Option RunningIdentity) :
    Activation ActivationError (Journal × Bool × Option String) := do
  match ← Act.result readJournal with
  | .ok (some existing) =>
    if matchesRecordedTarget existing.installed.executable installed.executable then
      return (existing, true, none)
    else return (← newJournal installed running, false, none)
  | .ok none => return (← newJournal installed running, false, none)
  | .error (.decode _ _) =>
    let quarantined ← quarantineCorruptJournal
    return (← newJournal installed running, false, some quarantined)
  | .error error => throw error

/-- `schedule_deferred_activation` up to the start of the helper. -/
def scheduleDeferredActivation (detail : String) : Activation ActivationError Unit := do
  let installed : InstalledIdentity := ⟨← executableIdentity, cargoPkgVersion⟩
  let running ← runningIdentity
  if running.any (runningServiceHasBuild · installed.executable) then return ()
  acquireLease
  let (journal, existingAttempt, recoveredCorruption) ← attemptToSchedule installed running
  if !existingAttempt || journal.phase = .current || journal.phase = .activated ||
      journal.phase = .cancelled then
    let started ← nowMs
    let message := recoveredCorruption.elim detail fun path =>
      s!"{detail}; corrupt activation journal was quarantined at {path} " ++
        "and the pending attempt was reconstructed"
    let journal := { journal with
      installed
      running
      phase := .installedPending
      nextCheckAtUnixMs := some started
      failure := some ⟨message, true⟩
      helper := none }
    let journal ← match recoveredCorruption with
      | some path =>
        recordNow journal .recovered started .failed
          s!"reconstructed pending activation after quarantining corrupt journal at {path}"
      | none => pure journal
    let _ ← writeJournal journal

end Nakode.ActivationJournal
