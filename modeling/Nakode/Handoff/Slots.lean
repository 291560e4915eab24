import Nakode.Lib.Trace
import Nakode.Handoff.Package

/-!
# The slots a package travels through

A package is pending for the session (`pendingHandoff`) until a prompt begins. It goes with that
prompt to the creation of a session (`pendingSessionPrompt`) and to the start of a turn
(`startingTurn`), and a queued prompt that was sent ahead of its turn keeps a copy in its
reservation (`redirectStart`).

`State` is the part of a session's engine that decides where a package goes. What else happens to a
session (`Surroundings`) is any: its connection, its other work, its transcript. So are the checks
of a prompt's text, and what is appended to it besides the package. Each step has beside it what it
asks of the backend and what becomes of packages (`Note`).
-/

namespace Nakode.Handoff

/-! ## Prompts -/

structure QueuedPrompt where
  deliveryUncertain : Bool
  id : String
  text : String
  handoff : Option HandoffPackage
  deriving DecidableEq, Repr

/-- Guidance that was sent and is not acknowledged. -/
def QueuedPrompt.markUncertain (promptId : String) (prompt : QueuedPrompt) : QueuedPrompt :=
  if prompt.id == promptId then { prompt with deliveryUncertain := true } else prompt

@[simp] theorem QueuedPrompt.markUncertain_id (promptId : String) (prompt : QueuedPrompt) :
    (prompt.markUncertain promptId).id = prompt.id := by
  unfold markUncertain
  split <;> rfl

@[simp] theorem QueuedPrompt.markUncertain_handoff (promptId : String) (prompt : QueuedPrompt) :
    (prompt.markUncertain promptId).handoff = prompt.handoff := by
  unfold markUncertain
  split <;> rfl

structure OutgoingPrompt where
  id : String
  text : String
  handoff : Option HandoffPackage
  deriving DecidableEq, Repr

/-- What the provider reads of a prompt. -/
def OutgoingPrompt.wireText (prompt : OutgoingPrompt) : String :=
  prompt.handoff.elim prompt.text (·.renderWithPrompt prompt.text)

structure RedirectStart where
  prompt : QueuedPrompt
  predecessorIds : List String
  successorIds : List String
  deriving DecidableEq, Repr

inductive TurnOutcome where
  | completed
  | interrupted
  | failed
  deriving DecidableEq, Repr

/-! ## States -/

structure State where
  /-- The active provider's connection is ready. -/
  ready : Bool
  backendProvider : String
  /-- The providers that are known, and whether their connections are ready. -/
  providerContexts : List (String × Bool)
  selectedModel : Option String
  /-- The model of the last turn. -/
  lastModel : Option String
  transcript : List TranscriptEntry
  providerSessionId : Option String
  /-- A session is resumed, or a compaction, a shell or a delegated run goes on. -/
  otherWork : Bool
  creatingSession : Bool
  pendingSessionPrompt : Option OutgoingPrompt
  startingTurn : Option OutgoingPrompt
  activeTurn : Option String
  queue : List QueuedPrompt
  /-- The id of the prompt that failed to start and is retried first. -/
  replayBlockedPrompt : Option String
  recoverablePrompt : Option String
  pendingRedirect : Option String
  redirectStart : Option RedirectStart
  pendingHandoff : Option HandoffPackage
  deriving DecidableEq, Repr

/-- What a step asks of the backend, and what it does with packages. -/
inductive Note where
  | startSession (promptId : String)
  | startTurn (providerSessionId promptId text : String)
  /-- A package is made for another provider. -/
  | made (package : HandoffPackage)
  /-- The turn of a prompt has started, with what the prompt carries. -/
  | started (promptId : String) (handoff : Option HandoffPackage)
  /-- A package is replaced by a newer one, or leaves the queue with its prompt. -/
  | dropped (package : HandoffPackage)
  deriving DecidableEq, Repr

namespace State

variable (s : State)

def hasActiveWork : Bool :=
  s.creatingSession || s.startingTurn.isSome || s.activeTurn.isSome || s.otherWork

def isBusy : Bool := s.replayBlockedPrompt.isSome || s.hasActiveWork

/-- The prompt that is waiting for its session or its turn. -/
def unstarted : Option OutgoingPrompt := s.pendingSessionPrompt <|> s.startingTurn

def isRedirected (promptId : String) : Bool := s.redirectStart.any (·.prompt.id == promptId)

def isQueued (promptId : String) : Bool := s.queue.any (·.id == promptId)

/-! ## Changing the provider -/

/-- The provider of the selected model, which its name starts with. -/
def targetProvider : Option String :=
  s.selectedModel.bind fun model =>
    if model.toList.contains '/' then some (String.ofList (model.toList.takeWhile (· != '/')))
    else none

/-- `activate_provider`, and then the package for the provider that takes over. -/
def switchTo (target : String) (targetReady : Bool) (sourceModel : Option String) :
    State × List Note :=
  let handoff := HandoffPackage.fromTranscript s.backendProvider sourceModel s.providerSessionId
    target s.transcript
  ({ s with
      ready := targetReady
      backendProvider := target
      providerSessionId := none
      pendingHandoff := handoff },
    s.pendingHandoff.toList.map Note.dropped ++ handoff.toList.map Note.made)

/-- The readiness of another provider, when it can be activated. -/
def available (target : String) : Option Bool :=
  if s.isBusy then none else (s.providerContexts.find? (·.1 == target)).map (·.2)

def prepareSelectedProviderTransition : Option (State × List Note) :=
  match s.targetProvider with
  | none => some (s, [])
  | some target =>
    if target == s.backendProvider then some (s, [])
    else (s.available target).map fun targetReady =>
      s.switchTo target targetReady (s.lastModel <|> s.selectedModel)

/-- `apply_session_model_selection`: a model of another provider is turned to at once, or by the
next prompt when the session is busy. -/
def selectModel (provider modelId : String) : State × List Note :=
  let qualified := provider ++ "/" ++ modelId
  if provider == s.backendProvider then
    ({ s with selectedModel := some qualified }, [])
  else
    match s.providerContexts.find? (·.1 == provider) with
    | none => (s, [])
    | some (_, targetReady) =>
      if s.isBusy then
        ({ s with selectedModel := some qualified }, [])
      else
        let (s, notes) := s.switchTo provider targetReady s.selectedModel
        ({ s with selectedModel := some qualified }, notes)

/-! ## Beginning a prompt -/

/-- Where a reserved prompt goes back to: in front of the first of its successors, or else behind
the last of its predecessors. -/
def redirectIndex (pending : RedirectStart) (queue : List QueuedPrompt) : Nat :=
  let position (id : String) := queue.findIdx? (·.id == id)
  (pending.successorIds.findSome? position).getD
    ((pending.predecessorIds.reverse.findSome? fun id => (position id).map (· + 1)).getD 0)

def restoreRedirectStart (pending : RedirectStart) : State :=
  if s.isQueued pending.prompt.id then s
  else { s with queue := s.queue.insertIdx (redirectIndex pending s.queue) pending.prompt }

def takeRedirectStart : State :=
  match s.redirectStart with
  | none => s
  | some pending => { s with redirectStart := none }.restoreRedirectStart pending

/-- Puts a prompt back that could not be begun. -/
def putBack (prompt : QueuedPrompt) : State :=
  if s.isRedirected prompt.id then s.takeRedirectStart
  else { s with queue := prompt :: s.queue }

def startPromptOnSession (prompt : OutgoingPrompt) (providerSessionId : String) :
    State × List Note :=
  ({ s with startingTurn := some prompt },
    [.startTurn providerSessionId prompt.id prompt.wireText])

/-- The reservation of a prompt has what the prompt carries. -/
def bindReservation (promptId : String) (handoff : Option HandoffPackage) : State :=
  { s with
    redirectStart := s.redirectStart.map fun (pending : RedirectStart) =>
      if pending.prompt.id == promptId then
        { pending with prompt := { pending.prompt with handoff } }
      else pending }

/-- Hands a prompt to the provider's session, which is created first if there is none. -/
def sendPrompt (prompt : OutgoingPrompt) : State × List Note :=
  match s.providerSessionId with
  | some providerSessionId => s.startPromptOnSession prompt providerSessionId
  | none =>
    ({ s with creatingSession := true, pendingSessionPrompt := some prompt },
      [.startSession prompt.id])

/-- What a prompt would carry is left behind when it takes the pending package. -/
def leftBehind (prompt : QueuedPrompt) : List Note :=
  if s.pendingHandoff.isSome then prompt.handoff.toList.map Note.dropped else []

/-- `begin_prompt` once the selected provider is the active one: the pending package goes with the
prompt, and else the one that the prompt was queued with. -/
def dispatchPrompt (prompt : QueuedPrompt) : State × List Note :=
  let handoff := s.pendingHandoff <|> prompt.handoff
  let s' := { s with pendingHandoff := none }.bindReservation prompt.id handoff
  let (s', notes) := s'.sendPrompt { id := prompt.id, text := prompt.text, handoff }
  (s', s.leftBehind prompt ++ notes)

def beginPrompt (prompt : QueuedPrompt) : State × List Note :=
  match s.prepareSelectedProviderTransition with
  | none => (s.putBack prompt, [])
  | some (s, notes) =>
    let (s, more) := s.dispatchPrompt prompt
    (s, notes ++ more)

def drainQueue : State × List Note :=
  if !s.ready || s.isBusy then
    (s, [])
  else
    match s.queue with
    | [] => (s, [])
    | prompt :: queue =>
      if prompt.deliveryUncertain then (s, []) else { s with queue }.beginPrompt prompt

/-! ## Commands -/

/-- A prompt under an id that is queued or on its way is not taken again, unless it is the one that
can be recovered. -/
def isKnown (promptId : String) : Bool :=
  s.recoverablePrompt != some promptId &&
    (s.isQueued promptId || s.unstarted.any (·.id == promptId))

def submitPrompt (promptId text : String) : State × List Note :=
  let retrying := s.replayBlockedPrompt == some promptId
  if !retrying && s.isKnown promptId then
    (s, [])
  else if s.queue.any (·.deliveryUncertain) || !s.ready ||
      (s.hasActiveWork || (s.replayBlockedPrompt.isSome && !retrying)) then
    (s, [])
  else
    let replayBlockedPrompt := if retrying then none else s.replayBlockedPrompt
    { s with replayBlockedPrompt, recoverablePrompt := none }.beginPrompt
      { deliveryUncertain := false, id := promptId, text, handoff := none }

def enqueuePrompt (promptId text : String) : State × List Note :=
  if s.replayBlockedPrompt == some promptId then
    s.submitPrompt promptId text
  else if s.isKnown promptId then
    (s, [])
  else if !s.isBusy then
    s.submitPrompt promptId text
  else
    ({ s with
      recoverablePrompt := none
      queue := s.queue ++ [{ deliveryUncertain := false, id := promptId, text, handoff := none }] },
      [])

/-- The packages of the queued prompts with an id. -/
def queuedHandoffs (promptId : String) : List HandoffPackage :=
  ((s.queue.find? (·.id == promptId)).bind (·.handoff)).toList

def removeQueuedPrompt (promptId : String) : State × List Note :=
  if s.isRedirected promptId || s.pendingRedirect == some promptId then
    (s, [])
  else if s.isQueued promptId then
    let dropped := (s.queuedHandoffs promptId).map Note.dropped
    let (s, notes) := { s with queue := s.queue.eraseP (·.id == promptId) }.drainQueue
    (s, dropped ++ notes)
  else
    (s, [])

/-- `steer_queued_prompt`: the text goes into the running turn, or the prompt is reserved to follow
it. -/
def steerQueuedPrompt (promptId : String) (native : Bool) : State :=
  if s.isQueued promptId && s.activeTurn.isSome && s.pendingRedirect.isNone then
    if native then
      { s with queue := s.queue.map (QueuedPrompt.markUncertain promptId) }
    else
      { s with pendingRedirect := some promptId }
  else
    s

/-- The provider has taken the text of a queued prompt as guidance. -/
def handleSteerAccepted (promptId : String) : State × List Note :=
  ({ s with queue := s.queue.eraseP (·.id == promptId) },
    (s.queuedHandoffs promptId).map Note.dropped)

/-! ## The course of a turn -/

def observeTurnStarted (turnId : String) : State :=
  match s.activeTurn with
  | some _ => s
  | none =>
    { s with
      startingTurn := none
      redirectStart := if s.startingTurn.any fun started => s.isRedirected started.id then none
        else s.redirectStart
      activeTurn := some turnId }

/-- The prompt whose turn starts when one is seen to start. -/
def startedNotes : List Note :=
  if s.activeTurn.isSome then []
  else s.startingTurn.toList.map fun prompt => Note.started prompt.id prompt.handoff

def restoreFailedPrompt (prompt : OutgoingPrompt) : State :=
  { s with
    pendingHandoff := prompt.handoff
    recoverablePrompt := some prompt.id
    replayBlockedPrompt := some prompt.id }

def beginPendingRedirect (promptId : String) : State × List Note :=
  match s.queue.find? (·.id == promptId) with
  | none => (s, [])
  | some prompt =>
    let position := s.queue.findIdx (·.id == promptId)
    { s with
      queue := s.queue.eraseP (·.id == promptId)
      redirectStart := some
        { prompt
          predecessorIds := (s.queue.take position).map QueuedPrompt.id
          successorIds := (s.queue.drop (position + 1)).map QueuedPrompt.id } }.beginPrompt prompt

/-- What runs when a turn is over. -/
def continueAfterTurn (outcome : TurnOutcome) : State × List Note :=
  match s.pendingRedirect with
  | some promptId =>
    if outcome == .failed then ({ s with pendingRedirect := none }, [])
    else { s with pendingRedirect := none }.beginPendingRedirect promptId
  | none => s.drainQueue

/-- The prompt whose turn failed before it was seen to start. -/
def failedBeforeStart (outcome : TurnOutcome) : Option OutgoingPrompt :=
  if outcome == .failed && s.activeTurn.isNone then s.startingTurn else none

def completeTurn (turnId : String) (outcome : TurnOutcome) : State × List Note :=
  let failed := s.failedBeforeStart outcome
  let notes := if failed.isSome then [] else s.startedNotes
  let s := if s.activeTurn.isNone && s.startingTurn.isSome then s.observeTurnStarted turnId else s
  if s.activeTurn != some turnId then
    (s, notes)
  else
    let s := { s with activeTurn := none, startingTurn := none }
    match failed with
    | some prompt => (s.restoreFailedPrompt prompt, notes)
    | none =>
      let (s, more) := s.continueAfterTurn outcome
      (s, notes ++ more)

/-! ## The backend -/

def qualifyActiveModel (model : String) : String :=
  if model.toList.contains '/' then model else s.backendProvider ++ "/" ++ model

def handleSessionCreated (providerSessionId model : String) : State × List Note :=
  if providerSessionId.isEmpty then
    (s, [])
  else
    let s := { s with
      providerSessionId := some providerSessionId
      creatingSession := false
      selectedModel :=
        if model.isEmpty then s.selectedModel else some (s.qualifyActiveModel model) }
    match s.pendingSessionPrompt with
    | none => (s, [])
    | some prompt =>
      { s with pendingSessionPrompt := none }.startPromptOnSession prompt providerSessionId

/-- The code of a request that timed out, after which the backend's own event decides. -/
def timedOut : Int := -32001

/-- A prompt whose session or turn was refused: back into the queue if it was reserved, and else
held for a retry. -/
def returnPrompt (prompt : OutgoingPrompt) : State :=
  if s.isRedirected prompt.id then s.takeRedirectStart else s.restoreFailedPrompt prompt

def startSessionFailed (code : Int) : State × List Note :=
  if code == timedOut then
    (s, [])
  else
    match s.pendingSessionPrompt with
    | none => ({ s with creatingSession := false }, [])
    | some prompt =>
      ({ s with creatingSession := false, pendingSessionPrompt := none }.returnPrompt prompt, [])

def startTurnFailed (code : Int) : State × List Note :=
  if code == timedOut then
    (s, [])
  else
    match s.startingTurn with
    | some prompt => ({ s with startingTurn := none }.returnPrompt prompt, [])
    | none => s.drainQueue

/-- What both ways to lose a session take back. -/
def releaseUnstarted : State :=
  let restored :=
    { s with
      pendingSessionPrompt := none
      startingTurn := if s.pendingSessionPrompt.isSome then s.startingTurn else none
      activeTurn := none
      creatingSession := false
      pendingRedirect := none }.takeRedirectStart
  match s.unstarted with
  | none => restored
  | some prompt =>
    if s.isRedirected prompt.id then restored else restored.restoreFailedPrompt prompt

def handleSessionClosed (providerSessionId : String) : State :=
  if s.providerSessionId != some providerSessionId then s
  else { s with providerSessionId := none }.releaseUnstarted

def handleDisconnected : State := { s with ready := false }.releaseUnstarted

/-- The change of the session's provider could not be stored. -/
def sessionPrimaryTransitionFailed : State :=
  let failed := s.startingTurn <|> s.pendingSessionPrompt
  let s := { s with
    startingTurn := none
    pendingSessionPrompt := if s.startingTurn.isSome then s.pendingSessionPrompt else none
    creatingSession := false
    providerSessionId := none
    activeTurn := none }
  match failed with
  | none => s
  | some prompt => s.restoreFailedPrompt prompt

end State

/-! ## Steps -/

/-- What changes without regard to packages. -/
structure Surroundings where
  ready : Bool
  providerContexts : List (String × Bool)
  selectedModel : Option String
  lastModel : Option String
  transcript : List TranscriptEntry
  otherWork : Bool
  deriving DecidableEq, Repr

inductive Action where
  | submit (promptId text : String)
  | enqueue (promptId text : String)
  | remove (promptId : String)
  | steerQueued (promptId : String) (native : Bool)
  | steerAccepted (promptId : String)
  | selectModel (provider modelId : String)
  | drain
  | sessionCreated (providerSessionId model : String)
  | sessionObserved (providerSessionId : String)
  | turnStarted (turnId : String)
  | turnCompleted (turnId : String) (outcome : TurnOutcome)
  | startSessionFailed (code : Int)
  | startTurnFailed (code : Int)
  | interruptTurnFailed
  | reloadFailed
  | sessionClosed (providerSessionId : String)
  | disconnected
  | primaryTransitionFailed
  | surroundings (new : Surroundings)
  deriving DecidableEq, Repr

namespace State

variable (s : State)

def setSurroundings (new : Surroundings) : State :=
  { s with
    ready := new.ready
    providerContexts := new.providerContexts
    selectedModel := new.selectedModel
    lastModel := new.lastModel
    transcript := new.transcript
    otherWork := new.otherWork }

def step : Action → State × List Note
  | .submit promptId text => s.submitPrompt promptId text
  | .enqueue promptId text => s.enqueuePrompt promptId text
  | .remove promptId => s.removeQueuedPrompt promptId
  | .steerQueued promptId native => (s.steerQueuedPrompt promptId native, [])
  | .steerAccepted promptId => s.handleSteerAccepted promptId
  | .selectModel provider modelId => s.selectModel provider modelId
  | .drain => s.drainQueue
  | .sessionCreated providerSessionId model => s.handleSessionCreated providerSessionId model
  | .sessionObserved providerSessionId =>
    (if s.providerSessionId.isNone && !providerSessionId.isEmpty then
      { s with providerSessionId := some providerSessionId } else s, [])
  | .turnStarted turnId =>
    if turnId.isEmpty then (s, []) else (s.observeTurnStarted turnId, s.startedNotes)
  | .turnCompleted turnId outcome => s.completeTurn turnId outcome
  | .startSessionFailed code => s.startSessionFailed code
  | .startTurnFailed code => s.startTurnFailed code
  | .interruptTurnFailed => ({ s with pendingRedirect := none }, [])
  | .reloadFailed => ({ s with creatingSession := false }, [])
  | .sessionClosed providerSessionId => (s.handleSessionClosed providerSessionId, [])
  | .disconnected => (s.handleDisconnected, [])
  | .primaryTransitionFailed => (s.sessionPrimaryTransitionFailed, [])
  | .surroundings new => (s.setSurroundings new, [])

end State

open Transition

/-- A session's engine, with the notes of each step in its label. -/
def relay : System State (Action × List Note) where
  next s label s' := s.step label.1 = (s', label.2)

end Nakode.Handoff
