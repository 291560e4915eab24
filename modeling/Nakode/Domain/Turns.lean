import Nakode.Domain.Prompts

/-!
# Turns, guidance and redirection

A turn is observed to start, takes guidance from its owner, and completes. A queued prompt can be
sent into the running turn as guidance, or the turn is interrupted and the prompt is begun next.
When a turn completes, the redirected prompt or the front of the queue is begun.

Identities that the source draws at random are arguments here.
-/

namespace Nakode.Domain.DomainState

variable (s : DomainState)

/-! ## Guidance -/

def steerTurn (providerTurnId text steerId : String) :
    Except DomainCommandError (List Effect) × DomainState :=
  match s.validatePrompt text false with
  | .error e => (.error e, s)
  | .ok () =>
    if !s.backendCapabilities.steering then
      (.error (.unsupported (s.backendName ++ " does not support steering")), s)
    else if s.pendingSteer.isSome then
      (.error (.conflict "a steer request is already pending"), s)
    else
      match s.activeTurn with
      | none => (.error (.notFound providerTurnId), s)
      | some active =>
        if active.id != providerTurnId then
          (.error (.notFound providerTurnId), s)
        else if active.cancelling then
          (.error (.conflict "the active turn is being cancelled"), s)
        else
          match s.providerSessionId with
          | none => (.error (.conflict "the active provider session is unavailable"), s)
          | some providerSessionId =>
            (.ok [.backend (.steerTurn providerSessionId providerTurnId steerId text)],
              { s with
                pendingSteer :=
                  some { id := steerId, text, turnId := providerTurnId, queuedOrigin := none } })

def cancelTurn (providerTurnId : String) : Except DomainCommandError (List Effect) × DomainState :=
  if !s.backendCapabilities.interruption then
    (.error (.unsupported (s.backendName ++ " does not support interruption")), s)
  else
    match s.activeTurn with
    | none => (.error (.notFound providerTurnId), s)
    | some active =>
      if active.id != providerTurnId then
        (.error (.notFound providerTurnId), s)
      else if active.cancelling then
        (.error (.conflict "the turn is already being cancelled"), s)
      else
        match s.providerSessionId with
        | none => (.error (.conflict "the active provider session is unavailable"), s)
        | some providerSessionId =>
          (.ok [.backend (.interruptTurn providerSessionId providerTurnId)],
            { s with activeTurn := some { active with cancelling := true } })

/-- Marks a queued prompt as guidance whose delivery is uncertain, and remembers where the guidance
in flight came from. -/
def fenceQueuedGuidance (promptId : String) : DomainState :=
  { s with
    queue := s.queue.modify (s.queue.findIdx (·.id == promptId)) fun p =>
      { p with deliveryUncertain := true }
    pendingSteer := s.pendingSteer.map fun p => { p with queuedOrigin := some ⟨promptId⟩ } }

/-- Interrupts the running turn, unless that is under way, and reserves the prompt to run next. -/
def redirectQueuedPrompt (promptId turnId : String) :
    Except DomainCommandError (List Effect) × DomainState :=
  if s.activeTurn.any (·.cancelling) then
    (.ok [], { s with pendingRedirect := some ⟨promptId⟩ })
  else
    match s.cancelTurn turnId with
    | (.error e, s) => (.error e, s)
    | (.ok effects, s) => (.ok effects, { s with pendingRedirect := some ⟨promptId⟩ })

def steerQueuedPrompt (promptId steerId : String) :
    Except DomainCommandError (List Effect) × DomainState :=
  match s.queue.find? (·.id == promptId) with
  | none => (.error (.notFound promptId), s)
  | some prompt =>
    if s.pendingSteer.isSome then
      (.error (.conflict "a steer request is already pending"), s)
    else if prompt.deliveryUncertain then
      (.error (.conflict ("This queued guidance has uncertain delivery. Review and explicitly " ++
        "remove it; it cannot be resent automatically.")), s)
    else
      match s.activeTurn with
      | none => (.error (.conflict "there is no active turn to steer"), s)
      | some active =>
        if s.pendingRedirect.isSome then
          (.error (.conflict "a queued redirect is already pending"), s)
        else if s.backendCapabilities.steering && prompt.attachments.isEmpty then
          match s.steerTurn active.id prompt.text steerId with
          | (.error e, s) => (.error e, s)
          | (.ok effects, s) => (.ok effects, s.fenceQueuedGuidance promptId)
        else if !s.backendCapabilities.interruption then
          (.error (.unsupported (s.backendName ++ " cannot redirect this queued message: native " ++
            "steering accepts text only and interruption is unavailable")), s)
        else
          s.redirectQueuedPrompt promptId active.id

/-- `handle_steer_accepted`: the guidance in flight is settled. A queued prompt that was sent as
this guidance leaves the queue. -/
def handleSteerAccepted (turnId : String) : Bool × DomainState :=
  match s.pendingSteer with
  | none => (false, s)
  | some pending =>
    let s := { s with pendingSteer := none }
    if pending.turnId != turnId || !s.turnIsCurrent turnId then
      (false, s)
    else
      match pending.queuedOrigin with
      | none => (true, s)
      | some origin =>
        if s.queue.any (·.id == origin.promptId) then
          (true, { s with queue := s.queue.eraseP (·.id == origin.promptId) })
        else
          (false, s)

/-! ## The course of a turn -/

def observeTurnStarted (turnId : String) : DomainState :=
  match s.activeTurn with
  | some _ => s
  | none =>
    { s with
      turnProgress := none
      startingTurn := none
      redirectStart := if s.startingTurn.any fun started => s.isRedirected started.id then none
        else s.redirectStart
      activeTurn := some
        { id := turnId
          model := (s.startingTurn.bind (·.resolvedModel)) <|> s.selectedModel
          cancelling := false } }

def recordTerminalOwnerTurn (turn : Option ActiveTurn) (outcome : TurnOutcome) : DomainState :=
  match turn with
  | none => s
  | some turn =>
    let last : LastTurn := { id := turn.id, model := turn.model, outcome }
    { s with ownerTurns := upsert Prod.fst (last.id, last) s.ownerTurns, lastTurn := some last }

def restoreFailedPrompt (prompt : OutgoingPrompt) : DomainState :=
  { s with
    recoverablePrompt := some
      { id := prompt.id, text := prompt.text, attachments := prompt.attachments }
    replayBlockedPrompt := some
      { deliveryUncertain := false, id := prompt.id, text := prompt.text,
        attachments := prompt.attachments, sourceTransport := prompt.sourceTransport } }

def beginPendingRedirect (pending : PendingRedirect) : DomainState × List Effect :=
  match s.queue.find? (·.id == pending.promptId) with
  | none => (s, [])
  | some prompt =>
    let position := s.queue.findIdx (·.id == pending.promptId)
    { s with
      queue := s.queue.eraseP (·.id == pending.promptId)
      redirectStart := some
        { prompt
          predecessorIds := (s.queue.take position).map QueuedPrompt.id
          successorIds := (s.queue.drop (position + 1)).map QueuedPrompt.id } }.beginPrompt prompt

/-- What `complete_turn` clears when the current turn ends. -/
def retireTurn (turnId : String) (outcome : TurnOutcome) : DomainState :=
  { s with
    questions := []
    itemTurns := s.itemTurns.filter (·.2 != turnId)
    turnProgress := none
    activeTurn := none
    contextCompaction := none
    startingTurn := none
    pendingSteer := s.pendingSteer.filter fun pending => pending.turnId != turnId }
  |>.recordTerminalOwnerTurn s.activeTurn outcome

/-- What is recorded of the turn that ended. -/
def terminalEffects : List Effect :=
  match s.sessionId, s.lastTurn with
  | some sessionId, some turn => [.updateSessionLastTurn sessionId turn]
  | some sessionId, none => [.touchSession sessionId]
  | none, _ => []

/-- What runs when a turn is over: the redirected prompt, or the front of the queue. -/
def continueAfterTurn : DomainState × List Effect :=
  match s.pendingRedirect with
  | some pending => { s with pendingRedirect := none }.beginPendingRedirect pending
  | none => s.drainQueue

/-- A completion can be the first that is heard of the turn that is starting. -/
def observeCompletion (turnId : String) : DomainState :=
  if s.activeTurn.isNone && s.startingTurn.isSome then s.observeTurnStarted turnId else s

/-- The prompt whose turn failed before it was seen to start. -/
def failedBeforeStart (outcome : TurnOutcome) : Option OutgoingPrompt :=
  if outcome == .failed && s.activeTurn.isNone then s.startingTurn else none

/-- What follows the end of a turn: a prompt that never started is held for a retry, a redirected
prompt stays in the queue after a failure, and else work goes on. -/
def settleTurn (outcome : TurnOutcome) (unstarted : Option OutgoingPrompt) :
    DomainState × List Effect :=
  match unstarted with
  | some prompt => (s.restoreFailedPrompt prompt, s.terminalEffects)
  | none =>
    if outcome == .failed && s.pendingRedirect.isSome then
      ({ s with pendingRedirect := none }, s.terminalEffects)
    else
      (s.continueAfterTurn.1, s.terminalEffects ++ s.continueAfterTurn.2)

def completeTurn (turnId : String) (outcome : TurnOutcome) : DomainState × List Effect :=
  let observed := s.observeCompletion turnId
  if !observed.turnIsCurrent turnId then
    (observed, [])
  else
    (observed.retireTurn turnId outcome).settleTurn outcome (s.failedBeforeStart outcome)

/-! ## Other work -/

def runShellCommand (command shellId : String) :
    Except DomainCommandError (List Effect) × DomainState :=
  if (Text.trim command).isEmpty then
    (.error (.invalid "shell command cannot be empty"), s)
  else
    (.ok [.runShell shellId command],
      { s with activeShells := if s.activeShells.contains shellId then s.activeShells
          else s.activeShells ++ [shellId] })

/-- `shell_finished` and `shell_failed`. -/
def shellEnded (shellId : String) : DomainState :=
  { s with activeShells := s.activeShells.filter (· != shellId) }

/-- A delegated run begins to run. -/
def subagentStarted (runId : String) : DomainState :=
  { s with runningSubagents := if s.runningSubagents.contains runId then s.runningSubagents
      else s.runningSubagents ++ [runId] }

/-- `finish_subagent`. -/
def finishSubagent (runId : String) : DomainState :=
  { s with runningSubagents := s.runningSubagents.filter (· != runId) }

def compressSessionContext (providerSessionId compactionId : String) : DomainState × List Effect :=
  ({ s with
      contextCompaction := some
        { id := compactionId, turnId := compactionId, reason := .manual, estimatedTokens := 0,
          contextWindow := none } },
    [.backend (.compactSession providerSessionId compactionId)])

def compactContext (compactionId : String) : Except DomainCommandError (List Effect) × DomainState :=
  if !s.connection.isReady then
    (.error (.conflict "the selected provider is not ready"), s)
  else if s.isBusy then
    (.error (.conflict "the session is busy"), s)
  else if !s.backendCapabilities.contextCompaction then
    (.error (.unsupported (s.backendName ++ " does not support context compaction")), s)
  else
    match s.providerSessionId with
    | none => (.error (.conflict "send a prompt before compacting context"), s)
    | some providerSessionId =>
      let (s, effects) := s.compressSessionContext providerSessionId compactionId
      (.ok effects, s)

end Nakode.Domain.DomainState
