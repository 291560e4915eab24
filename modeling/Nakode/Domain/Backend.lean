import Nakode.Domain.Turns

/-!
# Backend events

`handleBackend` reduces one event of the active provider, `handleProviderBackend` one event of any
provider. `beginResume` turns to a persisted session; the provider's answer restores what the
session has queued and what is still to be replayed.

Events that change what is displayed and nothing else are one constructor here.
-/

namespace Nakode.Domain

inductive BackendOperation
  | initializeBackend
  | authenticate
  | modelList
  | reload
  | setSessionModel
  | setSessionCodeMode
  | startSession
  | resumeSession
  | unsubscribeSession
  | compactSession
  | startTurn
  | steerTurn
  | interruptTurn
  deriving DecidableEq, Repr

structure BackendIdentity where
  provider : String
  displayName : String
  capabilities : BackendCapabilities
  deriving DecidableEq, Repr

inductive BackendEvent
  | ready (identity : BackendIdentity)
  | sessionCreated (providerSessionId model : String)
  /-- The history is what becomes of it in the transcript: the rows of owner prompts. -/
  | sessionResumed (providerSessionId model : String) (history : List UserRow)
  | sessionObserved (providerSessionId : String)
  | turnAccepted (turnId : String)
  | turnStarted (turnId : String)
  | turnCompleted (turnId : String) (outcome : TurnOutcome)
  | itemStarted (turnId itemId : String) (ofUser : Bool)
  | itemCompleted (turnId itemId : String) (ofUser : Bool)
  | itemDelta (turnId itemId : String)
  | turnDiff (turnId diff : String)
  | turnPlan (turnId plan : String)
  | turnProgress (turnId message : String) (waiting : Bool)
  | approvalRequested (approval : ApprovalRequest)
  | approvalResolved (requestId : String)
  | questionRequested (request : QuestionRequest)
  | externalToolRequested (request : ExternalToolRequest)
  | steerAccepted (turnId : String)
  | interruptAccepted
  | modelRerouted (turnId «from» «to» : String)
  | contextCompactionStarted (compactionId turnId : String) (reason : CompactionReason)
      (estimatedTokens : Nat) (contextWindow : Option Nat)
  | contextCompactionCompleted (compactionId turnId : String)
  | contextCompactionFailed (compactionId turnId message : String)
  | requestFailed (operation : BackendOperation) (code : Int) (message : String)
  | sessionClosed (providerSessionId : String)
  | disconnected (reason : String)
  /-- Usage, warnings, errors of a turn and other news that is only displayed. -/
  | notice (message : String)
  deriving DecidableEq, Repr

namespace DomainState

variable (s : DomainState)

/-! ## Sessions -/

def handleReady (identity : BackendIdentity) : DomainState :=
  { s with
    backendProvider := identity.provider
    backendName := identity.displayName
    backendCapabilities := identity.capabilities
    connection := .ready identity.displayName }

def observeSession (providerSessionId : String) : DomainState :=
  if s.providerSessionId.isNone && !providerSessionId.isEmpty then
    { s with providerSessionId := some providerSessionId }
  else
    s

/-- The options of the selected model, for a session that is about to run it. -/
def sessionOptions (providerSessionId : String) : List Effect :=
  if s.selectedModelSupportsOptions then [.backend (.setSessionOptions providerSessionId)] else []

def handleSessionCreated (providerSessionId model : String) : DomainState × List Effect :=
  if providerSessionId.isEmpty then
    (s, [])
  else
    let s := { s with
      providerSessionId := some providerSessionId
      contextCompaction := none
      creatingSession := false
      selectedModel := if model.isEmpty then s.selectedModel else some (s.qualifyActiveModel model) }
    match s.pendingSessionPrompt with
    | none => (s, [])
    | some prompt =>
      let prompt := { prompt with resolvedModel := s.selectedModel }
      let persistence := match s.sessionId with
        | none => .persistSession s.backendProvider providerSessionId prompt.text s.selectedModel
        | some sessionId =>
          .transitionSessionPrimary sessionId s.backendProvider providerSessionId s.selectedModel
      let (s', effects) :=
        { s with pendingSessionPrompt := none }.startPromptOnSession prompt providerSessionId
      (s', persistence :: .persistAcceptedOwnerPrompt s.nakodeSessionId (acceptedOwnerPrompt prompt) ::
        s.sessionOptions providerSessionId ++ effects)

/-- One prompt that a resumed session has still to replay. -/
def replayPrompt (pending : PersistedOwnerPrompt) : QueuedPrompt :=
  { deliveryUncertain := false, id := pending.promptId, text := pending.rawText, attachments := [],
    sourceTransport := pending.sourceTransport }

/-- The replay of the prompts that are still pending: what is left, whether one of them failed, and
the effects. -/
def replayPending : List PersistedOwnerPrompt → DomainState → Bool × DomainState × List Effect
  | [], s => (false, s, [])
  | pending :: rest, s =>
    let prompt := replayPrompt pending
    match s.replayPendingPromptWithIdAndSource prompt.id prompt.text prompt.attachments
        prompt.sourceTransport with
    | (.ok effects, s) =>
      let (failed, s, more) := replayPending rest s
      (failed, s, effects ++ more)
    | (.error _, s) =>
      let (_, s, more) := replayPending rest { s with replayBlockedPrompt := some prompt }
      (true, s, more)

/-- What a record restores, apart from its queue. -/
def restoreRecord (record : SessionRecord) : DomainState :=
  { s with
    lastTurn := record.lastTurn
    ownerTurns := record.ownerTurns.foldl (fun turns turn => upsert Prod.fst (turn.id, turn) turns) []
    ownerPrompts := record.ownerPrompts }

/-- The state in which the pending prompts of a resumed session are replayed. -/
def resumedState (record : SessionRecord) (providerSessionId model : String)
    (history : List UserRow) : DomainState :=
  { s with
    resumingSession := none
    providerSessionId := some providerSessionId
    nakodeSessionId := record.id
    sessionId := some record.id
    contextCompaction := none
    selectedModel := match record.model with
      | some selected => some (s.qualifyActiveModel selected)
      | none => if model.isEmpty then s.selectedModel else some (s.qualifyActiveModel model)
    activeShells := []
    runningSubagents := []
    itemTurns := []
    userRows := history }.restoreRecord record

/-- The queue follows the replay, unless a replay failed or other work comes first. -/
def continueAfterReplay (failed : Bool) : DomainState × List Effect :=
  if failed || s.deferResumeQueue then ({ s with deferResumeQueue := false }, [])
  else { s with deferResumeQueue := false }.drainQueue

def handleSessionResumed (providerSessionId model : String) (history : List UserRow) :
    DomainState × List Effect :=
  match s.resumingSession with
  | none => (s, [])
  | some record =>
    if providerSessionId.isEmpty then
      ({ s with resumingSession := none }, [])
    else
      let s := s.resumedState record providerSessionId model history
      let options := if s.selectedModelForActiveProvider.isSome then
        s.sessionOptions providerSessionId else []
      let (failed, s, replayed) := replayPending (s.ownerPrompts.filter (·.dispatchPending)) s
      let (s, drained) := s.continueAfterReplay failed
      (s, .touchSession record.id :: .loadSubagents record.id :: options ++ replayed ++ drained)

/-- The prompt that a session whose creation is still pending is created with. -/
def creationPrompt (record : SessionRecord) : Option PersistedOwnerPrompt :=
  record.ownerPrompts.find? (·.dispatchPending) <|> record.ownerPrompts.head?

/-- What a session that is turned to takes over of its record. -/
def adoptRecord (record : SessionRecord) : DomainState :=
  { s with selectedModel := record.model, queue := record.queuedPrompts,
           nakodeSessionId := record.id }.restoreRecord record

def beginResume (record : SessionRecord) : DomainState × List Effect :=
  if s.isBusy then
    (s, [])
  else
    match s.activateProvider record.provider with
    | (false, s) => (s, [])
    | (true, s) =>
      let pendingCreation := isPendingProviderSessionId record.providerSessionId
      if !pendingCreation && !s.backendCapabilities.resume then
        (s, [])
      else if s.toolBoundary.isSome then
        (s, [])
      else
        let old := (s.providerSessionId.filter (· != record.providerSessionId)).toList.map
          fun current => Effect.backend (.unsubscribeSession current)
        let s := s.adoptRecord record
        if pendingCreation then
          let s := { s with
            sessionId := some record.id
            providerSessionId := none
            resumingSession := none
            creationTitle :=
              if (Text.trim record.title).isEmpty then none else some (Text.trim record.title) }
          match creationPrompt record with
          | none => (s, old)
          | some prompt =>
            let (s, effects) := s.beginPrompt (replayPrompt prompt)
            (s, old ++ effects)
        else
          ({ s with resumingSession := some record },
            old ++ [.backend (.resumeSession record.providerSessionId (some record.id))])

/-! ## Compaction -/

def contextCompactionStarted (compactionId turnId : String) (reason : CompactionReason)
    (estimatedTokens : Nat) (contextWindow : Option Nat) : DomainState :=
  let expectedManual := reason == .manual &&
    s.contextCompaction.any fun c => c.id == compactionId && c.turnId == turnId
  if !s.turnIsCurrent turnId && !expectedManual then
    s
  else
    { s with
      contextCompaction :=
        some { id := compactionId, turnId, reason, estimatedTokens, contextWindow } }

/-- `context_compaction_completed` and `context_compaction_failed`. -/
def contextCompactionEnded (compactionId turnId : String) : DomainState :=
  if s.contextCompaction.any fun c => c.turnId == turnId && c.id == compactionId then
    { s with contextCompaction := none }
  else
    s

/-! ## Losing the session or the backend -/

/-- The prompt that is waiting for its session or its turn. -/
def unstartedPrompt : Option OutgoingPrompt := s.pendingSessionPrompt <|> s.startingTurn

/-- What both ways to lose a session take back. A redirected prompt returns to the queue, another
one that had not started can be retried. -/
def releaseUnstarted : DomainState :=
  let restored :=
    { s with
      pendingSessionPrompt := none
      startingTurn := if s.pendingSessionPrompt.isSome then s.startingTurn else none
      activeTurn := none
      contextCompaction := none
      creatingSession := false
      pendingSteer := none
      pendingRedirect := none }.takeRedirectStart
  match s.unstartedPrompt with
  | none => restored
  | some prompt => if s.isRedirected prompt.id then restored else restored.restoreFailedPrompt prompt

def handleSessionClosed (providerSessionId : String) : DomainState :=
  if s.providerSessionId != some providerSessionId then
    s
  else
    { s with questions := [], approvals := [], providerSessionId := none }.releaseUnstarted
    |>.syncActiveProviderContext

def handleDisconnected (reason : String) : DomainState :=
  { s with
    questions := []
    externalToolCalls := []
    connection := .disconnected reason
    runningSubagents := [] }.releaseUnstarted

/-! ## Failed requests -/

/-- The code of a request that timed out, after which the backend's own event decides. -/
def timedOut : Int := -32001

/-- A prompt whose session or turn was refused: back into the queue if it was redirected, and else
held for a retry. -/
def returnPrompt (prompt : OutgoingPrompt) : DomainState :=
  if s.isRedirected prompt.id then s.takeRedirectStart else s.restoreFailedPrompt prompt

def requestFailed (operation : BackendOperation) (code : Int) (message : String) :
    DomainState × List Effect :=
  match operation with
  | .initializeBackend => ({ s with connection := .failed message }, [])
  | .compactSession => ({ s with contextCompaction := none }, [])
  | .reload => ({ s with creatingSession := false }, [])
  | .resumeSession => ({ s with resumingSession := none }, [])
  | .startSession =>
    if code == timedOut then
      (s, [])
    else
      let s' := { s with creatingSession := false, pendingSessionPrompt := none }
      match s.pendingSessionPrompt with
      | none => (s', [])
      | some prompt => (s'.returnPrompt prompt, [])
  | .startTurn =>
    if code == timedOut then
      (s, [])
    else
      match s.startingTurn with
      | some prompt => ({ s with startingTurn := none }.returnPrompt prompt, [])
      | none => s.drainQueue
  | .steerTurn => ({ s with pendingSteer := none }, [])
  | .interruptTurn =>
    ({ s with
      activeTurn := s.activeTurn.map fun active => { active with cancelling := false }
      pendingRedirect := none }, [])
  | _ => (s, [])

/-! ## The reducer -/

def observeItem (turnId itemId : String) (ofUser : Bool) : DomainState :=
  if ofUser || !s.turnIsCurrent turnId then s
  else { s with itemTurns := upsert Prod.fst (itemId, turnId) s.itemTurns }

def handleTurnProgress (turnId message : String) (waiting : Bool) : DomainState :=
  if s.activeTurn.any fun turn => turn.id == turnId && !turn.cancelling then
    { s with turnProgress := if waiting then some (turnId, message) else none }
  else
    s

def handleModelRerouted (turnId «to» : String) : DomainState :=
  match s.activeTurn with
  | some active =>
    if active.id == turnId then { s with activeTurn := some { active with model := some «to» } } else s
  | none => s

/-- The owner prompt whose replay fence a started turn lifts. -/
def acknowledgedPrompt : Option String :=
  (s.startingTurn.filter (·.sourceTransport.isNone)).map (·.id)

def handleTurnStarted (turnId : String) : DomainState × List Effect :=
  if turnId.isEmpty then
    (s, [])
  else
    (s.observeTurnStarted turnId, s.acknowledgedPrompt.toList.map fun promptId =>
      .acknowledgeOwnerPromptDispatch s.nakodeSessionId promptId)

def handleBackend : BackendEvent → DomainState × List Effect
  | .ready identity => (s.handleReady identity, [])
  | .sessionCreated providerSessionId model => s.handleSessionCreated providerSessionId model
  | .sessionResumed providerSessionId model history =>
    s.handleSessionResumed providerSessionId model history
  | .sessionObserved providerSessionId => (s.observeSession providerSessionId, [])
  | .turnAccepted _ => (s, [])
  | .turnStarted turnId => s.handleTurnStarted turnId
  | .turnCompleted turnId outcome => { s with externalToolCalls := [] }.completeTurn turnId outcome
  | .itemStarted turnId itemId ofUser => (s.observeItem turnId itemId ofUser, [])
  | .itemCompleted turnId itemId ofUser => (s.observeItem turnId itemId ofUser, [])
  | .itemDelta turnId itemId => (s.observeItem turnId itemId false, [])
  | .turnDiff _ _ => (s, [])
  | .turnPlan _ _ => (s, [])
  | .turnProgress turnId message waiting => (s.handleTurnProgress turnId message waiting, [])
  | .approvalRequested approval => ({ s with approvals := s.approvals ++ [approval] }, [])
  | .approvalResolved requestId =>
    ({ s with approvals := s.approvals.eraseP (·.id == requestId) }, [])
  | .questionRequested request => ({ s with questions := s.questions ++ [request] }, [])
  | .externalToolRequested request =>
    ({ s with externalToolCalls := s.externalToolCalls ++ [request] }, [])
  | .steerAccepted turnId =>
    match s.handleSteerAccepted turnId with
    | (true, s) => (s, s.sessionId.toList.map .recordOwnerActivity)
    | (false, s) => (s, [])
  | .interruptAccepted => (s, [])
  | .modelRerouted turnId _ «to» => (s.handleModelRerouted turnId «to», [])
  | .contextCompactionStarted compactionId turnId reason estimatedTokens contextWindow =>
    (s.contextCompactionStarted compactionId turnId reason estimatedTokens contextWindow, [])
  | .contextCompactionCompleted compactionId turnId =>
    (s.contextCompactionEnded compactionId turnId, [])
  | .contextCompactionFailed compactionId turnId _ =>
    (s.contextCompactionEnded compactionId turnId, [])
  | .requestFailed operation code message => s.requestFailed operation code message
  | .sessionClosed providerSessionId => (s.handleSessionClosed providerSessionId, [])
  | .disconnected reason => (s.handleDisconnected reason, [])
  | .notice _ => (s, [])

/-! ## Events of any provider -/

/-- Changes what is known of a provider that is not the active one, if it is known at all. -/
def updateContext (provider : String) (f : ProviderContext → ProviderContext) : DomainState :=
  { s with
    providerContexts := s.providerContexts.map fun entry =>
      if entry.1 == provider then (entry.1, f entry.2) else entry }

/-- What an event tells about its provider, before the active one's reducer sees it. -/
def observeProvider (provider : String) : BackendEvent → DomainState
  | .ready identity =>
    let context : ProviderContext :=
      ((s.providerContexts.find? (·.1 == provider)).map (·.2)).getD
        { name := "", capabilities := identity.capabilities, connection := .starting,
          providerSessionId := none, sessionId := none }
    let s := { s with
      providerContexts := upsert Prod.fst (provider,
        { context with
          name := identity.displayName
          capabilities := identity.capabilities
          connection := .ready identity.displayName }) s.providerContexts }
    if s.backendProvider.isEmpty then
      { s with
        backendProvider := provider
        backendName := identity.displayName
        backendCapabilities := identity.capabilities
        connection := .ready identity.displayName }
    else
      s
  | .requestFailed .reload _ _ =>
    let connection := .failed "provider refresh failed; check authentication and retry"
    let s := s.updateContext provider fun context => { context with connection }
    if provider == s.backendProvider then { s with connection } else s
  | .sessionCreated providerSessionId _ | .sessionResumed providerSessionId _ _
  | .sessionObserved providerSessionId =>
    if provider == s.backendProvider then s
    else s.updateContext provider fun context =>
      { context with providerSessionId := some providerSessionId }
  | _ => s

def handleProviderBackend (provider : String) (event : BackendEvent) : DomainState × List Effect :=
  match event with
  | .requestFailed .authenticate _ _ => (s, [])
  | event =>
    let s := s.observeProvider provider event
    if provider != s.backendProvider then
      (s, [])
    else
      let (s, effects) := s.handleBackend event
      (s.syncActiveProviderContext, effects)

end DomainState

end Nakode.Domain
