import Nakode.Domain.State

/-!
# Accepting and beginning prompts

A prompt is either begun at once (`submitPrompt`) or put in the queue (`enqueuePrompt`); the queue
is drained when the session is idle (`drainQueue`). Beginning a prompt hands it to the provider
session, creates that session first, or puts the prompt back when the selected model's provider is
not available (`beginPrompt`).

A command gives its effects or its error, and the state it leaves behind.
-/

namespace Nakode.Domain.DomainState

variable (s : DomainState)

/-! ## Changing the provider -/

def syncActiveProviderContext : DomainState :=
  { s with
    providerContexts := upsert Prod.fst (s.backendProvider,
      { name := s.backendName, capabilities := s.backendCapabilities, connection := s.connection,
        providerSessionId := s.providerSessionId, sessionId := s.sessionId }) s.providerContexts }

def activateProvider (provider : String) : Bool × DomainState :=
  if provider == s.backendProvider then
    (true, s)
  else if s.isBusy then
    (false, s)
  else
    let s := s.syncActiveProviderContext
    match s.providerContexts.find? (·.1 == provider) with
    | none => (false, s)
    | some (_, context) =>
      (true, { s with
        backendProvider := provider
        backendName := context.name
        backendCapabilities := context.capabilities
        connection := context.connection
        providerSessionId := context.providerSessionId
        sessionId := context.sessionId })

/-- The provider of the selected model, which its name starts with. -/
def targetProvider : Option String :=
  s.selectedModel.bind fun model =>
    if model.toList.contains '/' then
      some (String.ofList (model.toList.takeWhile (· != '/')))
    else
      none

def prepareSelectedProviderTransition : Bool × DomainState :=
  match s.targetProvider with
  | none => (true, s)
  | some target =>
    if target == s.backendProvider then
      (true, s)
    else
      match s.activateProvider target with
      | (false, s') => (false, s')
      | (true, s') =>
        (true, { s' with providerSessionId := none, sessionId := s.sessionId }
          |>.syncActiveProviderContext)

/-! ## Beginning a prompt -/

/-- Where a redirected prompt goes back to: in front of the first of its successors that is still
queued, or else behind the last of its predecessors. -/
def redirectIndex (pending : RedirectStart) (queue : List QueuedPrompt) : Nat :=
  let position (id : String) := queue.findIdx? (·.id == id)
  (pending.successorIds.findSome? position).getD
    ((pending.predecessorIds.reverse.findSome? fun id => (position id).map (· + 1)).getD 0)

def restoreRedirectStart (pending : RedirectStart) : DomainState :=
  if s.queue.any (·.id == pending.prompt.id) then
    s
  else
    { s with queue := s.queue.insertIdx (redirectIndex pending s.queue) pending.prompt }

/-- Whether a prompt is the one that was taken from the queue to be begun next. -/
def isRedirected (promptId : String) : Bool := s.redirectStart.any (·.prompt.id == promptId)

/-- Takes the reservation of a redirected prompt and puts the prompt back in the queue. -/
def takeRedirectStart : DomainState :=
  match s.redirectStart with
  | none => s
  | some pending => { s with redirectStart := none }.restoreRedirectStart pending

def localFiles (attachments : List PromptAttachment) : List (String × String) :=
  attachments.filterMap fun a => a.path.map fun path => (a.label, path)

def labeledImages (attachments : List PromptAttachment) : List (String × String) :=
  attachments.filterMap fun a => a.image.map fun image => (a.label, image)

def recordOutgoingUserPrompt (prompt : OutgoingPrompt) : DomainState :=
  { s with
    userRows := upsert UserRow.promptId
      { promptId := prompt.id, body := prompt.text, localFiles := localFiles prompt.attachments,
        images := labeledImages prompt.attachments } s.userRows }

def startPromptOnSession (prompt : OutgoingPrompt) (providerSessionId : String) :
    DomainState × List Effect :=
  ({ s with startingTurn := some prompt },
    [.backend (.startTurn providerSessionId prompt.id prompt.text prompt.attachments
      prompt.model)])

/-- The durable row of a prompt that is handed to a provider. A prompt that a transport brought has
a pending state of its own there. -/
def acceptedOwnerPrompt (prompt : OutgoingPrompt) : PersistedOwnerPrompt :=
  { promptId := prompt.id, rawText := prompt.text, sourceTransport := prompt.sourceTransport,
    dispatchPending := prompt.sourceTransport.isNone }

def outgoing (prompt : QueuedPrompt) : OutgoingPrompt :=
  { id := prompt.id
    text := prompt.text
    model := if s.backendCapabilities.modelCatalog then s.selectedModelForActiveProvider else none
    resolvedModel := s.selectedModel
    attachments := prompt.attachments
    sourceTransport := prompt.sourceTransport }

/-- `begin_prompt` once the selected provider is the active one. -/
def dispatchPrompt (prompt : OutgoingPrompt) : DomainState × List Effect :=
  let s := s.recordOutgoingUserPrompt prompt
  match s.providerSessionId with
  | some providerSessionId =>
    let persist := if s.sessionId.isNone then
      [.persistSession s.backendProvider providerSessionId prompt.text s.selectedModel] else []
    let activity := s.sessionId.toList.map .recordOwnerActivity
    let accepted := .persistAcceptedOwnerPrompt (s.sessionId.getD s.nakodeSessionId)
      (acceptedOwnerPrompt prompt)
    let (s, effects) := s.startPromptOnSession prompt providerSessionId
    (s, persist ++ activity ++ accepted :: effects)
  | none =>
    ({ s with creatingSession := true, pendingSessionPrompt := some prompt },
      [.persistSession s.backendProvider (pendingProviderSessionId s.nakodeSessionId)
        (s.creationTitle.getD prompt.text) s.selectedModel,
      .persistAcceptedOwnerPrompt s.nakodeSessionId (acceptedOwnerPrompt prompt),
      .backend (.startSession prompt.model (some s.nakodeSessionId))])

/-- Puts a prompt back that could not be begun. -/
def putBack (prompt : QueuedPrompt) : DomainState :=
  if s.isRedirected prompt.id then s.takeRedirectStart
  else { s with queue := prompt :: s.queue }

def beginPrompt (prompt : QueuedPrompt) : DomainState × List Effect :=
  match s.prepareSelectedProviderTransition with
  | (false, s) => (s.putBack prompt, [])
  | (true, s) => s.dispatchPrompt (s.outgoing prompt)

def drainQueue : DomainState × List Effect :=
  if !s.connection.isReady || s.isBusy then
    (s, [])
  else
    match s.queue with
    | [] => (s, [])
    | prompt :: queue =>
      if prompt.deliveryUncertain then (s, []) else { s with queue }.beginPrompt prompt

/-! ## Identities -/

/-- Whether a prompt with this identity is known, and then whether its contents are these. -/
def promptIdentityMatches (promptId text : String) (attachments : List PromptAttachment) :
    Option Bool :=
  match s.recoverablePrompt.filter (·.id == promptId) with
  | some prompt => if prompt.text == text && prompt.attachments == attachments then none
      else some false
  | none =>
    match s.queue.find? (·.id == promptId) with
    | some prompt => some (prompt.text == text && prompt.attachments == attachments)
    | none =>
      match s.startingTurn.filter (·.id == promptId) <|>
          s.pendingSessionPrompt.filter (·.id == promptId) with
      | some prompt => some (prompt.text == text && prompt.attachments == attachments)
      | none =>
        (s.userRows.find? (·.promptId == promptId)).map fun row =>
          row.body == text && row.localFiles == localFiles attachments &&
            row.images == labeledImages attachments

/-! ## Commands -/

def reusedReplay : DomainCommandError :=
  .conflict "the pending replay identity was reused for different prompt content or provenance"

def reusedOperation : DomainCommandError :=
  .conflict "the prompt operation id was already used for different prompt content"

/-- The prompt whose replay is blocked, when it has this identity. -/
def blockedReplay (promptId : String) : Option QueuedPrompt :=
  s.replayBlockedPrompt.filter (·.id == promptId)

/-- What stands against handing a prompt to the provider now. -/
def refusal (retrying : Bool) : Option DomainCommandError :=
  if s.queue.any (·.deliveryUncertain) then
    some (.conflict ("Queued guidance may already have reached the provider. Review and " ++
      "explicitly remove that queued message before continuing."))
  else if !s.connection.isReady then
    some (.conflict "the selected provider is not ready")
  else if s.hasActiveWork || (s.replayBlockedPrompt.isSome && !retrying) then
    some (.conflict "the session is busy; enqueue the prompt instead")
  else
    s.toolBoundary.map fun boundary => .invalid (s.backendName ++ " does not support " ++ boundary ++
      "; select a native Nakode provider before sending this prompt")

def submitPromptWithIdentityPolicy (promptId text : String) (attachments : List PromptAttachment)
    (sourceTransport : Option String) (suppressSettledIdentity : Bool) :
    Except DomainCommandError (List Effect) × DomainState :=
  match validatePromptOperationId promptId, s.validatePrompt text (!attachments.isEmpty) with
  | .error e, _ => (.error e, s)
  | .ok (), .error e => (.error e, s)
  | .ok (), .ok () =>
    let blocked := s.blockedReplay promptId
    if blocked.any fun b => b.text != text || b.attachments != attachments ||
        b.sourceTransport != sourceTransport then
      (.error reusedReplay, s)
    else
      let retrying := blocked.isSome
      match if suppressSettledIdentity && !retrying then
          s.promptIdentityMatches promptId text attachments else none with
      | some true => (.ok [], s)
      | some false => (.error reusedOperation, s)
      | none =>
        match s.refusal retrying with
        | some e => (.error e, s)
        | none =>
          let replayBlockedPrompt := if retrying then none else s.replayBlockedPrompt
          let (s, effects) :=
            { s with replayBlockedPrompt, recoverablePrompt := none }.beginPrompt
              { deliveryUncertain := false, id := promptId, text, attachments, sourceTransport }
          (.ok effects, s)

def submitPromptWithIdAndSource (promptId text : String) (attachments : List PromptAttachment)
    (sourceTransport : Option String) : Except DomainCommandError (List Effect) × DomainState :=
  s.submitPromptWithIdentityPolicy promptId text attachments sourceTransport true

def submitPromptWithId (promptId text : String) (attachments : List PromptAttachment) :
    Except DomainCommandError (List Effect) × DomainState :=
  s.submitPromptWithIdAndSource promptId text attachments none

/-- Replays a durable prompt after a restart, when its transcript row is already there. -/
def replayPendingPromptWithIdAndSource (promptId text : String)
    (attachments : List PromptAttachment) (sourceTransport : Option String) :
    Except DomainCommandError (List Effect) × DomainState :=
  s.submitPromptWithIdentityPolicy promptId text attachments sourceTransport false

def enqueuePromptWithId (promptId text : String) (attachments : List PromptAttachment) :
    Except DomainCommandError (List Effect) × DomainState :=
  match validatePromptOperationId promptId, s.validatePrompt text (!attachments.isEmpty) with
  | .error e, _ => (.error e, s)
  | .ok (), .error e => (.error e, s)
  | .ok (), .ok () =>
    match s.blockedReplay promptId with
    | some b =>
      if b.text != text || b.attachments != attachments || b.sourceTransport.isSome then
        (.error reusedReplay, s)
      else
        s.submitPromptWithId promptId text attachments
    | none =>
      match s.promptIdentityMatches promptId text attachments with
      | some true => (.ok [], s)
      | some false => (.error reusedOperation, s)
      | none =>
        if !s.isBusy then
          s.submitPromptWithId promptId text attachments
        else
          (.ok (s.sessionId.toList.map .recordOwnerActivity),
            { s with
              recoverablePrompt := none
              queue := s.queue ++ [{ deliveryUncertain := false, id := promptId, text, attachments,
                                     sourceTransport := none }] })

/-- Whether a queued prompt is being redirected or sent as guidance. -/
def isRedirecting (promptId : String) : Bool :=
  s.isRedirected promptId || s.pendingRedirect.any (·.promptId == promptId) ||
    s.pendingSteer.any fun pending => pending.queuedOrigin.any (·.promptId == promptId)

def removeQueuedPrompt (promptId : String) : Except DomainCommandError (List Effect) × DomainState :=
  if s.isRedirecting promptId then
    (.error (.conflict "the queued message is already being redirected"), s)
  else if s.queue.any (·.id == promptId) then
    let (s, effects) := { s with queue := s.queue.eraseP (·.id == promptId) }.drainQueue
    (.ok effects, s)
  else
    (.ok [], s)

end Nakode.Domain.DomainState
