import Nakode.Domain.Runs

/-!
# What handing on prompts leaves alone

Accepting, beginning, restoring and retrying prompts changes where the prompts are and which
provider is talked to, and nothing else of an engine (`Dispatches`): not the turn in progress, not
what waits for an owner, not the work beside the turn.
-/

namespace Nakode.Domain

/-- `s'` is `s` up to the places of prompts and the provider that is talked to. -/
def Dispatches (s s' : DomainState) : Prop :=
  s' = { s with
    connection := s'.connection
    backendProvider := s'.backendProvider
    backendName := s'.backendName
    backendCapabilities := s'.backendCapabilities
    providerContexts := s'.providerContexts
    providerSessionId := s'.providerSessionId
    sessionId := s'.sessionId
    creatingSession := s'.creatingSession
    pendingSessionPrompt := s'.pendingSessionPrompt
    startingTurn := s'.startingTurn
    queue := s'.queue
    replayBlockedPrompt := s'.replayBlockedPrompt
    recoverablePrompt := s'.recoverablePrompt
    redirectStart := s'.redirectStart
    userRows := s'.userRows }

namespace Dispatches

variable {s s' s'' : DomainState}

theorem refl (s : DomainState) : Dispatches s s := rfl

theorem trans (h : Dispatches s s') (h' : Dispatches s' s'') : Dispatches s s'' :=
  Eq.trans h' (congrArg (fun x : DomainState => { x with
    connection := s''.connection
    backendProvider := s''.backendProvider
    backendName := s''.backendName
    backendCapabilities := s''.backendCapabilities
    providerContexts := s''.providerContexts
    providerSessionId := s''.providerSessionId
    sessionId := s''.sessionId
    creatingSession := s''.creatingSession
    pendingSessionPrompt := s''.pendingSessionPrompt
    startingTurn := s''.startingTurn
    queue := s''.queue
    replayBlockedPrompt := s''.replayBlockedPrompt
    recoverablePrompt := s''.recoverablePrompt
    redirectStart := s''.redirectStart
    userRows := s''.userRows }) h)

theorem after (h' : Dispatches s' s'') (h : Dispatches s s') : Dispatches s s'' := h.trans h'

theorem activeTurn (h : Dispatches s s') : s'.activeTurn = s.activeTurn :=
  (congrArg DomainState.activeTurn h).trans rfl

theorem approvals (h : Dispatches s s') : s'.approvals = s.approvals :=
  (congrArg DomainState.approvals h).trans rfl

theorem questions (h : Dispatches s s') : s'.questions = s.questions :=
  (congrArg DomainState.questions h).trans rfl

theorem externalToolCalls (h : Dispatches s s') : s'.externalToolCalls = s.externalToolCalls :=
  (congrArg DomainState.externalToolCalls h).trans rfl

theorem contextCompaction (h : Dispatches s s') : s'.contextCompaction = s.contextCompaction :=
  (congrArg DomainState.contextCompaction h).trans rfl

theorem activeShells (h : Dispatches s s') : s'.activeShells = s.activeShells :=
  (congrArg DomainState.activeShells h).trans rfl

theorem runningSubagents (h : Dispatches s s') : s'.runningSubagents = s.runningSubagents :=
  (congrArg DomainState.runningSubagents h).trans rfl

theorem resumingSession (h : Dispatches s s') : s'.resumingSession = s.resumingSession :=
  (congrArg DomainState.resumingSession h).trans rfl

theorem pendingSteer (h : Dispatches s s') : s'.pendingSteer = s.pendingSteer :=
  (congrArg DomainState.pendingSteer h).trans rfl

theorem pendingRedirect (h : Dispatches s s') : s'.pendingRedirect = s.pendingRedirect :=
  (congrArg DomainState.pendingRedirect h).trans rfl

end Dispatches

/-- `s'` is `s` up to the provider that is talked to. -/
def Switches (s s' : DomainState) : Prop :=
  s' = { s with
    connection := s'.connection
    backendProvider := s'.backendProvider
    backendName := s'.backendName
    backendCapabilities := s'.backendCapabilities
    providerContexts := s'.providerContexts
    providerSessionId := s'.providerSessionId
    sessionId := s'.sessionId }

namespace Switches

variable {s s' s'' : DomainState}

theorem refl (s : DomainState) : Switches s s := rfl

theorem trans (h : Switches s s') (h' : Switches s' s'') : Switches s s'' :=
  Eq.trans h' (congrArg (fun x : DomainState => { x with
    connection := s''.connection
    backendProvider := s''.backendProvider
    backendName := s''.backendName
    backendCapabilities := s''.backendCapabilities
    providerContexts := s''.providerContexts
    providerSessionId := s''.providerSessionId
    sessionId := s''.sessionId }) h)

theorem dispatches (h : Switches s s') : Dispatches s s' :=
  Eq.trans h (congrArg (fun x : DomainState => { s with
    connection := s'.connection
    backendProvider := s'.backendProvider
    backendName := s'.backendName
    backendCapabilities := s'.backendCapabilities
    providerContexts := s'.providerContexts
    providerSessionId := s'.providerSessionId
    sessionId := s'.sessionId
    creatingSession := x.creatingSession
    pendingSessionPrompt := x.pendingSessionPrompt
    startingTurn := x.startingTurn
    queue := x.queue
    replayBlockedPrompt := x.replayBlockedPrompt
    recoverablePrompt := x.recoverablePrompt
    redirectStart := x.redirectStart
    userRows := x.userRows }) h.symm)

theorem queue (h : Switches s s') : s'.queue = s.queue := (congrArg DomainState.queue h).trans rfl

theorem startingTurn (h : Switches s s') : s'.startingTurn = s.startingTurn :=
  (congrArg DomainState.startingTurn h).trans rfl

theorem pendingSessionPrompt (h : Switches s s') :
    s'.pendingSessionPrompt = s.pendingSessionPrompt :=
  (congrArg DomainState.pendingSessionPrompt h).trans rfl

theorem creatingSession (h : Switches s s') : s'.creatingSession = s.creatingSession :=
  (congrArg DomainState.creatingSession h).trans rfl

theorem replayBlockedPrompt (h : Switches s s') : s'.replayBlockedPrompt = s.replayBlockedPrompt :=
  (congrArg DomainState.replayBlockedPrompt h).trans rfl

theorem recoverablePrompt (h : Switches s s') : s'.recoverablePrompt = s.recoverablePrompt :=
  (congrArg DomainState.recoverablePrompt h).trans rfl

theorem redirectStart (h : Switches s s') : s'.redirectStart = s.redirectStart :=
  (congrArg DomainState.redirectStart h).trans rfl

theorem activeTurn (h : Switches s s') : s'.activeTurn = s.activeTurn :=
  (congrArg DomainState.activeTurn h).trans rfl

end Switches

namespace DomainState

variable (s : DomainState)

theorem switches_syncActiveProviderContext : Switches s s.syncActiveProviderContext := rfl

theorem switches_activateProvider (provider : String) :
    Switches s (s.activateProvider provider).2 := by
  unfold activateProvider
  split
  · rfl
  · split
    · rfl
    · dsimp only
      split <;> rfl

theorem switches_prepareSelectedProviderTransition :
    Switches s s.prepareSelectedProviderTransition.2 := by
  unfold prepareSelectedProviderTransition
  split
  · rfl
  next target _ =>
    split
    · rfl
    · have hactivate := s.switches_activateProvider target
      split
      next s' heq => rw [heq] at hactivate; exact hactivate
      next s' heq => rw [heq] at hactivate; exact hactivate.trans rfl

theorem dispatches_restoreRedirectStart (pending : RedirectStart) :
    Dispatches s (s.restoreRedirectStart pending) := by
  unfold restoreRedirectStart
  split <;> rfl

theorem dispatches_takeRedirectStart : Dispatches s s.takeRedirectStart := by
  unfold takeRedirectStart
  split
  · rfl
  next pending _ => exact .after (dispatches_restoreRedirectStart _ pending) rfl

theorem dispatches_putBack (prompt : QueuedPrompt) : Dispatches s (s.putBack prompt) := by
  unfold putBack
  split
  · exact s.dispatches_takeRedirectStart
  · rfl

theorem dispatches_dispatchPrompt (prompt : OutgoingPrompt) :
    Dispatches s (s.dispatchPrompt prompt).1 := by
  unfold dispatchPrompt
  dsimp only
  split <;> rfl

theorem dispatches_beginPrompt (prompt : QueuedPrompt) :
    Dispatches s (s.beginPrompt prompt).1 := by
  have hprepare := s.switches_prepareSelectedProviderTransition.dispatches
  unfold beginPrompt
  split
  next s' heq =>
    rw [heq] at hprepare
    exact hprepare.trans (s'.dispatches_putBack prompt)
  next s' heq =>
    rw [heq] at hprepare
    exact hprepare.trans (s'.dispatches_dispatchPrompt _)

theorem dispatches_drainQueue : Dispatches s s.drainQueue.1 := by
  unfold drainQueue
  split
  · rfl
  · split
    · rfl
    next prompt queue _ =>
      split
      · rfl
      · exact .after (dispatches_beginPrompt { s with queue } prompt) rfl

theorem dispatches_submitPromptWithIdentityPolicy (promptId text : String)
    (attachments : List PromptAttachment) (sourceTransport : Option String) (suppress : Bool) :
    Dispatches s
      (s.submitPromptWithIdentityPolicy promptId text attachments sourceTransport suppress).2 := by
  unfold submitPromptWithIdentityPolicy
  split <;> try rfl
  dsimp only
  split
  · rfl
  · split <;> try rfl
    split
    · rfl
    · exact .after (dispatches_beginPrompt _ _) rfl

theorem dispatches_enqueuePromptWithId (promptId text : String)
    (attachments : List PromptAttachment) :
    Dispatches s (s.enqueuePromptWithId promptId text attachments).2 := by
  have hsubmit := s.dispatches_submitPromptWithIdentityPolicy promptId text attachments none true
  unfold enqueuePromptWithId
  split <;> try rfl
  split
  · split
    · rfl
    · exact hsubmit
  · split <;> try rfl
    split
    · exact hsubmit
    · rfl

theorem dispatches_removeQueuedPrompt (promptId : String) :
    Dispatches s (s.removeQueuedPrompt promptId).2 := by
  unfold removeQueuedPrompt
  split
  · rfl
  · split
    · exact .after (dispatches_drainQueue _) rfl
    · rfl

theorem dispatches_beginPendingRedirect (pending : PendingRedirect) :
    Dispatches s (s.beginPendingRedirect pending).1 := by
  unfold beginPendingRedirect
  split
  · rfl
  · exact .after (dispatches_beginPrompt _ _) rfl

theorem dispatches_restoreFailedPrompt (prompt : OutgoingPrompt) :
    Dispatches s (s.restoreFailedPrompt prompt) := rfl

theorem dispatches_returnPrompt (prompt : OutgoingPrompt) :
    Dispatches s (s.returnPrompt prompt) := by
  unfold returnPrompt
  split
  · exact s.dispatches_takeRedirectStart
  · rfl

theorem dispatches_releaseUnstarted :
    Dispatches { s with
      activeTurn := none, contextCompaction := none, pendingSteer := none, pendingRedirect := none }
      s.releaseUnstarted := by
  unfold releaseUnstarted
  dsimp only
  split
  · exact .after (dispatches_takeRedirectStart _) rfl
  · split
    · exact .after (dispatches_takeRedirectStart _) rfl
    · exact .after (.after (dispatches_restoreFailedPrompt _ _) (dispatches_takeRedirectStart _)) rfl

theorem dispatches_continueAfterTurn :
    Dispatches { s with pendingRedirect := none } s.continueAfterTurn.1 := by
  unfold continueAfterTurn
  split
  next pending _ => exact dispatches_beginPendingRedirect _ pending
  next hnone =>
    have hsame : { s with pendingRedirect := none } = s := by rw [← hnone]
    rw [hsame]
    exact s.dispatches_drainQueue

theorem dispatches_continueAfterReplay (failed : Bool) :
    Dispatches { s with deferResumeQueue := false } (s.continueAfterReplay failed).1 := by
  unfold continueAfterReplay
  split
  · rfl
  · exact dispatches_drainQueue _

theorem dispatches_replayPending (pending : List PersistedOwnerPrompt) :
    Dispatches s (replayPending pending s).2.1 := by
  induction pending generalizing s with
  | nil => rfl
  | cons prompt rest ih =>
    have hreplay := s.dispatches_submitPromptWithIdentityPolicy (replayPrompt prompt).id
      (replayPrompt prompt).text (replayPrompt prompt).attachments
      (replayPrompt prompt).sourceTransport false
    rw [replayPending]
    dsimp only [replayPendingPromptWithIdAndSource]
    split
    next effects s' heq => rw [heq] at hreplay; exact hreplay.trans (ih s')
    next e s' heq =>
      rw [heq] at hreplay
      exact hreplay.trans (.after (ih _) rfl)

end DomainState

end Nakode.Domain
