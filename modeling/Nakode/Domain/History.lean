import Nakode.Domain.Cases

/-!
# Where prompts are, and what becomes of them

A prompt that was accepted waits in one of the places of the engine (`held`) until it is begun,
taken as guidance or removed. `History` records these events along a run, and which prompts were
sent to a provider; each entry is read off the state, the action and its effects.
-/

namespace Nakode.Domain

open Transition

/-- The identity of the prompt that a command brings. -/
def Action.brings : Action → Option String
  | .submit promptId _ _ _ => some promptId
  | .enqueue promptId _ _ => some promptId
  | _ => none

namespace DomainState

variable (s : DomainState)

/-! ## The places of prompts -/

def queuedIds : List String := s.queue.map QueuedPrompt.id

def pendingIds : List String := (s.pendingSessionPrompt.map OutgoingPrompt.id).toList

def startingIds : List String := (s.startingTurn.map OutgoingPrompt.id).toList

/-- The slot of a prompt that failed to start and can be retried. -/
def blockedIds : List String := (s.replayBlockedPrompt.map QueuedPrompt.id).toList

/-- The identities of all prompts that wait, place by place. -/
def held : List String := s.queuedIds ++ s.pendingIds ++ s.startingIds ++ s.blockedIds

/-! ## What an action does with prompts -/

/-- The provider's events are those of the active one. -/
def hears (provider : String) : Bool := provider == s.backendProvider

/-- The rows that a resumed session replays. -/
def replayed (providerSessionId : String) : List PersistedOwnerPrompt :=
  match s.resumingSession with
  | none => []
  | some record =>
    if providerSessionId.isEmpty then [] else record.ownerPrompts.filter (·.dispatchPending)

/-- The prompt of a command that was not refused, unless it was known before. -/
def taken (promptId text : String) (attachments : List PromptAttachment)
    (outcome : Except DomainCommandError (List Effect) × DomainState) : List String :=
  if outcome.1.isOk && !s.known promptId text attachments then [promptId] else []

/-- The prompts an action brings in: a command its own, and a resumed session the ones it has still
to replay. -/
def accepts : Action → List String
  | .submit promptId text attachments sourceTransport =>
    s.taken promptId text attachments
      (s.submitPromptWithIdAndSource promptId text attachments sourceTransport)
  | .enqueue promptId text attachments =>
    s.taken promptId text attachments (s.enqueuePromptWithId promptId text attachments)
  | .backend provider (.sessionResumed providerSessionId _ _) =>
    if s.hears provider then (s.replayed providerSessionId).map (·.promptId) else []
  | _ => []

/-- The prompt whose turn an action starts. A turn that fails before it was seen to start has not
begun. -/
def begins : Action → List String
  | .backend provider (.turnStarted turnId) =>
    if s.hears provider && !turnId.isEmpty && s.activeTurn.isNone then s.startingIds else []
  | .backend provider (.turnCompleted _ outcome) =>
    if s.hears provider && s.activeTurn.isNone && outcome != .failed then s.startingIds else []
  | _ => []

/-- The queued prompt that the provider has taken as guidance for its turn. -/
def steers : Action → List String
  | .backend provider (.steerAccepted turnId) =>
    if s.hears provider then (s.acceptedGuidance turnId).toList else []
  | _ => []

/-- The queued prompt that its owner takes back. -/
def removes : Action → List String
  | .remove promptId =>
    if !s.isRedirecting promptId && promptId ∈ s.queuedIds then [promptId] else []
  | _ => []

/-- The prompt whose turn the provider refused to start. -/
def rejects : Action → List String
  | .backend provider (.requestFailed .startTurn code _) =>
    if s.hears provider && code != timedOut then s.startingIds else []
  | _ => []

end DomainState

/-- The prompts that effects send to a provider. -/
def startedTurns (effects : List Effect) : List String :=
  effects.filterMap fun
    | .backend (.startTurn _ clientId _ _ _) => some clientId
    | _ => none

/-! ## Histories -/

/-- What has become of prompts along a run, in order. -/
structure History where
  accepted : List String
  begun : List String
  steered : List String
  removed : List String
  sent : List String
  rejected : List String

namespace History

/-- The history of an engine that holds prompts already. -/
def start (s : DomainState) : History := ⟨s.held, [], [], [], [], []⟩

def record (h : History) (s : DomainState) (action : Action) : History where
  accepted := h.accepted ++ s.accepts action
  begun := h.begun ++ s.begins action
  steered := h.steered ++ s.steers action
  removed := h.removed ++ s.removes action
  sent := h.sent ++ startedTurns (s.step action).2
  rejected := h.rejected ++ s.rejects action

end History

/-- The engine beside the history of its prompts. -/
def recorded : System (DomainState × History) Action where
  next x action x' := x' = ((x.1.step action).1, x.2.record x.1 action)

namespace History

/-- The state and the history after a run of actions. -/
def after (x : DomainState × History) (actions : List Action) : DomainState × History :=
  actions.foldl (fun x action => ((x.1.step action).1, x.2.record x.1 action)) x

theorem run_after (x : DomainState × History) (actions : List Action) :
    recorded.Run x actions (after x actions) := by
  induction actions generalizing x with
  | nil => exact .nil x
  | cons action actions ih => exact .cons rfl (ih _)

end History

end Nakode.Domain
