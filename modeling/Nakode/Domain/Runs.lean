import Nakode.Lib.Trace
import Nakode.Domain.Backend

/-!
# Runs of an engine

An engine starts with no work (`Fresh`), or turned to a persisted session (`Starts`), and then takes
commands and events in any order.
-/

namespace Nakode.Domain

open Transition

/-- What an engine takes: the commands of its clients, the ends of work of its own, and the events
of providers. -/
inductive Action
  | submit (promptId text : String) (attachments : List PromptAttachment)
      (sourceTransport : Option String)
  | enqueue (promptId text : String) (attachments : List PromptAttachment)
  | remove (promptId : String)
  | steerQueued (promptId steerId : String)
  | steer (turnId text steerId : String)
  | cancel (turnId : String)
  | shell (command shellId : String)
  | shellEnded (shellId : String)
  | subagentStarted (runId : String)
  | subagentFinished (runId : String)
  | compact (compactionId : String)
  /-- The owner or a new catalogue selects a model. -/
  | selectModel (model : Option String)
  | backend (provider : String) (event : BackendEvent)
  deriving DecidableEq, Repr

namespace DomainState

variable (s : DomainState)

/-- The outcome of a command. A command that is refused has no effects. -/
def settle (outcome : Except DomainCommandError (List Effect) × DomainState) :
    DomainState × List Effect :=
  match outcome with
  | (.ok effects, s) => (s, effects)
  | (.error _, s) => (s, [])

theorem settle_fst (outcome : Except DomainCommandError (List Effect) × DomainState) :
    (settle outcome).1 = outcome.2 := by
  unfold settle
  split <;> rfl

def step : Action → DomainState × List Effect
  | .submit promptId text attachments sourceTransport =>
    settle (s.submitPromptWithIdAndSource promptId text attachments sourceTransport)
  | .enqueue promptId text attachments => settle (s.enqueuePromptWithId promptId text attachments)
  | .remove promptId => settle (s.removeQueuedPrompt promptId)
  | .steerQueued promptId steerId => settle (s.steerQueuedPrompt promptId steerId)
  | .steer turnId text steerId => settle (s.steerTurn turnId text steerId)
  | .cancel turnId => settle (s.cancelTurn turnId)
  | .shell command shellId => settle (s.runShellCommand command shellId)
  | .shellEnded shellId => (s.shellEnded shellId, [])
  | .subagentStarted runId => (s.subagentStarted runId, [])
  | .subagentFinished runId => (s.finishSubagent runId, [])
  | .compact compactionId => settle (s.compactContext compactionId)
  | .selectModel model => ({ s with selectedModel := model }, [])
  | .backend provider event => s.handleProviderBackend provider event

/-- An engine before it has taken anything on. Its providers, models and tools are any. -/
structure Fresh : Prop where
  providerSessionId : s.providerSessionId = none
  sessionId : s.sessionId = none
  creatingSession : s.creatingSession = false
  resumingSession : s.resumingSession = none
  pendingSessionPrompt : s.pendingSessionPrompt = none
  startingTurn : s.startingTurn = none
  activeTurn : s.activeTurn = none
  contextCompaction : s.contextCompaction = none
  activeShells : s.activeShells = []
  runningSubagents : s.runningSubagents = []
  queue : s.queue = []
  replayBlockedPrompt : s.replayBlockedPrompt = none
  recoverablePrompt : s.recoverablePrompt = none
  pendingSteer : s.pendingSteer = none
  pendingRedirect : s.pendingRedirect = none
  redirectStart : s.redirectStart = none
  deferResumeQueue : s.deferResumeQueue = false
  approvals : s.approvals = []
  questions : s.questions = []
  externalToolCalls : s.externalToolCalls = []
  lastTurn : s.lastTurn = none
  ownerTurns : s.ownerTurns = []
  ownerPrompts : s.ownerPrompts = []
  userRows : s.userRows = []

/-- The engine of a session on a provider that is ready. -/
def new (provider name nakodeSessionId : String) (capabilities : BackendCapabilities) :
    DomainState where
  connection := .ready name
  backendProvider := provider
  backendName := name
  backendCapabilities := capabilities
  providerContexts := []
  models := []
  selectedModel := none
  externalTools := []
  mcpTools := []
  skills := []
  providerSessionId := none
  sessionId := none
  nakodeSessionId
  creationTitle := none
  creatingSession := false
  resumingSession := none
  pendingSessionPrompt := none
  startingTurn := none
  activeTurn := none
  contextCompaction := none
  activeShells := []
  runningSubagents := []
  queue := []
  replayBlockedPrompt := none
  recoverablePrompt := none
  pendingSteer := none
  pendingRedirect := none
  redirectStart := none
  deferResumeQueue := false
  approvals := []
  questions := []
  externalToolCalls := []
  turnProgress := none
  itemTurns := []
  lastTurn := none
  ownerTurns := []
  ownerPrompts := []
  userRows := []

theorem new_fresh (provider name nakodeSessionId : String) (capabilities : BackendCapabilities) :
    (new provider name nakodeSessionId capabilities).Fresh := by
  constructor <;> rfl

/-- A provider that supports everything. -/
def allCapabilities : BackendCapabilities where
  modelCatalog := true
  steering := true
  interruption := true
  resume := true
  externalTools := true
  contextCompaction := true

/-- The engine of a session on a provider that supports everything. -/
def native : DomainState := new "native" "Native" "session" allCapabilities

theorem native_fresh : native.Fresh := new_fresh ..

end DomainState

/-- An event of the provider of `DomainState.native`. -/
def Action.native (event : BackendEvent) : Action := .backend "native" event

/-- An owner's prompt that brings nothing along. -/
def Action.say (promptId : String) : Action := .submit promptId "go on" [] none

/-- An engine with no work, or one that has just turned to a persisted session. -/
inductive Starts : DomainState → Prop
  | fresh {s : DomainState} : s.Fresh → Starts s
  | resumed {s : DomainState} (record : SessionRecord) : s.Fresh → Starts (s.beginResume record).1

/-- The engine as a system. A step has its effects beside it in the label. -/
def engine : System DomainState Action where
  next s action s' := (s.step action).1 = s'

namespace DomainState

/-- The states along a run of actions, the last one. -/
def after (s : DomainState) (actions : List Action) : DomainState :=
  actions.foldl (fun s action => (s.step action).1) s

theorem run_after (s : DomainState) (actions : List Action) :
    engine.Run s actions (s.after actions) := by
  induction actions generalizing s with
  | nil => exact .nil s
  | cons action actions ih => exact .cons rfl (ih (s.step action).1)

end DomainState

/-- The states an engine can reach. -/
def Reachable (s : DomainState) : Prop := ∃ s₀ actions, Starts s₀ ∧ engine.Run s₀ actions s

theorem Reachable.after {s : DomainState} (h : s.Fresh) (actions : List Action) :
    Reachable (s.after actions) :=
  ⟨s, actions, .fresh h, s.run_after actions⟩

end Nakode.Domain
