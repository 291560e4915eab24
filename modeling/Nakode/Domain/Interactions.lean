import Nakode.Domain.Cases

/-!
# Late events and the ends of work

A late event is one of a turn that is not the active one. `late_event_iff` says when such an event
leaves the active turn as it is, and `interactions_retired_iff` when nothing waits for an owner
after the work it waits in has ended. Two reachable states in which an event goes further, or not
far enough, follow each.
-/

namespace Nakode.Domain

/-! ## Late events -/

/-- The turn an event of a turn carries. -/
def BackendEvent.turnId? : BackendEvent → Option String
  | .turnStarted turnId => some turnId
  | .turnCompleted turnId _ => some turnId
  | .itemStarted turnId _ _ => some turnId
  | .itemDelta turnId _ => some turnId
  | .itemCompleted turnId _ _ => some turnId
  | .turnDiff turnId _ => some turnId
  | .turnPlan turnId _ => some turnId
  | .turnProgress turnId _ _ => some turnId
  | .steerAccepted turnId => some turnId
  | .modelRerouted turnId _ _ => some turnId
  | .contextCompactionStarted _ turnId _ _ _ => some turnId
  | .contextCompactionCompleted _ turnId => some turnId
  | .contextCompactionFailed _ turnId _ => some turnId
  | _ => none

/-- An event that asks for something to be decided or done outside. -/
def BackendEvent.requests : BackendEvent → Bool
  | .approvalRequested _ => true
  | .questionRequested _ => true
  | .externalToolRequested _ => true
  | _ => false

def Action.requests : Action → Bool
  | .backend _ event => event.requests
  | _ => false

/-- Two states with the same turn, queue and interactions. -/
structure SameTurn (s s' : DomainState) : Prop where
  activeTurn : s'.activeTurn = s.activeTurn
  startingTurn : s'.startingTurn = s.startingTurn
  queue : s'.queue = s.queue
  pendingSteer : s'.pendingSteer = s.pendingSteer
  pendingRedirect : s'.pendingRedirect = s.pendingRedirect
  questions : s'.questions = s.questions
  approvals : s'.approvals = s.approvals
  externalToolCalls : s'.externalToolCalls = s.externalToolCalls
  lastTurn : s'.lastTurn = s.lastTurn
  ownerTurns : s'.ownerTurns = s.ownerTurns

/-- An event leaves the turn, the queue and the interactions as they are, and has no effect. -/
def DomainState.Untouched (s : DomainState) (event : BackendEvent) : Prop :=
  SameTurn s (s.handleBackend event).1 ∧ (s.handleBackend event).2 = []

/-- Nothing that a late event of this kind discards before it is found to be late. -/
def DomainState.Spares (s : DomainState) : BackendEvent → Prop
  | .turnStarted turnId => turnId = "" ∨ s.acknowledgedPrompt = none
  | .turnCompleted _ _ => s.externalToolCalls = []
  | .steerAccepted _ => s.pendingSteer = none
  | _ => True

namespace DomainState

variable {s : DomainState}

theorem SameTurn.refl (s : DomainState) : SameTurn s s := by
  constructor <;> rfl

theorem turnIsCurrent_eq_false {t : ActiveTurn} (hactive : s.activeTurn = some t) {turnId : String}
    (hlate : turnId ≠ t.id) : s.turnIsCurrent turnId = false := by
  simp [turnIsCurrent, hactive, hlate.symm]

/-- An observer that first looks whether the turn is the active one changes nothing. -/
theorem observeItem_late {turnId itemId : String} {ofUser : Bool}
    (hcurrent : s.turnIsCurrent turnId = false) : s.observeItem turnId itemId ofUser = s := by
  simp [observeItem, hcurrent]

theorem handleTurnProgress_late {t : ActiveTurn} (hactive : s.activeTurn = some t)
    {turnId message : String} {waiting : Bool} (hlate : turnId ≠ t.id) :
    s.handleTurnProgress turnId message waiting = s := by
  simp [handleTurnProgress, hactive, hlate.symm]

theorem handleModelRerouted_late {t : ActiveTurn} (hactive : s.activeTurn = some t)
    {turnId «to» : String} (hlate : turnId ≠ t.id) : s.handleModelRerouted turnId «to» = s := by
  simp [handleModelRerouted, hactive, hlate.symm]

/-- Compaction touches nothing but what is known of compaction. -/
theorem sameTurn_contextCompactionStarted (compactionId turnId : String)
    (reason : CompactionReason) (tokens : Nat) (window : Option Nat) :
    SameTurn s (s.contextCompactionStarted compactionId turnId reason tokens window) := by
  unfold contextCompactionStarted
  dsimp only
  split <;> constructor <;> rfl

theorem sameTurn_contextCompactionEnded (compactionId turnId : String) :
    SameTurn s (s.contextCompactionEnded compactionId turnId) := by
  unfold contextCompactionEnded
  split <;> constructor <;> rfl

theorem completeTurn_late {t : ActiveTurn} (hactive : s.activeTurn = some t) {turnId : String}
    {outcome : TurnOutcome} (hlate : turnId ≠ t.id) : s.completeTurn turnId outcome = (s, []) := by
  simp [completeTurn, observeCompletion, hactive, turnIsCurrent_eq_false hactive hlate]

theorem handleSteerAccepted_late {t : ActiveTurn} (hactive : s.activeTurn = some t)
    {turnId : String} (hlate : turnId ≠ t.id) :
    s.handleSteerAccepted turnId = (false, { s with pendingSteer := none }) := by
  cases hpending : s.pendingSteer with
  | none =>
    have hsame : { s with pendingSteer := none } = s := by rw [← hpending]
    simp only [handleSteerAccepted, hpending, hsame]
  | some pending =>
    have hcurrent : { s with pendingSteer := none }.turnIsCurrent turnId = false :=
      turnIsCurrent_eq_false (t := t) hactive hlate
    simp [handleSteerAccepted, hpending, hcurrent]

/-- A late event leaves the active turn alone exactly when the part of its handler that runs before
it is found to be late has nothing to discard: no external tool call is waiting when a turn
completes, no guidance is in flight when guidance is accepted, and no owner prompt is starting when
a turn starts. -/
theorem late_event_iff {t : ActiveTurn} (hactive : s.activeTurn = some t) {event : BackendEvent}
    {turnId : String} (hturn : event.turnId? = some turnId) (hlate : turnId ≠ t.id) :
    s.Untouched event ↔ s.Spares event := by
  have hcurrent := turnIsCurrent_eq_false hactive hlate
  cases event <;> simp only [BackendEvent.turnId?, Option.some.injEq, reduceCtorEq] at hturn <;>
    subst hturn <;> simp only [Untouched, Spares, handleBackend, iff_true]
  case turnStarted turnId =>
    by_cases hempty : turnId = ""
    · simp [handleTurnStarted, hempty, SameTurn.refl]
    · have hobserved : s.observeTurnStarted turnId = s := by simp [observeTurnStarted, hactive]
      cases h : s.acknowledgedPrompt <;>
        simp [handleTurnStarted, hempty, hobserved, h, SameTurn.refl]
  case turnCompleted turnId outcome =>
    have hactive' : { s with externalToolCalls := [] }.activeTurn = some t := hactive
    rw [completeTurn_late hactive' hlate]
    constructor
    · rintro ⟨hsame, -⟩
      exact hsame.externalToolCalls.symm
    · intro hnone
      exact ⟨by constructor <;> simp [hnone], rfl⟩
  case steerAccepted turnId =>
    rw [handleSteerAccepted_late hactive hlate]
    constructor
    · rintro ⟨hsame, -⟩
      exact hsame.pendingSteer.symm
    · intro hnone
      exact ⟨by constructor <;> simp [hnone], rfl⟩
  case itemStarted => exact ⟨by rw [observeItem_late hcurrent]; exact SameTurn.refl s, trivial⟩
  case itemCompleted => exact ⟨by rw [observeItem_late hcurrent]; exact SameTurn.refl s, trivial⟩
  case itemDelta => exact ⟨by rw [observeItem_late hcurrent]; exact SameTurn.refl s, trivial⟩
  case turnDiff => exact ⟨SameTurn.refl s, trivial⟩
  case turnPlan => exact ⟨SameTurn.refl s, trivial⟩
  case turnProgress =>
    exact ⟨by rw [handleTurnProgress_late hactive hlate]; exact SameTurn.refl s, trivial⟩
  case modelRerouted =>
    exact ⟨by rw [handleModelRerouted_late hactive hlate]; exact SameTurn.refl s, trivial⟩
  case contextCompactionStarted => exact ⟨sameTurn_contextCompactionStarted .., trivial⟩
  case contextCompactionCompleted => exact ⟨sameTurn_contextCompactionEnded .., trivial⟩
  case contextCompactionFailed => exact ⟨sameTurn_contextCompactionEnded .., trivial⟩

/-- A second turn is running and waits for an external tool. -/
def waitingForTool : List Action :=
  [.say "first", .native (.sessionCreated "thread" ""), .native (.turnStarted "turn-1"),
    .native (.turnCompleted "turn-1" .completed), .say "second", .native (.turnStarted "turn-2"),
    .native (.externalToolRequested ⟨"call", "lookup", "{}"⟩)]

/-- The completion of the first turn, reported again, discards the call of the second one. -/
theorem late_completion_discards :
    Reachable (native.after waitingForTool) ∧
    ((native.after waitingForTool).activeTurn.map (·.id)) = some "turn-2" ∧
    ¬ (native.after waitingForTool).Untouched (.turnCompleted "turn-1" .completed) := by
  refine ⟨.after native_fresh _, by decide +kernel, fun h => ?_⟩
  have hcalls := h.1.externalToolCalls
  revert hcalls
  decide +kernel

theorem late_event_iff_waitingForTool :
    (native.after waitingForTool).Untouched (.turnCompleted "turn-1" .completed) ↔
      (native.after waitingForTool).Spares (.turnCompleted "turn-1" .completed) :=
  late_event_iff (t := ⟨"turn-2", none, false⟩) (by decide +kernel) rfl (by decide)

/-! ## What waits for an owner -/

inductive InteractionKind
  | approval
  | question
  deriving DecidableEq, Repr

structure InteractionView where
  kind : InteractionKind
  id : String
  title : String
  detail : String
  multiple : Bool
  questions : List QuestionRequest
  deriving DecidableEq, Repr

/-- The questions of each group, in the order the groups were first asked in. -/
def questionGroups (questions : List QuestionRequest) : List (String × List QuestionRequest) :=
  questions.foldl (fun groups question =>
    let group := ((groups.find? (·.1 == question.groupId)).map (·.2)).getD []
    upsert Prod.fst (question.groupId, group ++ [question]) groups) []

/-- The projected list of what an owner is asked. -/
def interactions (s : DomainState) : List InteractionView :=
  s.approvals.map (fun approval =>
    { kind := .approval, id := approval.id, title := approval.title, detail := approval.detail,
      multiple := false, questions := [] }) ++
  (questionGroups s.questions).filterMap fun (groupId, group) =>
    let prompts := group.mergeSort fun a b => a.order ≤ b.order
    prompts.head?.map fun first =>
      { kind := .question, id := groupId, title := first.title, detail := first.question,
        multiple := first.multi, questions := prompts }

/-- Nothing waits for an owner or for the result of an external tool. -/
structure Unattended (s : DomainState) : Prop where
  approvals : s.approvals = []
  questions : s.questions = []
  externalToolCalls : s.externalToolCalls = []
  interactions : s.interactions = []

theorem interactions_eq_nil (happrovals : s.approvals = []) (hquestions : s.questions = []) :
    s.interactions = [] := by
  simp [interactions, happrovals, hquestions, questionGroups]

/-! ### What ends a turn -/

/-- A completion is of the current turn, or of the one that is starting. -/
def completes (s : DomainState) (turnId : String) : Bool :=
  s.turnIsCurrent turnId || (s.activeTurn.isNone && s.startingTurn.isSome)

theorem turnIsCurrent_observeCompletion (turnId : String) :
    (s.observeCompletion turnId).turnIsCurrent turnId = s.completes turnId := by
  unfold observeCompletion completes
  cases hactive : s.activeTurn <;> cases hstarting : s.startingTurn <;>
    simp [turnIsCurrent, observeTurnStarted, hactive]

/-- Two states in which the same approvals and calls of external tools wait. -/
structure SameRequests (s s' : DomainState) : Prop where
  approvals : s'.approvals = s.approvals
  externalToolCalls : s'.externalToolCalls = s.externalToolCalls
  questions : s.questions = [] → s'.questions = []

theorem SameRequests.trans {s' s'' : DomainState} (h : SameRequests s s')
    (h' : SameRequests s' s'') : SameRequests s s'' :=
  ⟨h'.approvals.trans h.approvals, h'.externalToolCalls.trans h.externalToolCalls,
    fun hs => h'.questions (h.questions hs)⟩

theorem SameRequests.of_dispatches {s' : DomainState} (h : Dispatches s s') : SameRequests s s' :=
  ⟨h.approvals, h.externalToolCalls, fun hs => h.questions.trans hs⟩

theorem SameRequests.after {s' s'' : DomainState} (h' : Dispatches s' s'')
    (h : SameRequests s s') : SameRequests s s'' :=
  h.trans (.of_dispatches h')

theorem sameRequests_observeCompletion (turnId : String) :
    SameRequests s (s.observeCompletion turnId) := by
  unfold observeCompletion observeTurnStarted
  split
  · split <;> exact ⟨rfl, rfl, id⟩
  · exact ⟨rfl, rfl, id⟩

theorem sameRequests_retireTurn (turnId : String) (outcome : TurnOutcome) :
    SameRequests s (s.retireTurn turnId outcome) ∧ (s.retireTurn turnId outcome).questions = [] := by
  unfold retireTurn recordTerminalOwnerTurn
  split <;> exact ⟨⟨rfl, rfl, fun _ => rfl⟩, rfl⟩

theorem sameRequests_settleTurn (outcome : TurnOutcome) (unstarted : Option OutgoingPrompt) :
    SameRequests s (s.settleTurn outcome unstarted).1 := by
  unfold settleTurn
  split
  · exact .of_dispatches (s.dispatches_restoreFailedPrompt _)
  · split
    · exact ⟨rfl, rfl, id⟩
    · exact .after s.dispatches_continueAfterTurn ⟨rfl, rfl, id⟩

theorem sameRequests_completeTurn (turnId : String) (outcome : TurnOutcome) :
    SameRequests s (s.completeTurn turnId outcome).1 := by
  have hobserve := s.sameRequests_observeCompletion turnId
  unfold completeTurn
  dsimp only
  split
  · exact hobserve
  · exact (hobserve.trans (sameRequests_retireTurn turnId outcome).1).trans
      (sameRequests_settleTurn _ _)

theorem completeTurn_questions {turnId : String} {outcome : TurnOutcome}
    (hcompletes : s.completes turnId = true) : (s.completeTurn turnId outcome).1.questions = [] := by
  have hcurrent := s.turnIsCurrent_observeCompletion turnId
  unfold completeTurn
  simp only [hcurrent, hcompletes, Bool.not_true, Bool.false_eq_true, if_false]
  exact (sameRequests_settleTurn _ _).questions (sameRequests_retireTurn turnId outcome).2

/-! ### What any step does -/

theorem SameRequests.unattended {s' : DomainState} (h : SameRequests s s') (hs : s.Unattended) :
    s'.Unattended := by
  have happrovals := h.approvals.trans hs.approvals
  have hquestions := h.questions hs.questions
  exact ⟨happrovals, hquestions, h.externalToolCalls.trans hs.externalToolCalls,
    interactions_eq_nil happrovals hquestions⟩

theorem sameRequests_steerQueuedPrompt (promptId steerId : String) :
    SameRequests s (s.steerQueuedPrompt promptId steerId).2 := by
  rcases s.steerQueued_cases promptId steerId with ⟨e, h⟩ | ⟨_, _, _, -, -, -, -, h⟩ |
    ⟨_, _, _, -, -, -, -, -, h⟩ <;> rw [h] <;> exact ⟨rfl, rfl, id⟩

theorem sameRequests_handleSteerAccepted (turnId : String) :
    SameRequests s (s.handleSteerAccepted turnId).2 := by
  rcases s.steerAccepted_cases turnId with ⟨-, _, h⟩ | ⟨_, -, -, h⟩ <;> rw [h] <;>
    exact ⟨rfl, rfl, id⟩

theorem sameRequests_handleSessionCreated (providerSessionId model : String) :
    SameRequests s (s.handleSessionCreated providerSessionId model).1 := by
  unfold handleSessionCreated startPromptOnSession
  dsimp only
  split
  · exact ⟨rfl, rfl, id⟩
  · split <;> exact ⟨rfl, rfl, id⟩

theorem sameRequests_handleSessionResumed (providerSessionId model : String)
    (history : List UserRow) :
    SameRequests s (s.handleSessionResumed providerSessionId model history).1 := by
  unfold handleSessionResumed
  split
  · exact ⟨rfl, rfl, id⟩
  next record _ =>
    split
    · exact ⟨rfl, rfl, id⟩
    · have hresumed : SameRequests s (s.resumedState record providerSessionId model history) :=
        ⟨rfl, rfl, id⟩
      have hreplay := hresumed.trans (.of_dispatches (dispatches_replayPending _
        ((s.resumedState record providerSessionId model history).ownerPrompts.filter
          (·.dispatchPending))))
      exact .after (dispatches_continueAfterReplay _ _) (hreplay.trans ⟨rfl, rfl, id⟩)

theorem sameRequests_requestFailed (operation : BackendOperation) (code : Int) (message : String) :
    SameRequests s (s.requestFailed operation code message).1 := by
  unfold requestFailed
  split <;> try exact ⟨rfl, rfl, id⟩
  · split
    · exact ⟨rfl, rfl, id⟩
    · dsimp only
      split
      · exact ⟨rfl, rfl, id⟩
      · exact .after (dispatches_returnPrompt _ _) ⟨rfl, rfl, id⟩
  · split
    · exact ⟨rfl, rfl, id⟩
    · split
      · exact .after (dispatches_returnPrompt _ _) ⟨rfl, rfl, id⟩
      · exact .of_dispatches s.dispatches_drainQueue

theorem sameRequests_observeTurnStarted (turnId : String) :
    SameRequests s (s.observeTurnStarted turnId) := by
  unfold observeTurnStarted
  split <;> exact ⟨rfl, rfl, id⟩

theorem sameRequests_releaseUnstarted : SameRequests s s.releaseUnstarted :=
  .after s.dispatches_releaseUnstarted ⟨rfl, rfl, id⟩

theorem handleBackend_unattended {event : BackendEvent} (hrequests : event.requests = false)
    (hs : s.Unattended) : (s.handleBackend event).1.Unattended := by
  have hsame : ∀ {s' : DomainState}, SameRequests s s' → s'.Unattended := fun h => h.unattended hs
  cases event <;> simp only [BackendEvent.requests, reduceCtorEq] at hrequests <;>
    simp only [handleBackend]
  case ready => exact hsame ⟨rfl, rfl, id⟩
  case sessionCreated => exact hsame (sameRequests_handleSessionCreated ..)
  case sessionResumed => exact hsame (sameRequests_handleSessionResumed ..)
  case sessionObserved => unfold observeSession; split <;> exact hsame ⟨rfl, rfl, id⟩
  case turnAccepted => exact hs
  case turnStarted =>
    unfold handleTurnStarted
    split
    · exact hs
    · exact hsame (sameRequests_observeTurnStarted _)
  case turnCompleted =>
    have hcleared : SameRequests s { s with externalToolCalls := [] } :=
      ⟨rfl, hs.externalToolCalls.symm, id⟩
    exact hsame (hcleared.trans (sameRequests_completeTurn _ _))
  case itemStarted => unfold observeItem; split <;> exact hsame ⟨rfl, rfl, id⟩
  case itemCompleted => unfold observeItem; split <;> exact hsame ⟨rfl, rfl, id⟩
  case itemDelta => unfold observeItem; split <;> exact hsame ⟨rfl, rfl, id⟩
  case turnDiff => exact hs
  case turnPlan => exact hs
  case turnProgress => unfold handleTurnProgress; split <;> exact hsame ⟨rfl, rfl, id⟩
  case approvalResolved =>
    exact hsame ⟨by simp [hs.approvals], rfl, id⟩
  case steerAccepted turnId =>
    have h := hsame (s.sameRequests_handleSteerAccepted turnId)
    split
    next s' heq => rw [heq] at h; exact h
    next s' heq => rw [heq] at h; exact h
  case interruptAccepted => exact hs
  case modelRerouted =>
    unfold handleModelRerouted
    split
    · split <;> exact hsame ⟨rfl, rfl, id⟩
    · exact hs
  case contextCompactionStarted =>
    unfold contextCompactionStarted
    dsimp only
    split <;> exact hsame ⟨rfl, rfl, id⟩
  case contextCompactionCompleted =>
    unfold contextCompactionEnded; split <;> exact hsame ⟨rfl, rfl, id⟩
  case contextCompactionFailed =>
    unfold contextCompactionEnded; split <;> exact hsame ⟨rfl, rfl, id⟩
  case requestFailed => exact hsame (sameRequests_requestFailed ..)
  case sessionClosed =>
    unfold handleSessionClosed
    split
    · exact hs
    · have hcleared : SameRequests s { s with
          questions := [], approvals := [], providerSessionId := none } :=
        ⟨hs.approvals.symm, rfl, fun _ => rfl⟩
      exact hsame ((hcleared.trans sameRequests_releaseUnstarted).trans ⟨rfl, rfl, id⟩)
  case disconnected =>
    have hcleared : ∀ reason, SameRequests s { s with
        questions := [], externalToolCalls := [], connection := .disconnected reason,
        runningSubagents := [] } := fun _ => ⟨rfl, hs.externalToolCalls.symm, fun _ => rfl⟩
    exact hsame ((hcleared _).trans sameRequests_releaseUnstarted)
  case notice => exact hs

theorem sameRequests_syncActiveProviderContext : SameRequests s s.syncActiveProviderContext :=
  ⟨rfl, rfl, id⟩

theorem sameRequests_observeProvider (provider : String) (event : BackendEvent) :
    SameRequests s (s.observeProvider provider event) := by
  unfold observeProvider updateContext
  split <;> (try dsimp only) <;> (try split) <;> exact ⟨rfl, rfl, id⟩

theorem handleProviderBackend_unattended {provider : String} {event : BackendEvent}
    (hrequests : event.requests = false) (hs : s.Unattended) :
    (s.handleProviderBackend provider event).1.Unattended := by
  have hobserved := (s.sameRequests_observeProvider provider event).unattended hs
  unfold handleProviderBackend
  split
  · exact hs
  · dsimp only
    split
    · exact hobserved
    · exact sameRequests_syncActiveProviderContext.unattended
        (handleBackend_unattended hrequests hobserved)

/-- No action that is not itself a request brings one up. -/
theorem step_unattended {action : Action} (hrequests : action.requests = false)
    (hs : s.Unattended) : (s.step action).1.Unattended := by
  have hsame : ∀ {s' : DomainState}, SameRequests s s' → s'.Unattended := fun h => h.unattended hs
  cases action <;> simp only [step, settle_fst]
  case submit =>
    exact hsame (.of_dispatches (s.dispatches_submitPromptWithIdentityPolicy ..))
  case enqueue => exact hsame (.of_dispatches (s.dispatches_enqueuePromptWithId ..))
  case remove => exact hsame (.of_dispatches (s.dispatches_removeQueuedPrompt _))
  case steerQueued => exact hsame (s.sameRequests_steerQueuedPrompt _ _)
  case steer =>
    rcases s.steer_cases _ _ _ with ⟨e, h⟩ | ⟨_, _, -, -, -, h⟩ <;> rw [h] <;>
      exact hsame ⟨rfl, rfl, id⟩
  case cancel =>
    rcases s.cancel_cases _ with ⟨e, h⟩ | ⟨_, _, -, -, h⟩ <;> rw [h] <;>
      exact hsame ⟨rfl, rfl, id⟩
  case shell => unfold runShellCommand; split <;> exact hsame ⟨rfl, rfl, id⟩
  case shellEnded => exact hsame ⟨rfl, rfl, id⟩
  case subagentStarted => exact hsame ⟨rfl, rfl, id⟩
  case subagentFinished => exact hsame ⟨rfl, rfl, id⟩
  case compact =>
    unfold compactContext
    split
    · exact hs
    · split
      · exact hs
      · split
        · exact hs
        · split <;> exact hsame ⟨rfl, rfl, id⟩
  case selectModel => exact hsame ⟨rfl, rfl, id⟩
  case backend => exact handleProviderBackend_unattended hrequests hs

/-! ### The ends of work -/

/-- The event ends the work that interactions wait in: the backend is lost, the provider session is
closed, or the current turn is over. -/
def Ends (s : DomainState) : BackendEvent → Prop
  | .disconnected _ => True
  | .sessionClosed providerSessionId => s.providerSessionId = some providerSessionId
  | .turnCompleted turnId _ => s.completes turnId = true
  | _ => False

/-- Nothing waits that the handler of the event does not clear. -/
def Clears (s : DomainState) : BackendEvent → Prop
  | .sessionClosed _ => s.externalToolCalls = []
  | _ => s.approvals = []

/-- Nothing waits after an event, until something is asked for again. -/
def Retires (s : DomainState) (event : BackendEvent) : Prop :=
  ∀ actions, (∀ action ∈ actions, action.requests = false) →
    ((s.handleBackend event).1.after actions).Unattended

theorem unattended_after {actions : List Action}
    (hrequests : ∀ action ∈ actions, action.requests = false) (hs : s.Unattended) :
    (s.after actions).Unattended := by
  induction actions generalizing s with
  | nil => exact hs
  | cons action actions ih =>
    obtain ⟨haction, hrest⟩ := List.forall_mem_cons.1 hrequests
    exact ih hrest (step_unattended haction hs)

/-- What still waits right after work has ended. -/
theorem handleBackend_ends {event : BackendEvent} (hends : s.Ends event) :
    (s.handleBackend event).1.Unattended ↔ s.Clears event := by
  have hiff : ∀ {s' : DomainState}, s'.questions = [] →
      (s'.Unattended ↔ s'.approvals = [] ∧ s'.externalToolCalls = []) := fun hquestions =>
    ⟨fun h => ⟨h.approvals, h.externalToolCalls⟩, fun ⟨happrovals, hcalls⟩ =>
      ⟨happrovals, hquestions, hcalls, interactions_eq_nil happrovals hquestions⟩⟩
  cases event <;> simp only [Ends] at hends
  case turnCompleted turnId outcome =>
    have hcompletes : { s with externalToolCalls := [] }.completes turnId = true := hends
    have hsame := sameRequests_completeTurn (s := { s with externalToolCalls := [] }) turnId outcome
    simp only [handleBackend, Clears]
    rw [hiff (completeTurn_questions hcompletes), hsame.approvals, hsame.externalToolCalls]
    exact and_iff_left rfl
  case sessionClosed providerSessionId =>
    have hsame := (sameRequests_releaseUnstarted (s := { s with
      questions := [], approvals := [], providerSessionId := none })).trans
        sameRequests_syncActiveProviderContext
    simp only [handleBackend, handleSessionClosed, hends, bne_self_eq_false, Bool.false_eq_true,
      if_false, Clears]
    rw [hiff (hsame.questions rfl)]
    exact ⟨fun h => hsame.externalToolCalls.symm.trans h.2,
      fun h => ⟨hsame.approvals, hsame.externalToolCalls.trans h⟩⟩
  case disconnected reason =>
    have hsame := sameRequests_releaseUnstarted (s := { s with
      questions := [], externalToolCalls := [], connection := .disconnected reason,
      runningSubagents := [] })
    simp only [handleBackend, handleDisconnected, Clears]
    rw [hiff (hsame.questions rfl), hsame.approvals, hsame.externalToolCalls]
    exact and_iff_left rfl

/-- Nothing that waits for an owner or an external tool outlives the loss of the backend or the end
of the current turn exactly when no approval was waiting, nor the end of the provider session
exactly when no external tool call was. -/
theorem interactions_retired_iff {event : BackendEvent} (hends : s.Ends event) :
    s.Retires event ↔ s.Clears event := by
  rw [← handleBackend_ends hends]
  constructor
  · intro h
    exact h [] (List.forall_mem_nil _)
  · intro h actions hrequests
    exact unattended_after hrequests h

/-- A turn is running and waits for an approval. -/
def waitingForApproval : List Action :=
  [.say "first", .native (.sessionCreated "thread" ""), .native (.turnStarted "turn-1"),
    .native (.approvalRequested ⟨"approval", "Run a command", "rm -r build"⟩)]

/-- An approval that the backend asked for is still there when the backend is lost. -/
theorem approval_outlives_backend :
    Reachable (native.after waitingForApproval) ∧
    (native.after waitingForApproval).Ends (.disconnected "gone") ∧
    ¬ (native.after waitingForApproval).Retires (.disconnected "gone") := by
  refine ⟨.after native_fresh _, trivial, fun h => ?_⟩
  have happrovals := (h [] (List.forall_mem_nil _)).approvals
  revert happrovals
  decide +kernel

theorem interactions_retired_iff_waitingForApproval :
    (native.after waitingForApproval).Retires (.disconnected "gone") ↔
      (native.after waitingForApproval).Clears (.disconnected "gone") :=
  interactions_retired_iff trivial

end DomainState

end Nakode.Domain
