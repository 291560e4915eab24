import Nakode.Agent.Execution
import Nakode.Lib.Trace

/-!
# Turns

`runTurn` delivers a prompt to a session: it is appended once, inference and tool calls alternate
until the provider asks for no more tools, and every state on the way that must not be forgotten is
checkpointed first. Around it stands the machine that holds the session (`State`): the process may
be lost and restarted from the last checkpoint, turns are delivered in any order and any number of
times, and between them the session is recovered, saved, configured or compacted.
-/

namespace Nakode.Agent

open Text (Json)
open Process Process.Proc
open Native

/-! ## The session of a turn -/

namespace RuntimeSession

/-- The model as a turn's checkpoint names it. -/
def checkpointModel (session : RuntimeSession) : String :=
  if session.providerId.isEmpty || Text.startsWith session.model (session.providerId ++ "/") then
    session.model
  else session.providerId ++ "/" ++ session.model

/-- A turn is accepted: its prompt is appended. -/
def accept (session : RuntimeSession) (turnId prompt : String)
    (attachments : List PromptAttachment) : RuntimeSession :=
  { session with
    pendingTurn := some turnId
    checkpointedTurn := some
      { id := turnId
        model := some session.checkpointModel
        options := ⟨session.reasoningEffort, session.fastMode⟩
        outcome := .interrupted }
    history := session.history ++ [.user prompt attachments] }

/-- The last item, which is the prompt, is replaced. -/
def replacePrompt (session : RuntimeSession) (prompt : String)
    (attachments : List PromptAttachment) : RuntimeSession :=
  if session.history.isEmpty then session
  else { session with history := session.history.dropLast ++ [.user prompt attachments] }

def setOutcome (session : RuntimeSession) (outcome : TurnOutcome) : RuntimeSession :=
  { session with checkpointedTurn := session.checkpointedTurn.map fun turn =>
    { turn with outcome := outcome } }

def complete (session : RuntimeSession) (turnId : String) : RuntimeSession :=
  { session with
    pendingTurn := none
    completedTurns := session.completedTurns ++ [turnId] }

def assistantMessage (session : RuntimeSession) (output : InferenceOutput) : AssistantMessage where
  text := output.text
  reasoning := output.reasoning
  toolCalls := output.toolCalls
  providerId := if session.providerId.isEmpty then none else some session.providerId
  modelId := if session.providerId.isEmpty || session.model.isEmpty then none
    else some (session.providerId ++ "/" ++ session.model)
  signature := output.signature
  providerState := output.providerState

end RuntimeSession

/-- A prompt is appended to the session, and the turn that it belongs to is remembered. -/
def World.accept (w : World) (turnId prompt : String) (attachments : List PromptAttachment) :
    World :=
  { w with kept := ⟨w.kept.session.accept turnId prompt attachments, w.kept.prompts ++ [turnId]⟩ }

/-! ## The rounds of a turn -/

namespace ExternalToolConfiguration

/-- After this many rounds a turn is finalized. -/
def softTurnLimit (policy : ExternalToolConfiguration) : Option Nat :=
  policy.maxTurns.map fun limit => limit - min policy.finalizationReserveTurns (limit - 1)

def finalizing (policy : ExternalToolConfiguration) (round : Nat) : Bool :=
  0 < policy.finalizationReserveTurns && policy.softTurnLimit.any (· ≤ round)

end ExternalToolConfiguration

def finalizationWarning (policy : ExternalToolConfiguration) (round : Nat) : String :=
  "Protected finalization reserve started with "
    ++ toString (policy.maxTurns.elim 0 (· - round))
    ++ " turn(s) remaining. New tools are disabled; produce the best final or partial report and a "
    ++ "bounded continuation proposition now."

def deniedDuringFinalization (toolCall : ToolCall) : ToolResultItem where
  callId := toolCall.id
  name := some toolCall.name
  arguments := some toolCall.arguments
  auditKind := some "native"
  title := some "Tool denied during finalization"
  output := "Protected finalization reserve denies new tool use. Synthesize from retained evidence."
  modelOutput := none
  failed := true
  denied := true
  denialReason := some "protected finalization reserve denies new tool use"
  durationMs := some 0
  images := []

/-- `LONG_TURN_WARNING_ROUNDS`. -/
def longTurnWarningRounds : Nat := 25

variable (R : AgentRuntime)

def prepareImageFallback (prompt : String) (attachments : List PromptAttachment) :
    Native (String × List PromptAttachment) :=
  if R.directImageInput || !R.visionEnabled then pure (prompt, attachments)
  else if (attachments.filterMap (·.image)).isEmpty then pure (prompt, attachments)
  else if !R.vision then
    fail "Vision add-on model is configured but its provider is unavailable"
  else wait >>= fun reply => match reply.description with
    | .error error => fail error
    | .ok description =>
      pure (prompt ++ "\n\nVision add-on analysis of the attached images:\n" ++ description,
        attachments.map fun attachment => { attachment with image := none })

/-- The context is compacted before an inference when it has grown too large. -/
def compactProactively (turnId : String) : Native Unit := do
  let w ← Proc.get
  Proc.when (w.kept.session.shouldCompact R.imageTokens R.compactionThresholdPercent) do
    let reply ← consult
    let compaction ← result (compact R turnId reply.uuid .proactive)
    let w ← Proc.get
    match compaction with
    | .error error =>
      Proc.when (w.kept.session.exceedsSafeRequestBudget R.imageTokens)
        (fail ("context compaction is required before inference: " ++ error))
    | .ok _ => pure ()

/-- The context is compacted after the provider has refused it as too large. -/
def compactAfterOverflow (turnId error : String) : Native Unit := do
  let reply ← consult
  let compaction ← result (compact R turnId reply.uuid .contextOverflow)
  match compaction with
  | .error compactError =>
    fail (error ++ "; automatic context compaction failed: " ++ compactError)
  | .ok _ => pure ()

/-- Where the loop of a turn is. -/
structure TurnLoop where
  /-- `inference_round`. -/
  round : Nat := 0
  overflowRecoveryAttempted : Bool := false
  finalizationAnnounced : Bool := false

/-- The finalization of a turn is announced once. -/
def announceFinalization (policy : ExternalToolConfiguration) (l : TurnLoop) : Native Unit :=
  Proc.when (policy.finalizing l.round && !l.finalizationAnnounced) do
    modify (·.push (.user (finalizationWarning policy l.round) []))
    send

/-- A call is denied because the turn is finalized. -/
def denyToolCall (turnId : String) (round : Nat) (toolCall : ToolCall) : Native Unit := do
  let w ← Proc.get
  emit (.answered ⟨turnId, round, ⟨w.kept.session.historyPosition, none⟩⟩ toolCall
    (deniedDuringFinalization toolCall))
  modify (·.push (.toolResult (deniedDuringFinalization toolCall)))

/-- The calls of a message are answered, by denials when the turn is finalized. -/
def answerToolCalls (turnId : String) (round : Nat) (finalizing : Bool)
    (toolCalls : List ToolCall) : Native Unit :=
  if finalizing then do
    each (denyToolCall turnId round) toolCalls
    checkpoint
  else do
    Proc.when (longTurnWarningRounds ≤ round + 1 ∧ (round + 1) % longTurnWarningRounds = 0) waited
    executeToolCalls R turnId round toolCalls
    send

/-- The provider's message is appended and its calls are answered. It is the last one of the turn
when it has none. -/
def processOutput (turnId : String) (round : Nat) (finalizing : Bool) (output : InferenceOutput) :
    Native Bool := do
  Proc.when (0 < output.retryCount) waited
  modify fun w => w.push (.assistant (w.kept.session.assistantMessage output))
  checkpoint
  send
  if output.toolCalls.isEmpty then pure true
  else do
    answerToolCalls R turnId round finalizing output.toolCalls
    pure false

/-- One round of the loop in `run_turn_inner`. -/
def turnRound (policy : ExternalToolConfiguration) (turnId : String) (l : TurnLoop) :
    Native (TurnLoop ⊕ Unit) := do
  let reply ← consult
  Proc.when (policy.maxTurns.any (· ≤ l.round)) (fail
    ("archetype runtime reached its configured maximum of " ++ toString (policy.maxTurns.getD 0)
      ++ " turn(s)"))
  Proc.when reply.cancelled (throw (.failed .interrupted))
  let finalizing := policy.finalizing l.round
  announceFinalization policy l
  compactProactively R turnId
  let inferred ← inferOnce R turnId l.round (!finalizing)
  let next := { l with
    round := l.round + 1
    finalizationAnnounced := l.finalizationAnnounced || finalizing }
  match inferred with
  | .error error =>
    if isContextOverflow error && !l.overflowRecoveryAttempted then do
      compactAfterOverflow R turnId error
      pure (.inl { next with overflowRecoveryAttempted := true })
    else fail error
  | .ok output => do
    let last ← processOutput R turnId l.round finalizing output
    pure (if last then .inr () else .inl next)

def runTurnInner (policy : ExternalToolConfiguration) (turnId prompt : String)
    (attachments : List PromptAttachment) : Native Unit := do
  let (prompt, attachments) ← prepareImageFallback R prompt attachments
  modify (·.update (·.replacePrompt prompt attachments))
  checkpoint
  send
  send
  loop .lost (turnRound R policy turnId) {}

/-- How the rounds of a turn have ended. -/
def turnResult (policy : ExternalToolConfiguration) : Except Stop Unit → Except Stop (Except TurnError Unit)
  | .ok _ => .ok (.ok ())
  | .error (.failed error) => .ok (.error error)
  | .error .timedOut => match policy.timeoutSeconds with
    | some seconds => .ok (.error (.failed ("archetype runtime exceeded its configured "
        ++ toString seconds ++ " second timeout")))
    | none => .error .lost
  | .error _ => .error .lost

def TurnError.outcome : TurnError → TurnOutcome
  | .interrupted => .interrupted
  | .failed _ => .failed

/-- The end of `run_turn`. -/
def World.settle (w : World) (turnId : String) : Except TurnError Unit → World
  | .ok _ => w.update fun session => (session.setOutcome .completed).complete turnId
  | .error error => (w.update (·.setOutcome error.outcome)).recover

/-- `run_turn`. -/
def runTurn (turnId prompt : String) (attachments : List PromptAttachment) : Native Unit := do
  let w ← Proc.get
  let session := w.kept.session
  if session.completedTurns.contains turnId then pure ()
  else if session.pendingTurn = some turnId || session.interruptedTurns.any (·.id == turnId) then do
    modify (·.recover)
    checkpoint
    throw (.failed .interrupted)
  else do
    modify (·.recover)
    modify (·.accept turnId prompt attachments)
    checkpoint
    let policy := R.externalTools.getD {}
    let ended ← attempt (runTurnInner R policy turnId prompt attachments)
    match turnResult policy ended with
    | .error stop => throw stop
    | .ok result =>
      modify (·.settle turnId result)
      checkpoint
      match result with
      | .ok _ => pure ()
      | .error error => throw (.failed error)

/-! ## The machine -/

/-- The session in memory. -/
inductive Memory where
  | lost
  /-- It was read from its checkpoint. -/
  | loaded (kept : Kept)
  /-- It was created, or recovered after it was read. -/
  | live (kept : Kept)

namespace Memory

def kept? : Memory → Option Kept
  | .lost => none
  | .loaded kept | .live kept => some kept

/-- The session in memory is replaced. -/
def put : Memory → Kept → Memory
  | .live _, kept => .live kept
  | _, kept => .loaded kept

end Memory

structure State where
  saved : Option Kept
  memory : Memory
  log : List Effect

inductive Input where
  | lost
  | restart
  /-- The session is recovered and saved, or that fails. -/
  | resume (failure : Option String)
  | persist
  | configure (model : String) (contextWindow : Option Nat)
  | deliver (R : AgentRuntime) (turnId prompt : String) (attachments : List PromptAttachment)
      (replies : List Reply)
  | compact (R : AgentRuntime) (id : String) (replies : List Reply)

namespace State

/-- A session is created. -/
def init (id providerId model instructions : String) : State where
  saved := none
  memory := .live ⟨.new id providerId model instructions, []⟩
  log := []

/-- What a computation on the session has come to. -/
def after (s : State) (w : World) : State := ⟨w.saved, s.memory.put w.kept, w.log⟩

/-- A computation on the session is over, unless the process was lost in it. -/
def finished (s : State) (result : Except Stop Unit) (w : World) : State :=
  match result with
  | .ok _ | .error (.failed _) => s.after w
  | .error _ => ⟨w.saved, .lost, w.log⟩

/-- A turn was delivered: how it has ended is told, unless the process was lost. -/
def delivered (s : State) (turnId : String) (result : Except Stop Unit) (w : World) : State :=
  match result with
  | .ok _ => s.after (w.emit (.returned turnId (.ok ())))
  | .error (.failed error) => s.after (w.emit (.returned turnId (.error error)))
  | .error _ => ⟨w.saved, .lost, w.log⟩

def step (s : State) : Input → Option State
  | .lost => some { s with memory := .lost }
  | .restart => match s.memory, s.saved with
    | .lost, some kept => some { s with memory := .loaded kept }
    | _, _ => none
  | .resume failure => s.memory.kept?.map fun kept =>
    match failure with
    | none =>
      let w := (World.mk s.saved kept s.log).recover.save
      ⟨w.saved, .live w.kept, w.log⟩
    | some _ => s
  | .persist => s.memory.kept?.map fun kept => { s with saved := some kept }
  | .configure model contextWindow => match s.memory with
    | .live kept => some { s with memory := .live { kept with
        session := { kept.session with model := model, contextWindow := contextWindow } } }
    | _ => none
  | .deliver R turnId prompt attachments replies => s.memory.kept?.map fun kept =>
    let (result, w, _) := runTurn R turnId prompt attachments ⟨s.saved, kept, s.log⟩ replies
    s.delivered turnId result w
  | .compact R id replies => match s.memory with
    | .live kept =>
      let (result, w, _) := Agent.compact R id id .manual ⟨s.saved, kept, s.log⟩ replies
      some (s.finished result w)
    | _ => none

end State

/-- The runtime with a session, as a transition system. -/
def system : Transition.System State Input where
  next s i s' := s.step i = some s'

end Nakode.Agent
