import Nakode.Agent.Compaction
import Nakode.Lib.Process

/-!
# Inference

What a provider is asked (`InferenceRequest`) and what it answers, and the computations of the
runtime (`Native`): they work on a session, its last checkpoint and a log of what left the process,
and wherever they wait or ask something the environment gives a `Reply`, of which each point reads
what it asked for. A turn may be stopped by its time limit where it waits, and the process may be
lost at any point; then the checkpoint is left.
-/

namespace Nakode.Agent

open Text (Json)
open Process Process.Proc

/-! ## Requests -/

structure InferenceRequest where
  sessionId : String
  model : String
  instructions : String
  history : List ConversationItem
  tools : List ToolDefinition
  reasoningEffort : Option String
  fastMode : Bool

structure InferenceOutput where
  text : String := ""
  reasoning : String := ""
  toolCalls : List ToolCall := []
  responseId : Option String := none
  signature : Option String := none
  providerState : List Json := []
  usage : InferenceUsage := {}
  retryCount : Nat := 0

structure InferenceFailure where
  message : String
  retryCount : Nat := 0
  /-- The provider's failure has a classification, so that it is reported. -/
  classified : Bool := false

def inferenceOutputBytes (output : InferenceOutput) : Nat :=
  Text.len output.text + Text.len output.reasoning
    + (output.toolCalls.map fun call => Text.len call.name + Text.len call.arguments.render).sum
    + (output.providerState.map fun state => Text.len state.render).sum

def truncateTelemetryError (error : String) : String :=
  if error.length ≤ 1000 then error else Text.take 1000 error ++ "… [truncated]"

def toolImagesMessage (sources : List String) (images : List PromptAttachment) : ConversationItem :=
  .user ("Images returned by the tool results above, in order: " ++ ", ".intercalate sources ++ ".")
    images

/-- The message with the images of a run of tool results, if they have any. -/
def toolImages (sources : List String) (images : List PromptAttachment) : List ConversationItem :=
  if images.isEmpty then [] else [toolImagesMessage sources images]

/-- The history a provider sees from an item on, after tool results with these images. -/
def modelHistoryFrom (sources : List String) (images : List PromptAttachment) :
    List ConversationItem → List ConversationItem
  | [] => toolImages sources images
  | .toolResult result :: rest =>
    let source := result.name.getD "tool" ++ " call " ++ result.callId ++ " ("
      ++ toString result.images.length ++ " images)"
    .toolResult { result with images := [] }
      :: modelHistoryFrom (if result.images.isEmpty then sources else sources ++ [source])
        (images ++ result.images) rest
  | item :: rest => toolImages sources images ++ item :: modelHistoryFrom [] [] rest

/-- The history a provider sees. The images of a run of tool results follow it as one user
message. -/
def modelHistory (history : List ConversationItem) : List ConversationItem :=
  modelHistoryFrom [] [] history

def lowercase (s : String) : String := String.ofList (s.toList.map Char.toLower)

/-- `str::contains`. -/
def containsText (s pattern : String) : Bool :=
  s.toList.tails.any fun tail => pattern.toList.isPrefixOf tail

def isContextOverflow (message : String) : Bool :=
  let message := lowercase message
  if containsText message "rate limit" || containsText message "too many requests" then false
  else ["context_length_exceeded", "context length exceeded", "context window exceeds",
    "exceeds the context window", "maximum context length", "prompt is too long",
    "input is too long", "too many tokens", "token limit exceeded", "request_too_large"].any
      (containsText message)

/-! ## What leaves the process -/

/-- Which call something is executed for: the position that its result has in the conversation, and
for a call of a program, whose result has none, its number in the program. -/
structure Slot where
  position : Nat
  sequence : Option Nat := none
  deriving DecidableEq, Repr

/-- Where a turn executes something: in which of its inference rounds, and for which call. -/
structure Site where
  turnId : String
  round : Nat
  slot : Slot
  deriving DecidableEq, Repr

inductive TurnError where
  | interrupted
  | failed (message : String)
  deriving DecidableEq, Repr

/-- What is logged. A recovery and returned images come with the session they met. -/
inductive Effect where
  | inference (turnId : String) (round : Nat) (request : InferenceRequest)
  | compaction (request : InferenceRequest)
  /-- A builtin tool or a program is executed. -/
  | execute (site : Site) (toolCall : ToolCall)
  /-- A client is asked to execute an external tool. -/
  | request (site : Site) (toolCall : ToolCall)
  /-- What was executed has ended. -/
  | finished (site : Site) (result : ToolResult)
  /-- A call of a message, or of a program, has its result. -/
  | answered (site : Site) (toolCall : ToolCall) (result : ToolResultItem)
  /-- The open calls of a session were settled. -/
  | recovered (session : RuntimeSession)
  /-- A call of a session has returned images. -/
  | retained (session : RuntimeSession) (callId : String)
  | returned (turnId : String) (result : Except TurnError Unit)

/-- A session, and for statements the turns whose prompt was appended to it. -/
structure Kept where
  session : RuntimeSession
  prompts : List String

/-- A session that is worked on, its last checkpoint, and what has left the process. -/
structure World where
  saved : Option Kept
  kept : Kept
  log : List Effect

namespace World

/-- The session is changed. -/
def update (w : World) (f : RuntimeSession → RuntimeSession) : World :=
  { w with kept := { w.kept with session := f w.kept.session } }

def push (w : World) (item : ConversationItem) : World := w.update (·.push item)

def emit (w : World) (effect : Effect) : World := { w with log := w.log ++ [effect] }

def save (w : World) : World := { w with saved := some w.kept }

/-- `recover_interrupted_turn`, which is logged when a turn is pending. -/
def recover (w : World) : World :=
  if w.kept.session.pendingTurn.isNone then w
  else (w.emit (.recovered w.kept.session)).update (·.recoverInterruptedTurn)

end World

/-! ## The environment -/

/-- What the environment says at one point. -/
structure Reply where
  /-- The time of the turn is up. -/
  timedOut : Bool := false
  /-- A program is interrupted or its time is up. -/
  cut : Option ToolResult := none
  /-- An event was received. -/
  received : Bool := true
  /-- What was asked for has failed. -/
  failure : Option String := none
  cancelled : Bool := false
  clock : Clock := ⟨0, 0⟩
  uuid : String := ""
  description : Except String String := .ok ""
  inference : Except InferenceFailure InferenceOutput := .ok {}
  result : ToolResult := .success ""
  /-- The images that a tool attached to the transcript. -/
  returned : Option (PromptAttachment × List PromptAttachment) := none
  /-- The images of an external tool's result. -/
  images : List PromptImage := []
  /-- A message of a program, or what its end without one is. -/
  frame : Except ToolResult Json := .ok .null
  /-- Which of several calls goes on. -/
  index : Nat := 0

/-- Why a computation stops. -/
inductive Stop where
  /-- The process was lost. -/
  | lost
  | timedOut
  | cut (failure : ToolResult)
  | failed (error : TurnError)

abbrev Native (α : Type) : Type := Proc Reply World Stop α

namespace Native

/-- The environment is asked. -/
def consult : Native Reply := next .lost

/-- The environment is asked, and the computation may be stopped meanwhile. -/
def wait : Native Reply :=
  consult >>= fun reply =>
    if reply.timedOut then throw .timedOut
    else match reply.cut with
      | some failure => throw (.cut failure)
      | none => pure reply

def fail {α : Type} (message : String) : Native α := throw (.failed (.failed message))

/-- Something that may fail without that mattering was waited for. -/
def waited : Native Unit := wait >>= fun _ => pure ()

/-- The failure that was answered, if one was. -/
def check (failure : Option String) : Native Unit :=
  match failure with
  | some message => fail message
  | none => pure ()

/-- An event is sent. -/
def send (closed : String := "backend event receiver closed") : Native Unit :=
  wait >>= fun reply => Proc.when (reply.received = false) (fail closed)

def emit (effect : Effect) : Native Unit := modify (·.emit effect)

def checkpoint : Native Unit := do
  let reply ← consult
  check reply.failure
  modify (·.save)

/-- The value, or the text of the failure. -/
def result {α : Type} (m : Native α) : Native (Except String α) :=
  attempt m >>= fun
    | .ok a => pure (.ok a)
    | .error (.failed (.failed message)) => pure (.error message)
    | .error stop => throw stop

/-- The value, or what the computation was cut with. -/
def guarded {α : Type} (m : Native α) : Native (Except ToolResult α) :=
  attempt m >>= fun
    | .ok a => pure (.ok a)
    | .error (.cut failure) => pure (.error failure)
    | .error stop => throw stop

end Native

open Native

/-! ## One inference -/

namespace RuntimeSession

def pushInference (session : RuntimeSession) (metric : InferenceMetric) : RuntimeSession :=
  { session with telemetry := { session.telemetry with
    inference := session.telemetry.inference ++ [metric] } }

def pushTool (session : RuntimeSession) (metric : ToolMetric) : RuntimeSession :=
  { session with telemetry := { session.telemetry with
    tools := session.telemetry.tools ++ [metric] } }

def inferenceRequest (session : RuntimeSession) (tools : List ToolDefinition) : InferenceRequest where
  sessionId := session.id
  model := session.model
  instructions := session.instructions
  history := modelHistory session.history
  tools := tools
  reasoningEffort := session.reasoningEffort
  fastMode := session.fastMode

end RuntimeSession

def inferenceMetric (kind : InferenceKind) (turnId : String) (round estimatedInputTokens inputBytes
    toolCallCount : Nat) (clock : Clock) (result : Except InferenceFailure InferenceOutput) :
    InferenceMetric where
  kind := kind
  turnId := turnId
  round := round
  startedAtMs := clock.startedAtMs
  durationMs := clock.durationMs
  estimatedInputTokens := estimatedInputTokens
  inputBytes := inputBytes
  outputBytes := result.toOption.elim 0 inferenceOutputBytes
  toolCallCount := toolCallCount
  retryCount := match result with
    | .ok output => output.retryCount
    | .error failure => failure.retryCount
  usage := result.toOption.elim {} (·.usage)
  responseId := result.toOption.bind (·.responseId)
  error := match result with
    | .ok _ => none
    | .error failure => some (truncateTelemetryError failure.message)

def reportProviderFailure (result : Except InferenceFailure InferenceOutput) : Native Unit :=
  match result with
  | .error ⟨_, _, true⟩ => send
  | _ => pure ()

variable (R : AgentRuntime)

def inferOnce (turnId : String) (round : Nat) (toolsAllowed : Bool) :
    Native (Except String InferenceOutput) := do
  let w ← Proc.get
  let session := w.kept.session
  emit (.inference turnId round
    (session.inferenceRequest (if toolsAllowed then R.inferenceTools else [])))
  let reply ← wait
  Proc.when (reply.received = false) (fail "backend event receiver closed")
  check (reply.failure.map ("inference task failed: " ++ ·))
  reportProviderFailure reply.inference
  modify (·.update (·.pushInference (inferenceMetric .turn turnId round
    (session.estimatedContextTokens R.imageTokens) session.estimatedContextBytes
    (reply.inference.toOption.elim 0 (·.toolCalls.length)) reply.clock reply.inference)))
  pure (reply.inference.mapError (·.message))

/-! ## Compaction -/

def compactHistory : Native Unit := do
  let w ← Proc.get
  let session := w.kept.session
  match compactionCutIndex R.imageTokens session.history session.providerId session.model with
  | none => fail "not enough completed context is available to compact"
  | some cut =>
    let (prompt, readFiles, modifiedFiles) :=
      prepareCompactionPrompt (session.history.take cut) session.compactions.getLast?
    let inputBytes := Text.len prompt + Text.len compactionInstructions
    emit (.compaction
      { sessionId := session.id ++ "-compact-" ++ toString (session.compactions.length + 1)
        model := session.model
        instructions := compactionInstructions
        history := [.user prompt []]
        tools := []
        reasoningEffort := session.reasoningEffort
        fastMode := session.fastMode })
    let reply ← wait
    reportProviderFailure reply.inference
    check (reply.failure.map ("compaction event task failed: " ++ ·))
    modify (·.update (·.pushInference (inferenceMetric .compaction
      ("compaction:" ++ toString (session.compactions.length + 1)) session.compactions.length
      (divCeil inputBytes 4) inputBytes 0 reply.clock reply.inference)))
    match reply.inference with
    | .error failure => fail failure.message
    | .ok output =>
      if !output.toolCalls.isEmpty then fail "provider attempted to call a tool during compaction"
      else if Text.trim output.text = "" then fail "provider returned an empty compaction summary"
      else modify (·.update (·.compacted cut (session.estimatedContextTokens R.imageTokens)
        (Text.trim output.text) readFiles modifiedFiles))

def compact (turnId compactionId : String) (reason : CompactionReason) : Native Unit := do
  let before ← Proc.get
  send
  let result ← result (compactHistory R)
  modify fun w => w.push (.compactionEvent
    { id := compactionId
      turnId := turnId
      reason := reason
      estimatedTokensBefore := before.kept.session.estimatedContextTokens R.imageTokens
      estimatedTokensAfter := result.toOption.map fun _ =>
        w.kept.session.estimatedContextTokens R.imageTokens
      error := match result with
        | .ok _ => none
        | .error message => some message })
  send
  send
  check (match result with
    | .ok _ => none
    | .error message => some message)

end Nakode.Agent
