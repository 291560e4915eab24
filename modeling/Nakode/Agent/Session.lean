import Nakode.Lib.Exchange
import Nakode.Lib.Table
import Nakode.Lib.Text

/-!
# Native sessions

A native session (`RuntimeSession`) is the conversation that Nakode keeps itself: the live history
that a provider is sent, the parts of it that compactions have put away, and which turns are
pending, interrupted or completed. After a loss a session is what its last checkpoint holds, and
`recoverInterruptedTurn` settles the tool calls that have no result as unknown.
-/

namespace Nakode.Agent

open Relational (Table)
open Text (Json)

/-! ## Conversations -/

structure PromptImage where
  mimeType : String
  data : List UInt8

structure PromptAttachment where
  label : String
  path : Option String := none
  image : Option PromptImage := none

structure ToolCall where
  id : String
  parentCallId : Option String := none
  name : String
  arguments : Json

structure AssistantMessage where
  text : String
  reasoning : String
  toolCalls : List ToolCall
  providerId : Option String
  modelId : Option String
  signature : Option String
  providerState : List Json

structure ToolResultItem where
  callId : String
  name : Option String
  arguments : Option Json
  auditKind : Option String
  title : Option String
  output : String
  modelOutput : Option String
  failed : Bool
  denied : Bool
  denialReason : Option String
  durationMs : Option Nat
  /-- Images the tool returned for the model to see. -/
  images : List PromptAttachment

inductive CompactionReason where
  | manual
  | proactive
  | contextOverflow
  deriving DecidableEq, Repr

structure CompactionEvent where
  id : String
  turnId : String
  reason : CompactionReason
  estimatedTokensBefore : Nat
  estimatedTokensAfter : Option Nat
  error : Option String

inductive ConversationItem where
  | user (text : String) (attachments : List PromptAttachment)
  | assistant (message : AssistantMessage)
  | toolResult (result : ToolResultItem)
  | compaction (summary : String)
  | compactionEvent (event : CompactionEvent)

namespace ConversationItem

/-- The calls of an assistant message are answered by tool results. -/
def role : ConversationItem → Exchange.Role String
  | .assistant message => .ask (message.toolCalls.map (·.id))
  | .toolResult result => .reply result.callId
  | _ => .plain

def callId? : ConversationItem → Option String
  | .toolResult result => some result.callId
  | _ => none

def toolCalls : ConversationItem → List ToolCall
  | .assistant message => message.toolCalls
  | _ => []

def isCompaction : ConversationItem → Bool
  | .compaction _ => true
  | _ => false

end ConversationItem

/-! ## Sessions -/

structure RuntimeCompaction where
  summary : String
  estimatedTokensBefore : Nat
  compactedHistory : List ConversationItem
  readFiles : List String
  modifiedFiles : List String

structure InferenceUsage where
  inputTokens : Option Nat := none
  outputTokens : Option Nat := none
  cachedInputTokens : Option Nat := none
  cacheWriteTokens : Option Nat := none

inductive InferenceKind where
  | turn
  | compaction

structure InferenceMetric where
  kind : InferenceKind
  turnId : String
  round : Nat
  startedAtMs : Nat
  durationMs : Nat
  estimatedInputTokens : Nat
  inputBytes : Nat
  outputBytes : Nat
  toolCallCount : Nat
  retryCount : Nat
  usage : InferenceUsage
  responseId : Option String
  error : Option String

structure ToolMetric where
  turnId : String
  callId : String
  name : String
  startedAtMs : Nat
  durationMs : Nat
  outputBytes : Nat
  modelOutputBytes : Nat
  failed : Bool

structure RuntimeTelemetry where
  inference : List InferenceMetric := []
  tools : List ToolMetric := []

structure InterruptedRuntimeTurn where
  id : String
  historyPosition : Nat
  deriving DecidableEq, Repr

inductive TurnOutcome where
  | completed
  | interrupted
  | failed
  deriving DecidableEq, Repr

structure ModelOptions where
  reasoningEffort : Option String
  fastMode : Bool

structure PersistedTurnConfiguration where
  id : String
  model : Option String
  options : ModelOptions
  outcome : TurnOutcome

structure ReturnedImage where
  id : String
  turnId : String
  providerId : String
  modelId : String
  attachment : PromptAttachment
  moreAttachments : List PromptAttachment
  historyIndex : Nat
  sequence : Nat

structure RuntimeSession where
  id : String
  providerId : String
  model : String
  instructions : String
  history : List ConversationItem
  contextWindow : Option Nat
  compactions : List RuntimeCompaction
  telemetry : RuntimeTelemetry
  reasoningEffort : Option String
  fastMode : Bool
  pendingTurn : Option String
  interruptedTurns : List InterruptedRuntimeTurn
  completedTurns : List String
  checkpointedTurn : Option PersistedTurnConfiguration
  /-- By the id of the call that returned them. -/
  returnedImages : Table String ReturnedImage

namespace RuntimeSession

/-- A session without history. -/
def new (id providerId model instructions : String) : RuntimeSession where
  id := id
  providerId := providerId
  model := model
  instructions := instructions
  history := []
  contextWindow := none
  compactions := []
  telemetry := {}
  reasoningEffort := none
  fastMode := false
  pendingTurn := none
  interruptedTurns := []
  completedTurns := []
  checkpointedTurn := none
  returnedImages := ∅

/-- The whole conversation, with what compactions have put away. -/
def historyItems (session : RuntimeSession) : List ConversationItem :=
  (session.compactions.flatMap (·.compactedHistory) ++ session.history).filter (!·.isCompaction)

def historyPosition (session : RuntimeSession) : Nat := session.historyItems.length

def push (session : RuntimeSession) (item : ConversationItem) : RuntimeSession :=
  { session with history := session.history ++ [item] }

/-- The ids of the results in the live history. -/
def settled (session : RuntimeSession) : List String :=
  session.history.filterMap (·.callId?)

/-- The calls in the live history whose id is that of no result. -/
def unsettled (session : RuntimeSession) : List ToolCall :=
  (session.history.flatMap (·.toolCalls)).filter fun call => !session.settled.contains call.id

end RuntimeSession

def unknownOutcomeOutput : String :=
  "Execution was interrupted before a durable result was recorded. The operation may have happened. "
    ++ "Verify its effects before deciding whether to try again; it was not automatically replayed."

def unknownOutcome (call : ToolCall) : ToolResultItem where
  callId := call.id
  name := some call.name
  arguments := some call.arguments
  auditKind := some "native"
  title := some "Interrupted tool · outcome unknown"
  output := unknownOutcomeOutput
  modelOutput := none
  failed := true
  denied := false
  denialReason := none
  durationMs := none
  images := []

/-- Settles unknown tool outcomes as unknown, never by re-executing the call. -/
def RuntimeSession.recoverInterruptedTurn (session : RuntimeSession) : RuntimeSession :=
  match session.pendingTurn with
  | none => session
  | some turnId =>
    let settled : RuntimeSession := { session with
      pendingTurn := none
      history := session.history
        ++ session.unsettled.map fun call => ConversationItem.toolResult (unknownOutcome call) }
    { settled with
      interruptedTurns := settled.interruptedTurns ++ [⟨turnId, settled.historyPosition⟩] }

/-! ## Size estimates -/

/-- `usize::div_ceil`. -/
def divCeil (n d : Nat) : Nat := (n + (d - 1)) / d

namespace ConversationItem

def textBytes : ConversationItem → Nat
  | .user text _ => Text.len text
  | .assistant message => Text.len message.text + Text.len message.reasoning
      + (message.toolCalls.map fun call => Text.len call.name + Text.len call.arguments.render).sum
      + (message.providerState.map fun state => Text.len state.render).sum
  | .toolResult result => Text.len (result.modelOutput.getD result.output)
  | .compaction summary => Text.len summary
  | .compactionEvent _ => 0

/-- The images that an item carries. -/
def images : ConversationItem → List PromptImage
  | .user _ attachments => attachments.filterMap (·.image)
  | .toolResult result => result.images.filterMap (·.image)
  | _ => []

def imageBytes (item : ConversationItem) : Nat := (item.images.map (·.data.length)).sum

end ConversationItem

/-- How many tokens an image takes for a provider's model. -/
abbrev ImageTokens := PromptImage → String → String → Nat

namespace RuntimeSession

def itemImageTokens (tokens : ImageTokens) (provider model : String) (item : ConversationItem) :
    Nat :=
  (item.images.map fun image => tokens image provider model).sum

def itemTokens (tokens : ImageTokens) (provider model : String) (item : ConversationItem) : Nat :=
  divCeil item.textBytes 4 + itemImageTokens tokens provider model item

def estimatedContextTokens (tokens : ImageTokens) (session : RuntimeSession) : Nat :=
  divCeil (Text.len session.instructions + (session.history.map (·.textBytes)).sum) 4
    + (session.history.map (itemImageTokens tokens session.providerId session.model)).sum

def estimatedContextBytes (session : RuntimeSession) : Nat :=
  (session.history.map fun item => item.textBytes + item.imageBytes).sum
    + Text.len session.instructions

/-- `COMPACTION_RESERVE_TOKENS`. -/
def compactionReserveTokens : Nat := 32768

/-- `COMPACTION_KEEP_RECENT_TOKENS`. -/
def compactionKeepRecentTokens : Nat := 20000

def shouldCompact (tokens : ImageTokens) (session : RuntimeSession) (thresholdPercent : Nat) : Bool :=
  session.contextWindow.any fun contextWindow =>
    session.estimatedContextTokens tokens
      > min (contextWindow * thresholdPercent / 100) (contextWindow - compactionReserveTokens)

def exceedsSafeRequestBudget (tokens : ImageTokens) (session : RuntimeSession) : Bool :=
  session.contextWindow.any fun contextWindow =>
    session.estimatedContextTokens tokens > contextWindow - compactionReserveTokens

end RuntimeSession

end Nakode.Agent
