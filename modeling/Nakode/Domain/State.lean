import Nakode.Lib.Text

/-!
# The state of one session's engine

`DomainState` is what the reducer keeps for a session: the provider it talks to, the turn in
progress, the places a prompt can be in, and the interactions that wait for an owner. The fields
are those that deciding what to do next reads; texts for display, options of a model, handoffs
between providers and the rest of the transcript are left out.
-/

namespace Nakode.Domain

/-- Puts an element in the place of the one with its key, or at the end. -/
def upsert {α κ : Type} [DecidableEq κ] (key : α → κ) (x : α) (xs : List α) : List α :=
  if xs.any (key · == key x) then xs.map fun y => if key y == key x then x else y else xs ++ [x]

/-! ## Prompts -/

structure PromptAttachment where
  label : String
  path : Option String
  image : Option String
  deriving DecidableEq, Repr

structure QueuedPrompt where
  /-- Native guidance was dispatched but has not been durably acknowledged. -/
  deliveryUncertain : Bool
  id : String
  text : String
  attachments : List PromptAttachment
  sourceTransport : Option String
  deriving DecidableEq, Repr

/-- A prompt that the server definitively failed to start. -/
structure RecoverablePrompt where
  id : String
  text : String
  attachments : List PromptAttachment
  deriving DecidableEq, Repr

structure OutgoingPrompt where
  id : String
  text : String
  model : Option String
  resolvedModel : Option String
  attachments : List PromptAttachment
  sourceTransport : Option String
  deriving DecidableEq, Repr

structure PersistedOwnerPrompt where
  promptId : String
  rawText : String
  sourceTransport : Option String
  dispatchPending : Bool
  deriving DecidableEq, Repr

/-- The transcript row `user:{promptId}` of an owner prompt. -/
structure UserRow where
  promptId : String
  body : String
  localFiles : List (String × String)
  images : List (String × String)
  deriving DecidableEq, Repr

/-! ## Turns -/

structure ActiveTurn where
  id : String
  model : Option String
  cancelling : Bool
  deriving DecidableEq, Repr

inductive TurnOutcome
  | completed
  | interrupted
  | failed
  deriving DecidableEq, Repr

structure LastTurn where
  id : String
  model : Option String
  outcome : TurnOutcome
  deriving DecidableEq, Repr

structure QueuedSteerOrigin where
  promptId : String
  deriving DecidableEq, Repr

structure PendingSteer where
  id : String
  text : String
  turnId : String
  queuedOrigin : Option QueuedSteerOrigin
  deriving DecidableEq, Repr

structure PendingRedirect where
  promptId : String
  deriving DecidableEq, Repr

structure RedirectStart where
  prompt : QueuedPrompt
  predecessorIds : List String
  successorIds : List String
  deriving DecidableEq, Repr

inductive CompactionReason
  | manual
  | proactive
  | contextOverflow
  deriving DecidableEq, Repr

structure ContextCompactionState where
  id : String
  turnId : String
  reason : CompactionReason
  estimatedTokens : Nat
  contextWindow : Option Nat
  deriving DecidableEq, Repr

/-! ## Interactions -/

structure ApprovalRequest where
  id : String
  title : String
  detail : String
  deriving DecidableEq, Repr

structure QuestionRequest where
  id : String
  groupId : String
  order : Nat
  title : String
  question : String
  multi : Bool
  deriving DecidableEq, Repr

structure ExternalToolRequest where
  id : String
  name : String
  argumentsJson : String
  deriving DecidableEq, Repr

/-! ## Providers -/

inductive ConnectionState
  | starting
  | ready (server : String)
  | failed (message : String)
  | disconnected (reason : String)
  deriving DecidableEq, Repr

def ConnectionState.isReady : ConnectionState → Bool
  | .ready _ => true
  | _ => false

structure BackendCapabilities where
  modelCatalog : Bool
  steering : Bool
  interruption : Bool
  resume : Bool
  externalTools : Bool
  contextCompaction : Bool
  deriving DecidableEq, Repr

structure ProviderContext where
  name : String
  capabilities : BackendCapabilities
  connection : ConnectionState
  providerSessionId : Option String
  sessionId : Option String
  deriving DecidableEq, Repr

structure ModelInfo where
  provider : String
  id : String
  /-- `model_supports_options`. -/
  supportsOptions : Bool
  deriving DecidableEq, Repr

def ModelInfo.qualifiedId (model : ModelInfo) : String := model.provider ++ "/" ++ model.id

/-! ## The persisted session -/

def pendingProviderSessionPrefix : String := "nakode:pending-session:"

def pendingProviderSessionId (sessionId : String) : String :=
  pendingProviderSessionPrefix ++ sessionId

def isPendingProviderSessionId (providerSessionId : String) : Bool :=
  Text.startsWith providerSessionId pendingProviderSessionPrefix

structure SessionRecord where
  id : String
  provider : String
  providerSessionId : String
  title : String
  model : Option String
  lastTurn : Option LastTurn
  ownerTurns : List LastTurn
  ownerPrompts : List PersistedOwnerPrompt
  queuedPrompts : List QueuedPrompt
  deriving DecidableEq, Repr

/-! ## The engine -/

structure DomainState where
  connection : ConnectionState
  backendProvider : String
  backendName : String
  backendCapabilities : BackendCapabilities
  providerContexts : List (String × ProviderContext)
  models : List ModelInfo
  selectedModel : Option String
  externalTools : List String
  mcpTools : List String
  /-- The names of the installed skills. -/
  skills : List String
  providerSessionId : Option String
  sessionId : Option String
  nakodeSessionId : String
  creationTitle : Option String
  creatingSession : Bool
  resumingSession : Option SessionRecord
  pendingSessionPrompt : Option OutgoingPrompt
  startingTurn : Option OutgoingPrompt
  activeTurn : Option ActiveTurn
  contextCompaction : Option ContextCompactionState
  activeShells : List String
  /-- The delegated runs that are starting or working. -/
  runningSubagents : List String
  queue : List QueuedPrompt
  replayBlockedPrompt : Option QueuedPrompt
  recoverablePrompt : Option RecoverablePrompt
  pendingSteer : Option PendingSteer
  pendingRedirect : Option PendingRedirect
  redirectStart : Option RedirectStart
  deferResumeQueue : Bool
  approvals : List ApprovalRequest
  questions : List QuestionRequest
  externalToolCalls : List ExternalToolRequest
  turnProgress : Option (String × String)
  itemTurns : List (String × String)
  lastTurn : Option LastTurn
  ownerTurns : List (String × LastTurn)
  ownerPrompts : List PersistedOwnerPrompt
  userRows : List UserRow

/-! ## Effects -/

inductive BackendCommand
  | startSession (model : Option String) (ownerSessionId : Option String)
  | resumeSession (providerSessionId : String) (ownerSessionId : Option String)
  | unsubscribeSession (providerSessionId : String)
  | setSessionOptions (providerSessionId : String)
  | compactSession (providerSessionId compactionId : String)
  | startTurn (providerSessionId clientId prompt : String) (attachments : List PromptAttachment)
      (model : Option String)
  | steerTurn (providerSessionId turnId clientId prompt : String)
  | interruptTurn (providerSessionId turnId : String)
  deriving DecidableEq, Repr

inductive Effect
  | backend (command : BackendCommand)
  | persistSession (provider providerSessionId title : String) (model : Option String)
  | transitionSessionPrimary (sessionId provider providerSessionId : String)
      (model : Option String)
  | persistAcceptedOwnerPrompt (sessionId : String) (prompt : PersistedOwnerPrompt)
  | acknowledgeOwnerPromptDispatch (sessionId promptId : String)
  | updateSessionLastTurn (sessionId : String) (turn : LastTurn)
  | touchSession (sessionId : String)
  | recordOwnerActivity (sessionId : String)
  | loadSubagents (sessionId : String)
  | runShell (id command : String)
  deriving DecidableEq, Repr

inductive DomainCommandError
  | invalid (message : String)
  | conflict (message : String)
  | notFound (resource : String)
  | unsupported (message : String)
  deriving DecidableEq, Repr

namespace DomainState

variable (s : DomainState)

/-! ## What the engine is doing -/

def hasRunningSubagents : Bool := !s.runningSubagents.isEmpty

def hasActiveWork : Bool :=
  s.creatingSession || s.resumingSession.isSome || s.startingTurn.isSome || s.activeTurn.isSome ||
    s.contextCompaction.isSome || !s.activeShells.isEmpty || s.hasRunningSubagents

def isBusy : Bool := s.replayBlockedPrompt.isSome || s.hasActiveWork

def turnIsCurrent (turnId : String) : Bool := s.activeTurn.any (·.id == turnId)

/-- The name of the boundary that a provider without external tools cannot keep, when there is
one. -/
def toolBoundary : Option String :=
  if (!s.externalTools.isEmpty || !s.mcpTools.isEmpty) && !s.backendCapabilities.externalTools then
    some (if s.mcpTools.isEmpty then "externally executed tools" else "granted Nakode MCP tools")
  else
    none

def selectedModelForActiveProvider : Option String :=
  s.selectedModel.bind fun qualified =>
    (s.models.find? fun model =>
      model.provider == s.backendProvider && model.qualifiedId == qualified).map (·.id)

def qualifyActiveModel (model : String) : String :=
  if model.toList.contains '/' then model else s.backendProvider ++ "/" ++ model

/-- Whether the selected model is known and has options to set. -/
def selectedModelSupportsOptions : Bool :=
  (s.selectedModel.bind fun selected =>
    s.models.find? fun model => model.qualifiedId == selected).any (·.supportsOptions)

/-! ## The texts of prompts -/

/-- The name that follows each `/skill:` in a prompt, in order. `skip` characters are passed over
first. -/
def referencedSkillNames (skip : Nat) : List Char → List String
  | [] => []
  | c :: cs =>
    match skip with
    | skip + 1 => referencedSkillNames skip cs
    | 0 =>
      if "/skill:".toList.isPrefixOf (c :: cs) then
        let name := ((c :: cs).drop 7).takeWhile fun b =>
          ('a' ≤ b && b ≤ 'z') || ('0' ≤ b && b ≤ '9') || b == '-'
        let rest := referencedSkillNames (6 + max name.length 1) cs
        if name.isEmpty then rest else String.ofList name :: rest
      else
        referencedSkillNames 0 cs

def validatePrompt (text : String) (hasAttachments : Bool) : Except DomainCommandError Unit :=
  if (Text.trim text).isEmpty && !hasAttachments then
    .error (.invalid "prompt cannot be empty")
  else
    match (referencedSkillNames 0 text.toList).find? fun name => !s.skills.contains name with
    | some name => .error (.invalid ("unknown skill /skill:" ++ name))
    | none => .ok ()

def validatePromptOperationId (promptId : String) : Except DomainCommandError Unit :=
  if promptId.isEmpty || Text.len promptId > 128 then
    .error (.invalid "prompt operation id must contain 1 to 128 bytes")
  else
    .ok ()

end DomainState

end Nakode.Domain
