import Nakode.Agent.Session
import Nakode.Lib.Utf8

/-!
# Tools

The tools of a native session: the builtin ones of its registry and the external ones that a client
executes, the list of them that a provider is shown (`inferenceTools`), what decides whether a call
is executed (`builtinTool`, `nestedRefusal`), and in which order the calls of a message are
(`schedule`). What a tool itself does is not modelled; it is what the environment answers.
-/

namespace Nakode.Agent

open Text (Json)

/-- A field of an object. -/
def field? : Json → String → Option Json
  | .obj fields, key => (fields.find? (·.1 == key)).map (·.2)
  | _, _ => none

def asStr? : Json → Option String
  | .str s => some s
  | _ => none

/-! ## The registry -/

inductive ToolConcurrency where
  | readOnly
  | exclusive
  deriving DecidableEq, Repr

structure ToolDefinition where
  name : String
  description : String
  parameters : Json

structure ToolResult where
  output : String
  failed : Bool
  invocationIdentity : Option String := none

def ToolResult.success (output : String) : ToolResult := ⟨output, false, none⟩

def ToolResult.failure (output : String) : ToolResult := ⟨output, true, none⟩

structure Tool where
  definition : ToolDefinition
  summarize : Json → String
  prepareAndValidate : Json → Except String Json
  available : Bool
  concurrency : ToolConcurrency

structure ToolRegistry where
  tools : List Tool
  names : (tools.map (·.definition.name)).Nodup

namespace ToolRegistry

def definitions (registry : ToolRegistry) : List ToolDefinition :=
  (registry.tools.filter (·.available)).map (·.definition)

def find? (registry : ToolRegistry) (name : String) : Option Tool :=
  registry.tools.find? (·.definition.name == name)

/-- A tool that can be used now. -/
def findAvailable? (registry : ToolRegistry) (name : String) : Option Tool :=
  (registry.find? name).filter (·.available)

end ToolRegistry

/-! ## What a session may use -/

structure ExternalToolConfiguration where
  tools : List ToolDefinition := []
  replaceBuiltinTools : Bool := false
  codeMode : Bool := false
  allowedBuiltinTools : Option (List String) := none
  maxTurns : Option Nat := none
  finalizationReserveTurns : Nat := 0
  timeoutSeconds : Option Nat := none

/-- The runtime as one session sees it. -/
structure AgentRuntime where
  tools : ToolRegistry
  compactionThresholdPercent : Nat
  directImageInput : Bool
  visionEnabled : Bool
  /-- The vision add-on has a provider. -/
  vision : Bool
  imageTokens : ImageTokens
  /-- What the session was configured with, if it was. -/
  externalTools : Option ExternalToolConfiguration

/-- `codemode_worker::MAX_SOURCE_BYTES`. -/
def maxSourceBytes : Nat := 32 * 1024

/-- `codemode_worker::MAX_TOOL_CALLS`. -/
def maxToolCalls : Nat := 64

def codeModeDefinition (tools : List ToolDefinition) : ToolDefinition :=
  let catalogue := "\n".intercalate <| tools.map fun tool =>
    "- tools[" ++ Text.quote tool.name ++ "](" ++ tool.parameters.render ++ ") — "
      ++ tool.description
  { name := "codemode"
    description :=
      "Run one confined JavaScript program that composes Nakode tools. This is the only "
      ++ "model-facing tool in this session. Use `await tools[\"tool_name\"](arguments)` (or dot "
      ++ "notation for identifier-safe names), filter intermediate results in code, and return one "
      ++ "JSON-compatible final value. Calls execute eagerly and currently settle in source order. "
      ++ "No filesystem, network, process, environment, timers, modules, or credentials are "
      ++ "available except through the listed tools. Every nested call is independently "
      ++ "policy-checked and audited.\n\nAvailable tools:\n" ++ catalogue
    parameters := .obj [("additionalProperties", .bool false),
      ("properties", .obj [("code", .obj [
        ("description", .str "JavaScript function body. Return one JSON-compatible value."),
        ("maxLength", .int maxSourceBytes), ("type", .str "string")])]),
      ("required", .arr [.str "code"]), ("type", .str "object")] }

theorem name_codeModeDefinition (tools : List ToolDefinition) :
    (codeModeDefinition tools).name = "codemode" := rfl

namespace AgentRuntime

variable (R : AgentRuntime)

def underlyingTools (external : ExternalToolConfiguration) : List ToolDefinition :=
  (if external.replaceBuiltinTools then []
    else R.tools.definitions.filter fun tool =>
      external.allowedBuiltinTools.all (·.contains tool.name))
    ++ external.tools

/-- The tools that a provider is shown. -/
def inferenceTools : List ToolDefinition :=
  let external := R.externalTools.getD {}
  let tools := R.underlyingTools external
  if external.codeMode then [codeModeDefinition tools] else tools

/-- The tools that a program may call, in code mode. -/
def codeModeCatalogue : Option (List ToolDefinition) :=
  R.externalTools.bind fun external =>
    if external.codeMode then some (R.underlyingTools external) else none

def isExternalTool (name : String) : Bool :=
  R.externalTools.any fun config => config.tools.any (·.name == name)

def builtinToolAllowed (name : String) : Bool :=
  R.externalTools.all fun config =>
    !config.replaceBuiltinTools && config.allowedBuiltinTools.all (·.contains name)

/-- A builtin tool that may run beside others, by the name of a call. -/
def isReadOnly (name : String) : Bool :=
  !R.isExternalTool name
    && (R.tools.findAvailable? name).any (·.concurrency == .readOnly)

end AgentRuntime

/-! ## What is offered can be executed -/

/-- A registry finds the tools that it lists. -/
theorem ToolRegistry.mem_definitions {registry : ToolRegistry} {name : String} :
    name ∈ registry.definitions.map (·.name) ↔ (registry.findAvailable? name).isSome = true := by
  obtain ⟨tools, hnames⟩ := registry
  simp only [definitions, findAvailable?, find?, List.map_map]
  induction tools with
  | nil => simp
  | cons tool rest ih =>
    obtain ⟨hne, hrest⟩ := List.nodup_cons.1 hnames
    have ih := ih hrest
    by_cases hname : tool.definition.name = name
    · subst hname
      -- no other tool has the name
      have hnone : ∀ other ∈ rest, other.definition.name ≠ tool.definition.name :=
        fun other hother hsame => hne (List.mem_map.2 ⟨other, hother, hsame⟩)
      cases havailable : tool.available with
      | true => simp [havailable]
      | false =>
        simp only [List.filter_cons, havailable, List.find?_cons, beq_self_eq_true,
          Option.filter_some, Bool.false_eq_true, if_false, Option.isSome_none, iff_false]
        intro hmem
        obtain ⟨other, hother, hsame⟩ := List.mem_map.1 hmem
        exact hnone other (List.mem_filter.1 hother).1 hsame
    · have hbeq : (tool.definition.name == name) = false := by simpa using hname
      rw [List.find?_cons, hbeq, ← ih]
      cases havailable : tool.available with
      | true =>
        have hne' : ¬name = tool.definition.name := fun hsame => hname hsame.symm
        simp [havailable, hne']
      | false => simp [havailable]

namespace AgentRuntime

variable {R : AgentRuntime} {name : String}

/-- The underlying tools are the external ones and the builtin ones that are allowed. -/
theorem mem_underlyingTools :
    name ∈ (R.underlyingTools (R.externalTools.getD {})).map (·.name)
      ↔ R.isExternalTool name = true
        ∨ R.builtinToolAllowed name = true ∧ (R.tools.findAvailable? name).isSome = true := by
  have hbuiltin : ∀ allowed : Option (List String),
      name ∈ (R.tools.definitions.filter fun tool =>
          allowed.all (·.contains tool.name)).map (·.name)
        ↔ allowed.all (·.contains name) = true
          ∧ (R.tools.findAvailable? name).isSome = true := by
    intro allowed
    rw [← ToolRegistry.mem_definitions, List.mem_map, List.mem_map]
    constructor
    · rintro ⟨tool, htool, rfl⟩
      obtain ⟨htool, hallowed⟩ := List.mem_filter.1 htool
      exact ⟨hallowed, tool, htool, rfl⟩
    · rintro ⟨hallowed, tool, htool, rfl⟩
      exact ⟨tool, List.mem_filter.2 ⟨htool, hallowed⟩, rfl⟩
  have hexternal : ∀ tools : List ToolDefinition,
      name ∈ tools.map (·.name) ↔ tools.any (·.name == name) = true := by
    intro tools
    simp [List.mem_map, List.any_eq_true]
  unfold underlyingTools isExternalTool builtinToolAllowed
  rw [List.map_append, List.mem_append, or_comm]
  cases R.externalTools with
  | none => simpa using hbuiltin none
  | some config =>
    cases hreplace : config.replaceBuiltinTools with
    | true => simp [hreplace]
    | false =>
      simp only [Option.getD_some, hreplace, Bool.false_eq_true, if_false, hbuiltin,
        hexternal config.tools, Option.any_some, Option.all_some, Bool.not_false, Bool.true_and]

end AgentRuntime

/-! ## Executed tools -/

/-- `MAX_MODEL_TOOL_OUTPUT_BYTES`. -/
def maxModelToolOutputBytes : Nat := 50 * 1024

def modelFacingOutput (output : String) : String :=
  if Text.len output ≤ maxModelToolOutputBytes then output
  else
    let notice := "\n[model context truncated; full " ++ toString (Text.len output)
      ++ "-byte output remains in the transcript]\n"
    let contentBudget := maxModelToolOutputBytes - Text.len notice
    let tailBytes := contentBudget / 4
    Text.utf8Head output (contentBudget - tailBytes) ++ notice ++ Text.utf8Tail output tailBytes

def runtimeToolKind (name : String) (external : Bool) : String :=
  if external then "custom"
  else if ["bash", "shell", "exec", "command"].contains
    (String.ofList (name.toList.map Char.toLower)) then "shell"
  else "native"

structure ExecutedTool where
  callId : String
  parentCallId : Option String
  name : String
  arguments : Json
  auditKind : String
  title : String
  output : String
  modelOutput : String
  invocationIdentity : Option String
  failed : Bool
  denied : Bool
  denialReason : Option String
  startedAtMs : Nat
  durationMs : Nat
  images : List PromptAttachment

/-- When something began and how long it took. -/
structure Clock where
  startedAtMs : Nat
  durationMs : Nat

namespace ExecutedTool

def new (auditKind : String) (toolCall : ToolCall) (title : String) (result : ToolResult)
    (clock : Clock) : ExecutedTool where
  callId := toolCall.id
  parentCallId := toolCall.parentCallId
  name := toolCall.name
  arguments := toolCall.arguments
  auditKind := auditKind
  title := title
  output := result.output
  modelOutput := modelFacingOutput result.output
  invocationIdentity := result.invocationIdentity
  failed := result.failed
  denied := false
  denialReason := none
  startedAtMs := clock.startedAtMs
  durationMs := clock.durationMs
  images := []

def deniedWithReason (now : Nat) (toolCall : ToolCall) (reason : String) : ExecutedTool :=
  { new (runtimeToolKind toolCall.name false) toolCall "provider tool · denied"
      (ToolResult.failure reason) ⟨now, 0⟩ with
    denied := true
    denialReason := some reason }

def refused (now : Nat) (toolCall : ToolCall) : ExecutedTool :=
  deniedWithReason now toolCall
    ("provider tool " ++ toolCall.name ++ " is not allowed by the launch policy")

def unavailable (now : Nat) (toolCall : ToolCall) : ExecutedTool :=
  new (runtimeToolKind toolCall.name false) toolCall (toolCall.name ++ " · unavailable")
    (ToolResult.failure ("unknown tool " ++ toolCall.name)) ⟨now, 0⟩

/-- What the live history keeps. -/
def item (executed : ExecutedTool) : ToolResultItem where
  callId := executed.callId
  name := some executed.name
  arguments := some executed.arguments
  auditKind := some executed.auditKind
  title := some executed.title
  output := executed.output
  modelOutput := some executed.modelOutput
  failed := executed.failed
  denied := executed.denied
  denialReason := executed.denialReason
  durationMs := some executed.durationMs
  images := executed.images

def metric (turnId : String) (executed : ExecutedTool) : ToolMetric where
  turnId := turnId
  callId := executed.callId
  name := executed.name
  startedAtMs := executed.startedAtMs
  durationMs := executed.durationMs
  outputBytes := Text.len executed.output
  modelOutputBytes := Text.len executed.modelOutput
  failed := executed.failed

end ExecutedTool

/-! ## Dispatch -/

namespace AgentRuntime

variable (R : AgentRuntime) (now : Nat) (toolCall : ToolCall)

/-- The builtin tool that a call is executed with, or the answer that it gets at once. -/
def builtinTool : Except ExecutedTool Tool :=
  if !R.builtinToolAllowed toolCall.name then .error (.refused now toolCall)
  else match R.tools.findAvailable? toolCall.name with
    | none => .error (.unavailable now toolCall)
    | some tool => .ok tool

end AgentRuntime

/-- The answer that a call of a program, the `sequence`-th of it, gets at once, if it does. -/
def nestedRefusal (now : Nat) (toolCall : ToolCall) (catalogue : List ToolDefinition)
    (sequence : Nat) : Option ExecutedTool :=
  if sequence > maxToolCalls then
    some (.deniedWithReason now toolCall "codemode exceeded the 64-call limit")
  else if !(catalogue.map (·.name)).contains toolCall.name || toolCall.name == "codemode" then
    some (.deniedWithReason now toolCall
      ("tool " ++ toolCall.name ++ " is not available in this codemode session"))
  else none

/-- What a message's calls are executed as: a run of read-only ones together, others alone. -/
inductive Work where
  | exclusive (toolCall : ToolCall)
  | batch (toolCalls : List ToolCall)

/-- One more call is put before others. -/
def Work.schedule (readOnly : Bool) (toolCall : ToolCall) : List Work → List Work
  | .batch toolCalls :: rest =>
    if readOnly then .batch (toolCall :: toolCalls) :: rest
    else .exclusive toolCall :: .batch toolCalls :: rest
  | rest => (if readOnly then .batch [toolCall] else .exclusive toolCall) :: rest

def AgentRuntime.schedule (R : AgentRuntime) (toolCalls : List ToolCall) : List Work :=
  toolCalls.foldr (fun toolCall =>
    Work.schedule (R.codeModeCatalogue.isNone && R.isReadOnly toolCall.name) toolCall) []

end Nakode.Agent
