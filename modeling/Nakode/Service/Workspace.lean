import Nakode.Lib.Table

/-!
# The workspace configuration of the sessions

Sessions of one workspace share its configuration. When a session's configuration differs from the
one of the template for new sessions, the server copies it to the template and to every other
session (`Sessions.commitSession`). A session keeps its own skills out of those it is given and
its own native sessions with the providers (`DomainState.synchronizeWorkspaceConfiguration`); the
comparison looks at the same fields (`DomainState.workspaceConfigurationMatches`).

The values that are only compared and copied are of one type `ν`; what else a session has is its
`own`, of type `ω`.
-/

namespace Nakode.Service

open Relational

inductive ConnectionState where
  | starting
  | ready (server : String)
  | failed (reason : String)
  | disconnected (reason : String)
  deriving DecidableEq, Repr

structure ProviderContext (ν : Type) where
  name : String
  capabilities : ν
  connection : ConnectionState
  providerSessionId : Option String
  sessionId : Option String
  contextUsage : Option ν
  deriving DecidableEq

structure Skill (ν : Type) where
  id : String
  name : String
  contents : ν
  deriving DecidableEq

/-- The identity of a skill: its name when it declares none. -/
def Skill.stableId {ν : Type} (skill : Skill ν) : String :=
  if skill.id.isEmpty then skill.name else skill.id

/-- `SkillCatalog::into_only_ids`. -/
def intoOnlyIds {ν : Type} (skills : List (Skill ν)) (enabledIds : List String) :
    List (Skill ν) :=
  skills.filter fun skill => enabledIds.contains skill.stableId

/-- A session. -/
structure DomainState (ν ω : Type) where
  backendProvider : String
  backendName : String
  backendCapabilities : ν
  connection : ConnectionState
  providerContexts : Table String (ProviderContext ν)
  providerAuthentication : ν
  providerAccountAuthentication : ν
  providerSessionId : Option String
  sessionId : Option String
  contextUsage : Option ν
  models : List ν
  modelOptions : ν
  defaultModelOptions : ν
  nakodeExecutable : String
  agents : List ν
  skills : List (Skill ν)
  enabledSkillIds : Option (List String)
  executionHost : ν
  agentDirectory : String
  webConfig : ν
  memoryConfig : ν
  visionConfig : ν
  terminalImageMode : ν
  invocationTelemetryEnabled : Bool
  agentBrowserStatus : ν
  availableBuiltinTools : ν
  /-- The transcript, the queue, the turn slots, the runs, the prompt addenda and the rest. -/
  own : ω

namespace DomainState

variable {ν ω : Type} (s source : DomainState ν ω)

def installSkills (skills : List (Skill ν)) : DomainState ν ω :=
  { s with
    skills := match s.enabledSkillIds with
      | some enabled => intoOnlyIds skills enabled
      | none => skills }

def workspaceConfigurationMatches [DecidableEq ν] : Bool :=
  s.providerContexts.rows.length == source.providerContexts.rows.length
  && (s.providerContexts.rows.all fun (provider, current) =>
    (source.providerContexts.find? provider).any fun candidate =>
      current.name == candidate.name
        && current.capabilities == candidate.capabilities
        && current.connection == candidate.connection)
  && s.providerAuthentication == source.providerAuthentication
  && s.providerAccountAuthentication == source.providerAccountAuthentication
  && s.models == source.models
  && s.modelOptions == source.modelOptions
  && s.defaultModelOptions == source.defaultModelOptions
  && s.agents == source.agents
  && s.skills == source.skills
  && s.agentDirectory == source.agentDirectory
  && s.nakodeExecutable == source.nakodeExecutable
  && s.executionHost == source.executionHost
  && s.webConfig == source.webConfig
  && s.memoryConfig == source.memoryConfig
  && s.visionConfig == source.visionConfig
  && s.terminalImageMode == source.terminalImageMode
  && s.invocationTelemetryEnabled == source.invocationTelemetryEnabled
  && s.agentBrowserStatus == source.agentBrowserStatus
  && s.availableBuiltinTools == source.availableBuiltinTools

/-- The context of a provider as the source has it, with the native session it has here. -/
def mergeContext (provider : String) (shared : ProviderContext ν) : ProviderContext ν :=
  let own := s.providerContexts.find? provider
  { name := shared.name
    capabilities := shared.capabilities
    connection := shared.connection
    providerSessionId := own.bind (·.providerSessionId)
    sessionId := own.bind (·.sessionId)
    contextUsage := own.bind (·.contextUsage) }

/-- The contexts of the source's providers. -/
def mergeContexts : Table String (ProviderContext ν) where
  rows := source.providerContexts.rows.map fun row => (row.1, s.mergeContext row.1 row.2)
  keys := by
    rw [List.map_map]
    exact source.providerContexts.keys

/-- The provider a session goes on with: its own one, the source's, or the first by name. -/
def activeProvider? (contexts : Table String (ProviderContext ν)) : Option String :=
  if (contexts.find? s.backendProvider).isSome && !s.backendProvider.isEmpty then
    some s.backendProvider
  else if (contexts.find? source.backendProvider).isSome && !source.backendProvider.isEmpty then
    some source.backendProvider
  else ((contexts.rows.map Prod.fst).insertionSort (· ≤ ·)).head?

variable [Inhabited ν]

/-- The session on the provider it goes on with. -/
def selectProvider (contexts : Table String (ProviderContext ν)) : DomainState ν ω :=
  let s := { s with providerContexts := contexts }
  match s.activeProvider? source contexts with
  | some activeProvider =>
    match contexts.find? activeProvider with
    | some active =>
      let selected := { s with
        backendProvider := activeProvider
        backendName := active.name
        backendCapabilities := active.capabilities
        connection := active.connection }
      if activeProvider != s.backendProvider then
        { selected with
          providerSessionId := active.providerSessionId
          sessionId := active.sessionId
          contextUsage := active.contextUsage }
      else selected
    | none => s
  | none =>
    { s with
      backendProvider := ""
      backendName := "No provider"
      backendCapabilities := default
      connection := .disconnected "no provider enabled"
      providerSessionId := none
      sessionId := none
      contextUsage := none }

def synchronizeWorkspaceConfiguration : DomainState ν ω :=
  let s := s.selectProvider source (s.mergeContexts source)
  let s :=
    { s with
      providerAuthentication := source.providerAuthentication
      providerAccountAuthentication := source.providerAccountAuthentication
      models := source.models
      modelOptions := source.modelOptions
      defaultModelOptions := source.defaultModelOptions
      agents := source.agents }
  let s := s.installSkills source.skills
  { s with
    agentDirectory := source.agentDirectory
    nakodeExecutable := source.nakodeExecutable
    executionHost := source.executionHost
    webConfig := source.webConfig
    memoryConfig := source.memoryConfig
    visionConfig := source.visionConfig
    terminalImageMode := source.terminalImageMode
    invocationTelemetryEnabled := source.invocationTelemetryEnabled
    agentBrowserStatus := source.agentBrowserStatus
    availableBuiltinTools := source.availableBuiltinTools }

end DomainState

/-! ## The server -/

/-- The sessions, and the template for new ones. -/
structure Sessions (ν ω : Type) where
  sessionTemplate : DomainState ν ω
  sessionsById : Table String (DomainState ν ω)

namespace Sessions

variable {ν ω : Type} [DecidableEq ν] [Inhabited ν] (core : Sessions ν ω)

/-- `synchronize_workspace_state_from`. -/
def synchronizeWorkspaceStateFrom (sessionId : String) (source : DomainState ν ω) :
    Sessions ν ω where
  sessionTemplate := core.sessionTemplate.synchronizeWorkspaceConfiguration source
  sessionsById := core.sessionsById.update (fun candidateId _ => candidateId != sessionId)
    (·.synchronizeWorkspaceConfiguration source)

/-- What `commit_and_publish_session` does to the configurations. -/
def commitSession (sessionId : String) : Sessions ν ω :=
  match core.sessionsById.find? sessionId with
  | some source =>
    if core.sessionTemplate.workspaceConfigurationMatches source then core
    else core.synchronizeWorkspaceStateFrom sessionId source
  | none => core

end Sessions

end Nakode.Service
