import Nakode.Delegation.SharedContext
import Nakode.Domain.Backend
import Nakode.Lib.Utf8

/-!
# The delegated runs of a session

A session keeps an execution for every delegated run that is starting or working. A run ends in
`finishSubagent`, which takes its execution away and returns what is left to do for it: the answer
to the request that the run was started for, the end of its backend, and, with
`persistSubagentEffect`, its last record. Losing the session's backend ends all of them
(`interruptSubagents`).

The report on a run that was cut short is a text made of its transcript, which nothing here reads;
it is one of the `Texts`.
-/

namespace Nakode.Delegation

open Domain (DomainState BackendCommand)

inductive SubagentStatus
  | starting
  | working
  | completed
  /-- `Partial` -/
  | incomplete
  | interrupted
  | failed
  deriving DecidableEq, Repr

structure SubagentRun where
  id : String
  agent : String
  provider : String
  model : Option String
  providerSessionId : Option String
  objective : String
  status : SubagentStatus
  latestActivity : String
  terminationKind : Option String
  terminationDetail : Option String
  objectiveMismatchHandoff : Option String
  salvage : Option String
  deriving DecidableEq, Repr

structure AgentModelTarget where
  provider : String
  model : Option String
  deriving DecidableEq, Repr

structure SubagentExecution where
  run : SubagentRun
  requestId : Nat
  sessionId : Option String
  response : String
  modelTargets : List AgentModelTarget
  modelTargetIndex : Nat
  deriving DecidableEq, Repr

inductive EntryKind
  | tool
  | diff
  | error
  | warning
  | system
  | other
  deriving DecidableEq, Repr

inductive EntryStatus
  | running
  | complete
  | interrupted
  | failed
  deriving DecidableEq, Repr

/-- A row of a run's transcript. -/
structure ChatEntry where
  kind : EntryKind
  title : String
  body : String
  status : EntryStatus
  /-- `tool_audit_json` is missing, or says of no failure. -/
  auditSucceeded : Bool
  deriving DecidableEq, Repr

/-- The record of a run that the store takes. -/
structure SubagentRecord where
  parentSessionId : String
  run : SubagentRun
  transcript : List ChatEntry
  deriving DecidableEq, Repr

/-- What an engine asks its executor to do. Effects on neither the session's backend nor its
delegated runs are of another type. -/
inductive Effect (ε : Type) where
  | backend (command : BackendCommand)
  | spawnSubagent (runId provider : String)
  | subagentBackend (runId : String) (command : BackendCommand)
  | stopSubagent (runId : String)
  | completeAgentRequest (requestId : Nat) (result : String) (success : Bool)
  | persistSubagent (record : SubagentRecord)
  | persistSharedContext (entry : SharedContextEntry)
  | other (effect : ε)
  deriving DecidableEq, Repr

/-- The texts that are made of a run: `build_subagent_salvage` and `render_salvage` for a reason,
`summarize_activity`, and `objective_mismatch_handoff`. -/
structure Texts where
  salvage : SubagentRun → List ChatEntry → String → String
  summarize : String → String → String
  mismatch : String → Option String

/-- An engine with its delegated runs. -/
structure Delegates where
  domain : DomainState
  executions : List (String × SubagentExecution)
  subagents : List SubagentRun
  chats : List (String × List ChatEntry)
  sharedContext : List SharedContextEntry
  sharedContextTotal : Nat

/-- `retained_entry_is_verified` -/
def ChatEntry.isVerified (entry : ChatEntry) : Bool :=
  (entry.kind == .tool && entry.auditSucceeded || entry.kind == .diff) &&
    entry.status == .complete && !(Text.trim entry.body).isEmpty

/-- `finish_running` -/
def finishRunning (status : EntryStatus) (entries : List ChatEntry) : List ChatEntry :=
  entries.map fun entry => if entry.status == .running then { entry with status } else entry

def agentModelTargetLabel (target : AgentModelTarget) : String :=
  match target.model with
  | none => target.provider ++ "/provider-default"
  | some model => target.provider ++ "/" ++ model

/-- How a run ended that ends with an error. -/
def terminationKind (message : String) : String :=
  if Text.startsWith message "archetype runtime reached its configured maximum" then
    "hard_turn_limit"
  else if Text.startsWith message "archetype runtime exceeded its configured" then
    "timed_out"
  else if (message.toList.map Char.toLower).tails.any ("interrupt".toList.isPrefixOf ·) then
    "interrupted"
  else if message == "Subagent returned no assistant response." then
    "empty_response"
  else
    "failed"

def SubagentExecution.isActive (execution : SubagentExecution) : Bool :=
  execution.run.status == .starting || execution.run.status == .working

namespace Delegates

variable {ε : Type} (texts : Texts) (s : Delegates)

def active : List (String × SubagentExecution) := s.executions.filter (·.2.isActive)

/-- The engine without what concerns its runs, but for which of them are running. -/
def engine : DomainState := { s.domain with runningSubagents := s.active.map (·.1) }

/-- The part of the state that publications read and change. -/
def shared : SharedContext where
  nakodeSessionId := s.domain.nakodeSessionId
  subagents := s.subagents.map fun run => (run.id, run.agent)
  sharedContext := s.sharedContext
  sharedContextTotal := s.sharedContextTotal

/-- `publish_shared_context` of a run's result; a refused one is dropped. -/
def publishResult (runId body : String) : Delegates × List (Effect ε) :=
  match s.shared.publish ⟨some runId, "subagent-result:" ++ runId, "finding",
      Text.utf8Head body maxSharedContextBodyBytes⟩ with
  | .ok (_, entries, shared) =>
    ({ s with
      sharedContext := shared.sharedContext
      sharedContextTotal := shared.sharedContextTotal }, entries.map .persistSharedContext)
  | .error _ => (s, [])

/-- Puts a run in the place of the one that is displayed under its id. -/
def display (run : SubagentRun) : Delegates :=
  { s with
    subagents := s.subagents.map fun displayed => if displayed.id == run.id then run else displayed }

def updateChat (runId : String) (f : List ChatEntry → List ChatEntry) : Delegates :=
  { s with chats := s.chats.map fun chat => if chat.1 == runId then (chat.1, f chat.2) else chat }

/-- The last rows of a run that ends with an error. -/
def closeChat (message body kind : String) (usefulPartial : Bool) (entries : List ChatEntry) :
    List ChatEntry :=
  let told := if entries.any fun entry => entry.kind == .error && entry.body == message then
      entries
    else entries ++ [⟨.error, "ERROR", message, .failed, true⟩]
  let status : EntryStatus := if kind == "interrupted" then .interrupted
    else if usefulPartial then .complete else .failed
  finishRunning (if kind == "interrupted" then .interrupted else .failed)
    (told ++ [⟨.system, "SALVAGED PARTIAL RESULT", body, status, true⟩])

/-- `finish_subagent` of a run that ends with an error. -/
def finishSubagent (runId message : String) : Delegates × List (Effect ε) :=
  match s.executions.lookup runId with
  | none => (s, [])
  | some execution =>
    let kind := terminationKind message
    let interrupted := kind == "interrupted"
    let entries := (s.chats.lookup runId).getD []
    let usefulPartial := entries.any (·.isVerified)
    let body := texts.salvage execution.run entries (kind ++ ": " ++ message)
    let run := { execution.run with
      status := if interrupted then .interrupted
        else if usefulPartial then .incomplete else .failed
      latestActivity := if usefulPartial then "Partial result preserved"
        else texts.summarize message "Failed"
      terminationKind := some kind
      terminationDetail := some message
      objectiveMismatchHandoff := texts.mismatch execution.response
      salvage := some body }
    let s := { s with executions := s.executions.filter (·.1 != runId) }
    let s := (s.updateChat runId (closeChat message body kind usefulPartial)).display run
    let success := usefulPartial && !interrupted
    let (s, published) := if success then s.publishResult runId body else (s, [])
    (s, published ++
      [.completeAgentRequest execution.requestId
        ("[Subagent Result] [" ++ run.id ++ "] [" ++ run.agent ++ "]\n" ++ body) success,
      .stopSubagent runId])

def persistSubagentEffect (runId : String) : Option (Effect ε) := do
  let parentSessionId ← s.domain.sessionId
  let run ← s.subagents.find? (·.id == runId)
  let transcript ← s.chats.lookup runId
  return .persistSubagent ⟨parentSessionId, run, transcript⟩

/-- The loop of `interrupt_subagents`. -/
def interruptRuns : List String → Delegates → Delegates × List (Effect ε)
  | [], s => (s, [])
  | runId :: rest, s =>
    let (s, effects) := s.finishSubagent texts runId "Interrupted by the parent agent."
    let persisted := (s.persistSubagentEffect runId).toList
    let (s, more) := interruptRuns rest s
    (s, effects ++ persisted ++ more)

def interruptSubagents : Delegates × List (Effect ε) :=
  interruptRuns texts (s.active.map (·.1)) s

/-- `handle_provider_backend` of an event by which a provider disconnects. -/
def handleProviderDisconnected (provider reason : String) : Delegates × List (Effect ε) :=
  let domain := (s.engine.handleProviderBackend provider (.disconnected reason)).1
  if provider != s.domain.backendProvider then ({ s with domain }, [])
  else { s with domain }.interruptSubagents texts

def updateExecution (runId : String) (f : SubagentExecution → SubagentExecution) : Delegates :=
  { s with
    executions := s.executions.map fun entry =>
      if entry.1 == runId then (entry.1, f entry.2) else entry }

/-- A run starts again with its next model target. -/
def SubagentExecution.retry (execution : SubagentExecution) (target : AgentModelTarget)
    (activity : String) : SubagentExecution :=
  { execution with
    run := { execution.run with
      provider := target.provider
      model := target.model
      providerSessionId := none
      status := .starting
      latestActivity := activity }
    sessionId := none
    response := ""
    modelTargetIndex := execution.modelTargetIndex + 1 }

def retrySubagentOrFinish (runId message : String) : Delegates × List (Effect ε) :=
  match s.executions.lookup runId with
  | none => (s, [])
  | some execution =>
    match execution.modelTargets[execution.modelTargetIndex + 1]? with
    | none => s.finishSubagent texts runId message
    | some target =>
      let retried := SubagentExecution.retry execution target
        ("Retrying with " ++ agentModelTargetLabel target ++ " after: " ++
          texts.summarize message "provider failure")
      let s := s.updateExecution runId fun _ => retried
      let s := s.updateChat runId (· ++ [⟨.warning, "FALLBACK",
        "The previous model target failed: " ++ message ++ "\nRetrying with " ++
          agentModelTargetLabel target ++ ".", .complete, true⟩])
      (s.display retried.run, [.stopSubagent runId, .spawnSubagent runId target.provider])

def subagentLaunchFailed (runId message : String) : Delegates × List (Effect ε) :=
  let (s, effects) := s.retrySubagentOrFinish texts runId message
  (s, effects ++ (s.persistSubagentEffect runId).toList)

/-- `session_store_failed` -/
def sessionStoreFailed : Delegates := { s with domain := { s.domain with resumingSession := none } }

end Delegates

end Nakode.Delegation
