import Nakode.Delegation.Runs
import Nakode.Lib.BinarySearch
import Nakode.Lib.Keyed
import Nakode.Lib.Outcome

/-!
# The order of a session's runs

A session lists its delegated runs, the finished ones too, by the time they started and then by id.
A delegated run and the continuation of one are put in their place by a binary search
(`insertRun`), a stored list is sorted (`installSubagents`), and a run that changes is displayed in
its old place (`display`), for which it must have kept its id and its start. No list is ever out of
order (`Ordered.of_run`).
-/

namespace Nakode.Delegation

open Domain (DomainCommandError)
open Transition
open Outcome

def maxConcurrentSubagents : Nat := 4

def maxContinuationDepth : Nat := 3

/-! ## Definitions and their models -/

structure AgentDefinition where
  id : String
  slug : String
  model : Option String
  fallbackModels : List String
  /-- `AgentFallbackPolicy::ConfiguredOnly` -/
  configuredOnly : Bool
  maxConcurrency : Nat
  maxTurns : Option Nat
  canDelegate : Bool
  maxDelegationDepth : Nat
  enabled : Bool
  deriving DecidableEq, Repr

def AgentDefinition.isCloud (definition : AgentDefinition) : Bool :=
  Text.startsWith definition.id "cloud:"

/-- `str::split_once('/')` -/
def splitOnceSlash (s : String) : Option (String × String) :=
  match s.toList.span (· != '/') with
  | (_, []) => none
  | (before, _ :: after) => some (String.ofList before, String.ofList after)

def pushAgentModelTarget (targets : List AgentModelTarget) (qualifiedModel : String) :
    List AgentModelTarget :=
  match splitOnceSlash qualifiedModel with
  | none => targets
  | some (provider, model) =>
    if targets.contains ⟨provider, some model⟩ then targets
    else targets ++ [⟨provider, some model⟩]

def agentModelTargets (definition : AgentDefinition) (parentProvider : String) :
    List AgentModelTarget :=
  let targets := match definition.model with
    | some model => pushAgentModelTarget [] model
    | none => [⟨parentProvider, none⟩]
  let fallbackModels := if !definition.isCloud && definition.configuredOnly then
    definition.fallbackModels else []
  fallbackModels.foldl pushAgentModelTarget targets

/-! ## Runs -/

/-- `SubagentSalvage` -/
structure SubagentSalvage where
  completedWork : List String
  /-- The ids, titles and bodies of the entries that are evidence. -/
  verifiedEvidence : List (String × String × String)
  followUpObjective : String
  deriving DecidableEq, Repr

/-- A run with what a session observes of it. -/
structure ObservedRun where
  id : String
  agent : String
  provider : String
  model : Option String
  providerSessionId : Option String
  objective : String
  status : SubagentStatus
  latestActivity : String
  title : Option String
  parentRunId : Option String
  policyJson : String
  remainingDelegationDepth : Nat
  startedAtMs : Nat
  endedAtMs : Option Nat
  terminationKind : Option String
  terminationDetail : Option String
  salvage : Option SubagentSalvage
  continuedFromRunId : Option String
  continuedByRunId : Option String
  continuationDepth : Nat
  additionalTurns : Option Nat
  deriving DecidableEq, Repr

/-- `Starting` or `Working` -/
def SubagentStatus.isRunning : SubagentStatus → Bool
  | starting => true
  | working => true
  | completed => false
  | incomplete => false
  | interrupted => false
  | failed => false

structure ObservedExecution where
  run : ObservedRun
  definition : AgentDefinition
  remainingDelegationDepth : Nat
  sessionId : Option String
  response : String
  modelTargets : List AgentModelTarget
  modelTargetIndex : Nat

structure DelegatedRuns where
  sessionId : Option String
  backendProvider : String
  subagents : List ObservedRun
  executions : List (String × ObservedExecution)

/-- The stored record of a run. -/
structure RunRecord where
  run : ObservedRun
  parentSessionId : String

/-- What the events of a working run change. -/
structure RunProgress where
  model : Option String
  providerSessionId : Option String
  status : SubagentStatus
  latestActivity : String
  response : String

/-- What the end of a run changes. -/
structure RunEnding where
  status : SubagentStatus
  latestActivity : String
  terminationKind : Option String
  terminationDetail : Option String
  salvage : Option SubagentSalvage

/-- What the rest of a session answers: its agents, the checks of their models and of images, and
what is made of a run's transcript. -/
structure RunSession where
  /-- `agents.find` -/
  find : String → Option AgentDefinition
  validateCloudAgentExecution : AgentDefinition → Except DomainCommandError Unit
  /-- The check that the security validator has models of its tier only. -/
  validateValidator : String → AgentDefinition → Except DomainCommandError Unit
  /-- `resolve_delegated_images`, with how many there are. -/
  resolveDelegatedImages : Option String → List String → Except DomainCommandError Nat
  modelSupportsImages : String → Option String → Bool
  /-- `serde_json::to_string` of a definition, and back. -/
  policyJson : AgentDefinition → String
  readPolicy : String → Except String AgentDefinition
  summarizeActivity : String → String → String
  buildSubagentSalvage : ObservedRun → String → SubagentSalvage
  /-- What `finish_subagent` makes of an execution and its outcome. -/
  ending : ObservedExecution → Except String Unit → RunEnding

namespace DelegatedRuns

variable (env : RunSession) (s : DelegatedRuns)

/-! ## The checks of a delegation -/

def validateSubagentConcurrency (agentSlug : String) (maxConcurrency : Nat) :
    Except DomainCommandError Unit :=
  if (s.subagents.filter (·.status.isRunning)).length ≥ maxConcurrentSubagents then
    .error (.conflict ("The concurrent subagent limit (" ++ toString maxConcurrentSubagents
      ++ ") is already in use. Wait for a running subagent to finish."))
  else if (s.subagents.filter fun run => run.agent == agentSlug && run.status.isRunning).length
      ≥ maxConcurrency then
    .error (.conflict ("agent " ++ Text.quote agentSlug ++ " already has its configured "
      ++ toString maxConcurrency ++ " concurrent run(s)"))
  else .ok ()

def validateAgentRequest (agentSlug task : String) : Except DomainCommandError Unit := do
  let definition ← need (env.find agentSlug)
    (.notFound ("predefined agent " ++ Text.quote agentSlug))
  ensure definition.enabled
    (.invalid ("agent " ++ Text.quote agentSlug ++ " is disabled; enable it before delegation"))
  if definition.isCloud then env.validateCloudAgentExecution definition
  s.validateSubagentConcurrency agentSlug definition.maxConcurrency
  ensure (!(Text.trim task).isEmpty) (.invalid "agent invocation requires a non-empty task")
  env.validateValidator agentSlug definition

/-- `delegation_context`: the parent of the run, and how deep it may delegate. -/
def delegationContext (parentRunId : Option String) (definition : AgentDefinition) :
    Except DomainCommandError (Option String × Nat) :=
  match parentRunId with
  | none => .ok (none, definition.maxDelegationDepth)
  | some parentRunId =>
    match s.executions.lookup parentRunId with
    | none => .error (.notFound ("parent agent run `" ++ parentRunId ++ "`"))
    | some parent =>
      if !parent.run.status.isRunning then
        .error (.conflict ("parent agent run `" ++ parentRunId ++ "` is no longer active"))
      else if !parent.definition.canDelegate then
        .error (.unsupported ("agent `" ++ parent.definition.slug
          ++ "` is not permitted to delegate"))
      else
        match parent.remainingDelegationDepth with
        | 0 => .error (.unsupported ("agent `" ++ parent.definition.slug
            ++ "` exhausted its maximum delegation depth"))
        | remaining + 1 => .ok (some parentRunId, min remaining definition.maxDelegationDepth)

/-! ## The operations on the list -/

/-- Puts a new run in its place. -/
def insertRun (run : ObservedRun) : DelegatedRuns :=
  { s with
    subagents := BinarySearch.insertSorted (fun existing =>
      (compare existing.startedAtMs run.startedAtMs).then (compare existing.id run.id))
      run s.subagents }

def insertExecution (runId : String) (execution : ObservedExecution) : DelegatedRuns :=
  { s with executions := (runId, execution) :: s.executions.filter (·.1 != runId) }

/-- Puts a run in the place of the first one that is displayed under its id. -/
def displayRun (run : ObservedRun) : DelegatedRuns :=
  { s with subagents := s.subagents.set (s.subagents.findIdx (·.id == run.id)) run }

structure DelegationRequest where
  agentSlug : String
  title : String
  task : String
  parentRunId : Option String
  imageReferences : List String

/-- The white space of a title is one blank between words. -/
def normalizeTitle (title : String) : String :=
  String.intercalate " "
    (((title.toList.splitOnP Text.isWhitespace).filter fun word => !word.isEmpty).map String.ofList)

/-- The run of a delegation, as it starts. -/
def delegatedRun (definition : AgentDefinition) (target : AgentModelTarget) (title task : String)
    (parentRunId : Option String) (remainingDelegationDepth : Nat) (runId : String) (now : Nat) :
    ObservedRun where
  id := runId
  agent := definition.slug
  provider := target.provider
  model := target.model
  providerSessionId := none
  objective := task
  status := .starting
  latestActivity := "Starting provider…"
  title := some title
  parentRunId
  policyJson := env.policyJson definition
  remainingDelegationDepth
  startedAtMs := now
  endedAtMs := none
  terminationKind := none
  terminationDetail := none
  salvage := none
  continuedFromRunId := none
  continuedByRunId := none
  continuationDepth := 0
  additionalTurns := none

/-- The execution of a run that starts with the first of its model targets. -/
def startExecution (run : ObservedRun) (definition : AgentDefinition)
    (modelTargets : List AgentModelTarget) : ObservedExecution where
  run
  definition
  remainingDelegationDepth := run.remainingDelegationDepth
  sessionId := none
  response := ""
  modelTargets
  modelTargetIndex := 0

/-- `delegate_agent_attributed_for_request` with the id of the new run and the time. `none` stands
for a definition without a model target, where the server would panic. -/
def delegate (request : DelegationRequest) (runId : String) (now : Nat) :
    Except DomainCommandError (Option DelegatedRuns) := do
  let title := normalizeTitle request.title
  ensure (!(title.isEmpty || title.length > 120))
    (.invalid "agent delegation requires a task-specific title of 1–120 characters")
  s.validateAgentRequest env request.agentSlug request.task
  let definition ← need (env.find request.agentSlug)
    (.notFound ("predefined agent " ++ Text.quote request.agentSlug))
  let (parentRunId, remainingDelegationDepth) ← s.delegationContext request.parentRunId definition
  let images ← env.resolveDelegatedImages parentRunId request.imageReferences
  let modelTargets := agentModelTargets definition s.backendProvider
  match modelTargets.head? with
  | none => return none
  | some target =>
    ensure (!(images > 0 && !env.modelSupportsImages target.provider target.model))
      (.unsupported ("the delegated provider/model does not advertise native image input; "
        ++ "no text-only fallback"))
    let run := delegatedRun env definition target title (Text.trim request.task) parentRunId
      remainingDelegationDepth runId now
    return some ((s.insertRun run).insertExecution run.id
      (startExecution run definition modelTargets))

/-- Remembers the successor of the first run that is displayed under an id. -/
def setSuccessor (sourceRunId runId : String) : DelegatedRuns :=
  { s with
    subagents := s.subagents.modify (s.subagents.findIdx (·.id == sourceRunId)) fun source =>
      { source with continuedByRunId := some runId } }

/-- The run that a continuation starts from, and what of it is inherited. -/
def continuationSource (sourceRunId : String) (additionalTurns : Nat) :
    Except DomainCommandError (ObservedRun × SubagentSalvage) := do
  ensure (8 ≤ additionalTurns && additionalTurns ≤ 100)
    (.invalid "continuation additional_turns must be between 8 and 100")
  ensure s.sessionId.isSome
    (.conflict "a delegated run continuation requires an active logical session")
  let source ← need (s.subagents.find? (·.id == sourceRunId)) (.notFound sourceRunId)
  ensure (source.status == .incomplete || source.status == .failed || source.status == .interrupted)
    (.conflict "only a terminal incomplete delegated run can be continued")
  ensure source.continuedByRunId.isNone
    (.conflict "the delegated run already has a continuation successor")
  ensure (source.continuationDepth < maxContinuationDepth)
    (.unsupported ("the continuation depth limit (" ++ toString maxContinuationDepth
      ++ ") is exhausted"))
  let salvage ← need source.salvage
    (.conflict "the delegated run has no authoritative continuation proposition")
  ensure (!(salvage.verifiedEvidence.isEmpty && salvage.completedWork.isEmpty))
    (.conflict "the delegated run has no verified retained work to inherit")
  return (source, salvage)

/-- The definition of a continuation: that of its source, or the current one of a cloud's agent. -/
def continuationDefinition (source : ObservedRun) (salvage : SubagentSalvage)
    (additionalTurns : Nat) : Except DomainCommandError AgentDefinition := do
  let snapshot ← (env.readPolicy source.policyJson).mapError fun error =>
    .invalid ("the delegated run's immutable policy snapshot is invalid: " ++ error)
  let current ← if snapshot.isCloud then do
      s.validateAgentRequest env snapshot.slug salvage.followUpObjective
      need (env.find snapshot.slug) (.notFound snapshot.slug)
    else .ok snapshot
  let definition := { current with maxTurns := some additionalTurns }
  s.validateSubagentConcurrency definition.slug definition.maxConcurrency
  return definition

/-- The run of a continuation, as it starts. -/
def continuedRun (definition : AgentDefinition) (target : AgentModelTarget) (source : ObservedRun)
    (salvage : SubagentSalvage) (additionalTurns : Nat) (runId : String) (now : Nat) :
    ObservedRun :=
  { delegatedRun env definition target "" salvage.followUpObjective source.parentRunId
      source.remainingDelegationDepth runId now with
    latestActivity := "Starting bounded continuation…"
    title := source.title
    continuedFromRunId := some source.id
    continuationDepth := source.continuationDepth + 1
    additionalTurns := some additionalTurns }

/-- `continue_subagent` with the id of the new run and the time. -/
def continueSubagent (sourceRunId : String) (additionalTurns : Nat) (runId : String) (now : Nat) :
    Except DomainCommandError (Option DelegatedRuns) := do
  let (source, salvage) ← s.continuationSource sourceRunId additionalTurns
  let definition ← s.continuationDefinition env source salvage additionalTurns
  let modelTargets := agentModelTargets definition s.backendProvider
  return modelTargets.head?.map fun target =>
    let run := continuedRun env definition target source salvage additionalTurns runId now
    ((s.insertRun run).setSuccessor sourceRunId run.id).insertExecution run.id
      (startExecution run definition modelTargets)

/-- `sync_subagent` after an event of a run's backend. -/
def progressSubagent (runId : String) (progress : RunProgress) : DelegatedRuns :=
  match s.executions.lookup runId with
  | none => s
  | some execution =>
    let run := { execution.run with
      model := progress.model
      providerSessionId := progress.providerSessionId
      status := progress.status
      latestActivity := progress.latestActivity }
    (s.insertExecution runId { execution with
      run
      sessionId := progress.providerSessionId
      response := progress.response }).displayRun run

def finishSubagent (runId : String) (outcome : Except String Unit) (now : Nat) : DelegatedRuns :=
  match s.executions.lookup runId with
  | none => s
  | some execution =>
    let ending := env.ending execution outcome
    { s with executions := s.executions.filter (·.1 != runId) }.displayRun
      { execution.run with
        status := ending.status
        latestActivity := ending.latestActivity
        terminationKind := ending.terminationKind
        terminationDetail := ending.terminationDetail
        salvage := ending.salvage
        endedAtMs := some now }

def retrySubagentOrFinish (runId message : String) (now : Nat) : DelegatedRuns :=
  match s.executions.lookup runId with
  | none => s
  | some execution =>
    match execution.modelTargets[execution.modelTargetIndex + 1]? with
    | none => s.finishSubagent env runId (.error message) now
    | some target =>
      let run := { execution.run with
        provider := target.provider
        model := target.model
        providerSessionId := none
        status := .starting
        latestActivity := "Retrying with " ++ agentModelTargetLabel target ++ " after: "
          ++ env.summarizeActivity message "provider failure" }
      (s.insertExecution runId { execution with
        run
        sessionId := none
        response := ""
        modelTargetIndex := execution.modelTargetIndex + 1 }).displayRun run

/-- A stored run as it is restored, and whether its record has to be written again. -/
def restoreRun (now : Nat) (stored : ObservedRun) : ObservedRun × Bool :=
  let run := if stored.status.isRunning then
      { stored with
        status := .interrupted
        latestActivity := "Interrupted when the previous server stopped"
        endedAtMs := some now
        terminationKind := some "interrupted"
        terminationDetail := some "Interrupted when the previous server stopped" }
    else stored
  if run.status == .interrupted && run.salvage.isNone then
    let salvage := env.buildSubagentSalvage run "interrupted"
    let usefulPartial := !salvage.verifiedEvidence.isEmpty || !salvage.completedWork.isEmpty
    ({ run with
      salvage := some salvage
      latestActivity := if usefulPartial then "Partial evidence preserved after interruption"
        else run.latestActivity }, true)
  else (run, stored.status.isRunning)

/-- `install_subagents`: the state, and the records to write again. -/
def installSubagents (records : List RunRecord) (now : Nat) : DelegatedRuns × List RunRecord :=
  let sorted := records.insertionSort fun left right =>
    ((compare left.run.startedAtMs right.run.startedAtMs).then
      (compare left.run.id right.run.id)).isLE
  let subagents := sorted.map fun record => (restoreRun env now record.run).1
  let corrected := sorted.filter fun record => (restoreRun env now record.run).2
  ({ s with subagents, executions := [] },
    corrected.filterMap fun record =>
      (subagents.find? (·.id == record.run.id)).map (⟨·, record.parentSessionId⟩))

/-- The runs of a new session. -/
def newSession : DelegatedRuns := { s with sessionId := none, subagents := [], executions := [] }

end DelegatedRuns

/-! ## The order -/

namespace ObservedRun

/-- What a run is ordered by. -/
def key (run : ObservedRun) : Nat ×ₗ String := toLex (run.startedAtMs, run.id)

/-- A run comes before the runs that started later, and before those of its millisecond with a
greater id. -/
def Before (a b : ObservedRun) : Prop :=
  a.startedAtMs < b.startedAtMs ∨ a.startedAtMs = b.startedAtMs ∧ a.id < b.id

theorem compare_key (a b : ObservedRun) :
    (compare a.startedAtMs b.startedAtMs).then (compare a.id b.id) = compare a.key b.key := rfl

theorem isLE_compare_key (a b : ObservedRun) :
    ((compare a.startedAtMs b.startedAtMs).then (compare a.id b.id)).isLE = true ↔ a.key ≤ b.key :=
  Ordering.ne_gt_iff_isLE.symm.trans (compare_key a b ▸ compare_le_iff_le)

theorem before_iff {a b : ObservedRun} : a.Before b ↔ a.key < b.key := by
  rw [Before, key, key, Prod.Lex.toLex_lt_toLex]

end ObservedRun

open ObservedRun

namespace DelegatedRuns

variable {env : RunSession} {s t : DelegatedRuns} {run : ObservedRun} {runId : String}

def keys (s : DelegatedRuns) : List (Nat ×ₗ String) := s.subagents.map key

theorem map_id_subagents (s : DelegatedRuns) :
    s.subagents.map (·.id) = s.keys.map fun k => (ofLex k).2 := by
  rw [keys, List.map_map]
  rfl

/-- The runs are listed in order, each once, and every execution is of a run in the list. -/
structure Ordered (s : DelegatedRuns) : Prop where
  sorted : s.subagents.Pairwise Before
  distinct : (s.subagents.map (·.id)).Nodup
  executions : ∀ e ∈ s.executions, e.2.run.id = e.1 ∧ e.2.run.key ∈ s.keys

theorem pairwise_before_iff : s.subagents.Pairwise Before ↔ s.keys.Pairwise (· < ·) := by
  rw [keys, List.pairwise_map]
  exact List.Pairwise.iff fun _ _ => before_iff

/-- A list of runs with distinct ids that is sorted is strictly sorted. -/
theorem pairwise_before (hsorted : s.keys.Pairwise (· ≤ ·))
    (hdistinct : (s.subagents.map (·.id)).Nodup) : s.subagents.Pairwise Before := by
  rw [map_id_subagents] at hdistinct
  rw [pairwise_before_iff]
  exact (hsorted.and (List.Nodup.of_map _ hdistinct)).imp fun h => lt_of_le_of_ne h.1 h.2

theorem Ordered.keys_le (h : s.Ordered) : s.keys.Pairwise (· ≤ ·) :=
  (pairwise_before_iff.1 h.sorted).imp le_of_lt

/-- Nothing but the keys matters to the order. -/
theorem Ordered.of_keys (h : s.Ordered) (hkeys : t.keys = s.keys)
    (hexecutions : ∀ e ∈ t.executions, e.2.run.id = e.1 ∧ e.2.run.key ∈ s.keys) : t.Ordered := by
  refine ⟨?_, ?_, ?_⟩
  · rw [pairwise_before_iff, hkeys, ← pairwise_before_iff]
    exact h.sorted
  · rw [map_id_subagents, hkeys, ← map_id_subagents]
    exact h.distinct
  · rw [hkeys]
    exact hexecutions

/-! ### Runs that are displayed in their place -/

/-- A run with the key of a displayed one takes its place. -/
theorem keys_displayRun (hdistinct : (s.subagents.map (·.id)).Nodup) (hrun : run.key ∈ s.keys) :
    (s.displayRun run).keys = s.keys := by
  obtain ⟨displayed, hmem, hkey⟩ := List.mem_map.1 hrun
  have hid : displayed.id = run.id := congrArg (fun k => (ofLex k).2) hkey
  have hfound : s.subagents.findIdx (·.id == run.id) < s.subagents.length :=
    List.findIdx_lt_length_of_exists ⟨displayed, hmem, beq_iff_eq.2 hid⟩
  have hat : (s.subagents[s.subagents.findIdx (·.id == run.id)]).id = run.id :=
    beq_iff_eq.1 (List.findIdx_getElem (w := hfound))
  have hsame : s.subagents[s.subagents.findIdx (·.id == run.id)] = displayed :=
    Keyed.eq_of_mem hdistinct (List.getElem_mem hfound) hmem (hat.trans hid.symm)
  rw [keys, displayRun, List.map_set, ← hkey, ← hsame, ← List.getElem_map key, keys]
  exact List.set_getElem_self (by rwa [List.length_map])

theorem keys_setSuccessor (s : DelegatedRuns) (sourceRunId runId : String) :
    (s.setSuccessor sourceRunId runId).keys = s.keys := by
  rw [keys, keys, setSuccessor]
  refine List.ext_getElem? fun i => ?_
  rw [List.getElem?_map, List.getElem?_map, List.getElem?_modify]
  cases s.subagents[i]? with
  | none => rfl
  | some run =>
    dsimp only [Option.map_some]
    split <;> rfl

theorem mem_executions_of_lookup {l : List (String × ObservedExecution)}
    {execution : ObservedExecution} (h : l.lookup runId = some execution) :
    (runId, execution) ∈ l := by
  induction l with
  | nil => cases h
  | cons e l ih =>
    obtain ⟨id, first⟩ := e
    rw [List.lookup_cons] at h
    split at h
    · next hid =>
      obtain rfl := beq_iff_eq.1 hid
      cases h
      exact List.mem_cons_self
    · exact List.mem_cons_of_mem _ (ih h)

/-- A run that keeps its key is displayed in its place, and an execution of it goes on. -/
theorem Ordered.sync (h : s.Ordered) {execution execution' : ObservedExecution}
    (hlookup : s.executions.lookup runId = some execution)
    (hkey : execution'.run.key = execution.run.key) :
    ((s.insertExecution runId execution').displayRun execution'.run).Ordered := by
  obtain ⟨hid, hmem⟩ := h.executions _ (mem_executions_of_lookup hlookup)
  rw [← hkey] at hmem
  refine h.of_keys (keys_displayRun h.distinct hmem) ?_
  intro e he
  rcases List.mem_cons.1 he with rfl | he
  · exact ⟨(congrArg (fun k => (ofLex k).2) hkey).trans hid, hmem⟩
  · exact h.executions e (List.mem_filter.1 he).1

/-- The last display of a run, whose execution is taken away. -/
theorem Ordered.finish (h : s.Ordered) (outcome : Except String Unit) (now : Nat) :
    (s.finishSubagent env runId outcome now).Ordered := by
  rw [finishSubagent]
  cases hlookup : s.executions.lookup runId with
  | none => exact h
  | some execution =>
    have hmem := (h.executions _ (mem_executions_of_lookup hlookup)).2
    refine h.of_keys (keys_displayRun h.distinct hmem) ?_
    intro e he
    exact h.executions e (List.mem_filter.1 he).1

theorem Ordered.progress (h : s.Ordered) (progress : RunProgress) :
    (s.progressSubagent runId progress).Ordered := by
  rw [progressSubagent]
  cases hlookup : s.executions.lookup runId with
  | none => exact h
  | some execution => exact h.sync hlookup rfl

theorem Ordered.retry (h : s.Ordered) (message : String) (now : Nat) :
    (s.retrySubagentOrFinish env runId message now).Ordered := by
  rw [retrySubagentOrFinish]
  cases hlookup : s.executions.lookup runId with
  | none => exact h
  | some execution =>
    dsimp only
    split
    · exact h.finish _ now
    · exact h.sync hlookup rfl

/-! ### Runs that are new in the list -/

theorem perm_insertRun (h : s.Ordered) (run : ObservedRun) :
    (s.insertRun run).subagents.Perm (run :: s.subagents) :=
  BinarySearch.perm_insertSorted h.keys_le (fun existing _ => compare_key existing run) run

theorem Ordered.insertRun (h : s.Ordered) (hfresh : run.id ∉ s.subagents.map (·.id)) :
    (s.insertRun run).Ordered := by
  have hperm := perm_insertRun h run
  have hdistinct : ((s.insertRun run).subagents.map (·.id)).Nodup := by
    rw [(hperm.map _).nodup_iff, List.map_cons, List.nodup_cons]
    exact ⟨hfresh, h.distinct⟩
  refine ⟨pairwise_before ?_ hdistinct, hdistinct, fun e he => ?_⟩
  · exact BinarySearch.pairwise_insertSorted h.keys_le fun existing _ => compare_key existing run
  · obtain ⟨hid, hmem⟩ := h.executions e he
    exact ⟨hid, (hperm.map key).mem_iff.2 (List.mem_cons_of_mem _ hmem)⟩

/-- A new run is in the list, in its place, before its execution starts. -/
theorem Ordered.start (h : s.Ordered) (hfresh : run.id ∉ s.subagents.map (·.id))
    (ht : t.keys = (s.insertRun run).keys) (hexecutions : t.executions = s.executions)
    (definition : AgentDefinition) (modelTargets : List AgentModelTarget) :
    (t.insertExecution run.id (startExecution run definition modelTargets)).Ordered := by
  have hinserted := h.insertRun hfresh
  refine hinserted.of_keys ht ?_
  intro e he
  rcases List.mem_cons.1 he with rfl | he
  · exact ⟨rfl, ((perm_insertRun h run).map key).mem_iff.2 List.mem_cons_self⟩
  · rw [hexecutions] at he
    exact hinserted.executions e (List.mem_filter.1 he).1

/-- What a delegation that is not refused starts. -/
theorem delegate_spec {request : DelegationRequest} {now : Nat}
    (h : s.delegate env request runId now = .ok (some t)) :
    ∃ run definition modelTargets, run.id = runId ∧
      t = (s.insertRun run).insertExecution run.id (startExecution run definition modelTargets) := by
  simp only [delegate, bind_eq_ok] at h
  obtain ⟨-, -, -, -, definition, -, ⟨parentRunId, depth⟩, -, images, -, h⟩ := h
  split at h
  · cases h
  · next target _ =>
    obtain ⟨-, -, h⟩ := bind_eq_ok.1 h
    cases h
    exact ⟨_, definition, _, rfl, rfl⟩

/-- What a continuation that is not refused starts. -/
theorem continueSubagent_spec {sourceRunId : String} {additionalTurns now : Nat}
    (h : s.continueSubagent env sourceRunId additionalTurns runId now = .ok (some t)) :
    ∃ run definition modelTargets, run.id = runId ∧
      t = ((s.insertRun run).setSuccessor sourceRunId run.id).insertExecution run.id
        (startExecution run definition modelTargets) := by
  simp only [continueSubagent, bind_eq_ok] at h
  obtain ⟨⟨source, salvage⟩, -, definition, -, h⟩ := h
  obtain ⟨target, -, rfl⟩ := Option.map_eq_some_iff.1 (pure_eq_ok.1 h)
  exact ⟨_, definition, _, rfl, rfl⟩

theorem key_restoreRun (now : Nat) (stored : ObservedRun) :
    (restoreRun env now stored).1.key = stored.key := by
  rw [restoreRun]
  dsimp only
  split <;> split <;> rfl

/-- A stored list is in order, whatever order it is read in. -/
theorem ordered_installSubagents (s : DelegatedRuns) (env : RunSession) {records : List RunRecord}
    (now : Nat) (hdistinct : (records.map (·.run.id)).Nodup) :
    (s.installSubagents env records now).1.Ordered := by
  have hkeys : (s.installSubagents env records now).1.keys
      = (records.map (·.run.key)).insertionSort (· ≤ ·) := by
    rw [keys, installSubagents, List.map_map, ← List.map_insertionSort _ _ (·.run.key) records
      fun a _ b _ => isLE_compare_key a.run b.run]
    exact List.map_congr_left fun record _ => key_restoreRun now record.run
  have hids : ((s.installSubagents env records now).1.subagents.map (·.id)).Nodup := by
    have hperm := (List.perm_insertionSort (· ≤ ·) (records.map (·.run.key))).map
      fun k => (ofLex k).2
    rw [map_id_subagents, hkeys, hperm.nodup_iff, List.map_map]
    exact hdistinct
  refine ⟨pairwise_before ?_ hids, hids, fun e he => absurd he List.not_mem_nil⟩
  rw [hkeys]
  exact List.pairwise_insertionSort _ _

/-! ### Every run of the operations -/

inductive RunOp
  | delegate (request : DelegationRequest) (runId : String) (now : Nat)
  | continueSubagent (sourceRunId : String) (additionalTurns : Nat) (runId : String) (now : Nat)
  | progress (runId : String) (progress : RunProgress)
  | retry (runId message : String) (now : Nat)
  | finish (runId : String) (outcome : Except String Unit) (now : Nat)
  | install (records : List RunRecord) (now : Nat)
  | newSession

/-- An operation; one that is refused changes nothing. -/
def apply (env : RunSession) (s : DelegatedRuns) : RunOp → Option DelegatedRuns
  | .delegate request runId now => (s.delegate env request runId now).toOption.getD (some s)
  | .continueSubagent sourceRunId additionalTurns runId now =>
    (s.continueSubagent env sourceRunId additionalTurns runId now).toOption.getD (some s)
  | .progress runId progress => some (s.progressSubagent runId progress)
  | .retry runId message now => some (s.retrySubagentOrFinish env runId message now)
  | .finish runId outcome now => some (s.finishSubagent env runId outcome now)
  | .install records now => some (s.installSubagents env records now).1
  | .newSession => some s.newSession

/-- The run ids of an operation are distinct. -/
def Distinct (s : DelegatedRuns) : RunOp → Prop
  | .delegate _ runId _ => runId ∉ s.subagents.map (·.id)
  | .continueSubagent _ _ runId _ => runId ∉ s.subagents.map (·.id)
  | .install records _ => (records.map (·.run.id)).Nodup
  | .progress .. | .retry .. | .finish .. | .newSession => True

/-- The operations on a session's runs, with ids that are distinct. -/
def system (env : RunSession) : System DelegatedRuns RunOp :=
  (System.ofStep (apply env)).restrict Distinct

theorem Ordered.step {op : RunOp} (h : s.Ordered) (hstep : (system env).next s op t) :
    t.Ordered := by
  obtain ⟨hdistinct, hstep⟩ := hstep
  cases op with
  | delegate request runId now =>
    have happly : (s.delegate env request runId now).toOption.getD (some s) = some t := hstep
    cases hresult : s.delegate env request runId now with
    | error _ =>
      rw [hresult] at happly
      cases happly
      exact h
    | ok started =>
      rw [hresult] at happly
      obtain rfl : started = some t := happly
      obtain ⟨run, definition, modelTargets, rfl, rfl⟩ := delegate_spec hresult
      exact h.start hdistinct rfl rfl definition modelTargets
  | continueSubagent sourceRunId additionalTurns runId now =>
    have happly : (s.continueSubagent env sourceRunId additionalTurns runId now).toOption.getD
      (some s) = some t := hstep
    cases hresult : s.continueSubagent env sourceRunId additionalTurns runId now with
    | error _ =>
      rw [hresult] at happly
      cases happly
      exact h
    | ok started =>
      rw [hresult] at happly
      obtain rfl : started = some t := happly
      obtain ⟨run, definition, modelTargets, rfl, rfl⟩ := continueSubagent_spec hresult
      exact h.start hdistinct (keys_setSuccessor _ sourceRunId _) rfl definition modelTargets
  | progress runId progress =>
    cases hstep
    exact h.progress progress
  | retry runId message now =>
    cases hstep
    exact h.retry message now
  | finish runId outcome now =>
    cases hstep
    exact h.finish outcome now
  | install records now =>
    cases hstep
    exact ordered_installSubagents s env now hdistinct
  | newSession =>
    cases hstep
    exact ⟨.nil, List.nodup_nil, fun e he => absurd he List.not_mem_nil⟩

/-- The list stays in order. -/
theorem Ordered.of_run (h : s.Ordered) {ops : List RunOp} (hrun : (system env).Run s ops t) :
    t.Ordered :=
  hrun.invariant (fun hstep hs => hs.step hstep) h

end DelegatedRuns

end Nakode.Delegation
