import Nakode.Delegation.Runs
import Nakode.Domain.Runs
import Nakode.Lib.Worklist

/-!
# The executor of an engine's effects

`EffectExecutor::execute` performs a list of effects one after another; what performing one of them
asks for is put at the end of the list (`executor`). A command to the session's backend that cannot
be sent makes the engine lose the backend, which ends its delegated runs. What the engine then asks
for is performed if and only if that is nothing: `sendBackendCommand` has no list to put it in.
-/

namespace Nakode.Delegation

open Domain (BackendCommand DomainState)
open Transition Worklist

/-- What comes of performing an effect: why it failed, if it did, and what other effects meet. -/
structure Reply (ρ : Type) where
  failure : Option String
  other : ρ
  deriving DecidableEq, Repr

section
variable {ε ρ : Type} (texts : Texts)

/-- What the engine asks for when a command to its backend cannot be sent. -/
def disconnection (ε : Type) (s : Delegates) (reason : String) : Delegates × List (Effect ε) :=
  s.handleProviderDisconnected texts s.domain.backendProvider reason

/-- `send_backend_command`: when it fails, what the engine asks for is dropped. -/
def sendBackendCommand (ε : Type) (s : Delegates) : Option String → Delegates
  | none => s
  | some reason => (disconnection texts ε s reason).1

/-- `execute_one`: the engine after an effect, and what is put on the list. How effects of other
types are performed is a parameter. -/
def executeOne (others : Delegates → ε → ρ → Delegates × List (Effect ε)) (s : Delegates) :
    Effect ε → Reply ρ → Delegates × List (Effect ε)
  | .backend _, reply => (sendBackendCommand texts ε s reply.failure, [])
  | .spawnSubagent runId _, reply =>
    match reply.failure with
    | none => (s, [])
    | some message => s.subagentLaunchFailed texts runId message
  | .subagentBackend runId _, reply =>
    match reply.failure with
    | none => (s, [])
    | some _ => s.subagentLaunchFailed texts runId "subagent command channel closed"
  | .stopSubagent _, _ => (s, [])
  | .completeAgentRequest _ _ _, _ => (s, [])
  | .persistSubagent _, reply | .persistSharedContext _, reply =>
    (if reply.failure.isSome then s.sessionStoreFailed else s, [])
  | .other effect, reply => others s effect reply.other

/-- `execute` -/
def executor (others : Delegates → ε → ρ → Delegates × List (Effect ε)) :
    System (Queue Delegates (Effect ε)) (Reply ρ) :=
  worker (executeOne texts others)

/-- `complete_native_delegations`: which requests still wait for their runs once the effects that
are about to be executed have been looked at. -/
def completeNativeDelegations (waiting : List Nat) (effects : List (Effect ε)) : List Nat :=
  waiting.filter fun request => request == 0 || !effects.any fun
    | .completeAgentRequest requestId _ _ => requestId == request
    | _ => false

end

/-! ## What a lost backend asks for -/

variable {ε ρ : Type} {texts : Texts} {s : Delegates}

/-- The effects that end a run, none of which asks for more. -/
def Effect.Ends : Effect ε → Prop
  | .completeAgentRequest _ _ _ | .stopSubagent _ | .persistSubagent _ => True
  | _ => False

theorem executeOne_of_ends {others : Delegates → ε → ρ → Delegates × List (Effect ε)}
    {effect : Effect ε} (h : effect.Ends) (s : Delegates) (reply : Reply ρ) :
    (executeOne texts others s effect reply).2 = [] := by
  cases effect <;> first | rfl | exact h.elim

theorem terminationKind_interrupted :
    terminationKind "Interrupted by the parent agent." = "interrupted" := by
  decide +kernel

/-- An interrupted run is answered, and its backend stopped. -/
theorem finishSubagent_interrupted {runId : String} {execution : SubagentExecution}
    (h : s.executions.lookup runId = some execution) :
    ∃ result, (s.finishSubagent texts runId "Interrupted by the parent agent.").2 =
      ([.completeAgentRequest execution.requestId result false, .stopSubagent runId] :
        List (Effect ε)) := by
  simp [Delegates.finishSubagent, h, terminationKind_interrupted]

theorem finishSubagent_ends (runId : String) (effect : Effect ε)
    (heffect : effect ∈ (s.finishSubagent texts runId "Interrupted by the parent agent.").2) :
    effect.Ends := by
  cases h : s.executions.lookup runId with
  | none => simp [Delegates.finishSubagent, h] at heffect
  | some execution =>
    obtain ⟨result, heq⟩ := finishSubagent_interrupted h
    rw [heq] at heffect
    rcases List.mem_pair.1 heffect with rfl | rfl <;> trivial

theorem persistSubagentEffect_ends {runId : String} {effect : Effect ε}
    (h : s.persistSubagentEffect runId = some effect) : effect.Ends := by
  obtain ⟨parent, -, h⟩ := Option.bind_eq_some_iff.1 h
  obtain ⟨run, -, h⟩ := Option.bind_eq_some_iff.1 h
  obtain ⟨transcript, -, h⟩ := Option.bind_eq_some_iff.1 h
  cases h
  trivial

theorem interruptRuns_ends (runIds : List String) (s : Delegates) (effect : Effect ε)
    (heffect : effect ∈ (Delegates.interruptRuns texts runIds s).2) : effect.Ends := by
  induction runIds generalizing s with
  | nil => simp [Delegates.interruptRuns] at heffect
  | cons runId rest ih =>
    simp only [Delegates.interruptRuns, List.mem_append] at heffect
    rcases heffect with (hfinished | hpersisted) | hmore
    · exact finishSubagent_ends runId effect hfinished
    · exact persistSubagentEffect_ends (Option.mem_toList.1 hpersisted)
    · exact ih _ hmore

theorem disconnection_eq {reason : String} :
    (disconnection texts ε s reason).2 =
      (Delegates.interruptRuns texts (s.active.map (·.1)) { s with
        domain := (s.engine.handleProviderBackend s.domain.backendProvider
          (.disconnected reason)).1 }).2 := by
  simp [disconnection, Delegates.handleProviderDisconnected, Delegates.interruptSubagents,
    Delegates.active]

/-- Losing the backend asks for nothing if and only if no run is starting or working. -/
theorem disconnection_eq_nil {reason : String} :
    (disconnection texts ε s reason).2 = [] ↔ s.active = [] := by
  rw [disconnection_eq]
  cases hactive : s.active with
  | nil => simp [Delegates.interruptRuns]
  | cons entry rest =>
    have hmem : entry ∈ s.executions := by
      have : entry ∈ s.active := by rw [hactive]; exact List.mem_cons_self
      exact (List.mem_filter.1 this).1
    obtain ⟨execution, hlookup⟩ : ∃ execution, s.executions.lookup entry.1 = some execution := by
      cases h : s.executions.lookup entry.1 with
      | none => exact absurd (List.lookup_eq_none_iff.1 h entry hmem) (by simp)
      | some execution => exact ⟨execution, rfl⟩
    simp [Delegates.interruptRuns, Delegates.finishSubagent, hlookup]

theorem disconnection_ends {reason : String} (effect : Effect ε)
    (heffect : effect ∈ (disconnection texts ε s reason).2) : effect.Ends := by
  rw [disconnection_eq] at heffect
  exact interruptRuns_ends _ _ effect heffect

/-! ## A command that cannot be sent -/

/-- In a complete execution of a list of effects, with the session in state `c.state` and the
command the first of the effects that are left, sending it fails; `c'` is the end. -/
def FailsAt (texts : Texts) (others : Delegates → ε → ρ → Delegates × List (Effect ε))
    (s : Delegates) (effects : List (Effect ε)) (c c₁ c' : Queue Delegates (Effect ε))
    (reason : String) : Prop :=
  ∃ before after command rest reply, (executor texts others).Run ⟨s, effects, []⟩ before c ∧
    c.pending = .backend command :: rest ∧ reply.failure = some reason ∧
    (executor texts others).next c reply c₁ ∧ (executor texts others).Run c₁ after c' ∧
    c'.pending = []

/-- What the engine asks for is performed next, and then the effects that are left in order; and
none of the requests whose runs it has ended is left waiting. -/
def CarriesOut (texts : Texts) (c c₁ c' : Queue Delegates (Effect ε)) (reason : String)
    (waiting : List Nat) : Prop :=
  (∃ performed, c'.performed = c₁.performed ++ performed ∧
    (disconnection texts ε c.state reason).2 ++ c.pending.tail <+: performed) ∧
  ∀ entry ∈ c.state.active, entry.2.requestId ∉ waiting

/-- A command that cannot be sent loses none of what follows from it if and only if no delegated
run is starting or working when it is sent. -/
theorem failed_send_carried_out_iff (texts : Texts)
    (others : Delegates → ε → ρ → Delegates × List (Effect ε)) (s : Delegates)
    (effects : List (Effect ε)) (waiting : List Nat) {c c₁ c' : Queue Delegates (Effect ε)}
    {reason : String} (h : FailsAt texts others s effects c c₁ c' reason) :
    CarriesOut texts c c₁ c' reason (completeNativeDelegations waiting effects) ↔
      c.state.active = [] := by
  obtain ⟨before, after, command, rest, reply, -, hpending, -, hnext, hafter, hdone⟩ := h
  obtain ⟨work, rest', hwork, rfl⟩ := hnext
  rw [hpending, List.cons.injEq] at hwork
  obtain ⟨rfl, rfl⟩ := hwork
  constructor
  · rintro ⟨⟨performed, hperformed, hbefore⟩, -⟩
    by_contra hactive
    have hne : (disconnection texts ε c.state reason).2 ≠ [] :=
      fun hnil => hactive (disconnection_eq_nil.1 hnil)
    refine Run.not_before hafter hdone hne ?_ hperformed ?_
    · intro effect heffect s reply
      exact executeOne_of_ends (disconnection_ends effect heffect) s reply
    · simpa [hpending, executeOne] using hbefore
  · intro hactive
    obtain ⟨performed, hperformed, hfirst⟩ := Run.performs hafter hdone
    refine ⟨⟨performed, hperformed, ?_⟩, by simp [hactive]⟩
    rw [disconnection_eq_nil.2 hactive, hpending]
    simpa [executeOne] using hfirst

/-! ### A session with a run that is working -/

/-- A session that waits for nothing, with the runs that it has delegated. -/
def delegating (runs : List SubagentExecution) : Delegates where
  domain := { DomainState.native with
    sessionId := some "session"
    providerSessionId := some "thread"
    activeTurn := some ⟨"turn", none, false⟩ }
  executions := runs.map fun execution => (execution.run.id, execution)
  subagents := runs.map (·.run)
  chats := runs.map fun execution => (execution.run.id, [])
  sharedContext := []
  sharedContextTotal := 0

/-- A run that is working for the request 41. -/
def working : SubagentExecution where
  run := ⟨"run", "researcher", "native", none, none, "Look into it.", .working, "Reading.", none,
    none, none, none⟩
  requestId := 41
  sessionId := none
  response := ""
  modelTargets := []
  modelTargetIndex := 0

def plainTexts : Texts where
  salvage _ _ reason := reason
  summarize text _ := text
  mismatch _ := none

/-- A steering of the session's turn, and the end of a backend. -/
def steering : List (Effect Unit) :=
  [.backend (.steerTurn "thread" "turn" "prompt" "Go on."), .stopSubagent "earlier"]

def noOthers (s : Delegates) (_ _ : Unit) : Delegates × List (Effect Unit) := (s, [])

/-- The execution of `steering` after `n` of its effects, the command not being sent. -/
def steered (runs : List SubagentExecution) : Nat → Queue Delegates (Effect Unit)
  | 0 => ⟨delegating runs, steering, []⟩
  | n + 1 => ⟨(disconnection plainTexts Unit (delegating runs) "gone").1, steering.drop (n + 1),
      steering.take (n + 1)⟩

theorem steering_fails (runs : List SubagentExecution) :
    FailsAt plainTexts noOthers (delegating runs) steering (steered runs 0) (steered runs 1)
      (steered runs 2) "gone" := by
  refine ⟨[], [⟨none, ()⟩], _, _, ⟨some "gone", ()⟩, .nil _, rfl, rfl, ⟨_, _, rfl, rfl⟩, ?_, rfl⟩
  exact .single ⟨_, _, rfl, rfl⟩

theorem failed_send_carried_out_idle :
    CarriesOut plainTexts (steered [] 0) (steered [] 1) (steered [] 2) "gone"
      (completeNativeDelegations [41] steering) :=
  (failed_send_carried_out_iff plainTexts noOthers (delegating []) steering [41]
    (steering_fails [])).2 rfl

/-- The run is interrupted, and its request waits on. -/
theorem working_run_left_waiting :
    FailsAt plainTexts noOthers (delegating [working]) steering (steered [working] 0)
      (steered [working] 1) (steered [working] 2) "gone" ∧
    (steered [working] 2).state.executions = [] ∧
    ¬CarriesOut plainTexts (steered [working] 0) (steered [working] 1) (steered [working] 2) "gone"
      (completeNativeDelegations [41] steering) := by
  refine ⟨steering_fails _, by decide +kernel, ?_⟩
  rintro ⟨-, hanswered⟩
  exact hanswered ("run", working) (by decide +kernel) (by decide +kernel)

end Nakode.Delegation
