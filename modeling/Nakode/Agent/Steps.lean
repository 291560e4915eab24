import Nakode.Agent.Moves

/-!
# Steps of a turn

Every computation of the runtime makes moves only, wherever it is stopped. A triple for each says
what it needs and what it leaves: which turn runs and what the live history waits for (`Running`).
-/

namespace Nakode.Agent

open Process Process.Proc
open Native
open ConversationItem

/-! ## Asking and waiting -/

namespace Native

variable {α : Type} {P : World → Prop} {F : Stop → World → Prop}

theorem triple_consult (hF : ∀ e w, P w → F e w) : Triple P consult (fun _ => P) F :=
  .next (hF _) fun _ _ hw => hw

theorem triple_wait (hF : ∀ e w, P w → F e w) : Triple P wait (fun _ => P) F := by
  refine .bind (triple_consult hF) fun reply => .ite (fun _ => .throw (hF _)) fun _ => ?_
  split
  · exact .throw (hF _)
  · exact .pure fun _ hw => hw

theorem triple_fail {Q : α → World → Prop} (hF : ∀ e w, P w → F e w) (message : String) :
    Triple P (fail message) Q F :=
  .throw (hF _)

theorem triple_waited (hF : ∀ e w, P w → F e w) : Triple P waited (fun _ => P) F :=
  .bind (triple_wait hF) fun _ => .pure fun _ hw => hw

theorem triple_check (hF : ∀ e w, P w → F e w) (failure : Option String) :
    Triple P (check failure) (fun _ w => failure = none ∧ P w) F := by
  unfold check
  split
  · exact .throw (hF _)
  · exact .pure fun _ hw => ⟨rfl, hw⟩

theorem triple_send (hF : ∀ e w, P w → F e w) (closed : String) :
    Triple P (send closed) (fun _ => P) F :=
  .bind (triple_wait hF) fun _ => .when (fun _ => triple_fail hF _) fun _ _ hw => hw

/-- The failure is a value, and everything else that stops the computation stops it still. -/
theorem triple_result {m : Native α} {Q : α → World → Prop} (hm : Triple P m Q F) :
    Triple P (result m) (fun r w => match r with
      | .ok a => Q a w
      | .error message => F (.failed (.failed message)) w) F := by
  refine .bind (.attempt hm (R := fun r w => match r with
    | .ok a => Q a w
    | .error e => F e w) (fun _ _ h => h) fun _ _ h => h) fun r => ?_
  match r with
  | .ok _ => exact .pure fun _ h => h
  | .error (.failed (.failed _)) => exact .pure fun _ h => h
  | .error .lost | .error .timedOut | .error (.cut _) | .error (.failed .interrupted) =>
    exact .throw fun _ h => h

theorem triple_guarded {m : Native α} {Q : α → World → Prop} (hm : Triple P m Q F) :
    Triple P (guarded m) (fun r w => match r with
      | .ok a => Q a w
      | .error failure => F (.cut failure) w) F := by
  refine .bind (.attempt hm (R := fun r w => match r with
    | .ok a => Q a w
    | .error e => F e w) (fun _ _ h => h) fun _ _ h => h) fun r => ?_
  match r with
  | .ok _ => exact .pure fun _ h => h
  | .error (.cut _) => exact .pure fun _ h => h
  | .error .lost | .error .timedOut | .error (.failed _) => exact .throw fun _ h => h

end Native

/-! ## A turn that runs -/

section
variable (R : AgentRuntime) (w₀ : World)

/-- Moves have led here; the turn that runs, if there is one, has made `n` inferences and executed
nothing but for its messages; and these calls wait for their results. -/
structure Running (turn : Option String) (n : Nat) (keys : List String) (w : World) : Prop where
  moves : Moves R turn w₀ w
  inTurn : ∀ turnId, turn = some turnId → w.InTurn turnId
  rounds : ∀ turnId, turn = some turnId → rounds turnId w.log = List.range n
  below : ∀ turnId, turn = some turnId → ∀ e ∈ executions w.log, e.1.turnId = turnId →
    e.1.slot.position < w.kept.session.historyPosition + keys.length
  waiting : w.Waiting keys

/-- Where the turn that runs is stopped. -/
def Stopped (turn : Option String) (_ : Stop) (w : World) : Prop :=
  Moves R turn w₀ w ∧ ∀ turnId, turn = some turnId → w.kept.session.pendingTurn = some turnId

end

variable {R : AgentRuntime} {w₀ w : World} {turn : Option String} {n : Nat} {keys : List String}

theorem executions_emit {effect : Effect} (h : effect.execution? = none) :
    executions (w.emit effect).log = executions w.log := by
  change executions (w.log ++ [effect]) = _
  rw [executions_append, executions, executions, List.filterMap_cons, h]
  exact List.append_nil _

theorem executions_emit_some {effect : Effect} {e : Site × ToolCall}
    (h : effect.execution? = some e) :
    executions (w.emit effect).log = executions w.log ++ [e] := by
  change executions (w.log ++ [effect]) = _
  rw [executions_append, executions, executions, List.filterMap_cons, h]
  rfl

theorem rounds_emit {turnId : String} {effect : Effect} (h : effect.round? turnId = none) :
    rounds turnId (w.emit effect).log = rounds turnId w.log := by
  change rounds turnId (w.log ++ [effect]) = _
  rw [rounds_append, rounds, rounds, List.filterMap_cons, h]
  exact List.append_nil _

namespace Running

theorem stopped (h : Running R w₀ turn n keys w) (e : Stop) : Stopped R w₀ turn e w :=
  ⟨h.moves, fun turnId hturn => (h.inTurn turnId hturn).1⟩

/-- Something is logged that is neither an inference nor an execution. -/
theorem emit (h : Running R w₀ turn n keys w) {effect : Effect}
    (hmove : Move R turn w (w.emit effect)) (hround : ∀ turnId, effect.round? turnId = none)
    (hexecution : effect.execution? = none) : Running R w₀ turn n keys (w.emit effect) where
  moves := h.moves.tail hmove
  inTurn := h.inTurn
  rounds turnId hturn := by
    rw [rounds_emit (hround turnId)]
    exact h.rounds turnId hturn
  below := by
    rw [executions_emit hexecution]
    exact h.below
  waiting hlog := h.waiting hlog.of_append

/-- Something is executed for a call that waits. -/
theorem run {turnId : String} (h : Running R w₀ (some turnId) n keys w) {effect : Effect}
    {site : Site} {toolCall : ToolCall} (hmove : Move R (some turnId) w (w.emit effect))
    (hround : ∀ turnId, effect.round? turnId = none)
    (hexecution : effect.execution? = some (site, toolCall))
    (hbelow : site.slot.position < w.kept.session.historyPosition + keys.length) :
    Running R w₀ (some turnId) n keys (w.emit effect) where
  moves := h.moves.tail hmove
  inTurn := h.inTurn
  rounds turnId hturn := by
    rw [rounds_emit (hround turnId)]
    exact h.rounds turnId hturn
  below turnId hturn e he hsame := by
    rw [executions_emit_some hexecution] at he
    rcases List.mem_append.1 he with he | he
    · exact h.below turnId hturn e he hsame
    · rw [List.mem_singleton.1 he]
      exact hbelow
  waiting hlog := h.waiting hlog.of_append

/-- The session is changed. -/
theorem update (h : Running R w₀ turn n keys w) {f : RuntimeSession → RuntimeSession}
    {next : List String} (hmove : Move R turn w (w.update f))
    (hpending : (f w.kept.session).pendingTurn = w.kept.session.pendingTurn)
    (hposition : w.kept.session.historyPosition + keys.length
      ≤ (f w.kept.session).historyPosition + next.length)
    (hwaiting : Unambiguous w.log → (f w.kept.session).waiting? = some next) :
    Running R w₀ turn n next (w.update f) where
  moves := h.moves.tail hmove
  inTurn turnId hturn := ⟨hpending.trans (h.inTurn turnId hturn).1, (h.inTurn turnId hturn).2⟩
  rounds := h.rounds
  below turnId hturn e he hsame := Nat.lt_of_lt_of_le (h.below turnId hturn e he hsame) hposition
  waiting := hwaiting

theorem save (h : Running R w₀ turn n keys w) : Running R w₀ turn n keys w.save where
  moves := h.moves.tail .save
  inTurn turnId hturn := ⟨(h.inTurn turnId hturn).1, w.kept, rfl,
    RuntimeSession.mem_turns.2 (.inl (h.inTurn turnId hturn).1)⟩
  rounds := h.rounds
  below := h.below
  waiting := h.waiting

theorem touch (h : Running R w₀ turn n keys w) (telemetry : RuntimeTelemetry)
    (checkpointed : Option PersistedTurnConfiguration) :
    Running R w₀ turn n keys (w.update fun session =>
      { session with telemetry := telemetry, checkpointedTurn := checkpointed }) :=
  h.update (.touch telemetry checkpointed) rfl (Nat.le_refl _) h.waiting

theorem pushInference (h : Running R w₀ turn n keys w) (metric : InferenceMetric) :
    Running R w₀ turn n keys (w.update (·.pushInference metric)) :=
  h.touch _ w.kept.session.checkpointedTurn

end Running

theorem triple_checkpoint {F : Stop → World → Prop}
    (hF : ∀ e w, Running R w₀ turn n keys w → F e w) :
    Triple (Running R w₀ turn n keys) checkpoint (fun _ => Running R w₀ turn n keys) F :=
  .bind (triple_consult hF) fun _ => .bind (triple_check hF _) fun _ =>
    .modify fun _ h => h.2.save

/-! ## Compaction -/

theorem triple_reportProviderFailure {P : World → Prop} {F : Stop → World → Prop}
    (hF : ∀ e w, P w → F e w) (result : Except InferenceFailure InferenceOutput) :
    Triple P (reportProviderFailure result) (fun _ => P) F := by
  unfold reportProviderFailure
  split
  · exact triple_send hF _
  · exact .pure fun _ hw => hw

theorem triple_compactHistory :
    Triple (Running R w₀ turn n []) (compactHistory R) (fun _ => Running R w₀ turn n [])
      (fun _ => Running R w₀ turn n []) := by
  unfold compactHistory
  refine .bind (.get (Q := fun w₁ w => w₁ = w ∧ Running R w₀ turn n [] w) fun _ h => ⟨rfl, h⟩)
    fun w₁ => ?_
  dsimp only
  split
  · exact triple_fail (fun _ _ h => h.2) _
  · next cut hcut =>
    -- the cut stays where it is: the history does not change before it is made
    let Cut (w : World) : Prop := compactionCutIndex R.imageTokens w.kept.session.history
      w.kept.session.providerId w.kept.session.model = some cut ∧ Running R w₀ turn n [] w
    have hstop : ∀ (_ : Stop) w, Cut w → Running R w₀ turn n [] w := fun _ _ h => h.2
    refine .bind (.modify (Q := fun _ => Cut) ?_) fun _ => ?_
    · rintro w ⟨rfl, h⟩
      exact ⟨hcut, h.emit (.summarize rfl) (fun _ => rfl) rfl⟩
    refine .bind (triple_wait hstop) fun reply => ?_
    refine .bind (triple_reportProviderFailure hstop _) fun _ => ?_
    refine .bind ((triple_check hstop _).post fun _ _ h => h.2) fun _ => ?_
    refine .bind (.modify (Q := fun _ => Cut) fun w h => ⟨h.1, h.2.pushInference _⟩) fun _ => ?_
    split
    · exact triple_fail hstop _
    · refine .ite (fun _ => triple_fail hstop _) fun _ => .ite (fun _ => triple_fail hstop _)
        fun _ => .modify ?_
      intro w ⟨hcut, h⟩
      refine h.update (.compacted hcut h.waiting) rfl ?_ fun hlog =>
        RuntimeSession.waiting?_compacted hcut (h.waiting hlog)
      exact Nat.le_of_eq (congrArg (·.length + 0)
        (RuntimeSession.historyItems_compacted _ _ _ _ _ _).symm)

/-- A compaction leaves nothing to wait for, however it ends. -/
theorem triple_compact (turnId compactionId : String) (reason : CompactionReason) :
    Triple (Running R w₀ turn n []) (compact R turnId compactionId reason)
      (fun _ => Running R w₀ turn n []) (fun _ => Running R w₀ turn n []) := by
  have hstop : ∀ (_ : Stop) w, Running R w₀ turn n [] w → Running R w₀ turn n [] w :=
    fun _ _ h => h
  unfold compact
  refine .bind (.get fun _ h => h) fun before => ?_
  refine .bind (triple_send hstop _) fun _ => ?_
  refine .bind (Q := fun _ => Running R w₀ turn n [])
    ((triple_result triple_compactHistory).post ?_) fun result => ?_
  · intro result w h
    cases result <;> exact h
  refine .bind (.modify (Q := fun _ => Running R w₀ turn n []) ?_) fun _ => ?_
  · intro w h
    refine h.update (.event h.waiting) rfl ?_ fun hlog =>
      RuntimeSession.waiting?_push (h.waiting hlog)
        (Exchange.receive_plain (role_compactionEvent _))
    exact (Nat.le_succ _).trans_eq (w.kept.session.historyPosition_push _ rfl).symm
  refine .bind (triple_send hstop _) fun _ => .bind (triple_send hstop _) fun _ => ?_
  exact (triple_check hstop _).post fun _ _ h => h.2

/-! ## Inference -/

/-- The provider was asked in a round, with these tools. -/
def Asked (turnId : String) (round : Nat) (tools : List ToolDefinition) (w : World) : Prop :=
  (∃ request, .inference turnId round request ∈ w.log ∧ request.tools = tools)
    ∧ ∀ request, .inference turnId round request ∈ w.log → request.tools = tools

theorem Asked.emit {turnId : String} {round : Nat} {tools : List ToolDefinition}
    (h : Asked turnId round tools w) {effect : Effect}
    (hround : ∀ turnId, effect.round? turnId = none) : Asked turnId round tools (w.emit effect) := by
  obtain ⟨⟨request, hlog, htools⟩, hall⟩ := h
  refine ⟨⟨request, List.mem_append_left _ hlog, htools⟩, fun other hother => ?_⟩
  rcases List.mem_append.1 hother with hother | hother
  · exact hall other hother
  · have hnone := hround turnId
    rw [← List.mem_singleton.1 hother] at hnone
    simp [Effect.round?] at hnone

theorem mem_rounds {turnId : String} {round : Nat} {request : InferenceRequest} {log : List Effect}
    (h : .inference turnId round request ∈ log) : round ∈ rounds turnId log :=
  List.mem_filterMap.2 ⟨_, h, by simp [Effect.round?]⟩

/-- The provider is asked in the next round. -/
theorem Running.infer {turnId : String} (h : Running R w₀ (some turnId) n [] w)
    {tools : List ToolDefinition} (htools : R.Asks n tools) :
    Running R w₀ (some turnId) (n + 1) []
        (w.emit (.inference turnId n (w.kept.session.inferenceRequest tools)))
      ∧ Asked turnId n tools
        (w.emit (.inference turnId n (w.kept.session.inferenceRequest tools))) := by
  have hrounds := h.rounds turnId rfl
  refine ⟨{
    moves := h.moves.tail (.infer (h.inTurn turnId rfl) hrounds htools h.waiting)
    inTurn := h.inTurn
    rounds := ?_
    below := ?_
    waiting := fun hlog => h.waiting hlog.of_append },
    ⟨_, List.mem_append_right _ (List.mem_singleton.2 rfl), rfl⟩, fun request hrequest => ?_⟩
  · intro other hother
    cases hother
    change Nakode.Agent.rounds turnId (w.log ++ [_]) = _
    rw [rounds_append, hrounds, List.range_succ, Nakode.Agent.rounds, List.filterMap_cons]
    simp [Effect.round?]
  · rw [executions_emit rfl]
    exact h.below
  · rcases List.mem_append.1 hrequest with hold | hnew
    · have hmem := mem_rounds hold
      rw [hrounds] at hmem
      exact absurd (List.mem_range.1 hmem) (Nat.lt_irrefl n)
    · cases List.mem_singleton.1 hnew
      rfl

theorem triple_inferOnce {turnId : String} {round : Nat} {toolsAllowed : Bool}
    (htools : R.Asks round (if toolsAllowed then R.inferenceTools else [])) :
    Triple (Running R w₀ (some turnId) round []) (inferOnce R turnId round toolsAllowed)
      (fun _ w => Running R w₀ (some turnId) (round + 1) [] w
        ∧ Asked turnId round (if toolsAllowed then R.inferenceTools else []) w)
      (Stopped R w₀ (some turnId)) := by
  let Answered (w : World) : Prop := Running R w₀ (some turnId) (round + 1) [] w
    ∧ Asked turnId round (if toolsAllowed then R.inferenceTools else []) w
  have hstop : ∀ e w, Answered w → Stopped R w₀ (some turnId) e w := fun e _ h => h.1.stopped e
  unfold inferOnce
  refine .bind (.get (Q := fun w₁ w => w₁ = w ∧ Running R w₀ (some turnId) round [] w)
    fun _ h => ⟨rfl, h⟩) fun w₁ => ?_
  refine .bind (.modify (Q := fun _ => Answered) ?_) fun _ => ?_
  · rintro w ⟨rfl, h⟩
    exact h.infer htools
  refine .bind (triple_wait hstop) fun reply => ?_
  refine .bind (.when (Q := fun _ => Answered) (fun _ => triple_fail hstop _) fun _ _ h => h)
    fun _ => ?_
  refine .bind ((triple_check hstop _).post fun _ _ h => h.2) fun _ => ?_
  refine .bind (triple_reportProviderFailure hstop _) fun _ => ?_
  refine .bind (.modify fun w h => ?_) fun _ => .pure fun _ h => h
  exact ⟨h.1.pushInference _, h.2⟩

end Nakode.Agent
