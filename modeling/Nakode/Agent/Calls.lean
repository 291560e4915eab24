import Nakode.Agent.Steps

/-!
# Steps of tool calls

While the calls of a message are executed (`Executing`), the checkpoint has the conversation as it
stands, and what was executed at positions of results that are still to come is known. So nothing is
executed twice for a call, and each result that is recorded is that of what was executed, or a
failure when nothing was (`Outcome`).
-/

namespace Nakode.Agent

open Process Process.Proc
open Native
open ConversationItem

/-! ## Where a call stands -/

/-- The calls of a message that wait for their results, where the first of these belongs, and what
was executed for it. -/
structure Calls where
  turnId : String
  round : Nat
  keys : List String
  position : Nat
  ran : List (Site × ToolCall) := []

/-- A place for what is executed for one of the calls, or for a call of its program. -/
structure Place (c : Calls) (site : Site) (toolCall : ToolCall) : Prop where
  turn : site.turnId = c.turnId
  round : site.round = c.round
  slot : ∃ i, site.slot.position = c.position + i ∧ i < c.keys.length
    ∧ (site.slot.sequence = none → c.keys[i]? = some toolCall.id)

/-- What was executed before, and what is executed for a call. -/
def With (done : Site × ToolCall → Prop) (site : Site) (toolCall : ToolCall) :
    Site × ToolCall → Prop :=
  fun e => done e ∨ e = (site, toolCall)

section
variable (R : AgentRuntime) (w₀ : World)

/-- The calls of a message are executed. Beside what was executed for earlier calls, the log has
what `done` tells: of this turn, and of others unless a recovery went wrong. -/
structure Executing (c : Calls) (done : Site × ToolCall → Prop) (w : World) : Prop where
  running : Running R w₀ (some c.turnId) (c.round + 1) c.keys w
  synced : w.Synced
  asked : Asked c.turnId c.round R.inferenceTools w
  position : w.kept.session.historyPosition = c.position
  done : ∀ e ∈ executions w.log, Unambiguous w.log ∨ e.1.turnId = c.turnId →
    e.1.slot.position < c.position ∨ done e
  ran : ∀ e ∈ c.ran, e ∈ executions w.log

/-- What was answered to a call: the outcome of what was executed for it, which is something exactly
when the tool was offered and accepts the arguments, or a failure. -/
structure Outcome (site : Site) (toolCall : ToolCall) (executed : ExecutedTool) (log : List Effect) :
    Prop where
  id : executed.callId = toolCall.id
  explains : Unambiguous log → ∀ other call, (other, call) ∈ executions log →
    other.slot = site.slot → Explains log other call executed.item
  runs : R.Offers R.inferenceTools site.slot.sequence toolCall.name →
    R.accepts site.slot.sequence.isSome toolCall = true → (site, toolCall) ∈ executions log
  fails : ¬(R.Offers R.inferenceTools site.slot.sequence toolCall.name
    ∧ R.accepts site.slot.sequence.isSome toolCall = true) → executed.failed = true

end

variable {R : AgentRuntime} {w₀ w : World} {c : Calls} {done : Site × ToolCall → Prop} {site : Site}
  {toolCall : ToolCall} {executed : ExecutedTool}

namespace Executing

theorem stopped (h : Executing R w₀ c done w) (e : Stop) : Stopped R w₀ (some c.turnId) e w :=
  h.running.stopped e

theorem weaken (h : Executing R w₀ c done w) {done' : Site × ToolCall → Prop}
    (hdone : ∀ e, done e → done' e) : Executing R w₀ c done' w :=
  { h with done := fun e he hlog => (h.done e he hlog).imp_right (hdone e) }

/-- Something is logged that is neither an inference nor an execution. -/
theorem emit (h : Executing R w₀ c done w) {effect : Effect}
    (hmove : Move R (some c.turnId) w (w.emit effect))
    (hround : ∀ turnId, effect.round? turnId = none) (hexecution : effect.execution? = none) :
    Executing R w₀ c done (w.emit effect) where
  running := h.running.emit hmove hround hexecution
  synced := h.synced
  asked := h.asked.emit hround
  position := h.position
  done := by
    rw [executions_emit hexecution]
    exact fun e he hlog => h.done e he (hlog.imp_left Unambiguous.of_append)
  ran e he := by
    rw [executions_emit hexecution]
    exact h.ran e he

/-- The session is changed beside its conversation. -/
theorem touch (h : Executing R w₀ c done w) (telemetry : RuntimeTelemetry)
    (checkpointed : Option PersistedTurnConfiguration) :
    Executing R w₀ c done (w.update fun session =>
      { session with telemetry := telemetry, checkpointedTurn := checkpointed }) :=
  { h with running := h.running.touch telemetry checkpointed }

theorem pushTool (h : Executing R w₀ c done w) (metric : ToolMetric) :
    Executing R w₀ c done (w.update (·.pushTool metric)) :=
  h.touch _ w.kept.session.checkpointedTurn

theorem retain (h : Executing R w₀ c done w) (callId : String) (attachment : PromptAttachment)
    (moreAttachments : List PromptAttachment) :
    Executing R w₀ c done (w.retain c.turnId callId attachment moreAttachments) := by
  have hmove : Move R (some c.turnId) w (w.retain c.turnId callId attachment moreAttachments) :=
    .retain (h.running.inTurn c.turnId rfl)
  have hexecutions : executions (w.retain c.turnId callId attachment moreAttachments).log
      = executions w.log := executions_emit (w := w) rfl
  refine ⟨⟨h.running.moves.tail hmove, h.running.inTurn, fun turnId hturn => ?_, ?_,
    fun hlog => h.running.waiting hlog.of_append⟩, h.synced, ?_, h.position, ?_, ?_⟩
  · exact (rounds_emit (w := w) rfl).trans (h.running.rounds turnId hturn)
  · rw [hexecutions]
    exact h.running.below
  · exact Asked.emit (w := w) h.asked fun _ => rfl
  · rw [hexecutions]
    exact fun e he hlog => h.done e he (hlog.imp_left Unambiguous.of_append)
  · rw [hexecutions]
    exact h.ran

theorem offered (h : Executing R w₀ c done w) (hp : Place c site toolCall) :
    Offered R w.log site toolCall
      ↔ R.Offers R.inferenceTools site.slot.sequence toolCall.name := by
  obtain ⟨⟨request, hlog, htools⟩, hall⟩ := h.asked
  constructor
  · rintro ⟨other, hother, hoffers⟩
    rw [hp.turn, hp.round] at hother
    rwa [hall other hother] at hoffers
  · intro hoffers
    exact ⟨request, by rw [hp.turn, hp.round]; exact hlog, by rwa [htools]⟩

/-- Nothing was executed at a place that `done` does not tell of. -/
theorem slot_ne (h : Executing R w₀ c done w) (hp : Place c site toolCall)
    (hnew : ∀ e, done e → e.1.slot ≠ site.slot) :
    ∀ e ∈ executions w.log, Unambiguous w.log ∨ e.1.turnId = site.turnId →
      e.1.slot ≠ site.slot := by
  intro e he hlog hslot
  rw [hp.turn] at hlog
  rcases h.done e he hlog with hbelow | hdone
  · obtain ⟨i, hi, -, -⟩ := hp.slot
    rw [hslot, hi] at hbelow
    omega
  · exact hnew e hdone hslot

theorem executable (h : Executing R w₀ c done w) (hp : Place c site toolCall)
    (hnew : ∀ e, done e → e.1.slot ≠ site.slot)
    (hoffers : R.Offers R.inferenceTools site.slot.sequence toolCall.name)
    (haccepts : R.accepts site.slot.sequence.isSome toolCall = true) :
    w.Executable R site toolCall where
  turn := by
    rw [hp.turn]
    exact h.running.inTurn c.turnId rfl
  offered := (h.offered hp).2 hoffers
  accepted := haccepts
  synced := h.synced
  waits := by
    obtain ⟨i, hi, hlt, hkey⟩ := hp.slot
    exact ⟨c.keys, i, h.running.waiting, by rw [hi, h.position], hlt, hkey⟩
  fresh := h.slot_ne hp hnew

/-- Something is executed. -/
theorem run (h : Executing R w₀ c done w) (hp : Place c site toolCall) {effect : Effect}
    (hmove : Move R (some site.turnId) w (w.emit effect))
    (hround : ∀ turnId, effect.round? turnId = none)
    (hexecution : effect.execution? = some (site, toolCall)) :
    Executing R w₀ c (With done site toolCall) (w.emit effect) where
  running := by
    obtain ⟨i, hi, hlt, -⟩ := hp.slot
    rw [hp.turn] at hmove
    refine h.running.run hmove hround hexecution ?_
    rw [hi, h.position]
    exact Nat.add_lt_add_left hlt _
  synced := h.synced
  asked := h.asked.emit hround
  position := h.position
  done e he hlog := by
    rw [executions_emit_some hexecution] at he
    rcases List.mem_append.1 he with he | he
    · exact (h.done e he (hlog.imp_left Unambiguous.of_append)).imp_right .inl
    · exact .inr (.inr (List.mem_singleton.1 he))
  ran e he := by
    rw [executions_emit_some hexecution]
    exact List.mem_append_left _ (h.ran e he)

end Executing

namespace Outcome

/-- A call was answered without executing anything: the tool is not offered, or does not accept the
arguments. -/
theorem refused (h : Executing R w₀ c done w) (hp : Place c site toolCall)
    (hnew : ∀ e, done e → e.1.slot ≠ site.slot) (hid : executed.callId = toolCall.id)
    (hfailed : executed.failed = true)
    (hrefused : ¬(R.Offers R.inferenceTools site.slot.sequence toolCall.name
      ∧ R.accepts site.slot.sequence.isSome toolCall = true)) :
    Outcome R site toolCall executed w.log where
  id := hid
  explains hlog other call hmem hslot :=
    absurd hslot (h.slot_ne hp hnew (other, call) hmem (.inl hlog))
  runs hoffers haccepts := absurd ⟨hoffers, haccepts⟩ hrefused
  fails _ := hfailed

/-- A call was answered with what was executed for it. -/
theorem ran (h : Executing R w₀ c (With done site toolCall) w)
    (hp : Place c site toolCall) (hnew : ∀ e, done e → e.1.slot ≠ site.slot)
    (hmem : (site, toolCall) ∈ executions w.log) {outcome : ToolResult} {more : String}
    (hfinished : .finished site outcome ∈ w.log) (hid : executed.callId = toolCall.id)
    (hfailed : executed.failed = outcome.failed) (houtput : executed.output = outcome.output ++ more)
    (hoffers : R.Offers R.inferenceTools site.slot.sequence toolCall.name)
    (haccepts : R.accepts site.slot.sequence.isSome toolCall = true) :
    Outcome R site toolCall executed w.log where
  id := hid
  explains hlog other call hother hslot := by
    rcases h.done (other, call) hother (.inl hlog) with hbelow | hdone | hsame
    · obtain ⟨i, hi, -, -⟩ := hp.slot
      simp only [hslot, hi] at hbelow
      omega
    · exact absurd hslot (hnew (other, call) hdone)
    · obtain ⟨rfl, rfl⟩ := Prod.mk.inj hsame
      exact ⟨hid, .inr ⟨outcome, more, hfinished, hfailed, houtput⟩⟩
  runs _ _ := hmem
  fails hnot := absurd ⟨hoffers, haccepts⟩ hnot

theorem emit (h : Outcome R site toolCall executed w.log) {effect : Effect}
    (hexecution : effect.execution? = none) : Outcome R site toolCall executed (w.emit effect).log where
  id := h.id
  explains hlog other call hother hslot := by
    rw [executions_emit hexecution] at hother
    exact (h.explains hlog.of_append other call hother hslot).append [effect]
  runs hoffers haccepts := by
    rw [executions_emit hexecution]
    exact h.runs hoffers haccepts
  fails := h.fails

theorem answers (h : Outcome R site toolCall executed w.log) (hw : Executing R w₀ c done w)
    (hp : Place c site toolCall) : Answers R w.log site toolCall executed.item := by
  rw [Answers, hw.offered hp]
  exact ⟨fun ⟨hoffers, haccepts⟩ => h.runs hoffers haccepts, h.fails⟩

end Outcome

/-! ## Offered tools -/

namespace AgentRuntime

variable (R : AgentRuntime)

/-- Outside of code mode the underlying tools are offered. -/
theorem offers_direct (hmode : R.codeModeCatalogue = none) (name : String) :
    R.Offers R.inferenceTools none name ↔ R.isExternalTool name = true
      ∨ R.builtinToolAllowed name = true ∧ (R.tools.findAvailable? name).isSome = true := by
  rw [← mem_underlyingTools, Offers, inferenceTools]
  have hoff : (R.externalTools.getD {}).codeMode = false := by
    unfold codeModeCatalogue at hmode
    cases hexternal : R.externalTools with
    | none => rfl
    | some external => simpa [hexternal] using hmode
  rw [if_neg (by rw [hoff]; exact Bool.false_ne_true)]

theorem inferenceTools_of_codeMode {catalogue : List ToolDefinition}
    (hmode : R.codeModeCatalogue = some catalogue) :
    R.inferenceTools = [codeModeDefinition catalogue]
      ∧ catalogue = R.underlyingTools (R.externalTools.getD {}) := by
  unfold codeModeCatalogue at hmode
  unfold inferenceTools
  cases hexternal : R.externalTools with
  | none => simp [hexternal] at hmode
  | some external =>
    rw [hexternal] at hmode
    simp only [Option.bind_some, Option.ite_none_right_eq_some, Option.some.injEq] at hmode
    simp only [Option.getD_some, hmode.1, if_true, hmode.2, and_self]

/-- In code mode only programs are offered. -/
theorem offers_program {catalogue : List ToolDefinition}
    (hmode : R.codeModeCatalogue = some catalogue) (name : String) :
    R.Offers R.inferenceTools none name ↔ name = "codemode" := by
  rw [Offers, (R.inferenceTools_of_codeMode hmode).1]
  rw [List.map_cons, List.map_nil, List.mem_singleton, name_codeModeDefinition]

/-- To a program what its catalogue lists is offered. -/
theorem offers_nested {catalogue : List ToolDefinition}
    (hmode : R.codeModeCatalogue = some catalogue) (sequence : Nat) (name : String) :
    (R.Offers R.inferenceTools (some sequence) name ↔ sequence ≤ maxToolCalls
        ∧ name ≠ "codemode" ∧ name ∈ catalogue.map (·.name))
      ∧ (name ∈ catalogue.map (·.name) ↔ R.isExternalTool name = true
        ∨ R.builtinToolAllowed name = true
          ∧ (R.tools.findAvailable? name).isSome = true) := by
  obtain ⟨htools, hcatalogue⟩ := R.inferenceTools_of_codeMode hmode
  refine ⟨?_, by rw [hcatalogue, mem_underlyingTools]⟩
  rw [Offers, htools, hmode]
  simp only [Option.some.injEq]
  constructor
  · rintro ⟨hfew, hne, listed, rfl, -, hmem⟩
    exact ⟨hfew, hne, hmem⟩
  · rintro ⟨hfew, hne, hmem⟩
    exact ⟨hfew, hne, catalogue, rfl, rfl, hmem⟩

end AgentRuntime

/-! ## Builtin tools -/

/-- After a call was executed. -/
def Ran (R : AgentRuntime) (w₀ : World) (c : Calls) (done : Site × ToolCall → Prop) (site : Site)
    (toolCall : ToolCall) (w : World) : Prop :=
  Executing R w₀ c (With done site toolCall) w ∧ (site, toolCall) ∈ executions w.log

/-- Wherever the execution of a call is stopped. -/
def Halted (R : AgentRuntime) (w₀ : World) (c : Calls) (done : Site × ToolCall → Prop) (site : Site)
    (toolCall : ToolCall) (_ : Stop) (w : World) : Prop :=
  Executing R w₀ c (With done site toolCall) w

/-- After a call was answered. -/
def Served (R : AgentRuntime) (w₀ : World) (c : Calls) (done : Site × ToolCall → Prop)
    (site : Site) (toolCall : ToolCall) (executed : ExecutedTool) (w : World) : Prop :=
  Executing R w₀ c (With done site toolCall) w ∧ Outcome R site toolCall executed w.log

section
variable (hp : Place c site toolCall) (hnew : ∀ e, done e → e.1.slot ≠ site.slot)

theorem Ran.emit (h : Ran R w₀ c done site toolCall w) {effect : Effect}
    (hmove : Move R (some c.turnId) w (w.emit effect))
    (hround : ∀ turnId, effect.round? turnId = none)
    (hexecution : effect.execution? = none) : Ran R w₀ c done site toolCall (w.emit effect) :=
  ⟨h.1.emit hmove hround hexecution, by rw [executions_emit hexecution]; exact h.2⟩

theorem Executing.halted (h : Executing R w₀ c done w) (e : Stop) :
    Halted R w₀ c done site toolCall e w :=
  h.weaken fun _ => .inl

theorem Ran.halted (h : Ran R w₀ c done site toolCall w) (e : Stop) :
    Halted R w₀ c done site toolCall e w :=
  h.1

include hp

theorem triple_keepReturned (isolated : Bool)
    (returned : Option (PromptAttachment × List PromptAttachment)) :
    Triple (Ran R w₀ c done site toolCall) (keepReturned isolated site toolCall returned)
      (fun _ => Ran R w₀ c done site toolCall) (Halted R w₀ c done site toolCall) := by
  unfold keepReturned
  split
  · refine .modify fun w h => ?_
    rw [hp.turn]
    refine ⟨h.1.retain _ _ _, ?_⟩
    change _ ∈ executions (w.emit _).log
    rw [executions_emit rfl]
    exact h.2
  · exact .pure fun _ h => h

include hnew

/-- A call is answered without executing anything. -/
theorem Executing.refused (h : Executing R w₀ c done w) (hid : executed.callId = toolCall.id)
    (hfailed : executed.failed = true)
    (hrefused : ¬(R.Offers R.inferenceTools site.slot.sequence toolCall.name
      ∧ R.accepts site.slot.sequence.isSome toolCall = true)) :
    Served R w₀ c done site toolCall executed w :=
  ⟨h.weaken fun _ => .inl, .refused h hp hnew hid hfailed hrefused⟩

theorem triple_launch {tool : Tool}
    (hoffers : R.Offers R.inferenceTools site.slot.sequence toolCall.name)
    (hroute : R.isExternalTool toolCall.name = false)
    (haccepts : R.accepts site.slot.sequence.isSome toolCall
      = (tool.prepareAndValidate toolCall.arguments).isOk) :
    Triple (Executing R w₀ c done) (launch site toolCall tool)
      (fun r w => match r with
        | .ok tool' => tool' = tool ∧ R.accepts site.slot.sequence.isSome toolCall = true
            ∧ Ran R w₀ c done site toolCall w
        | .error executed => Served R w₀ c done site toolCall executed w)
      (Halted R w₀ c done site toolCall) := by
  unfold launch
  split
  · next arguments hok =>
    rw [hok] at haccepts
    refine .bind (.modify (Q := fun _ => Ran R w₀ c done site toolCall) fun w h => ?_) fun _ =>
      .pure fun _ h => ⟨rfl, haccepts, h⟩
    refine ⟨h.run hp (.execute (h.executable hp hnew hoffers haccepts) (.inl hroute))
      (fun _ => rfl) rfl, ?_⟩
    rw [executions_emit_some rfl]
    exact List.mem_append_right _ (List.mem_singleton.2 rfl)
  · next error herror =>
    rw [herror] at haccepts
    refine .bind (triple_consult fun e _ h => h.halted e) fun _ => .pure fun w h => ?_
    refine h.refused hp hnew rfl rfl fun hboth => ?_
    rw [haccepts] at hboth
    cases hboth.2

theorem triple_finish {tool : Tool} {reply : Reply}
    (hoffers : R.Offers R.inferenceTools site.slot.sequence toolCall.name)
    (haccepts : R.accepts site.slot.sequence.isSome toolCall = true) :
    Triple (Ran R w₀ c done site toolCall) (finish site toolCall tool reply)
      (Served R w₀ c done site toolCall) (Halted R w₀ c done site toolCall) := by
  unfold finish
  refine .bind (.modify (Q := fun _ w => Ran R w₀ c done site toolCall w
    ∧ .finished site reply.result ∈ w.log) fun w h => ?_) fun _ => .pure fun w h => ?_
  · exact ⟨h.emit (.emit rfl) (fun _ => rfl) rfl,
      List.mem_append_right _ (List.mem_singleton.2 rfl)⟩
  · exact ⟨h.1.1, .ran h.1.1 hp hnew h.1.2 h.2 rfl rfl (String.append_empty).symm hoffers haccepts⟩

/-- A builtin tool is executed exactly when it is offered and accepts the arguments. -/
theorem triple_executeBuiltinTool (isolated : Bool) (hroute : R.isExternalTool toolCall.name = false)
    (hmode : site.slot.sequence = none → R.codeModeCatalogue = none)
    (hoffers : R.Offers R.inferenceTools site.slot.sequence toolCall.name
      ↔ R.builtinToolAllowed toolCall.name = true
        ∧ (R.tools.findAvailable? toolCall.name).isSome = true) :
    Triple (Executing R w₀ c done) (executeBuiltinTool R isolated site toolCall)
      (Served R w₀ c done site toolCall) (Halted R w₀ c done site toolCall) := by
  have hstop : ∀ e w, Executing R w₀ c done w → Halted R w₀ c done site toolCall e w :=
    fun e _ h => h.halted e
  have haccepts : ∀ tool, R.tools.findAvailable? toolCall.name = some tool →
      R.accepts site.slot.sequence.isSome toolCall
        = (tool.prepareAndValidate toolCall.arguments).isOk := by
    intro tool htool
    have hnested : (R.codeModeCatalogue.isSome && !site.slot.sequence.isSome) = false := by
      cases hsequence : site.slot.sequence with
      | none => simp [hmode hsequence]
      | some sequence => simp
    rw [AgentRuntime.accepts, hnested, hroute, htool]
    rfl
  unfold executeBuiltinTool
  refine .bind (triple_consult hstop) fun reply => ?_
  unfold AgentRuntime.builtinTool
  split
  · next executed hrefused =>
    refine .pure fun w h => ?_
    split at hrefused
    · next hallowed =>
      cases hrefused
      refine h.refused hp hnew rfl rfl fun hboth => ?_
      rw [(hoffers.1 hboth.1).1] at hallowed
      cases hallowed
    · split at hrefused
      · next hfind =>
        cases hrefused
        refine h.refused hp hnew rfl rfl fun hboth => ?_
        have hsome := (hoffers.1 hboth.1).2
        rw [hfind] at hsome
        cases hsome
      · cases hrefused
  · next tool htool =>
    split at htool
    · cases htool
    · next hallowed =>
      split at htool
      · cases htool
      · next hfind =>
        obtain rfl := Except.ok.inj htool
        have hoffered := hoffers.2 ⟨by simpa using hallowed, by rw [hfind]; rfl⟩
        refine .bind (triple_send hstop _) fun _ => ?_
        refine .bind (triple_launch hp hnew hoffered hroute (haccepts _ hfind)) fun r => ?_
        cases r with
        | error executed => exact .pure fun _ h => h
        | ok tool' =>
          refine .assume fun _ => .assume fun hok => ?_
          refine .bind (triple_wait fun e _ h => h.halted e) fun reply => ?_
          exact .bind (triple_keepReturned hp isolated _) fun _ =>
            triple_finish hp hnew hoffered hok

/-- A call of an external tool whose result is known. -/
def Resolved (R : AgentRuntime) (w₀ : World) (c : Calls) (done : Site × ToolCall → Prop)
    (site : Site) (toolCall : ToolCall) (outcome : ToolResult) (w : World) : Prop :=
  Ran R w₀ c done site toolCall w ∧ .finished site outcome ∈ w.log

omit hnew in
theorem triple_retainExternalToolImages {outcome : ToolResult} (images : List PromptImage) :
    Triple (Resolved R w₀ c done site toolCall outcome)
      (retainExternalToolImages site.turnId toolCall.id images)
      (fun _ => Resolved R w₀ c done site toolCall outcome)
      (fun _ => Resolved R w₀ c done site toolCall outcome) := by
  unfold retainExternalToolImages
  refine .bind (.get fun _ h => h) fun w₁ => ?_
  dsimp only
  split
  · exact .pure fun _ h => h
  · refine .bind (triple_send (fun _ _ h => h) _) fun _ => ?_
    refine .bind (.modify (Q := fun _ => Resolved R w₀ c done site toolCall outcome) ?_) fun _ =>
      .pure fun _ h => h
    intro w h
    rw [hp.turn]
    refine ⟨⟨h.1.1.retain _ _ _, ?_⟩, List.mem_append_left _ h.2⟩
    change _ ∈ executions (w.emit _).log
    rw [executions_emit rfl]
    exact h.1.2

omit hp hnew in
/-- What is said of the images is appended to the output. -/
theorem triple_showToolImagesToModel {P : World → Prop} {F : Stop → World → Prop}
    (hF : ∀ e w, P w → F e w) (images : List PromptImage) (output : String) :
    Triple P (showToolImagesToModel R images output)
      (fun shown w => (∃ more, shown.1 = output ++ more) ∧ P w) F := by
  unfold showToolImagesToModel
  refine .ite (fun _ => .pure fun w h => ⟨⟨"", String.append_empty.symm⟩, h⟩) fun _ =>
    .ite (fun _ => ?_) fun _ => .pure fun w h => ⟨⟨_, String.append_assoc ..⟩, h⟩
  exact .bind (triple_wait hF) fun reply => .pure fun w h => ⟨⟨_, String.append_assoc ..⟩, h⟩

/-- An external tool is always requested. -/
theorem triple_executeExternalTool (hroute : R.isExternalTool toolCall.name = true)
    (hmode : site.slot.sequence = none → R.codeModeCatalogue = none)
    (hoffers : R.Offers R.inferenceTools site.slot.sequence toolCall.name) :
    Triple (Executing R w₀ c done) (executeExternalTool R site toolCall)
      (Served R w₀ c done site toolCall) (Halted R w₀ c done site toolCall) := by
  have hstop : ∀ e w, Executing R w₀ c done w → Halted R w₀ c done site toolCall e w :=
    fun e _ h => h.halted e
  have haccepts : R.accepts site.slot.sequence.isSome toolCall = true := by
    have hnested : (R.codeModeCatalogue.isSome && !site.slot.sequence.isSome) = false := by
      cases hsequence : site.slot.sequence with
      | none => simp [hmode hsequence]
      | some sequence => simp
    rw [AgentRuntime.accepts, hnested, hroute]
    rfl
  unfold executeExternalTool
  refine .bind (triple_send hstop _) fun _ => .bind (triple_send hstop _) fun _ => ?_
  refine .bind (.modify (Q := fun _ => Ran R w₀ c done site toolCall) fun w h => ?_) fun _ => ?_
  · refine ⟨h.run hp (.request (h.executable hp hnew hoffers haccepts) hroute)
      (fun _ => rfl) rfl, ?_⟩
    rw [executions_emit_some rfl]
    exact List.mem_append_right _ (List.mem_singleton.2 rfl)
  have hstop : ∀ e w, Ran R w₀ c done site toolCall w → Halted R w₀ c done site toolCall e w :=
    fun e _ h => h.halted e
  refine .bind (triple_wait hstop) fun reply => ?_
  refine .bind ((triple_check hstop _).post fun _ _ h => h.2) fun _ => ?_
  split
  next outcome images _ =>
  refine .bind (.modify (Q := fun _ => Resolved R w₀ c done site toolCall outcome) fun w h =>
    ⟨h.emit (.emit rfl) (fun _ => rfl) rfl, List.mem_append_right _ (List.mem_singleton.2 rfl)⟩)
    fun _ => ?_
  have hstop : ∀ e w, Resolved R w₀ c done site toolCall outcome w →
      Halted R w₀ c done site toolCall e w := fun e _ h => h.1.halted e
  have hdone : ∀ {executed : ExecutedTool} w, executed.callId = toolCall.id →
      executed.failed = outcome.failed → (∃ more, executed.output = outcome.output ++ more) →
      Resolved R w₀ c done site toolCall outcome w →
      Served R w₀ c done site toolCall executed w := by
    rintro executed w hid hfailed ⟨more, houtput⟩ h
    exact ⟨h.1.1, .ran h.1.1 hp hnew h.1.2 h.2 hid hfailed houtput hoffers haccepts⟩
  refine .ite (fun _ => .pure fun w h => hdone w rfl rfl ⟨"", String.append_empty.symm⟩ h)
    fun _ => ?_
  refine .bind (((triple_result (triple_retainExternalToolImages hp images)).mono (fun _ h => h)
    (fun r w h => ?_) fun e w h => hstop e w h) : Triple _ _
      (fun _ => Resolved R w₀ c done site toolCall outcome) _) fun retained => ?_
  · cases r <;> exact h
  refine .bind (triple_showToolImagesToModel hstop _ _) fun shown => .pure fun w h => ?_
  obtain ⟨⟨more, hmore⟩, h⟩ := h
  refine hdone w rfl rfl ⟨"\n\n" ++ imagesNote images.length retained ++ more, ?_⟩ h
  change shown.1 = _
  rw [hmore]
  simp only [String.append_assoc]

/-- The call of a builtin or external tool. -/
theorem triple_executeUnderlyingExclusiveTool
    (hmode : site.slot.sequence = none → R.codeModeCatalogue = none)
    (hoffers : R.Offers R.inferenceTools site.slot.sequence toolCall.name
      ↔ R.isExternalTool toolCall.name = true ∨ R.builtinToolAllowed toolCall.name = true
        ∧ (R.tools.findAvailable? toolCall.name).isSome = true) :
    Triple (Executing R w₀ c done) (executeUnderlyingExclusiveTool R site toolCall)
      (Served R w₀ c done site toolCall) (Halted R w₀ c done site toolCall) := by
  refine .ite (fun hexternal => ?_) fun hbuiltin => ?_
  · exact triple_executeExternalTool hp hnew hexternal hmode (hoffers.2 (.inl hexternal))
  · have hroute : R.isExternalTool toolCall.name = false := by simpa using hbuiltin
    exact triple_executeBuiltinTool hp hnew false hroute hmode (by simpa [hroute] using hoffers)

/-- A call of a program. -/
theorem triple_executeNestedTool {catalogue : List ToolDefinition} {sequence : Nat}
    (hcatalogue : R.codeModeCatalogue = some catalogue)
    (hsequence : site.slot.sequence = some sequence) :
    Triple (Executing R w₀ c done) (executeNestedTool R catalogue sequence site toolCall)
      (Served R w₀ c done site toolCall) (Halted R w₀ c done site toolCall) := by
  obtain ⟨hoffers, hnames⟩ := R.offers_nested hcatalogue sequence toolCall.name
  rw [← hsequence] at hoffers
  have hmode : site.slot.sequence = none → R.codeModeCatalogue = none := by
    rw [hsequence]
    nofun
  refine .bind (triple_consult fun e _ h => h.halted e) fun reply => ?_
  unfold nestedRefusal
  split
  · next executed hrefused =>
    refine .pure fun w h => ?_
    split at hrefused
    · next hmany =>
      cases hrefused
      refine h.refused hp hnew rfl rfl fun hboth => ?_
      have := (hoffers.1 hboth.1).1
      omega
    · split at hrefused
      · next hunlisted =>
        cases hrefused
        refine h.refused hp hnew rfl rfl fun hboth => ?_
        obtain ⟨-, hne, hmem⟩ := hoffers.1 hboth.1
        simp [hne, hmem] at hunlisted
      · cases hrefused
  · next hallowed =>
    split at hallowed
    · cases hallowed
    · next hfew =>
      split at hallowed
      · cases hallowed
      · next hlisted =>
        simp only [Bool.or_eq_true, Bool.not_eq_true', not_or, Bool.not_eq_false,
          List.contains_iff_mem, beq_iff_eq] at hlisted
        have hoffered : R.Offers R.inferenceTools site.slot.sequence toolCall.name ↔
            R.isExternalTool toolCall.name = true ∨ R.builtinToolAllowed toolCall.name = true
              ∧ (R.tools.findAvailable? toolCall.name).isSome = true := by
          rw [← hnames]
          exact ⟨fun _ => hlisted.1, fun hmem => hoffers.2 ⟨by omega, hlisted.2, hmem⟩⟩
        refine .ite (fun hread => ?_) fun _ =>
          triple_executeUnderlyingExclusiveTool hp hnew hmode hoffered
        have hroute : R.isExternalTool toolCall.name = false := by
          simp only [AgentRuntime.isReadOnly, Bool.and_eq_true, Bool.not_eq_true'] at hread
          exact hread.1
        exact triple_executeBuiltinTool hp hnew true hroute hmode (by simpa [hroute] using hoffered)

end

/-! ## Results -/

section
variable (hp : Place c site toolCall)
include hp

theorem triple_noteToolResult :
    Triple (Served R w₀ c done site toolCall executed) (noteToolResult site toolCall executed)
      (fun _ w => Served R w₀ c done site toolCall executed w
        ∧ .answered site toolCall executed.item ∈ w.log)
      (Halted R w₀ c done site toolCall) := by
  refine .bind (.when (Q := fun _ => Served R w₀ c done site toolCall executed)
    (fun _ => triple_send (fun _ _ h => h.1) _) fun _ _ h => h) fun _ => ?_
  refine .bind (.modify (Q := fun _ => Served R w₀ c done site toolCall executed) fun w h =>
    ⟨h.1.pushTool _, h.2⟩) fun _ => .modify fun w h => ?_
  have hmove := Move.answer (h.2.answers h.1 hp)
  rw [hp.turn] at hmove
  exact ⟨⟨h.1.emit hmove (fun _ => rfl) rfl, h.2.emit rfl⟩,
    List.mem_append_right _ (List.mem_singleton.2 rfl)⟩

/-- The result of a program's call does not enter the conversation. -/
theorem triple_recordNestedToolResult :
    Triple (Served R w₀ c done site toolCall executed)
      (recordNestedToolResult site toolCall executed)
      (fun _ => Executing R w₀ c (With done site toolCall)) (Halted R w₀ c done site toolCall) := by
  refine .bind (triple_send (fun _ _ h => h.1) _) fun _ => ?_
  refine .bind (triple_noteToolResult hp) fun _ => .when (fun hadd => ?_) fun _ _ h => h.1.1
  cases hadd

/-- A result that is not saved yet. -/
def Unsaved (R : AgentRuntime) (w₀ : World) (c : Calls) (done : Site × ToolCall → Prop) (w : World) :
    Prop :=
  Running R w₀ (some c.turnId) (c.round + 1) c.keys w ∧ Executing R w₀ c done w.save

/-- The calls that wait after the first one. -/
def Calls.next (c : Calls) (keys : List String) : Calls :=
  { c with keys := keys, position := c.position + 1, ran := [] }

/-- The result of the first call that waits enters the conversation. -/
theorem triple_retainToolResult {keys : List String} {later : Site × ToolCall → Prop}
    (hslot : site.slot = ⟨c.position, none⟩) (hkeys : c.keys = toolCall.id :: keys)
    (hlater : ∀ e, With done site toolCall e → e.1.slot.position < c.position + 1 ∨ later e) :
    Triple (Served R w₀ c done site toolCall executed)
      (retainToolResult site toolCall executed true) (fun _ => Unsaved R w₀ (c.next keys) later)
      (Stopped R w₀ (some c.turnId)) := by
  refine .bind ((triple_noteToolResult hp).mono (fun _ h => h) (fun _ _ h => h)
    fun e _ h => h.stopped e) fun _ => .when (fun _ => .modify fun w h => ?_) fun hadd => ?_
  · obtain ⟨⟨hw, hresult⟩, htold⟩ := h
    have hwaits : w.Waiting (executed.item.callId :: keys) := by
      have := hw.running.waiting
      rw [hkeys] at this
      change w.Waiting (executed.callId :: keys)
      rwa [hresult.id]
    have hslot' : site.slot = ⟨w.kept.session.historyPosition, none⟩ := by rw [hslot, hw.position]
    have hmove : Move R (some c.turnId) w (w.push (.toolResult executed.item)) := by
      refine .result (hw.running.inTurn c.turnId rfl) hwaits
        ⟨site, toolCall, htold, hslot', hresult.id⟩ fun hlog other call hother hat => ?_
      exact hresult.explains hlog other call hother (hat.trans hslot'.symm)
    have hposition := w.kept.session.historyPosition_push (.toolResult executed.item) rfl
    have hrunning : Running R w₀ (some c.turnId) (c.round + 1) keys
        (w.push (.toolResult executed.item)) := by
      refine hw.running.update hmove rfl ?_ fun hlog => RuntimeSession.waiting?_push (hwaits hlog)
        (Exchange.receive_reply (role_toolResult _))
      rw [hposition, hkeys, List.length_cons]
      omega
    refine ⟨hrunning, hrunning.save, ⟨_, rfl, rfl, rfl⟩, hw.asked, ?_, fun e he hlog => ?_, nofun⟩
    · exact hposition.trans (congrArg (· + 1) hw.position)
    · rcases hw.done e he hlog with hbelow | hdone
      · exact .inl (Nat.lt_succ_of_lt hbelow)
      · exact hlater e hdone
  · exact absurd rfl hadd

end

theorem triple_checkpoint_unsaved :
    Triple (Unsaved R w₀ c done) checkpoint (fun _ => Executing R w₀ c done)
      (Stopped R w₀ (some c.turnId)) := by
  have hstop : ∀ e w, Unsaved R w₀ c done w → Stopped R w₀ (some c.turnId) e w :=
    fun e _ h => h.1.stopped e
  exact .bind (triple_consult hstop) fun _ => .bind (triple_check hstop _) fun _ =>
    .modify fun _ h => h.2.2

/-! ## Programs -/

/-- The calls that a program has made. -/
def NestedOf (site : Site) (sequence : Nat) : Site × ToolCall → Prop :=
  fun e => ∃ earlier ≤ sequence, e.1.slot = { site.slot with sequence := some earlier }

/-- The program, and the calls that it has made. -/
def InProgram (site : Site) (toolCall : ToolCall) (sequence : Nat) : Site × ToolCall → Prop :=
  With (NestedOf site sequence) site toolCall

theorem InProgram.next {sequence : Nat} {nested : ToolCall} {e : Site × ToolCall}
    (h : With (InProgram site toolCall sequence)
      { site with slot := { site.slot with sequence := some (sequence + 1) } } nested e) :
    InProgram site toolCall (sequence + 1) e := by
  rcases h with (⟨earlier, hearlier, hslot⟩ | hsame) | rfl
  · exact .inl ⟨earlier, Nat.le_succ_of_le hearlier, hslot⟩
  · exact .inr hsame
  · exact .inl ⟨sequence + 1, Nat.le_refl _, rfl⟩

/-- The place of a program's call is in that of the program. -/
theorem Place.nested (h : Place c site toolCall) (ran : List (Site × ToolCall)) (sequence : Nat)
    (nested : ToolCall) : Place { c with ran := ran }
      { site with slot := { site.slot with sequence := some sequence } } nested := by
  obtain ⟨i, hi, hlt, -⟩ := h.slot
  exact ⟨h.turn, h.round, i, hi, hlt, nofun⟩

/-- A program runs. -/
def Composing (R : AgentRuntime) (w₀ : World) (c : Calls) (site : Site) (toolCall : ToolCall)
    (sequence : Nat) (w : World) : Prop :=
  Executing R w₀ { c with ran := (site, toolCall) :: c.ran } (InProgram site toolCall sequence) w

theorem Composing.stopped {sequence : Nat} (h : Composing R w₀ c site toolCall sequence w) (e : Stop) :
    Stopped R w₀ (some c.turnId) e w :=
  Executing.stopped h e

section
variable (hp : Place c site toolCall) (htop : site.slot.sequence = none)
  {catalogue : List ToolDefinition} (hcatalogue : R.codeModeCatalogue = some catalogue)
include hp htop hcatalogue

/-- A call that a program makes, and its result. -/
theorem triple_programCall (sequence : Nat) (nested : ToolCall) :
    Triple (Composing R w₀ c site toolCall sequence)
      (guarded (executeNestedTool R catalogue (sequence + 1)
        { site with slot := { site.slot with sequence := some (sequence + 1) } } nested))
      (fun r w => match r with
        | .ok executed => Served R w₀ { c with ran := (site, toolCall) :: c.ran }
            (InProgram site toolCall sequence)
            { site with slot := { site.slot with sequence := some (sequence + 1) } } nested executed w
        | .error _ => Composing R w₀ c site toolCall (sequence + 1) w)
      (Stopped R w₀ (some c.turnId)) := by
  have hnew : ∀ e, InProgram site toolCall sequence e →
      e.1.slot ≠ { site.slot with sequence := some (sequence + 1) } := by
    rintro e (⟨earlier, hearlier, hslot⟩ | rfl) hsame
    · rw [hslot] at hsame
      simp only [Slot.mk.injEq, Option.some.injEq, true_and] at hsame
      omega
    · rw [hsame] at htop
      cases htop
  refine (triple_guarded (triple_executeNestedTool (hp.nested _ _ _) hnew hcatalogue rfl)).mono
    (fun _ h => h) (fun r w h => ?_) fun e _ h => h.stopped e
  cases r with
  | ok executed => exact h
  | error failure => exact Executing.weaken h fun _ => InProgram.next

theorem triple_programStep (program : Program) :
    Triple (Composing R w₀ c site toolCall program.sequence)
      (programStep R site toolCall catalogue program)
      (fun r w => Sum.elim (fun program => Composing R w₀ c site toolCall program.sequence w)
        (fun _ => ∃ sequence, Composing R w₀ c site toolCall sequence w) r)
      (Stopped R w₀ (some c.turnId)) := by
  have hstop : ∀ e w, Composing R w₀ c site toolCall program.sequence w →
      Stopped R w₀ (some c.turnId) e w := fun e _ h => h.stopped e
  refine .bind (Q := fun _ => Composing R w₀ c site toolCall program.sequence)
    (((triple_guarded (triple_wait fun _ _ h => h)).mono (fun _ h => h) (fun r w h => ?_)
      hstop)) fun r => ?_
  · cases r <;> exact h
  cases r with
  | error failure => exact .pure fun _ h => ⟨_, h⟩
  | ok reply =>
    refine .bind ((triple_check hstop _).post fun _ _ h => h.2) fun _ => ?_
    split
    · exact .pure fun _ h => ⟨_, h⟩
    · split
      · refine .bind (triple_programCall hp htop hcatalogue program.sequence _) fun executed => ?_
        cases executed with
        | error failure => exact .pure fun _ h => ⟨_, h⟩
        | ok executed =>
          refine .bind (Q := fun _ => Composing R w₀ c site toolCall (program.sequence + 1))
            ((triple_recordNestedToolResult (hp.nested _ _ _)).mono (fun _ h => h) 
              (fun _ _ h => Executing.weaken h fun _ => InProgram.next) fun e _ h => h.stopped e)
            fun _ => ?_
          have hstop : ∀ e w, Composing R w₀ c site toolCall (program.sequence + 1) w →
              Stopped R w₀ (some c.turnId) e w := fun e _ h => h.stopped e
          exact .bind (triple_wait hstop) fun reply =>
            .bind ((triple_check hstop _).post fun _ _ h => h.2) fun _ => .pure fun _ h => h
      · exact .pure fun _ h => ⟨_, h⟩
      · exact .pure fun _ h => ⟨_, h⟩
      · exact .pure fun _ h => ⟨_, h⟩

/-- A program is executed exactly when it has a source. -/
theorem triple_executeCodeMode (hname : toolCall.name = "codemode") :
    Triple (Executing R w₀ c fun _ => False) (executeCodeMode R site toolCall catalogue)
      (fun executed w => ∃ sequence,
        Served R w₀ c (NestedOf site sequence) site toolCall executed w)
      (Stopped R w₀ (some c.turnId)) := by
  have hstop : ∀ e w, Executing R w₀ c (fun _ => False) w → Stopped R w₀ (some c.turnId) e w :=
    fun e _ h => h.stopped e
  have hoffers : R.Offers R.inferenceTools site.slot.sequence toolCall.name := by
    rw [htop]
    exact (R.offers_program hcatalogue _).2 hname
  have haccepts : R.accepts site.slot.sequence.isSome toolCall
      = (programSource toolCall.arguments).isOk := by
    rw [AgentRuntime.accepts, htop, hcatalogue]
    rfl
  refine .bind (triple_send hstop _) fun _ => ?_
  split
  · next error herror =>
    rw [herror] at haccepts
    refine .bind (triple_consult hstop) fun reply => .pure fun w h => ⟨0, ?_⟩
    refine ⟨h.weaken fun _ hfalse => hfalse.elim,
      .refused h hp (fun _ hfalse => hfalse.elim) rfl rfl fun hboth => ?_⟩
    rw [haccepts] at hboth
    cases hboth.2
  · next source hsource =>
    rw [hsource] at haccepts
    refine .bind (triple_wait hstop) fun reply => ?_
    refine .bind ((triple_check hstop _).post fun _ _ h => h.2) fun _ => ?_
    refine .bind (.modify (Q := fun _ => Composing R w₀ c site toolCall 0) fun w h => ?_) fun _ => ?_
    · have hmove := Move.execute (R := R)
        (h.executable hp (fun _ hfalse => hfalse.elim) hoffers haccepts)
        (.inr ⟨by rw [hcatalogue]; rfl, htop⟩)
      have hrun := h.run hp hmove (fun _ => rfl) rfl
      refine { hrun.weaken (fun e he => he.imp_left False.elim) with ran := fun e he => ?_ }
      rw [executions_emit_some rfl]
      rcases List.mem_cons.1 he with rfl | he
      · exact List.mem_append_right _ (List.mem_singleton.2 rfl)
      · exact List.mem_append_left _ (h.ran e he)
    refine .bind (.loop (I := fun p : Program => Composing R w₀ c site toolCall p.sequence)
      (Q := fun _ w => ∃ sequence, Composing R w₀ c site toolCall sequence w)
      (fun _ w h => h.stopped _) (triple_programStep hp htop hcatalogue) {}) fun ended => ?_
    refine .exists_ fun sequence => ?_
    refine .bind (.modify (Q := fun _ w => Composing R w₀ c site toolCall sequence w
      ∧ .finished site ended.1 ∈ w.log) fun w h => ?_) fun _ => .pure fun w h => ⟨sequence, ?_⟩
    · exact ⟨Executing.emit h (.emit rfl) (fun _ => rfl) rfl,
        List.mem_append_right _ (List.mem_singleton.2 rfl)⟩
    · have hmem : (site, toolCall) ∈ executions w.log := h.1.ran _ List.mem_cons_self
      have hw : Executing R w₀ c (With (NestedOf site sequence) site toolCall) w :=
        { h.1 with ran := fun e he => h.1.ran e (List.mem_cons_of_mem _ he) }
      refine ⟨hw, .ran hw hp ?_ hmem h.2 rfl rfl String.append_empty.symm hoffers haccepts⟩
      rintro e ⟨earlier, -, hslot⟩ hsame
      rw [← hsame, hslot] at htop
      cases htop

end

end Nakode.Agent
