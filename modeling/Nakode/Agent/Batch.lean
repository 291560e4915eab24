import Nakode.Agent.Calls

/-!
# Steps of a message's calls

The calls of a message are executed in order, those that run together in any interleaving
(`InBatch`): each of them is executed at most once, and its outcome is that of its own execution.
After all of them nothing is waited for.
-/

namespace Nakode.Agent

open Process Process.Proc
open Native
open ConversationItem

/-- The place of the first call that waits. -/
def Calls.site (c : Calls) : Site := ⟨c.turnId, c.round, ⟨c.position, none⟩⟩

variable {R : AgentRuntime} {w₀ w : World} {c : Calls} {done : Site × ToolCall → Prop} {site : Site}
  {toolCall : ToolCall} {executed : ExecutedTool}

/-! ## One call alone -/

/-- Nothing was executed yet for the calls that wait. -/
def Between (R : AgentRuntime) (w₀ : World) (c : Calls) : World → Prop :=
  Executing R w₀ c fun _ => False

theorem Calls.place {keys : List String} (hkeys : c.keys = toolCall.id :: keys) :
    Place c c.site toolCall := by
  refine ⟨rfl, rfl, 0, rfl, ?_, fun _ => ?_⟩ <;> rw [hkeys]
  · exact Nat.succ_pos _
  · rfl

theorem triple_executeExclusiveTool {keys : List String} (hkeys : c.keys = toolCall.id :: keys) :
    Triple (Between R w₀ c) (executeExclusiveTool R c.site toolCall)
      (fun executed w => ∃ done : Site × ToolCall → Prop,
        (∀ e, done e → e.1.slot.position < c.position + 1)
          ∧ Served R w₀ c done c.site toolCall executed w)
      (Stopped R w₀ (some c.turnId)) := by
  have hp := Calls.place hkeys
  unfold executeExclusiveTool
  split
  · next catalogue hcatalogue =>
    refine .ite (fun hname => ?_) fun hname => ?_
    · refine (triple_executeCodeMode hp rfl hcatalogue (by simpa using hname)).post
        fun executed w ⟨sequence, h⟩ => ⟨_, ?_, h⟩
      rintro e ⟨earlier, -, hslot⟩
      rw [hslot]
      exact Nat.lt_succ_self _
    · refine .bind (triple_consult fun e _ h => h.stopped e) fun reply => .pure fun w h => ?_
      refine ⟨fun _ => False, fun _ hfalse => hfalse.elim,
        h.refused hp (fun _ hfalse => hfalse.elim) rfl rfl fun hboth => hname ?_⟩
      simpa using (R.offers_program hcatalogue _).1 hboth.1
  · next hmode =>
    refine (triple_executeUnderlyingExclusiveTool hp (fun _ hfalse => hfalse.elim)
      (fun _ => hmode) (R.offers_direct hmode toolCall.name)).mono (fun _ h => h)
      (fun executed w h => ⟨_, fun _ hfalse => hfalse.elim, h⟩) fun e _ h => h.stopped e

theorem triple_exclusive {keys : List String} (hkeys : c.keys = toolCall.id :: keys) :
    Triple (Between R w₀ c) (executeWork R c.turnId c.round (.exclusive toolCall))
      (fun _ => Between R w₀ (c.next keys)) (Stopped R w₀ (some c.turnId)) := by
  unfold executeWork
  refine .bind (.get (Q := fun w₁ w => w₁ = w ∧ Between R w₀ c w) fun _ h => ⟨rfl, h⟩) fun w₁ => ?_
  dsimp only
  refine .pre (P := fun w => w₁.kept.session.historyPosition = c.position ∧ Between R w₀ c w) ?_ ?_
  · refine .assume fun hposition => ?_
    rw [hposition]
    refine .bind (triple_executeExclusiveTool hkeys) fun executed => ?_
    refine .exists_ fun done => .assume fun hdone => ?_
    refine .bind (Q := fun _ => Unsaved R w₀ (c.next keys) fun _ => False) ?_ fun _ =>
      triple_checkpoint_unsaved
    refine .bind (triple_send (fun e _ h => h.1.stopped e) _) fun _ => ?_
    refine triple_retainToolResult (Calls.place hkeys) rfl hkeys ?_
    rintro e (he | rfl)
    · exact .inl (hdone e he)
    · exact .inl (Nat.lt_succ_self _)
  · rintro w ⟨rfl, h⟩
    exact ⟨h.position, h⟩

/-! ## What lasts -/

/-- A condition on the log that nothing but an execution elsewhere can break. -/
def Lasting (site : Site) (K : List Effect → Prop) : Prop :=
  ∀ log effect, (∀ e, effect.execution? = some e → e.1 = site) → K log → K (log ++ [effect])

theorem Lasting.emit {K : List Effect → Prop} (hK : Lasting site K) {log : List Effect}
    {effect : Effect} (heffect : effect.execution? = none) (h : K log) : K (log ++ [effect]) := by
  refine hK log effect (fun e he => ?_) h
  rw [heffect] at he
  cases he

section
variable {K : List Effect → Prop} (hK : Lasting site K)
include hK

theorem triple_launch_log {tool : Tool} :
    Triple (fun w => K w.log) (launch site toolCall tool) (fun _ w => K w.log)
      (fun _ w => K w.log) := by
  unfold launch
  split
  · refine .bind (.modify (Q := fun _ w => K w.log) fun w h => ?_) fun _ => .pure fun _ h => h
    refine hK w.log _ (fun e he => ?_) h
    cases he
    rfl
  · exact .bind (triple_consult fun _ _ h => h) fun _ => .pure fun _ h => h

theorem triple_finish_log {tool : Tool} {reply : Reply} :
    Triple (fun w => K w.log) (finish site toolCall tool reply) (fun _ w => K w.log)
      (fun _ w => K w.log) :=
  .bind (.modify (Q := fun _ w => K w.log) fun _ h => hK.emit rfl h) fun _ => .pure fun _ h => h

theorem triple_advanceRead_log {reply : Reply} {state : ReadState} :
    Triple (fun w => K w.log) (advanceRead R site toolCall reply state) (fun _ w => K w.log)
      (fun _ w => K w.log) := by
  cases state with
  | waiting =>
    cases hbuiltin : R.builtinTool reply.clock.startedAtMs toolCall <;>
      simp only [advanceRead, hbuiltin] <;> exact .pure fun _ h => h
  | announced tool =>
    refine .ite (fun _ => .bind (triple_launch_log hK) fun r => ?_) fun _ => .pure fun _ h => h
    cases r <;> exact .pure fun _ h => h
  | running tool => exact .bind (triple_finish_log hK) fun _ => .pure fun _ h => h
  | publishing executed => exact .ite (fun _ => .pure fun _ h => h) fun _ => .pure fun _ h => h
  | settled outcome => exact .pure fun _ h => h

theorem triple_retainToolResult_log {add : Bool} :
    Triple (fun w => K w.log) (retainToolResult site toolCall executed add) (fun _ w => K w.log)
      (fun _ w => K w.log) := by
  refine .bind (Q := fun _ w => K w.log) ?_ fun _ =>
    .when (fun _ => .modify fun _ h => h) fun _ _ h => h
  refine .bind (.when (Q := fun _ w => K w.log) (fun _ => triple_send (fun _ _ h => h) _)
    fun _ _ h => h) fun _ => ?_
  exact .bind (.modify (Q := fun _ w => K w.log) fun _ h => h) fun _ =>
    .modify fun w h => hK.emit rfl h

end

theorem triple_checkpoint_log {K : List Effect → Prop} :
    Triple (fun w => K w.log) checkpoint (fun _ w => K w.log) (fun _ w => K w.log) :=
  .bind (triple_consult fun _ _ h => h) fun _ =>
    .bind (triple_check (fun _ _ h => h) _) fun _ => .modify fun _ h => h.2

/-- A call's outcome stays what it is while others go on. -/
theorem Outcome.append {log : List Effect} {effect : Effect} (h : Outcome R site toolCall executed log)
    (heffect : ∀ e, effect.execution? = some e → e.1.slot ≠ site.slot) :
    Outcome R site toolCall executed (log ++ [effect]) where
  id := h.id
  explains hlog other call hother hslot := by
    rw [executions_append] at hother
    rcases List.mem_append.1 hother with hother | hother
    · exact (h.explains hlog.of_append other call hother hslot).append [effect]
    · obtain ⟨_, hmem, he⟩ := List.mem_filterMap.1 hother
      cases List.mem_singleton.1 hmem
      exact absurd hslot (heffect _ he)
  runs hoffers haccepts := by
    rw [executions_append]
    exact List.mem_append_left _ (h.runs hoffers haccepts)
  fails := h.fails

/-! ## Calls that run together -/

/-- Something may have been executed for a call. -/
def ReadState.launched : ReadState → Bool
  | .waiting | .announced _ => false
  | _ => true

/-- What is known of a call that runs together with others. -/
def ReadState.Holds (R : AgentRuntime) (site : Site) (toolCall : ToolCall) (log : List Effect) :
    ReadState → Prop
  | .waiting => True
  | .announced tool => R.builtinToolAllowed toolCall.name = true
      ∧ R.tools.findAvailable? toolCall.name = some tool
  | .running _ => (site, toolCall) ∈ executions log ∧ R.accepts false toolCall = true
      ∧ R.Offers R.inferenceTools none toolCall.name
  | .publishing executed | .settled (.ok executed) => Outcome R site toolCall executed log
  | .settled (.error _) => True

theorem builtinTool_ok {now : Nat} {tool : Tool} (h : R.builtinTool now toolCall = .ok tool) :
    R.builtinToolAllowed toolCall.name = true
      ∧ R.tools.findAvailable? toolCall.name = some tool := by
  unfold AgentRuntime.builtinTool at h
  split at h
  · cases h
  · next hallowed =>
    split at h
    · cases h
    · next hfind =>
      cases h
      exact ⟨by simpa using hallowed, hfind⟩

theorem builtinTool_error {now : Nat} (h : R.builtinTool now toolCall = .error executed) :
    executed.callId = toolCall.id ∧ executed.failed = true
      ∧ ¬(R.builtinToolAllowed toolCall.name = true
        ∧ (R.tools.findAvailable? toolCall.name).isSome = true) := by
  unfold AgentRuntime.builtinTool at h
  split at h
  · next hallowed =>
    cases h
    refine ⟨rfl, rfl, fun hboth => ?_⟩
    rw [hboth.1] at hallowed
    cases hallowed
  · split at h
    · next hfind =>
      cases h
      refine ⟨rfl, rfl, fun hboth => ?_⟩
      rw [hfind] at hboth
      cases hboth.2
    · cases h

theorem ReadState.Holds.append {log : List Effect} {effect : Effect} {state : ReadState}
    (h : state.Holds R site toolCall log)
    (heffect : ∀ e, effect.execution? = some e → e.1.slot ≠ site.slot) :
    state.Holds R site toolCall (log ++ [effect]) := by
  cases state with
  | waiting => trivial
  | announced tool => exact h
  | running tool =>
    refine ⟨?_, h.2⟩
    rw [executions_append]
    exact List.mem_append_left _ h.1
  | publishing executed => exact Outcome.append h heffect
  | settled outcome =>
    cases outcome with
    | ok executed => exact Outcome.append h heffect
    | error error => trivial

/-- What was executed for other calls, and for this one. -/
def Beside (others : Site × ToolCall → Prop) (site : Site) (toolCall : ToolCall)
    (state : ReadState) : Site × ToolCall → Prop :=
  fun e => others e ∨ state.launched = true ∧ e = (site, toolCall)

section
variable {others : Site × ToolCall → Prop} {state : ReadState}

/-- As long as nothing was executed for the call, only the others count. -/
theorem Beside.idle (h : Executing R w₀ c (Beside others site toolCall state) w)
    (hstate : state.launched = false) : Executing R w₀ c others w := by
  refine h.weaken fun e he => he.resolve_right fun hboth => ?_
  rw [hstate] at hboth
  cases hboth.1

theorem Beside.with (h : Executing R w₀ c (With others site toolCall) w)
    (hstate : state.launched = true) : Executing R w₀ c (Beside others site toolCall state) w :=
  h.weaken fun _ => .imp_right fun hsame => ⟨hstate, hsame⟩

/-- One of the calls that run together goes on. -/
theorem triple_advanceRead {reply : Reply} (hp : Place c site toolCall)
    (htop : site.slot.sequence = none) (hnew : ∀ e, others e → e.1.slot ≠ site.slot)
    (hmode : R.codeModeCatalogue = none) (hroute : R.isExternalTool toolCall.name = false) :
    Triple (fun w => Executing R w₀ c (Beside others site toolCall state) w
        ∧ state.Holds R site toolCall w.log)
      (advanceRead R site toolCall reply state)
      (fun state w => Executing R w₀ c (Beside others site toolCall state) w
        ∧ state.Holds R site toolCall w.log)
      (Stopped R w₀ (some c.turnId)) := by
  have hoffers := R.offers_direct hmode toolCall.name
  rw [hroute, ← htop] at hoffers
  simp only [Bool.false_eq_true, false_or] at hoffers
  cases state with
  | waiting =>
    cases hbuiltin : R.builtinTool reply.clock.startedAtMs toolCall with
    | error executed =>
      obtain ⟨hid, hfailed, hnot⟩ := builtinTool_error hbuiltin
      simp only [advanceRead, hbuiltin]
      refine .pure fun w h => ?_
      have hothers := Beside.idle h.1 rfl
      exact ⟨hothers.weaken fun _ => .inl,
        .refused hothers hp hnew hid hfailed fun hboth => hnot (hoffers.1 hboth.1)⟩
    | ok tool =>
      simp only [advanceRead, hbuiltin]
      exact .pure fun w h =>
        ⟨(Beside.idle h.1 rfl).weaken fun _ => .inl, builtinTool_ok hbuiltin⟩
  | announced tool =>
    refine .ite (fun _ => ?_) fun _ => .pure fun w h =>
      ⟨(Beside.idle h.1 rfl).weaken fun _ => .inl, trivial⟩
    refine .pre (P := fun w => (R.builtinToolAllowed toolCall.name = true
      ∧ R.tools.findAvailable? toolCall.name = some tool) ∧ Executing R w₀ c others w)
      (.assume fun hallows => ?_) fun w h => ⟨h.2, Beside.idle h.1 rfl⟩
    obtain ⟨hallowed, hfind⟩ := hallows
    have hoffered := hoffers.2 ⟨hallowed, by rw [hfind]; rfl⟩
    have haccepts : R.accepts site.slot.sequence.isSome toolCall
        = (tool.prepareAndValidate toolCall.arguments).isOk := by
      rw [AgentRuntime.accepts, hmode, hroute, hfind]
      rfl
    refine .bind ((triple_launch hp hnew hoffered hroute haccepts).mono (fun _ h => h)
      (fun _ _ h => h) fun e _ h => Executing.stopped h e) fun r => ?_
    cases r with
    | ok tool' =>
      refine .pure fun w hlaunched => ?_
      obtain ⟨_, haccepted, h⟩ := hlaunched
      refine ⟨Beside.with h.1 rfl, h.2, ?_⟩
      rw [htop] at haccepted hoffered
      exact ⟨haccepted, hoffered⟩
    | error executed => exact .pure fun w h => ⟨Beside.with h.1 rfl, h.2⟩
  | running tool =>
    refine .pre (P := fun w => (R.accepts false toolCall = true
      ∧ R.Offers R.inferenceTools none toolCall.name) ∧ Ran R w₀ c others site toolCall w)
      (.assume fun hruns => ?_) fun w h =>
        ⟨h.2.2, h.1.weaken fun _ => .imp_right And.right, h.2.1⟩
    obtain ⟨haccepted, hoffered⟩ := hruns
    refine .bind ((triple_finish hp hnew (by rwa [htop]) (by rwa [htop])).mono (fun _ h => h)
      (fun _ _ h => h) fun e _ h => Executing.stopped h e) fun executed => ?_
    exact .pure fun w h => ⟨Beside.with h.1 rfl, h.2⟩
  | publishing executed =>
    refine .ite (fun _ => .pure fun w h => ⟨h.1, h.2⟩) fun _ => .pure fun w h => ⟨h.1, trivial⟩
  | settled outcome => exact .pure fun _ h => h

end

/-! ## Runs of calls together -/

/-- What was executed for calls that run together. -/
def Launched (site : Site) (reads : List Read) : Site × ToolCall → Prop :=
  fun e => ∃ (i : Nat) (read : Read), reads[i]? = some read ∧ read.state.launched = true
    ∧ e = (site.at i, read.toolCall)

/-- Calls run together. -/
structure Gathering (R : AgentRuntime) (w₀ : World) (c : Calls) (toolCalls : List ToolCall)
    (reads : List Read) (w : World) : Prop where
  toolCalls : reads.map (·.toolCall) = toolCalls
  executing : Executing R w₀ c (Launched c.site reads) w
  holds : ∀ (i : Nat) (read : Read), reads[i]? = some read →
    read.state.Holds R (c.site.at i) read.toolCall w.log

theorem Calls.place_at {i : Nat} (h : c.keys[i]? = some toolCall.id) :
    Place c (c.site.at i) toolCall :=
  ⟨rfl, rfl, i, rfl, (List.getElem?_eq_some_iff.1 h).1, fun _ => h⟩

theorem Site.at_slot_ne {i j : Nat} (h : i ≠ j) : (site.at i).slot ≠ (site.at j).slot := by
  intro hslot
  have hposition := congrArg Slot.position hslot
  change site.slot.position + i = site.slot.position + j at hposition
  omega

section
variable {reads : List Read} {i : Nat} {read : Read}

/-- What was executed for the other calls. -/
def Others (site : Site) (reads : List Read) (i : Nat) : Site × ToolCall → Prop :=
  fun e => ∃ (j : Nat) (read : Read), j ≠ i ∧ reads[j]? = some read ∧ read.state.launched = true
    ∧ e = (site.at j, read.toolCall)

theorem Launched.set (hread : reads[i]? = some read) (state : ReadState) (e : Site × ToolCall) :
    Launched site (reads.set i { read with state := state }) e
      ↔ Beside (Others site reads i) (site.at i) read.toolCall state e := by
  have hlt := (List.getElem?_eq_some_iff.1 hread).1
  constructor
  · rintro ⟨j, other, hother, hlaunched, rfl⟩
    by_cases hj : i = j
    · subst hj
      rw [List.getElem?_set_self hlt] at hother
      cases hother
      exact .inr ⟨hlaunched, rfl⟩
    · rw [List.getElem?_set_ne hj] at hother
      exact .inl ⟨j, other, Ne.symm hj, hother, hlaunched, rfl⟩
  · rintro (⟨j, other, hj, hother, hlaunched, rfl⟩ | ⟨hlaunched, rfl⟩)
    · exact ⟨j, other, by rwa [List.getElem?_set_ne (Ne.symm hj)], hlaunched, rfl⟩
    · exact ⟨i, { read with state := state }, List.getElem?_set_self hlt, hlaunched, rfl⟩

theorem Launched.iff (hread : reads[i]? = some read) (e : Site × ToolCall) :
    Launched site reads e ↔ Beside (Others site reads i) (site.at i) read.toolCall read.state e := by
  have hset : reads.set i { read with state := read.state } = reads := by
    obtain ⟨hlt, rfl⟩ := List.getElem?_eq_some_iff.1 hread
    exact List.set_getElem_self hlt
  rw [← Launched.set hread read.state e, hset]

/-- Of the calls that run together, what is known of all but one. -/
def OthersHold (R : AgentRuntime) (site : Site) (reads : List Read) (i : Nat) (log : List Effect) :
    Prop :=
  ∀ (j : Nat) (read : Read), j ≠ i → reads[j]? = some read →
    read.state.Holds R (site.at j) read.toolCall log

theorem OthersHold.lasting : Lasting (site.at i) (OthersHold R site reads i) := by
  intro log effect heffect h j read hj hread
  refine (h j read hj hread).append fun e he => ?_
  rw [heffect e he]
  exact Site.at_slot_ne (Ne.symm hj)

/-- One of the calls has gone on. -/
theorem Gathering.set {toolCalls : List ToolCall} (hcalls : reads.map (·.toolCall) = toolCalls)
    (hread : reads[i]? = some read) {state : ReadState}
    (h : Executing R w₀ c (Beside (Others c.site reads i) (c.site.at i) read.toolCall state) w)
    (hholds : state.Holds R (c.site.at i) read.toolCall w.log)
    (hothers : OthersHold R c.site reads i w.log) :
    Gathering R w₀ c toolCalls (reads.set i { read with state := state }) w where
  toolCalls := by
    have hcall : (reads.map (·.toolCall))[i]? = some read.toolCall := by
      rw [List.getElem?_map, hread]
      rfl
    obtain ⟨hlt, hcall⟩ := List.getElem?_eq_some_iff.1 hcall
    rw [List.map_set, ← hcalls]
    change (reads.map (·.toolCall)).set i read.toolCall = _
    rw [← hcall]
    exact List.set_getElem_self hlt
  executing := h.weaken fun e => (Launched.set hread state e).2
  holds j other hother := by
    by_cases hj : i = j
    · subst hj
      rw [List.getElem?_set_self (List.getElem?_eq_some_iff.1 hread).1] at hother
      cases hother
      exact hholds
    · rw [List.getElem?_set_ne hj] at hother
      exact hothers j other (Ne.symm hj) hother

end

/-- Calls that run together are the first ones that wait, and no client executes them. -/
def Together (R : AgentRuntime) (c : Calls) (toolCalls : List ToolCall) : Prop :=
  ∀ (i : Nat) toolCall, toolCalls[i]? = some toolCall →
    c.keys[i]? = some toolCall.id ∧ R.isExternalTool toolCall.name = false

theorem triple_batchStep {toolCalls : List ToolCall} (hmode : R.codeModeCatalogue = none)
    (htogether : Together R c toolCalls) (reads : List Read) :
    Triple (Gathering R w₀ c toolCalls reads) (batchStep R c.site reads)
      (fun r w => Sum.elim (fun reads => Gathering R w₀ c toolCalls reads w)
        (fun outcomes => ∃ reads, outcomes? reads = some outcomes
          ∧ Gathering R w₀ c toolCalls reads w) r)
      (Stopped R w₀ (some c.turnId)) := by
  unfold batchStep
  split
  · next outcomes houtcomes => exact .pure fun w h => ⟨reads, houtcomes, h⟩
  · refine .bind (triple_wait fun e _ h => h.executing.stopped e) fun reply => ?_
    split
    · exact .pure fun w h => h
    · next read hread =>
      refine .pre (P := fun w => reads.map (·.toolCall) = toolCalls
        ∧ (Executing R w₀ c (Beside (Others c.site reads reply.index) (c.site.at reply.index)
            read.toolCall read.state) w
          ∧ read.state.Holds R (c.site.at reply.index) read.toolCall w.log)
        ∧ OthersHold R c.site reads reply.index w.log) (.assume fun hcalls => ?_) fun w h =>
          ⟨h.toolCalls, ⟨h.executing.weaken fun e => (Launched.iff hread e).1,
            h.holds reply.index read hread⟩, fun j other _ hother => h.holds j other hother⟩
      have hcall : toolCalls[reply.index]? = some read.toolCall := by
        rw [← hcalls, List.getElem?_map, hread]
        rfl
      obtain ⟨hkey, hroute⟩ := htogether reply.index read.toolCall hcall
      have hnew : ∀ e, Others c.site reads reply.index e →
          e.1.slot ≠ (c.site.at reply.index).slot := by
        rintro e ⟨j, other, hj, -, -, rfl⟩
        exact Site.at_slot_ne hj
      refine .bind (((triple_advanceRead (Calls.place_at hkey) rfl hnew hmode hroute).and
        (triple_advanceRead_log OthersHold.lasting)).mono (fun _ h => h) (fun _ _ h => h)
        fun e _ h => h.1) fun state => ?_
      exact .pure fun w ⟨⟨hexecuting, hholds⟩, hothers⟩ =>
        Gathering.set hcalls hread hexecuting hholds hothers

/-! ## Results of calls that ran together -/

theorem outcomes?_eq_some {reads : List Read}
    {outcomes : List (ToolCall × Except TurnError ExecutedTool)} (h : outcomes? reads = some outcomes) :
    reads = outcomes.map fun outcome => ⟨outcome.1, .settled outcome.2⟩ := by
  unfold outcomes? at h
  induction reads generalizing outcomes with
  | nil =>
    cases h
    rfl
  | cons read reads ih =>
    obtain ⟨toolCall, state⟩ := read
    rw [List.mapM_cons] at h
    obtain ⟨outcome, houtcome, h⟩ := Option.bind_eq_some_iff.1 h
    obtain ⟨rest, hrest, h⟩ := Option.bind_eq_some_iff.1 h
    cases h
    rw [ih hrest, List.map_cons]
    cases state with
    | settled outcome =>
      cases houtcome
      rfl
    | waiting | announced | running | publishing => cases houtcome

/-- The results of calls that have run together are recorded, and other calls wait. -/
def Retaining (R : AgentRuntime) (w₀ : World) (turnId : String) (round : Nat) (keys : List String)
    (outcomes : List (ToolCall × Except TurnError ExecutedTool)) (w : World) : Prop :=
  ∃ position, Executing R w₀ ⟨turnId, round, outcomes.map (·.1.id) ++ keys, position, []⟩
      (fun e => e.1.slot.position < position + outcomes.length) w
    ∧ ∀ (i : Nat) toolCall executed, outcomes[i]? = some (toolCall, .ok executed) →
      Outcome R ⟨turnId, round, ⟨position + i, none⟩⟩ toolCall executed w.log

theorem triple_retainOutcome {turnId : String} {round : Nat} {keys : List String}
    (outcome : ToolCall × Except TurnError ExecutedTool)
    (rest : List (ToolCall × Except TurnError ExecutedTool)) :
    Triple (Retaining R w₀ turnId round keys (outcome :: rest)) (retainOutcome turnId round outcome)
      (fun _ => Retaining R w₀ turnId round keys rest) (Stopped R w₀ (some turnId)) := by
  refine .exists_ fun position => ?_
  obtain ⟨toolCall, outcome⟩ := outcome
  cases outcome with
  | error error => exact .throw fun w h => h.1.stopped _
  | ok executed =>
    unfold retainOutcome
    let c : Calls := ⟨turnId, round, toolCall.id :: (rest.map (·.1.id) ++ keys), position, []⟩
    let done : Site × ToolCall → Prop := fun e => e.1.slot.position < position + (rest.length + 1)
    let later : Site × ToolCall → Prop := fun e => e.1.slot.position < position + 1 + rest.length
    -- what is known of the calls whose results are still to be recorded
    let K (log : List Effect) : Prop := ∀ (i : Nat) toolCall executed,
      rest[i]? = some (toolCall, .ok executed) →
        Outcome R ⟨turnId, round, ⟨position + 1 + i, none⟩⟩ toolCall executed log
    have hK : Lasting c.site K := by
      intro log effect heffect h i toolCall executed hmem
      refine (h i toolCall executed hmem).append fun e he hslot => ?_
      have hposition := congrArg Slot.position hslot
      rw [heffect e he] at hposition
      change position = position + 1 + i at hposition
      omega
    have hp : Place c c.site toolCall := Calls.place rfl
    have hlater : ∀ e, With done c.site toolCall e → e.1.slot.position < position + 1 ∨ later e := by
      rintro e (he | rfl)
      · exact .inr (by change _ < position + 1 + rest.length; change _ < _ + _ at he; omega)
      · exact .inl (Nat.lt_succ_self _)
    refine .bind (.get (Q := fun w₁ w => w₁.kept.session.historyPosition = position
      ∧ Served R w₀ c done c.site toolCall executed w ∧ K w.log) fun w h => ?_) fun w₁ => ?_
    · refine ⟨h.1.position, ⟨h.1.weaken fun _ => .inl, h.2 0 toolCall executed rfl⟩, ?_⟩
      intro i toolCall executed hmem
      have houtcome := h.2 (i + 1) toolCall executed (by simpa using hmem)
      rwa [show position + (i + 1) = position + 1 + i by omega] at houtcome
    refine .assume fun hposition => ?_
    rw [hposition]
    refine .bind (((triple_retainToolResult hp rfl rfl hlater).and
      (triple_retainToolResult_log hK)).mono (fun _ h => h) (fun _ _ h => h) fun e _ h => h.1)
      fun _ => ?_
    refine ((triple_checkpoint_unsaved.and triple_checkpoint_log).mono (fun _ h => h)
      (fun _ w h => ?_) fun e _ h => h.1)
    exact ⟨position + 1, h⟩

/-! ## All calls -/

/-- Nothing was executed for the calls that wait. -/
def Ready (R : AgentRuntime) (w₀ : World) (turnId : String) (round : Nat) (keys : List String)
    (w : World) : Prop :=
  ∃ position, Between R w₀ ⟨turnId, round, keys, position, []⟩ w

/-- Calls that have run together are all answered. -/
theorem Gathering.retaining {turnId : String} {round position : Nat} {keys : List String}
    {toolCalls : List ToolCall} {reads : List Read}
    {outcomes : List (ToolCall × Except TurnError ExecutedTool)}
    (h : Gathering R w₀ ⟨turnId, round, toolCalls.map (·.id) ++ keys, position, []⟩ toolCalls reads w)
    (houtcomes : outcomes? reads = some outcomes) : Retaining R w₀ turnId round keys outcomes w := by
  have hreads := outcomes?_eq_some houtcomes
  have hids : outcomes.map (·.1.id) = toolCalls.map (·.id) := by
    rw [← h.toolCalls, hreads, List.map_map, List.map_map]
    rfl
  refine ⟨position, ?_, fun i toolCall executed hmem => ?_⟩
  · rw [hids]
    refine h.executing.weaken ?_
    rintro e ⟨i, read, hread, -, rfl⟩
    have hlt := (List.getElem?_eq_some_iff.1 hread).1
    rw [hreads, List.length_map] at hlt
    exact Nat.add_lt_add_left hlt position
  · refine h.holds i ⟨toolCall, .settled (.ok executed)⟩ ?_
    rw [hreads, List.getElem?_map, hmem]
    rfl

theorem triple_batch {turnId : String} {round : Nat} {keys : List String}
    (hmode : R.codeModeCatalogue = none) (toolCalls : List ToolCall)
    (hroute : ∀ toolCall ∈ toolCalls, R.isExternalTool toolCall.name = false) :
    Triple (Ready R w₀ turnId round (toolCalls.map (·.id) ++ keys))
      (executeWork R turnId round (.batch toolCalls)) (fun _ => Ready R w₀ turnId round keys)
      (Stopped R w₀ (some turnId)) := by
  refine .exists_ fun position => ?_
  let c : Calls := ⟨turnId, round, toolCalls.map (·.id) ++ keys, position, []⟩
  let start : List Read := toolCalls.map fun toolCall => ⟨toolCall, .waiting⟩
  have hstart : ∀ (i : Nat) (read : Read), start[i]? = some read → read.state = .waiting := by
    intro i read hread
    rw [List.getElem?_map] at hread
    obtain ⟨toolCall, -, rfl⟩ := Option.map_eq_some_iff.1 hread
    rfl
  have htogether : Together R c toolCalls := by
    intro i toolCall hmem
    refine ⟨?_, hroute toolCall (List.mem_of_getElem? hmem)⟩
    change (toolCalls.map (·.id) ++ keys)[i]? = _
    have hlt := (List.getElem?_eq_some_iff.1 hmem).1
    rw [List.getElem?_append_left (by rwa [List.length_map]), List.getElem?_map, hmem]
    rfl
  unfold executeWork
  refine .bind (.get (Q := fun w₁ w => w₁.kept.session.historyPosition = position
    ∧ Gathering R w₀ c toolCalls start w) fun w h => ?_) fun w₁ => ?_
  · refine ⟨h.position, ?_, h.weaken fun _ hfalse => hfalse.elim, fun i read hread => ?_⟩
    · rw [List.map_map]
      exact List.map_id _
    · rw [hstart i read hread]
      trivial
  refine .assume fun hposition => ?_
  rw [hposition]
  refine .bind (.loop (fun reads w h => h.executing.stopped _) (triple_batchStep hmode htogether)
    start) fun outcomes => ?_
  refine .exists_ fun reads => .assume fun houtcomes => ?_
  refine .mono (.each triple_retainOutcome outcomes) (fun w h => h.retaining houtcomes)
    (fun _ w ⟨position, h, _⟩ => ?_) fun _ _ h => h
  exact ⟨position, { h with done := fun e he hlog => .inl ((h.done e he hlog).elim id id) }⟩

/-- The calls of a part of a message. -/
def Work.toolCalls : Work → List ToolCall
  | .exclusive toolCall => [toolCall]
  | .batch toolCalls => toolCalls

/-- Only read-only calls run together, and none does in code mode. -/
def Work.Allowed (R : AgentRuntime) : Work → Prop
  | .exclusive _ => True
  | .batch toolCalls => R.codeModeCatalogue = none
      ∧ ∀ toolCall ∈ toolCalls, R.isExternalTool toolCall.name = false

theorem triple_executeWork {turnId : String} {round : Nat} {keys : List String} {work : Work}
    (hallowed : work.Allowed R) :
    Triple (Ready R w₀ turnId round (work.toolCalls.map (·.id) ++ keys))
      (executeWork R turnId round work) (fun _ => Ready R w₀ turnId round keys)
      (Stopped R w₀ (some turnId)) := by
  cases work with
  | exclusive toolCall =>
    refine .exists_ fun position => ?_
    exact (triple_exclusive (c := ⟨turnId, round, toolCall.id :: keys, position, []⟩) rfl).post
      fun _ w h => ⟨position + 1, h⟩
  | batch toolCalls => exact triple_batch hallowed.1 toolCalls hallowed.2

theorem Work.schedule_spec {readOnly : Bool} {items : List Work}
    (hread : readOnly = true → R.codeModeCatalogue = none ∧ R.isExternalTool toolCall.name = false)
    (hitems : ∀ work ∈ items, work.Allowed R) :
    (Work.schedule readOnly toolCall items).flatMap (·.toolCalls)
        = toolCall :: items.flatMap (·.toolCalls)
      ∧ ∀ work ∈ Work.schedule readOnly toolCall items, work.Allowed R := by
  unfold Work.schedule
  split
  · next toolCalls rest =>
    obtain ⟨hfirst, hrest⟩ := List.forall_mem_cons.1 hitems
    split
    · next hreadOnly =>
      obtain ⟨hmode, hroute⟩ := hread hreadOnly
      exact ⟨rfl, List.forall_mem_cons.2 ⟨⟨hmode, List.forall_mem_cons.2 ⟨hroute, hfirst.2⟩⟩, hrest⟩⟩
    · exact ⟨rfl, List.forall_mem_cons.2 ⟨trivial, hitems⟩⟩
  · split
    · next hreadOnly =>
      obtain ⟨hmode, hroute⟩ := hread hreadOnly
      exact ⟨rfl, List.forall_mem_cons.2 ⟨⟨hmode, List.forall_mem_singleton.2 hroute⟩, hitems⟩⟩
    · exact ⟨rfl, List.forall_mem_cons.2 ⟨trivial, hitems⟩⟩

theorem schedule_spec (R : AgentRuntime) (toolCalls : List ToolCall) :
    (R.schedule toolCalls).flatMap (·.toolCalls) = toolCalls
      ∧ ∀ work ∈ R.schedule toolCalls, work.Allowed R := by
  induction toolCalls with
  | nil => exact ⟨rfl, nofun⟩
  | cons toolCall toolCalls ih =>
    have hread : (R.codeModeCatalogue.isNone && R.isReadOnly toolCall.name) = true →
        R.codeModeCatalogue = none ∧ R.isExternalTool toolCall.name = false := by
      intro hread
      simp only [AgentRuntime.isReadOnly, Bool.and_eq_true, Option.isNone_iff_eq_none,
        Bool.not_eq_true'] at hread
      exact ⟨hread.1, hread.2.1⟩
    have hnext := Work.schedule_spec hread ih.2
    rw [ih.1] at hnext
    exact hnext

/-- The calls of a message are all answered. -/
theorem triple_executeToolCalls {turnId : String} {round : Nat} (toolCalls : List ToolCall) :
    Triple (Ready R w₀ turnId round (toolCalls.map (·.id)))
      (executeToolCalls R turnId round toolCalls) (fun _ => Ready R w₀ turnId round [])
      (Stopped R w₀ (some turnId)) := by
  obtain ⟨hcalls, hallowed⟩ := schedule_spec R toolCalls
  let Left (items : List Work) (w : World) : Prop := (∀ work ∈ items, work.Allowed R)
    ∧ Ready R w₀ turnId round ((items.flatMap (·.toolCalls)).map (·.id)) w
  refine (Triple.each (I := Left) (fun work rest => ?_) (R.schedule toolCalls)).mono
    (fun w h => ⟨hallowed, by rwa [hcalls]⟩) (fun _ w h => h.2) fun _ _ h => h
  refine .assume fun hleft => ?_
  obtain ⟨hwork, hrest⟩ := List.forall_mem_cons.1 hleft
  rw [List.flatMap_cons, List.map_append]
  exact (triple_executeWork hwork).post fun _ w h => ⟨hrest, h⟩

end Nakode.Agent
