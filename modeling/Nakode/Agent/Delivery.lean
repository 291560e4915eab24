import Nakode.Agent.Accounts
import Nakode.Agent.Batch

/-!
# The delivery of a turn

The rounds of a turn, each of which ends with nothing to wait for, and around them the fence: a turn
that the session knows is not run, and one that runs is known to a checkpoint first. So a delivery
makes moves for its own turn only, and none for a turn that was delivered before (`Delivered`).
-/

namespace Nakode.Agent

open Process Process.Proc
open Native
open ConversationItem

variable {R : AgentRuntime} {w₀ w : World} {turnId : String} {n : Nat} {keys : List String}

/-! ## A message -/

/-- Whatever was executed stands in the conversation: for this turn, and for others unless a
recovery went wrong. -/
def Past (turnId : String) (w : World) : Prop :=
  ∀ e ∈ executions w.log, Unambiguous w.log ∨ e.1.turnId = turnId →
    e.1.slot.position < w.kept.session.historyPosition

theorem Running.past (h : Running R w₀ (some turnId) n [] w)
    (hsound : Unambiguous w.log → Sound w) : Past turnId w := by
  rintro e he (hlog | hturn)
  · obtain ⟨keys, hkeys, -, hall⟩ := (hsound hlog).kept
    obtain rfl := Option.some.inj ((h.waiting hlog).symm.trans hkeys)
    exact (hall e.1 e.2 he).below
  · exact h.below turnId rfl e he hturn

/-- The calls of a message wait for their results. -/
structure Spoken (R : AgentRuntime) (w₀ : World) (turnId : String) (round : Nat)
    (tools : List ToolDefinition) (keys : List String) (w : World) : Prop where
  running : Running R w₀ (some turnId) (round + 1) keys w
  asked : Asked turnId round tools w
  past : Past turnId w

namespace Spoken

variable {round : Nat} {tools : List ToolDefinition}

theorem stopped (h : Spoken R w₀ turnId round tools keys w) (e : Stop) :
    Stopped R w₀ (some turnId) e w :=
  h.running.stopped e

theorem ready (h : Spoken R w₀ turnId round R.inferenceTools keys w) (hsynced : w.Synced) :
    Ready R w₀ turnId round keys w :=
  ⟨w.kept.session.historyPosition, h.running, hsynced, h.asked, rfl,
    fun e he hlog => .inl (h.past e he hlog), List.forall_mem_nil _⟩

end Spoken

theorem Ready.running {round : Nat} (h : Ready R w₀ turnId round keys w) :
    Running R w₀ (some turnId) (round + 1) keys w :=
  h.elim fun _ h => h.running

/-- The message is appended. -/
theorem Running.message {round : Nat} {tools : List ToolDefinition}
    (h : Running R w₀ (some turnId) (round + 1) [] w) (hasked : Asked turnId round tools w)
    (hsound : Unambiguous w.log → Sound w) (message : AssistantMessage) :
    Spoken R w₀ turnId round tools (message.toolCalls.map (·.id)) (w.push (.assistant message)) := by
  have hposition := w.kept.session.historyPosition_push (.assistant message) rfl
  refine ⟨?_, hasked, fun e he hlog => ?_⟩
  · refine h.update (.message (h.inTurn turnId rfl) h.waiting) rfl ?_ fun hlog =>
      RuntimeSession.waiting?_push (h.waiting hlog) (Exchange.receive_ask (role_assistant _))
    rw [hposition, List.length_nil]
    omega
  · have hpast := h.past hsound e he hlog
    change _ < (w.kept.session.push (.assistant message)).historyPosition
    omega

theorem triple_checkpoint_spoken {round : Nat} {tools : List ToolDefinition} :
    Triple (Spoken R w₀ turnId round tools keys) checkpoint
      (fun _ w => Spoken R w₀ turnId round tools keys w ∧ w.Synced)
      (Stopped R w₀ (some turnId)) := by
  have hstop : ∀ e w, Spoken R w₀ turnId round tools keys w → Stopped R w₀ (some turnId) e w :=
    fun e _ h => h.stopped e
  refine .bind (triple_consult hstop) fun _ => .bind (triple_check hstop _) fun _ =>
    .modify fun w h => ?_
  exact ⟨⟨h.2.running.save, h.2.asked, h.2.past⟩, w.kept, rfl, rfl, rfl⟩

/-- A call is denied in a round without tools. -/
theorem triple_denyToolCall {round : Nat} (toolCall : ToolCall) :
    Triple (Spoken R w₀ turnId round [] (toolCall.id :: keys)) (denyToolCall turnId round toolCall)
      (fun _ => Spoken R w₀ turnId round [] keys) (Stopped R w₀ (some turnId)) := by
  refine .bind (.get (Q := fun w₁ w => w₁.kept.session.historyPosition
    = w.kept.session.historyPosition ∧ Spoken R w₀ turnId round [] (toolCall.id :: keys) w)
    fun w h => ⟨rfl, h⟩) fun w₁ => ?_
  let site : Site := ⟨turnId, round, ⟨w₁.kept.session.historyPosition, none⟩⟩
  let result : ToolResultItem := deniedDuringFinalization toolCall
  refine .bind (.modify (Q := fun _ w => (w₁.kept.session.historyPosition
    = w.kept.session.historyPosition ∧ .answered site toolCall result ∈ w.log)
      ∧ Spoken R w₀ turnId round [] (toolCall.id :: keys) w) fun w ⟨hposition, h⟩ => ?_) fun _ =>
    .modify fun w ⟨⟨hposition, htold⟩, h⟩ => ?_
  · have hanswers : Answers R w.log site toolCall result := by
      refine ⟨fun ⟨⟨request, hrequest, hoffers⟩, _⟩ => ?_, fun _ => rfl⟩
      rw [h.asked.2 request hrequest] at hoffers
      cases hoffers
    have hmove : Move R (some turnId) w (w.emit (.answered site toolCall result)) :=
      .answer hanswers
    refine ⟨⟨hposition, List.mem_append_right _ (List.mem_singleton.2 rfl)⟩,
      h.running.emit hmove (fun _ => rfl) rfl, h.asked.emit fun _ => rfl, ?_⟩
    unfold Past
    rw [executions_emit rfl]
    exact fun e he hlog => h.past e he (hlog.imp_left Unambiguous.of_append)
  · have hnext := w.kept.session.historyPosition_push (.toolResult result) rfl
    have hmove : Move R (some turnId) w (w.push (.toolResult result)) := by
      refine .result (h.running.inTurn turnId rfl) h.running.waiting
        ⟨site, toolCall, htold, congrArg (Slot.mk · none) hposition, rfl⟩ ?_
      intro hlog other call hother hslot
      have hpast := h.past (other, call) hother (.inl hlog)
      rw [hslot] at hpast
      exact absurd hpast (Nat.lt_irrefl _)
    refine ⟨h.running.update hmove rfl ?_ fun hlog => RuntimeSession.waiting?_push
      (h.running.waiting hlog) (Exchange.receive_reply (role_toolResult _)), h.asked,
      fun e he hlog => ?_⟩
    · rw [hnext, List.length_cons]
      omega
    · have hpast := h.past e he hlog
      change _ < (w.kept.session.push (.toolResult result)).historyPosition
      omega

/-- The tools that a round offers. -/
def AgentRuntime.roundTools (R : AgentRuntime) (finalizing : Bool) : List ToolDefinition :=
  if finalizing then [] else R.inferenceTools

theorem triple_answerToolCalls {round : Nat} {finalizing : Bool} (toolCalls : List ToolCall) :
    Triple (fun w => Spoken R w₀ turnId round (R.roundTools finalizing) (toolCalls.map (·.id)) w
        ∧ w.Synced)
      (answerToolCalls R turnId round finalizing toolCalls)
      (fun _ => Running R w₀ (some turnId) (round + 1) []) (Stopped R w₀ (some turnId)) := by
  refine .ite (fun hfinalizing => ?_) fun hfinalizing => ?_
  · subst hfinalizing
    let Left (left : List ToolCall) : World → Prop :=
      Spoken R w₀ turnId round [] (left.map (·.id))
    refine .bind (Q := fun _ => Left []) ?_ fun _ => ?_
    · exact (Triple.each (I := Left) (fun toolCall rest => triple_denyToolCall toolCall)
        toolCalls).pre fun w h => h.1
    · exact triple_checkpoint_spoken.post fun _ w h => h.1.running
  · obtain rfl : finalizing = false := by simpa using hfinalizing
    have hstop : ∀ e w, Ready R w₀ turnId round (toolCalls.map (·.id)) w →
        Stopped R w₀ (some turnId) e w := fun e _ h => h.running.stopped e
    refine .bind (Q := fun _ => Ready R w₀ turnId round (toolCalls.map (·.id))) ?_ fun _ => ?_
    · exact .when (fun _ => (triple_waited hstop).pre fun w h => h.1.ready h.2)
        fun _ w h => h.1.ready h.2
    · refine .bind (triple_executeToolCalls toolCalls) fun _ => ?_
      exact (triple_send (fun e w h => h.running.stopped e) _).post fun _ w h => h.running

/-! ## A round -/

section
variable (hstart : Unambiguous w₀.log → Sound w₀)
include hstart

theorem triple_processOutput {round : Nat} {finalizing : Bool} (output : InferenceOutput) :
    Triple (fun w => Running R w₀ (some turnId) (round + 1) [] w
        ∧ Asked turnId round (R.roundTools finalizing) w)
      (processOutput R turnId round finalizing output)
      (fun _ => Running R w₀ (some turnId) (round + 1) []) (Stopped R w₀ (some turnId)) := by
  let ids := output.toolCalls.map (·.id)
  refine .bind (Q := fun _ w => Running R w₀ (some turnId) (round + 1) [] w
    ∧ Asked turnId round (R.roundTools finalizing) w) ?_ fun _ => ?_
  · exact .when (fun _ => triple_waited fun e w h => h.1.stopped e) fun _ _ h => h
  refine .bind (.modify (Q := fun _ => Spoken R w₀ turnId round (R.roundTools finalizing) ids)
    fun w h => h.1.message h.2 (Sound.moves hstart h.1.moves)
      (w.kept.session.assistantMessage output)) fun _ => ?_
  refine .bind triple_checkpoint_spoken fun _ => ?_
  refine .bind (triple_send (fun e w h => h.1.stopped e) _) fun _ => .ite (fun hlast => ?_)
    fun _ => ?_
  · refine .pure fun w h => ?_
    have hnone : ids = [] := by
      rw [List.map_eq_nil_iff]
      exact List.isEmpty_iff.1 hlast
    have hrunning := h.1.running
    rwa [hnone] at hrunning
  · exact .bind (triple_answerToolCalls output.toolCalls) fun _ => .pure fun _ h => h

omit hstart in
theorem triple_announceFinalization (policy : ExternalToolConfiguration) (l : TurnLoop) :
    Triple (Running R w₀ (some turnId) n []) (announceFinalization policy l)
      (fun _ => Running R w₀ (some turnId) n []) (Stopped R w₀ (some turnId)) := by
  refine .when (fun _ => ?_) fun _ _ h => h
  refine .bind (.modify (Q := fun _ => Running R w₀ (some turnId) n []) fun w h => ?_) fun _ =>
    triple_send (fun e w h => h.stopped e) _
  refine h.update (.note (h.inTurn turnId rfl) h.waiting) rfl ?_ fun hlog =>
    RuntimeSession.waiting?_push (h.waiting hlog) (Exchange.receive_plain (role_user _ _))
  exact (Nat.le_succ _).trans_eq (w.kept.session.historyPosition_push _ rfl).symm

omit hstart in
/-- A compaction in a turn, whose failure is a value. -/
theorem triple_result_compact (compactionId : String) (reason : CompactionReason) :
    Triple (Running R w₀ (some turnId) n []) (Native.result (compact R turnId compactionId reason))
      (fun _ => Running R w₀ (some turnId) n []) (Stopped R w₀ (some turnId)) := by
  refine (triple_result (triple_compact turnId compactionId reason)).mono (fun _ h => h)
    (fun r w h => ?_) fun e w h => h.stopped e
  cases r <;> exact h

omit hstart in
theorem triple_compactProactively :
    Triple (Running R w₀ (some turnId) n []) (compactProactively R turnId)
      (fun _ => Running R w₀ (some turnId) n []) (Stopped R w₀ (some turnId)) := by
  have hstop : ∀ e w, Running R w₀ (some turnId) n [] w → Stopped R w₀ (some turnId) e w :=
    fun e _ h => h.stopped e
  refine .bind (.get fun _ h => h) fun w₁ => .when (fun _ => ?_) fun _ _ h => h
  refine .bind (triple_consult hstop) fun reply => .bind (triple_result_compact _ _) fun r =>
    .bind (.get fun _ h => h) fun w₂ => ?_
  cases r with
  | error error => exact .when (fun _ => triple_fail hstop _) fun _ _ h => h
  | ok _ => exact .pure fun _ h => h

omit hstart in
theorem triple_compactAfterOverflow (error : String) :
    Triple (Running R w₀ (some turnId) n []) (compactAfterOverflow R turnId error)
      (fun _ => Running R w₀ (some turnId) n []) (Stopped R w₀ (some turnId)) := by
  have hstop : ∀ e w, Running R w₀ (some turnId) n [] w → Stopped R w₀ (some turnId) e w :=
    fun e _ h => h.stopped e
  refine .bind (triple_consult hstop) fun reply => .bind (triple_result_compact _ _) fun r => ?_
  cases r with
  | error error => exact triple_fail hstop _
  | ok _ => exact .pure fun _ h => h

theorem triple_turnRound (l : TurnLoop) :
    Triple (Running R w₀ (some turnId) l.round [])
      (turnRound R (R.externalTools.getD {}) turnId l)
      (fun r w => Sum.elim (fun l : TurnLoop => Running R w₀ (some turnId) l.round [] w)
        (fun _ => ∃ n, Running R w₀ (some turnId) n [] w) r)
      (Stopped R w₀ (some turnId)) := by
  have hstop : ∀ e w, Running R w₀ (some turnId) l.round [] w → Stopped R w₀ (some turnId) e w :=
    fun e _ h => h.stopped e
  refine .bind (triple_consult hstop) fun reply => ?_
  refine .bind (Q := fun _ w => (R.externalTools.getD {}).maxTurns.any (· ≤ l.round) = false
    ∧ Running R w₀ (some turnId) l.round [] w) ?_ fun _ => .assume fun hmax => ?_
  · exact .when (fun _ => triple_fail hstop _) fun hnot w h => ⟨by simpa using hnot, h⟩
  refine .bind (.when (Q := fun _ => Running R w₀ (some turnId) l.round [])
    (fun _ => .throw (hstop _)) fun _ _ h => h) fun _ => ?_
  refine .bind (triple_announceFinalization _ l) fun _ => .bind triple_compactProactively fun _ => ?_
  have hasks : R.Asks l.round (R.roundTools ((R.externalTools.getD {}).finalizing l.round)) :=
    ⟨hmax, rfl⟩
  have htools : (if !(R.externalTools.getD {}).finalizing l.round then R.inferenceTools else [])
      = R.roundTools ((R.externalTools.getD {}).finalizing l.round) := by
    unfold AgentRuntime.roundTools
    cases (R.externalTools.getD {}).finalizing l.round <;> rfl
  refine .bind (triple_inferOnce (by rw [htools]; exact hasks)) fun inferred => ?_
  rw [htools]
  cases inferred with
  | error error =>
    refine .ite (fun _ => ?_) fun _ => triple_fail (fun e w h => h.1.stopped e) _
    exact .bind ((triple_compactAfterOverflow error).pre fun w h => h.1) fun _ => .pure fun _ h => h
  | ok output =>
    refine .bind (triple_processOutput hstart output) fun last => .pure fun w h => ?_
    cases last with
    | true => exact ⟨_, h⟩
    | false => exact h

/-- A turn that runs and has its prompt last. -/
def Begun (R : AgentRuntime) (w₀ : World) (turnId : String) (w : World) : Prop :=
  Running R w₀ (some turnId) 0 [] w
    ∧ ∃ front text images, w.kept.session.history = front ++ [.user text images]

omit hstart in
theorem triple_prepareImageFallback (prompt : String) (attachments : List PromptAttachment) :
    Triple (Begun R w₀ turnId) (prepareImageFallback R prompt attachments)
      (fun _ => Begun R w₀ turnId) (Stopped R w₀ (some turnId)) := by
  have hstop : ∀ e w, Begun R w₀ turnId w → Stopped R w₀ (some turnId) e w :=
    fun e _ h => h.1.stopped e
  refine .ite (fun _ => .pure fun _ h => h) fun _ => .ite (fun _ => .pure fun _ h => h) fun _ =>
    .ite (fun _ => triple_fail hstop _) fun _ => .bind (triple_wait hstop) fun reply => ?_
  split
  · exact triple_fail hstop _
  · exact .pure fun _ h => h

theorem triple_runTurnInner (prompt : String) (attachments : List PromptAttachment) :
    Triple (Begun R w₀ turnId)
      (runTurnInner R (R.externalTools.getD {}) turnId prompt attachments)
      (fun _ w => ∃ n, Running R w₀ (some turnId) n [] w) (Stopped R w₀ (some turnId)) := by
  have hstop : ∀ e w, Running R w₀ (some turnId) 0 [] w → Stopped R w₀ (some turnId) e w :=
    fun e _ h => h.stopped e
  refine .bind (triple_prepareImageFallback prompt attachments) fun prepared => ?_
  obtain ⟨prompt, attachments⟩ := prepared
  refine .bind (.modify (Q := fun _ => Running R w₀ (some turnId) 0 []) fun w h => ?_) fun _ => ?_
  · obtain ⟨h, front, text, images, hfront⟩ := h
    obtain ⟨items, hitems, hitems'⟩ :=
      RuntimeSession.historyItems_replacePrompt hfront prompt attachments
    refine h.update (.prompt (h.inTurn turnId rfl) hfront h.waiting) ?_ ?_ fun hlog =>
      RuntimeSession.waiting?_replacePrompt hfront (h.waiting hlog)
    · unfold RuntimeSession.replacePrompt
      split <;> rfl
    · simp only [RuntimeSession.historyPosition, hitems, hitems', List.length_append,
        List.length_cons, List.length_nil, Nat.le_refl]
  exact .bind (triple_checkpoint hstop) fun _ => .bind (triple_send hstop _) fun _ =>
    .bind (triple_send hstop _) fun _ => .loop (fun _ w h => h.stopped _) (triple_turnRound hstart) {}

end

/-! ## The fence -/

theorem Sound.waiting (h : Sound w) (hpending : w.kept.session.pendingTurn = none) :
    w.kept.session.waiting? = some [] := by
  obtain ⟨keys, hkeys, hne, -⟩ := h.kept
  cases keys with
  | nil => exact hkeys
  | cons key keys => exact absurd hpending (hne (List.cons_ne_nil _ _))

theorem World.pendingTurn_recover (w : World) : w.recover.kept.session.pendingTurn = none := by
  unfold World.recover
  split
  · next h => exact Option.isNone_iff_eq_none.1 h
  · next h =>
    obtain ⟨turnId, hturn⟩ := Option.ne_none_iff_exists'.1 fun hnone =>
      h (Option.isNone_iff_eq_none.2 hnone)
    change w.kept.session.recoverInterruptedTurn.pendingTurn = none
    rw [RuntimeSession.recoverInterruptedTurn, hturn]

/-- Moves have led to a session that waits for nothing. -/
def Settled (R : AgentRuntime) (turn : Option String) (w₀ w : World) : Prop :=
  Moves R turn w₀ w ∧ w.Waiting []

theorem Settled.save {turn : Option String} (h : Settled R turn w₀ w) :
    Settled R turn w₀ w.save :=
  ⟨h.1.tail .save, h.2⟩

theorem Settled.recover {turn : Option String} (hstart : Unambiguous w₀.log → Sound w₀)
    (h : Moves R turn w₀ w) : Settled R turn w₀ w.recover := by
  refine ⟨h.tail .recover, fun hlog => ?_⟩
  exact (Sound.moves hstart (h.tail .recover) hlog).waiting w.pendingTurn_recover

/-- The turn that a delivery makes moves for: none when the session knows it. -/
def fenced (session : RuntimeSession) (turnId : String) : Option String :=
  if turnId ∈ session.turns then none else some turnId

/-- What a delivery has come to: nothing, or moves for the turn unless it was known; and the session
waits for nothing, unless the process was lost. -/
def Delivered (R : AgentRuntime) (w₀ : World) (turnId : String) (result : Except Stop Unit)
    (w : World) : Prop :=
  w = w₀ ∨ Moves R (fenced w₀.kept.session turnId) w₀ w
    ∧ ((result = .ok () ∨ ∃ error, result = .error (.failed error)) → w.Waiting [])

theorem triple_checkpoint_settled {turn : Option String} :
    Triple (Settled R turn w₀) checkpoint (fun _ => Settled R turn w₀)
      (fun _ => Settled R turn w₀) :=
  .bind (triple_consult fun _ _ h => h) fun _ => .bind (triple_check (fun _ _ h => h) _) fun _ =>
    .modify fun _ h => h.2.save

/-- A new turn is accepted where nothing is waited for, and no checkpoint knows it yet. -/
theorem Settled.accept (h : Settled R (some turnId) w₀ w) (hfenced : Fenced w)
    (hpending : w.kept.session.pendingTurn = none) (hnew : turnId ∉ w.kept.session.turns)
    (prompt : String) (attachments : List PromptAttachment) :
    Settled R (some turnId) w₀ (w.accept turnId prompt attachments)
      ∧ Begun R w₀ turnId (w.accept turnId prompt attachments).save := by
  have hmoves : Moves R (some turnId) w₀ (w.accept turnId prompt attachments) :=
    h.1.tail (.accept hpending hnew h.2)
  have hwaiting : (w.accept turnId prompt attachments).Waiting [] := fun hlog =>
    RuntimeSession.waiting?_push (h.2 hlog) (Exchange.receive_plain (role_user _ _))
  -- a turn that no checkpoint knows has no effects
  have hnone : ∀ effect ∈ w.log, effect.turn? ≠ some turnId := by
    intro effect heffect hturn
    obtain ⟨kept, hkept, hmem⟩ := hfenced.effects effect heffect turnId hturn
    exact hnew (hfenced.turns kept hkept turnId hmem)
  refine ⟨⟨hmoves, hwaiting⟩, ⟨hmoves.tail .save, ?_, ?_, ?_, hwaiting⟩, _, prompt, attachments, rfl⟩
  · rintro other hother
    cases hother
    exact ⟨rfl, _, rfl, (RuntimeSession.mem_turns_accept hpending).2 (.inl rfl)⟩
  · rintro other hother
    cases hother
    refine List.filterMap_eq_nil_iff.2 fun effect heffect => ?_
    cases effect with
    | inference other round request =>
      refine if_neg fun hsame => hnone _ heffect ?_
      exact congrArg some hsame
    | _ => rfl
  · rintro other hother e he rfl
    cases hother
    obtain ⟨effect, heffect, hexecution⟩ := List.mem_filterMap.1 he
    refine absurd ?_ (hnone effect heffect)
    cases effect <;> cases hexecution <;> rfl

theorem Settled.delivered (h : Settled R (fenced w₀.kept.session turnId) w₀ w)
    (result : Except Stop Unit) : Delivered R w₀ turnId result w :=
  .inr ⟨h.1, fun _ => h.2⟩

/-- How a turn is settled. -/
theorem settle_spec (hstart : Unambiguous w₀.log → Sound w₀) {policy : ExternalToolConfiguration}
    {ended : Except Stop Unit}
    (h : match ended with
      | .ok _ => ∃ n, Running R w₀ (some turnId) n [] w
      | .error e => Stopped R w₀ (some turnId) e w) :
    match turnResult policy ended with
    | .ok result => Settled R (some turnId) w₀ (w.settle turnId result)
    | .error stop => stop = .lost ∧ Moves R (some turnId) w₀ w := by
  have hfailed : ∀ error : TurnError, Moves R (some turnId) w₀ w →
      Settled R (some turnId) w₀ (w.settle turnId (.error error)) := fun error hmoves =>
    .recover hstart (hmoves.tail (.touch w.kept.session.telemetry
      (w.kept.session.setOutcome error.outcome).checkpointedTurn))
  cases ended with
  | ok value =>
    obtain ⟨n, hrunning⟩ := h
    have htouch := hrunning.moves.tail (.touch w.kept.session.telemetry
      (w.kept.session.setOutcome .completed).checkpointedTurn)
    exact ⟨htouch.tail (.complete (hrunning.inTurn turnId rfl).1 hrunning.waiting),
      hrunning.waiting⟩
  | error stop =>
    cases stop with
    | failed error => exact hfailed error h.1
    | timedOut =>
      unfold turnResult
      cases policy.timeoutSeconds with
      | some seconds => exact hfailed _ h.1
      | none => exact ⟨rfl, h.1⟩
    | lost | cut => exact ⟨rfl, h.1⟩

/-- A delivery makes moves for its turn only, and none when the session knows the turn. -/
theorem triple_runTurn (hfenced : Fenced w₀) (hstart : Unambiguous w₀.log → Sound w₀)
    (turnId prompt : String) (attachments : List PromptAttachment) :
    Triple (fun w => w = w₀) (runTurn R turnId prompt attachments)
      (fun _ => Delivered R w₀ turnId (.ok ())) (fun e => Delivered R w₀ turnId (.error e)) := by
  unfold runTurn
  refine .bind (.get (Q := fun w₁ w => w₁ = w₀ ∧ w = w₀) fun w h => ⟨h, h⟩) fun w₁ =>
    .assume fun hw₁ => ?_
  subst hw₁
  dsimp only
  refine .ite (fun _ => .pure fun w h => .inl h) fun hcompleted => .ite (fun hknown => ?_)
    fun hnew => ?_
  · rw [Bool.or_eq_true, decide_eq_true_iff] at hknown
    have hturns : turnId ∈ w₁.kept.session.turns := by
      rw [RuntimeSession.mem_turns]
      refine hknown.imp_right fun hinterrupted => .inl ?_
      obtain ⟨turn, hturn, hid⟩ := List.any_eq_true.1 hinterrupted
      exact List.mem_map.2 ⟨turn, hturn, by simpa using hid⟩
    have hnone : fenced w₁.kept.session turnId = none := if_pos hturns
    refine .bind (.modify (Q := fun _ => Settled R none w₁) ?_) fun _ => ?_
    · rintro w rfl
      exact .recover hstart .refl
    · refine .bind (triple_checkpoint_settled.mono (fun _ h => h) (fun _ _ h => h) fun e w h => ?_)
        fun _ => .throw fun w h => ?_
      · exact Settled.delivered (by rwa [hnone]) _
      · exact Settled.delivered (by rwa [hnone]) _
  · rw [Bool.or_eq_true, decide_eq_true_iff] at hnew
    have hturns : turnId ∉ w₁.kept.session.turns := by
      rw [RuntimeSession.mem_turns]
      rintro (hpending | hinterrupted | hdone)
      · exact hnew (.inl hpending)
      · obtain ⟨turn, hturn, hid⟩ := List.mem_map.1 hinterrupted
        exact hnew (.inr (List.any_eq_true.2 ⟨turn, hturn, by simpa using hid⟩))
      · exact hcompleted (by simpa using hdone)
    have hsome : fenced w₁.kept.session turnId = some turnId := if_neg hturns
    have hdelivered : ∀ w result, Settled R (some turnId) w₁ w → Delivered R w₁ turnId result w :=
      fun w result h => Settled.delivered (by rwa [hsome]) result
    have hrecovered : Settled R (some turnId) w₁ w₁.recover := .recover hstart .refl
    have hunknown : turnId ∉ w₁.recover.kept.session.turns := by
      unfold World.recover
      split
      · exact hturns
      · exact fun hmem => hturns (RuntimeSession.mem_turns_recover.1 hmem)
    obtain ⟨haccepted, hbegun⟩ := hrecovered.accept hfenced.recover w₁.pendingTurn_recover hunknown
      prompt attachments
    let accepted : World := w₁.recover.accept turnId prompt attachments
    refine .bind (.modify (Q := fun _ w => w = w₁.recover) fun w h => by rw [h]) fun _ => ?_
    refine .bind (.modify (Q := fun _ w => w = accepted) fun w h => by rw [h]) fun _ => ?_
    have hstop : ∀ e w, w = accepted → Delivered R w₁ turnId (.error e) w := by
      rintro e w rfl
      exact hdelivered _ _ haccepted
    refine .bind (Q := fun _ => Begun R w₁ turnId) ?_ fun _ => ?_
    · refine .bind (triple_consult hstop) fun _ => .bind (triple_check hstop _) fun _ => .modify ?_
      rintro w ⟨-, rfl⟩
      exact hbegun
    refine .bind (.attempt (triple_runTurnInner hstart prompt attachments)
      (R := fun ended w => match ended with
        | .ok _ => ∃ n, Running R w₁ (some turnId) n [] w
        | .error e => Stopped R w₁ (some turnId) e w) (fun _ _ h => h) fun _ _ h => h) fun ended => ?_
    refine .pre (P := fun w => match turnResult (R.externalTools.getD {}) ended with
      | .ok result => Settled R (some turnId) w₁ (w.settle turnId result)
      | .error stop => stop = .lost ∧ Moves R (some turnId) w₁ w) ?_ fun w h =>
        settle_spec hstart h
    cases turnResult (R.externalTools.getD {}) ended with
    | error stop =>
      refine .throw fun w ⟨hlost, hmoves⟩ => .inr ⟨by rwa [hsome], ?_⟩
      rw [hlost]
      rintro (hok | ⟨error, hfailed⟩)
      · cases hok
      · cases hfailed
    | ok result =>
      refine .bind (.modify (Q := fun _ => Settled R (some turnId) w₁) fun w h => h) fun _ => ?_
      refine .bind ((triple_checkpoint_settled).mono (fun _ h => h) (fun _ _ h => h)
        fun e w h => hdelivered w _ h) fun _ => ?_
      cases result with
      | ok _ => exact .pure fun w h => hdelivered w _ h
      | error error => exact .throw fun w h => hdelivered w _ h

end Nakode.Agent
