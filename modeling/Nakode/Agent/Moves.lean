import Nakode.Agent.Answers
import Nakode.Agent.Turn

/-!
# Moves

What the runtime does to a session, to its checkpoint and to the log at one point of a turn, with
what it has made sure of before (`Move`): where nothing is waited for, which turn is pending and
that a checkpoint knows it, that a call was offered and nothing executed for it yet. What follows
for the conversation is said of a session in its own terms first.
-/

namespace Nakode.Agent

open Exchange (Answered)
open ConversationItem

/-! ## The log -/

namespace Effect

/-- The turn for which something was asked or executed. -/
def turn? : Effect → Option String
  | .inference turnId _ _ => some turnId
  | .execute site _ | .request site _ => some site.turnId
  | _ => none

def execution? : Effect → Option (Site × ToolCall)
  | .execute site toolCall | .request site toolCall => some (site, toolCall)
  | _ => none

def request? : Effect → Option InferenceRequest
  | .inference _ _ asked | .compaction asked => some asked
  | _ => none

def recovered? : Effect → Option RuntimeSession
  | .recovered session => some session
  | _ => none

/-- In which round of a turn an inference was. -/
def round? (turnId : String) : Effect → Option Nat
  | .inference turnId' round _ => if turnId' = turnId then some round else none
  | _ => none

/-- An effect that says nothing of a turn or of a recovery. -/
def isQuiet : Effect → Bool
  | .finished _ _ | .returned _ _ => true
  | _ => false

end Effect

/-- What was executed, and for which call. -/
def executions (log : List Effect) : List (Site × ToolCall) := log.filterMap (·.execution?)

/-- The rounds of a turn's inferences. -/
def rounds (turnId : String) (log : List Effect) : List Nat := log.filterMap (·.round? turnId)

/-- No recovery took an open call for a settled one. -/
def Unambiguous (log : List Effect) : Prop :=
  ∀ session, .recovered session ∈ log → session.Unambiguous

@[simp] theorem executions_append (log more : List Effect) :
    executions (log ++ more) = executions log ++ executions more := List.filterMap_append

@[simp] theorem rounds_append (turnId : String) (log more : List Effect) :
    rounds turnId (log ++ more) = rounds turnId log ++ rounds turnId more := List.filterMap_append

theorem Unambiguous.of_append {log more : List Effect} (h : Unambiguous (log ++ more)) :
    Unambiguous log :=
  fun session hsession => h session (List.mem_append_left _ hsession)

/-- What a result says of an execution: its own result, or that the outcome is unknown. -/
def Explains (log : List Effect) (site : Site) (toolCall : ToolCall) (result : ToolResultItem) :
    Prop :=
  result.callId = toolCall.id ∧ ((∃ call, result = unknownOutcome call)
    ∨ ∃ outcome more, .finished site outcome ∈ log ∧ result.failed = outcome.failed
      ∧ result.output = outcome.output ++ more)

theorem Explains.append {log : List Effect} {site : Site} {toolCall : ToolCall}
    {result : ToolResultItem} (h : Explains log site toolCall result) (more : List Effect) :
    Explains (log ++ more) site toolCall result := by
  obtain ⟨hid, hunknown | ⟨outcome, text, hlog, houtcome⟩⟩ := h
  · exact ⟨hid, .inl hunknown⟩
  · exact ⟨hid, .inr ⟨outcome, text, List.mem_append_left _ hlog, houtcome⟩⟩

/-- A tool is offered by the list that a provider is shown, or to a program by the catalogue that
its tool describes. -/
def AgentRuntime.Offers (R : AgentRuntime) (tools : List ToolDefinition) (sequence : Option Nat)
    (name : String) : Prop :=
  match sequence with
  | none => name ∈ tools.map (·.name)
  | some sequence => sequence ≤ maxToolCalls ∧ name ≠ "codemode" ∧ ∃ catalogue,
      R.codeModeCatalogue = some catalogue ∧ tools = [codeModeDefinition catalogue]
        ∧ name ∈ catalogue.map (·.name)

/-- A call's tool was offered in its round. -/
def Offered (R : AgentRuntime) (log : List Effect) (site : Site) (toolCall : ToolCall) : Prop :=
  ∃ request, .inference site.turnId site.round request ∈ log
    ∧ R.Offers request.tools site.slot.sequence toolCall.name

theorem Offered.append {R : AgentRuntime} {log : List Effect} {site : Site} {toolCall : ToolCall}
    (h : Offered R log site toolCall) (more : List Effect) :
    Offered R (log ++ more) site toolCall := by
  obtain ⟨request, hlog, hname⟩ := h
  exact ⟨request, List.mem_append_left _ hlog, hname⟩

/-- The arguments of a call are accepted. -/
def AgentRuntime.accepts (R : AgentRuntime) (nested : Bool) (toolCall : ToolCall) : Bool :=
  if R.codeModeCatalogue.isSome && !nested then (programSource toolCall.arguments).isOk
  else R.isExternalTool toolCall.name || (R.tools.findAvailable? toolCall.name).any fun tool =>
    (tool.prepareAndValidate toolCall.arguments).isOk

/-- What was answered to a call: it was executed if it could be, and else it failed. -/
def Answers (R : AgentRuntime) (log : List Effect) (site : Site) (toolCall : ToolCall)
    (result : ToolResultItem) : Prop :=
  (Offered R log site toolCall ∧ R.accepts site.slot.sequence.isSome toolCall = true →
      (site, toolCall) ∈ executions log)
    ∧ (¬(Offered R log site toolCall ∧ R.accepts site.slot.sequence.isSome toolCall = true) →
      result.failed = true)

/-! ## What a session knows -/

namespace RuntimeSession

/-- The turns that a session knows. -/
def turns (session : RuntimeSession) : List String :=
  session.pendingTurn.toList ++ session.interruptedTurns.map (·.id) ++ session.completedTurns

theorem mem_turns {session : RuntimeSession} {turnId : String} :
    turnId ∈ session.turns ↔ session.pendingTurn = some turnId
      ∨ turnId ∈ session.interruptedTurns.map (·.id) ∨ turnId ∈ session.completedTurns := by
  simp only [turns, List.mem_append, Option.mem_toList, or_assoc]

theorem mem_turns_recover {session : RuntimeSession} {turnId : String} :
    turnId ∈ session.recoverInterruptedTurn.turns ↔ turnId ∈ session.turns := by
  cases h : session.pendingTurn with
  | none => rw [recover_of_none h]
  | some pending =>
    simp only [mem_turns, recoverInterruptedTurn, h, List.map_append, List.map_cons, List.map_nil,
      List.mem_append, List.mem_singleton, Option.some.injEq, reduceCtorEq, false_or]
    constructor
    · rintro ((h | h) | h)
      · exact .inr (.inl h)
      · exact .inl h.symm
      · exact .inr (.inr h)
    · rintro (h | h | h)
      · exact .inl (.inr h.symm)
      · exact .inl (.inl h)
      · exact .inr h

theorem mem_turns_complete {session : RuntimeSession} {turnId pending : String}
    (h : session.pendingTurn = some pending) :
    turnId ∈ (session.complete pending).turns ↔ turnId ∈ session.turns := by
  simp only [mem_turns, complete, h, List.mem_append, List.mem_singleton, Option.some.injEq,
    reduceCtorEq, false_or]
  constructor
  · rintro (h | h | h)
    · exact .inr (.inl h)
    · exact .inr (.inr h)
    · exact .inl h.symm
  · rintro (h | h | h)
    · exact .inr (.inr h.symm)
    · exact .inl h
    · exact .inr (.inl h)

theorem mem_turns_accept {session : RuntimeSession} {turnId other prompt : String}
    {attachments : List PromptAttachment} (h : session.pendingTurn = none) :
    other ∈ (session.accept turnId prompt attachments).turns
      ↔ other = turnId ∨ other ∈ session.turns := by
  simp only [mem_turns, accept, h, Option.some.injEq, reduceCtorEq, false_or, eq_comm]

/-! ## The conversation -/

theorem historyItems_push (session : RuntimeSession) (item : ConversationItem)
    (h : item.isCompaction = false) :
    (session.push item).historyItems = session.historyItems ++ [item] := by
  simp only [historyItems, push, ← List.append_assoc, List.filter_append]
  congr 1
  rw [List.filter_cons, h]
  rfl

theorem historyPosition_push (session : RuntimeSession) (item : ConversationItem)
    (h : item.isCompaction = false) :
    (session.push item).historyPosition = session.historyPosition + 1 := by
  rw [historyPosition, historyItems_push session item h, List.length_append]
  rfl

theorem isCompaction_unknownOutcomes (session : RuntimeSession) :
    session.unknownOutcomes.filter (!·.isCompaction) = session.unknownOutcomes := by
  rw [List.filter_eq_self]
  intro item hitem
  obtain ⟨call, -, rfl⟩ := List.mem_map.1 hitem
  rfl

theorem historyItems_recover {session : RuntimeSession} {turnId : String}
    (h : session.pendingTurn = some turnId) :
    session.recoverInterruptedTurn.historyItems
      = session.historyItems ++ session.unknownOutcomes := by
  have hcompactions : session.recoverInterruptedTurn.compactions = session.compactions := by
    rw [recoverInterruptedTurn, h]
  rw [historyItems, hcompactions, history_recover h, ← List.append_assoc, List.filter_append,
    isCompaction_unknownOutcomes]
  rfl

theorem historyItems_accept (session : RuntimeSession) (turnId prompt : String)
    (attachments : List PromptAttachment) :
    (session.accept turnId prompt attachments).historyItems
      = session.historyItems ++ [.user prompt attachments] :=
  historyItems_push session _ rfl

/-- A prompt is replaced in its place. -/
theorem historyItems_replacePrompt {session : RuntimeSession} {front : List ConversationItem}
    {text : String} {images : List PromptAttachment}
    (h : session.history = front ++ [.user text images]) (prompt : String)
    (attachments : List PromptAttachment) :
    ∃ items, session.historyItems = items ++ [.user text images]
      ∧ (session.replacePrompt prompt attachments).historyItems
        = items ++ [.user prompt attachments] := by
  have hnonempty : session.history.isEmpty = false := by
    rw [h]
    simp
  refine ⟨(session.compactions.flatMap (·.compactedHistory) ++ front).filter (!·.isCompaction),
    ?_, ?_⟩
  · rw [historyItems, h, ← List.append_assoc, List.filter_append]
    rfl
  · rw [replacePrompt, hnonempty, historyItems]
    simp only [Bool.false_eq_true, if_false, h, List.dropLast_concat]
    rw [← List.append_assoc, List.filter_append]
    rfl

theorem waiting?_push {session : RuntimeSession} {item : ConversationItem} {keys next : List String}
    (h : session.waiting? = some keys) (hitem : Exchange.receive role keys item = some next) :
    (session.push item).waiting? = some next :=
  Exchange.waiting?_concat h hitem

theorem waiting?_replacePrompt {session : RuntimeSession} {front : List ConversationItem}
    {text prompt : String} {images attachments : List PromptAttachment}
    (h : session.history = front ++ [.user text images]) (hw : session.waiting? = some []) :
    (session.replacePrompt prompt attachments).waiting? = some [] := by
  have hnonempty : session.history.isEmpty = false := by
    rw [h]
    simp
  rw [waiting?, h] at hw
  have hfront := (Exchange.waiting?_of_append (role_ne_reply rfl) hw).1
  rw [waiting?, replacePrompt, hnonempty]
  simp only [Bool.false_eq_true, if_false, h, List.dropLast_concat]
  exact Exchange.waiting?_concat hfront (Exchange.receive_plain (role_user _ _))

end RuntimeSession

/-! ## Moves -/

namespace World

/-- The calls of the live history that wait for their results. -/
def Waiting (w : World) (keys : List String) : Prop :=
  Unambiguous w.log → w.kept.session.waiting? = some keys

/-- A turn is pending, and a checkpoint knows it. -/
def InTurn (w : World) (turnId : String) : Prop :=
  w.kept.session.pendingTurn = some turnId
    ∧ ∃ kept, w.saved = some kept ∧ turnId ∈ kept.session.turns

/-- The last checkpoint has the conversation as it stands. -/
def Synced (w : World) : Prop :=
  ∃ kept, w.saved = some kept ∧ kept.session.history = w.kept.session.history
    ∧ kept.session.compactions = w.kept.session.compactions

/-- Something may be executed for a call: it was offered and waits for its result, the checkpoint
says so, its arguments are accepted, and nothing was executed for it. -/
structure Executable (R : AgentRuntime) (w : World) (site : Site) (toolCall : ToolCall) : Prop where
  turn : w.InTurn site.turnId
  offered : Offered R w.log site toolCall
  accepted : R.accepts site.slot.sequence.isSome toolCall = true
  synced : w.Synced
  waits : ∃ keys i, w.Waiting keys ∧ site.slot.position = w.kept.session.historyPosition + i
    ∧ i < keys.length ∧ (site.slot.sequence = none → keys[i]? = some toolCall.id)
  fresh : ∀ other ∈ executions w.log, Unambiguous w.log ∨ other.1.turnId = site.turnId →
    other.1.slot ≠ site.slot

end World

/-- A provider is asked in a round with the tools of the runtime, while there are rounds left, and
with none when the turn is finalized. -/
def AgentRuntime.Asks (R : AgentRuntime) (round : Nat) (tools : List ToolDefinition) : Prop :=
  (R.externalTools.getD {}).maxTurns.any (· ≤ round) = false
    ∧ tools = if (R.externalTools.getD {}).finalizing round then [] else R.inferenceTools

/-- A result was told as the answer to a call. -/
def Told (log : List Effect) (position : Nat) (result : ToolResultItem) : Prop :=
  ∃ site toolCall, .answered site toolCall result ∈ log ∧ site.slot = ⟨position, none⟩
    ∧ result.callId = toolCall.id

/-- What the runtime does at one point for the turn that runs, if there is one, and what it has made
sure of. -/
inductive Move (R : AgentRuntime) : Option String → World → World → Prop
  | emit {turn : Option String} {w : World} {effect : Effect} (h : effect.isQuiet = true) :
      Move R turn w (w.emit effect)
  | save {turn : Option String} {w : World} : Move R turn w w.save
  | touch {turn : Option String} {w : World} (telemetry : RuntimeTelemetry)
      (checkpointed : Option PersistedTurnConfiguration) :
      Move R turn w (w.update fun session =>
        { session with telemetry := telemetry, checkpointedTurn := checkpointed })
  | recover {turn : Option String} {w : World} : Move R turn w w.recover
  | accept {w : World} {turnId prompt : String} {attachments : List PromptAttachment}
      (hpending : w.kept.session.pendingTurn = none) (hnew : turnId ∉ w.kept.session.turns)
      (hw : w.Waiting []) : Move R (some turnId) w (w.accept turnId prompt attachments)
  | prompt {w : World} {front : List ConversationItem} {turnId text prompt : String}
      {images attachments : List PromptAttachment} (hturn : w.InTurn turnId)
      (h : w.kept.session.history = front ++ [.user text images]) (hw : w.Waiting []) :
      Move R (some turnId) w (w.update (·.replacePrompt prompt attachments))
  | note {w : World} {turnId text : String} (hturn : w.InTurn turnId) (hw : w.Waiting []) :
      Move R (some turnId) w (w.push (.user text []))
  | infer {w : World} {turnId : String} {round : Nat} {tools : List ToolDefinition}
      (hturn : w.InTurn turnId) (hround : rounds turnId w.log = List.range round)
      (htools : R.Asks round tools) (hw : w.Waiting []) :
      Move R (some turnId) w
        (w.emit (.inference turnId round (w.kept.session.inferenceRequest tools)))
  | message {w : World} {message : AssistantMessage} {turnId : String}
      (hturn : w.InTurn turnId) (hw : w.Waiting []) :
      Move R (some turnId) w (w.push (.assistant message))
  | execute {w : World} {site : Site} {toolCall : ToolCall} (h : w.Executable R site toolCall)
      (hroute : R.isExternalTool toolCall.name = false
        ∨ R.codeModeCatalogue.isSome = true ∧ site.slot.sequence = none) :
      Move R (some site.turnId) w (w.emit (.execute site toolCall))
  | request {w : World} {site : Site} {toolCall : ToolCall} (h : w.Executable R site toolCall)
      (hroute : R.isExternalTool toolCall.name = true) :
      Move R (some site.turnId) w (w.emit (.request site toolCall))
  | answer {w : World} {site : Site} {toolCall : ToolCall} {result : ToolResultItem}
      (h : Answers R w.log site toolCall result) :
      Move R (some site.turnId) w (w.emit (.answered site toolCall result))
  | result {w : World} {turnId : String} {result : ToolResultItem} {keys : List String}
      (hturn : w.InTurn turnId) (hw : w.Waiting (result.callId :: keys))
      (htold : Told w.log w.kept.session.historyPosition result)
      (hresult : Unambiguous w.log → ∀ site call, (site, call) ∈ executions w.log →
        site.slot = ⟨w.kept.session.historyPosition, none⟩ → Explains w.log site call result) :
      Move R (some turnId) w (w.push (.toolResult result))
  | retain {w : World} {turnId callId : String} {attachment : PromptAttachment}
      {moreAttachments : List PromptAttachment} (hturn : w.InTurn turnId) :
      Move R (some turnId) w (w.retain turnId callId attachment moreAttachments)
  | summarize {turn : Option String} {w : World} {request : InferenceRequest} {prompt : String}
      (h : request.history = [.user prompt []]) : Move R turn w (w.emit (.compaction request))
  | compacted {turn : Option String} {w : World} {cut before : Nat} {summary : String}
      {readFiles modifiedFiles : List String}
      (hcut : compactionCutIndex R.imageTokens w.kept.session.history w.kept.session.providerId
        w.kept.session.model = some cut) (hw : w.Waiting []) :
      Move R turn w (w.update (·.compacted cut before summary readFiles modifiedFiles))
  | event {turn : Option String} {w : World} {event : CompactionEvent} (hw : w.Waiting []) :
      Move R turn w (w.push (.compactionEvent event))
  | complete {w : World} {turnId : String} (hturn : w.kept.session.pendingTurn = some turnId)
      (hw : w.Waiting []) : Move R (some turnId) w (w.update (·.complete turnId))

/-- Any number of moves. -/
abbrev Moves (R : AgentRuntime) (turn : Option String) : World → World → Prop :=
  Relation.ReflTransGen (Move R turn)

/-- What a log has more than another one is of no turn but this one. -/
def Adds (turn : Option String) (log log' : List Effect) : Prop :=
  ∃ more, log' = log ++ more
    ∧ ∀ effect ∈ more, ∀ turnId, effect.turn? = some turnId → turn = some turnId

namespace Adds

variable {turn : Option String} {log log₁ log₂ : List Effect}

protected theorem refl : Adds turn log log := ⟨[], (List.append_nil _).symm, List.forall_mem_nil _⟩

protected theorem trans (h₁ : Adds turn log log₁) (h₂ : Adds turn log₁ log₂) :
    Adds turn log log₂ := by
  obtain ⟨more, rfl, hmore⟩ := h₁
  obtain ⟨next, rfl, hnext⟩ := h₂
  exact ⟨more ++ next, List.append_assoc _ _ _, List.forall_mem_append.2 ⟨hmore, hnext⟩⟩

protected theorem emit {w : World} {effect : Effect}
    (h : ∀ turnId, effect.turn? = some turnId → turn = some turnId) :
    Adds turn w.log (w.emit effect).log :=
  ⟨[effect], rfl, List.forall_mem_singleton.2 h⟩

end Adds

/-- What is logged is of the turn that runs. -/
theorem Move.adds {R : AgentRuntime} {turn : Option String} {w w' : World}
    (hmove : Move R turn w w') : Adds turn w.log w'.log := by
  cases hmove with
  | emit hquiet =>
    refine .emit fun turnId hturn => ?_
    cases heffect : ‹Effect› <;> simp [heffect, Effect.isQuiet, Effect.turn?] at hquiet hturn
  | recover =>
    unfold World.recover
    split
    · exact .refl
    · refine Adds.emit fun turnId hturn => ?_
      cases hturn
  | infer | execute | request =>
    refine .emit fun turnId hturn => ?_
    cases hturn
    rfl
  | answer | summarize | retain =>
    refine Adds.emit fun turnId hturn => ?_
    cases hturn
  | save | touch | accept | prompt | note | message | result | compacted | event | complete =>
    exact .refl

theorem Moves.adds {R : AgentRuntime} {turn : Option String} {w w' : World}
    (hmoves : Moves R turn w w') : Adds turn w.log w'.log := by
  induction hmoves with
  | refl => exact .refl
  | tail _ hmove ih => exact ih.trans hmove.adds

end Nakode.Agent
