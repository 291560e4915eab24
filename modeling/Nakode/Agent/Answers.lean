import Nakode.Agent.Inference

/-!
# Answered calls

The live history of a session is an exchange: an assistant message asks for the results of its
calls. `waiting?` are the ids of the calls that have none yet. A recovery finds these calls by their
ids alone, which is right when no result has one of the ids (`Unambiguous`); then it answers all of
them (`waiting?_recover`). A compaction cuts the history only where nothing is waited for
(`waiting?_compacted`), and a provider that is asked when nothing is waited for sees every call
answered (`answered_modelHistory`).
-/

namespace Nakode.Agent

open Exchange (Answered receive)

namespace ConversationItem

@[simp] theorem role_user (text : String) (attachments : List PromptAttachment) :
    (user text attachments).role = .plain := rfl
@[simp] theorem role_assistant (message : AssistantMessage) :
    (assistant message).role = .ask (message.toolCalls.map (·.id)) := rfl
@[simp] theorem role_toolResult (result : ToolResultItem) :
    (toolResult result).role = .reply result.callId := rfl
@[simp] theorem role_compaction (summary : String) : (compaction summary).role = .plain := rfl
@[simp] theorem role_compactionEvent (event : CompactionEvent) :
    (compactionEvent event).role = .plain := rfl

theorem key?_role (item : ConversationItem) : item.role.key? = item.callId? := by
  cases item <;> rfl

theorem keys_role (item : ConversationItem) : item.role.keys = item.toolCalls.map (·.id) := by
  cases item <;> rfl

/-- A cut point is no reply. -/
theorem role_ne_reply {item : ConversationItem} (h : item.isCutPoint = true) (key : String) :
    item.role ≠ .reply key := by
  cases item <;> simp [isCutPoint] at h ⊢

end ConversationItem

open ConversationItem

/-! ## What a session waits for -/

namespace RuntimeSession

/-- The ids of the calls in the live history that have no result yet. -/
def waiting? (session : RuntimeSession) : Option (List String) :=
  Exchange.waiting? role session.history

/-- No call that waits for its result has the id of a result. -/
def Unambiguous (session : RuntimeSession) : Prop :=
  ∀ key ∈ session.waiting?.getD [], key ∉ session.settled

instance (session : RuntimeSession) : Decidable session.Unambiguous :=
  inferInstanceAs (Decidable (∀ key ∈ session.waiting?.getD [], key ∉ session.settled))

variable {session : RuntimeSession} {keys : List String}

theorem settled_eq (session : RuntimeSession) :
    session.settled = session.history.filterMap fun item => item.role.key? := by
  simp only [settled, key?_role]

theorem asked_eq (session : RuntimeSession) :
    (session.history.flatMap (·.toolCalls)).map (·.id)
      = session.history.flatMap fun item => item.role.keys := by
  simp only [List.map_flatMap, keys_role]

/-- A recovery finds the calls that wait for their results. -/
theorem ids_unsettled (h : session.waiting? = some keys) (hids : session.Unambiguous) :
    session.unsettled.map (·.id) = keys := by
  have hasked := Exchange.waiting?_keys h
  rw [← asked_eq, ← settled_eq] at hasked
  have hfilter : session.unsettled.map (·.id)
      = ((session.history.flatMap (·.toolCalls)).map (·.id)).filter
        fun id => !session.settled.contains id := by
    rw [unsettled, List.filter_map]
    rfl
  have hopen : ∀ key ∈ keys, key ∉ session.settled := by
    intro key hkey
    exact hids key (by rw [h]; exact hkey)
  rw [hfilter, hasked, List.filter_append]
  have hdone : (session.settled.filter fun id => !session.settled.contains id) = [] := by
    rw [List.filter_eq_nil_iff]
    intro id hid
    simpa using hid
  rw [hdone, List.nil_append, List.filter_eq_self]
  intro key hkey
  simpa using hopen key hkey

/-- The results that a recovery appends. -/
def unknownOutcomes (session : RuntimeSession) : List ConversationItem :=
  session.unsettled.map fun call => .toolResult (unknownOutcome call)

theorem role_unknownOutcomes (session : RuntimeSession) :
    session.unknownOutcomes.map role = (session.unsettled.map (·.id)).map .reply := by
  simp only [unknownOutcomes, List.map_map]
  rfl

theorem history_recover {turnId : String} (h : session.pendingTurn = some turnId) :
    session.recoverInterruptedTurn.history = session.history ++ session.unknownOutcomes := by
  rw [recoverInterruptedTurn, h]
  rfl

theorem recover_of_none (h : session.pendingTurn = none) :
    session.recoverInterruptedTurn = session := by
  rw [recoverInterruptedTurn, h]

/-- After a recovery nothing is waited for. -/
theorem waiting?_recover {turnId : String} (h : session.waiting? = some keys)
    (hpending : session.pendingTurn = some turnId) (hids : session.Unambiguous) :
    session.recoverInterruptedTurn.waiting? = some [] := by
  rw [waiting?, history_recover hpending]
  rw [← List.append_nil keys] at h
  refine Exchange.waiting?_replies h ?_
  rw [List.append_nil] at h
  rw [role_unknownOutcomes, ids_unsettled h hids]

/-! ## Compaction -/

/-- A compaction leaves nothing to wait for when there was nothing. -/
theorem waiting?_compacted {tokens : ImageTokens} {cut before : Nat} {provider model summary : String}
    {readFiles modifiedFiles : List String}
    (hcut : compactionCutIndex tokens session.history provider model = some cut)
    (h : session.waiting? = some []) :
    (session.compacted cut before summary readFiles modifiedFiles).waiting? = some [] := by
  obtain ⟨-, item, hitem, hpoint⟩ := mem_validCutPoints.1 (compactionCutIndex_mem hcut)
  obtain ⟨hlt, hitem⟩ := List.getElem?_eq_some_iff.1 hitem
  have hsplit : session.history = session.history.take cut ++ item :: session.history.drop (cut + 1) := by
    rw [← hitem, ← List.drop_eq_getElem_cons hlt, List.take_append_drop]
  rw [waiting?, hsplit] at h
  have hrest := (Exchange.waiting?_of_append (role_ne_reply hpoint) h).2
  rw [← hitem, ← List.drop_eq_getElem_cons hlt] at hrest
  rw [waiting?, compacted, Exchange.waiting?, List.foldlM_cons,
    Exchange.receive_plain (role_compaction summary)]
  exact hrest

end RuntimeSession

/-! ## What a provider sees -/

theorem foldlM_toolImages (sources : List String) (images : List PromptAttachment)
    (history : List ConversationItem) :
    (toolImages sources images ++ history).foldlM (receive role) []
      = history.foldlM (receive role) [] := by
  unfold toolImages
  split
  · rfl
  · rw [List.singleton_append, List.foldlM_cons, toolImagesMessage,
      Exchange.receive_plain (role_user _ _)]
    rfl

/-- The messages with images stand where nothing is waited for. -/
theorem foldlM_modelHistoryFrom {history : List ConversationItem} {keys : List String}
    (h : history.foldlM (receive role) keys = some []) (sources : List String)
    (images : List PromptAttachment) :
    (modelHistoryFrom sources images history).foldlM (receive role) keys = some [] := by
  induction history generalizing keys sources images with
  | nil =>
    cases h
    have himages := foldlM_toolImages sources images []
    rw [List.append_nil] at himages
    exact himages
  | cons item rest ih =>
    rw [List.foldlM_cons] at h
    obtain ⟨after, hitem, hrest⟩ := Option.bind_eq_some_iff.1 h
    cases item with
    | toolResult result =>
      rw [modelHistoryFrom, List.foldlM_cons]
      exact Option.bind_eq_some_iff.2 ⟨after, hitem, ih hrest _ _⟩
    | _ =>
      obtain rfl := Exchange.eq_nil_of_receive (role_ne_reply rfl) hitem
      rw [modelHistoryFrom, foldlM_toolImages, List.foldlM_cons]
      · exact Option.bind_eq_some_iff.2 ⟨after, hitem, ih hrest _ _⟩
      · intro result hresult
        cases hresult

/-- A provider that is asked when nothing is waited for sees every call answered. -/
theorem answered_modelHistory {session : RuntimeSession} (h : session.waiting? = some []) :
    Answered role (modelHistory session.history) :=
  Exchange.answered_iff.2 (foldlM_modelHistoryFrom h [] [])

end Nakode.Agent
