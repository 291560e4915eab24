import Nakode.Agent.Moves

/-!
# What is accounted for

What holds of a session, its checkpoint and the log through all moves. Only a turn that a checkpoint
knows has effects (`Fenced`). Unless a recovery took an open call for a settled one, every provider
has seen every call answered, each prompt was appended once, nothing was executed twice for a call,
and whatever was executed is accounted for in the conversation (`Accounted`): its result stands
where the call's result belongs, or the call still waits for it (`Sound`).
-/

namespace Nakode.Agent

open Exchange (Answered)
open ConversationItem

variable {R : AgentRuntime} {turn : Option String} {w w' : World}

/-! ## Fenced turns -/

/-- The prompts of different turns were appended, of turns that the session knows. -/
structure Prompted (kept : Kept) : Prop where
  nodup : kept.prompts.Nodup
  known : ∀ turnId ∈ kept.prompts, turnId ∈ kept.session.turns

/-- The checkpoint's turns are the session's, a turn with effects is one of them, no turn's prompt
was appended twice, and a turn executes nothing twice for a call. -/
structure Fenced (w : World) : Prop where
  turns : ∀ kept, w.saved = some kept → ∀ turnId ∈ kept.session.turns,
    turnId ∈ w.kept.session.turns
  effects : ∀ effect ∈ w.log, ∀ turnId, effect.turn? = some turnId →
    ∃ kept, w.saved = some kept ∧ turnId ∈ kept.session.turns
  prompts : Prompted w.kept
  saved : ∀ kept, w.saved = some kept → Prompted kept
  once : ((executions w.log).map fun e => (e.1.turnId, e.1.slot)).Nodup

namespace Fenced

/-- The session is changed, and knows its turns still. -/
theorem update (h : Fenced w) {f : RuntimeSession → RuntimeSession}
    (hf : ∀ turnId ∈ w.kept.session.turns, turnId ∈ (f w.kept.session).turns) :
    Fenced (w.update f) where
  turns kept hkept turnId hturn := hf turnId (h.turns kept hkept turnId hturn)
  effects := h.effects
  prompts := ⟨h.prompts.nodup, fun turnId hturn => hf turnId (h.prompts.known turnId hturn)⟩
  saved := h.saved
  once := h.once

theorem emit (h : Fenced w) {effect : Effect}
    (heffect : ∀ turnId, effect.turn? = some turnId → w.InTurn turnId)
    (hfresh : ∀ e, effect.execution? = some e → ∀ other ∈ executions w.log,
      other.1.turnId = e.1.turnId → other.1.slot ≠ e.1.slot) : Fenced (w.emit effect) := by
  refine ⟨h.turns, fun other hother turnId hturn => ?_, h.prompts, h.saved, ?_⟩
  · rcases List.mem_append.1 hother with hother | hother
    · exact h.effects other hother turnId hturn
    · cases List.mem_singleton.1 hother
      exact (heffect turnId hturn).2
  · change ((executions (w.log ++ [effect])).map _).Nodup
    rw [executions_append, List.map_append]
    cases hexecution : effect.execution? with
    | none =>
      have hnone : executions [effect] = [] := by
        rw [executions, List.filterMap_cons, hexecution]
        rfl
      rw [hnone]
      exact (List.append_nil _).symm ▸ h.once
    | some e =>
      have hone : executions [effect] = [e] := by
        rw [executions, List.filterMap_cons, hexecution]
        rfl
      rw [hone]
      refine h.once.append (List.nodup_singleton _) fun at_ hat hsame => ?_
      obtain ⟨other, hother, rfl⟩ := List.mem_map.1 hat
      obtain ⟨hturn, hslot⟩ := Prod.mk.inj (List.mem_singleton.1 hsame)
      exact hfresh e hexecution other hother hturn hslot

/-- Something is logged that is neither of a turn nor an execution. -/
theorem note (h : Fenced w) {effect : Effect} (hturn : effect.turn? = none)
    (hexecution : effect.execution? = none) : Fenced (w.emit effect) := by
  refine h.emit (fun turnId heffect => ?_) fun e heffect => ?_
  · rw [hturn] at heffect
    cases heffect
  · rw [hexecution] at heffect
    cases heffect

theorem save (h : Fenced w) : Fenced w.save := by
  refine ⟨?_, fun effect heffect turnId hturn => ?_, h.prompts, ?_, h.once⟩
  · rintro kept hkept turnId hturn
    cases hkept
    exact hturn
  · obtain ⟨kept, hkept, hmem⟩ := h.effects effect heffect turnId hturn
    exact ⟨w.kept, rfl, h.turns kept hkept turnId hmem⟩
  · rintro kept hkept
    cases hkept
    exact h.prompts

theorem recover (h : Fenced w) : Fenced w.recover := by
  unfold World.recover
  split
  · exact h
  · refine Fenced.update (w := w.emit (.recovered w.kept.session)) (h.note rfl rfl) ?_
    intro turnId hturn
    exact RuntimeSession.mem_turns_recover.2 hturn

theorem accept (h : Fenced w) {turnId prompt : String} {attachments : List PromptAttachment}
    (hpending : w.kept.session.pendingTurn = none) (hnew : turnId ∉ w.kept.session.turns) :
    Fenced (w.accept turnId prompt attachments) := by
  have hturns : ∀ other ∈ w.kept.session.turns,
      other ∈ (w.kept.session.accept turnId prompt attachments).turns :=
    fun other hother => (RuntimeSession.mem_turns_accept hpending).2 (.inr hother)
  refine ⟨fun kept hkept other hother => hturns other (h.turns kept hkept other hother), h.effects,
    ⟨?_, fun other hother => ?_⟩, h.saved, h.once⟩
  · refine h.prompts.nodup.append (List.nodup_singleton turnId) fun other hother hsame => ?_
    cases List.mem_singleton.1 hsame
    exact hnew (h.prompts.known turnId hother)
  · rcases List.mem_append.1 hother with hother | hother
    · exact hturns other (h.prompts.known other hother)
    · exact (RuntimeSession.mem_turns_accept hpending).2 (.inl (List.mem_singleton.1 hother))

theorem move (h : Fenced w) (hmove : Move R turn w w') : Fenced w' := by
  cases hmove with
  | emit hquiet =>
    cases heffect : ‹Effect› <;> simp [heffect, Effect.isQuiet] at hquiet
    all_goals exact h.note rfl rfl
  | save => exact h.save
  | touch | note | message | event | result | compacted => exact h.update fun _ hturn => hturn
  | recover => exact h.recover
  | accept hpending hnew => exact h.accept hpending hnew
  | prompt =>
    refine h.update fun turnId hturn => ?_
    unfold RuntimeSession.replacePrompt
    split <;> exact hturn
  | infer hturn =>
    refine h.emit (fun turnId heffect => ?_) fun _ heffect => ?_
    · cases heffect
      exact hturn
    · cases heffect
  | execute hrun | request hrun =>
    refine h.emit (fun turnId heffect => ?_) fun e heffect other hother hsame => ?_
    · cases heffect
      exact hrun.turn
    · cases heffect
      exact hrun.fresh other hother (.inr hsame)
  | answer | summarize => exact h.note rfl rfl
  | @retain _ turnId callId attachment more =>
    have hemit : Fenced (w.emit (.retained w.kept.session callId)) := h.note rfl rfl
    exact hemit.update (f := (·.retainImages turnId callId attachment more)) fun _ hturn => hturn
  | complete hpending =>
    exact h.update fun turnId hturn => (RuntimeSession.mem_turns_complete hpending).2 hturn

theorem moves (h : Fenced w) (hmoves : Moves R turn w w') : Fenced w' := by
  induction hmoves with
  | refl => exact h
  | tail _ hmove ih => exact ih.move hmove

end Fenced

/-! ## What was executed -/

/-- Something that was executed is accounted for in a conversation whose last calls wait for their
results: its call waits, or stands answered by what the execution came to. -/
structure Accounted (log : List Effect) (items : List ConversationItem) (keys : List String)
    (site : Site) (toolCall : ToolCall) : Prop where
  below : site.slot.position < items.length + keys.length
  waits : site.slot.sequence = none → ∀ i, site.slot.position = items.length + i →
    keys[i]? = some toolCall.id
  answered : site.slot.sequence = none → site.slot.position < items.length →
    ∃ result, items[site.slot.position]? = some (.toolResult result)
      ∧ Explains log site toolCall result

namespace Accounted

variable {log : List Effect} {items : List ConversationItem} {keys : List String} {site : Site}
  {toolCall : ToolCall}

theorem append (h : Accounted log items keys site toolCall) (more : List Effect) :
    Accounted (log ++ more) items keys site toolCall := by
  refine ⟨h.below, h.waits, fun hseq hlt => ?_⟩
  obtain ⟨result, hitem, hresult⟩ := h.answered hseq hlt
  exact ⟨result, hitem, hresult.append more⟩

/-- The calls that wait are answered, in order, with results that explain what was executed. -/
theorem results (h : Accounted log items keys site toolCall) {results : List ToolResultItem}
    (hids : results.map (·.callId) = keys)
    (hresults : site.slot.sequence = none → ∀ i result, results[i]? = some result →
      site.slot.position = items.length + i → Explains log site toolCall result) :
    Accounted log (items ++ results.map .toolResult) [] site toolCall := by
  have hlen : results.length = keys.length := by rw [← hids, List.length_map]
  refine ⟨?_, ?_, fun hseq hlt => ?_⟩
  · have := h.below
    simp only [List.length_append, List.length_map, List.length_nil]
    omega
  · intro hseq i hi
    have := h.below
    simp only [List.length_append, List.length_map] at hi
    omega
  · by_cases hold : site.slot.position < items.length
    · obtain ⟨result, hitem, hresult⟩ := h.answered hseq hold
      exact ⟨result, by rw [List.getElem?_append_left hold, hitem], hresult⟩
    · obtain ⟨i, hi⟩ := Nat.exists_eq_add_of_le (Nat.le_of_not_lt hold)
      have hlt' : i < results.length := by
        have := h.below
        omega
      refine ⟨results[i], ?_, hresults hseq i _ (List.getElem?_eq_getElem hlt') hi⟩
      rw [hi, List.getElem?_append_right (Nat.le_add_right _ _), Nat.add_sub_cancel_left,
        List.getElem?_map, List.getElem?_eq_getElem hlt']
      rfl

/-- Where nothing is waited for, the conversation goes on. -/
theorem more (h : Accounted log items [] site toolCall) (item : ConversationItem)
    (keys : List String) : Accounted log (items ++ [item]) keys site toolCall := by
  have hlt : site.slot.position < items.length := by simpa using h.below
  refine ⟨?_, ?_, fun hseq _ => ?_⟩
  · simp only [List.length_append]
    omega
  · intro hseq i hi
    simp only [List.length_append] at hi
    omega
  · obtain ⟨result, hitem, hresult⟩ := h.answered hseq hlt
    exact ⟨result, by rw [List.getElem?_append_left hlt, hitem], hresult⟩

/-- The first call that waits is answered. -/
theorem result (h : Accounted log items (key :: keys) site toolCall) {result : ToolResultItem}
    (hresult : site.slot = ⟨items.length, none⟩ → Explains log site toolCall result) :
    Accounted log (items ++ [.toolResult result]) keys site toolCall := by
  refine ⟨?_, fun hseq i hi => ?_, fun hseq hlt => ?_⟩
  · have := h.below
    simp only [List.length_append, List.length_cons, List.length_nil] at this ⊢
    omega
  · simp only [List.length_append, List.length_cons, List.length_nil] at hi
    have hkey := h.waits hseq (i + 1) (by omega)
    rwa [List.getElem?_cons_succ] at hkey
  · simp only [List.length_append, List.length_cons, List.length_nil] at hlt
    by_cases hold : site.slot.position < items.length
    · obtain ⟨result, hitem, hresult⟩ := h.answered hseq hold
      exact ⟨result, by rw [List.getElem?_append_left hold, hitem], hresult⟩
    · have hat : site.slot.position = items.length := by omega
      refine ⟨result, ?_, hresult ?_⟩
      · rw [hat, List.getElem?_append_right (Nat.le_refl _), Nat.sub_self]
        rfl
      · cases hslot : site.slot with
        | mk position sequence =>
          rw [hslot] at hat hseq
          change position = items.length at hat
          change sequence = none at hseq
          rw [hat, hseq]

end Accounted

/-! ## Sound sessions -/

/-- What a session's conversation says of the log. -/
def Accounts (log : List Effect) (session : RuntimeSession) : Prop :=
  ∃ keys, session.waiting? = some keys ∧ (keys ≠ [] → session.pendingTurn ≠ none)
    ∧ ∀ site call, (site, call) ∈ executions log →
      Accounted log session.historyItems keys site call

namespace Accounts

variable {log : List Effect} {session session' : RuntimeSession}

/-- What is logged is no execution. -/
theorem append (h : Accounts log session) {more : List Effect} (hmore : executions more = []) :
    Accounts (log ++ more) session := by
  obtain ⟨keys, hwaiting, hpending, hall⟩ := h
  refine ⟨keys, hwaiting, hpending, fun site call hmem => ?_⟩
  rw [executions_append, hmore, List.append_nil] at hmem
  exact (hall site call hmem).append more

/-- Where nothing is waited for, a message with calls or another item is appended. -/
theorem more (h : Accounts log session) (hw : session.waiting? = some []) {item : ConversationItem}
    {keys : List String} (hitems : session'.historyItems = session.historyItems ++ [item])
    (hwaiting : session'.waiting? = some keys) (hpending : keys ≠ [] → session'.pendingTurn ≠ none) :
    Accounts log session' := by
  obtain ⟨keys', hwaiting', -, hall⟩ := h
  obtain rfl := Option.some.inj (hw.symm.trans hwaiting')
  refine ⟨keys, hwaiting, hpending, fun site call hmem => ?_⟩
  rw [hitems]
  exact (hall site call hmem).more item keys

/-- The conversation stays as it is. -/
theorem same (h : Accounts log session) (hitems : session'.historyItems = session.historyItems)
    (hwaiting : session'.waiting? = session.waiting?)
    (hpending : session.waiting? = some [] ∨ session'.pendingTurn = session.pendingTurn) :
    Accounts log session' := by
  obtain ⟨keys, hkeys, hpending', hall⟩ := h
  refine ⟨keys, hwaiting.trans hkeys, fun hne => ?_, fun site call hmem => ?_⟩
  · rcases hpending with hnil | hsame
    · exact absurd (Option.some.inj (hkeys.symm.trans hnil)) hne
    · rw [hsame]
      exact hpending' hne
  · rw [hitems]
    exact hall site call hmem

/-- Every call that waits is answered as unknown. -/
theorem recover (h : Accounts log session) (hids : session.Unambiguous) {turnId : String}
    (hturn : session.pendingTurn = some turnId) : Accounts log session.recoverInterruptedTurn := by
  obtain ⟨keys, hwaiting, -, hall⟩ := h
  have hunsettled := RuntimeSession.ids_unsettled hwaiting hids
  refine ⟨[], RuntimeSession.waiting?_recover hwaiting hturn hids, fun hne => absurd rfl hne,
    fun site call hmem => ?_⟩
  have hresults : session.unknownOutcomes
      = (session.unsettled.map unknownOutcome).map ConversationItem.toolResult := by
    rw [List.map_map]
    rfl
  have hcallIds : (session.unsettled.map unknownOutcome).map (·.callId) = keys := by
    rw [List.map_map, ← hunsettled]
    rfl
  rw [RuntimeSession.historyItems_recover hturn, hresults]
  refine (hall site call hmem).results hcallIds fun hseq i result hresult hi => ⟨?_, .inl ?_⟩
  · have hkey := (hall site call hmem).waits hseq i hi
    rw [← hcallIds, List.getElem?_map, hresult] at hkey
    exact Option.some.inj hkey
  · rw [List.getElem?_map] at hresult
    obtain ⟨unsettled, -, rfl⟩ := Option.map_eq_some_iff.1 hresult
    exact ⟨unsettled, rfl⟩

/-- A prompt is replaced in its place. -/
theorem replacePrompt (h : Accounts log session) (hw : session.waiting? = some [])
    {front : List ConversationItem} {text prompt : String} {images attachments : List PromptAttachment}
    (hfront : session.history = front ++ [.user text images]) :
    Accounts log (session.replacePrompt prompt attachments) := by
  obtain ⟨keys, hkeys, -, hall⟩ := h
  obtain rfl := Option.some.inj (hw.symm.trans hkeys)
  obtain ⟨items, hitems, hitems'⟩ :=
    RuntimeSession.historyItems_replacePrompt hfront prompt attachments
  refine ⟨[], RuntimeSession.waiting?_replacePrompt hfront hw, fun hne => absurd rfl hne,
    fun site call hmem => ?_⟩
  have hold := hall site call hmem
  rw [hitems] at hold
  rw [hitems']
  have hbelow := hold.below
  simp only [List.length_append, List.length_cons, List.length_nil] at hbelow
  refine ⟨by simpa using hold.below, fun hseq i hi => ?_, fun hseq hlt => ?_⟩
  · simp only [List.length_append, List.length_cons, List.length_nil] at hi
    omega
  · obtain ⟨result, hitem, hresult⟩ := hold.answered hseq (by simpa using hlt)
    refine ⟨result, ?_, hresult⟩
    by_cases hin : site.slot.position < items.length
    · rw [List.getElem?_append_left hin] at hitem ⊢
      exact hitem
    · -- the prompt itself is no result
      have hat : site.slot.position = items.length := by omega
      rw [hat, List.getElem?_append_right (Nat.le_refl _), Nat.sub_self] at hitem
      cases hitem

end Accounts

theorem Unambiguous.of_recover (h : Unambiguous w.recover.log) : Unambiguous w.log := by
  unfold World.recover at h
  split at h
  · exact h
  · exact h.of_append

/-- Providers have seen every call answered, nothing was executed twice for a call, and what was
executed is accounted for in the session and in its checkpoint. -/
structure Sound (w : World) : Prop where
  kept : Accounts w.log w.kept.session
  saved : ∀ kept, w.saved = some kept → Accounts w.log kept.session
  asked : ∀ effect ∈ w.log, ∀ request, effect.request? = some request →
    Answered role request.history
  slots : ((executions w.log).map (·.1.slot)).Nodup

namespace Sound

theorem update (h : Sound w) {f : RuntimeSession → RuntimeSession}
    (hf : Accounts w.log (f w.kept.session)) : Sound (w.update f) :=
  ⟨hf, h.saved, h.asked, h.slots⟩

theorem emit (h : Sound w) {effect : Effect} (hexecution : effect.execution? = none)
    (hrequest : ∀ request, effect.request? = some request → Answered role request.history) :
    Sound (w.emit effect) := by
  have hnone : executions [effect] = [] := by
    rw [executions, List.filterMap_cons, hexecution]
    rfl
  refine ⟨h.kept.append hnone, fun kept hkept => (h.saved kept hkept).append hnone, ?_, ?_⟩
  · intro other hother request hrequest'
    rcases List.mem_append.1 hother with hother | hother
    · exact h.asked other hother request hrequest'
    · cases List.mem_singleton.1 hother
      exact hrequest request hrequest'
  · change ((executions (w.log ++ [effect])).map (·.1.slot)).Nodup
    rw [executions_append, hnone, List.append_nil]
    exact h.slots

/-- Something is executed for a call that waits. -/
theorem run (h : Sound w) (hlog : Unambiguous w.log) {site : Site} {toolCall : ToolCall}
    (hrun : w.Executable R site toolCall) {effect : Effect}
    (heffect : effect.execution? = some (site, toolCall)) (hrequest : effect.request? = none) :
    Sound (w.emit effect) := by
  have hone : executions (w.emit effect).log = executions w.log ++ [(site, toolCall)] := by
    change executions (w.log ++ [effect]) = _
    rw [executions_append, executions, executions, List.filterMap_cons, heffect]
    rfl
  obtain ⟨keys, i, hwaiting, hat, hlt, hkey⟩ := hrun.waits
  have haccounts : ∀ session : RuntimeSession, session.waiting? = w.kept.session.waiting? →
      session.historyItems = w.kept.session.historyItems → Accounts w.log session →
      Accounts (w.emit effect).log session := by
    rintro session hsame hitems ⟨keys', hkeys', hpending, hall⟩
    have hsamekeys := (hwaiting hlog).symm.trans (hsame.symm.trans hkeys')
    obtain rfl := Option.some.inj hsamekeys
    refine ⟨keys, hkeys', hpending, fun site' call hmem => ?_⟩
    rw [hone] at hmem
    rcases List.mem_append.1 hmem with hmem | hmem
    · exact (hall site' call hmem).append [effect]
    · obtain ⟨rfl, rfl⟩ := Prod.mk.inj (List.mem_singleton.1 hmem)
      rw [RuntimeSession.historyPosition] at hat
      rw [hitems]
      refine ⟨by omega, fun hseq j hj => ?_, fun _ hbelow => absurd hbelow (by omega)⟩
      obtain rfl : j = i := by omega
      exact hkey hseq
  refine ⟨haccounts _ rfl rfl h.kept, fun kept hkept => ?_, ?_, ?_⟩
  · obtain ⟨kept', hkept', hhistory, hcompactions⟩ := hrun.synced
    cases hkept.symm.trans hkept'
    refine haccounts _ ?_ ?_ (h.saved kept hkept)
    · rw [RuntimeSession.waiting?, hhistory]
      rfl
    · rw [RuntimeSession.historyItems, hhistory, hcompactions]
      rfl
  · intro other hother request hrequest'
    rcases List.mem_append.1 hother with hother | hother
    · exact h.asked other hother request hrequest'
    · cases List.mem_singleton.1 hother
      rw [hrequest] at hrequest'
      cases hrequest'
  · rw [hone, List.map_append]
    refine h.slots.append (List.nodup_singleton _) fun slot hslot hsame => ?_
    obtain ⟨other, hother, rfl⟩ := List.mem_map.1 hslot
    exact hrun.fresh other hother (.inl hlog) (List.mem_singleton.1 hsame)

theorem recover (h : Sound w) (hlog : Unambiguous w.recover.log) : Sound w.recover := by
  unfold World.recover at hlog ⊢
  split
  · exact h
  · next hpending =>
    rw [if_neg hpending] at hlog
    obtain ⟨turnId, hturn⟩ := Option.ne_none_iff_exists'.1 fun hnone =>
      hpending (Option.isNone_iff_eq_none.2 hnone)
    have hids : w.kept.session.Unambiguous :=
      hlog w.kept.session (List.mem_append_right _ (List.mem_singleton.2 rfl))
    have hemit : Sound (w.emit (.recovered w.kept.session)) := by
      refine h.emit rfl fun request hrequest => ?_
      cases hrequest
    exact hemit.update (hemit.kept.recover hids hturn)

theorem save (h : Sound w) : Sound w.save := by
  refine ⟨h.kept, fun kept hkept => ?_, h.asked, h.slots⟩
  cases hkept
  exact h.kept

/-- Unless a recovery took an open call for a settled one, a move leaves things sound. -/
theorem move (h : Unambiguous w.log → Sound w) (hmove : Move R turn w w') (hlog : Unambiguous w'.log) :
    Sound w' := by
  cases hmove with
  | emit hquiet =>
    have h := h hlog.of_append
    cases heffect : ‹Effect› <;> simp [heffect, Effect.isQuiet] at hquiet
    all_goals exact h.emit rfl fun _ hrequest => by cases hrequest
  | save => exact (h hlog).save
  | touch => exact (h hlog).update ((h hlog).kept.same rfl rfl (.inr rfl))
  | recover => exact (h hlog.of_recover).recover hlog
  | accept hpending _ hw =>
    have h := h hlog
    refine ⟨?_, h.saved, h.asked, h.slots⟩
    exact h.kept.more (hw hlog) (RuntimeSession.historyItems_accept _ _ _ _)
      (RuntimeSession.waiting?_push (hw hlog) (Exchange.receive_plain (role_user _ _)))
      (fun hne => absurd rfl hne)
  | prompt _ hfront hw => exact (h hlog).update ((h hlog).kept.replacePrompt (hw hlog) hfront)
  | note _ hw =>
    exact (h hlog).update ((h hlog).kept.more (hw hlog) (RuntimeSession.historyItems_push _ _ rfl)
      (RuntimeSession.waiting?_push (hw hlog) (Exchange.receive_plain (role_user _ _)))
      (fun hne => absurd rfl hne))
  | infer _ _ _ hw =>
    have hlog' := hlog.of_append
    refine (h hlog').emit rfl fun request hrequest => ?_
    cases hrequest
    exact answered_modelHistory (hw hlog')
  | message hturn hw =>
    refine (h hlog).update ((h hlog).kept.more (hw hlog) (RuntimeSession.historyItems_push _ _ rfl)
      (RuntimeSession.waiting?_push (hw hlog) (Exchange.receive_ask (role_assistant _))) fun _ => ?_)
    change w.kept.session.pendingTurn ≠ none
    rw [hturn.1]
    exact Option.some_ne_none _
  | execute hrun | request hrun => exact (h hlog.of_append).run hlog.of_append hrun rfl rfl
  | answer => exact (h hlog.of_append).emit rfl fun _ hrequest => by cases hrequest
  | summarize hhistory =>
    refine (h hlog.of_append).emit rfl fun request hrequest => ?_
    cases hrequest
    rw [hhistory]
    exact .plain (role_user _ _) .nil
  | result _ hw _ hresult =>
    have h := h hlog
    obtain ⟨keys', hkeys', hpending, hall⟩ := h.kept
    obtain rfl := Option.some.inj ((hw hlog).symm.trans hkeys')
    refine h.update ⟨_, RuntimeSession.waiting?_push hkeys' (Exchange.receive_reply (role_toolResult _)),
      fun _ => hpending (List.cons_ne_nil _ _), fun site call hmem => ?_⟩
    rw [RuntimeSession.historyItems_push _ _ rfl]
    exact (hall site call hmem).result (hresult hlog site call hmem)
  | @retain _ turnId callId attachment more =>
    have hemit : Sound (w.emit (.retained w.kept.session callId)) :=
      (h hlog.of_append).emit rfl fun _ hrequest => by cases hrequest
    exact hemit.update (f := (·.retainImages turnId callId attachment more))
      (hemit.kept.same rfl rfl (.inr rfl))
  | compacted hcut hw =>
    have h := h hlog
    exact h.update (h.kept.same (RuntimeSession.historyItems_compacted _ _ _ _ _ _)
      ((RuntimeSession.waiting?_compacted hcut (hw hlog)).trans (hw hlog).symm) (.inl (hw hlog)))
  | event hw =>
    exact (h hlog).update ((h hlog).kept.more (hw hlog) (RuntimeSession.historyItems_push _ _ rfl)
      (RuntimeSession.waiting?_push (hw hlog) (Exchange.receive_plain (role_compactionEvent _)))
      (fun hne => absurd rfl hne))
  | complete _ hw => exact (h hlog).update ((h hlog).kept.same rfl rfl (.inl (hw hlog)))

theorem moves (h : Unambiguous w.log → Sound w) (hmoves : Moves R turn w w') (hlog : Unambiguous w'.log) :
    Sound w' := by
  induction hmoves with
  | refl => exact h hlog
  | tail _ hmove ih => exact move ih hmove hlog

end Sound

end Nakode.Agent
