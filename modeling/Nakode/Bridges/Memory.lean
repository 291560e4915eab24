import Nakode.Bridges.Sends

/-!
# What a server remembers of events

A server remembers of each record the last events of its thread, and how it decided them. Only a
continuation, and the answer of the ledger before it, make it remember a further one
(`BridgeCore.Quiet`), so what is remembered was recorded (`BridgeCore.Remembers`). A continuation
is a duplicate of an event that is remembered, or is decided and remembered
(`BridgeCore.continueSessionFromBridge_cases`).
-/

namespace Nakode.Bridges

open Domain (DomainCommandError)

namespace BridgeCore

variable {ι ε : Type}

/-- A change of the bridges that remembers no further event. -/
structure Quiet (core after : BridgeCore) : Prop where
  dispositions : after.inboundEventDispositions = core.inboundEventDispositions
  recent : ∀ bridge ∈ after.sessionBridges, bridge.recentInboundEventIds = [] ∨
    ∃ old ∈ core.sessionBridges, old.sessionId = bridge.sessionId ∧
      old.recentInboundEventIds = bridge.recentInboundEventIds

namespace Quiet

variable {core after last : BridgeCore} {bridge changed : SessionBridgeRecord}

theorem refl (core : BridgeCore) : Quiet core core :=
  ⟨rfl, fun bridge hbridge => .inr ⟨bridge, hbridge, rfl, rfl⟩⟩

theorem trans (h : Quiet core after) (h' : Quiet after last) : Quiet core last := by
  refine ⟨h'.dispositions.trans h.dispositions, fun bridge hbridge => ?_⟩
  rcases h'.recent bridge hbridge with hnil | ⟨old, hold, hid, hevents⟩
  · exact .inl hnil
  · rcases h.recent old hold with hnil | ⟨older, holder, hid', hevents'⟩
    · exact .inl (hevents.symm.trans hnil)
    · exact .inr ⟨older, holder, hid'.trans hid, hevents'.trans hevents⟩

/-- One record is changed by an operation. -/
theorem setBridge {nowMs : Int} (action : RecordAction) (hbridge : bridge ∈ core.sessionBridges)
    (hact : bridge.act nowMs action = some changed) : Quiet core (core.setBridge changed) := by
  refine ⟨rfl, fun b hb => ?_⟩
  obtain ⟨hid, -, -, -, -, hevents⟩ := SessionBridgeRecord.act_keeps hact
  rcases mem_putFirst hb with rfl | hb
  · exact .inr ⟨bridge, hbridge, hid.symm, hevents.symm⟩
  · exact .inr ⟨b, hb, rfl, rfl⟩

theorem onBridge {sessionId : String}
    {change : SessionBridgeRecord → Except DomainCommandError (Option SessionBridgeRecord)}
    (hchange : ∀ m changed, change m = .ok (some changed) →
      ∃ nowMs action, m.act nowMs action = some changed) :
    Quiet core (core.onBridge (ε := ε) sessionId change).2 := by
  unfold BridgeCore.onBridge
  split
  · exact refl core
  · next bridge hbridge =>
    split
    · exact refl core
    · exact refl core
    · next changed hchanged =>
      obtain ⟨nowMs, action, hact⟩ := hchange _ _ hchanged
      exact setBridge action (mem_of_sessionBridge hbridge).1 hact

theorem updateBridge {sessionId : String}
    {change : SessionBridgeRecord → Option SessionBridgeRecord}
    (hchange : ∀ m changed, change m = some changed →
      ∃ nowMs action, m.act nowMs action = some changed) :
    Quiet core (core.updateBridge sessionId change).2 := by
  unfold BridgeCore.updateBridge
  split
  · next changed hfound =>
    obtain ⟨m, hm, hchanged⟩ := Option.bind_eq_some_iff.1 hfound
    obtain ⟨nowMs, action, hact⟩ := hchange _ _ hchanged
    exact setBridge action (mem_of_find? hm).1 hact
  · exact refl core

/-- Records of bridges that are opened remember nothing. -/
theorem opened {bridges : List SessionBridgeRecord}
    (h : ∀ bridge ∈ bridges, Opened bridge.sessionId bridge) :
    Quiet core { core with sessionBridges := core.sessionBridges ++ bridges } := by
  refine ⟨rfl, fun bridge hbridge => ?_⟩
  rcases List.mem_append.1 hbridge with hbridge | hbridge
  · exact .inr ⟨bridge, hbridge, rfl, rfl⟩
  · obtain ⟨workspace, displayTitle, intent, nowMs, hopened⟩ := h bridge hbridge
    refine .inl ?_
    rw [hopened]
    rfl

theorem createSessionBridge (env : Environment ι ε) (sessionId workspace : String)
    (intent : SessionBridgeIntent) (title : Option String) :
    Quiet core (core.createSessionBridge env sessionId workspace intent title).2 := by
  unfold BridgeCore.createSessionBridge
  split
  · exact refl core
  · next displayTitle htitle =>
    refine opened fun bridge hbridge => ?_
    rw [List.mem_singleton.1 hbridge]
    exact ⟨workspace, displayTitle, intent, env.nowMs, rfl⟩

theorem openSession (env : Environment ι ε) (sessionId : String) (profileId : Option String)
    (intent : Option SessionBridgeIntent) :
    Quiet core (core.openSession env sessionId profileId intent).2 := by
  unfold BridgeCore.openSession
  split
  · exact refl core
  · next bridge hbridge =>
    split
    · exact refl core
    · refine opened fun b hb => ?_
      rw [Option.mem_toList] at hb
      subst hb
      exact openSessionBridgeRecord_opened hbridge

theorem setLifecycle (hbridge : bridge ∈ core.sessionBridges) (nowMs : Int)
    (lifecycle : BridgeLifecycle) :
    Quiet core ((bridge.setLifecycle nowMs lifecycle).elim core core.setBridge) := by
  cases hchanged : bridge.setLifecycle nowMs lifecycle with
  | none => exact refl core
  | some changed => exact setBridge (.lifecycle lifecycle) hbridge hchanged

theorem setSessionBridgeLifecycle (env : Environment ι ε) (sessionId : String)
    (lifecycle : BridgeLifecycle) :
    Quiet core (core.setSessionBridgeLifecycle env sessionId lifecycle).2 := by
  unfold BridgeCore.setSessionBridgeLifecycle
  split
  · exact refl core
  · next bridge hbridge =>
    have hset := setLifecycle (mem_of_sessionBridge hbridge).1 env.nowMs lifecycle
    dsimp only
    split
    · split
      · exact hset
      · exact hset
    · exact hset

theorem setWorkspaceBridgeLifecycle (env : Environment ι ε) (workspaceId : String)
    (lifecycle : BridgeLifecycle) :
    Quiet core (core.setWorkspaceBridgeLifecycle env workspaceId lifecycle).2 := by
  unfold BridgeCore.setWorkspaceBridgeLifecycle
  split
  · exact refl core
  · have hset : Quiet core { core with
        sessionBridges := core.sessionBridges.map fun bridge =>
          if bridge.workspace = env.workspace then
            (bridge.setLifecycle env.nowMs lifecycle).getD bridge
          else bridge } := by
      refine ⟨rfl, fun bridge hbridge => .inr ?_⟩
      obtain ⟨m, hm, rfl⟩ := List.mem_map.1 hbridge
      refine ⟨m, hm, ?_⟩
      split
      · cases hchanged : m.setLifecycle env.nowMs lifecycle with
        | none => exact ⟨rfl, rfl⟩
        | some changed =>
          have hact : m.act env.nowMs (.lifecycle lifecycle) = some changed := hchanged
          obtain ⟨hid, -, -, -, -, hevents⟩ := SessionBridgeRecord.act_keeps hact
          exact ⟨hid.symm, hevents.symm⟩
      · exact ⟨rfl, rfl⟩
    dsimp only
    split
    · exact hset
    · exact hset

/-- No command but a continuation remembers an event. -/
theorem execute (core : BridgeCore) (env : Environment ι ε) (command : BridgeCommand) :
    Quiet core (core.execute env command).2 := by
  unfold BridgeCore.execute
  split
  · exact refl core
  · cases command with
    | createSession sessionId workspace intent title =>
      rw [apply]
      exact createSessionBridge env sessionId workspace intent title
    | openSession sessionId profileId intent =>
      rw [apply]
      exact openSession env sessionId profileId intent
    | setSessionBridgeLifecycle sessionId lifecycle =>
      rw [apply]
      exact setSessionBridgeLifecycle env sessionId lifecycle
    | setWorkspaceBridgeLifecycle workspaceId lifecycle =>
      rw [apply]
      exact setWorkspaceBridgeLifecycle env workspaceId lifecycle
    | bindSessionBridgeThread sessionId transport externalParentId externalThreadId =>
      rw [apply]
      exact onBridge fun m changed h =>
        ⟨_, .bind transport externalParentId externalThreadId, changedBy_eq_some_iff.2 h⟩
    | clearSessionBridgeThread sessionId transport externalThreadId =>
      rw [apply]
      exact onBridge fun m changed h =>
        ⟨_, .clear transport externalThreadId, changedBy_eq_some_iff.2 h⟩
    | prepareBridgeDelivery sessionId projectionKind turnId expected bodySha256 partCount =>
      rw [apply]
      exact onBridge fun m changed h =>
        ⟨_, .prepare projectionKind turnId expected bodySha256 partCount,
          changedBy_eq_some_iff.2 h⟩
    | completeBridgeDeliveryPart sessionId projectionKind turnId partIndex externalMessageId =>
      rw [apply]
      exact onBridge fun m changed h =>
        ⟨_, .complete projectionKind turnId partIndex externalMessageId,
          changedBy_eq_some_iff.2 h⟩
    | finalizeBridgeDelivery sessionId projectionKind turnId clearSource =>
      rw [apply]
      exact onBridge fun m changed h =>
        ⟨_, .finalize projectionKind turnId clearSource, changedBy_eq_some_iff.2 h⟩
    | setBridgeLiveMessage sessionId turnId externalMessageId clearSource =>
      rw [apply]
      exact onBridge fun m changed h =>
        ⟨_, .live turnId externalMessageId clearSource, changedBy_eq_some_iff.2 h⟩

theorem eventChanges (process : Process ι) (before env : Environment ι ε) (sessionId : String)
    (event : ProviderEvent) :
    Quiet process.core (process.eventChanges before env sessionId event).2 := by
  have horigin : Quiet process.core (event.turnId?.elim ([], process.core)
      (process.core.recordBridgeTurnOrigin env sessionId)).2 := by
    cases event.turnId? with
    | none => exact refl _
    | some turnId =>
      show Quiet process.core (process.core.recordBridgeTurnOrigin env sessionId turnId).2
      unfold recordBridgeTurnOrigin
      split
      · exact refl _
      · exact updateBridge fun m changed h => ⟨_, .origin turnId _, h⟩
  unfold Process.eventChanges
  refine horigin.trans ?_
  cases process.acknowledgedBridge before sessionId event with
  | none => exact refl _
  | some acknowledged =>
    exact updateBridge fun m changed h => ⟨_, .acknowledge acknowledged.1, h⟩

end Quiet

/-! ## What is remembered -/

/-- What a server remembers of the events of a session was recorded. -/
structure Remembers (s : String) (decided : List Claim) (core : BridgeCore) : Prop where
  recent : ∀ bridge ∈ core.sessionBridges, bridge.sessionId = s →
    ∀ event ∈ bridge.recentInboundEventIds,
      ∃ claim ∈ decided, claim.sessionId = s ∧ claim.externalEventId = event
  disposition : ∀ event disposition,
    core.inboundEventDispositions (s, event) = some disposition →
      (⟨s, event, disposition⟩ : Claim) ∈ decided

namespace Remembers

variable {s : String} {decided decided' : List Claim} {core after : BridgeCore}

theorem quiet (h : Remembers s decided core) (hquiet : Quiet core after) :
    Remembers s decided after where
  recent bridge hbridge hs event hevent := by
    rcases hquiet.recent bridge hbridge with hnil | ⟨old, hold, hid, hevents⟩
    · rw [hnil] at hevent
      cases hevent
    · exact h.recent old hold (hid.trans hs) event (hevents ▸ hevent)
  disposition event disposition hfound := by
    rw [hquiet.dispositions] at hfound
    exact h.disposition event disposition hfound

theorem mono (h : Remembers s decided core) (hdecided : ∀ claim ∈ decided, claim ∈ decided') :
    Remembers s decided' core where
  recent bridge hbridge hs event hevent := by
    obtain ⟨claim, hclaim, hfound⟩ := h.recent bridge hbridge hs event hevent
    exact ⟨claim, hdecided claim hclaim, hfound⟩
  disposition event disposition hfound := hdecided _ (h.disposition event disposition hfound)

end Remembers

theorem recent_rememberInboundEvent {bridge : SessionBridgeRecord} {event e : String}
    (h : e ∈ (bridge.rememberInboundEvent event).1.recentInboundEventIds) :
    e = event ∨ e ∈ bridge.recentInboundEventIds := by
  unfold SessionBridgeRecord.rememberInboundEvent at h
  split at h
  · exact .inr h
  · split at h
    · rcases List.mem_append.1 h with h | h
      · exact .inr (List.mem_of_mem_tail h)
      · exact .inl (List.mem_singleton.1 h)
    · rcases List.mem_append.1 h with h | h
      · exact .inr h
      · exact .inl (List.mem_singleton.1 h)

theorem mem_rememberInboundEvent (bridge : SessionBridgeRecord) (event : String) :
    event ∈ (bridge.rememberInboundEvent event).1.recentInboundEventIds := by
  unfold SessionBridgeRecord.rememberInboundEvent
  split
  · next h => exact h
  · split <;> exact List.mem_append_right _ (List.mem_singleton_self event)

theorem sessionId_rememberInboundEvent (bridge : SessionBridgeRecord) (event : String) :
    (bridge.rememberInboundEvent event).1.sessionId = bridge.sessionId := by
  show (bridge.rememberInboundEvent event).1.content.sessionId = bridge.content.sessionId
  rw [content_rememberInboundEvent]

/-- A recorded event is remembered. -/
theorem Remembers.remember {s sessionId event : String} {decided : List Claim}
    {core : BridgeCore} {disposition : BridgeContinuationDisposition}
    (h : Remembers s decided core)
    (hclaim : sessionId = s → (⟨s, event, disposition⟩ : Claim) ∈ decided) :
    Remembers s decided (core.rememberBridgeInboundEvent sessionId event disposition) where
  recent bridge hbridge hs e he := by
    rw [sessionBridges_rememberBridgeInboundEvent] at hbridge
    cases hfind : core.sessionBridges.find? (·.sessionId == sessionId) with
    | none =>
      rw [hfind] at hbridge
      exact h.recent bridge hbridge hs e he
    | some found =>
      rw [hfind] at hbridge
      obtain ⟨hfound, hid⟩ := mem_of_find? hfind
      rcases mem_putFirst hbridge with rfl | hbridge
      · rw [sessionId_rememberInboundEvent] at hs
        rcases recent_rememberInboundEvent he with rfl | he
        · exact ⟨_, hclaim (hid.symm.trans hs), rfl, rfl⟩
        · exact h.recent found hfound hs e he
      · exact h.recent bridge hbridge hs e he
  disposition e d hd := by
    simp only [rememberBridgeInboundEvent] at hd
    by_cases hkey : (s, e) = (sessionId, event)
    · obtain ⟨rfl, rfl⟩ := Prod.mk.inj hkey
      rw [Function.update_self] at hd
      cases hd
      exact hclaim rfl
    · rw [Function.update_of_ne hkey] at hd
      refine h.disposition e d ?_
      cases hevicted : ((core.sessionBridges.find? (·.sessionId == sessionId)).map
          (·.rememberInboundEvent event)).bind (·.2) with
      | none =>
        rw [hevicted] at hd
        cases hfind : core.sessionBridges.find? (·.sessionId == sessionId) with
        | none => simpa [hfind] using hd
        | some found => simpa [hfind, setBridge] using hd
      | some evicted =>
        rw [hevicted] at hd
        by_cases hgone : (s, e) = (sessionId, evicted)
        · rw [Option.elim_some, hgone, Function.update_self] at hd
          cases hd
        · rw [Option.elim_some, Function.update_of_ne hgone] at hd
          cases hfind : core.sessionBridges.find? (·.sessionId == sessionId) with
          | none => simpa [hfind] using hd
          | some found => simpa [hfind, setBridge] using hd

/-! ## What becomes of a continuation -/

/-- The event is remembered, and answered as a duplicate. -/
def Repeats (core : BridgeCore) (c : Continuation ι) (result : CommandAccepted)
    (effects : List (Effect ε)) (after : BridgeCore) : Prop :=
  ∃ bridge, core.sessionBridges.find? (·.sessionId == c.sessionId) = some bridge ∧
    c.externalEventId ∈ bridge.recentInboundEventIds ∧
    result = core.duplicateContinuation bridge c ∧ effects = [] ∧ after = core

/-- The event is not remembered, and decided. -/
def Decides (core : BridgeCore) (c : Continuation ι) (result : CommandAccepted)
    (effects : List (Effect ε)) (after : BridgeCore) : Prop :=
  ∃ bridge disposition changed,
    core.sessionBridges.find? (·.sessionId == c.sessionId) = some bridge ∧
    c.externalEventId ∉ bridge.recentInboundEventIds ∧
    (disposition = .accepted ∨ disposition = .busy) ∧
    result.bridgeContinuation = some disposition ∧ persisted effects = [changed] ∧
    Quiet (core.rememberBridgeInboundEvent c.sessionId c.externalEventId disposition) after

theorem decides_decideInboundEvent {core after : BridgeCore} {env : Environment ι ε}
    {c : Continuation ι} {bridge : SessionBridgeRecord}
    {disposition : BridgeContinuationDisposition}
    {change : SessionBridgeRecord → SessionBridgeRecord} {replies : List ε}
    {result : CommandAccepted} {effects : List (Effect ε)} (action : RecordAction)
    (hbridge : core.sessionBridge c.sessionId = .ok bridge)
    (hfresh : c.externalEventId ∉ bridge.recentInboundEventIds)
    (hdisposition : disposition = .accepted ∨ disposition = .busy)
    (hact : (bridge.rememberInboundEvent c.externalEventId).1.act env.nowMs action =
      some ((change (bridge.rememberInboundEvent c.externalEventId).1).bumpBridgeRevision
        env.nowMs))
    (h : core.decideInboundEvent env c.sessionId c.externalEventId disposition change replies =
      (.ok (result, effects), after)) : core.Decides c result effects after := by
  rw [decideInboundEvent_eq env _ disposition change replies hbridge] at h
  cases h
  have hfind := find?_of_sessionBridge hbridge
  refine ⟨bridge, disposition,
    (change (bridge.rememberInboundEvent c.externalEventId).1).bumpBridgeRevision env.nowMs,
    hfind, hfresh, hdisposition, rfl, ?_, ?_⟩
  · rw [← List.singleton_append, persisted_append, persisted_engine, List.append_nil]
    rfl
  · exact Quiet.setBridge action
      (mem_of_find? (find?_rememberBridgeInboundEvent _ _ hfind)).1 hact

/-- A continuation is a duplicate, or is decided. -/
theorem continueSessionFromBridge_cases {core after : BridgeCore} {promptId : String → String}
    {env : Environment ι ε} {c : Continuation ι} {result : CommandAccepted}
    {effects : List (Effect ε)}
    (h : core.continueSessionFromBridge promptId env c = (.ok (result, effects), after)) :
    core.Repeats c result effects after ∨ core.Decides c result effects after := by
  unfold continueSessionFromBridge at h
  split at h
  · cases h
  · split at h
    · cases h
    · next bridge hbridge =>
      split at h
      · cases h
      · split at h
        · next hrecent =>
          cases h
          exact .inl ⟨bridge, find?_of_sessionBridge hbridge, hrecent, rfl, rfl, rfl⟩
        · next hfresh =>
          split at h
          · exact .inr (decides_decideInboundEvent .consume hbridge hfresh (.inr rfl)
              rfl h)
          · next hidle =>
            have hnone : bridge.pendingInbound = none := by
              simp only [not_or, Option.not_isSome_iff_eq_none] at hidle
              exact hidle.2
            split at h
            · cases h
            · next pending _ _ =>
              refine .inr (decides_decideInboundEvent
                (.accept c.sourceMessageId pending) hbridge hfresh (.inl rfl) ?_ h)
              exact SessionBridgeRecord.act_accept_eq_some_iff.2
                ⟨(pendingInbound_rememberInboundEvent _).trans hnone, rfl⟩
            · exact .inr (decides_decideInboundEvent .consume hbridge hfresh
                (.inr rfl) rfl h)
            · cases h

end BridgeCore

end Nakode.Bridges
