import Nakode.Bridges.Actions

/-!
# What a command writes

Whatever a server asks to be saved is a change of a record it has in memory, or the record of a
bridge that is opened, and what it has in memory afterwards is what it had or what it asked to be
saved (`Sends`). A command that is refused has left the bridges as they were, but for the two
lifecycle commands, which change records before they replay the prompts that wait
(`execute_refused`).
-/

namespace Nakode.Bridges

open Domain (DomainCommandError)

/-- A record to be saved: a change of a known record, or a new one. -/
def Written (known : SessionBridgeRecord → Prop) (bridge : SessionBridgeRecord) : Prop :=
  (∃ (m : SessionBridgeRecord) (nowMs : Int) (action : RecordAction),
      known m.content ∧ m.act nowMs action = some bridge) ∨
    Opened bridge.sessionId bridge

theorem Written.mono {known known' : SessionBridgeRecord → Prop} {bridge : SessionBridgeRecord}
    (h : Written known bridge) (hknown : ∀ content, known content → known' content) :
    Written known' bridge := by
  refine h.imp_left ?_
  rintro ⟨m, nowMs, action, hm, hact⟩
  exact ⟨m, nowMs, action, hknown _ hm, hact⟩

/-- Records to be saved one after another, each of them known from then on. -/
inductive Writes : (SessionBridgeRecord → Prop) → List SessionBridgeRecord → Prop
  | nil {known : SessionBridgeRecord → Prop} : Writes known []
  | cons {known : SessionBridgeRecord → Prop} {bridge : SessionBridgeRecord}
      {bridges : List SessionBridgeRecord} : Written known bridge →
      Writes (fun content => known content ∨ content = bridge.content) bridges →
      Writes known (bridge :: bridges)

namespace Writes

variable {known known' : SessionBridgeRecord → Prop} {bridges bridges' : List SessionBridgeRecord}

theorem mono (h : Writes known bridges) (hknown : ∀ content, known content → known' content) :
    Writes known' bridges := by
  induction h generalizing known' with
  | nil => exact .nil
  | cons hwritten _ ih =>
    exact .cons (hwritten.mono hknown) (ih fun content => Or.imp_left (hknown content))

/-- Changes of records that are known to begin with. -/
theorem of_forall (h : ∀ bridge ∈ bridges, Written known bridge) : Writes known bridges := by
  induction bridges generalizing known with
  | nil => exact .nil
  | cons bridge bridges ih =>
    obtain ⟨hbridge, hbridges⟩ := List.forall_mem_cons.1 h
    refine .cons hbridge (mono (ih hbridges) fun content => .inl)

theorem append (h : Writes known bridges)
    (h' : Writes (fun content => known content ∨ ∃ b ∈ bridges, content = b.content) bridges') :
    Writes known (bridges ++ bridges') := by
  induction h with
  | nil => exact h'.mono (by simp)
  | cons hwritten _ ih =>
    refine .cons hwritten (ih (h'.mono fun content hcontent => ?_))
    rcases hcontent with hcontent | ⟨b, hb, rfl⟩
    · exact .inl (.inl hcontent)
    · rcases List.mem_cons.1 hb with rfl | hb
      · exact .inl (.inr rfl)
      · exact .inr ⟨b, hb, rfl⟩

end Writes

theorem mem_putFirst {α : Type} {p : α → Bool} {new x : α} {xs : List α}
    (h : x ∈ putFirst p new xs) : x = new ∨ x ∈ xs := by
  induction xs with
  | nil => cases h
  | cons y ys ih =>
    rw [putFirst] at h
    split at h
    · rcases List.mem_cons.1 h with rfl | h
      · exact .inl rfl
      · exact .inr (List.mem_cons_of_mem _ h)
    · rcases List.mem_cons.1 h with rfl | h
      · exact .inr List.mem_cons_self
      · exact (ih h).imp_right (List.mem_cons_of_mem _)

namespace BridgeCore

/-- The contents of the records in memory. -/
def contents (core : BridgeCore) : List SessionBridgeRecord :=
  core.sessionBridges.map SessionBridgeRecord.content

/-- What a server asks to be saved, and what it then has in memory. -/
structure Sends (core : BridgeCore) (bridges : List SessionBridgeRecord) (after : BridgeCore) :
    Prop where
  writes : Writes (· ∈ core.contents) bridges
  memory : ∀ content ∈ after.contents,
    content ∈ core.contents ∨ ∃ b ∈ bridges, content = b.content

variable {ι ε : Type} {core after : BridgeCore} {bridge changed : SessionBridgeRecord}
  {bridges : List SessionBridgeRecord} {sessionId : String} {nowMs : Int}

namespace Sends

theorem refl (core : BridgeCore) : core.Sends [] core where
  writes := .nil
  memory _ h := .inl h

theorem trans {last : BridgeCore} {bridges' : List SessionBridgeRecord}
    (h : core.Sends bridges after) (h' : after.Sends bridges' last) :
    core.Sends (bridges ++ bridges') last where
  writes := h.writes.append (h'.writes.mono h.memory)
  memory content hcontent := by
    rcases h'.memory content hcontent with hcontent | ⟨b, hb, rfl⟩
    · rcases h.memory content hcontent with hcontent | ⟨b, hb, rfl⟩
      · exact .inl hcontent
      · exact .inr ⟨b, List.mem_append_left _ hb, rfl⟩
    · exact .inr ⟨b, List.mem_append_right _ hb, rfl⟩

end Sends

theorem find?_of_sessionBridge (h : core.sessionBridge sessionId = .ok bridge) :
    core.sessionBridges.find? (·.sessionId == sessionId) = some bridge := by
  unfold sessionBridge at h
  split at h
  · next found hfound => exact (Except.ok.inj h) ▸ hfound
  · cases h

theorem mem_of_find? (h : core.sessionBridges.find? (·.sessionId == sessionId) = some bridge) :
    bridge ∈ core.sessionBridges ∧ bridge.sessionId = sessionId :=
  ⟨List.mem_of_find?_eq_some h, by simpa using List.find?_some h⟩

theorem mem_of_sessionBridge (h : core.sessionBridge sessionId = .ok bridge) :
    bridge ∈ core.sessionBridges ∧ bridge.sessionId = sessionId :=
  mem_of_find? (find?_of_sessionBridge h)

theorem mem_contents (h : bridge ∈ core.sessionBridges) : bridge.content ∈ core.contents :=
  List.mem_map_of_mem h

theorem mem_contents_setBridge {content : SessionBridgeRecord}
    (h : content ∈ (core.setBridge changed).contents) :
    content ∈ core.contents ∨ content = changed.content := by
  obtain ⟨m, hm, rfl⟩ := List.mem_map.1 h
  rcases mem_putFirst hm with rfl | hm
  · exact .inr rfl
  · exact .inl (mem_contents hm)

/-- One record is changed and put in its place. -/
theorem sends_setBridge (action : RecordAction) (hbridge : bridge.content ∈ core.contents)
    (hact : bridge.act nowMs action = some changed) :
    core.Sends [changed] (core.setBridge changed) where
  writes := .of_forall (List.forall_mem_singleton.2 (.inl ⟨bridge, nowMs, action, hbridge, hact⟩))
  memory content hcontent := by simpa using mem_contents_setBridge hcontent

/-! ## Commands on one record -/

theorem onBridge_ok
    {change : SessionBridgeRecord → Except DomainCommandError (Option SessionBridgeRecord)}
    {result : CommandAccepted} {effects : List (Effect ε)}
    (h : core.onBridge sessionId change = (.ok (result, effects), after))
    (hchange : ∀ m changed, change m = .ok (some changed) →
      ∃ nowMs action, m.act nowMs action = some changed) :
    core.Sends (persisted effects) after := by
  unfold onBridge at h
  split at h
  · cases h
  · next bridge hbridge =>
    split at h
    · cases h
    · cases h
      exact .refl core
    · next changed hchanged =>
      cases h
      obtain ⟨nowMs, action, hact⟩ := hchange _ _ hchanged
      exact sends_setBridge action (mem_contents (mem_of_sessionBridge hbridge).1) hact

theorem onBridge_refused
    {change : SessionBridgeRecord → Except DomainCommandError (Option SessionBridgeRecord)}
    {error : DomainCommandError}
    (h : (core.onBridge (ε := ε) sessionId change) = (.error error, after)) : after = core := by
  unfold onBridge at h
  split at h
  · cases h
    rfl
  · split at h <;> cases h
    rfl

/-! ## Opening a bridge -/

section Persisted

variable (effects effects' : List (Effect ε))

theorem persisted_append :
    persisted (effects ++ effects') = persisted effects ++ persisted effects' :=
  List.filterMap_append

theorem persisted_engine (replies : List ε) : persisted (replies.map Effect.engine) = [] := by
  simp [persisted, List.filterMap_map]

theorem persisted_persistSessionBridge (bridges : List SessionBridgeRecord) :
    persisted (bridges.map (Effect.persistSessionBridge (ε := ε))) = bridges := by
  simp [persisted, List.filterMap_map]

end Persisted

/-- Records of bridges that are opened, behind those in memory. -/
theorem sends_opened {dispositions : String × String → Option BridgeContinuationDisposition}
    (h : ∀ b ∈ bridges, Opened b.sessionId b) :
    core.Sends bridges ⟨core.sessionBridges ++ bridges, dispositions⟩ where
  writes := .of_forall fun b hb => .inr (h b hb)
  memory content hcontent := by
    rw [contents, List.map_append, List.mem_append] at hcontent
    refine hcontent.imp_right fun hcontent => ?_
    obtain ⟨b, hb, rfl⟩ := List.mem_map.1 hcontent
    exact ⟨b, hb, rfl⟩

variable {env : Environment ι ε} {result : CommandAccepted} {effects : List (Effect ε)}

theorem createSessionBridge_ok {workspace : String} {intent : SessionBridgeIntent}
    {title : Option String}
    (h : core.createSessionBridge env sessionId workspace intent title =
      (.ok (result, effects), after)) : core.Sends (persisted effects) after := by
  unfold createSessionBridge at h
  split at h
  · cases h
  · next displayTitle htitle =>
    cases h
    exact sends_opened (List.forall_mem_singleton.2 ⟨_, _, _, _, rfl⟩)

theorem openSessionBridgeRecord_opened {profileId : Option String}
    {intent : Option SessionBridgeIntent}
    (h : core.openSessionBridgeRecord env sessionId profileId intent = .ok (some bridge)) :
    Opened bridge.sessionId bridge := by
  unfold openSessionBridgeRecord at h
  split at h
  · cases h
  · split at h
    · split at h <;> cases h
    · split at h
      · cases h
      · split at h
        · split at h <;> cases h
        · split at h <;> cases h
          exact ⟨_, _, _, _, rfl⟩

theorem openSession_ok {profileId : Option String} {intent : Option SessionBridgeIntent}
    (h : core.openSession env sessionId profileId intent = (.ok (result, effects), after)) :
    core.Sends (persisted effects) after := by
  unfold openSession at h
  split at h
  · cases h
  · next bridge hbridge =>
    split at h
    · cases h
    · cases h
      rw [persisted_append, persisted_engine, persisted_persistSessionBridge, List.nil_append]
      refine sends_opened fun b hb => ?_
      rw [Option.mem_toList] at hb
      subst hb
      exact openSessionBridgeRecord_opened hbridge

/-! ## The lifecycle -/

/-- The record of a session, with another lifecycle or as it is. -/
theorem sends_setLifecycle (nowMs : Int) (lifecycle : BridgeLifecycle)
    (hbridge : bridge ∈ core.sessionBridges) :
    core.Sends (bridge.setLifecycle nowMs lifecycle).toList
      ((bridge.setLifecycle nowMs lifecycle).elim core core.setBridge) := by
  cases hchanged : bridge.setLifecycle nowMs lifecycle with
  | none => exact .refl core
  | some changed =>
    exact sends_setBridge (.lifecycle lifecycle) (mem_contents hbridge) hchanged

theorem setSessionBridgeLifecycle_ok {lifecycle : BridgeLifecycle}
    (h : core.setSessionBridgeLifecycle env sessionId lifecycle =
      (.ok (result, effects), after)) : core.Sends (persisted effects) after := by
  unfold setSessionBridgeLifecycle at h
  split at h
  · cases h
  · next bridge hbridge =>
    have hsends := sends_setLifecycle env.nowMs lifecycle (mem_of_sessionBridge hbridge).1
    dsimp only at h
    split at h
    · split at h
      · cases h
      · cases h
        rw [persisted_append, persisted_engine, persisted_persistSessionBridge, List.append_nil]
        exact hsends
    · cases h
      rw [persisted_persistSessionBridge]
      exact hsends

theorem setWorkspaceBridgeLifecycle_ok {workspaceId : String} {lifecycle : BridgeLifecycle}
    (h : core.setWorkspaceBridgeLifecycle env workspaceId lifecycle =
      (.ok (result, effects), after)) : core.Sends (persisted effects) after := by
  unfold setWorkspaceBridgeLifecycle at h
  split at h
  · cases h
  · dsimp only at h
    split at h
    · cases h
    · cases h
      rw [persisted_append, persisted_engine, persisted_persistSessionBridge, List.append_nil]
      refine ⟨.of_forall fun b hb => ?_, fun content hcontent => ?_⟩
      · obtain ⟨m, hm, hchanged⟩ := List.mem_filterMap.1 hb
        split at hchanged
        · exact .inl ⟨m, env.nowMs, .lifecycle lifecycle, mem_contents hm, hchanged⟩
        · cases hchanged
      · obtain ⟨b, hb, rfl⟩ := List.mem_map.1 hcontent
        obtain ⟨m, hm, rfl⟩ := List.mem_map.1 hb
        split
        · next hworkspace =>
          cases hchanged : m.setLifecycle env.nowMs lifecycle with
          | none => exact .inl (mem_contents hm)
          | some changed =>
            refine .inr ⟨changed, List.mem_filterMap.2 ⟨m, hm, ?_⟩, rfl⟩
            rw [if_pos hworkspace, hchanged]
        · exact .inl (mem_contents hm)

/-- Whatever a command sends, when it is accepted. -/
theorem execute_ok {command : BridgeCommand}
    (h : core.execute env command = (.ok (result, effects), after)) :
    core.Sends (persisted effects) after := by
  unfold execute at h
  split at h
  · cases h
  · cases command with
    | createSession sessionId workspace intent title =>
      rw [apply] at h
      exact createSessionBridge_ok h
    | openSession sessionId profileId intent =>
      rw [apply] at h
      exact openSession_ok h
    | setSessionBridgeLifecycle sessionId lifecycle =>
      rw [apply] at h
      exact setSessionBridgeLifecycle_ok h
    | setWorkspaceBridgeLifecycle workspaceId lifecycle =>
      rw [apply] at h
      exact setWorkspaceBridgeLifecycle_ok h
    | bindSessionBridgeThread sessionId transport externalParentId externalThreadId =>
      rw [apply] at h
      exact onBridge_ok h fun m changed hchange =>
        ⟨_, .bind transport externalParentId externalThreadId, changedBy_eq_some_iff.2 hchange⟩
    | clearSessionBridgeThread sessionId transport externalThreadId =>
      rw [apply] at h
      exact onBridge_ok h fun m changed hchange =>
        ⟨_, .clear transport externalThreadId, changedBy_eq_some_iff.2 hchange⟩
    | prepareBridgeDelivery sessionId projectionKind turnId expected bodySha256 partCount =>
      rw [apply] at h
      exact onBridge_ok h fun m changed hchange =>
        ⟨_, .prepare projectionKind turnId expected bodySha256 partCount,
          changedBy_eq_some_iff.2 hchange⟩
    | completeBridgeDeliveryPart sessionId projectionKind turnId partIndex externalMessageId =>
      rw [apply] at h
      exact onBridge_ok h fun m changed hchange =>
        ⟨_, .complete projectionKind turnId partIndex externalMessageId,
          changedBy_eq_some_iff.2 hchange⟩
    | finalizeBridgeDelivery sessionId projectionKind turnId clearSource =>
      rw [apply] at h
      exact onBridge_ok h fun m changed hchange =>
        ⟨_, .finalize projectionKind turnId clearSource, changedBy_eq_some_iff.2 hchange⟩
    | setBridgeLiveMessage sessionId turnId externalMessageId clearSource =>
      rw [apply] at h
      exact onBridge_ok h fun m changed hchange =>
        ⟨_, .live turnId externalMessageId clearSource, changedBy_eq_some_iff.2 hchange⟩

/-! ## Prompts from a thread -/

theorem find?_putFirst {α : Type} {p : α → Bool} {new : α} {xs : List α} (hnew : p new = true)
    (hsome : (xs.find? p).isSome) : (putFirst p new xs).find? p = some new := by
  induction xs with
  | nil => simp at hsome
  | cons y ys ih =>
    rw [putFirst]
    split
    · rw [List.find?_cons_of_pos hnew]
    · next hy =>
      rw [List.find?_cons_of_neg hy] at hsome ⊢
      exact ih hsome

/-- What was written in the place of a session's record is read back. -/
theorem find?_setBridge (hsome : (core.sessionBridges.find? (·.sessionId == sessionId)).isSome)
    (hchanged : changed.sessionId = sessionId) :
    (core.setBridge changed).sessionBridges.find? (·.sessionId == sessionId) = some changed := by
  subst hchanged
  exact find?_putFirst (beq_self_eq_true _) hsome

theorem content_rememberInboundEvent (event : String) :
    (bridge.rememberInboundEvent event).1.content = bridge.content := by
  unfold SessionBridgeRecord.rememberInboundEvent
  split
  · rfl
  · split <;> rfl

theorem sessionBridges_rememberBridgeInboundEvent (core : BridgeCore) (sessionId event : String)
    (disposition : BridgeContinuationDisposition) :
    (core.rememberBridgeInboundEvent sessionId event disposition).sessionBridges =
      ((core.sessionBridges.find? (·.sessionId == sessionId)).elim core fun bridge =>
        core.setBridge (bridge.rememberInboundEvent event).1).sessionBridges := by
  unfold rememberBridgeInboundEvent
  cases core.sessionBridges.find? (·.sessionId == sessionId) <;> rfl

/-- Remembering an event is nothing that is saved. -/
theorem contents_rememberBridgeInboundEvent {event : String}
    {disposition : BridgeContinuationDisposition} {content : SessionBridgeRecord}
    (h : content ∈ (core.rememberBridgeInboundEvent sessionId event disposition).contents) :
    content ∈ core.contents := by
  rw [contents, sessionBridges_rememberBridgeInboundEvent] at h
  cases hfind : core.sessionBridges.find? (·.sessionId == sessionId) with
  | none => rwa [hfind] at h
  | some bridge =>
    rw [hfind] at h
    rcases mem_contents_setBridge h with h | rfl
    · exact h
    · rw [content_rememberInboundEvent]
      exact mem_contents (mem_of_find? hfind).1

theorem sends_rememberBridgeInboundEvent (core : BridgeCore) (sessionId event : String)
    (disposition : BridgeContinuationDisposition) :
    core.Sends [] (core.rememberBridgeInboundEvent sessionId event disposition) where
  writes := .nil
  memory _ h := .inl (contents_rememberBridgeInboundEvent h)

/-- The record of a session after an event of it is remembered. -/
theorem find?_rememberBridgeInboundEvent (event : String)
    (disposition : BridgeContinuationDisposition)
    (h : core.sessionBridges.find? (·.sessionId == sessionId) = some bridge) :
    (core.rememberBridgeInboundEvent sessionId event disposition).sessionBridges.find?
      (·.sessionId == sessionId) = some (bridge.rememberInboundEvent event).1 := by
  rw [sessionBridges_rememberBridgeInboundEvent, h]
  refine find?_setBridge (h ▸ rfl) ?_
  have hid : (bridge.rememberInboundEvent event).1.content.sessionId = bridge.content.sessionId := by
    rw [content_rememberInboundEvent]
  exact hid.trans (mem_of_find? h).2

variable {event : String} {disposition : BridgeContinuationDisposition}
  {change : SessionBridgeRecord → SessionBridgeRecord} {replies : List ε}

/-- An event is decided for the record of its session. -/
theorem decideInboundEvent_eq (env : Environment ι ε) (event : String)
    (disposition : BridgeContinuationDisposition)
    (change : SessionBridgeRecord → SessionBridgeRecord) (replies : List ε)
    (hbridge : core.sessionBridge sessionId = .ok bridge) :
    core.decideInboundEvent env sessionId event disposition change replies =
      (.ok (acceptedBridgeContinuation sessionId disposition
        (.persistSessionBridge ((change (bridge.rememberInboundEvent event).1).bumpBridgeRevision
          env.nowMs) :: replies.map .engine)),
        (core.rememberBridgeInboundEvent sessionId event disposition).setBridge
          ((change (bridge.rememberInboundEvent event).1).bumpBridgeRevision env.nowMs)) := by
  have hremembered := find?_rememberBridgeInboundEvent event disposition
    (find?_of_sessionBridge hbridge)
  simp only [decideInboundEvent, sessionBridge, hremembered]

theorem decideInboundEvent_sends (action : RecordAction)
    (hbridge : core.sessionBridge sessionId = .ok bridge)
    (hact : (bridge.rememberInboundEvent event).1.act env.nowMs action =
      some ((change (bridge.rememberInboundEvent event).1).bumpBridgeRevision env.nowMs))
    (h : core.decideInboundEvent env sessionId event disposition change replies =
      (.ok (result, effects), after)) : core.Sends (persisted effects) after := by
  rw [decideInboundEvent_eq env event disposition change replies hbridge] at h
  cases h
  have hpersisted : persisted (Effect.persistSessionBridge
      ((change (bridge.rememberInboundEvent event).1).bumpBridgeRevision env.nowMs) ::
        replies.map Effect.engine) =
      [] ++ [(change (bridge.rememberInboundEvent event).1).bumpBridgeRevision env.nowMs] := by
    rw [List.nil_append, ← List.singleton_append, persisted_append, persisted_engine,
      List.append_nil]
    rfl
  rw [hpersisted]
  have hsends := sends_rememberBridgeInboundEvent core sessionId event disposition
  refine hsends.trans (sends_setBridge action ?_ hact)
  exact mem_contents (mem_of_find?
    (find?_rememberBridgeInboundEvent event disposition (find?_of_sessionBridge hbridge))).1

theorem pendingInbound_rememberInboundEvent (event : String) :
    (bridge.rememberInboundEvent event).1.pendingInbound = bridge.pendingInbound := by
  show (bridge.rememberInboundEvent event).1.content.pendingInbound = bridge.content.pendingInbound
  rw [content_rememberInboundEvent]

/-- Whatever a continuation sends, when it is accepted. -/
theorem continueSessionFromBridge_ok {promptId : String → String} {c : Continuation ι}
    (h : core.continueSessionFromBridge promptId env c = (.ok (result, effects), after)) :
    core.Sends (persisted effects) after := by
  unfold continueSessionFromBridge at h
  split at h
  · cases h
  · split at h
    · cases h
    · next bridge hbridge =>
      split at h
      · cases h
      · split at h
        · cases h
          exact .refl core
        · split at h
          · exact decideInboundEvent_sends .consume hbridge rfl h
          · next hidle =>
            have hnone : bridge.pendingInbound = none := by
              simp only [not_or, Option.not_isSome_iff_eq_none] at hidle
              exact hidle.2
            split at h
            · cases h
            · next pending _ _ =>
              refine decideInboundEvent_sends (.accept c.sourceMessageId pending)
                hbridge ?_ h
              exact SessionBridgeRecord.act_accept_eq_some_iff.2
                ⟨(pendingInbound_rememberInboundEvent _).trans hnone, rfl⟩
            · exact decideInboundEvent_sends .consume hbridge rfl h
            · cases h

/-- A continuation that is refused leaves the bridges alone. -/
theorem continueSessionFromBridge_refused {promptId : String → String} {c : Continuation ι}
    {error : DomainCommandError}
    (h : core.continueSessionFromBridge promptId env c = (.error error, after)) : after = core := by
  unfold continueSessionFromBridge at h
  split at h
  · cases h
    rfl
  · split at h
    · cases h
      rfl
    · next bridge hbridge =>
      split at h
      · cases h
        rfl
      · split at h
        · cases h
        · split at h
          · rw [decideInboundEvent_eq env _ _ _ _ hbridge] at h
            cases h
          · split at h
            · cases h
              rfl
            · rw [decideInboundEvent_eq env _ _ _ _ hbridge] at h
              cases h
            · rw [decideInboundEvent_eq env _ _ _ _ hbridge] at h
              cases h
            · cases h
              rfl

/-! ## Events of a provider -/

theorem updateBridge_sends {change : SessionBridgeRecord → Option SessionBridgeRecord}
    (hchange : ∀ m changed, change m = some changed →
      ∃ nowMs action, m.act nowMs action = some changed) :
    core.Sends (core.updateBridge sessionId change).1 (core.updateBridge sessionId change).2 := by
  unfold updateBridge
  split
  · next changed hfound =>
    obtain ⟨m, hm, hchanged⟩ := Option.bind_eq_some_iff.1 hfound
    obtain ⟨nowMs, action, hact⟩ := hchange _ _ hchanged
    exact sends_setBridge action (mem_contents (mem_of_find? hm).1) hact
  · exact .refl core

theorem recordBridgeTurnOrigin_sends (core : BridgeCore) (env : Environment ι ε)
    (sessionId turnId : String) :
    core.Sends (core.recordBridgeTurnOrigin env sessionId turnId).1
      (core.recordBridgeTurnOrigin env sessionId turnId).2 := by
  unfold recordBridgeTurnOrigin
  split
  · exact .refl core
  · exact updateBridge_sends fun m changed h => ⟨_, .origin turnId _, h⟩

theorem acknowledgeBridgePrompt_sends (core : BridgeCore) (env : Environment ι ε)
    (sessionId promptId : String) :
    core.Sends (core.acknowledgeBridgePrompt env sessionId promptId).1
      (core.acknowledgeBridgePrompt env sessionId promptId).2 :=
  updateBridge_sends fun _ _ h => ⟨_, .acknowledge promptId, h⟩

end BridgeCore

/-- Whatever an event of a provider sends. -/
theorem Process.eventChanges_sends {ι ε : Type} (process : Process ι)
    (before after : Environment ι ε) (sessionId : String) (event : ProviderEvent) :
    process.core.Sends (process.eventChanges before after sessionId event).1
      (process.eventChanges before after sessionId event).2 := by
  have horigin : process.core.Sends
      (event.turnId?.elim ([], process.core)
        (process.core.recordBridgeTurnOrigin after sessionId)).1
      (event.turnId?.elim ([], process.core)
        (process.core.recordBridgeTurnOrigin after sessionId)).2 := by
    cases event.turnId? with
    | none => exact .refl _
    | some turnId => exact process.core.recordBridgeTurnOrigin_sends after sessionId turnId
  unfold Process.eventChanges
  refine horigin.trans ?_
  cases process.acknowledgedBridge before sessionId event with
  | none => exact .refl _
  | some acknowledged => exact BridgeCore.acknowledgeBridgePrompt_sends _ after sessionId _

end Nakode.Bridges
