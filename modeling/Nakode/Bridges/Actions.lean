import Nakode.Bridges.Installation
import Nakode.Lib.Versions

/-!
# What can happen to the record of a bridge

Every change of a record is one of the operations of `Record`, at some time (`act`). They neither
read the events that a record remembers nor the time of its last change, so that what a server
changes in memory is the same change of the row it has read (`act_of_content`), and each raises the
revision by one until it cannot be stored any more (`revision_act`).
-/

namespace Nakode.Bridges

open Domain (DomainCommandError)

/-- An operation that changes a record. -/
inductive RecordAction where
  | lifecycle (lifecycle : BridgeLifecycle)
  | bind (transport externalParentId externalThreadId : String)
  | clear (transport externalThreadId : String)
  | prepare (projectionKind : BridgeProjectionKind) (turnId : String)
      (expected : Option BridgeProjectionRecord) (bodySha256 : String) (partCount : UInt64)
  | complete (projectionKind : BridgeProjectionKind) (turnId : String) (partIndex : UInt64)
      (externalMessageId : String)
  | finalize (projectionKind : BridgeProjectionKind) (turnId : String)
      (clearActiveSourceMessageId : Option String)
  | live (turnId externalMessageId clearActiveSourceMessageId : Option String)
  | accept (sourceMessageId : String) (pending : BridgePendingInboundRecord)
  | consume
  | origin (turnId : String) (sourceTransport : Option String)
  | acknowledge (clientPromptId : String)
  deriving DecidableEq, Repr

/-- The record that an operation gives, unless it refuses or changes nothing. -/
def changedBy (result : Except DomainCommandError (Option SessionBridgeRecord)) :
    Option SessionBridgeRecord :=
  match result with
  | .ok changed => changed
  | .error _ => none

theorem changedBy_eq_some_iff {result : Except DomainCommandError (Option SessionBridgeRecord)}
    {bridge : SessionBridgeRecord} :
    changedBy result = some bridge ↔ result = .ok (some bridge) := by
  cases result with
  | error error => simp [changedBy]
  | ok changed => simp [changedBy]

namespace SessionBridgeRecord

variable (bridge : SessionBridgeRecord)

def act (nowMs : Int) : RecordAction → Option SessionBridgeRecord
  | .lifecycle lifecycle => bridge.setLifecycle nowMs lifecycle
  | .bind transport externalParentId externalThreadId =>
    changedBy (bridge.bindThread nowMs transport externalParentId externalThreadId)
  | .clear transport externalThreadId =>
    changedBy (bridge.clearThread nowMs transport externalThreadId)
  | .prepare projectionKind turnId expected bodySha256 partCount =>
    changedBy (bridge.prepareDelivery nowMs projectionKind turnId expected bodySha256 partCount)
  | .complete projectionKind turnId partIndex externalMessageId =>
    changedBy (bridge.completeDeliveryPart nowMs projectionKind turnId partIndex externalMessageId)
  | .finalize projectionKind turnId clearActiveSourceMessageId =>
    changedBy (bridge.finalizeDelivery nowMs projectionKind turnId clearActiveSourceMessageId)
  | .live turnId externalMessageId clearActiveSourceMessageId =>
    changedBy (bridge.setLiveMessage nowMs turnId externalMessageId clearActiveSourceMessageId)
  | .accept sourceMessageId pending =>
    if bridge.pendingInbound.isNone then
      some ((bridge.withPending sourceMessageId pending).bumpBridgeRevision nowMs)
    else none
  | .consume => some (bridge.bumpBridgeRevision nowMs)
  | .origin turnId sourceTransport => bridge.recordTurnOrigin nowMs turnId sourceTransport
  | .acknowledge clientPromptId => bridge.acknowledgePrompt nowMs clientPromptId

/-! ## When an operation changes a record, and to what -/

section Cases

variable {bridge} {changed : SessionBridgeRecord} {nowMs : Int}

theorem setLifecycle_eq_some_iff {lifecycle : BridgeLifecycle} :
    bridge.setLifecycle nowMs lifecycle = some changed ↔
      bridge.lifecycle ≠ lifecycle ∧ changed = { bridge with lifecycle }.bumpBridgeRevision nowMs := by
  simp only [setLifecycle, Option.ite_none_left_eq_some, Option.some.injEq, ne_eq,
    eq_comm (b := changed)]

theorem bindThread_eq_some_iff {transport externalParentId externalThreadId : String} :
    bridge.bindThread nowMs transport externalParentId externalThreadId = .ok (some changed) ↔
      (bridge.transport = none ∧ bridge.externalParentId = none ∧
        bridge.externalThreadId = none) ∧
      changed = { bridge with
        transport := some transport
        externalParentId := some externalParentId
        externalThreadId := some externalThreadId }.bumpBridgeRevision nowMs := by
  unfold bindThread
  split
  · next h => simp [h]
  · split
    · next h => simp [h, eq_comm (b := changed)]
    · next h => simp [h]

theorem clearThread_eq_some_iff {transport externalThreadId : String} :
    bridge.clearThread nowMs transport externalThreadId = .ok (some changed) ↔
      (bridge.pendingInbound = none ∧ bridge.transport = some transport ∧
        bridge.externalThreadId = some externalThreadId) ∧
      changed = bridge.withoutThread.bumpBridgeRevision nowMs := by
  unfold clearThread
  split
  · next h => simp [Option.isSome_iff_ne_none.1 h]
  · next h =>
    have hpending : bridge.pendingInbound = none := by simpa using h
    split
    · next h =>
      simp only [reduceCtorEq, false_iff]
      rintro ⟨⟨-, htransport, hthread⟩, -⟩
      exact h.elim (· htransport) (· hthread)
    · next h =>
      rw [not_or, not_not, not_not] at h
      simp [hpending, h, eq_comm (b := changed)]

/-- What is sent is new, continues at the cursor, and nothing else is under way. -/
theorem prepareDelivery_eq_some_iff {projectionKind : BridgeProjectionKind} {turnId : String}
    {expected : Option BridgeProjectionRecord} {bodySha256 : String} {partCount : UInt64} :
    bridge.prepareDelivery nowMs projectionKind turnId expected bodySha256 partCount =
        .ok (some changed) ↔
      (bridge.lastProjected ≠ some ⟨projectionKind, turnId⟩ ∧
        (partCount = 0 →
          bridge.zeroPartSuppressionAllowed partCount projectionKind turnId = true) ∧
        bridge.delivery = none ∧ bridge.lastProjected = expected) ∧
      changed = { bridge with
        delivery := some {
          projectionKind
          turnId
          previousProjection := expected
          bodySha256
          partCount := partCount.toNat
          completedParts := 0
          lastExternalMessageId := none } }.bumpBridgeRevision nowMs := by
  unfold prepareDelivery
  split
  · next h => simp [h]
  · next hnew =>
    split
    · next h =>
      simp only [reduceCtorEq, false_iff]
      rintro ⟨⟨-, hallowed, -⟩, -⟩
      rw [hallowed h.1] at h
      exact absurd h.2 (by simp)
    · next hparts =>
      have hallowed : partCount = 0 →
          bridge.zeroPartSuppressionAllowed partCount projectionKind turnId = true := by
        simpa using hparts
      split
      · next current hcurrent => split <;> simp [hcurrent]
      · next hnone =>
        split
        · next h => simp [h]
        · next h =>
          simp only [ne_eq, not_not] at h
          simp only [Except.ok.injEq, Option.some.injEq, eq_comm (b := changed)]
          exact ⟨fun hc => ⟨⟨hnew, hallowed, hnone, h⟩, hc⟩, fun hc => hc.2⟩

/-- The next part of the delivery under way was sent. -/
theorem completeDeliveryPart_eq_some_iff {projectionKind : BridgeProjectionKind}
    {turnId externalMessageId : String} {partIndex : UInt64} :
    bridge.completeDeliveryPart nowMs projectionKind turnId partIndex externalMessageId =
        .ok (some changed) ↔
      ∃ delivery, (bridge.delivery = some delivery ∧
        delivery.projectionKind = projectionKind ∧ delivery.turnId = turnId ∧
        partIndex.toNat = delivery.completedParts ∧
        delivery.completedParts < delivery.partCount) ∧
      changed = { bridge with
        delivery := some { delivery with
          completedParts := saturatingAdd delivery.completedParts 1
          lastExternalMessageId := some externalMessageId } }.bumpBridgeRevision nowMs := by
  unfold completeDeliveryPart
  split
  · next h => simp [h]
  · next delivery hdelivery =>
    simp only [hdelivery, Option.some.injEq, and_assoc, exists_eq_left']
    split
    · next h =>
      simp only [reduceCtorEq, false_iff]
      rintro ⟨hkind, hturn, -⟩
      exact h.elim (· hkind) (· hturn)
    · next h =>
      rw [not_or, not_not, not_not] at h
      split
      · next hindex =>
        simp only [reduceCtorEq, false_iff]
        rintro ⟨-, -, heq, hlt, -⟩
        omega
      · next hindex =>
        split
        · next hlt =>
          split <;>
          · simp only [reduceCtorEq, Except.ok.injEq, false_iff]
            rintro ⟨-, -, heq, -⟩
            omega
        · next hge =>
          split
          · next hne => simp [hne]
          · next heq =>
            rw [ne_eq, not_not] at heq
            simp only [Except.ok.injEq, Option.some.injEq, eq_comm (b := changed)]
            exact ⟨fun hc => ⟨h.1, h.2, heq, by omega, hc⟩, fun hc => hc.2.2.2.2⟩

/-- A delivery is finished when all its parts were sent, at the cursor it was prepared at. -/
theorem finalizeDelivery_eq_some_iff {projectionKind : BridgeProjectionKind} {turnId : String}
    {clearActiveSourceMessageId : Option String} :
    bridge.finalizeDelivery nowMs projectionKind turnId clearActiveSourceMessageId =
        .ok (some changed) ↔
      ∃ delivery, (bridge.lastProjected ≠ some ⟨projectionKind, turnId⟩ ∧
        bridge.delivery = some delivery ∧ delivery.projectionKind = projectionKind ∧
        delivery.turnId = turnId ∧ bridge.lastProjected = delivery.previousProjection ∧
        delivery.completedParts = delivery.partCount) ∧
      changed = (bridge.projected projectionKind turnId
        clearActiveSourceMessageId).bumpBridgeRevision nowMs := by
  unfold finalizeDelivery
  split
  · next h => simp [h]
  · next hnew =>
    split
    · next h => simp [h]
    · next delivery hdelivery =>
      simp only [hdelivery, Option.some.injEq, and_assoc, exists_eq_left', ne_eq, hnew,
        not_false_eq_true, true_and]
      split
      · next h =>
        simp only [reduceCtorEq, false_iff]
        rintro ⟨hkind, hturn, -⟩
        exact h.elim (· hkind) (· hturn)
      · next h =>
        rw [not_or, not_not, not_not] at h
        split
        · next h => simp [h]
        · next hcursor =>
          split
          · next h => simp [h]
          · next hparts =>
            rw [not_not] at hparts hcursor
            simp [h, hparts, hcursor, eq_comm (b := changed)]

theorem setLiveMessage_eq_some_iff {turnId externalMessageId clearSource : Option String} :
    bridge.setLiveMessage nowMs turnId externalMessageId clearSource = .ok (some changed) ↔
      (¬ (clearSource.isSome ∧ bridge.activeSourceMessageId.isSome ∧
          bridge.activeSourceMessageId ≠ clearSource) ∧
        ¬ (bridge.liveTurnId = turnId ∧ bridge.liveExternalMessageId = externalMessageId ∧
          ¬ (clearSource.isSome ∧ bridge.activeSourceMessageId = clearSource))) ∧
      changed = { bridge with
        liveTurnId := turnId
        liveExternalMessageId := externalMessageId
        activeSourceMessageId :=
          if clearSource.isSome ∧ bridge.activeSourceMessageId = clearSource then none
          else bridge.activeSourceMessageId }.bumpBridgeRevision nowMs := by
  unfold setLiveMessage
  dsimp only
  split
  · next h =>
    simp only [reduceCtorEq, false_iff]
    exact fun hc => hc.1.1 h
  · next howner =>
    split
    · next h =>
      simp only [Except.ok.injEq, reduceCtorEq, false_iff]
      exact fun hc => hc.1.2 h
    · next h =>
      simp only [Except.ok.injEq, Option.some.injEq, eq_comm (b := changed)]
      exact ⟨fun hc => ⟨⟨howner, h⟩, hc⟩, fun hc => hc.2⟩

theorem recordTurnOrigin_eq_some_iff {turnId : String} {sourceTransport : Option String} :
    bridge.recordTurnOrigin nowMs turnId sourceTransport = some changed ↔
      ¬ (sourceTransport.filter (fun transport => !bridge.inboundTurnOrigins.any fun origin =>
          origin.turnId == turnId && origin.transport == transport) = none ∧
        ¬ (sourceTransport ≠ bridge.transport ∧ bridge.activeSourceMessageId.isSome)) ∧
      changed = { bridge with
        inboundTurnOrigins := bridge.inboundTurnOrigins ++
          (sourceTransport.filter fun transport => !bridge.inboundTurnOrigins.any fun origin =>
            origin.turnId == turnId && origin.transport == transport).toList.map
              (BridgeInboundTurnOriginRecord.mk turnId)
        activeSourceMessageId :=
          if sourceTransport ≠ bridge.transport ∧ bridge.activeSourceMessageId.isSome then none
          else bridge.activeSourceMessageId }.bumpBridgeRevision nowMs := by
  simp only [recordTurnOrigin, Option.ite_none_left_eq_some, Option.some.injEq,
    eq_comm (b := changed)]

theorem acknowledgePrompt_eq_some_iff {clientPromptId : String} :
    bridge.acknowledgePrompt nowMs clientPromptId = some changed ↔
      bridge.pendingInbound.map (·.clientPromptId) = some clientPromptId ∧
      changed = { bridge with pendingInbound := none }.bumpBridgeRevision nowMs := by
  simp only [acknowledgePrompt, Option.ite_none_left_eq_some, Option.some.injEq, ne_eq, not_not,
    eq_comm (b := changed)]

theorem act_accept_eq_some_iff {sourceMessageId : String} {pending : BridgePendingInboundRecord} :
    bridge.act nowMs (.accept sourceMessageId pending) = some changed ↔
      bridge.pendingInbound = none ∧
      changed = (bridge.withPending sourceMessageId pending).bumpBridgeRevision nowMs := by
  simp only [act, Option.ite_none_right_eq_some, Option.isNone_iff_eq_none, Option.some.injEq,
    eq_comm (b := changed)]

end Cases

/-! ## What the operations do not read -/

/-- The record with other remembered events and another time. -/
def restamp (events : List String) (updatedAtMs : Int) : SessionBridgeRecord :=
  { bridge with recentInboundEventIds := events, updatedAtMs }

/-- What the operations read. -/
def content : SessionBridgeRecord := bridge.restamp [] 0

variable {bridge}

theorem eq_restamp_of_content {v : SessionBridgeRecord} (h : bridge.content = v.content) :
    v = bridge.restamp v.recentInboundEventIds v.updatedAtMs := by
  cases bridge
  cases v
  simp only [content, restamp, mk.injEq] at h ⊢
  simp [h]

theorem act_restamp {changed : SessionBridgeRecord} {events : List String} {updatedAtMs nowMs : Int}
    {action : RecordAction} (h : bridge.act nowMs action = some changed) :
    (bridge.restamp events updatedAtMs).act nowMs action =
      some { changed with recentInboundEventIds := events } := by
  cases action with
  | lifecycle lifecycle =>
    obtain ⟨hne, rfl⟩ := setLifecycle_eq_some_iff.1 h
    exact setLifecycle_eq_some_iff.2 ⟨hne, rfl⟩
  | bind transport externalParentId externalThreadId =>
    obtain ⟨hfree, rfl⟩ := bindThread_eq_some_iff.1 (changedBy_eq_some_iff.1 h)
    exact changedBy_eq_some_iff.2 (bindThread_eq_some_iff.2 ⟨hfree, rfl⟩)
  | clear transport externalThreadId =>
    obtain ⟨hbound, rfl⟩ := clearThread_eq_some_iff.1 (changedBy_eq_some_iff.1 h)
    exact changedBy_eq_some_iff.2 (clearThread_eq_some_iff.2 ⟨hbound, rfl⟩)
  | prepare projectionKind turnId expected bodySha256 partCount =>
    obtain ⟨hnew, rfl⟩ := prepareDelivery_eq_some_iff.1 (changedBy_eq_some_iff.1 h)
    exact changedBy_eq_some_iff.2 (prepareDelivery_eq_some_iff.2 ⟨hnew, rfl⟩)
  | complete projectionKind turnId partIndex externalMessageId =>
    obtain ⟨delivery, hnext, rfl⟩ := completeDeliveryPart_eq_some_iff.1 (changedBy_eq_some_iff.1 h)
    exact changedBy_eq_some_iff.2 (completeDeliveryPart_eq_some_iff.2 ⟨delivery, hnext, rfl⟩)
  | finalize projectionKind turnId clearSource =>
    obtain ⟨delivery, hdone, rfl⟩ := finalizeDelivery_eq_some_iff.1 (changedBy_eq_some_iff.1 h)
    exact changedBy_eq_some_iff.2 (finalizeDelivery_eq_some_iff.2 ⟨delivery, hdone, rfl⟩)
  | live turnId externalMessageId clearSource =>
    obtain ⟨howner, rfl⟩ := setLiveMessage_eq_some_iff.1 (changedBy_eq_some_iff.1 h)
    exact changedBy_eq_some_iff.2 (setLiveMessage_eq_some_iff.2 ⟨howner, rfl⟩)
  | accept sourceMessageId pending =>
    obtain ⟨hnone, rfl⟩ := act_accept_eq_some_iff.1 h
    exact act_accept_eq_some_iff.2 ⟨hnone, rfl⟩
  | consume =>
    cases h
    rfl
  | origin turnId sourceTransport =>
    obtain ⟨hchanged, rfl⟩ := recordTurnOrigin_eq_some_iff.1 h
    exact recordTurnOrigin_eq_some_iff.2 ⟨hchanged, rfl⟩
  | acknowledge clientPromptId =>
    obtain ⟨hpending, rfl⟩ := acknowledgePrompt_eq_some_iff.1 h
    exact acknowledgePrompt_eq_some_iff.2 ⟨hpending, rfl⟩

/-- An operation on a copy of a row is the operation on the row. -/
theorem act_of_content {v changed : SessionBridgeRecord} {nowMs : Int} {action : RecordAction}
    (hcontent : bridge.content = v.content) (hv : v.recentInboundEventIds = [])
    (h : bridge.act nowMs action = some changed) : v.act nowMs action = some changed.row := by
  rw [eq_restamp_of_content hcontent, hv]
  exact act_restamp h

/-- What every operation keeps: the session, and what belongs to it for good. -/
theorem act_keeps {changed : SessionBridgeRecord} {nowMs : Int} {action : RecordAction}
    (h : bridge.act nowMs action = some changed) :
    changed.sessionId = bridge.sessionId ∧ changed.workspace = bridge.workspace ∧
      changed.kind = bridge.kind ∧ changed.displayTitle = bridge.displayTitle ∧
      changed.revision = saturatingAdd bridge.revision 1 ∧
      changed.recentInboundEventIds = bridge.recentInboundEventIds := by
  cases action with
  | lifecycle lifecycle =>
    obtain ⟨-, rfl⟩ := setLifecycle_eq_some_iff.1 h
    exact ⟨rfl, rfl, rfl, rfl, rfl, rfl⟩
  | bind transport externalParentId externalThreadId =>
    obtain ⟨-, rfl⟩ := bindThread_eq_some_iff.1 (changedBy_eq_some_iff.1 h)
    exact ⟨rfl, rfl, rfl, rfl, rfl, rfl⟩
  | clear transport externalThreadId =>
    obtain ⟨-, rfl⟩ := clearThread_eq_some_iff.1 (changedBy_eq_some_iff.1 h)
    exact ⟨rfl, rfl, rfl, rfl, rfl, rfl⟩
  | prepare projectionKind turnId expected bodySha256 partCount =>
    obtain ⟨-, rfl⟩ := prepareDelivery_eq_some_iff.1 (changedBy_eq_some_iff.1 h)
    exact ⟨rfl, rfl, rfl, rfl, rfl, rfl⟩
  | complete projectionKind turnId partIndex externalMessageId =>
    obtain ⟨delivery, -, rfl⟩ := completeDeliveryPart_eq_some_iff.1 (changedBy_eq_some_iff.1 h)
    exact ⟨rfl, rfl, rfl, rfl, rfl, rfl⟩
  | finalize projectionKind turnId clearSource =>
    obtain ⟨delivery, -, rfl⟩ := finalizeDelivery_eq_some_iff.1 (changedBy_eq_some_iff.1 h)
    exact ⟨rfl, rfl, rfl, rfl, rfl, rfl⟩
  | live turnId externalMessageId clearSource =>
    obtain ⟨-, rfl⟩ := setLiveMessage_eq_some_iff.1 (changedBy_eq_some_iff.1 h)
    exact ⟨rfl, rfl, rfl, rfl, rfl, rfl⟩
  | accept sourceMessageId pending =>
    obtain ⟨-, rfl⟩ := act_accept_eq_some_iff.1 h
    exact ⟨rfl, rfl, rfl, rfl, rfl, rfl⟩
  | consume =>
    cases h
    exact ⟨rfl, rfl, rfl, rfl, rfl, rfl⟩
  | origin turnId sourceTransport =>
    obtain ⟨-, rfl⟩ := recordTurnOrigin_eq_some_iff.1 h
    exact ⟨rfl, rfl, rfl, rfl, rfl, rfl⟩
  | acknowledge clientPromptId =>
    obtain ⟨-, rfl⟩ := acknowledgePrompt_eq_some_iff.1 h
    exact ⟨rfl, rfl, rfl, rfl, rfl, rfl⟩

end SessionBridgeRecord

/-- A change that was stored: some operation, at some time, with a revision that can be stored. -/
def Changes (bridge changed : SessionBridgeRecord) : Prop :=
  (∃ nowMs action, bridge.act nowMs action = some changed) ∧ changed.revision ≤ i64Max

/-- The row of a bridge that was opened. -/
def Opened (sessionId : String) (bridge : SessionBridgeRecord) : Prop :=
  ∃ workspace displayTitle intent nowMs,
    bridge = openedRecord sessionId workspace displayTitle intent nowMs

/-- A stored change raises the revision by one. -/
theorem Changes.revision_eq {bridge changed : SessionBridgeRecord} (h : Changes bridge changed) :
    changed.revision = bridge.revision + 1 := by
  obtain ⟨⟨nowMs, action, hact⟩, hrevision⟩ := h
  obtain ⟨-, -, -, -, hadd, -⟩ := SessionBridgeRecord.act_keeps hact
  rw [hadd] at hrevision ⊢
  simp only [saturatingAdd, u64Max, i64Max] at hrevision ⊢
  omega

end Nakode.Bridges
