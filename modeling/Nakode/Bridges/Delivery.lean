import Nakode.Bridges.Shared
import Nakode.Lib.Outbox

/-!
# The delivery checkpoint is an outbox

A record keeps of a delivery only how many parts were sent, and the message of the last one. All the
same, the versions of a row play an outbox (`Plays`): a delivery is prepared, its parts are sent one
after another, all of them again once the thread is cleared, and the cursor moves only when all of
them were sent. This holds of the rows of every run (`deliveries_play_outbox`).
-/

namespace Nakode.Bridges

open Transition
open Versions (History)

/-- What is delivered to a thread, one projection at a time, with the identities of the messages. -/
abbrev Parcel := Outbox.Parcel BridgeProjectionRecord String String

abbrev DeliveryState := Outbox.State BridgeProjectionRecord String String

abbrev DeliveryEvent := Outbox.Event BridgeProjectionRecord String String

/-- What an operation is for the delivery. -/
def RecordAction.event : RecordAction → Option DeliveryEvent
  | .prepare projectionKind turnId _ bodySha256 partCount =>
    some (.prepare ⟨projectionKind, turnId⟩ bodySha256 partCount.toNat)
  | .complete _ _ _ externalMessageId => some (.send externalMessageId)
  | .clear _ _ => some .restart
  | .finalize projectionKind turnId _ => some (.finish ⟨projectionKind, turnId⟩)
  | _ => none

/-- The checkpoint of constant size that is kept of a parcel. -/
def checkpoint (parcel : Parcel) : BridgeDeliveryRecord where
  projectionKind := parcel.target.kind
  turnId := parcel.target.turnId
  previousProjection := parcel.previous
  bodySha256 := parcel.body
  partCount := parcel.parts
  completedParts := parcel.sent.length
  lastExternalMessageId := parcel.sent.getLast?

/-- A record and the outbox that it stands for. -/
structure Represents (bridge : SessionBridgeRecord) (outbox : DeliveryState) : Prop where
  cursor : bridge.lastProjected = outbox.cursor
  delivery : bridge.delivery = outbox.pending.map checkpoint
  parts : ∀ parcel, outbox.pending = some parcel → parcel.parts ≤ u64Max

namespace Represents

variable {bridge changed : SessionBridgeRecord} {outbox : DeliveryState} {nowMs : Int}

theorem opened {s : String} (h : Opened s bridge) : Represents bridge ⟨none, none⟩ := by
  obtain ⟨workspace, displayTitle, intent, nowMs, rfl⟩ := h
  exact ⟨rfl, rfl, by simp⟩

theorem of_eq (h : Represents bridge outbox) (hcursor : changed.lastProjected = bridge.lastProjected)
    (hdelivery : changed.delivery = bridge.delivery) : Represents changed outbox :=
  ⟨hcursor.trans h.cursor, hdelivery.trans h.delivery, h.parts⟩

/-- An operation that is no event of the delivery leaves it alone. -/
theorem quiet {action : RecordAction} (h : Represents bridge outbox)
    (hact : bridge.act nowMs action = some changed) (hevent : action.event = none) :
    Represents changed outbox := by
  cases action with
  | lifecycle lifecycle =>
    obtain ⟨-, rfl⟩ := SessionBridgeRecord.setLifecycle_eq_some_iff.1 hact
    exact h.of_eq rfl rfl
  | bind transport externalParentId externalThreadId =>
    obtain ⟨-, rfl⟩ := SessionBridgeRecord.bindThread_eq_some_iff.1 (changedBy_eq_some_iff.1 hact)
    exact h.of_eq rfl rfl
  | live turnId externalMessageId clearSource =>
    obtain ⟨-, rfl⟩ :=
      SessionBridgeRecord.setLiveMessage_eq_some_iff.1 (changedBy_eq_some_iff.1 hact)
    exact h.of_eq rfl rfl
  | accept sourceMessageId pending =>
    obtain ⟨-, rfl⟩ := SessionBridgeRecord.act_accept_eq_some_iff.1 hact
    exact h.of_eq rfl rfl
  | consume =>
    cases hact
    exact h.of_eq rfl rfl
  | origin turnId sourceTransport =>
    obtain ⟨-, rfl⟩ := SessionBridgeRecord.recordTurnOrigin_eq_some_iff.1 hact
    exact h.of_eq rfl rfl
  | acknowledge clientPromptId =>
    obtain ⟨-, rfl⟩ := SessionBridgeRecord.acknowledgePrompt_eq_some_iff.1 hact
    exact h.of_eq rfl rfl
  | clear | prepare | complete | finalize => cases hevent

/-- The parcel under way is the one that the record has a checkpoint of. -/
theorem exists_parcel (h : Represents bridge outbox) {delivery : BridgeDeliveryRecord}
    (hdelivery : bridge.delivery = some delivery) :
    ∃ parcel, outbox.pending = some parcel ∧ delivery = checkpoint parcel := by
  rw [h.delivery] at hdelivery
  obtain ⟨parcel, hparcel, rfl⟩ := Option.map_eq_some_iff.1 hdelivery
  exact ⟨parcel, hparcel, rfl⟩

/-- An operation that is an event of the delivery is a step of the outbox. -/
theorem event {action : RecordAction} {event : DeliveryEvent} (h : Represents bridge outbox)
    (hact : bridge.act nowMs action = some changed) (hevent : action.event = some event) :
    ∃ next, Outbox.step outbox event = some next ∧ Represents changed next := by
  cases action with
  | prepare projectionKind turnId expected bodySha256 partCount =>
    obtain ⟨⟨hnew, -, hnone, hcursor⟩, rfl⟩ :=
      SessionBridgeRecord.prepareDelivery_eq_some_iff.1 (changedBy_eq_some_iff.1 hact)
    cases hevent
    rw [h.delivery, Option.map_eq_none_iff] at hnone
    rw [h.cursor] at hnew
    refine ⟨_, Outbox.step_prepare_iff.2 ⟨hnone, hnew, rfl⟩, h.cursor, ?_, ?_⟩
    · rw [← hcursor, h.cursor]
      rfl
    · rintro parcel ⟨⟩
      have hlt := partCount.toNat_lt
      show partCount.toNat ≤ u64Max
      simp only [u64Max]
      omega
  | complete projectionKind turnId partIndex externalMessageId =>
    obtain ⟨delivery, ⟨hdelivery, -, -, -, hlt⟩, rfl⟩ :=
      SessionBridgeRecord.completeDeliveryPart_eq_some_iff.1 (changedBy_eq_some_iff.1 hact)
    cases hevent
    obtain ⟨parcel, hparcel, rfl⟩ := h.exists_parcel hdelivery
    have hparts := h.parts parcel hparcel
    change parcel.sent.length < parcel.parts at hlt
    have hadd : saturatingAdd parcel.sent.length 1 = parcel.sent.length + 1 := by
      simp only [saturatingAdd]
      omega
    refine ⟨_, Outbox.step_send_iff.2 ⟨parcel, hparcel, hlt, rfl⟩, h.cursor, ?_, ?_⟩
    · simp [checkpoint, SessionBridgeRecord.bumpBridgeRevision, hadd]
    · rintro _ ⟨⟩
      exact hparts
  | clear transport externalThreadId =>
    obtain ⟨-, rfl⟩ := SessionBridgeRecord.clearThread_eq_some_iff.1 (changedBy_eq_some_iff.1 hact)
    cases hevent
    refine ⟨_, Outbox.step_restart_iff.2 rfl, h.cursor, ?_, fun parcel hparcel => ?_⟩
    · simp only [SessionBridgeRecord.bumpBridgeRevision, SessionBridgeRecord.withoutThread,
        h.delivery]
      cases outbox.pending <;> rfl
    · obtain ⟨old, hold, rfl⟩ := Option.map_eq_some_iff.1 hparcel
      exact h.parts old hold
  | finalize projectionKind turnId clearSource =>
    obtain ⟨delivery, ⟨-, hdelivery, hkind, hturn, -, hparts⟩, rfl⟩ :=
      SessionBridgeRecord.finalizeDelivery_eq_some_iff.1 (changedBy_eq_some_iff.1 hact)
    cases hevent
    obtain ⟨parcel, hparcel, rfl⟩ := h.exists_parcel hdelivery
    have htarget : parcel.target = ⟨projectionKind, turnId⟩ := by
      rw [← hkind, ← hturn]
      rfl
    exact ⟨_, Outbox.step_finish_iff.2 ⟨parcel, hparcel, htarget, hparts, rfl⟩, rfl, rfl, by simp⟩
  | lifecycle | bind | live | accept | consume | origin | acknowledge => cases hevent

end Represents

/-- The versions of a row, the newest first, as the states of an outbox after some events. -/
inductive Plays : List SessionBridgeRecord → List DeliveryEvent → DeliveryState → Prop
  | opened {bridge : SessionBridgeRecord} : Represents bridge ⟨none, none⟩ →
      Plays [bridge] [] ⟨none, none⟩
  | quiet {bridge changed : SessionBridgeRecord} {older : List SessionBridgeRecord}
      {events : List DeliveryEvent} {outbox : DeliveryState} {nowMs : Int}
      {action : RecordAction} : Plays (bridge :: older) events outbox →
      bridge.act nowMs action = some changed → action.event = none →
      Represents changed outbox → Plays (changed :: bridge :: older) events outbox
  | event {bridge changed : SessionBridgeRecord} {older : List SessionBridgeRecord}
      {events : List DeliveryEvent} {outbox next : DeliveryState} {nowMs : Int}
      {action : RecordAction} {event : DeliveryEvent} : Plays (bridge :: older) events outbox →
      bridge.act nowMs action = some changed → action.event = some event →
      Outbox.step outbox event = some next → Represents changed next →
      Plays (changed :: bridge :: older) (events ++ [event]) next

namespace Plays

theorem represents {bridge : SessionBridgeRecord} {older : List SessionBridgeRecord}
    {events : List DeliveryEvent} {outbox : DeliveryState}
    (h : Plays (bridge :: older) events outbox) : Represents bridge outbox := by
  cases h with
  | opened h => exact h
  | quiet _ _ _ h => exact h
  | event _ _ _ _ h => exact h

theorem run {versions : List SessionBridgeRecord} {events : List DeliveryEvent}
    {outbox : DeliveryState} (h : Plays versions events outbox) :
    (Outbox.system BridgeProjectionRecord String String).Run ⟨none, none⟩ events outbox := by
  induction h with
  | opened => exact .nil _
  | quiet _ _ _ _ ih => exact ih
  | event _ _ _ hstep _ ih => exact ih.append (.single hstep)

end Plays

theorem exists_plays {s : String} {versions : List SessionBridgeRecord}
    (h : History (Opened s) Changes versions) (hne : versions ≠ []) :
    ∃ events outbox, Plays versions events outbox := by
  induction h with
  | nil => exact absurd rfl hne
  | first hopened => exact ⟨[], _, .opened (.opened hopened)⟩
  | next _ hchanges ih =>
    obtain ⟨events, outbox, hplays⟩ := ih (by simp)
    obtain ⟨⟨nowMs, action, hact⟩, -⟩ := hchanges
    have hrepresents := hplays.represents
    cases hevent : action.event with
    | none => exact ⟨events, outbox, .quiet hplays hact hevent (hrepresents.quiet hact hevent)⟩
    | some event =>
      obtain ⟨next, hstep, hnext⟩ := hrepresents.event hact hevent
      exact ⟨_, next, .event hplays hact hevent hstep hnext⟩

end Nakode.Bridges
