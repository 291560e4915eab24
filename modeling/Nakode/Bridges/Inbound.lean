import Nakode.Bridges.Ledger
import Nakode.Bridges.Memory
import Nakode.Bridges.Shared

/-!
# Events of a thread are decided once

A server answers an event of a thread from its memory, or from the ledger, and decides it only when
neither has it; the decision counts only when its row is written, and the row is refused when
another server was faster. So in every run in which the clock does not go back and the session is
not deleted, an event is decided again only after `maxBridgeReplayEventsPerSession` others, and
every answer is either the decision that is recorded with it, or a duplicate that repeats a recorded
decision (`events_decided_once`).
-/

namespace Nakode.Bridges

open Relational (Table)
open Transition

namespace Installation

variable {ι ε : Type}

theorem Ledger.congr {s : String} {i i' : Installation ι} (h : Ledger s i)
    (hevents : i'.store.inboundEvents = i.store.inboundEvents)
    (hdecided : i'.decided = i.decided) : Ledger s i' := by
  obtain ⟨hspaced, hnewest, htimed, hrecorded⟩ := h
  refine ⟨?_, ?_, ?_, ?_⟩
  · rwa [decisions, hdecided]
  · rwa [decisions, hdecided, hevents]
  · rwa [hevents]
  · rwa [hdecided, hevents]

/-- What saving a record leaves alone. -/
theorem save_inboundEvents {i i' : Installation ι} {bridge : SessionBridgeRecord}
    (h : i.save bridge = some i') :
    i'.store.inboundEvents = i.store.inboundEvents ∧ i'.decided = i.decided ∧
      i'.process = i.process := by
  obtain ⟨rows, -, rfl⟩ := Option.map_eq_some_iff.1 h
  exact ⟨rfl, rfl, rfl⟩

theorem saveAll_inboundEvents {i i' : Installation ι} {bridges : List SessionBridgeRecord}
    (h : bridges.foldlM save i = some i') :
    i'.store.inboundEvents = i.store.inboundEvents ∧ i'.decided = i.decided ∧
      i'.process = i.process := by
  induction bridges generalizing i with
  | nil =>
    cases h
    exact ⟨rfl, rfl, rfl⟩
  | cons bridge bridges ih =>
    rw [List.foldlM_cons] at h
    obtain ⟨next, hnext, hrest⟩ := Option.bind_eq_some_iff.1 h
    obtain ⟨hevents, hdecided, hprocess⟩ := save_inboundEvents hnext
    obtain ⟨hevents', hdecided', hprocess'⟩ := ih hrest
    exact ⟨hevents'.trans hevents, hdecided'.trans hdecided, hprocess'.trans hprocess⟩

/-- Without a claim the ledger is left alone. -/
theorem persist_unclaimed {i i' : Installation ι} {bridges : List SessionBridgeRecord}
    {recordedAtMs : Int} {createsSession diskFails : Bool}
    (h : i.persist bridges none recordedAtMs createsSession diskFails = some i') :
    i'.store.inboundEvents = i.store.inboundEvents ∧ i'.decided = i.decided ∧
      i'.process = i.process := by
  unfold persist at h
  split at h
  · cases h
    exact ⟨rfl, rfl, rfl⟩
  · split at h
    · cases h
    · split at h
      · cases h
      · obtain ⟨saved, hsaved, hrest⟩ := Option.bind_eq_some_iff.1 h
        cases hrest
        exact saveAll_inboundEvents hsaved

/-- With a claim, the event is recorded once the records are saved. -/
theorem persist_claimed {i i' : Installation ι} {bridges : List SessionBridgeRecord}
    {claim : Claim} {recordedAtMs : Int} {createsSession diskFails : Bool} (hne : bridges ≠ [])
    (h : i.persist bridges (some claim) recordedAtMs createsSession diskFails = some i') :
    ∃ saved : Installation ι, saved.store.inboundEvents = i.store.inboundEvents ∧
      saved.decided = i.decided ∧ saved.process = i.process ∧
      saved.saveClaim bridges recordedAtMs claim = some i' := by
  unfold persist at h
  rw [if_neg hne] at h
  split at h
  · cases h
  · split at h
    · cases h
    · obtain ⟨saved, hsaved, hclaim⟩ := Option.bind_eq_some_iff.1 h
      obtain ⟨hevents, hdecided, hprocess⟩ := saveAll_inboundEvents hsaved
      exact ⟨saved, hevents, hdecided, hprocess, hclaim⟩

/-- What is known of the events of a session. -/
structure Once (s : String) (i : Installation ι) : Prop where
  ledger : Ledger s i
  memory : ∀ pid process, i.process pid = some process →
    BridgeCore.Remembers s i.decided process.core
  /-- An event that the ledger had is remembered while it is handled. -/
  handling : ∀ pid process c, i.process pid = some process →
    process.handling = some (c, false) → c.sessionId = s →
      ∀ bridge, process.bridge? s = some bridge →
        c.externalEventId ∈ bridge.recentInboundEventIds

/-- A server goes on with other bridges, after a change that the ledger allows. -/
theorem Once.withProcess {s : String} {i i' : Installation ι} (h : Once s i)
    (hledger : Ledger s i') (hdecided : ∀ claim ∈ i.decided, claim ∈ i'.decided)
    (hother : i'.process = i.process) {pid : Nat} {process : Process ι}
    (hmemory : BridgeCore.Remembers s i'.decided process.core)
    (hhandling : ∀ c, process.handling = some (c, false) → c.sessionId = s →
      ∀ bridge, process.bridge? s = some bridge →
        c.externalEventId ∈ bridge.recentInboundEventIds) :
    Once s (i'.withProcess pid process) where
  ledger := hledger.congr rfl rfl
  memory pid' process' hget := by
    by_cases hpid : pid' = pid
    · subst hpid
      simp only [Installation.withProcess, Function.update_self, Option.some.injEq] at hget
      exact hget ▸ hmemory
    · simp only [Installation.withProcess, Function.update_of_ne hpid, hother] at hget
      exact (h.memory pid' process' hget).mono hdecided
  handling pid' process' c hget := by
    by_cases hpid : pid' = pid
    · subst hpid
      simp only [Installation.withProcess, Function.update_self, Option.some.injEq] at hget
      exact hget ▸ hhandling c
    · simp only [Installation.withProcess, Function.update_of_ne hpid, hother] at hget
      exact h.handling pid' process' c hget

/-- The clock does not go back behind a recorded event, and the session is not deleted. -/
def Steady (s : String) (i : Installation ι) : Action ι ε → Prop
  | .decide _ _ recordedAtMs _ _ =>
    ∀ row ∈ i.store.inboundEvents.rows, row.2.recordedAtMs ≤ recordedAtMs
  | .delete _ _ sessionId _ _ => sessionId ≠ s
  | _ => True

instance (s : String) (i : Installation ι) : ∀ action : Action ι ε, Decidable (Steady s i action)
  | .decide _ _ recordedAtMs _ _ =>
    inferInstanceAs (Decidable (∀ row ∈ i.store.inboundEvents.rows,
      row.2.recordedAtMs ≤ recordedAtMs))
  | .delete _ _ sessionId _ _ => inferInstanceAs (Decidable (sessionId ≠ s))
  | .start _ | .crash _ | .refresh _ _ | .command _ _ _ _ | .lookUp _ _ | .event _ _ _ _ _ _ =>
    .isTrue trivial

/-- Commands that neither claim nor remember an event. -/
theorem Once.settle_unclaimed {s : String} {i i' : Installation ι} (h : Once s i) {pid : Nat}
    {process : Process ι} (hprocess : i.process pid = some process)
    (hidle : process.handling = none) {outcome : BridgeCore.Outcome ε} {recordedAtMs : Int}
    {createsSession diskFails : Bool} {reply : Reply}
    (hquiet : process.core.Quiet outcome.2)
    (hsettle : i.settle pid process outcome (fun _ => none) recordedAtMs createsSession diskFails =
      (reply, i')) : Once s i' := by
  have hmemory := h.memory pid process hprocess
  obtain ⟨result, core⟩ := outcome
  cases result with
  | error error =>
    cases hsettle
    exact h.withProcess h.ledger (fun _ => id) rfl (hmemory.quiet hquiet) (by simp [hidle])
  | ok answer =>
    obtain ⟨result, effects⟩ := answer
    simp only [Installation.settle] at hsettle
    split at hsettle
    · cases hsettle
      exact h.withProcess h.ledger (fun _ => id) rfl hmemory (by simp [hidle])
    · next saved hsaved =>
      cases hsettle
      obtain ⟨hevents, hdecided, hother⟩ := persist_unclaimed hsaved
      refine h.withProcess (h.ledger.congr hevents hdecided) (by simp [hdecided]) hother ?_
        (by simp [hidle])
      rw [hdecided]
      exact hmemory.quiet hquiet

/-- What a reply to a continuation says, against what was recorded before and after. -/
def Answers (s event : String) (before after : List Claim) : Reply → Prop
  | .accepted result =>
    (∃ disposition, (disposition = .accepted ∨ disposition = .busy) ∧
      result.bridgeContinuation = some disposition ∧
      after = ⟨s, event, disposition⟩ :: before) ∨
    (result.bridgeContinuation = some .duplicate ∧ after = before ∧
      (∃ claim ∈ before, claim.sessionId = s ∧ claim.externalEventId = event) ∧
      ∀ disposition, result.replayedBridgeContinuation = some disposition →
        ⟨s, event, disposition⟩ ∈ before)
  | _ => after = before

/-- What recording a decision adds. -/
theorem decided_saveClaim {i i' : Installation ι} {bridges : List SessionBridgeRecord}
    {recordedAtMs : Int} {claim : Claim} (h : i.saveClaim bridges recordedAtMs claim = some i') :
    i'.decided = claim :: i.decided ∧ i'.process = i.process := by
  obtain ⟨events, -, rfl⟩ := Option.map_eq_some_iff.1 h
  exact ⟨rfl, rfl⟩

/-- An event that is remembered is answered, and nothing is written. -/
theorem Once.repeated {s : String} {i : Installation ι} (h : Once s i) {pid : Nat}
    {process : Process ι} (hprocess : i.process pid = some process) {c : Continuation ι}
    {result : CommandAccepted} {effects : List (Effect ε)} {after : BridgeCore}
    (hrepeats : process.core.Repeats c result effects after) (hs : c.sessionId = s) :
    Answers s c.externalEventId i.decided i.decided (.accepted result) := by
  have hmemory := h.memory pid process hprocess
  obtain ⟨bridge, hbridge, hrecent, rfl, -, -⟩ := hrepeats
  obtain ⟨hmem, hid⟩ := BridgeCore.mem_of_find? hbridge
  refine .inr ⟨rfl, rfl, hmemory.recent bridge hmem (hid.trans hs) _ hrecent, ?_⟩
  intro disposition hdisposition
  obtain ⟨hfound, -⟩ := Option.filter_eq_some_iff.1 hdisposition
  rw [hs] at hfound
  exact hmemory.disposition _ _ hfound

/-- A decision is written, with its row when the event was not in the ledger. -/
theorem Once.persist {s : String} {i saved : Installation ι} (h : Once s i) {pid : Nat}
    {process : Process ι} (hprocess : i.process pid = some process) {c : Continuation ι}
    {claims : Bool} (hhandling : process.handling = some (c, claims)) {recordedAtMs : Int}
    (hclock : ∀ row ∈ i.store.inboundEvents.rows, row.2.recordedAtMs ≤ recordedAtMs)
    {createsSession diskFails : Bool} {result : CommandAccepted} {effects : List (Effect ε)}
    {after : BridgeCore} (hdecides : process.core.Decides c result effects after)
    (hsaved : i.persist (persisted effects) (claimed c claims result) recordedAtMs createsSession
      diskFails = some saved) :
    Once s (saved.withProcess pid { process with handling := none, core := after }) ∧
      (c.sessionId = s → Answers s c.externalEventId i.decided saved.decided (.accepted result)) := by
  have hmemory := h.memory pid process hprocess
  obtain ⟨bridge, disposition, changed, hbridge, hfresh, hdisposition, hresult, hpersisted, hquiet⟩ :=
    hdecides
  rw [hpersisted] at hsaved
  cases claims with
  | false =>
    have hne : c.sessionId ≠ s := by
      rintro rfl
      exact hfresh (h.handling pid process c hprocess hhandling rfl bridge hbridge)
    obtain ⟨hevents, hdecided, hother⟩ := persist_unclaimed hsaved
    refine ⟨h.withProcess (h.ledger.congr hevents hdecided) (by simp [hdecided]) hother ?_
      (by simp), fun hs => absurd hs hne⟩
    rw [hdecided]
    exact (hmemory.remember fun hs => absurd hs hne).quiet hquiet
  | true =>
    have hclaimed : claimed c true result =
        some ⟨c.sessionId, c.externalEventId, disposition⟩ := by
      rw [claimed, if_pos rfl, hresult]
      rfl
    rw [hclaimed] at hsaved
    obtain ⟨written, hevents, hdecided, hother, hclaim⟩ := persist_claimed (by simp) hsaved
    obtain ⟨hadded, hkept⟩ := decided_saveClaim hclaim
    rw [hdecided] at hadded
    have hledger := (h.ledger.congr hevents hdecided).saveClaim (by rwa [hevents]) hclaim
    have hsub : ∀ claim ∈ i.decided, claim ∈ saved.decided := fun claim hmem => by
      rw [hadded]
      exact List.mem_cons_of_mem _ hmem
    refine ⟨h.withProcess hledger hsub (hkept.trans hother) ?_ (by simp), fun hs => ?_⟩
    · refine ((hmemory.mono hsub).remember fun hs => ?_).quiet hquiet
      rw [hadded, ← hs]
      exact List.mem_cons_self
    · refine .inl ⟨disposition, hdisposition, hresult, ?_⟩
      rw [hadded, hs]

/-- A continuation of the session is recorded as it is answered, or repeats what was recorded. -/
theorem Once.decideContinuation {s : String} {i i' : Installation ι} (h : Once s i)
    {promptId : String → String} {pid : Nat} {process : Process ι}
    (hprocess : i.process pid = some process) {env : Environment ι ε} {c : Continuation ι}
    {claims : Bool} (hhandling : process.handling = some (c, claims)) {recordedAtMs : Int}
    (hclock : ∀ row ∈ i.store.inboundEvents.rows, row.2.recordedAtMs ≤ recordedAtMs)
    {createsSession diskFails : Bool} {reply : Reply}
    (hdecide : i.decideContinuation promptId pid process env c claims recordedAtMs createsSession
      diskFails = (reply, i')) :
    Once s i' ∧ (c.sessionId = s →
      Answers s c.externalEventId i.decided i'.decided reply) := by
  have hmemory := h.memory pid process hprocess
  unfold Installation.decideContinuation Installation.settle at hdecide
  dsimp only at hdecide
  cases houtcome : process.core.continueSessionFromBridge promptId env c with
  | mk result after =>
    rw [houtcome] at hdecide
    cases result with
    | error error =>
      cases hdecide
      have hafter := BridgeCore.continueSessionFromBridge_refused houtcome
      subst hafter
      exact ⟨h.withProcess h.ledger (fun _ => id) rfl hmemory (by simp), fun _ => rfl⟩
    | ok answer =>
      obtain ⟨result, effects⟩ := answer
      dsimp only at hdecide
      split at hdecide
      · cases hdecide
        exact ⟨h.withProcess h.ledger (fun _ => id) rfl hmemory (by simp), fun _ => rfl⟩
      · next saved hsaved =>
        cases hdecide
        rcases BridgeCore.continueSessionFromBridge_cases houtcome with hrepeats | hdecides
        · have hanswers := h.repeated hprocess hrepeats
          obtain ⟨-, -, -, -, rfl, rfl⟩ := hrepeats
          rw [show persisted ([] : List (Effect ε)) = [] from rfl, Installation.persist,
            if_pos rfl] at hsaved
          cases hsaved
          exact ⟨h.withProcess h.ledger (fun _ => id) rfl hmemory (by simp), hanswers⟩
        · exact h.persist hprocess hhandling hclock hdecides hsaved

/-! ## The other steps -/

/-- The rows keep no events. -/
def Bare (i : Installation ι) : Prop :=
  ∀ s row, i.store.sessionBridges.find? s = some row → row.recentInboundEventIds = []

theorem Bare.save {i i' : Installation ι} (h : Bare i) {bridge : SessionBridgeRecord}
    (hsave : i.save bridge = some i') : Bare i' := by
  obtain ⟨rows, hrows, rfl⟩ := Option.map_eq_some_iff.1 hsave
  obtain ⟨-, -, -, rfl⟩ := saveSessionBridgeOn_eq_some_iff.1 hrows
  intro s row hrow
  dsimp only at hrow
  rw [find?_saved] at hrow
  split at hrow
  · cases hrow
    rfl
  · exact h s row hrow

theorem Bare.saveAll {i i' : Installation ι} (h : Bare i) {bridges : List SessionBridgeRecord}
    (hsave : bridges.foldlM Installation.save i = some i') : Bare i' := by
  induction bridges generalizing i with
  | nil =>
    cases hsave
    exact h
  | cons bridge bridges ih =>
    rw [List.foldlM_cons] at hsave
    obtain ⟨next, hnext, hrest⟩ := Option.bind_eq_some_iff.1 hsave
    exact ih (h.save hnext) hrest

theorem Bare.persist {i i' : Installation ι} (h : Bare i) {bridges : List SessionBridgeRecord}
    {claim : Option Claim} {recordedAtMs : Int} {createsSession diskFails : Bool}
    (hsave : i.persist bridges claim recordedAtMs createsSession diskFails = some i') :
    Bare i' := by
  unfold Installation.persist at hsave
  split at hsave
  · cases hsave
    exact h
  · split at hsave
    · cases hsave
    · split at hsave
      · cases hsave
      · obtain ⟨saved, hsaved, hclaim⟩ := Option.bind_eq_some_iff.1 hsave
        have hbare := h.saveAll hsaved
        cases claim with
        | none =>
          cases hclaim
          exact hbare
        | some claim =>
          obtain ⟨events, -, rfl⟩ := Option.map_eq_some_iff.1 hclaim
          exact hbare

theorem Bare.settle {i i' : Installation ι} (h : Bare i) {pid : Nat} {process : Process ι}
    {outcome : BridgeCore.Outcome ε} {claim : CommandAccepted → Option Claim} {recordedAtMs : Int}
    {createsSession diskFails : Bool} {reply : Reply}
    (hsettle : i.settle pid process outcome claim recordedAtMs createsSession diskFails =
      (reply, i')) : Bare i' := by
  obtain ⟨result, core⟩ := outcome
  cases result with
  | error error =>
    cases hsettle
    exact h
  | ok answer =>
    obtain ⟨result, effects⟩ := answer
    simp only [Installation.settle] at hsettle
    split at hsettle
    · cases hsettle
      exact h
    · next saved hsaved =>
      cases hsettle
      have hbare := h.persist hsaved
      exact hbare

theorem Bare.archive {i i' : Installation ι} (h : Bare i) {sessionId : String} {archivedAtMs : Int}
    (harchive : i.archive sessionId archivedAtMs = some i') : Bare i' := by
  unfold Installation.archive at harchive
  split at harchive
  · cases harchive
    exact h
  · next archived harchived =>
    split at harchive
    · cases harchive
    · cases harchive
      obtain ⟨current, hcurrent, hset⟩ := Option.bind_eq_some_iff.1 harchived
      obtain ⟨-, rfl⟩ := SessionBridgeRecord.setLifecycle_eq_some_iff.1 hset
      intro s row hrow
      dsimp only at hrow
      rw [Table.find?_upsert] at hrow
      split at hrow
      · have hnil := h sessionId current hcurrent
        rw [hcurrent, Option.elim_some] at hrow
        cases hrow
        exact hnil
      · exact h s row hrow

/-- What archiving leaves alone. -/
theorem archive_inboundEvents {i i' : Installation ι} {sessionId : String} {archivedAtMs : Int}
    (harchive : i.archive sessionId archivedAtMs = some i') :
    i'.store.inboundEvents = i.store.inboundEvents ∧ i'.decided = i.decided ∧
      i'.process = i.process := by
  unfold Installation.archive at harchive
  split at harchive
  · cases harchive
    exact ⟨rfl, rfl, rfl⟩
  · split at harchive
    · cases harchive
    · cases harchive
      exact ⟨rfl, rfl, rfl⟩

/-- A server that reads the rows remembers no event. -/
theorem Bare.remembers {i : Installation ι} (h : Bare i) {s : String} (core : BridgeCore)
    {bridges : List SessionBridgeRecord}
    (hbridges : ∀ bridge ∈ bridges, bridge ∈ i.store.sessionBridges.rows.map Prod.snd)
    (hmemory : ∀ event disposition,
      core.inboundEventDispositions (s, event) = some disposition →
        (⟨s, event, disposition⟩ : Claim) ∈ i.decided) :
    BridgeCore.Remembers s i.decided { core with sessionBridges := listed bridges } where
  recent bridge hbridge _ event hevent := by
    obtain ⟨⟨sessionId, row⟩, hrow, rfl⟩ :=
      List.mem_map.1 (hbridges bridge (List.mem_mergeSort.1 hbridge))
    rw [h sessionId row (Table.find?_eq_some_iff.2 hrow)] at hevent
    cases hevent
  disposition := hmemory

/-- An event is looked up: it is remembered when the ledger has it. -/
theorem Once.lookUp {s : String} {i : Installation ι} (h : Once s i) {pid : Nat}
    {process : Process ι} (hprocess : i.process pid = some process) (c : Continuation ι) :
    Once s (i.lookUp pid process c) := by
  have hmemory := h.memory pid process hprocess
  unfold Installation.lookUp
  split
  · next row hrow =>
    refine h.withProcess h.ledger (fun _ => id) rfl (hmemory.remember fun hs => ?_) ?_
    · have hrecorded := h.ledger.recorded _ (Table.find?_eq_some_iff.1 hrow) hs
      rwa [claimOf, hs] at hrecorded
    · rintro c' hc' hs bridge hbridge
      cases hc'
      rw [← hs] at hbridge
      unfold Process.bridge? at hbridge
      dsimp only at hbridge
      cases hfind : process.core.sessionBridges.find? (·.sessionId == c.sessionId) with
      | none =>
        rw [BridgeCore.sessionBridges_rememberBridgeInboundEvent, hfind, Option.elim_none,
          hfind] at hbridge
        cases hbridge
      | some found =>
        rw [BridgeCore.find?_rememberBridgeInboundEvent _ _ hfind] at hbridge
        cases hbridge
        exact BridgeCore.mem_rememberInboundEvent found c.externalEventId
  · refine h.withProcess h.ledger (fun _ => id) rfl hmemory fun c' hc' => ?_
    cases hc'

/-- The events of another session go with it. -/
theorem Ledger.delete {s : String} {i i' : Installation ι} (h : Ledger s i) {sessionId : String}
    (hne : sessionId ≠ s) (hdecided : i'.decided = i.decided)
    (hevents : i'.store.inboundEvents =
      i.store.inboundEvents.delete fun key _ => key.1 == sessionId) : Ledger s i' := by
  obtain ⟨hspaced, hnewest, htimed, hrecorded⟩ := h
  have hrows : sessionRows i'.store.inboundEvents s = sessionRows i.store.inboundEvents s := by
    rw [hevents, sessionRows, sessionRows, Table.delete, List.filter_filter]
    congr 1
    refine List.filter_congr fun row _ => ?_
    by_cases hs : row.1.1 = s
    · simp [hs, Ne.symm hne]
    · simp [hs]
  have hsub : i'.store.inboundEvents.rows.Sublist i.store.inboundEvents.rows := by
    rw [hevents]
    exact List.filter_sublist
  refine ⟨?_, ?_, htimed.sublist (hsub.map _), ?_⟩
  · rwa [decisions, hdecided]
  · rwa [decisions, hdecided, hrows]
  · intro row hrow hs
    rw [hdecided]
    exact hrecorded row (hsub.mem hrow) hs

theorem Once.deleteSession {s : String} {i i' : Installation ι} (h : Once s i) {pid : Nat}
    {process : Process ι} (hprocess : i.process pid = some process)
    (hidle : process.handling = none) {env : Environment ι ε} {sessionId : String}
    (hne : sessionId ≠ s) {archivedAtMs : Int} {diskFails : Bool} {reply : Reply}
    (hdelete : i.deleteSession pid process env sessionId archivedAtMs diskFails = (reply, i')) :
    Once s i' := by
  have hmemory := h.memory pid process hprocess
  unfold Installation.deleteSession at hdelete
  dsimp only at hdelete
  split at hdelete
  · cases hdelete
    exact h
  · next archived harchive =>
    cases hdelete
    have harchive' : i.archive sessionId archivedAtMs = some archived := by
      split at harchive
      · cases harchive
      · exact harchive
    obtain ⟨hevents, hdecided, hother⟩ := archive_inboundEvents harchive'
    have hledger : Ledger s { archived with
        store := { archived.store with
          inboundEvents := archived.store.inboundEvents.delete fun key _ =>
            key.1 == sessionId } } :=
      h.ledger.delete hne hdecided (by rw [← hevents])
    have hquiet : process.core.Quiet (process.core.updateBridge sessionId
        (·.setLifecycle env.nowMs .archived)).2 :=
      BridgeCore.Quiet.updateBridge fun m changed hset => ⟨_, .lifecycle .archived, hset⟩
    refine h.withProcess hledger (by simp [hdecided]) hother ?_ (by simp [hidle])
    rw [hdecided]
    exact hmemory.quiet hquiet

theorem handling_noteAcceptance (process : Process ι) (before : Environment ι ε) (s : String)
    (event : ProviderEvent) :
    (process.noteAcceptance before s event).handling = process.handling := by
  unfold Process.noteAcceptance
  split
  · split <;> rfl
  · rfl

theorem Once.handleEvent {s : String} {i : Installation ι} (h : Once s i) {pid : Nat}
    {process : Process ι} (hprocess : i.process pid = some process)
    (hidle : process.handling = none) (before after : Environment ι ε) (sessionId : String)
    (event : ProviderEvent) (diskFails : Bool) :
    Once s (i.handleEvent pid process before after sessionId event diskFails) := by
  have hmemory := h.memory pid process hprocess
  have hcore := core_noteAcceptance process before sessionId event
  have hidle' := (handling_noteAcceptance process before sessionId event).trans hidle
  unfold Installation.handleEvent
  generalize process.noteAcceptance before sessionId event = noted at hcore hidle' ⊢
  rw [← hcore] at hmemory
  have hquiet := BridgeCore.Quiet.eventChanges noted before after sessionId event
  dsimp only
  split
  · exact h.withProcess h.ledger (fun _ => id) rfl hmemory (by simp [hidle'])
  · split
    · refine h.withProcess h.ledger (fun _ => id) rfl ?_ (by simp [hidle'])
      split
      · exact hmemory
      · exact hmemory.quiet hquiet
    · next saved hsaved =>
      obtain ⟨hevents, hdecided, hother⟩ := persist_unclaimed hsaved
      refine h.withProcess (h.ledger.congr hevents hdecided) (by simp [hdecided]) hother ?_
        (by simp [hidle'])
      rw [hdecided]
      exact hmemory.quiet hquiet

theorem Bare.step {promptId : String → String} {i i' : Installation ι} {action : Action ι ε}
    {reply : Reply} (h : Bare i) (hstep : i.step promptId action = some (reply, i')) :
    Bare i' := by
  cases action with
  | start pid =>
    simp only [Installation.step] at hstep
    split at hstep
    · cases hstep
      exact h
    · cases hstep
  | crash pid =>
    cases hstep
    exact h
  | refresh pid workspace =>
    obtain ⟨process, -, hstep⟩ := Option.bind_eq_some_iff.1 hstep
    split at hstep
    · cases hstep
      exact h
    · cases hstep
  | command pid env command diskFails =>
    obtain ⟨process, -, hstep⟩ := Option.bind_eq_some_iff.1 hstep
    split at hstep
    · exact h.settle (Option.some.inj hstep)
    · cases hstep
  | lookUp pid c =>
    obtain ⟨process, -, hstep⟩ := Option.bind_eq_some_iff.1 hstep
    split at hstep
    · cases hstep
      unfold Installation.lookUp
      split
      · exact h
      · exact h
    · cases hstep
  | decide pid env recordedAtMs createsSession diskFails =>
    obtain ⟨process, -, hstep⟩ := Option.bind_eq_some_iff.1 hstep
    obtain ⟨handling, -, hstep⟩ := Option.map_eq_some_iff.1 hstep
    exact h.settle hstep
  | delete pid env sessionId archivedAtMs diskFails =>
    obtain ⟨process, -, hstep⟩ := Option.bind_eq_some_iff.1 hstep
    split at hstep
    · have hdelete := Option.some.inj hstep
      unfold Installation.deleteSession at hdelete
      dsimp only at hdelete
      split at hdelete
      · cases hdelete
        exact h
      · next archived harchive =>
        cases hdelete
        split at harchive
        · cases harchive
        · have hbare := h.archive harchive
          exact hbare
    · cases hstep
  | event pid before after sessionId event diskFails =>
    obtain ⟨process, -, hstep⟩ := Option.bind_eq_some_iff.1 hstep
    split at hstep
    · cases hstep
      unfold Installation.handleEvent
      dsimp only
      split
      · exact h
      · split
        · exact h
        · next saved hsaved =>
          have hbare := h.persist hsaved
          exact hbare
    · cases hstep

/-- Every step keeps what is known of the events of a session. -/
theorem Once.step {promptId : String → String} {s : String} {i i' : Installation ι}
    {action : Action ι ε} {reply : Reply} (h : Once s i) (hbare : Bare i)
    (hsteady : Steady s i action) (hstep : i.step promptId action = some (reply, i')) :
    Once s i' := by
  cases action with
  | start pid =>
    simp only [Installation.step] at hstep
    split at hstep
    · cases hstep
      refine h.withProcess h.ledger (fun _ => id) rfl ?_ (by simp [Installation.started])
      exact hbare.remembers ⟨[], fun _ => none⟩ (fun bridge hbridge => hbridge) (by simp)
    · cases hstep
  | crash pid =>
    cases hstep
    refine ⟨h.ledger.congr rfl rfl, fun pid' process hget => ?_, fun pid' process c hget => ?_⟩
    · by_cases hpid : pid' = pid
      · subst hpid
        simp at hget
      · simp only [Function.update_of_ne hpid] at hget
        exact h.memory pid' process hget
    · by_cases hpid : pid' = pid
      · subst hpid
        simp at hget
      · simp only [Function.update_of_ne hpid] at hget
        exact h.handling pid' process c hget
  | refresh pid workspace =>
    obtain ⟨process, hprocess, hstep⟩ := Option.bind_eq_some_iff.1 hstep
    split at hstep
    · next hidle =>
      cases hstep
      have hmemory := h.memory pid process hprocess
      have hidle := Option.isNone_iff_eq_none.1 hidle
      refine h.withProcess h.ledger (fun _ => id) rfl ?_ (by simp [hidle])
      exact hbare.remembers process.core (fun bridge hbridge => List.mem_of_mem_filter hbridge)
        hmemory.disposition
    · cases hstep
  | command pid env command diskFails =>
    obtain ⟨process, hprocess, hstep⟩ := Option.bind_eq_some_iff.1 hstep
    split at hstep
    · next hidle =>
      exact h.settle_unclaimed hprocess (Option.isNone_iff_eq_none.1 hidle)
        (BridgeCore.Quiet.execute process.core env command) (Option.some.inj hstep)
    · cases hstep
  | lookUp pid c =>
    obtain ⟨process, hprocess, hstep⟩ := Option.bind_eq_some_iff.1 hstep
    split at hstep
    · cases hstep
      exact h.lookUp hprocess c
    · cases hstep
  | decide pid env recordedAtMs createsSession diskFails =>
    obtain ⟨process, hprocess, hstep⟩ := Option.bind_eq_some_iff.1 hstep
    obtain ⟨⟨c, claims⟩, hhandling, hstep⟩ := Option.map_eq_some_iff.1 hstep
    exact (h.decideContinuation hprocess hhandling hsteady hstep).1
  | delete pid env sessionId archivedAtMs diskFails =>
    obtain ⟨process, hprocess, hstep⟩ := Option.bind_eq_some_iff.1 hstep
    split at hstep
    · next hidle =>
      exact h.deleteSession hprocess (Option.isNone_iff_eq_none.1 hidle) hsteady
        (Option.some.inj hstep)
    · cases hstep
  | event pid before after sessionId event diskFails =>
    obtain ⟨process, hprocess, hstep⟩ := Option.bind_eq_some_iff.1 hstep
    split at hstep
    · next hidle =>
      cases hstep
      exact h.handleEvent hprocess (Option.isNone_iff_eq_none.1 hidle) before after sessionId
        event diskFails
    · cases hstep

/-- The system, in runs in which the session stays and its clock does not go back. -/
def steadySystem (promptId : String → String) (s : String) :
    System (Installation ι) (Action ι ε × Reply) :=
  (Installation.system promptId).restrict fun i label => Steady s i label.1

theorem steady_step (promptId : String → String) (s : String) (i : Installation ι)
    (action : Action ι ε) (reply : Reply) (hsteady : Steady s i action)
    (h : (i.step promptId action).map Prod.fst = some reply) :
    (steadySystem promptId s).next i (action, reply) (i.after promptId action) :=
  ⟨hsteady, step_after h⟩

theorem bare_initial : Bare (Installation.initial : Installation ι) := by
  intro s row hrow
  cases hrow

theorem once_initial (s : String) : Once s (Installation.initial : Installation ι) where
  ledger := ⟨trivial, by simp [decisions, Installation.initial], by simp [Installation.initial],
    by simp [Installation.initial]⟩
  memory _ _ h := by cases h
  handling _ _ _ h := by cases h

theorem once_run {promptId : String → String} {s : String} {i i' : Installation ι}
    {labels : List (Action ι ε × Reply)} (hrun : (steadySystem promptId s).Run i labels i')
    (h : Bare i ∧ Once s i) : Bare i' ∧ Once s i' :=
  hrun.invariant (Q := fun i => Bare i ∧ Once s i)
    (fun hstep hi => ⟨hi.1.step hstep.2, hi.2.step hi.1 hstep.1 hstep.2⟩) h

end Installation

/-- After every run, an event of the session was decided again only after
`maxBridgeReplayEventsPerSession` others; and whatever a server answers next to a continuation of
the session was recorded with the answer, or is a duplicate that repeats a recorded decision. -/
theorem events_decided_once {ι ε : Type} {promptId : String → String} {s : String}
    {i : Installation ι} {labels : List (Action ι ε × Reply)}
    (hrun : (Installation.steadySystem promptId s).Run .initial labels i) :
    Retention.Spaced maxBridgeReplayEventsPerSession
      ((i.decisions s).map (·.externalEventId)) ∧
    ∀ (pid : Nat) (process : Process ι) (c : Continuation ι) (claims : Bool)
      (env : Environment ι ε) (recordedAtMs : Int) (createsSession diskFails : Bool)
      (reply : Reply) (i' : Installation ι),
      i.process pid = some process → process.handling = some (c, claims) → c.sessionId = s →
      (∀ row ∈ i.store.inboundEvents.rows, row.2.recordedAtMs ≤ recordedAtMs) →
      i.step promptId (.decide pid env recordedAtMs createsSession diskFails) =
        some (reply, i') →
      Installation.Answers s c.externalEventId i.decided i'.decided reply := by
  have honce := (Installation.once_run hrun
    ⟨Installation.bare_initial, Installation.once_initial s⟩).2
  refine ⟨honce.ledger.spaced, ?_⟩
  intro pid process c claims env recordedAtMs createsSession diskFails reply i' hprocess hhandling hs
    hclock hstep
  obtain ⟨process', hprocess', hstep⟩ := Option.bind_eq_some_iff.1 hstep
  obtain ⟨⟨c', claims'⟩, hhandling', hstep⟩ := Option.map_eq_some_iff.1 hstep
  cases hprocess.symm.trans hprocess'
  cases hhandling.symm.trans hhandling'
  exact (honce.decideContinuation hprocess hhandling hclock hstep).2 hs

/-- A prompt of the thread that two servers are to continue with. -/
def greeting : Continuation Unit := ⟨"s", "d", "t", "e", "m", (), false⟩

/-- An event that the second server has decided is a duplicate for the first, once it has read the
rows again. -/
theorem events_decided_once_twice :
    ∃ (i : Installation Unit) (labels : List (Action Unit Unit × Reply)),
      (Installation.steadySystem id "s").Run .initial labels i ∧
      i.decided = [⟨"s", "e", .accepted⟩] ∧
      Retention.Spaced maxBridgeReplayEventsPerSession
        ((i.decisions "s").map (·.externalEventId)) := by
  have hrun := Transition.System.Run.cons
    (Installation.steady_step id "s" (.initial : Installation Unit)
      (.start 0 : Action Unit Unit) .nothing (by decide) (by decide +kernel)) <|
    .cons (Installation.steady_step id "s" _ (.command 0 calm
      (.createSession "s" "w" ⟨.chat, .open, "t"⟩ none) false) (.accepted { resourceId := "s" })
      (by decide) (by decide +kernel)) <|
    .cons (Installation.steady_step id "s" _ (.start 1) .nothing (by decide) (by decide +kernel)) <|
    .cons (Installation.steady_step id "s" _ (.command 1 calm
      (.bindSessionBridgeThread "s" "d" "p" "t") false) (.accepted { resourceId := "s" })
      (by decide) (by decide +kernel)) <|
    .cons (Installation.steady_step id "s" _ (.lookUp 1 greeting) .nothing (by decide)
      (by decide +kernel)) <|
    .cons (Installation.steady_step id "s" _ (.decide 1 calm 0 false false)
      (.accepted ⟨"s", some .accepted, none, none⟩) (by decide +kernel) (by decide +kernel)) <|
    .cons (Installation.steady_step id "s" _ (.refresh 0 "w") .nothing (by decide)
      (by decide +kernel)) <|
    .cons (Installation.steady_step id "s" _ (.lookUp 0 greeting) .nothing (by decide)
      (by decide +kernel)) <|
    .single (Installation.steady_step id "s" _ (.decide 0 calm 0 false false)
      (.accepted ⟨"s", some .duplicate, some .accepted, some true⟩)
      (by decide +kernel) (by decide +kernel))
  exact ⟨_, _, hrun, by decide +kernel, (events_decided_once hrun).1⟩

end Nakode.Bridges
