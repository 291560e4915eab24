import Nakode.Bridges.Sends

/-!
# No change of a bridge is lost

In every run of any number of servers, with crashes, failing writes and deletions, the versions of a
row form a history: the first one is a bridge that was opened, and each further one is a single
operation on the one before (`no_change_lost`). So no server undoes what another has written, however
old the records in its memory are, as long as what it has in memory is a version of the row. There
are two ways to break that, and `Clean` excludes them: a lifecycle command that is refused after it
has changed a record, and an event that fails to be saved without a checkpoint.
-/

namespace Nakode.Bridges

open Domain (DomainCommandError)
open Relational (Table)
open Transition
open Versions (History)

namespace Installation

variable {ι ε : Type}

/-- What a server may have in memory of a session: a version of its row, or, once it has deleted the
session, something older than the row. -/
def Known (i : Installation ι) (content : SessionBridgeRecord) : Prop :=
  (∃ v ∈ i.versions content.sessionId, v.content = content) ∨
    (content.lifecycle = .archived ∧ ∃ row, (i.versions content.sessionId).head? = some row ∧
      content.revision < row.revision)

/-- The rows are the last versions, and the versions of a row are changes of one another. -/
structure Stored (i : Installation ι) : Prop where
  row : ∀ s, i.store.sessionBridges.find? s = (i.versions s).head?
  history : ∀ s, History (Opened s) Changes (i.versions s)

/-- What every server has in memory is known. -/
structure Recorded (i : Installation ι) : Prop extends Stored i where
  known : ∀ pid process, i.process pid = some process →
    ∀ content ∈ process.core.contents, Known i content

/-- Later, with more versions of the rows. -/
def Grows (i i' : Installation ι) : Prop := ∀ s, i.versions s <:+ i'.versions s

theorem Grows.trans {i i' i'' : Installation ι} (h : Grows i i') (h' : Grows i' i'') :
    Grows i i'' := fun s => (h s).trans (h' s)

theorem revision_changes (v w : SessionBridgeRecord) (h : Changes v w) :
    w.revision = v.revision + 1 := h.revision_eq

/-- What all versions of a row have in common. -/
theorem Stored.version {i : Installation ι} (h : Stored i) {s : String} :
    ∀ v ∈ i.versions s, v.sessionId = s ∧ v.recentInboundEventIds = [] ∧ 1 ≤ v.revision := by
  refine (h.history s).forall_mem ?_ ?_
  · rintro v ⟨workspace, displayTitle, intent, nowMs, rfl⟩
    exact ⟨rfl, rfl, Nat.le_refl 1⟩
  · rintro v w hvw ⟨hs, hevents, hrevision⟩
    have hnext := hvw.revision_eq
    obtain ⟨⟨nowMs, action, hact⟩, -⟩ := hvw
    obtain ⟨hid, -, -, -, -, hkept⟩ := SessionBridgeRecord.act_keeps hact
    exact ⟨hid.trans hs, hkept.trans hevents, by omega⟩

theorem Stored.find?_eq_some {i : Installation ι} (h : Stored i) {s : String}
    {row : SessionBridgeRecord} (hrow : i.store.sessionBridges.find? s = some row) :
    ∃ older, i.versions s = row :: older := by
  rw [h.row s] at hrow
  cases hversions : i.versions s with
  | nil =>
    rw [hversions] at hrow
    cases hrow
  | cons v older =>
    rw [hversions] at hrow
    cases hrow
    exact ⟨older, rfl⟩

/-- What was known stays known. -/
theorem Known.mono {i i' : Installation ι} {content : SessionBridgeRecord} (h : Known i content)
    (hgrows : Grows i i') (hstored : Stored i') : Known i' content := by
  rcases h with ⟨v, hv, hcontent⟩ | ⟨harchived, row, hrow, hlt⟩
  · exact .inl ⟨v, (hgrows _).mem hv, hcontent⟩
  · refine .inr ⟨harchived, ?_⟩
    obtain ⟨newer, hnewer⟩ := hgrows content.sessionId
    have hmem : row ∈ i'.versions content.sessionId :=
      (hgrows _).mem (List.mem_of_head? hrow)
    cases hversions : i'.versions content.sessionId with
    | nil =>
      rw [hversions] at hmem
      cases hmem
    | cons last older =>
      refine ⟨last, rfl, ?_⟩
      rw [hversions] at hmem
      rcases List.mem_cons.1 hmem with rfl | hmem
      · exact hlt
      · have hhistory := hversions ▸ hstored.history content.sessionId
        exact hlt.trans (hhistory.revision_lt revision_changes hmem)

/-! ## Saving a record -/

theorem supersedes_eq_false_iff {current bridge : SessionBridgeRecord} :
    supersedes current bridge = false ↔
      current = bridge.row ∨ current.revision < bridge.revision := by
  have hrow : bridge.row.revision = bridge.revision := rfl
  simp only [supersedes, Bool.or_eq_false_iff, decide_eq_false_iff_not, Bool.and_eq_false_iff,
    beq_eq_false_iff_ne, bne_eq_false_iff_eq]
  constructor
  · rintro ⟨hle, hne | heq⟩
    · exact .inr (by omega)
    · exact .inl heq
  · rintro (rfl | hlt)
    · exact ⟨by omega, .inr rfl⟩
    · exact ⟨by omega, .inl (by omega)⟩

theorem saveSessionBridgeOn_eq_some_iff {rows rows' : Table String SessionBridgeRecord}
    {bridge : SessionBridgeRecord} :
    saveSessionBridgeOn rows bridge = some rows' ↔
      bridge.revision ≤ i64Max ∧
      (∀ current, rows.find? bridge.sessionId = some current →
        current = bridge.row ∨ current.revision < bridge.revision) ∧
      threadTaken rows bridge = false ∧
      rows' = rows.upsert bridge.sessionId bridge.row fun _ => bridge.row := by
  simp only [saveSessionBridgeOn, Option.ite_none_left_eq_some, Option.some.injEq, not_lt,
    Bool.not_eq_true, eq_comm (b := rows'), ← supersedes_eq_false_iff]
  cases rows.find? bridge.sessionId with
  | none => simp
  | some current => simp

theorem find?_saved (rows : Table String SessionBridgeRecord) (bridge : SessionBridgeRecord)
    (s : String) :
    (rows.upsert bridge.sessionId bridge.row fun _ => bridge.row).find? s =
      if s = bridge.sessionId then some bridge.row else rows.find? s := by
  rw [Table.find?_upsert]
  split
  · next h =>
    subst h
    cases rows.find? bridge.sessionId <;> rfl
  · rfl

/-- What a save leaves alone, and that the record is known then. -/
structure Kept (i i' : Installation ι) : Prop extends Stored i' where
  grows : Grows i i'
  process : i'.process = i.process

theorem Stored.kept {i : Installation ι} (h : Stored i) : Kept i i :=
  ⟨h, fun _ => List.suffix_rfl, rfl⟩

theorem Kept.trans {i i' i'' : Installation ι} (h : Kept i i') (h' : Kept i' i'') :
    Kept i i'' :=
  ⟨h'.toStored, h.grows.trans h'.grows, h'.process.trans h.process⟩

theorem Kept.known {i i' : Installation ι} (h : Kept i i') {content : SessionBridgeRecord}
    (hknown : Known i content) : Known i' content :=
  hknown.mono h.grows h.toStored

/-- A further version of a row: the bridge is opened, or the row is changed. -/
theorem Stored.push {i i' : Installation ι} (h : Stored i) {s : String}
    {new : SessionBridgeRecord}
    (hnew : (i.versions s = [] ∧ Opened s new) ∨
      ∃ current older, i.versions s = current :: older ∧ Changes current new)
    (hrows : ∀ s', i'.store.sessionBridges.find? s' =
      if s' = s then some new else i.store.sessionBridges.find? s')
    (hversions : i'.versions = Function.update i.versions s (new :: i.versions s))
    (hprocess : i'.process = i.process) : Kept i i' where
  row s' := by
    rw [hrows, hversions]
    by_cases hs : s' = s
    · rw [if_pos hs, hs, Function.update_self]
      rfl
    · rw [if_neg hs, Function.update_of_ne hs, h.row]
  history s' := by
    rw [hversions]
    by_cases hs : s' = s
    · rw [hs, Function.update_self]
      rcases hnew with ⟨hnil, hopened⟩ | ⟨current, older, hcurrent, hchanges⟩
      · rw [hnil]
        exact .first hopened
      · have hhistory := h.history s
        rw [hcurrent] at hhistory ⊢
        exact .next hhistory hchanges
    · rw [Function.update_of_ne hs]
      exact h.history s'
  grows s' := by
    rw [hversions]
    by_cases hs : s' = s
    · rw [hs, Function.update_self]
      exact List.suffix_cons _ _
    · rw [Function.update_of_ne hs]
  process := hprocess

theorem content_row (bridge : SessionBridgeRecord) : bridge.row.content = bridge.content := rfl

/-- A record that may be saved is a change of the stored row, or a first row, unless it is stored
already. -/
theorem Stored.written {i : Installation ι} (h : Stored i) {bridge : SessionBridgeRecord}
    (hwritten : Written (Known i) bridge) (hrevision : bridge.revision ≤ i64Max)
    (hnewer : ∀ current, i.store.sessionBridges.find? bridge.sessionId = some current →
      current.revision < bridge.revision) :
    (i.versions bridge.sessionId = [] ∧ Opened bridge.sessionId bridge.row) ∨
      ∃ current older, i.versions bridge.sessionId = current :: older ∧
        Changes current bridge.row := by
  rcases hwritten with ⟨m, nowMs, action, hknown, hact⟩ | hopened
  · obtain ⟨hid, -, -, -, hadd, -⟩ := SessionBridgeRecord.act_keeps hact
    have hle : bridge.revision ≤ m.revision + 1 := by
      rw [hadd]
      exact Nat.min_le_left _ _
    have hid' : m.content.sessionId = bridge.sessionId := hid.symm
    rw [Known, hid'] at hknown
    rcases hknown with ⟨v, hv, hcontent⟩ | ⟨-, row, hrow, hlt⟩
    · cases hversions : i.versions bridge.sessionId with
      | nil =>
        rw [hversions] at hv
        cases hv
      | cons current older =>
        have hhistory := hversions ▸ h.history bridge.sessionId
        have hcurrent := hnewer current (by rw [h.row, hversions]; rfl)
        have hv' : v.content.revision = m.content.revision := by rw [hcontent]
        change v.revision = m.revision at hv'
        have heq : v = current := by
          have htaken : v = current ∨ current = bridge :=
            hhistory.eq_of_taken revision_changes (hversions ▸ hv) (by omega) (.inl hcurrent)
          refine htaken.resolve_right ?_
          rintro rfl
          omega
        subst heq
        refine .inr ⟨v, older, rfl, ⟨nowMs, action, ?_⟩, hrevision⟩
        exact SessionBridgeRecord.act_of_content hcontent.symm (h.version v hv).2.1 hact
    · have hcurrent := hnewer row (by rw [h.row, hrow])
      have hm : m.content.revision = m.revision := rfl
      omega
  · obtain ⟨workspace, displayTitle, intent, nowMs, hopened⟩ := hopened
    have hone : bridge.revision = 1 := by
      rw [hopened]
      rfl
    cases hversions : i.versions bridge.sessionId with
    | nil =>
      refine .inl ⟨rfl, workspace, displayTitle, intent, nowMs, ?_⟩
      conv_lhs => rw [hopened]
      rfl
    | cons current older =>
      have hcurrent := hnewer current (by rw [h.row, hversions]; rfl)
      have hpos := (h.version current (hversions ▸ List.mem_cons_self)).2.2
      omega

theorem Stored.save {i i' : Installation ι} (h : Stored i) {bridge : SessionBridgeRecord}
    (hwritten : Written (Known i) bridge) (hsave : i.save bridge = some i') :
    Kept i i' ∧ Known i' bridge.content := by
  obtain ⟨rows, hrows, rfl⟩ := Option.map_eq_some_iff.1 hsave
  obtain ⟨hrevision, hnewer, -, rfl⟩ := saveSessionBridgeOn_eq_some_iff.1 hrows
  by_cases hstored : i.store.sessionBridges.find? bridge.sessionId = some bridge.row
  · have hkept : Kept i { i with
        store := { i.store with
          sessionBridges := i.store.sessionBridges.upsert bridge.sessionId bridge.row
            fun _ => bridge.row } } := by
      refine ⟨⟨fun s => ?_, h.history⟩, fun _ => List.suffix_rfl, rfl⟩
      show (i.store.sessionBridges.upsert _ _ _).find? s = _
      rw [find?_saved]
      split
      · next hs => rw [hs, ← h.row, hstored]
      · exact h.row s
    simp only [if_pos hstored]
    obtain ⟨older, holder⟩ := h.find?_eq_some hstored
    exact ⟨hkept, .inl ⟨bridge.row, holder ▸ List.mem_cons_self, content_row bridge⟩⟩
  · simp only [if_neg hstored]
    have hchange := h.written hwritten hrevision fun current hcurrent =>
      (hnewer current hcurrent).resolve_left fun heq => hstored (heq ▸ hcurrent)
    refine ⟨h.push hchange (fun s => find?_saved _ _ s) rfl rfl, .inl ⟨bridge.row, ?_, rfl⟩⟩
    show bridge.row ∈ Function.update i.versions bridge.sessionId _ bridge.sessionId
    rw [Function.update_self]
    exact List.mem_cons_self

/-- Records are saved one after another. -/
theorem Stored.saveAll {i i' : Installation ι} (h : Stored i)
    {known : SessionBridgeRecord → Prop} {bridges : List SessionBridgeRecord}
    (hwrites : Writes known bridges) (hknown : ∀ content, known content → Known i content)
    (hsave : bridges.foldlM Installation.save i = some i') :
    Kept i i' ∧ ∀ b ∈ bridges, Known i' b.content := by
  induction hwrites generalizing i with
  | nil =>
    cases hsave
    exact ⟨h.kept, by simp⟩
  | cons hwritten _ ih =>
    rw [List.foldlM_cons] at hsave
    obtain ⟨next, hnext, hrest⟩ := Option.bind_eq_some_iff.1 hsave
    obtain ⟨hkept, hbridge⟩ := h.save (hwritten.mono hknown) hnext
    obtain ⟨hkept', hbridges⟩ := ih hkept.toStored (fun content hcontent => by
      rcases hcontent with hcontent | rfl
      · exact hkept.known (hknown _ hcontent)
      · exact hbridge) hrest
    refine ⟨hkept.trans hkept', List.forall_mem_cons.2 ⟨?_, hbridges⟩⟩
    exact hkept'.known hbridge

theorem Stored.commit {i i' : Installation ι} (h : Stored i)
    {known : SessionBridgeRecord → Prop} {bridges : List SessionBridgeRecord}
    {claim : Option Claim} {recordedAtMs : Int}
    (hwrites : Writes known bridges) (hknown : ∀ content, known content → Known i content)
    (hcommit : i.commit bridges claim recordedAtMs = some i') :
    Kept i i' ∧ ∀ b ∈ bridges, Known i' b.content := by
  obtain ⟨saved, hsaved, hclaim⟩ := Option.bind_eq_some_iff.1 hcommit
  obtain ⟨hkept, hbridges⟩ := h.saveAll hwrites hknown hsaved
  cases claim with
  | none =>
    cases hclaim
    exact ⟨hkept, hbridges⟩
  | some claim =>
    obtain ⟨events, -, rfl⟩ := Option.map_eq_some_iff.1 hclaim
    exact ⟨⟨⟨hkept.row, hkept.history⟩, hkept.grows, hkept.process⟩, hbridges⟩

theorem Stored.persist {i i' : Installation ι} (h : Stored i)
    {known : SessionBridgeRecord → Prop} {bridges : List SessionBridgeRecord}
    {claim : Option Claim} {recordedAtMs : Int} {createsSession diskFails : Bool}
    (hwrites : Writes known bridges) (hknown : ∀ content, known content → Known i content)
    (hpersist : i.persist bridges claim recordedAtMs createsSession diskFails = some i') :
    Kept i i' ∧ ∀ b ∈ bridges, Known i' b.content := by
  unfold Installation.persist at hpersist
  split at hpersist
  · next hnil =>
    cases hpersist
    exact ⟨h.kept, by simp [hnil]⟩
  · split at hpersist
    · cases hpersist
    · split at hpersist
      · cases hpersist
      · exact h.commit hwrites hknown hpersist

/-! ## What a step does -/

/-- A server with other bridges in memory, after a change of the database. -/
theorem Recorded.withProcess {i i' : Installation ι} (h : Recorded i) (hkept : Kept i i')
    {pid : Nat} {process : Process ι}
    (hprocess : ∀ content ∈ process.core.contents, Known i' content) :
    Recorded (i'.withProcess pid process) where
  toStored := ⟨hkept.row, hkept.history⟩
  known pid' process' hget content hcontent := by
    by_cases hpid : pid' = pid
    · subst hpid
      simp only [Installation.withProcess, Function.update_self, Option.some.injEq] at hget
      subst hget
      exact hprocess content hcontent
    · simp only [Installation.withProcess, Function.update_of_ne hpid] at hget
      rw [hkept.process] at hget
      exact hkept.known (h.known pid' process' hget content hcontent)

/-- What a server has in memory after it has sent something. -/
theorem Kept.sent {i i' : Installation ι} (hkept : Kept i i') {core after : BridgeCore}
    {bridges : List SessionBridgeRecord} (hsends : core.Sends bridges after)
    (hknown : ∀ content ∈ core.contents, Known i content)
    (hsaved : ∀ b ∈ bridges, Known i' b.content) :
    ∀ content ∈ after.contents, Known i' content := by
  intro content hcontent
  rcases hsends.memory content hcontent with hcontent | ⟨b, hb, rfl⟩
  · exact hkept.known (hknown content hcontent)
  · exact hsaved b hb

/-- A command that sends what it may send, and changes nothing when it is refused. -/
theorem Recorded.settle {i i' : Installation ι} (h : Recorded i) {pid : Nat}
    (process : Process ι) {outcome : BridgeCore.Outcome ε}
    {claim : CommandAccepted → Option Claim} {recordedAtMs : Int}
    {createsSession diskFails : Bool} {reply : Reply}
    (hknown : ∀ content ∈ process.core.contents, Known i content)
    (hsends : ∀ result effects, outcome.1 = .ok (result, effects) →
      process.core.Sends (persisted effects) outcome.2)
    (hrefused : ∀ error, outcome.1 = .error error → outcome.2 = process.core)
    (hsettle : i.settle pid process outcome claim recordedAtMs createsSession diskFails =
      (reply, i')) : Recorded i' ∧ Grows i i' := by
  obtain ⟨result, core⟩ := outcome
  have hstored := h.toStored
  cases result with
  | error error =>
    cases hsettle
    have hcore : core = process.core := hrefused error rfl
    subst hcore
    exact ⟨h.withProcess hstored.kept hknown, hstored.kept.grows⟩
  | ok answer =>
    obtain ⟨result, effects⟩ := answer
    have hsends := hsends result effects rfl
    simp only [Installation.settle] at hsettle
    split at hsettle
    · cases hsettle
      exact ⟨h.withProcess hstored.kept hknown, hstored.kept.grows⟩
    · next saved hsaved =>
      cases hsettle
      obtain ⟨hkept, hbridges⟩ := hstored.persist hsends.writes hknown hsaved
      exact ⟨h.withProcess hkept (hkept.sent hsends hknown hbridges), hkept.grows⟩

theorem Recorded.lookUp {i : Installation ι} (h : Recorded i) {pid : Nat} {process : Process ι}
    (hknown : ∀ content ∈ process.core.contents, Known i content) (c : Continuation ι) :
    Recorded (i.lookUp pid process c) ∧ Grows i (i.lookUp pid process c) := by
  have hkept := h.toStored.kept
  unfold Installation.lookUp
  split
  · exact ⟨h.withProcess hkept fun content hcontent =>
      hknown content (BridgeCore.contents_rememberBridgeInboundEvent hcontent), hkept.grows⟩
  · exact ⟨h.withProcess hkept hknown, hkept.grows⟩

/-- The rows are known. -/
theorem Stored.known_row {i : Installation ι} (h : Stored i) {row : SessionBridgeRecord}
    (hrow : row ∈ i.store.sessionBridges.rows.map Prod.snd) : Known i row.content := by
  obtain ⟨⟨s, row⟩, hmem, rfl⟩ := List.mem_map.1 hrow
  obtain ⟨older, holder⟩ := h.find?_eq_some (Table.find?_eq_some_iff.2 hmem)
  have hversion : row ∈ i.versions s := holder ▸ List.mem_cons_self
  obtain ⟨hid, -, -⟩ := h.version row hversion
  refine .inl ⟨row, ?_, rfl⟩
  show row ∈ i.versions row.sessionId
  rwa [hid]

theorem Stored.known_listed {i : Installation ι} (h : Stored i)
    {rows : List SessionBridgeRecord}
    (hrows : ∀ row ∈ rows, row ∈ i.store.sessionBridges.rows.map Prod.snd)
    {content : SessionBridgeRecord} (hcontent : content ∈ (listed rows).map (·.content)) :
    Known i content := by
  obtain ⟨row, hrow, rfl⟩ := List.mem_map.1 hcontent
  exact h.known_row (hrows row (List.mem_mergeSort.1 hrow))

/-- Only the lifecycle operation changes the lifecycle. -/
theorem setLifecycle_of_act {v w : SessionBridgeRecord} {nowMs : Int} {action : RecordAction}
    (h : v.act nowMs action = some w) (hne : v.lifecycle ≠ w.lifecycle) :
    w = { v with lifecycle := w.lifecycle }.bumpBridgeRevision nowMs := by
  cases action with
  | lifecycle lifecycle =>
    obtain ⟨-, rfl⟩ := SessionBridgeRecord.setLifecycle_eq_some_iff.1 h
    rfl
  | bind transport externalParentId externalThreadId =>
    obtain ⟨-, rfl⟩ := SessionBridgeRecord.bindThread_eq_some_iff.1 (changedBy_eq_some_iff.1 h)
    exact absurd rfl hne
  | clear transport externalThreadId =>
    obtain ⟨-, rfl⟩ := SessionBridgeRecord.clearThread_eq_some_iff.1 (changedBy_eq_some_iff.1 h)
    exact absurd rfl hne
  | prepare projectionKind turnId expected bodySha256 partCount =>
    obtain ⟨-, rfl⟩ :=
      SessionBridgeRecord.prepareDelivery_eq_some_iff.1 (changedBy_eq_some_iff.1 h)
    exact absurd rfl hne
  | complete projectionKind turnId partIndex externalMessageId =>
    obtain ⟨delivery, -, rfl⟩ :=
      SessionBridgeRecord.completeDeliveryPart_eq_some_iff.1 (changedBy_eq_some_iff.1 h)
    exact absurd rfl hne
  | finalize projectionKind turnId clearSource =>
    obtain ⟨delivery, -, rfl⟩ :=
      SessionBridgeRecord.finalizeDelivery_eq_some_iff.1 (changedBy_eq_some_iff.1 h)
    exact absurd rfl hne
  | live turnId externalMessageId clearSource =>
    obtain ⟨-, rfl⟩ := SessionBridgeRecord.setLiveMessage_eq_some_iff.1 (changedBy_eq_some_iff.1 h)
    exact absurd rfl hne
  | accept sourceMessageId pending =>
    obtain ⟨-, rfl⟩ := SessionBridgeRecord.act_accept_eq_some_iff.1 h
    exact absurd rfl hne
  | consume =>
    cases h
    exact absurd rfl hne
  | origin turnId sourceTransport =>
    obtain ⟨-, rfl⟩ := SessionBridgeRecord.recordTurnOrigin_eq_some_iff.1 h
    exact absurd rfl hne
  | acknowledge clientPromptId =>
    obtain ⟨-, rfl⟩ := SessionBridgeRecord.acknowledgePrompt_eq_some_iff.1 h
    exact absurd rfl hne

theorem content_setLifecycle {m v : SessionBridgeRecord} (h : m.content = v.content)
    (lifecycle : BridgeLifecycle) (nowMs nowMs' : Int) :
    ({ m with lifecycle }.bumpBridgeRevision nowMs).content =
      ({ v with lifecycle }.bumpBridgeRevision nowMs').content := by
  rw [SessionBridgeRecord.eq_restamp_of_content h]
  rfl

/-- A record in memory that is archived with the deletion of its session: the one before the
current row is archived to it, and an older one stays older. -/
theorem Stored.known_archived {i i' : Installation ι} (h : Stored i)
    {m changed row current : SessionBridgeRecord} {older : List SessionBridgeRecord} {nowMs : Int}
    (hknown : Known i m.content) (hchanged : m.setLifecycle nowMs .archived = some changed)
    (hversions : i.versions m.sessionId = current :: older)
    (hrow : (i'.versions m.sessionId).head? = some row)
    (hcurrent : (row = current ∧ current.lifecycle = .archived) ∨
      ∃ archivedAtMs, current.setLifecycle archivedAtMs .archived = some row ∧
        row.revision = current.revision + 1) :
    Known i' changed.content := by
  obtain ⟨hlifecycle, rfl⟩ := SessionBridgeRecord.setLifecycle_eq_some_iff.1 hchanged
  have hle : saturatingAdd m.revision 1 ≤ m.revision + 1 := Nat.min_le_left _ _
  have hmem : row ∈ i'.versions m.sessionId := List.mem_of_head? hrow
  have hhistory := hversions ▸ h.history m.sessionId
  rcases hknown with ⟨v, hv, hcontent⟩ | ⟨harchived, -⟩
  · have hrevision : v.content.revision = m.content.revision := by rw [hcontent]
    have hopen : v.content.lifecycle = m.content.lifecycle := by rw [hcontent]
    change v.revision = m.revision at hrevision
    change v.lifecycle = m.lifecycle at hopen
    change v ∈ i.versions m.sessionId at hv
    rw [hversions] at hv
    rcases hcurrent with ⟨rfl, harchived⟩ | ⟨archivedAtMs, hset, hnext⟩
    · have hv' : v ∈ older := (List.mem_cons.1 hv).resolve_left (by
        rintro rfl
        exact hlifecycle (hopen.symm.trans harchived))
      have hlt := hhistory.revision_lt revision_changes hv'
      by_cases hlast : row.revision = v.revision + 1
      · obtain ⟨⟨at_, action, hact⟩, -⟩ := hhistory.next_of_revision revision_changes hv' hlast
        have hne : v.lifecycle ≠ row.lifecycle := by
          rw [hopen, harchived]
          exact hlifecycle
        have hrow' := setLifecycle_of_act hact hne
        rw [harchived] at hrow'
        refine .inl ⟨row, hmem, ?_⟩
        rw [hrow']
        exact content_setLifecycle hcontent .archived _ _
      · refine .inr ⟨rfl, row, hrow, ?_⟩
        show saturatingAdd m.revision 1 < row.revision
        omega
    · rcases List.mem_cons.1 hv with rfl | hv'
      · obtain ⟨-, rfl⟩ := SessionBridgeRecord.setLifecycle_eq_some_iff.1 hset
        exact .inl ⟨_, hmem, content_setLifecycle hcontent .archived _ _⟩
      · have hlt := hhistory.revision_lt revision_changes hv'
        refine .inr ⟨rfl, row, hrow, ?_⟩
        show saturatingAdd m.revision 1 < row.revision
        omega
  · exact absurd harchived hlifecycle

/-- The row of a deleted session is archived, and its records in memory with it. -/
theorem Stored.archive {i i' : Installation ι} (h : Stored i) {s : String} {archivedAtMs : Int}
    (harchive : i.archive s archivedAtMs = some i') :
    Kept i i' ∧ ∀ (m changed : SessionBridgeRecord) (nowMs : Int), m.sessionId = s →
      Known i m.content → m.setLifecycle nowMs .archived = some changed →
      Known i' changed.content := by
  unfold Installation.archive at harchive
  split at harchive
  · next hnone =>
    cases harchive
    refine ⟨h.kept, fun m changed nowMs hm hknown hchanged => ?_⟩
    subst hm
    cases hversions : i.versions m.sessionId with
    | nil =>
      rcases hknown with ⟨v, hv, -⟩ | ⟨-, row, hrow, -⟩
      · change v ∈ i.versions m.sessionId at hv
        rw [hversions] at hv
        cases hv
      · change (i.versions m.sessionId).head? = some row at hrow
        rw [hversions] at hrow
        cases hrow
    | cons current older =>
      have hrow : i.store.sessionBridges.find? m.sessionId = some current := by
        rw [h.row, hversions]
        rfl
      rw [hrow, Option.bind_some, SessionBridgeRecord.setLifecycle] at hnone
      have harchived : current.lifecycle = .archived := by
        by_contra hne
        rw [if_neg hne] at hnone
        cases hnone
      exact h.known_archived hknown hchanged hversions (by rw [hversions]; rfl)
        (.inl ⟨rfl, harchived⟩)
  · next archived harchived =>
    split at harchive
    · cases harchive
    · next hrevision =>
      cases harchive
      obtain ⟨current, hcurrent, hset⟩ := Option.bind_eq_some_iff.1 harchived
      obtain ⟨older, hversions⟩ := h.find?_eq_some hcurrent
      have hchanges : Changes current archived :=
        ⟨⟨archivedAtMs, .lifecycle .archived, hset⟩, not_lt.1 hrevision⟩
      have hkept : Kept i { i with
          store := { i.store with
            sessionBridges := i.store.sessionBridges.upsert s archived fun _ => archived }
          versions := Function.update i.versions s (archived :: i.versions s) } := by
        refine h.push (.inr ⟨current, older, hversions, hchanges⟩) (fun s' => ?_) rfl rfl
        show (i.store.sessionBridges.upsert s archived fun _ => archived).find? s' = _
        rw [Table.find?_upsert, hcurrent]
        rfl
      refine ⟨hkept, fun m changed nowMs hm hknown hchanged => ?_⟩
      subst hm
      refine h.known_archived hknown hchanged hversions ?_
        (.inr ⟨archivedAtMs, hset, hchanges.revision_eq⟩)
      show (Function.update i.versions m.sessionId _ m.sessionId).head? = _
      rw [Function.update_self]
      rfl

/-- A record in memory is found under its session, and the others are left. -/
theorem Recorded.deleteSession {i i' : Installation ι} (h : Recorded i) {pid : Nat}
    {process : Process ι} {env : Environment ι ε} {s : String} {archivedAtMs : Int}
    {diskFails : Bool} {reply : Reply}
    (hknown : ∀ content ∈ process.core.contents, Known i content)
    (hdelete : i.deleteSession pid process env s archivedAtMs diskFails = (reply, i')) :
    Recorded i' ∧ Grows i i' := by
  unfold Installation.deleteSession at hdelete
  dsimp only at hdelete
  split at hdelete
  · cases hdelete
    exact ⟨h, h.toStored.kept.grows⟩
  · next archived harchive =>
    cases hdelete
    have harchive' : i.archive s archivedAtMs = some archived := by
      split at harchive
      · cases harchive
      · exact harchive
    obtain ⟨hkept, hchanged⟩ := h.toStored.archive harchive'
    have hkept' : Kept i { archived with
        store := { archived.store with
          inboundEvents := archived.store.inboundEvents.delete fun key _ => key.1 == s } } :=
      ⟨⟨hkept.row, hkept.history⟩, hkept.grows, hkept.process⟩
    refine ⟨h.withProcess hkept' fun content hcontent => ?_, hkept.grows⟩
    unfold BridgeCore.updateBridge at hcontent
    split at hcontent
    · next changed hfound =>
      obtain ⟨m, hm, hset⟩ := Option.bind_eq_some_iff.1 hfound
      obtain ⟨hmem, hid⟩ := BridgeCore.mem_of_find? hm
      rcases BridgeCore.mem_contents_setBridge hcontent with hcontent | rfl
      · exact hkept'.known (hknown content hcontent)
      · exact hchanged m changed env.nowMs hid (hknown _ (BridgeCore.mem_contents hmem)) hset
    · exact hkept'.known (hknown content hcontent)

theorem core_noteAcceptance (process : Process ι) (before : Environment ι ε) (s : String)
    (event : ProviderEvent) : (process.noteAcceptance before s event).core = process.core := by
  unfold Process.noteAcceptance
  split
  · split <;> rfl
  · rfl

/-- What breaks the tie between the memory of a server and the rows: a command that is refused once
it has changed a record, and an event that cannot be saved and has no checkpoint to go back to. -/
def Clean (i : Installation ι) : Action ι ε → Prop
  | .command pid env command _ => ∀ process, i.process pid = some process →
    ∀ error core, process.core.execute env command = (.error error, core) → core = process.core
  | .event pid before after s event diskFails => ∀ process, i.process pid = some process →
    i.persist ((process.noteAcceptance before s event).eventChanges before after s event).1 none 0
        false diskFails = none →
      (process.noteAcceptance before s event).checkpointsEvent before s event = true
  | _ => True

theorem Recorded.handleEvent {i : Installation ι} (h : Recorded i) {pid : Nat}
    {process : Process ι} {before after : Environment ι ε} {s : String} {event : ProviderEvent}
    {diskFails : Bool} (hprocess : i.process pid = some process)
    (hclean : Clean i (.event pid before after s event diskFails))
    (hknown : ∀ content ∈ process.core.contents, Known i content) :
    Recorded (i.handleEvent pid process before after s event diskFails) ∧
      Grows i (i.handleEvent pid process before after s event diskFails) := by
  have hkept := h.toStored.kept
  have hcore := core_noteAcceptance process before s event
  have hclean := hclean process hprocess
  unfold Installation.handleEvent
  generalize process.noteAcceptance before s event = noted at hcore hclean ⊢
  rw [← hcore] at hknown
  dsimp only
  split
  · exact ⟨h.withProcess hkept hknown, hkept.grows⟩
  · have hsends := noted.eventChanges_sends before after s event
    split
    · next hfailed =>
      rw [hclean hfailed]
      exact ⟨h.withProcess hkept hknown, hkept.grows⟩
    · next saved hsaved =>
      obtain ⟨hkept, hbridges⟩ := h.toStored.persist hsends.writes hknown hsaved
      exact ⟨h.withProcess hkept (hkept.sent hsends hknown hbridges), hkept.grows⟩

theorem Recorded.step {promptId : String → String} {i i' : Installation ι} {action : Action ι ε}
    {reply : Reply} (h : Recorded i) (hclean : Clean i action)
    (hstep : i.step promptId action = some (reply, i')) : Recorded i' ∧ Grows i i' := by
  have hkept := h.toStored.kept
  cases action with
  | start pid =>
    simp only [Installation.step] at hstep
    split at hstep
    · cases hstep
      refine ⟨h.withProcess hkept fun content hcontent => ?_, hkept.grows⟩
      exact h.toStored.known_listed (fun row hrow => hrow) hcontent
    · cases hstep
  | crash pid =>
    cases hstep
    refine ⟨⟨⟨h.row, h.history⟩, fun pid' process hget => ?_⟩, hkept.grows⟩
    by_cases hpid : pid' = pid
    · subst hpid
      simp at hget
    · simp only [Function.update_of_ne hpid] at hget
      exact h.known pid' process hget
  | refresh pid workspace =>
    obtain ⟨process, hprocess, hstep⟩ := Option.bind_eq_some_iff.1 hstep
    split at hstep
    · cases hstep
      refine ⟨h.withProcess hkept fun content hcontent => ?_, hkept.grows⟩
      exact h.toStored.known_listed (fun row hrow => List.mem_of_mem_filter hrow) hcontent
    · cases hstep
  | command pid env command diskFails =>
    obtain ⟨process, hprocess, hstep⟩ := Option.bind_eq_some_iff.1 hstep
    split at hstep
    · refine h.settle process (h.known pid process hprocess) (fun result effects hok => ?_)
        (fun error herror => ?_) (Option.some.inj hstep)
      · exact BridgeCore.execute_ok (Prod.ext hok rfl)
      · exact hclean process hprocess error _ (Prod.ext herror rfl)
    · cases hstep
  | lookUp pid c =>
    obtain ⟨process, hprocess, hstep⟩ := Option.bind_eq_some_iff.1 hstep
    split at hstep
    · cases hstep
      exact h.lookUp (h.known pid process hprocess) c
    · cases hstep
  | decide pid env recordedAtMs createsSession diskFails =>
    obtain ⟨process, hprocess, hstep⟩ := Option.bind_eq_some_iff.1 hstep
    obtain ⟨handling, -, hstep⟩ := Option.map_eq_some_iff.1 hstep
    refine h.settle { process with handling := none } (h.known pid process hprocess)
      (fun result effects hok => ?_) (fun error herror => ?_) hstep
    · exact BridgeCore.continueSessionFromBridge_ok (Prod.ext hok rfl)
    · exact BridgeCore.continueSessionFromBridge_refused (Prod.ext herror rfl)
  | delete pid env s archivedAtMs diskFails =>
    obtain ⟨process, hprocess, hstep⟩ := Option.bind_eq_some_iff.1 hstep
    split at hstep
    · exact h.deleteSession (h.known pid process hprocess) (Option.some.inj hstep)
    · cases hstep
  | event pid before after s event diskFails =>
    obtain ⟨process, hprocess, hstep⟩ := Option.bind_eq_some_iff.1 hstep
    split at hstep
    · cases hstep
      exact h.handleEvent hprocess hclean (h.known pid process hprocess)
    · cases hstep

theorem recorded_initial : Recorded (Installation.initial : Installation ι) where
  row _ := rfl
  history _ := .nil
  known _ _ h := by cases h

/-- The system, in runs that keep the memory of the servers tied to the rows. -/
def cleanSystem (promptId : String → String) : System (Installation ι) (Action ι ε × Reply) :=
  (Installation.system promptId).restrict fun i label => Clean i label.1

theorem recorded_run {promptId : String → String} {i i' : Installation ι}
    {labels : List (Action ι ε × Reply)} (hrun : (cleanSystem promptId).Run i labels i')
    (h : Recorded i) : Recorded i' :=
  hrun.invariant (fun hstep hi => (hi.step hstep.1 hstep.2).1) h

theorem grows_run {promptId : String → String} {i i' : Installation ι}
    {labels : List (Action ι ε × Reply)} (hrun : (cleanSystem promptId).Run i labels i')
    (h : Recorded i) : Grows i i' := by
  refine hrun.rel (Q := Recorded) (R := Grows) (fun i s => List.suffix_refl _) Grows.trans
    (fun hstep hi => ?_) h
  exact hi.step hstep.1 hstep.2

/-- The revision of a row counts its versions. -/
theorem Stored.revision_eq {i : Installation ι} (h : Stored i) {s : String}
    {row : SessionBridgeRecord} (hrow : i.store.sessionBridges.find? s = some row) :
    row.revision = (i.versions s).length := by
  have hhistory := h.history s
  obtain ⟨older, hversions⟩ := h.find?_eq_some hrow
  rw [hversions] at hhistory ⊢
  clear hrow hversions
  induction older generalizing row with
  | nil =>
    cases hhistory with
    | first hopened =>
      obtain ⟨workspace, displayTitle, intent, nowMs, rfl⟩ := hopened
      rfl
  | cons v older ih =>
    cases hhistory with
    | next hrest hchanges =>
      rw [hchanges.revision_eq, ih hrest]
      rfl

/-! ## Plain runs -/

/-- The installation after an action. -/
def after (promptId : String → String) (i : Installation ι) (action : Action ι ε) :
    Installation ι :=
  (i.step promptId action).elim i Prod.snd

theorem step_after {promptId : String → String} {i : Installation ι} {action : Action ι ε}
    {reply : Reply} (h : (i.step promptId action).map Prod.fst = some reply) :
    i.step promptId action = some (reply, i.after promptId action) := by
  obtain ⟨⟨r, i'⟩, hstep, rfl⟩ := Option.map_eq_some_iff.1 h
  rw [after, hstep]
  rfl

theorem clean_start (promptId : String → String) (i : Installation ι) (pid : Nat)
    (h : (i.step promptId (.start pid : Action ι ε)).map Prod.fst = some .nothing) :
    (cleanSystem promptId).next i ((.start pid : Action ι ε), .nothing)
      (i.after promptId (.start pid : Action ι ε)) :=
  ⟨trivial, step_after h⟩

/-- A command that is accepted keeps the memory tied to the rows. -/
theorem clean_command (promptId : String → String) (i : Installation ι) (pid : Nat)
    (env : Environment ι ε) (command : BridgeCommand) (diskFails : Bool) (result : CommandAccepted)
    (h : (i.step promptId (.command pid env command diskFails)).map Prod.fst =
      some (.accepted result)) :
    (cleanSystem promptId).next i (.command pid env command diskFails, .accepted result)
      (i.after promptId (.command pid env command diskFails)) := by
  have hafter := step_after h
  refine ⟨fun process hprocess error core hcore => ?_, hafter⟩
  obtain ⟨process', hprocess', hstep⟩ := Option.bind_eq_some_iff.1 hafter
  cases hprocess.symm.trans hprocess'
  split at hstep
  · rw [hcore] at hstep
    cases hstep
  · cases hstep

end Installation

/-- Surroundings in which every session has an engine, which takes every prompt. -/
def calm : Environment Unit Unit where
  nowMs := 0
  workspace := "w"
  ensureWorkspace _ := .ok ()
  engine _ := some ⟨"w", true, none, fun _ => none, .ok (), fun _ => .ok ("hello", []),
    fun _ _ _ _ => .ok [], fun _ _ _ _ => .ok []⟩
  inventory := []
  openSession := .ok []

/-- In every run of any number of servers, a row has one version for each revision, each of them a
single operation on the one before, and no version is ever undone; and what a server has in memory
of a session is one of the versions, or the record of a session that it has deleted and that is
older than the row. -/
theorem no_change_lost {ι ε : Type} {promptId : String → String} {i i' : Installation ι}
    {labels labels' : List (Action ι ε × Reply)}
    (hrun : (Installation.cleanSystem promptId).Run .initial labels i)
    (hrun' : (Installation.cleanSystem promptId).Run i labels' i') (s : String) :
    History (Opened s) Changes (i'.versions s) ∧
    i.versions s <:+ i'.versions s ∧
    i'.store.sessionBridges.find? s = (i'.versions s).head? ∧
    (∀ row, i'.store.sessionBridges.find? s = some row →
      row.revision = (i'.versions s).length) ∧
    ∀ pid process bridge, i'.process pid = some process →
      bridge ∈ process.core.sessionBridges → bridge.sessionId = s →
      (∃ v ∈ i'.versions s, v.content = bridge.content) ∨
      (bridge.lifecycle = .archived ∧ ∃ row, i'.store.sessionBridges.find? s = some row ∧
        bridge.revision < row.revision) := by
  have hrecorded := Installation.recorded_run hrun Installation.recorded_initial
  have hrecorded' := Installation.recorded_run hrun' hrecorded
  refine ⟨hrecorded'.history s, Installation.grows_run hrun' hrecorded s, hrecorded'.row s,
    fun row hrow => hrecorded'.toStored.revision_eq hrow, ?_⟩
  intro pid process bridge hprocess hbridge hs
  have hknown := hrecorded'.known pid process hprocess _ (BridgeCore.mem_contents hbridge)
  subst hs
  rw [hrecorded'.row bridge.sessionId]
  exact hknown

/-- A second server starts once a bridge is opened. -/
def twoServers : Installation Unit :=
  ((Installation.initial.after id (.start 0 : Action Unit Unit)).after id
    (.command 0 calm (.createSession "s" "w" ⟨.chat, .open, "t"⟩ none) false)).after id
      (.start 1 : Action Unit Unit)

theorem run_twoServers : (Installation.cleanSystem id).Run (.initial : Installation Unit)
    [((.start 0 : Action Unit Unit), .nothing),
      (.command 0 calm (.createSession "s" "w" ⟨.chat, .open, "t"⟩ none) false,
        .accepted { resourceId := "s" }),
      (.start 1, .nothing)] twoServers :=
  .cons (Installation.clean_start id _ 0 (by decide +kernel)) <|
    .cons (Installation.clean_command id _ 0 calm _ false _ (by decide +kernel)) <|
      .cons (Installation.clean_start id _ 1 (by decide +kernel)) (.nil _)

/-- The second server changes the row that the first one has opened. -/
theorem no_change_lost_bound :
    ∃ (i' : Installation Unit) (labels' : List (Action Unit Unit × Reply)),
      (Installation.cleanSystem id).Run twoServers labels' i' ∧
      twoServers.versions "s" <:+ i'.versions "s" ∧ (i'.versions "s").length = 2 := by
  have hrun' := Transition.System.Run.single (Installation.clean_command id twoServers 1 calm
    (.bindSessionBridgeThread "s" "d" "p" "t") false { resourceId := "s" } (by decide +kernel))
  exact ⟨_, _, hrun', (no_change_lost run_twoServers hrun' "s").2.1, by decide +kernel⟩

end Nakode.Bridges
