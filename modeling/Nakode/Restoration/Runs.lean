import Nakode.Lib.Keyed
import Nakode.Restoration.Salvage
import Nakode.Restoration.Transcripts

/-!
# Runs that are restored

A session restores its delegated runs from their stored records (`installSubagents`). A run that was
going on is interrupted, and an interrupted run whose evidence was not salvaged yet is salvaged; the
records of such runs are returned, to be stored. Once they are, the records restore the same runs and
nothing is left to store (`restored_runs_settle`).
-/

namespace Nakode.Restoration

open Delegation (SubagentStatus)
open LiveTranscript (Shows)
open Relational (Table)

structure SubagentRecord where
  parentSessionId : String
  run : SubagentRun
  transcript : List TranscriptEntry
  images : List StoredTranscriptImage
  transcriptHasEarlier : Bool

/-- What a session keeps of its delegated runs: the runs, the ids of those in execution, their
transcripts, and its own transcript, in which they are displayed. -/
structure Session where
  subagents : List SubagentRun
  subagentExecutions : List String
  subagentChats : Table String LiveTranscript
  transcript : LiveTranscript

/-- What the clock and the generator of ids answer while a run is restored. -/
structure Minted where
  endedAtMs : Nat
  salvageId : String
  salvageMs : Nat
  inlineId : String
  inlineMs : Nat

/-! ## One run -/

/-- What a run is ordered by. -/
def SubagentRun.key (run : SubagentRun) : Nat ×ₗ String :=
  toLex (run.observability.startedAtMs, run.id)

/-- A run that was going on is interrupted. -/
def interrupted (run : SubagentRun) (endedAtMs : Nat) : SubagentRun :=
  if run.status.isRunning then
    { run with
      status := .interrupted
      latestActivity := "Interrupted when the previous server stopped"
      observability := { run.observability with
        endedAtMs := some endedAtMs
        terminationKind := some "interrupted"
        terminationDetail := some "Interrupted when the previous server stopped" } }
  else run

/-- The transcript of a record; what was going on in that of an interrupted run is interrupted. -/
def restoredTranscript (record : SubagentRecord) (status : SubagentStatus) : LiveTranscript :=
  let label := record.run.observability.title.getD record.run.agent
  let t := LiveTranscript.restored label record.transcript record.images record.transcriptHasEarlier
  if status = .interrupted then t.finishRunning .interrupted else t

namespace SalvageTexts

variable (texts : SalvageTexts)

/-- A run with what is salvaged of its transcript, and the transcript with the report on it. -/
def salvaged (minted : Minted) (run : SubagentRun) (transcript : LiveTranscript) :
    SubagentRun × LiveTranscript :=
  let salvage := texts.buildSubagentSalvage transcript.entries run "interrupted"
  let usefulPartial := !salvage.verifiedEvidence.isEmpty || !salvage.completedWork.isEmpty
  ({ run with
      observability := { run.observability with salvage := some salvage }
      latestActivity :=
        if usefulPartial then "Partial evidence preserved after interruption"
        else run.latestActivity },
    transcript.push minted.salvageId minted.salvageMs .system "SALVAGED PARTIAL RESULT"
      (renderSalvage salvage) (if usefulPartial then .interrupted else .failed))

/-- A run and its transcript, and whether its record has to be stored again. -/
def restoreRun (minted : Minted) (record : SubagentRecord) : SubagentRun × LiveTranscript × Bool :=
  let run := interrupted record.run minted.endedAtMs
  let transcript := restoredTranscript record run.status
  if run.status = .interrupted ∧ run.observability.salvage = none then
    let (run, transcript) := texts.salvaged minted run transcript
    (run, transcript, true)
  else (run, transcript, record.run.status.isRunning)

end SalvageTexts

/-! ## All runs -/

/-- The record of a run that is listed. -/
def Session.subagentRecordWithParent (s : Session) (runId parentSessionId : String) :
    Option SubagentRecord :=
  (s.subagents.find? (·.id == runId)).bind fun run =>
    (s.subagentChats.find? runId).map fun t =>
      ⟨parentSessionId, run, t.entries, t.storedImages, t.historyTruncated⟩

/-- `sync_inline_subagent` -/
def syncInlineSubagent (transcript : LiveTranscript) (run : SubagentRun) (minted : Minted) :
    LiveTranscript :=
  transcript.upsert minted.inlineId minted.inlineMs ("subagent:" ++ run.id) .system
    (if run.status.isRunning then "pending" else "completed") run.objective
    (if run.status.isRunning then .running else .complete)

namespace SalvageTexts

variable (texts : SalvageTexts) (mint : String → Minted)

/-- A record is restored behind those before it; the ids of corrected runs are collected, with their
parents. -/
def installSubagent (state : Session × List (String × String)) (record : SubagentRecord) :
    Session × List (String × String) :=
  let (s, corrected) := state
  let (run, transcript, needsPersistence) := texts.restoreRun (mint record.run.id) record
  ({ s with
      subagents := s.subagents ++ [run]
      subagentChats := s.subagentChats.upsert record.run.id transcript fun _ => transcript
      transcript := syncInlineSubagent s.transcript run (mint record.run.id) },
    if needsPersistence then corrected ++ [(run.id, record.parentSessionId)] else corrected)

/-- The oldest first, by their starts and then by their ids. -/
def sortRecords (records : List SubagentRecord) : List SubagentRecord :=
  records.insertionSort fun left right => left.run.key ≤ right.run.key

/-- `install_subagents`: the session, and the records that are to be stored again. -/
def installSubagents (s : Session) (records : List SubagentRecord) :
    Session × List SubagentRecord :=
  let cleared := { s with subagents := [], subagentExecutions := [], subagentChats := ∅ }
  let (s, corrected) := (sortRecords records).foldl (texts.installSubagent mint) (cleared, [])
  (s, corrected.filterMap fun (runId, parentSessionId) =>
    s.subagentRecordWithParent runId parentSessionId)

end SalvageTexts

/-- `save_subagent` of the records that were returned: each replaces the record with its key. -/
def applyCorrections (records corrections : List SubagentRecord) : List SubagentRecord :=
  records.map fun record => (corrections.find? fun correction =>
    correction.parentSessionId == record.parentSessionId
      && correction.run.id == record.run.id).getD record

/-! ## One run restored again -/

section

variable {texts : SalvageTexts} {minted : Minted} {record : SubagentRecord}

theorem interrupted_spec (run : SubagentRun) (endedAtMs : Nat) :
    (interrupted run endedAtMs).id = run.id ∧ (interrupted run endedAtMs).key = run.key ∧
      (interrupted run endedAtMs).agent = run.agent ∧
      (interrupted run endedAtMs).observability.title = run.observability.title ∧
      (interrupted run endedAtMs).status.isRunning = false ∧
      (run.status.isRunning = true → (interrupted run endedAtMs).status = .interrupted) ∧
      (run.status.isRunning = false → interrupted run endedAtMs = run) := by
  unfold interrupted
  split
  · next h => exact ⟨rfl, rfl, rfl, rfl, rfl, fun _ => rfl, fun hno => absurd h (by simp [hno])⟩
  · next h =>
    have hno : run.status.isRunning = false := Bool.eq_false_of_not_eq_true h
    exact ⟨rfl, rfl, rfl, rfl, hno, fun hyes => absurd hyes h, fun _ => rfl⟩

theorem restoredTranscript_spec (record : SubagentRecord) (status : SubagentStatus) :
    (restoredTranscript record status).Indexed ∧
      (restoredTranscript record status).streamActive = false ∧
      (restoredTranscript record status).streamLabel
        = record.run.observability.title.getD record.run.agent ∧
      (status = .interrupted →
        ∀ entry ∈ (restoredTranscript record status).entries, entry.status ≠ .running) := by
  obtain ⟨hindexed, hactive, hlabel, -⟩ := LiveTranscript.restored_spec
    (record.run.observability.title.getD record.run.agent) record.transcript record.images
    record.transcriptHasEarlier
  unfold restoredTranscript
  dsimp only
  split
  · refine ⟨?_, rfl, hlabel, fun _ entry hentry => ?_⟩
    · refine Positions.Indexes.map hindexed fun entry _ => ?_
      split <;> rfl
    · obtain ⟨old, -, rfl⟩ := List.mem_map.1 hentry
      split
      · exact fun h => nomatch h
      · next h => exact h
  · next h => exact ⟨hindexed, hactive, hlabel, fun hstatus => absurd hstatus h⟩

/-- The record of a restored run and its transcript. -/
def storedAgain (parentSessionId : String) (run : SubagentRun) (t : LiveTranscript) :
    SubagentRecord :=
  ⟨parentSessionId, run, t.entries, t.storedImages, t.historyTruncated⟩

/-- The transcript of an interrupted run is restored from its record. -/
theorem shows_storedAgain {parentSessionId : String} {run : SubagentRun} {t : LiveTranscript}
    (hindexed : t.Indexed) (hactive : t.streamActive = false)
    (hlabel : t.streamLabel = run.observability.title.getD run.agent)
    (hsettled : ∀ entry ∈ t.entries, entry.status ≠ .running) :
    Shows (restoredTranscript (storedAgain parentSessionId run t) .interrupted) t := by
  have hshows := LiveTranscript.shows_restored hindexed hactive
  rw [hlabel] at hshows
  rw [restoredTranscript, if_pos rfl]
  have hmap : ((LiveTranscript.restored (run.observability.title.getD run.agent) t.entries
      t.storedImages t.historyTruncated).finishRunning .interrupted).entries = t.entries := by
    refine (List.map_congr_left (g := id) fun entry hentry => ?_).trans
      ((List.map_id _).trans hshows.entries)
    rw [show (LiveTranscript.changedFrom _ 0).entries = t.entries from hshows.entries] at hentry
    exact if_neg (hsettled entry hentry)
  obtain ⟨hentries, himages, -, hlabel', htruncated⟩ := hshows
  refine ⟨hmap, Eq.trans ?_ himages, hactive.symm, hlabel', htruncated⟩
  exact LiveTranscript.storedImages_congr (hmap.trans hentries.symm) fun _ _ _ _ => rfl

/-- What is restored of a record, and that a record which is stored again restores it. -/
theorem restoreRun_spec (texts : SalvageTexts) (minted : Minted) (record : SubagentRecord) :
    ∃ run t needs, texts.restoreRun minted record = (run, t, needs) ∧ run.id = record.run.id ∧
      run.key = record.run.key ∧ run.status.isRunning = false ∧
      (needs = false → ∀ minted', texts.restoreRun minted' record = (run, t, false)) ∧
      (needs = true → ∀ minted', ∃ t',
        texts.restoreRun minted' (storedAgain record.parentSessionId run t) = (run, t', false) ∧
          Shows t' t) := by
  obtain ⟨hid, hkey, hagent, htitle, hended, hrunning, hkept⟩ :=
    interrupted_spec record.run minted.endedAtMs
  obtain ⟨hindexed, hactive, hlabel, hsettled⟩ :=
    restoredTranscript_spec record (interrupted record.run minted.endedAtMs).status
  rw [← hagent, ← htitle] at hlabel
  -- A run that is interrupted with its salvage is not changed again.
  have hagain : ∀ (run : SubagentRun) (t : LiveTranscript), run.status = .interrupted →
      run.observability.salvage ≠ none → t.Indexed → t.streamActive = false →
      t.streamLabel = run.observability.title.getD run.agent →
      (∀ entry ∈ t.entries, entry.status ≠ .running) → ∀ minted', ∃ t',
        texts.restoreRun minted' (storedAgain record.parentSessionId run t) = (run, t', false) ∧
          Shows t' t := by
    intro run t hstatus hsalvage hindexed hactive hlabel hsettled minted'
    have hno : run.status.isRunning = false := by rw [hstatus]; rfl
    refine ⟨restoredTranscript (storedAgain record.parentSessionId run t) .interrupted, ?_,
      shows_storedAgain hindexed hactive hlabel hsettled⟩
    have hsame : interrupted (storedAgain record.parentSessionId run t).run minted'.endedAtMs = run :=
      (interrupted_spec run minted'.endedAtMs).2.2.2.2.2.2 hno
    rw [SalvageTexts.restoreRun]
    dsimp only
    rw [hsame, if_neg fun h => hsalvage h.2, hstatus]
    show (_, _, run.status.isRunning) = _
    rw [hno]
  by_cases hsalvage : (interrupted record.run minted.endedAtMs).status = .interrupted ∧
      (interrupted record.run minted.endedAtMs).observability.salvage = none
  · refine ⟨(texts.salvaged minted _ _).1, (texts.salvaged minted _ _).2, true, if_pos hsalvage, hid,
      hkey, hended, (fun h => nomatch h), fun _ => ?_⟩
    refine hagain _ _ hsalvage.1 (fun h => nomatch h) ?_ hactive hlabel fun entry hentry => ?_
    · exact Positions.Indexes.concat_none hindexed (a := LiveTranscript.newEntry ..) rfl
    · obtain hentry | hentry := List.mem_append.1 hentry
      · exact hsettled hsalvage.1 entry hentry
      · obtain rfl := List.mem_singleton.1 hentry
        show ite _ _ _ ≠ _
        split <;> exact fun h => nomatch h
  · refine ⟨_, _, record.run.status.isRunning,
      if_neg hsalvage, hid, hkey, hended,
      fun hno minted' => ?_, fun hyes => ?_⟩
    · have hsame := hkept hno
      have hsame' := (interrupted_spec record.run minted'.endedAtMs).2.2.2.2.2.2 hno
      rw [hsame] at hsalvage
      rw [SalvageTexts.restoreRun]
      dsimp only
      rw [hsame', hsame, if_neg hsalvage, hno]
    · have hstatus := hrunning hyes
      refine hagain _ _ hstatus (fun h => hsalvage ⟨hstatus, h⟩) hindexed hactive hlabel ?_
      exact hsettled hstatus

end

/-! ## All runs restored again -/

section

variable (texts : SalvageTexts) (mint : String → Minted)

/-- What is restored of a record. -/
def SalvageTexts.restoreRecord (record : SubagentRecord) : SubagentRun × LiveTranscript × Bool :=
  texts.restoreRun (mint record.run.id) record

/-- A record as it is stored after its run was restored. -/
def SalvageTexts.corrected (record : SubagentRecord) : SubagentRecord :=
  let restored := texts.restoreRecord mint record
  if restored.2.2 then storedAgain record.parentSessionId restored.1 restored.2.1 else record

variable {texts mint} {records : List SubagentRecord}

theorem id_restoreRecord (record : SubagentRecord) :
    (texts.restoreRecord mint record).1.id = record.run.id := by
  obtain ⟨run, t, needs, hrestore, hid, -⟩ := restoreRun_spec texts (mint record.run.id) record
  rw [SalvageTexts.restoreRecord, hrestore]
  exact hid

theorem key_restoreRecord (record : SubagentRecord) :
    (texts.restoreRecord mint record).1.key = record.run.key := by
  obtain ⟨run, t, needs, hrestore, -, hkey, -⟩ := restoreRun_spec texts (mint record.run.id) record
  rw [SalvageTexts.restoreRecord, hrestore]
  exact hkey

/-- A corrected record keeps its place and restores the same run; nothing more is corrected. -/
theorem corrected_spec (texts : SalvageTexts) (mint mint' : String → Minted)
    (record : SubagentRecord) :
    (texts.corrected mint record).run.id = record.run.id ∧
      (texts.corrected mint record).run.key = record.run.key ∧
      (texts.restoreRecord mint' (texts.corrected mint record)).1
        = (texts.restoreRecord mint record).1 ∧
      Shows (texts.restoreRecord mint' (texts.corrected mint record)).2.1
        (texts.restoreRecord mint record).2.1 ∧
      (texts.restoreRecord mint' (texts.corrected mint record)).2.2 = false := by
  obtain ⟨run, t, needs, hrestore, hid, hkey, -, hkept, hagain⟩ :=
    restoreRun_spec texts (mint record.run.id) record
  rw [← SalvageTexts.restoreRecord] at hrestore
  rw [SalvageTexts.corrected, hrestore]
  dsimp only
  cases needs with
  | false =>
    rw [if_neg Bool.false_ne_true, SalvageTexts.restoreRecord, hkept rfl]
    exact ⟨rfl, rfl, rfl, .refl t, rfl⟩
  | true =>
    obtain ⟨t', hagain, hshows⟩ := hagain rfl (mint' run.id)
    rw [if_pos rfl, SalvageTexts.restoreRecord]
    dsimp only [storedAgain] at hagain ⊢
    rw [hagain]
    exact ⟨hid, hkey, rfl, hshows, rfl⟩

theorem installSubagent_eq (s : Session) (collected : List (String × String))
    (record : SubagentRecord) :
    texts.installSubagent mint (s, collected) record =
      ({ s with
          subagents := s.subagents ++ [(texts.restoreRecord mint record).1]
          subagentChats := s.subagentChats.upsert record.run.id
            (texts.restoreRecord mint record).2.1 fun _ => (texts.restoreRecord mint record).2.1
          transcript := syncInlineSubagent s.transcript (texts.restoreRecord mint record).1
            (mint record.run.id) },
        if (texts.restoreRecord mint record).2.2 then
          collected ++ [(record.run.id, record.parentSessionId)] else collected) := by
  rw [SalvageTexts.installSubagent]
  dsimp only
  rw [← SalvageTexts.restoreRecord, id_restoreRecord]

variable (texts mint) in
theorem foldl_installSubagent (s : Session) (collected : List (String × String))
    (hids : (records.map (·.run.id)).Nodup) :
    ∃ s' collected', records.foldl (texts.installSubagent mint) (s, collected) = (s', collected') ∧
      s'.subagents = s.subagents ++ records.map (fun r => (texts.restoreRecord mint r).1) ∧
      s'.subagentExecutions = s.subagentExecutions ∧
      (∀ record ∈ records,
        s'.subagentChats.find? record.run.id = some (texts.restoreRecord mint record).2.1) ∧
      (∀ id, id ∉ records.map (·.run.id) → s'.subagentChats.find? id = s.subagentChats.find? id) ∧
      collected' = collected ++ (records.filter fun r => (texts.restoreRecord mint r).2.2).map
        fun r => (r.run.id, r.parentSessionId) := by
  induction records generalizing s collected with
  | nil => exact ⟨s, collected, rfl, by simp, rfl, by simp, by simp, by simp⟩
  | cons record records ih =>
    rw [List.map_cons, List.nodup_cons] at hids
    rw [List.foldl_cons, installSubagent_eq]
    obtain ⟨s', collected', hfold, hruns, hexecutions, hchats, hothers, hcollected⟩ := ih _ _ hids.2
    refine ⟨s', collected', hfold, ?_, hexecutions, ?_, fun id hid => ?_, ?_⟩
    · rw [hruns, List.append_assoc, List.singleton_append, List.map_cons]
    · refine List.forall_mem_cons.2 ⟨?_, hchats⟩
      rw [hothers _ hids.1, Table.find?_upsert, if_pos rfl]
      cases s.subagentChats.find? record.run.id <;> rfl
    · rw [List.map_cons, List.mem_cons, not_or] at hid
      rw [hothers id hid.2, Table.find?_upsert, if_neg hid.1]
    · rw [hcollected]
      cases hneeds : (texts.restoreRecord mint record).2.2 with
      | false => rw [List.filter_cons_of_neg (by simp [hneeds]), if_neg Bool.false_ne_true]
      | true =>
        rw [List.filter_cons_of_pos (by simp [hneeds]), if_pos rfl, List.map_cons, List.append_assoc,
          List.singleton_append]

variable (texts mint) in
/-- What is installed, and which records are returned. -/
theorem installSubagents_spec (s : Session) (hids : (records.map (·.run.id)).Nodup) :
    (texts.installSubagents mint s records).1.subagents
        = (SalvageTexts.sortRecords records).map (fun r => (texts.restoreRecord mint r).1) ∧
      (texts.installSubagents mint s records).1.subagentExecutions = [] ∧
      (∀ record ∈ records, (texts.installSubagents mint s records).1.subagentChats.find?
        record.run.id = some (texts.restoreRecord mint record).2.1) ∧
      (∀ id, id ∉ records.map (·.run.id) →
        (texts.installSubagents mint s records).1.subagentChats.find? id = none) ∧
      (texts.installSubagents mint s records).2
        = ((SalvageTexts.sortRecords records).filter fun r =>
          (texts.restoreRecord mint r).2.2).map (texts.corrected mint) := by
  have hperm : (SalvageTexts.sortRecords records).Perm records := List.perm_insertionSort _ _
  have hsorted : ((SalvageTexts.sortRecords records).map (·.run.id)).Nodup :=
    (hperm.map _).nodup_iff.2 hids
  obtain ⟨s', collected', hfold, hruns, hexecutions, hchats, hothers, hcollected⟩ :=
    foldl_installSubagent texts mint
      { s with subagents := [], subagentExecutions := [], subagentChats := ∅ } [] hsorted
  rw [SalvageTexts.installSubagents]
  dsimp only
  rw [hfold]
  refine ⟨hruns, hexecutions, fun record hrecord => hchats record (hperm.mem_iff.2 hrecord),
    fun id hid => ?_, ?_⟩
  · rw [← (hperm.map _).mem_iff] at hid
    exact hothers id hid
  · dsimp only
    rw [hcollected, List.nil_append, List.filterMap_map]
    rw [List.nil_append] at hruns
    have hnodup : (s'.subagents.map (·.id)).Nodup := by
      rw [hruns, List.map_map]
      refine (List.map_congr_left fun r _ => ?_) ▸ hsorted
      exact (id_restoreRecord r).symm
    refine (List.filterMap_congr fun record hrecord => ?_).trans
      (congrFun List.filterMap_eq_map _)
    obtain ⟨hmem, hneeds⟩ := List.mem_filter.1 hrecord
    have hlisted : (texts.restoreRecord mint record).1 ∈ s'.subagents := by
      rw [hruns]
      exact List.mem_map_of_mem hmem
    have hfind := Keyed.find?_eq_some hnodup hlisted
    rw [id_restoreRecord] at hfind
    dsimp only [Function.comp]
    rw [Session.subagentRecordWithParent, hfind, Option.bind_some, hchats record hmem,
      Option.map_some, SalvageTexts.corrected]
    rw [if_pos hneeds]
    rfl

variable (texts mint) in
/-- The records as they are stored after the corrections. -/
theorem applyCorrections_eq (s : Session) (hids : (records.map (·.run.id)).Nodup) :
    applyCorrections records (texts.installSubagents mint s records).2
      = records.map (texts.corrected mint) := by
  have hperm : (SalvageTexts.sortRecords records).Perm records := List.perm_insertionSort _ _
  obtain ⟨-, -, -, -, hcorrections⟩ := installSubagents_spec texts mint s hids
  rw [applyCorrections, hcorrections]
  refine List.map_congr_left fun record hrecord => ?_
  have hid : ∀ r : SubagentRecord, (texts.corrected mint r).run.id = r.run.id := fun r =>
    (corrected_spec texts mint mint r).1
  have hparent : ∀ r : SubagentRecord,
      (texts.corrected mint r).parentSessionId = r.parentSessionId := by
    intro r
    rw [SalvageTexts.corrected]
    split <;> rfl
  -- Only the record itself has its id.
  have hsame : ∀ r ∈ records, (texts.corrected mint r).run.id = record.run.id → r = record := by
    intro r hr heq
    exact List.inj_on_of_nodup_map hids hr hrecord ((hid r).symm.trans heq)
  cases hneeds : (texts.restoreRecord mint record).2.2 with
  | false =>
    have hnone : (((SalvageTexts.sortRecords records).filter fun r =>
        (texts.restoreRecord mint r).2.2).map (texts.corrected mint)).find? (fun correction =>
          correction.parentSessionId == record.parentSessionId
            && correction.run.id == record.run.id) = none := by
      refine List.find?_eq_none.2 fun correction hcorrection heq => ?_
      obtain ⟨r, hr, rfl⟩ := List.mem_map.1 hcorrection
      obtain ⟨hr, hyes⟩ := List.mem_filter.1 hr
      obtain rfl := hsame r (hperm.mem_iff.1 hr) (beq_iff_eq.1 (Bool.and_eq_true_iff.1 heq).2)
      rw [hneeds] at hyes
      cases hyes
    rw [hnone, Option.getD_none, SalvageTexts.corrected]
    rw [hneeds, if_neg Bool.false_ne_true]
  | true =>
    have hsome : (((SalvageTexts.sortRecords records).filter fun r =>
        (texts.restoreRecord mint r).2.2).map (texts.corrected mint)).find? (fun correction =>
          correction.parentSessionId == record.parentSessionId
            && correction.run.id == record.run.id) = some (texts.corrected mint record) := by
      cases hfind : List.find? _ _ with
      | none =>
        refine absurd ?_ (List.find?_eq_none.1 hfind (texts.corrected mint record) ?_)
        · rw [hid, hparent, beq_self_eq_true, beq_self_eq_true, Bool.and_self]
        · refine List.mem_map_of_mem (List.mem_filter.2 ⟨hperm.mem_iff.2 hrecord, ?_⟩)
          exact hneeds
      | some correction =>
        have heq := List.find?_some hfind
        obtain ⟨r, hr, rfl⟩ := List.mem_map.1 (List.mem_of_find?_eq_some hfind)
        obtain ⟨hr, -⟩ := List.mem_filter.1 hr
        obtain rfl := hsame r (hperm.mem_iff.1 hr) (beq_iff_eq.1 (Bool.and_eq_true_iff.1 heq).2)
        rfl
    rw [hsome, Option.getD_some]

/-- Corrections change no key. -/
theorem sortRecords_map_corrected (records : List SubagentRecord) :
    SalvageTexts.sortRecords (records.map (texts.corrected mint))
      = (SalvageTexts.sortRecords records).map (texts.corrected mint) := by
  refine (List.map_insertionSort _ _ _ records fun a _ b _ => ?_).symm
  rw [(corrected_spec texts mint mint a).2.1, (corrected_spec texts mint mint b).2.1]

end

/-- A run that was going on when the server stopped, after the result of a tool. -/
def workingRecord : SubagentRecord where
  parentSessionId := "s"
  run :=
    { id := "r", agent := "scout", provider := "p", model := none, providerSessionId := none
      usage := ⟨0, 0, 0, 0⟩
      objective := "look"
      status := .working
      latestActivity := "reading"
      observability :=
        { title := none, parentRunId := none, invocationTurnId := none, invocationCallId := none
          originatingOwnerEntryId := none, archetypePurpose := "", policyJson := "\x7b\x7d"
          remainingDelegationDepth := 0, startedAtMs := 1, endedAtMs := none
          terminationKind := none, terminationDetail := none, objectiveMismatchHandoff := none
          salvage := none, continuedFromRunId := none, continuedByRunId := none
          continuationDepth := 0, additionalTurns := none, inheritedEvidence := [] } }
  transcript := [{ id := "e", key := some "k", kind := .tool, title := "read", body := "text"
                   status := .complete }]
  images := []
  transcriptHasEarlier := false

end Nakode.Restoration
