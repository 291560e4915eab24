import Nakode.Activation.World

/-!
# What the programs write

Whatever is answered and wherever it is cut, a program of the activation writes only journals that
go on with the one in the file or that start an attempt (`Allowed`). So a condition that such writes
keep (`Closed`) holds in every state that a program passes: one lemma for each program.
-/

namespace Nakode.ActivationJournal

open Interaction

/-! ## Journals that may be written -/

/-- A journal that goes on with another, before its revision is counted. -/
structure Drafts (p journal : Journal) : Prop where
  attempt : journal.attemptId = p.attemptId
  revision : journal.revision = p.revision
  history : ∀ records, ∃ records', Recorded p.history records journal.history records'
  keys : ∀ accepted, ∃ accepted', Keyed p.keys accepted journal.keys accepted'

/-- A journal that may be written. -/
inductive Allowed (w : World) (journal : Journal) : Prop
  | drafts {p : Journal} : w.file = .journal p → Drafts p journal → Allowed w journal
  | starts : (∀ p ∈ w.writes, p.attemptId ≠ journal.attemptId) → journal.revision = 0 →
      (journal.history = [] ∨ ∃ entry, entry.sequence = 1 ∧ journal.history = [entry]) →
      journal.keys = ⟨[], []⟩ → Allowed w journal

/-- What such writes keep. -/
structure Closed (C : World → Prop) : Prop where
  write : ∀ {w journal}, C w → Allowed w journal → C (w.write journal.bumped)
  quarantine : ∀ {w}, C w → C { w with file := .absent }

theorem history_same (journal : Journal) :
    ∀ records, ∃ records', Recorded journal.history records journal.history records' :=
  fun records => ⟨records, .same⟩

theorem history_record (journal : Journal) (trigger : CheckTrigger) (started finished : Nat)
    (result : CheckResult) (detail : String) : ∀ records, ∃ records', Recorded journal.history
      records (journal.record trigger started finished result detail).history records' :=
  fun _ => ⟨_, .added rfl⟩

theorem keys_same (journal : Journal) :
    ∀ accepted, ∃ accepted', Keyed journal.keys accepted journal.keys accepted' :=
  fun accepted => ⟨accepted, .same⟩

/-- A journal that has the ledger of the one in the file. -/
structure Copies (p journal : Journal) : Prop where
  attempt : journal.attemptId = p.attemptId
  revision : journal.revision = p.revision
  history : journal.history = p.history
  keys : journal.keys = p.keys

theorem Copies.drafts {p journal : Journal} (h : Copies p journal) : Drafts p journal := by
  refine ⟨h.attempt, h.revision, ?_, ?_⟩
  · rw [h.history]
    exact history_same p
  · rw [h.keys]
    exact keys_same p

theorem Copies.record {p journal : Journal} (h : Copies p journal) (trigger : CheckTrigger)
    (started finished : Nat) (result : CheckResult) (detail : String) :
    Drafts p (journal.record trigger started finished result detail) := by
  refine ⟨h.attempt, h.revision, ?_, ?_⟩
  · rw [← h.history]
    exact history_record journal trigger started finished result detail
  · rw [← h.keys]
    exact keys_same journal

theorem Drafts.heartbeat {p journal : Journal} (h : Drafts p journal) (now : Nat) :
    Drafts p (journal.heartbeat now) :=
  ⟨h.attempt, h.revision, h.history, h.keys⟩

theorem rememberIdempotencyKey_eq_some_iff {journal j : Journal} {key : String} :
    journal.rememberIdempotencyKey key = some j ↔
      key ≠ "" ∧ key ∉ journal.idempotencyKeys ∧
        j = { journal with
          idempotencyKeys := (journal.keys.add key).keys
          idempotencyRejections := (journal.keys.add key).rejections } := by
  simp only [Journal.rememberIdempotencyKey, Journal.hasIdempotencyKey, List.contains_iff_mem,
    Option.ite_none_left_eq_some, not_or, Option.some.injEq, Keys.add, kept, Journal.keys,
    and_assoc, eq_comm (b := j)]
  rfl

section Programs

variable {C : World → Prop} {α β ε : Type} {w : World}

theorem holds_writeJournal (hclosed : Closed C) (h : C w) {journal : Journal}
    (hallowed : Allowed w journal) {P : Journal → World → Prop}
    (hP : C (w.write journal.bumped) → P journal.bumped (w.write journal.bumped)) :
    (writeJournal journal).Holds answers C P (fun _ _ => True) w := by
  refine Act.holds_attempt.2 ⟨h, fun a t hanswer => ?_⟩
  rcases hanswer with ⟨rfl, rfl⟩ | ⟨error, rfl, rfl⟩
  · have hwritten := hclosed.write h hallowed
    exact ⟨hwritten, hP hwritten⟩
  · exact ⟨h, trivial⟩

theorem holds_readJournal (h : C w) {P : Option Journal → World → Prop}
    (habsent : w.file = .absent → P none w)
    (hjournal : ∀ j, w.file = .journal j → P (some j) w) :
    readJournal.Holds answers C P (fun _ _ => True) w := by
  refine holds_attempt silent_read h fun a v hanswer hv => ?_
  have hreads : w.file.Reads a := hanswer.1
  generalize hfile : w.file = file at hreads habsent hjournal
  cases hreads with
  | absent =>
    cases hv
    exact habsent rfl
  | corrupt => cases hv
  | failed => cases hv
  | @journal j =>
    have hv' : (if j.schemaVersion = journalSchemaVersion then Except.ok (some j)
      else .error (ActivationError.unsupportedSchema j.schemaVersion)) = .ok v := hv
    split at hv'
    · cases hv'
      exact hjournal j rfl
    · cases hv'

theorem holds_readRequiredJournal (h : C w) {P : Journal → World → Prop}
    (hjournal : ∀ j, w.file = .journal j → P j w) :
    readRequiredJournal.Holds answers C P (fun _ _ => True) w := by
  refine Act.holds_bind.2 (holds_readJournal h (fun _ => ?_) fun j hj => ?_)
  · exact Act.holds_throw.2 ⟨h, trivial⟩
  · exact Act.holds_pure.2 ⟨h, hjournal j hj⟩

theorem holds_recordNow (h : C w) {journal : Journal} {trigger : CheckTrigger} {started : Nat}
    {result : CheckResult} {detail : String} {P : Journal → World → Prop}
    (hP : ∀ now, P (journal.record trigger started now result detail) w) :
    (recordNow journal trigger started result detail : Activation ε Journal).Holds answers C P
      (fun _ _ => True) w := by
  refine Act.holds_bind.2 (holds_ask silent_now h fun now _ => ?_)
  exact Act.holds_pure.2 ⟨h, hP now⟩

/-- A record is written, with the helper's sign of life. -/
theorem safe_writeRecord (hclosed : Closed C) (h : C w) {p journal : Journal}
    (hfile : w.file = .journal p) (hcopies : Copies p journal) (trigger : CheckTrigger)
    (started : Nat) (result : CheckResult) (detail : String) {a : α} :
    Safe C (do
      let journal ← recordNow journal trigger started result detail
      let _ ← writeJournal (journal.heartbeat (← nowMs))
      return a) w := by
  refine Act.holds_bind.2 (holds_recordNow h fun finished => ?_)
  refine Act.holds_bind.2 (holds_ask silent_now h fun now _ => ?_)
  refine Act.holds_bind.2 (holds_writeJournal hclosed h ?_ safe_pure)
  exact .drafts hfile ((hcopies.record trigger started finished result detail).heartbeat now)

theorem safe_failChangedInstalledExecutable (hclosed : Closed C) (h : C w) {journal : Journal}
    (hfile : w.file = .journal journal) (trigger : CheckTrigger) (started : Nat) :
    Safe C (failChangedInstalledExecutable journal trigger started) w := by
  refine safe_writeRecord hclosed h hfile ?_ trigger started .failed _
  exact ⟨rfl, rfl, rfl, rfl⟩

theorem safe_recordRetryableActivationFailure (hclosed : Closed C) (h : C w)
    (trigger : CheckTrigger) (started : Nat) (blockers : List Blocker) (message : String) :
    Safe C (recordRetryableActivationFailure trigger started blockers message) w := by
  refine Act.holds_bind.2 (holds_readRequiredJournal h fun journal hfile => ?_)
  refine Act.holds_bind.2 (holds_ask silent_now h fun now _ => ?_)
  refine safe_writeRecord hclosed h hfile ?_ trigger started .failed _
  exact ⟨rfl, rfl, rfl, rfl⟩

theorem safe_finishActivation (hclosed : Closed C) (h : C w) (trigger : CheckTrigger)
    (started : Nat) : Safe C (finishActivation trigger started) w := by
  refine Act.holds_bind.2 (holds_attempt silent_waitForApi h fun _ _ _ _ => ?_)
  refine Act.holds_bind.2 (holds_ask silent_runningIdentity h fun running _ => ?_)
  refine Act.holds_bind.2 (holds_attempt silent_executableIdentity h fun _ expected _ _ => ?_)
  dsimp only
  split
  · refine Act.holds_bind.2 (holds_readRequiredJournal h fun journal hfile => ?_)
    refine safe_writeRecord hclosed h hfile ?_ trigger started .activated _
    exact ⟨rfl, rfl, rfl, rfl⟩
  · exact safe_throw h

theorem safe_finishActivationOrRecordFailure (hclosed : Closed C) (h : C w)
    (trigger : CheckTrigger) (started : Nat) :
    Safe C (finishActivationOrRecordFailure trigger started) w := by
  refine safe_bind (safe_result (safe_finishActivation hclosed h trigger started)) ?_
  intro finished t ht
  cases finished with
  | ok => exact safe_pure ht
  | error error => exact safe_recordRetryableActivationFailure hclosed ht trigger started [] _

theorem safe_collectBlockersOrNone (h : C w) :
    Safe C (collectBlockersOrNone : Activation ε (List Blocker)) w := by
  refine Act.holds_bind.2 (holds_ask silent_collectBlockers h fun blockers _ => ?_)
  split
  · exact safe_pure h
  · exact safe_pure h

theorem safe_activateQuiescentService (hclosed : Closed C) (h : C w) (trigger : CheckTrigger)
    (started : Nat) : Safe C (activateQuiescentService trigger started) w := by
  refine Act.holds_bind.2 (holds_ask silent_restartServiceQuiescent h fun restarted _ => ?_)
  split
  · exact safe_finishActivationOrRecordFailure hclosed h trigger started
  · refine safe_bind (safe_collectBlockersOrNone h) ?_
    intro blockers t ht
    exact safe_recordRetryableActivationFailure hclosed ht trigger started blockers _

theorem safe_activateNow (hclosed : Closed C) (h : C w) {p journal : Journal}
    (hfile : w.file = .journal p) (hcopies : Copies p journal) (trigger : CheckTrigger)
    (started : Nat) : Safe C (activateNow journal trigger started) w := by
  refine Act.holds_bind.2 (holds_ask silent_now h fun now _ => ?_)
  refine Act.holds_bind.2 (holds_writeJournal hclosed h ?_ fun hwritten => ?_)
  · refine .drafts hfile (Drafts.heartbeat (Copies.drafts ?_) now)
    exact ⟨hcopies.attempt, hcopies.revision, hcopies.history, hcopies.keys⟩
  · exact safe_activateQuiescentService hclosed hwritten trigger started

theorem holds_serviceIsGone (h : C w) (reachable : Bool) {P : Bool → World → Prop}
    (hP : ∀ gone, P gone w) :
    (serviceIsGone reachable : Activation ε Bool).Holds answers C P (fun _ _ => True) w := by
  unfold serviceIsGone
  split
  · exact Act.holds_pure.2 ⟨h, hP _⟩
  · refine Act.holds_bind.2 (holds_ask silent_lifecycleIsLive h fun live _ => ?_)
    split
    · exact Act.holds_pure.2 ⟨h, hP _⟩
    · exact holds_ask silent_runtimeOwnerIsDisproven h fun gone _ => hP gone

theorem safe_checkRunningService (hclosed : Closed C) (h : C w) {p journal : Journal}
    (hfile : w.file = .journal p) (hcopies : Copies p journal) (trigger : CheckTrigger)
    (started : Nat) : Safe C (checkRunningService journal trigger started) w := by
  obtain ⟨hattempt, hrevision, hhistory, hkeys⟩ := hcopies
  refine Act.holds_bind.2 (holds_ask silent_runningIdentity h fun running _ => ?_)
  dsimp only
  split
  · refine Act.holds_bind.2 (holds_recordNow h fun finished => ?_)
    refine Act.holds_bind.2 (holds_writeJournal hclosed h ?_ safe_pure)
    refine .drafts hfile (Copies.record ?_ trigger started finished .activated _)
    exact ⟨hattempt, hrevision, hhistory, hkeys⟩
  · refine Act.holds_bind.2 (holds_serviceIsGone h _ fun gone => ?_)
    split
    · refine safe_activateNow hclosed h hfile ?_ trigger started
      exact ⟨hattempt, hrevision, hhistory, hkeys⟩
    · refine Act.holds_bind.2 (holds_ask silent_collectBlockers h fun blockers _ => ?_)
      split
      · refine safe_activateNow hclosed h hfile ?_ trigger started
        exact ⟨hattempt, hrevision, hhistory, hkeys⟩
      · refine Act.holds_bind.2 (holds_ask silent_now h fun now _ => ?_)
        refine safe_writeRecord hclosed h hfile ?_ trigger started .blocked _
        exact ⟨hattempt, hrevision, hhistory, hkeys⟩
      · refine Act.holds_bind.2 (holds_ask silent_now h fun now _ => ?_)
        refine safe_writeRecord hclosed h hfile ?_ trigger started .failed _
        exact ⟨hattempt, hrevision, hhistory, hkeys⟩

theorem safe_checkOnceFenced (hclosed : Closed C) (h : C w) (trigger : CheckTrigger) :
    Safe C (checkOnceFenced trigger) w := by
  refine Act.holds_bind.2 (holds_ask silent_now h fun started _ => ?_)
  refine Act.holds_bind.2 (holds_readRequiredJournal h fun journal hfile => ?_)
  refine Act.holds_bind.2 (holds_attempt silent_executableIdentity h fun _ installed _ _ => ?_)
  dsimp only
  split
  · refine Act.holds_bind.2 (holds_ask silent_now h fun now _ => ?_)
    refine Act.holds_bind.2 (holds_writeJournal hclosed h ?_ fun hwritten => ?_)
    · refine .drafts hfile (Drafts.heartbeat (Copies.drafts ?_) now)
      exact ⟨rfl, rfl, rfl, rfl⟩
    · exact safe_checkRunningService hclosed hwritten rfl ⟨rfl, rfl, rfl, rfl⟩ trigger started
  · exact safe_failChangedInstalledExecutable hclosed h hfile trigger started

theorem safe_checkOnce (hclosed : Closed C) (h : C w) (trigger : CheckTrigger) :
    Safe C (checkOnce trigger) w := by
  refine Act.holds_bind.2 (holds_attempt silent_lease h fun _ _ _ _ => ?_)
  exact safe_checkOnceFenced hclosed h trigger

end Programs

end Nakode.ActivationJournal
