import Nakode.Inbox.Fifo

/-!
# Retries of inbox commands

`receipts_idempotent`: a command that was executed once is answered from its receipt under its key,
and from the message it admitted under any other key, whatever happened to that message since. A
receipt of an admission stands for a message that is known under the command's digest
(`Db.Backed`): the message may be consumed or removed, but its identity and digest stay.
-/

namespace Nakode

open Relational Transition Outcome

variable {δ : Type}

/-! ## What an inbox knows -/

namespace Inbox

/-- The identity is taken, by a message admitted with this digest. -/
def Knows (i : Inbox δ) (session messageId : String) (digest : δ) : Prop :=
  ∃ n m, i.sequenceOf? session messageId = some n ∧ i.messages.find? n = some m ∧
    m.requestDigest = digest

theorem messageExists_of_knows [DecidableEq δ] {db : Db δ} {session messageId : String} {digest : δ}
    (h : db.inbox.Knows session messageId digest) :
    messageExists db session messageId digest = .ok true := by
  obtain ⟨n, m, hn, hm, hd⟩ := h
  simp [messageExists, hn, hm, hd]

theorem knows_of_messageExists [DecidableEq δ] {db : Db δ} {session messageId : String} {digest : δ}
    (h : messageExists db session messageId digest = .ok true) :
    db.inbox.Knows session messageId digest := by
  simp only [messageExists] at h
  split at h
  · simp at h
  · next m hm =>
    obtain ⟨n, hn, hm⟩ := Option.bind_eq_some_iff.1 hm
    split at h
    · next hd => exact ⟨n, m, hn, hm, hd⟩
    · simp at h

/-- An update that keeps identities and digests keeps what is known. -/
theorem Knows.update {i : Inbox δ} (i' : Inbox δ) {p : Nat → Message δ → Bool}
    {f : Message δ → Message δ}
    (hi : i'.messages = i.messages.update p f)
    (hf : ∀ m, (f m).sessionId = m.sessionId ∧ (f m).messageId = m.messageId ∧
      (f m).requestDigest = m.requestDigest) {session messageId : String} {digest : δ}
    (h : i.Knows session messageId digest) : i'.Knows session messageId digest := by
  obtain ⟨n, m, hn, hm, hd⟩ := h
  refine ⟨n, if p n m then f m else m, ?_, ?_, ?_⟩
  · have hidentity : ∀ row : Nat × Message δ,
        ((if p row.1 row.2 then f row.2 else row.2).sessionId == session &&
          (if p row.1 row.2 then f row.2 else row.2).messageId == messageId)
        = (row.2.sessionId == session && row.2.messageId == messageId) := fun row => by
      split
      · rw [(hf row.2).1, (hf row.2).2.1]
      · rfl
    simp only [sequenceOf?, hi, Sequenced.toTable_update, Table.update, List.find?_map,
      Function.comp_def, hidentity, Option.map_map]
    exact hn
  · rw [hi, Sequenced.toTable_update, Table.find?_update, hm, Option.map_some]
  · split
    · rw [(hf m).2.2, hd]
    · exact hd

/-- A new message leaves what is known. -/
theorem Knows.append {i i' : Inbox δ} {m : Message δ} (hi : i'.messages = i.messages.append m)
    {session messageId : String} {digest : δ} (h : i.Knows session messageId digest) :
    i'.Knows session messageId digest := by
  obtain ⟨n, m', hn, hm', hd⟩ := h
  have hne : n ≠ i.messages.next := (Sequenced.lt_next hm').ne
  refine ⟨n, m', ?_, by simpa [hi, hne] using hm', hd⟩
  simp only [sequenceOf?, Option.map_eq_some_iff] at hn ⊢
  obtain ⟨row, hrow, rfl⟩ := hn
  exact ⟨row, by rw [hi, Sequenced.rows_append, List.find?_append, hrow]; rfl, rfl⟩

/-- A legal write leaves what is known. -/
theorem Knows.apply {i : Inbox δ} {w : InboxWrite δ} {session messageId : String} {digest : δ}
    (h : i.Knows session messageId digest) : (w.apply i).Knows session messageId digest := by
  cases w with
  | admission m s r => exact h.append rfl
  | remove sequence => exact h.update (i.remove sequence) rfl fun m => ⟨rfl, rfl, rfl⟩
  | cut s batch cutoff display =>
    exact h.update (i.cut s batch cutoff display) rfl fun m => ⟨rfl, rfl, rfl⟩
  | receipt | setPaused | mark | source => exact h

/-- What is known of a session stays when another one is deleted. -/
theorem Knows.forget {i : Inbox δ} {other session messageId : String} {digest : δ}
    (h : i.Knows session messageId digest) (hne : session ≠ other) :
    (i.forget other).Knows session messageId digest := by
  obtain ⟨n, m, hn, hm, hd⟩ := h
  have hsession : m.sessionId = session := by
    obtain ⟨m', hm', hs, -⟩ := of_sequenceOf? hn
    cases hm.symm.trans hm'
    exact hs
  refine ⟨n, m, ?_, ?_, hd⟩
  · have hidentity : ∀ row : Nat × Message δ,
        decide ((!row.2.sessionId == other) = true ∧
          (row.2.sessionId == session && row.2.messageId == messageId) = true)
        = (row.2.sessionId == session && row.2.messageId == messageId) := fun row => by
      rw [Bool.eq_iff_iff]
      by_cases hs : row.2.sessionId = session
      · simp [hs, hne]
      · simp [hs]
    simp only [sequenceOf?, Inbox.forget, Sequenced.toTable_delete, Table.delete, List.find?_filter,
      hidentity]
    exact hn
  · simp [Inbox.forget, hm, hsession, hne]

end Inbox

/-- The session is there, and a message is known under the identity and the digest. -/
structure Db.Knows (db : Db δ) (session messageId : String) (digest : δ) : Prop where
  valid : validId session = true
  live : db.directory.exists? session = true
  message : db.inbox.Knows session messageId digest

/-- A legal write that does not delete the session leaves what is known of it. -/
theorem Db.Knows.apply {db : Db δ} {w : Write δ} {session messageId : String} {digest : δ}
    (h : db.Knows session messageId digest) (hw : w.Legal db) (hpurge : w ≠ .purge)
    (hforget : w ≠ .forget session) : (w.apply db).Knows session messageId digest := by
  obtain ⟨hvalid, hsession, hmessage⟩ := h
  cases w with
  | directory d =>
    refine ⟨hvalid, ?_, hmessage⟩
    obtain ⟨row, hrow⟩ := Option.isSome_iff_exists.1 hsession
    obtain ⟨row', hrow', -⟩ := hw.sessions session row hrow
    exact Option.isSome_iff_exists.2 ⟨row', hrow'⟩
  | kin | report | reportReceipt => exact ⟨hvalid, hsession, hmessage⟩
  | inbox w => exact ⟨hvalid, hsession, hmessage.apply⟩
  | forget other =>
    have hne : session ≠ other := fun heq => hforget (by rw [heq])
    refine ⟨hvalid, ?_, hmessage.forget hne⟩
    obtain ⟨row, hrow⟩ := Option.isSome_iff_exists.1 hsession
    exact Option.isSome_iff_exists.2 ⟨row, by simp [Write.apply, Db.forget, Directory.forget, hrow, hne]⟩
  | purge => exact absurd rfl hpurge

/-! ## What a receipt stands for -/

/-- The message that a command admits. -/
def Command.admitted? : Command → Option (String × String)
  | .enqueueFollowup session messageId _
  | .relayAgentFollowup session messageId _ _ _ _
  | .admitExternalChildReport session messageId _ _ _ _ _ => some (session, messageId)
  | _ => none

/-- What is checked of an admission before its message is looked up, from the command alone. -/
def Command.Checked (deps : Deps δ) : Command → Prop
  | .enqueueFollowup _ messageId _
  | .relayAgentFollowup _ messageId _ _ _ _ => validateMessageIdentity messageId = .ok ()
  | .admitExternalChildReport session messageId child title report state body =>
    validateMessageIdentity messageId = .ok () ∧
      ∃ evidence, externalReport deps session child title report state body = .ok evidence
  | _ => True

/-- A receipt is one of a command with its digest, and the receipt of an admission stands for a
message that is known. -/
def Db.Backed (deps : Deps δ) (db : Db δ) : Prop :=
  ∀ key r, db.inbox.receipts.find? key = some r → ∃ c : Command, deps.commandDigest c = r.digest ∧
    ∀ session messageId, c.admitted? = some (session, messageId) →
      r.sessionId = session ∧ r.resourceId = some messageId ∧ c.Checked deps ∧
        db.Knows session messageId r.digest

/-- A legal write that is no receipt keeps the receipts backed. -/
theorem Db.Backed.apply {deps : Deps δ} {db : Db δ} {w : Write δ} (h : db.Backed deps)
    (hw : w.Legal db) (hreceipt : ∀ key r, w ≠ .inbox (.receipt key r)) :
    (w.apply db).Backed deps := by
  intro key r hr
  by_cases hpurge : w = .purge
  · subst hpurge
    cases hr
  have hold : db.inbox.receipts.find? key = some r ∧ w ≠ .forget r.sessionId := by
    cases w with
    | forget other =>
      simp only [Write.apply, Db.forget, Inbox.forget, Table.find?_delete,
        Option.filter_eq_some_iff, Bool.not_eq_true', beq_eq_false_iff_ne] at hr
      exact ⟨hr.1, fun heq => hr.2 (by cases heq; rfl)⟩
    | inbox w =>
      cases w with
      | receipt key' r' => exact absurd rfl (hreceipt key' r')
      | _ => exact ⟨hr, by simp⟩
    | purge => exact absurd rfl hpurge
    | _ => exact ⟨hr, by simp⟩
  obtain ⟨c, hc, hknown⟩ := h key r hold.1
  refine ⟨c, hc, fun session messageId hadmitted => ?_⟩
  obtain ⟨hs, hid, hchecked, hknows⟩ := hknown session messageId hadmitted
  exact ⟨hs, hid, hchecked, hknows.apply hw hpurge (hs ▸ hold.2)⟩

/-- A run of legal writes without receipts keeps the receipts backed. -/
theorem Db.Backed.writes {deps : Deps δ} {db db' : Db δ} {n : Nat} {P : Write δ → Prop}
    (h : db.Backed deps) (hP : ∀ w, P w → ∀ key r, w ≠ .inbox (.receipt key r))
    (hwrites : Writes P n db db') : db'.Backed deps :=
  hwrites.invariant (Q := fun db => db.Backed deps)
    (fun hlegal hw hdb => hdb.apply hlegal (hP _ hw)) h

/-! ## What an executed admission leaves -/

/-- A message just admitted is known. -/
theorem knows_admission {i : Inbox δ} {m : Message δ} (source : Option Source)
    (report : Option Nat) (hfree : i.sequenceOf? m.sessionId m.messageId = none) :
    (i.admission m source report).Knows m.sessionId m.messageId m.requestDigest :=
  ⟨i.messages.next, m, Inbox.sequenceOf?_append hfree rfl, by simp [Inbox.admission], rfl⟩

/-- Adoption changes neither the sessions nor the inbox. -/
theorem adopt_keeps {db db' : Db δ} {clockMs : Int} {chat agent : String}
    (h : adopt db clockMs chat agent = .ok db') :
    db'.directory = db.directory ∧ db'.inbox = db.inbox := by
  rcases adopt_eq_ok h with rfl | ⟨title, -, rfl⟩ | ⟨-, -, rfl⟩ <;> exact ⟨rfl, rfl⟩

theorem admitFollowup_knows [DecidableEq δ] {deps : Deps δ} {runtime : Runtime} {db db' : Db δ}
    {request : InboxRequest} {session messageId : String} {prompt : PromptInput} {digest : δ}
    {answer : String × Option String}
    (h : admitFollowup deps runtime db request session messageId prompt digest = .ok (answer, db'))
    (hcommand : ∀ s' m' f c p o, request.command = .relayAgentFollowup s' m' f c p o →
      s' = session) :
    answer = (session, some messageId) ∧ validateMessageIdentity messageId = .ok () ∧
      db'.Knows session messageId digest := by
  obtain ⟨_, hidentity, h'⟩ := bind_eq_ok.1 h
  obtain ⟨_, hauthorize, -⟩ := bind_eq_ok.1 h'
  obtain ⟨hvalid, hexists, -⟩ := authorize_eq_ok.1 hauthorize
  obtain ⟨hanswer, ⟨hknown, rfl⟩ | ⟨m, source, ⟨⟨hfree, -⟩, -⟩, rfl, rfl, rfl, hdb⟩⟩ :=
    admitFollowup_eq_ok h hcommand
  · exact ⟨hanswer, hidentity, hvalid, hexists, Inbox.knows_of_messageExists hknown⟩
  have hmessage := knows_admission source none hfree
  rcases hdb with rfl | ⟨s, -, -, -, hadopt⟩
  · exact ⟨hanswer, hidentity, hvalid, hexists, hmessage⟩
  · obtain ⟨hdirectory, hinbox⟩ := adopt_keeps hadopt
    exact ⟨hanswer, hidentity, hvalid, hdirectory ▸ hexists, hinbox ▸ hmessage⟩

theorem admitExternalReport_knows [DecidableEq δ] {deps : Deps δ} {db db' : Db δ}
    {request : InboxRequest} {digest : δ} {answer : String × Option String}
    {session messageId child title report state body : String}
    (hcommand : request.command
      = .admitExternalChildReport session messageId child title report state body)
    (h : admitExternalReport deps db request digest = .ok (answer, db')) :
    answer = (session, some messageId) ∧ request.command.Checked deps ∧
      db'.Knows session messageId digest := by
  have h' := h
  simp only [admitExternalReport, hcommand] at h'
  obtain ⟨_, hidentity, h'⟩ := bind_eq_ok.1 h'
  obtain ⟨_, hauthorize, h'⟩ := bind_eq_ok.1 h'
  obtain ⟨evidence, hevidence, -⟩ := bind_eq_ok.1 h'
  obtain ⟨hvalid, hexists, -⟩ := authorize_eq_ok.1 hauthorize
  have hchecked : request.command.Checked deps := by
    rw [hcommand]
    exact ⟨hidentity, evidence, hevidence⟩
  obtain ⟨s', m', c', t', r', st', b', hcommand', hanswer, hdb⟩ := admitExternalReport_eq_ok h
  cases hcommand.symm.trans hcommand'
  rcases hdb with ⟨hknown, rfl⟩ | ⟨m, source, ⟨⟨hfree, -⟩, -⟩, rfl, rfl, rfl, rfl⟩
  · exact ⟨hanswer, hchecked, hvalid, hexists, Inbox.knows_of_messageExists hknown⟩
  · exact ⟨hanswer, hchecked, hvalid, hexists, knows_admission source none hfree⟩

/-- An admission that is executed answers with its message and leaves it known. -/
theorem executeCommand_knows [DecidableEq δ] {deps : Deps δ} {runtime : Runtime} {db db' : Db δ}
    {request : InboxRequest} {digest : δ} {answer : String × Option String}
    {session messageId : String}
    (hadmitted : request.command.admitted? = some (session, messageId))
    (h : executeCommand deps runtime db request digest = .ok (answer, db')) :
    answer = (session, some messageId) ∧ request.command.Checked deps ∧
      db'.Knows session messageId digest := by
  simp only [executeCommand] at h
  cases hcommand : request.command with
  | enqueueFollowup s m prompt =>
    rw [hcommand] at h hadmitted
    cases hadmitted
    exact admitFollowup_knows h fun _ _ _ _ _ _ heq => by rw [hcommand] at heq; cases heq
  | relayAgentFollowup s m f c prompt o =>
    rw [hcommand] at h hadmitted
    cases hadmitted
    exact admitFollowup_knows h fun _ _ _ _ _ _ heq => by rw [hcommand] at heq; cases heq; rfl
  | admitExternalChildReport s m child title report state body =>
    rw [hcommand] at h hadmitted
    cases hadmitted
    rw [← hcommand]
    exact admitExternalReport_knows hcommand h
  | _ => rw [hcommand] at hadmitted; cases hadmitted

/-- An admission of a message that is known already changes nothing. -/
theorem executeCommand_of_knows [DecidableEq δ] {deps : Deps δ} (runtime : Runtime) {db : Db δ}
    (request : InboxRequest) {digest : δ} {session messageId : String}
    (hadmitted : request.command.admitted? = some (session, messageId))
    (hchecked : request.command.Checked deps) (hknows : db.Knows session messageId digest)
    (hopen : db.directory.closed session = false) :
    executeCommand deps runtime db request digest = .ok ((session, some messageId), db) := by
  have hauthorize : authorize db session true = .ok () :=
    authorize_eq_ok.2 ⟨hknows.valid, hknows.live, fun _ => hopen⟩
  have hexists := Inbox.messageExists_of_knows hknows.message
  have hfollowup : ∀ prompt, validateMessageIdentity messageId = .ok () →
      admitFollowup deps runtime db request session messageId prompt digest
        = .ok ((session, some messageId), db) := fun prompt hidentity => by
    simp only [admitFollowup, hidentity, hauthorize, hexists, ok_bind, if_true]
    rfl
  simp only [executeCommand]
  cases hcommand : request.command with
  | enqueueFollowup s m prompt =>
    rw [hcommand] at hadmitted hchecked
    cases hadmitted
    exact hfollowup prompt hchecked
  | relayAgentFollowup s m f c prompt o =>
    rw [hcommand] at hadmitted hchecked
    cases hadmitted
    exact hfollowup prompt hchecked
  | admitExternalChildReport s m child title report state body =>
    rw [hcommand] at hadmitted hchecked
    cases hadmitted
    obtain ⟨hidentity, ⟨prompt, source, display⟩, hevidence⟩ := hchecked
    simp only [admitExternalReport, hcommand, hidentity, hauthorize, hevidence, hexists, ok_bind,
      if_true]
    rfl
  | _ => rw [hcommand] at hadmitted; cases hadmitted

/-- What an executed command leaves is backed, its receipt included. -/
theorem executeAuthenticated_backed [DecidableEq δ] {deps : Deps δ} {runtime : Runtime}
    {db db' : Db δ} {request : InboxRequest} {id : Option String} (hdb : db.Backed deps)
    (h : executeAuthenticated deps runtime db request = .ok (id, db')) : db'.Backed deps := by
  obtain ⟨-, ⟨_, -, -, -, rfl⟩ | ⟨-, -, session, db₁, hcommand, hfree, rfl⟩⟩ :=
    executeAuthenticated_eq_ok h
  · exact hdb
  have hdb₁ : db₁.Backed deps :=
    hdb.writes (P := fun w => ∀ key r, w ≠ .inbox (.receipt key r)) (fun _ hw => hw)
      (executeCommand_writes (fun _ _ hw => hw) hcommand)
  intro key r hr
  simp only [Write.apply, InboxWrite.apply, Table.find?_insertOrIgnore, hfree, Option.getD_none]
    at hr
  split at hr
  · cases hr
    refine ⟨request.command, rfl, fun s m hadmitted => ?_⟩
    obtain ⟨hanswer, hchecked, hknows⟩ := executeCommand_knows hadmitted hcommand
    obtain ⟨rfl, rfl⟩ := Prod.mk.inj hanswer
    exact ⟨rfl, rfl, hchecked, hknows.valid, hknows.live, hknows.message⟩
  · obtain ⟨c, hc, hknown⟩ := hdb₁ key r hr
    refine ⟨c, hc, fun s m hadmitted => ?_⟩
    obtain ⟨hs, hid, hchecked, hknows⟩ := hknown s m hadmitted
    exact ⟨hs, hid, hchecked, hknows.valid, hknows.live, hknows.message⟩

/-- Every operation keeps the receipts backed, deletions of sessions included. -/
theorem backed_step [DecidableEq δ] {deps : Deps δ} {op : Op} {db db' : Db δ}
    (h : (machine deps).next db op db') (hdb : db.Backed deps) : db'.Backed deps := by
  by_cases hexecute : ∃ request runtime, op = .execute request runtime
  · obtain ⟨request, runtime, rfl⟩ := hexecute
    rcases next_cases h with rfl | ⟨answer, hperform⟩
    · exact hdb
    · obtain ⟨⟨id, db₁⟩, hexecuted, heq⟩ := of_wrapped hperform
      cases heq
      exact executeAuthenticated_backed hdb hexecuted
  · exact hdb.writes (fun w hw key r heq => hexecute (by subst heq; exact hw)) (machine_writes h)

/-! ## Along later operations -/

/-- What the retries rest on: the receipts, and what is known of each session. -/
structure Db.Retains (db' db : Db δ) : Prop where
  receipts : ∀ key r, db.inbox.receipts.find? key = some r → db'.inbox.receipts.find? key = some r
  known : ∀ session messageId digest, db.Knows session messageId digest →
    db'.Knows session messageId digest

theorem Db.Retains.refl (db : Db δ) : db.Retains db := ⟨fun _ _ h => h, fun _ _ _ h => h⟩

theorem Db.Retains.trans {db db' db'' : Db δ} (h : db''.Retains db') (h' : db'.Retains db) :
    db''.Retains db where
  receipts key r hr := h.receipts key r (h'.receipts key r hr)
  known s m d hknows := h.known s m d (h'.known s m d hknows)

/-- A legal write that deletes no session retains what the retries rest on. -/
theorem retains_apply {db : Db δ} {w : Write δ} (hw : w.Legal db) (hkeep : w.deletes = false) :
    (w.apply db).Retains db where
  receipts key r hr := by
    cases w with
    | inbox w =>
      cases w with
      | receipt key' r' =>
        have hne : key ≠ key' := by
          rintro rfl
          rw [show db.inbox.receipts.find? key = none from hw] at hr
          cases hr
        simpa [Write.apply, InboxWrite.apply, hne] using hr
      | _ => exact hr
    | forget | purge => cases hkeep
    | _ => exact hr
  known session messageId digest hknows :=
    hknows.apply hw (by rintro rfl; cases hkeep) (by rintro rfl; cases hkeep)

/-- Operations that delete no session retain what the retries rest on. -/
theorem retains_run [DecidableEq δ] {deps : Deps δ} {db db' : Db δ} {ops : List Op}
    (h : (keeping deps).Run db ops db') : db'.Retains db := by
  refine h.rel (Q := fun _ => True) (R := fun a b : Db δ => b.Retains a) .refl
    (fun hab hbc => hbc.trans hab) (fun hstep _ => ⟨trivial, ?_⟩) trivial
  exact (keeping_writes hstep).invariant (Q := fun db' => db'.Retains _)
    (fun hlegal hw hr => (retains_apply hlegal hw.2).trans hr) (.refl _)

/-! ## Retries -/

/-- The receipt that an executed command leaves. -/
theorem receipt_of_executed [DecidableEq δ] {deps : Deps δ} {runtime : Runtime} {db db' : Db δ}
    {request : InboxRequest} {id : Option String}
    (h : executeAuthenticated deps runtime db request = .ok (id, db')) :
    ∃ r, db'.inbox.receipts.find? request.key = some r ∧
      r.digest = deps.commandDigest request.command ∧ r.resourceId = id := by
  obtain ⟨-, ⟨saved, hsaved, hdigest, rfl, rfl⟩ | ⟨-, -, session, db₁, -, hfree, rfl⟩⟩ :=
    executeAuthenticated_eq_ok h
  · exact ⟨saved, hsaved, hdigest, rfl⟩
  · exact ⟨_, by simp [Write.apply, InboxWrite.apply, hfree]; rfl, rfl, rfl⟩

/-- Under a key with a receipt, the command of the receipt is answered from it. -/
theorem executeAuthenticated_of_receipt [DecidableEq δ] {deps : Deps δ} {db : Db δ}
    {request : InboxRequest} {r : Receipt δ} (runtime : Runtime)
    (hr : db.inbox.receipts.find? request.key = some r)
    (hdigest : r.digest = deps.commandDigest request.command)
    (hvalid : validId request.key = true ∧ validId request.sender = true) :
    executeAuthenticated deps runtime db request = .ok (r.resourceId, db) := by
  simp only [executeAuthenticated, validateRequestIdentities, hvalid.1, hvalid.2, hr, hdigest,
    Bool.and_self, ensure_true, ok_bind, decide_true]
  rfl

/-- A request that fails leaves the database. -/
theorem after_of_error [DecidableEq δ] {deps : Deps δ} {db : Db δ} {request : InboxRequest}
    {runtime : Runtime} {error : ServiceError}
    (h : executeAuthenticated deps runtime db request = .error error) :
    after deps (.execute request runtime) db = db := by
  simp only [after, perform, h]
  rfl

/-- A command that was executed once, and any operations that delete no session after it. The same
command under its key is answered with the same resource and changes nothing, however the retry is
sent and whatever the runtime would answer now; another command under the key is refused. An
admission under a fresh key adds a receipt and nothing else while its session is open. A replay
without a receipt is refused, and what is refused changes nothing. -/
theorem receipts_idempotent [DecidableEq δ] {deps : Deps δ}
    (hdigest : Function.Injective deps.commandDigest) {db₀ db db₁ db₂ : Db δ}
    {before later : List Op} {request : InboxRequest} {runtime : Runtime} {id : Option String}
    (hempty : db₀.inbox = ∅) (hrun : (machine deps).Run db₀ before db)
    (hexecute : executeAuthenticated deps runtime db request = .ok (id, db₁))
    (hlater : (keeping deps).Run db₁ later db₂) :
    (∀ (retry : InboxRequest) (now : Runtime), retry.command = request.command →
      retry.key = request.key → validId retry.sender = true →
      executeAuthenticated deps now db₂ retry = .ok (id, db₂)) ∧
    (∀ (other : InboxRequest) (now : Runtime), other.command ≠ request.command →
      other.key = request.key → ∃ error, executeAuthenticated deps now db₂ other = .error error) ∧
    (∀ session messageId, request.command.admitted? = some (session, messageId) →
      db₂.directory.closed session = false → ∀ (again : InboxRequest) (now : Runtime),
      again.command = request.command → db₂.inbox.receipts.find? again.key = none →
      again.replayOnly = false → validId again.key = true → validId again.sender = true →
      id = some messageId ∧ executeAuthenticated deps now db₂ again
        = .ok (id, { db₂ with inbox := { db₂.inbox with
            receipts := db₂.inbox.receipts.insertOrIgnore again.key
              ⟨session, deps.commandDigest request.command, id⟩ } })) ∧
    (∀ (replay : InboxRequest) (now : Runtime), replay.replayOnly = true →
      db₂.inbox.receipts.find? replay.key = none →
      ∃ error, executeAuthenticated deps now db₂ replay = .error error) ∧
    (∀ (failed : InboxRequest) (now : Runtime) error,
      executeAuthenticated deps now db₂ failed = .error error →
      after deps (.execute failed now) db₂ = db₂) := by
  obtain ⟨⟨hkey, -⟩, -⟩ := executeAuthenticated_eq_ok hexecute
  obtain ⟨r, hr, hrdigest, hrid⟩ := receipt_of_executed hexecute
  have hretains := retains_run hlater
  have hr₂ := hretains.receipts _ r hr
  refine ⟨fun retry now hcommand hretry hsender => ?_, fun other now hcommand hother => ?_,
    fun session messageId hadmitted hopen again now hcommand hfree hreplay hagain hsender => ?_,
    fun replay now hreplay hnone => ?_, fun _ _ _ => after_of_error⟩
  · rw [← hrid]
    exact executeAuthenticated_of_receipt now (hretry ▸ hr₂) (hcommand ▸ hrdigest)
      ⟨hretry ▸ hkey, hsender⟩
  · cases hresult : executeAuthenticated deps now db₂ other with
    | error error => exact ⟨error, rfl⟩
    | ok answer =>
      -- it would be the command of the receipt
      obtain ⟨-, ⟨saved, hsaved, hd, -⟩ | ⟨hnone, -⟩⟩ := executeAuthenticated_eq_ok hresult
      · rw [hother, hr₂] at hsaved
        cases hsaved
        exact absurd (hdigest (hd.symm.trans hrdigest)) hcommand
      · rw [hother, hr₂] at hnone
        cases hnone
  · have hbacked : db₁.Backed deps := executeAuthenticated_backed
      (hrun.invariant (Q := fun db => db.Backed deps) backed_step
        (fun key r hr => by rw [hempty] at hr; cases hr)) hexecute
    obtain ⟨c, hc, hknown⟩ := hbacked _ r hr
    obtain rfl := hdigest (hc.trans hrdigest)
    obtain ⟨hs, hid, hchecked, hknows⟩ := hknown session messageId hadmitted
    have hcommand₂ := executeCommand_of_knows now again (hcommand ▸ hadmitted) (hcommand ▸ hchecked) (hretains.known _ _ _ hknows) hopen
    rw [hrdigest, ← hcommand] at hcommand₂
    have hinsert := (Table.insert?_eq_some_iff (r := ⟨session, deps.commandDigest again.command,
      some messageId⟩)).2 ⟨hfree, rfl⟩
    refine ⟨hrid.symm.trans hid, ?_⟩
    simp only [executeAuthenticated, validateRequestIdentities, hagain, hsender, Bool.and_self,
      ensure_true, ok_bind, hfree, hreplay, Bool.not_false, hcommand₂, hinsert, need_some,
      ← hrid, hid, ← hcommand]
    rfl
  · cases hresult : executeAuthenticated deps now db₂ replay with
    | error error => exact ⟨error, rfl⟩
    | ok answer =>
      obtain ⟨-, ⟨saved, hsaved, -⟩ | ⟨-, hfalse, -⟩⟩ := executeAuthenticated_eq_ok hresult
      · rw [hnone] at hsaved; cases hsaved
      · rw [hreplay] at hfalse; cases hfalse

/-- The request that the first claim delivers. -/
def greeting : InboxRequest :=
  ⟨.enqueueFollowup "agent" "hello" ⟨"Hello", []⟩, "key", "owner", false, 0⟩

/-- A message is admitted and claimed; a replay under its key is answered, although the runtime
would now refuse to materialize its prompt. -/
theorem receipts_idempotent_greeting :
    ∃ db₁, executeAuthenticated .verbatim ⟨.ok, .ok (), 0⟩
        (afterAll .verbatim (firstClaim.take 1) ∅) greeting = .ok (some "hello", db₁) ∧
      let db₂ := afterAll .verbatim (firstClaim.drop 2) db₁
      executeAuthenticated .verbatim ⟨fun _ => .error (refuse "gone"), .error (refuse "gone"), 0⟩
        db₂ { greeting with replayOnly := true } = .ok (some "hello", db₂) := by
  have hexecute : (result? (executeAuthenticated .verbatim ⟨.ok, .ok (), 0⟩
      (afterAll .verbatim (firstClaim.take 1) ∅) greeting)).map (·.1) = some (some "hello") := by
    decide +kernel
  obtain ⟨⟨id, db₁⟩, hresult, rfl⟩ := Option.map_eq_some_iff.1 hexecute
  refine ⟨db₁, result?_eq_some.1 hresult, ?_⟩
  exact (receipts_idempotent Function.injective_id rfl (machine_run_iff.2 rfl)
    (result?_eq_some.1 hresult) (keeping_run (by decide))).1 _ _ rfl rfl (by decide +kernel)

end Nakode
