import Nakode.Journal

/-!
# What the inbox operations write

One lemma for each operation of the inbox says what an accepted call found and wrote:
`admitFollowup_eq_ok`, `admitExternalReport_eq_ok`, `removePending_eq_ok`,
`executeAuthenticated_eq_ok`, `claim_eq_ok` and `admitChildEvent_eq_ok`. The statements of one
admission (`admitMessage`, `saveSource`, `setDisplayText`, `recordDelivery`) come out as the single
write `InboxWrite.admission`.
-/

namespace Nakode

open Relational Transition Outcome

variable {δ : Type}

/-! ## Admitting a message -/

namespace Inbox

theorem sequenceOf?_eq_none_iff {i : Inbox δ} {session message : String} :
    i.sequenceOf? session message = none ↔
      ∀ n m, i.messages.find? n = some m → ¬(m.sessionId = session ∧ m.messageId = message) := by
  simp [sequenceOf?, Table.find?_eq_some_iff]

/-- The sequence under an identity belongs to a message with it. -/
theorem of_sequenceOf? {i : Inbox δ} {session message : String} {n : Nat}
    (h : i.sequenceOf? session message = some n) :
    ∃ m, i.messages.find? n = some m ∧ m.sessionId = session ∧ m.messageId = message := by
  simp only [sequenceOf?, Option.map_eq_some_iff] at h
  obtain ⟨row, hrow, rfl⟩ := h
  have hp := List.find?_some hrow
  simp only [Bool.and_eq_true, beq_iff_eq] at hp
  exact ⟨row.2, Table.mem_rows_iff.1 (List.mem_of_find?_eq_some hrow), hp⟩

/-- The sequence of the message just added. -/
theorem sequenceOf?_append {i i' : Inbox δ} {m : Message δ}
    (h : i.sequenceOf? m.sessionId m.messageId = none)
    (hi : i'.messages = i.messages.append m) :
    i'.sequenceOf? m.sessionId m.messageId = some i.messages.next := by
  simp only [sequenceOf?, Option.map_eq_none_iff] at h
  simp [sequenceOf?, hi, List.find?_append, h]

end Inbox

theorem admitMessage_eq_ok {deps : Deps δ} {db db' : Db δ} {session messageId sender : String}
    {prompt : PromptInput} {nowMs : Int} {digest : δ}
    (h : admitMessage deps db session messageId prompt sender nowMs digest = .ok db') :
    ∃ bytes, db.inbox.sequenceOf? session messageId = none ∧
      let m := newMessage session messageId sender nowMs prompt bytes digest
      db' = { db with inbox := db.inbox.admission m none none } := by
  simp only [admitMessage, bind_eq_ok, ensure_eq_ok, pure_eq_ok] at h
  obtain ⟨bytes, -, _, -, _, hfree, rfl⟩ := h
  exact ⟨bytes, by simpa using hfree, rfl⟩

/-- Recording the source of a message just admitted. -/
theorem saveSource_eq_ok {db db' : Db δ} {m : Message δ} {source : Source}
    (hfree : db.inbox.sequenceOf? m.sessionId m.messageId = none)
    (h : saveSource { db with inbox := db.inbox.admission m none none } m.sessionId m.messageId source
      = .ok db') :
    db.inbox.sources.find? db.inbox.messages.next = none ∧
      db' = { db with inbox := db.inbox.admission m (some source) none } := by
  have hseq : (db.inbox.admission m none none).sequenceOf? m.sessionId m.messageId
      = some db.inbox.messages.next := Inbox.sequenceOf?_append hfree rfl
  simp only [saveSource, hseq, bind_eq_ok, ensure_eq_ok, need_eq_ok, pure_eq_ok,
    Table.insert?_eq_some_iff] at h
  obtain ⟨_, -, _, ⟨hnone, rfl⟩, rfl⟩ := h
  exact ⟨hnone, rfl⟩

/-- Setting the display text of a message just admitted. -/
theorem setDisplayText_admission {db : Db δ} {m : Message δ} {source : Option Source} {text : String}
    (hfree : db.inbox.sequenceOf? m.sessionId m.messageId = none) :
    setDisplayText { db with inbox := db.inbox.admission m source none } m.sessionId m.messageId text
      = { db with inbox := db.inbox.admission { m with displayText := text } source none } := by
  have hold := Inbox.sequenceOf?_eq_none_iff.1 hfree
  simp only [setDisplayText, Inbox.admission]
  rw [Sequenced.update_append (fun m : Message δ => { m with displayText := text })]
  · intro k s hk
    simpa using hold k s hk
  · simp

/-- Recording the delivery of a message just admitted. -/
theorem recordDelivery_eq_ok {db db' : Db δ} {m : Message δ} {source : Option Source}
    {report : Nat} (hfree : db.inbox.sequenceOf? m.sessionId m.messageId = none)
    (h : recordDelivery { db with inbox := db.inbox.admission m source none } report m.sessionId
      m.messageId = .ok db') :
    (db.inbox.deliveries.find? report = none ∧
      ∀ r, db.inbox.deliveries.find? r ≠ some db.inbox.messages.next) ∧
      db' = { db with inbox := db.inbox.admission m source (some report) } := by
  have hseq : (db.inbox.admission m source none).sequenceOf? m.sessionId m.messageId
      = some db.inbox.messages.next := Inbox.sequenceOf?_append hfree rfl
  simp only [recordDelivery, hseq, bind_eq_ok, ensure_eq_ok, need_eq_ok, pure_eq_ok,
    Table.insert?_eq_some_iff, Bool.not_eq_true', Table.has_eq_false_iff] at h
  obtain ⟨_, hunique, _, ⟨hnone, rfl⟩, rfl⟩ := h
  refine ⟨⟨hnone, fun r hr => ?_⟩, rfl⟩
  simpa using hunique r _ hr

/-! ## Links -/

theorem insertLink_eq_ok {db db' : Db δ} {clockMs : Int} {child parent title : String}
    (h : insertLink db clockMs child parent title = .ok db') :
    db.kinship.links.find? child = none ∧ child ≠ parent ∧ db.directory.exists? child = true ∧
      db.directory.exists? parent = true ∧
      db' = (Write.kin (.link child parent title)).apply db := by
  simp only [insertLink, bind_eq_ok, ensure_eq_ok, need_eq_ok, pure_eq_ok, bne_iff_ne,
    Bool.and_eq_true, Table.insert?_eq_some_iff] at h
  obtain ⟨_, -, _, ⟨hnone, rfl⟩, _, hne, _, ⟨hc, hp⟩, rfl⟩ := h
  exact ⟨hnone, hne, hc, hp, rfl⟩

theorem repointLink_eq_ok {db db' : Db δ} {clockMs : Int} {child parent : String} {link : Link}
    (hlink : db.kinship.links.find? child = some link) (hne : link.parentId ≠ parent)
    (h : repointLink db clockMs child parent = .ok db') :
    child ≠ parent ∧ db.directory.exists? parent = true ∧
      db' = (Write.kin (.repoint child parent)).apply db := by
  have hb : (link.parentId == parent) = false := by simpa using hne
  simp only [repointLink, hlink, hb, Bool.false_eq_true, if_false, bind_eq_ok, ensure_eq_ok,
    pure_eq_ok, bne_iff_ne] at h
  obtain ⟨_, -, _, hcp, _, hp, rfl⟩ := h
  exact ⟨hcp, hp, rfl⟩

theorem Kinship.parent?_eq_none_iff {k : Kinship δ} {child : String} :
    k.parent? child = none ↔ k.links.find? child = none := by
  simp [Kinship.parent?]

theorem Kinship.parent?_eq_some_iff {k : Kinship δ} {child parent : String} :
    k.parent? child = some parent ↔
      ∃ link, k.links.find? child = some link ∧ link.parentId = parent := by
  simp [Kinship.parent?]

/-- Linking leaves a link that is there, or makes one that joins the one-level forest. -/
theorem linkInTransaction_eq_ok {db db' : Db δ} {clockMs : Int} {parent child : String}
    (h : linkInTransaction db clockMs parent child = .ok db') :
    (db.kinship.parent? child = some parent ∧ db' = db) ∨
      ∃ title, (Write.kin (.link child parent title)).Legal db ∧
        db' = (Write.kin (.link child parent title)).apply db := by
  simp only [linkInTransaction, bind_eq_ok, ensure_eq_ok, need_eq_ok] at h
  obtain ⟨_, -, _, -, title, -, h⟩ := h
  split at h
  · next existing hparent =>
    simp only [bind_eq_ok, ensure_eq_ok, pure_eq_ok, beq_iff_eq] at h
    obtain ⟨_, rfl, rfl⟩ := h
    exact .inl ⟨hparent, rfl⟩
  · next hparent =>
    simp only [bind_eq_ok, ensure_eq_ok, mapError_eq_ok, Bool.not_eq_true',
      decide_eq_true_eq] at h
    obtain ⟨_, hnested, _, hcount, h⟩ := h
    obtain ⟨hnone, hne, hc, hp, rfl⟩ := insertLink_eq_ok h
    exact .inr ⟨title, ⟨⟨hnone, hne, hnested, hcount⟩, hc, hp⟩, rfl⟩

/-- Adoption changes nothing, links an orphan, or re-points the link of a child. -/
theorem adopt_eq_ok {db db' : Db δ} {clockMs : Int} {chat agent : String}
    (h : adopt db clockMs chat agent = .ok db') :
    db' = db ∨
      (∃ title, (Write.kin (.link agent chat title)).Legal db ∧
        db' = (Write.kin (.link agent chat title)).apply db) ∨
      (db.kinship.held agent clockMs = false ∧ (Write.kin (.repoint agent chat)).Legal db ∧
        db' = (Write.kin (.repoint agent chat)).apply db) := by
  simp only [adopt] at h
  by_cases hcurrent : db.kinship.parent? agent = some chat
  · rw [if_pos (by simpa using hcurrent)] at h
    exact .inl (pure_eq_ok.1 h).symm
  rw [if_neg (by simpa using hcurrent)] at h
  split at h
  · exact .inl (pure_eq_ok.1 h).symm
  next hroom =>
  simp only [Bool.or_eq_true, not_or, Bool.not_eq_true, decide_eq_true_eq, ge_iff_le,
    Nat.not_le] at hroom
  obtain ⟨⟨hnested, hcount⟩, hheld⟩ := hroom
  split at h
  · next hsome =>
    obtain ⟨parent, hparent⟩ := Option.isSome_iff_exists.1 hsome
    obtain ⟨link, hlink, rfl⟩ := Kinship.parent?_eq_some_iff.1 hparent
    have hne : link.parentId ≠ chat := fun heq => hcurrent (by rw [hparent, heq])
    obtain ⟨hac, hp, rfl⟩ := repointLink_eq_ok hlink hne (mapError_eq_ok.1 h)
    exact .inr (.inr ⟨hheld, ⟨⟨⟨link, hlink, hne⟩, hac, hnested, hcount⟩, hp⟩, rfl⟩)
  · split at h
    · exact .inl (pure_eq_ok.1 h).symm
    · next row _ =>
      obtain ⟨hfree, hne, hc, hp, rfl⟩ := insertLink_eq_ok (mapError_eq_ok.1 h)
      exact .inr (.inl ⟨row.title, ⟨⟨hfree, hne, hnested, hcount⟩, hc, hp⟩, rfl⟩)

/-! ## Inbox commands -/

theorem authorize_eq_ok {db : Db δ} {session : String} {requireOpen : Bool} :
    authorize db session requireOpen = .ok () ↔
      validId session = true ∧ db.directory.exists? session = true ∧
        (requireOpen = true → db.directory.closed session = false) := by
  cases requireOpen <;> simp [authorize]

theorem validateMessageIdentity_eq_ok {messageId : String} :
    validateMessageIdentity messageId = .ok () ↔
      Text.startsWith messageId childEventPrefix = false ∧ validId messageId = true := by
  simp [validateMessageIdentity]

/-- The source of a relay names its session, and an instruction that no owner Chat gives comes
from the parent. -/
theorem relaySource_eq_ok {db : Db δ} {source target call : String} {ownerChat : Bool} {s : Source}
    (h : relaySource db source target call ownerChat = .ok s) :
    s.sessionId = source ∧ s.ownerChat = ownerChat ∧
      (s.kind = .delegatedInstruction → ownerChat = false →
        db.kinship.parent? target = some source) ∧
      s.kind ≠ .durableChildEvidence := by
  simp only [relaySource, bind_eq_ok, need_eq_ok, pure_eq_ok] at h
  obtain ⟨_, -, title, -, rfl⟩ := h
  refine ⟨rfl, rfl, fun hkind howner => ?_, ?_⟩
  · subst howner
    by_contra hne
    simp [hne] at hkind
  · dsimp only
    split <;> simp

theorem authenticateSource_eq_ok {db : Db δ} {command : Command}
    {authenticate : Except ServiceError Unit} {source : Option Source}
    (h : authenticateSource db command authenticate = .ok source) :
    source = none ∨ ∃ session messageId from_ call prompt ownerChat s,
      command = .relayAgentFollowup session messageId from_ call prompt ownerChat ∧
      source = some s ∧ relaySource db from_ session call ownerChat = .ok s := by
  cases command with
  | relayAgentFollowup session messageId from_ call prompt ownerChat =>
    simp only [authenticateSource, bind_eq_ok, pure_eq_ok] at h
    obtain ⟨_, -, s, hs, rfl⟩ := h
    exact .inr ⟨session, messageId, from_, call, prompt, ownerChat, s, rfl, rfl, hs⟩
  | _ => exact .inl (pure_eq_ok.1 h).symm

/-- An enqueued or relayed message is known already, or it is admitted with the source of its relay;
an owner Chat's message then adopts the agent. -/
theorem admitFollowup_eq_ok [DecidableEq δ] {deps : Deps δ} {runtime : Runtime} {db db' : Db δ}
    {request : InboxRequest} {session messageId : String} {prompt : PromptInput} {digest : δ}
    {answer : String × Option String}
    (h : admitFollowup deps runtime db request session messageId prompt digest
      = .ok (answer, db'))
    (hcommand : ∀ s' m' f c p o, request.command = .relayAgentFollowup s' m' f c p o →
      s' = session) :
    answer = (session, some messageId) ∧
      ((messageExists db session messageId digest = .ok true ∧ db' = db) ∨
      ∃ m source, (Write.inbox (.admission m source none)).Legal db ∧ m.sessionId = session ∧
        m.messageId = messageId ∧ m.requestDigest = digest ∧
        (db' = (Write.inbox (.admission m source none)).apply db ∨
          ∃ s, source = some s ∧ s.ownerChat = true ∧
            (∃ m' c p, request.command = .relayAgentFollowup session m' s.sessionId c p true) ∧
            adopt ((Write.inbox (.admission m source none)).apply db) runtime.clockMs s.sessionId
              session = .ok db')) := by
  simp only [admitFollowup, bind_eq_ok] at h
  obtain ⟨_, hidentity, _, hauthorize, known, hknown, h⟩ := h
  obtain ⟨hreserved, -⟩ := validateMessageIdentity_eq_ok.1 hidentity
  obtain ⟨-, hexists, -⟩ := authorize_eq_ok.1 hauthorize
  split at h
  · next hk =>
    subst hk
    obtain ⟨rfl, rfl⟩ := Prod.mk.inj (pure_eq_ok.1 h)
    exact ⟨rfl, .inl ⟨hknown, rfl⟩⟩
  simp only [bind_eq_ok] at h
  obtain ⟨source, hsource, content, -, db₁, hadmitted, h⟩ := h
  obtain ⟨bytes, hfree, rfl⟩ := admitMessage_eq_ok hadmitted
  generalize hm : newMessage session messageId request.sender request.nowMs content bytes digest = m
    at h
  have hms : m.sessionId = session := by subst hm; rfl
  have hmid : m.messageId = messageId := by subst hm; rfl
  have hmd : m.requestDigest = digest := by subst hm; rfl
  have hmb : m.batchId = none := by subst hm; rfl
  have hfree' : db.inbox.sequenceOf? m.sessionId m.messageId = none := by rw [hms, hmid]; exact hfree
  have hgrounded : ∀ source : Option Source,
      (∀ s, source = some s → s.kind = .delegatedInstruction → s.ownerChat = false →
        db.kinship.parent? m.sessionId = some s.sessionId) → Grounded db m source none :=
    fun source hinstruction =>
      { session := by rw [hms]; exact hexists
        instruction := hinstruction
        evidence := fun r hr => by cases hr
        reserved := fun _ => by rw [hmid]; exact hreserved }
  rcases authenticateSource_eq_ok hsource with rfl | ⟨s', m', f, c, p, o, s, hcmd, rfl, hs⟩
  · obtain ⟨rfl, rfl⟩ := Prod.mk.inj (pure_eq_ok.1 h)
    refine ⟨rfl, .inr ⟨m, none, ⟨⟨hfree', hmb, by simp, fun r hr => by cases hr⟩,
      hgrounded none (fun s hs => by cases hs)⟩, hms, hmid, hmd, .inl rfl⟩⟩
  · obtain rfl := hcommand _ _ _ _ _ _ hcmd
    obtain ⟨hsession, howner, hinstruction, -⟩ := relaySource_eq_ok hs
    simp only [bind_eq_ok] at h
    obtain ⟨db₂, hsave, h⟩ := h
    rw [← hms, ← hmid] at hsave
    obtain ⟨hnone, rfl⟩ := saveSource_eq_ok hfree' hsave
    have hlegal : (Write.inbox (.admission m (some s) none)).Legal db :=
      ⟨⟨hfree', hmb, fun _ => hnone, fun r hr => by cases hr⟩, hgrounded (some s) fun t ht hkind ho => by
        cases ht
        rw [hms, hsession]
        exact hinstruction hkind (howner ▸ ho)⟩
    split at h
    · next hchat =>
      obtain ⟨db₃, hadopt, h⟩ := bind_eq_ok.1 h
      obtain ⟨rfl, rfl⟩ := Prod.mk.inj (pure_eq_ok.1 h)
      refine ⟨rfl, .inr ⟨m, some s, hlegal, hms, hmid, hmd, .inr ⟨s, rfl, hchat, ?_, hadopt⟩⟩⟩
      exact ⟨m', c, p, by rw [hcmd, hsession, ← howner, hchat]⟩
    · obtain ⟨rfl, rfl⟩ := Prod.mk.inj (pure_eq_ok.1 h)
      exact ⟨rfl, .inr ⟨m, some s, hlegal, hms, hmid, hmd, .inl rfl⟩⟩

/-- An external report is known already, or it is admitted with its source. -/
theorem admitExternalReport_eq_ok [DecidableEq δ] {deps : Deps δ} {db db' : Db δ}
    {request : InboxRequest} {digest : δ} {answer : String × Option String}
    (h : admitExternalReport deps db request digest = .ok (answer, db')) :
    ∃ session messageId child title report state body,
      request.command = .admitExternalChildReport session messageId child title report state body ∧
      answer = (session, some messageId) ∧
      ((messageExists db session messageId digest = .ok true ∧ db' = db) ∨
      ∃ m source, (Write.inbox (.admission m source none)).Legal db ∧ m.sessionId = session ∧
        m.messageId = messageId ∧ m.requestDigest = digest ∧
        db' = (Write.inbox (.admission m source none)).apply db) := by
  simp only [admitExternalReport] at h
  split at h
  · next session messageId child title report state body hcmd =>
    refine ⟨session, messageId, child, title, report, state, body, hcmd, ?_⟩
    simp only [bind_eq_ok] at h
    obtain ⟨_, hidentity, _, hauthorize, ⟨prompt, source, display⟩, hreport, known, hknown, h⟩ := h
    obtain ⟨hreserved, -⟩ := validateMessageIdentity_eq_ok.1 hidentity
    obtain ⟨-, hexists, -⟩ := authorize_eq_ok.1 hauthorize
    split at h
    · next hk =>
      subst hk
      obtain ⟨rfl, rfl⟩ := Prod.mk.inj (pure_eq_ok.1 h)
      exact ⟨rfl, .inl ⟨hknown, rfl⟩⟩
    simp only [bind_eq_ok, pure_eq_ok] at h
    obtain ⟨db₁, hadmitted, db₂, hsave, h⟩ := h
    obtain ⟨rfl, rfl⟩ := Prod.mk.inj h
    obtain ⟨bytes, hfree, rfl⟩ := admitMessage_eq_ok hadmitted
    generalize hm : newMessage session messageId request.sender request.nowMs prompt bytes digest
      = m at hsave
    have hms : m.sessionId = session := by subst hm; rfl
    have hmid : m.messageId = messageId := by subst hm; rfl
    have hfree' : db.inbox.sequenceOf? m.sessionId m.messageId = none := by
      rw [hms, hmid]; exact hfree
    rw [← hms, ← hmid] at hsave ⊢
    obtain ⟨hnone, rfl⟩ := saveSource_eq_ok hfree' hsave
    have hkind : source.kind ≠ .delegatedInstruction := by
      simp only [externalReport, bind_eq_ok, pure_eq_ok] at hreport
      obtain ⟨_, -, status, -, _, -, hreport⟩ := hreport
      obtain ⟨-, hrest⟩ := Prod.mk.inj hreport
      obtain ⟨rfl, -⟩ := Prod.mk.inj hrest
      simp [evidenceSource]
    refine ⟨rfl, .inr ⟨{ m with displayText := display }, some source, ⟨⟨hfree', ?_, fun _ => hnone,
      fun r hr => by cases hr⟩, ?_⟩, rfl, rfl, ?_, setDisplayText_admission hfree'⟩⟩
    · subst hm; rfl
    · exact
        { session := by rw [hms]; exact hexists
          instruction := fun s hs hk => by cases hs; exact absurd hk hkind
          evidence := fun r hr => by cases hr
          reserved := fun _ => by rw [hmid]; exact hreserved }
    · subst hm; rfl
  · simp at h

theorem removePending_eq_ok {db db' : Db δ} {session messageId : String}
    (h : removePending db session messageId = .ok db') :
    ∃ n, (Write.inbox (.remove n)).Legal db ∧ db' = (Write.inbox (.remove n)).apply db ∧
      db.directory.exists? session = true := by
  simp only [removePending, bind_eq_ok, need_eq_ok] at h
  obtain ⟨_, hauthorize, _, -, n, hn, h⟩ := h
  obtain ⟨-, hexists, -⟩ := authorize_eq_ok.1 hauthorize
  obtain ⟨m, hm, -, -⟩ := Inbox.of_sequenceOf? hn
  split at h
  · simp at h
  · next hstate =>
    rw [hm] at hstate
    exact ⟨n, ⟨m, hm, hstate⟩, (pure_eq_ok.1 h).symm, hexists⟩

theorem executeAuthenticated_eq_ok [DecidableEq δ] {deps : Deps δ} {runtime : Runtime}
    {db db' : Db δ} {request : InboxRequest} {id : Option String}
    (h : executeAuthenticated deps runtime db request = .ok (id, db')) :
    (validId request.key = true ∧ validId request.sender = true) ∧
    ((∃ saved, db.inbox.receipts.find? request.key = some saved ∧
        saved.digest = deps.commandDigest request.command ∧ id = saved.resourceId ∧ db' = db) ∨
      (db.inbox.receipts.find? request.key = none ∧ request.replayOnly = false ∧
        ∃ session db₁, executeCommand deps runtime db request
            (deps.commandDigest request.command) = .ok ((session, id), db₁) ∧
          db₁.inbox.receipts.find? request.key = none ∧
          db' = (Write.inbox (.receipt request.key
            ⟨session, deps.commandDigest request.command, id⟩)).apply db₁)) := by
  simp only [executeAuthenticated, bind_eq_ok, validateRequestIdentities, ensure_eq_ok,
    Bool.and_eq_true] at h
  obtain ⟨_, hvalid, h⟩ := h
  refine ⟨hvalid, ?_⟩
  split at h
  · next saved hsaved =>
    simp only [bind_eq_ok, ensure_eq_ok, decide_eq_true_eq, pure_eq_ok] at h
    obtain ⟨_, hdigest, h⟩ := h
    obtain ⟨rfl, rfl⟩ := Prod.mk.inj h
    exact .inl ⟨saved, hsaved, hdigest, rfl, rfl⟩
  · next hsaved =>
    simp only [bind_eq_ok, ensure_eq_ok, need_eq_ok, pure_eq_ok, Bool.not_eq_true',
      Table.insert?_eq_some_iff] at h
    obtain ⟨_, hreplay, ⟨⟨session, id'⟩, db₁⟩, hcommand, _, ⟨hfree, rfl⟩, h⟩ := h
    obtain ⟨rfl, rfl⟩ := Prod.mk.inj h
    exact .inr ⟨hsaved, hreplay, session, db₁, hcommand, hfree, rfl⟩

/-! ## Batches -/

/-- What is read from a row keeps the row's columns. -/
theorem readMessage_eq_ok {db : Db δ} {session : String} {row : Nat × Message δ}
    {stored : StoredMessage} (h : readMessage db session row = .ok stored) :
    revalidate db session (db.inbox.sources.find? row.1) = .ok () ∧
      ∃ input, row.2.prompt = some input ∧
        stored = ⟨row.1, row.2.messageId, row.2.submittedBy, row.2.receivedAtMs, input,
          (db.inbox.sources.find? row.1).getD ordinarySource, row.2.displayText⟩ := by
  simp only [readMessage, bind_eq_ok, need_eq_ok, pure_eq_ok] at h
  obtain ⟨input, hinput, _, hvalid, rfl⟩ := h
  exact ⟨hvalid, input, hinput, rfl⟩

/-- Reading rows is reading each of them. -/
theorem readEach_eq_ok {db : Db δ} {session : String} {rows : List (Nat × Message δ)}
    {messages : List StoredMessage} :
    readEach db session rows = .ok messages ↔
      List.Forall₂ (fun row m => readMessage db session row = .ok m) rows messages := by
  induction rows generalizing messages with
  | nil => simp [readEach, eq_comm]
  | cons row rest ih =>
    simp only [readEach, bind_eq_ok, pure_eq_ok, List.forall₂_cons_left_iff, ih]
    constructor
    · rintro ⟨m, hm, ms, hms, rfl⟩
      exact ⟨m, ms, hm, hms, rfl⟩
    · rintro ⟨m, ms, hm, hms, rfl⟩
      exact ⟨m, hm, ms, hms, rfl⟩

/-- The messages read are those of the rows, in their order. -/
theorem readEach_sequences {db : Db δ} {session : String} {rows : List (Nat × Message δ)}
    {messages : List StoredMessage} (h : readEach db session rows = .ok messages) :
    messages.map (·.sequence) = rows.map (·.1) := by
  induction readEach_eq_ok.1 h with
  | nil => rfl
  | cons hrow _ ih =>
    obtain ⟨-, _, -, rfl⟩ := readMessage_eq_ok hrow
    simpa using ih (readEach_eq_ok.2 ‹_›)

/-- A batch takes a prefix of what it is offered. -/
theorem boundedFrom_isPrefix (text image attachments : Nat) (messages : List StoredMessage) :
    boundedFrom text image attachments messages <+: messages := by
  induction messages generalizing text image attachments with
  | nil => exact List.prefix_rfl
  | cons m rest ih =>
    simp only [boundedFrom]
    split
    · exact List.cons_prefix_cons.2 ⟨rfl, ih ..⟩
    · exact List.nil_prefix

theorem boundedPrefix_isPrefix (messages : List StoredMessage) :
    boundedPrefix messages <+: messages :=
  boundedFrom_isPrefix ..

theorem Inbox.mem_pending_iff {i : Inbox δ} {session : String} {row : Nat × Message δ} :
    row ∈ i.pending session ↔ i.messages.find? row.1 = some row.2 ∧ row.2.sessionId = session ∧
      row.2.batchId = none ∧ i.removed row.1 = false := by
  simp [pending, Table.mem_rows_iff, and_assoc]

/-- What a claim answers: nothing, the open batch read again, or a new batch cut off at the last
message that fits. -/
theorem claim_eq_ok {db db' : Db δ} {session uuid : String} {answer : Option ClaimedBatch}
    (h : claim db session uuid = .ok (answer, db')) :
    authorize db session true = .ok () ∧ authorizedChildMessages db session = true ∧
    ((answer = none ∧ db' = db) ∨
      (∃ id batch messages, db.inbox.paused session = false ∧
        db.inbox.openBatch? session = some (id, batch) ∧ batch.state = .claimed ∧
        batch.blockedReason = none ∧ readMessages db session (some id) = .ok messages ∧
        answer = some ⟨id, combine messages, displayJson messages⟩ ∧ db' = db) ∨
      (∃ pending last, db.inbox.paused session = false ∧
        readMessages db session none = .ok pending ∧
        (boundedPrefix pending).getLast? = some last ∧
        let display := displayJson (boundedPrefix pending)
        let w := Write.inbox (.cut session ("followup-" ++ uuid) last.sequence display)
        answer = some ⟨"followup-" ++ uuid, combine (boundedPrefix pending), display⟩ ∧
        w.Legal db ∧ db' = w.apply db)) := by
  simp only [claim, bind_eq_ok, ensure_eq_ok] at h
  obtain ⟨_, hauthorize, _, hevidence, h⟩ := h
  refine ⟨hauthorize, hevidence, ?_⟩
  split at h
  · obtain ⟨rfl, rfl⟩ := Prod.mk.inj (pure_eq_ok.1 h)
    exact .inl ⟨rfl, rfl⟩
  next hpaused =>
  have hpaused : db.inbox.paused session = false := by simpa using hpaused
  split at h
  · next id batch hopen =>
    split at h
    · obtain ⟨rfl, rfl⟩ := Prod.mk.inj (pure_eq_ok.1 h)
      exact .inl ⟨rfl, rfl⟩
    · next hstate =>
      simp only [Bool.or_eq_true, bne_iff_ne, not_or, not_not, Option.not_isSome_iff_eq_none]
        at hstate
      obtain ⟨messages, hread, h⟩ := bind_eq_ok.1 h
      obtain ⟨rfl, rfl⟩ := Prod.mk.inj (pure_eq_ok.1 h)
      exact .inr (.inl ⟨id, batch, messages, hpaused, hopen, hstate.1, hstate.2, hread, rfl, rfl⟩)
  · next hopen =>
    obtain ⟨pending, hread, h⟩ := bind_eq_ok.1 h
    split at h
    · obtain ⟨rfl, rfl⟩ := Prod.mk.inj (pure_eq_ok.1 h)
      exact .inl ⟨rfl, rfl⟩
    simp only [bind_eq_ok, ensure_eq_ok, need_eq_ok, pure_eq_ok, Option.isNone_iff_eq_none] at h
    obtain ⟨last, hlast, _, hbatch, _, hdisplay, h⟩ := h
    obtain ⟨rfl, rfl⟩ := Prod.mk.inj h
    refine .inr (.inr ⟨pending, last, hpaused, hread, hlast, rfl, ⟨hbatch, hdisplay, hopen, ?_⟩, rfl⟩)
    -- the cutoff is the sequence of a message that waits
    have hmem : last ∈ pending :=
      (boundedPrefix_isPrefix pending).subset (List.mem_of_getLast? hlast)
    have hseq : last.sequence ∈ ((db.inbox.pending session).take batchLimit).map (·.1) :=
      readEach_sequences hread ▸ List.mem_map_of_mem hmem
    obtain ⟨row, hrow, hrow'⟩ := List.mem_map.1 hseq
    rw [← hrow']
    exact ⟨row.2, Inbox.mem_pending_iff.1 (List.mem_of_mem_take hrow)⟩

/-! ## Child evidence -/

/-- The report of an event is there, and its child is linked to the event's parent. -/
structure ChildEvent.Holds (event : ChildEvent) (db : Db δ) : Prop where
  report : db.reports.rows.find? event.sequence = some event.report
  evident : event.report.state.evident = true
  linked : db.kinship.parent? event.report.childId = some event.parent
  owned : db.directory.sharesOwnership event.report.childId event.parent = true

/-- Every event of a page holds. -/
theorem holds_of_mem_childEvents {db : Db δ} {event : ChildEvent} (h : event ∈ childEvents db) :
    event.Holds db := by
  obtain ⟨⟨sequence, report⟩, hrow, h⟩ := List.mem_filterMap.1 (List.mem_of_mem_take h)
  dsimp only at h
  split at h
  · next link hlink =>
    split at h
    · next hadmissible =>
      cases h
      simp only [admissible, Bool.and_eq_true] at hadmissible
      obtain ⟨⟨⟨⟨⟨hevident, -⟩, -⟩, -⟩, -⟩, howned⟩ := hadmissible
      exact ⟨Table.mem_rows_iff.1 hrow, hevident,
        Kinship.parent?_eq_some_iff.2 ⟨link, hlink, rfl⟩, howned⟩
    · cases h
  · cases h

theorem Directory.exists?_of_sharesOwnership {d : Directory} {a b : String}
    (h : d.sharesOwnership a b = true) : d.exists? a = true ∧ d.exists? b = true := by
  simp only [sharesOwnership] at h
  split at h
  · next ha hb => simp [exists?, ha, hb]
  · cases h

/-- A report is admitted with its source and its delivery, or it waits. -/
theorem admitChildEvent_eq_ok {deps : Deps δ} {db db' : Db δ} {event : ChildEvent} {now : Bool}
    (hholds : event.Holds db) (h : admitChildEvent deps db event = .ok (now, db')) :
    (now = false ∧ db' = db) ∨
      now = true ∧ ∃ m source, (Write.inbox (.admission m source (some event.sequence))).Legal db ∧
        m.sessionId = event.parent ∧
        db' = (Write.inbox (.admission m source (some event.sequence))).apply db := by
  unfold admitChildEvent at h
  extract_lets message prompt at h
  cases hadmitted : admitMessage deps db event.parent message prompt "nakode:durable-child"
    event.report.createdAtMs (deps.textDigest prompt.text) with
  | error error =>
    simp only [hadmitted] at h
    by_cases hcode : error.code = .conflict
    · rw [if_pos hcode] at h
      obtain ⟨rfl, rfl⟩ := Prod.mk.inj (Except.ok.inj h)
      exact .inl ⟨rfl, rfl⟩
    · rw [if_neg hcode] at h
      cases h
  | ok db₁ =>
    simp only [hadmitted] at h
    obtain ⟨bytes, hfree, rfl⟩ := admitMessage_eq_ok hadmitted
    clear_value prompt
    generalize hm : newMessage event.parent message "nakode:durable-child"
      event.report.createdAtMs prompt bytes (deps.textDigest prompt.text) = m at h
    have hms : m.sessionId = event.parent := by subst hm; rfl
    have hmid : m.messageId = message := by subst hm; rfl
    have hmb : m.batchId = none := by subst hm; rfl
    have hfree' : db.inbox.sequenceOf? m.sessionId m.messageId = none := by
      rw [hms, hmid]; exact hfree
    simp only [bind_eq_ok, pure_eq_ok] at h
    obtain ⟨db₂, hsave, db₃, hdelivery, h⟩ := h
    obtain ⟨rfl, rfl⟩ := Prod.mk.inj h
    rw [← hms, ← hmid] at hsave hdelivery
    obtain ⟨hnone, rfl⟩ := saveSource_eq_ok hfree' hsave
    rw [setDisplayText_admission hfree'] at hdelivery
    -- the display text is no part of the identity
    generalize hshown : ({ m with displayText := _ } : Message δ) = shown at hdelivery
    have hss : shown.sessionId = m.sessionId := by subst hshown; rfl
    have hsid : shown.messageId = m.messageId := by subst hshown; rfl
    have hsb : shown.batchId = none := by subst hshown; exact hmb
    rw [← hss, ← hsid] at hdelivery hfree'
    obtain ⟨hdeliveries, rfl⟩ := recordDelivery_eq_ok hfree' hdelivery
    refine .inr ⟨rfl, shown,
      some (evidenceSource event.report.childId event.title event.report.state),
      ⟨⟨hfree', hsb, fun _ => hnone, fun r hr => ?_⟩, ?_⟩, hss.trans hms, rfl⟩
    · cases hr; exact hdeliveries
    · exact
        { session := by
            rw [hss, hms]
            exact (Directory.exists?_of_sharesOwnership hholds.owned).2
          instruction := fun s hs hk => by cases hs; cases hk
          evidence := fun r hr => by
            cases hr
            refine ⟨event.report, _, hholds.report, hholds.evident, ?_, ?_, rfl, rfl, rfl, ?_⟩
            · rw [hss, hms]; exact hholds.linked
            · rw [hss, hms]; exact hholds.owned
            · rw [hsid, hmid]
          reserved := fun hr => by cases hr }

end Nakode
