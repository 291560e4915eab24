import Nakode.System
import Nakode.Operations.Inbox

/-!
# Steering and claiming

A steer interrupts running work on the word of `checkSteerable`, and the claim that follows decides
again, with checks that `checkSteerable` does not make: every row that it reads must be readable
now, and the oldest waiting message must fit a batch. `steer_agrees_iff` says in which states the
two agree, and `steer_destroys_work` is a state in which they do not.
-/

namespace Nakode

open Relational Outcome

variable {δ : Type}

/-! ## What the guard decides -/

/-- The session is there and open and its inbox is not paused, the evidence in it may be claimed,
and either a claimed batch waits for its delivery or messages wait. -/
structure Steerable (db : Db δ) (session : String) : Prop where
  valid : validId session = true
  exist : db.directory.exists? session = true
  «open» : db.directory.closed session = false
  evidence : authorizedChildMessages db session = true
  unpaused : db.inbox.paused session = false
  batch : ∀ id b, db.inbox.openBatch? session = some (id, b) →
    b.state = .claimed ∧ b.blockedReason = none
  pending : db.inbox.openBatch? session = none → db.inbox.pending session ≠ []

/-- A batch that is open is claimed or on its way. -/
theorem Inbox.openBatch?_state {i : Inbox δ} {session id : String} {b : Batch}
    (h : i.openBatch? session = some (id, b)) : b.state = .claimed ∨ b.state = .dispatching := by
  have hopen := List.find?_some h
  simp only [Bool.and_eq_true, beq_iff_eq, bne_iff_ne, ne_eq] at hopen
  cases hstate : b.state with
  | claimed => exact .inl rfl
  | dispatching => exact .inr rfl
  | consumed => exact absurd hstate hopen.2

theorem checkSteerable_eq_ok {db : Db δ} {session : String} :
    checkSteerable db session = .ok () ↔ Steerable db session := by
  simp only [checkSteerable, bind_eq_ok, ensure_eq_ok, Bool.not_eq_true']
  constructor
  · rintro ⟨_, hauthorize, _, hevidence, _, hpaused, h⟩
    obtain ⟨hvalid, hexists, hopen⟩ := authorize_eq_ok.1 hauthorize
    refine ⟨hvalid, hexists, hopen rfl, hevidence, hpaused, ?_, ?_⟩
    · intro id b hb
      simp only [hb, bind_eq_ok, ensure_eq_ok, Option.isNone_iff_eq_none, bne_iff_ne, ne_eq] at h
      obtain ⟨_, hblocked, hstate⟩ := h
      exact ⟨(Inbox.openBatch?_state hb).resolve_right hstate, hblocked⟩
    · intro hnone
      simpa [hnone] using h
  · rintro ⟨hvalid, hexists, hopen, hevidence, hpaused, hbatch, hpending⟩
    refine ⟨(), authorize_eq_ok.2 ⟨hvalid, hexists, fun _ => hopen⟩, (), hevidence, (), hpaused, ?_⟩
    cases hb : db.inbox.openBatch? session with
    | some row =>
      obtain ⟨hstate, hblocked⟩ := hbatch row.1 row.2 hb
      simp [hstate, hblocked]
    | none => simpa using hpending hb

/-! ## What the claim reads -/

/-- The source of a relay could send its message now. -/
def Source.current (s : Source) (db : Db δ) (session : String) : Bool :=
  validId s.sessionId && db.directory.exists? s.sessionId && !db.directory.closed s.sessionId
    && s.sessionId != session && db.directory.sharesOwnership s.sessionId session
    && (s.kind != .delegatedInstruction || s.ownerChat
      || db.kinship.parent? session == some s.sessionId)

/-- The payload of a row decodes, and the source of a relayed message could send it now. -/
def readable (db : Db δ) (session : String) (row : Nat × Message δ) : Bool :=
  row.2.prompt.isSome && (db.inbox.sources.find? row.1).all fun s =>
    !(s.kind == .delegatedInstruction || s.kind == .peerContext) || s.current db session

/-- What a relay needs of its source, and the kind of message it is then. -/
theorem relaySource_eq_ok_iff {db : Db δ} {source target call : String} {ownerChat : Bool}
    {s : Source} :
    relaySource db source target call ownerChat = .ok s ↔
      (validId source = true ∧ db.directory.exists? source = true ∧
        db.directory.closed source = false) ∧ source ≠ target ∧
      db.directory.sharesOwnership source target = true ∧
      ∃ row, db.directory.sessions.find? source = some row ∧
        s = ⟨if db.kinship.parent? target == some source || ownerChat then .delegatedInstruction
          else .peerContext, source, Text.take 120 row.title, some call, none, ownerChat⟩ := by
  simp only [relaySource, bind_eq_ok, need_eq_ok, pure_eq_ok]
  constructor
  · rintro ⟨_, hauthorize, title, htitle, rfl⟩
    obtain ⟨hvalid, hexists, hopen⟩ := authorize_eq_ok.1 hauthorize
    split at htitle
    · next hshares =>
      simp only [Bool.and_eq_true, bne_iff_ne] at hshares
      obtain ⟨row, hrow, rfl⟩ := Option.map_eq_some_iff.1 htitle
      exact ⟨⟨hvalid, hexists, hopen rfl⟩, hshares.1, hshares.2, row, hrow, rfl⟩
    · cases htitle
  · rintro ⟨⟨hvalid, hexists, hopen⟩, hother, hshares, row, hrow, rfl⟩
    exact ⟨(), authorize_eq_ok.2 ⟨hvalid, hexists, fun _ => hopen⟩, row.title,
      by simp [hother, hshares, hrow], rfl⟩

theorem revalidate_eq_ok {db : Db δ} {session : String} {source : Option Source} :
    revalidate db session source = .ok () ↔ source.all (fun s =>
      !(s.kind == .delegatedInstruction || s.kind == .peerContext) || s.current db session)
        = true := by
  cases source with
  | none => simp [revalidate]
  | some s =>
    simp only [revalidate, Option.all_some, Bool.or_eq_true (!_), Bool.not_eq_true']
    split
    swap
    · next hother => simp [hother]
    next hrelay =>
    simp only [hrelay, Bool.true_eq_false, false_or, bind_eq_ok, ensure_eq_ok,
      relaySource_eq_ok_iff, Source.current, Bool.and_eq_true, Bool.not_eq_true', bne_iff_ne]
    constructor
    · rintro ⟨t, ⟨⟨hvalid, hexists, hopen⟩, hother, hshares, row, -, rfl⟩, hkind⟩
      refine ⟨⟨⟨⟨⟨hvalid, hexists⟩, hopen⟩, hother⟩, hshares⟩, ?_⟩
      by_contra hnot
      simp only [Bool.or_eq_true, not_or, bne_iff_ne, not_not, beq_iff_eq, Bool.not_eq_true]
        at hnot
      simp [hnot.1.1, hnot.1.2, hnot.2] at hkind
    · rintro ⟨⟨⟨⟨⟨hvalid, hexists⟩, hopen⟩, hother⟩, hshares⟩, hkind⟩
      obtain ⟨row, hrow⟩ := Option.isSome_iff_exists.1 hexists
      refine ⟨_, ⟨⟨hvalid, hexists, hopen⟩, hother, hshares, row, hrow, rfl⟩, ?_⟩
      simp only [Bool.or_eq_true, bne_iff_ne, beq_iff_eq] at hkind
      rcases hkind with (hkind | howner) | hlink
      · simp [hkind]
      · simpa [howner] using Eq.symm
      · simpa [hlink] using Eq.symm

theorem readMessage_isOk_iff {db : Db δ} {session : String} {row : Nat × Message δ} :
    (∃ m, readMessage db session row = .ok m) ↔ readable db session row = true := by
  simp only [readMessage, bind_eq_ok, need_eq_ok, pure_eq_ok, readable, Bool.and_eq_true,
    ← revalidate_eq_ok, Option.isSome_iff_exists]
  constructor
  · rintro ⟨m, input, hinput, _, hvalid, -⟩
    exact ⟨⟨input, hinput⟩, hvalid⟩
  · rintro ⟨⟨input, hinput⟩, hvalid⟩
    exact ⟨_, input, hinput, (), hvalid, rfl⟩

/-- Rows are read when each of them can be. -/
theorem readEach_isOk_iff {db : Db δ} {session : String} {rows : List (Nat × Message δ)} :
    (∃ ms, readEach db session rows = .ok ms) ↔ ∀ row ∈ rows, readable db session row = true := by
  induction rows with
  | nil => simp [readEach]
  | cons row rest ih =>
    rw [List.forall_mem_cons, ← ih, ← readMessage_isOk_iff]
    simp only [readEach, bind_eq_ok, pure_eq_ok]
    constructor
    · rintro ⟨ms, m, hm, rest, hrest, -⟩
      exact ⟨⟨m, hm⟩, rest, hrest⟩
    · rintro ⟨⟨m, hm⟩, rest, hrest⟩
      exact ⟨m :: rest, m, hm, rest, hrest, rfl⟩

/-! ## When the claim delivers -/

/-- A row as a batch holds it. -/
def storedAs (db : Db δ) (row : Nat × Message δ) (input : PromptInput) : StoredMessage where
  sequence := row.1
  id := row.2.messageId
  sender := row.2.submittedBy
  received := row.2.receivedAtMs
  input := input
  source := (db.inbox.sources.find? row.1).getD ordinarySource
  displayText := row.2.displayText

/-- The rows that the next delivery reads. -/
def nextRows (db : Db δ) (session : String) : List (Nat × Message δ) :=
  (match db.inbox.openBatch? session with
    | some (id, _) => db.inbox.members session id
    | none => db.inbox.pending session).take batchLimit

/-- Every row that the next delivery reads is readable, and where a new batch is to be cut the
oldest message fits it. -/
structure Deliverable (db : Db δ) (session : String) : Prop where
  rows : ∀ row ∈ nextRows db session, readable db session row = true
  head : db.inbox.openBatch? session = none → ∀ row input,
    (db.inbox.pending session).head? = some row → row.2.prompt = some input →
    (storedAs db row input).fits (Text.len batchPreamble) 0 0 = true

/-- A batch takes something exactly when its first message fits. -/
theorem getLast?_boundedPrefix {m : StoredMessage} {rest : List StoredMessage} :
    (∃ last, (boundedPrefix (m :: rest)).getLast? = some last) ↔
      m.fits (Text.len batchPreamble) 0 0 = true := by
  simp only [boundedPrefix, boundedFrom]
  split
  · next hfits => simp [hfits, List.getLast?_cons]
  · next hfits => simp [hfits]

/-- A claim of the open batch answers what the batch holds. -/
theorem claim_open {db : Db δ} {session : String} (h : Steerable db session) {id : String}
    {b : Batch} (hb : db.inbox.openBatch? session = some (id, b)) {messages : List StoredMessage}
    (hread : readMessages db session (some id) = .ok messages) (uuid : String) :
    claim db session uuid = .ok (some ⟨id, combine messages, displayJson messages⟩, db) := by
  have hauthorize : authorize db session true = .ok () :=
    authorize_eq_ok.2 ⟨h.valid, h.exist, fun _ => h.open⟩
  obtain ⟨hstate, hblocked⟩ := h.batch id b hb
  simp only [claim, hauthorize, ok_bind, h.evidence, ensure_true, h.unpaused, hb, hstate, hblocked,
    hread, bne_self_eq_false, Option.isSome_none, Bool.or_self, Bool.false_eq_true, if_false]
  rfl

/-- A claim of waiting messages cuts off those that fit. -/
theorem claim_pending {db : Db δ} {session : String} (h : Steerable db session)
    (hb : db.inbox.openBatch? session = none) {messages : List StoredMessage}
    (hread : readMessages db session none = .ok messages) {last : StoredMessage}
    (hlast : (boundedPrefix messages).getLast? = some last) {uuid : String}
    (hbatch : db.inbox.batches.find? ("followup-" ++ uuid) = none)
    (hdisplay : db.inbox.display.find? ("followup-" ++ uuid) = none) :
    claim db session uuid
      = .ok (some ⟨"followup-" ++ uuid, combine (boundedPrefix messages),
            displayJson (boundedPrefix messages)⟩,
          { db with
            inbox := db.inbox.cut session ("followup-" ++ uuid) last.sequence
              (displayJson (boundedPrefix messages)) }) := by
  have hauthorize : authorize db session true = .ok () :=
    authorize_eq_ok.2 ⟨h.valid, h.exist, fun _ => h.open⟩
  have hsome : messages.isEmpty = false := by
    cases messages with
    | nil => simp [boundedPrefix, boundedFrom] at hlast
    | cons => rfl
  simp only [claim, hauthorize, ok_bind, h.evidence, ensure_true, h.unpaused, hb, hread, hsome,
    hlast, need_some, hbatch, hdisplay, Option.isNone_none, Bool.false_eq_true, if_false]
  rfl

/-- A steerable session whose next delivery can be read and fits has one. -/
theorem Deliverable.claims {db : Db δ} {session uuid : String} (h : Deliverable db session)
    (hsteerable : Steerable db session)
    (hbatch : db.inbox.batches.find? ("followup-" ++ uuid) = none)
    (hdisplay : db.inbox.display.find? ("followup-" ++ uuid) = none) :
    ∃ batch db', claim db session uuid = .ok (some batch, db') := by
  obtain ⟨messages, hmessages⟩ := readEach_isOk_iff.2 h.rows
  cases hb : db.inbox.openBatch? session with
  | some row =>
    obtain ⟨id, b⟩ := row
    rw [nextRows, hb] at hmessages
    exact ⟨_, _, claim_open hsteerable hb hmessages uuid⟩
  | none =>
    rw [nextRows, hb] at hmessages
    cases hrows : db.inbox.pending session with
    | nil => exact absurd hrows (hsteerable.pending hb)
    | cons row rest =>
      -- the oldest message is the first that is read
      have hfirst : ∃ m ms, readMessage db session row = .ok m ∧ messages = m :: ms := by
        simp only [hrows, batchLimit, List.take_succ_cons, readEach, bind_eq_ok,
          pure_eq_ok] at hmessages
        obtain ⟨m, hm, ms, -, rfl⟩ := hmessages
        exact ⟨m, ms, hm, rfl⟩
      obtain ⟨m, ms, hm, rfl⟩ := hfirst
      obtain ⟨-, input, hinput, rfl⟩ := readMessage_eq_ok hm
      have hfits := h.head hb row input (by rw [hrows]; rfl) hinput
      obtain ⟨last, hlast⟩ := getLast?_boundedPrefix.2 hfits
      exact ⟨_, _, claim_pending hsteerable hb hmessages hlast hbatch hdisplay⟩

/-- A claim that answers a batch read every row of it, and cut it off in front of a message that
fits. -/
theorem claim_steerable {db db' : Db δ} {session uuid : String} {batch : ClaimedBatch}
    (h : claim db session uuid = .ok (some batch, db')) :
    Steerable db session ∧ Deliverable db session := by
  obtain ⟨hauthorize, hevidence, ⟨hnone, -⟩ |
    ⟨id, b, messages, hpaused, hb, hstate, hblocked, hread, -, -⟩ |
    ⟨messages, last, hpaused, hread, hlast, -, hlegal, -⟩⟩ := claim_eq_ok h
  · cases hnone
  · obtain ⟨hvalid, hexists, hopen⟩ := authorize_eq_ok.1 hauthorize
    refine ⟨⟨hvalid, hexists, hopen rfl, hevidence, hpaused, ?_, ?_⟩, ?_, ?_⟩
    · intro id' b' hb'
      rw [hb] at hb'
      cases hb'
      exact ⟨hstate, hblocked⟩
    · intro hnone
      rw [hb] at hnone
      cases hnone
    · rw [nextRows, hb]
      exact readEach_isOk_iff.1 ⟨messages, hread⟩
    · intro hnone
      rw [hb] at hnone
      cases hnone
  · obtain ⟨hvalid, hexists, hopen⟩ := authorize_eq_ok.1 hauthorize
    obtain ⟨-, -, hb, -⟩ := hlegal
    have hrows : readEach db session ((db.inbox.pending session).take batchLimit)
        = .ok messages := hread
    refine ⟨⟨hvalid, hexists, hopen rfl, hevidence, hpaused, ?_, fun _ => ?_⟩, ?_, ?_⟩
    · intro id b hsome
      rw [hb] at hsome
      cases hsome
    · intro hempty
      rw [hempty] at hrows
      cases hrows
      simp [boundedPrefix, boundedFrom] at hlast
    · rw [nextRows, hb]
      exact readEach_isOk_iff.1 ⟨messages, hrows⟩
    · intro _ row input hhead hinput
      cases hpending : db.inbox.pending session with
      | nil => simp [hpending] at hhead
      | cons first rest =>
        rw [hpending] at hhead
        cases hhead
        simp only [hpending, batchLimit, List.take_succ_cons, readEach, bind_eq_ok,
          pure_eq_ok] at hrows
        obtain ⟨m, hm, ms, -, rfl⟩ := hrows
        obtain ⟨-, input', hinput', rfl⟩ := readMessage_eq_ok hm
        rw [hinput] at hinput'
        cases hinput'
        exact getLast?_boundedPrefix.1 ⟨last, hlast⟩

/-- In a state, with a fresh identity for a new batch: the guard accepts only when the claim answers
a batch and refuses only when it does not, if and only if whatever the guard accepts can be read
and fits. -/
theorem steer_agrees_iff (db : Db δ) (session uuid : String)
    (hbatch : db.inbox.batches.find? ("followup-" ++ uuid) = none)
    (hdisplay : db.inbox.display.find? ("followup-" ++ uuid) = none) :
    ((checkSteerable db session = .ok () →
        ∃ batch db', claim db session uuid = .ok (some batch, db')) ∧
      ∀ e, checkSteerable db session = .error e →
        ∀ batch db', claim db session uuid ≠ .ok (some batch, db')) ↔
    (Steerable db session → Deliverable db session) := by
  constructor
  · rintro ⟨hdelivers, -⟩ hsteerable
    obtain ⟨batch, db', hclaim⟩ := hdelivers (checkSteerable_eq_ok.2 hsteerable)
    exact (claim_steerable hclaim).2
  · intro hdeliverable
    constructor
    · intro hok
      have hsteerable := checkSteerable_eq_ok.1 hok
      exact (hdeliverable hsteerable).claims hsteerable hbatch hdisplay
    · intro e herror batch db' hclaim
      have hok := checkSteerable_eq_ok.2 (claim_steerable hclaim).1
      rw [hok] at herror
      cases herror

/-- A peer's message waits for the agent. -/
def peerMessage : List Op :=
  [.createSession 0 ⟨"peer", "codex", "a", "/work", "Peer", none, none, none⟩,
    .createSession 0 ⟨"agent", "codex", "b", "/work", "Agent", none, none, none⟩,
    .execute ⟨.relayAgentFollowup "agent" "note" "peer" "call" ⟨"For information", []⟩ false,
      "relay", "owner", false, 0⟩ ⟨.ok, .ok (), 0⟩]

/-- The inbox is paused: the guard refuses a steer, and no claim answers the peer's message. -/
theorem steer_agrees_iff_paused :
    checkSteerable (afterAll .verbatim (peerMessage ++ [.pause "agent"]) ∅) "agent"
      = .error (refuse "the follow-up inbox is paused; resume it to deliver pending messages") ∧
    ∀ batch db', claim (afterAll .verbatim (peerMessage ++ [.pause "agent"]) ∅) "agent" "0"
      ≠ .ok (some batch, db') := by
  have hpaused : (afterAll .verbatim (peerMessage ++ [.pause "agent"]) ∅).inbox.paused "agent"
      = true := by decide +kernel
  have hagrees := (steer_agrees_iff (afterAll .verbatim (peerMessage ++ [.pause "agent"]) ∅) "agent"
    "0" (by decide +kernel) (by decide +kernel)).2 fun h =>
      absurd (h.unpaused.symm.trans hpaused) (by simp)
  have hrefused : checkSteerable (afterAll .verbatim (peerMessage ++ [.pause "agent"]) ∅) "agent"
      = .error (refuse "the follow-up inbox is paused; resume it to deliver pending messages") := by
    decide +kernel
  exact ⟨hrefused, hagrees.2 _ hrefused⟩

/-- The peer is archived after it has sent its message. The guard lets a steer interrupt the agent's
work for the message, and the claim refuses to deliver it. -/
theorem steer_destroys_work :
    let db := afterAll .verbatim
      (peerMessage ++ [.saveBridge "peer" ⟨.agent, .archived, 1, none, ""⟩]) ∅
    checkSteerable db "agent" = .ok () ∧
      ∀ batch db', claim db "agent" "0" ≠ .ok (some batch, db') := by
  intro db
  have hrefused : (result? (claim db "agent" "0")).isNone = true := by decide +kernel
  refine ⟨by decide +kernel, fun batch db' hclaim => ?_⟩
  rw [hclaim] at hrefused
  cases hrefused

end Nakode
