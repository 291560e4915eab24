import Nakode.System

/-!
# The journal of an operation

Every operation is a sequence of a few kinds of writes, and what the code checks before it issues
one is what makes the write legal (`Write.Legal`). `journal` is the transition system of the legal
writes. An invariant is shown for one legal write; that an operation is a run of legal writes then
carries it to all of them (`Nakode.Operations`).
-/

namespace Nakode

open Relational Transition

variable {δ : Type}

/-! ## Marks on batches -/

/-- The statements that update batches in place. -/
inductive Mark where
  | fence (session batch : String)
  | accept (session batch turn : String)
  | acknowledge (session turn : String)
  | block (batch reason : String)
  | unblock (session : String)

namespace Mark

/-- The batches a mark is set on. -/
def on : Mark → String → Batch → Bool
  | fence session batch, id, b => id == batch && b.fenceable session
  | accept session batch turn, id, b =>
    id == batch && b.sessionId == session && b.state == .dispatching
      && (b.providerTurnId.isNone || b.providerTurnId == some turn)
  | acknowledge session turn, id, b =>
    b.sessionId == session && b.state == .dispatching
      && (id == turn || b.providerTurnId == some turn)
  | block batch _, id, b => id == batch && b.state == .claimed
  | unblock session, _, b => b.sessionId == session && b.state == .claimed

/-- What a mark leaves of a batch. -/
def set : Mark → Batch → Batch
  | fence _ _, b => { b with state := .dispatching }
  | accept _ _ turn, b => { b with providerTurnId := some turn }
  | acknowledge _ turn, b => { b with state := .consumed, providerTurnId := some turn }
  | block _ reason, b => { b with blockedReason := some reason }
  | unblock _, b => { b with blockedReason := none }

@[simp] theorem set_sessionId (m : Mark) (b : Batch) : (m.set b).sessionId = b.sessionId := by
  cases m <;> rfl

@[simp] theorem set_cutoff (m : Mark) (b : Batch) : (m.set b).cutoff = b.cutoff := by
  cases m <;> rfl

end Mark

def Inbox.mark (i : Inbox δ) (m : Mark) : Inbox δ := i.updateBatches m.on m.set

/-! ## Writes to the inbox -/

inductive InboxWrite (δ : Type) where
  /-- A message, with its source and with the report whose delivery it is. -/
  | admission (m : Message δ) (source : Option Source) (report : Option Nat)
  | receipt (key : String) (receipt : Receipt δ)
  | remove (sequence : Nat)
  | setPaused (session : String) (paused : Bool)
  | cut (session batch : String) (cutoff : Nat) (display : String)
  | mark (m : Mark)
  /-- A source recorded later for a delivered message that has none. -/
  | source (sequence : Nat) (source : Source)

/-- A new message under the next sequence, with what is recorded about it. -/
def Inbox.admission (i : Inbox δ) (m : Message δ) (source : Option Source) (report : Option Nat) :
    Inbox δ :=
  { i with
    messages := i.messages.append m
    sources := match source with
      | some source => i.sources.insertOrIgnore i.messages.next source
      | none => i.sources
    deliveries := match report with
      | some report => i.deliveries.insertOrIgnore report i.messages.next
      | none => i.deliveries }

namespace InboxWrite

def apply : InboxWrite δ → Inbox δ → Inbox δ
  | .admission m s r, i => i.admission m s r
  | .receipt key r, i => { i with receipts := i.receipts.insertOrIgnore key r }
  | .remove sequence, i => i.remove sequence
  | .setPaused session paused, i => i.setPaused session paused
  | .cut session batch cutoff display, i => i.cut session batch cutoff display
  | .mark m, i => i.mark m
  | .source sequence s, i => { i with sources := i.sources.insertOrIgnore sequence s }

/-- What the inbox itself must be for a write: free identities, no open batch before a claim, a
message in no batch before its removal. -/
def Legal (i : Inbox δ) : InboxWrite δ → Prop
  | .admission m s report =>
    i.sequenceOf? m.sessionId m.messageId = none ∧ m.batchId = none ∧
      (s.isSome → i.sources.find? i.messages.next = none) ∧
      (∀ r, report = some r → i.deliveries.find? r = none ∧
        ∀ r', i.deliveries.find? r' ≠ some i.messages.next)
  | .receipt key _ => i.receipts.find? key = none
  | .remove sequence => ∃ m, i.messages.find? sequence = some m ∧ i.batchState? m = none
  | .setPaused _ _ => True
  | .cut session batch cutoff _ =>
    i.batches.find? batch = none ∧ i.display.find? batch = none ∧ i.openBatch? session = none ∧
      ∃ m, i.messages.find? cutoff = some m ∧ m.sessionId = session ∧ m.batchId = none ∧
        i.removed cutoff = false
  | .mark (.fence session batch) =>
    ∃ b, i.batches.find? batch = some b ∧ b.fenceable session = true
  | .mark _ => True
  | .source sequence _ =>
    i.sources.find? sequence = none ∧ ∃ report, i.deliveries.find? report = some sequence

end InboxWrite

/-! ## Writes to the relationships -/

inductive KinWrite (δ : Type) where
  | link (child parent title : String)
  | repoint (child parent : String)
  | holds (holds : Table String Hold)
  | transition (key : String) (row : TransitionRow δ)
  | revise (child : String)

namespace KinWrite

def apply : KinWrite δ → Kinship δ → Kinship δ
  | .link child parent title, k =>
    { k with
      links := k.links.insertOrIgnore child ⟨parent, title⟩
      revisions := k.revisions.upsert child 1 (· + 1) }
  | .repoint child parent, k =>
    { k with
      links := k.links.update (fun c _ => c == child) fun l => { l with parentId := parent }
      revisions := k.revisions.update (fun c _ => c == child) (· + 1) }
  | .holds table, k => { k with holds := table }
  | .transition key row, k => { k with transitions := k.transitions.insertOrIgnore key row }
  | .revise child, k => { k with revisions := k.revisions.insertOrIgnore child 1 }

/-- One level, one parent, and room for one more child. -/
def Joinable (k : Kinship δ) (child parent : String) : Prop :=
  child ≠ parent ∧ k.nested parent child = false ∧ k.childCount parent < 32

/-- What the relationships must be for a write. -/
def Legal (k : Kinship δ) : KinWrite δ → Prop
  | .link child parent _ => k.links.find? child = none ∧ Joinable k child parent
  | .repoint child parent =>
    (∃ l, k.links.find? child = some l ∧ l.parentId ≠ parent) ∧ Joinable k child parent
  | .holds _ => True
  | .transition key _ => k.transitions.find? key = none
  | .revise child => (k.links.find? child).isSome

/-- The parents after an orphan is linked. -/
theorem parent?_link {k : Kinship δ} {child : String} (h : k.links.find? child = none)
    (parent title c : String) :
    ((KinWrite.link child parent title).apply k).parent? c
      = if c = child then some parent else k.parent? c := by
  simp only [apply, Kinship.parent?, Table.find?_insertOrIgnore, h, Option.getD_none]
  split <;> rfl

/-- The parents after a child's link is re-pointed. -/
theorem parent?_repoint {k : Kinship δ} {child : String} {link : Link}
    (h : k.links.find? child = some link) (parent c : String) :
    ((KinWrite.repoint child parent).apply k).parent? c
      = if c = child then some parent else k.parent? c := by
  simp only [apply, Kinship.parent?, Table.find?_update, beq_iff_eq]
  split
  · next hc => simp [hc, h]
  · simp

end KinWrite

/-! ## Writes to the database -/

inductive Write (δ : Type) where
  | directory (d : Directory)
  | kin (w : KinWrite δ)
  | report (row : Report)
  | reportReceipt (key : String) (receipt : ReportReceipt δ)
  | inbox (w : InboxWrite δ)
  | forget (session : String)
  | purge

/-- A directory with every session of another, in its workspace and with its profile. -/
structure Directory.Extends (d' d : Directory) : Prop where
  sessions : ∀ id row, d.sessions.find? id = some row →
    ∃ row', d'.sessions.find? id = some row' ∧ row'.workspace = row.workspace
  profiles : ∀ id profile, d.profiles.find? id = some profile →
    d'.profiles.find? id = some profile

/-- What is recorded about a new message rests on the relationships of the moment: an instruction
that no owner Chat gives comes from the parent, and evidence from a report of a child. -/
structure Grounded (db : Db δ) (m : Message δ) (source : Option Source) (report : Option Nat) :
    Prop where
  session : db.directory.exists? m.sessionId = true
  instruction : ∀ s, source = some s → s.kind = .delegatedInstruction → s.ownerChat = false →
    db.kinship.parent? m.sessionId = some s.sessionId
  evidence : ∀ r, report = some r → ∃ row s, db.reports.rows.find? r = some row ∧
    row.state.evident = true ∧ db.kinship.parent? row.childId = some m.sessionId ∧
    db.directory.sharesOwnership row.childId m.sessionId = true ∧
    source = some s ∧ s.kind = .durableChildEvidence ∧ s.sessionId = row.childId ∧
    m.messageId = childEventMessage r
  reserved : report = none → Text.startsWith m.messageId childEventPrefix = false

namespace Write

def apply : Write δ → Db δ → Db δ
  | .directory d, db => { db with directory := d }
  | .kin w, db => { db with kinship := w.apply db.kinship }
  | .report row, db => { db with reports := db.reports.append row }
  | .reportReceipt key r, db =>
    { db with reports := { db.reports with
      receipts := db.reports.receipts.insertOrIgnore key r } }
  | .inbox w, db => { db with inbox := w.apply db.inbox }
  | .forget session, db => db.forget session
  | .purge, db => purgeAll db

def Legal (db : Db δ) : Write δ → Prop
  | .directory d => d.Extends db.directory
  | .kin (.link child parent title) =>
    KinWrite.Legal db.kinship (.link child parent title) ∧
      db.directory.exists? child = true ∧ db.directory.exists? parent = true
  | .kin (.repoint child parent) =>
    KinWrite.Legal db.kinship (.repoint child parent) ∧ db.directory.exists? parent = true
  | .kin w => w.Legal db.kinship
  | .report row => (db.kinship.links.find? row.childId).isSome
  | .reportReceipt _ receipt => (db.kinship.links.find? receipt.childId).isSome
  | .inbox (.admission m s r) => InboxWrite.Legal db.inbox (.admission m s r) ∧ Grounded db m s r
  | .inbox w => w.Legal db.inbox
  | .forget session =>
    ∀ n m b batch, db.inbox.messages.find? n = some m → m.batchId = some b →
      db.inbox.batches.find? b = some batch → batch.sessionId = session → m.sessionId = session
  | .purge => True

end Write

/-- Databases under legal writes. -/
def journal (δ : Type) : System (Db δ) (Write δ) where
  next db w db' := w.Legal db ∧ w.apply db = db'

@[simp] theorem journal_next {db db' : Db δ} {w : Write δ} :
    (journal δ).next db w db' ↔ w.Legal db ∧ w.apply db = db' := Iff.rfl

/-- A legal write, as a run. -/
theorem journal_single {db : Db δ} {w : Write δ} (h : w.Legal db) :
    (journal δ).Run db [w] (w.apply db) :=
  .single ⟨h, rfl⟩

end Nakode
