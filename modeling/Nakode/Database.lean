import Nakode.Protocol
import Nakode.Lib.Table

/-!
# The session database

The tables that the inbox, the report store and the session repository share, one field a table,
with the columns the modelled operations read. Primary keys and `AUTOINCREMENT` are carried by the
tables themselves (`Relational.Table`, `Relational.Sequenced`).
-/

namespace Nakode

open Relational (Table Sequenced)

/-! ## Sessions -/

structure SessionRow where
  provider : String
  providerSessionId : String
  workspace : String
  title : String
  deriving DecidableEq, Repr

inductive OrchestratorKind where
  | chat
  | agent
  deriving DecidableEq, Repr

inductive BridgeLifecycle where
  | «open»
  | archived
  deriving DecidableEq, Repr

/-- A bridge record. `rest` stands for the columns that are only ever compared as a whole. -/
structure Bridge where
  kind : OrchestratorKind
  lifecycle : BridgeLifecycle
  revision : Nat
  pendingInbound : Option String
  rest : String
  deriving DecidableEq, Repr

/-- Who the sessions are: `sessions`, `session_skill_profiles`, `session_bridges` and
`orchestration_runs` (each run under its parent session). -/
structure Directory where
  sessions : Table String SessionRow
  profiles : Table String String
  bridges : Table String Bridge
  runs : Table String String

instance : EmptyCollection Directory := ⟨⟨∅, ∅, ∅, ∅⟩⟩

namespace Directory

def exists? (d : Directory) (id : String) : Bool := (d.sessions.find? id).isSome

/-- `EXISTS (SELECT 1 FROM session_bridges WHERE session_id = id AND lifecycle <> 'open')`. -/
def closed (d : Directory) (id : String) : Bool :=
  (d.bridges.find? id).any (·.lifecycle != .open)

/-- Both sessions exist and have the same bound profile, or neither has one and both have the same
workspace. -/
def sharesOwnership (d : Directory) (a b : String) : Bool :=
  match d.sessions.find? a, d.sessions.find? b with
  | some x, some y =>
    match d.profiles.find? a, d.profiles.find? b with
    | some p, some q => p == q
    | none, none => x.workspace == y.workspace
    | _, _ => false
  | _, _ => false

end Directory

/-! ## Relationships -/

structure Link where
  parentId : String
  childTitle : String
  deriving DecidableEq, Repr

/-- A committed claim or transfer. -/
structure TransitionRow (δ : Type) where
  digest : δ
  childId : String
  previousParentId : Option String
  parentId : String
  previousRevision : Nat
  revision : Nat
  sourceCallId : String
  changedAtMs : Int

structure Hold where
  parentId : Option String
  expiresAtMs : Int
  deriving DecidableEq, Repr

/-- Who is whose child: `session_child_links`, `session_relationship_revisions`,
`session_relationship_transitions` and `session_deletion_holds`. -/
structure Kinship (δ : Type) where
  links : Table String Link
  revisions : Table String Nat
  transitions : Table String (TransitionRow δ)
  holds : Table String Hold

instance {δ : Type} : EmptyCollection (Kinship δ) := ⟨⟨∅, ∅, ∅, ∅⟩⟩

namespace Kinship

variable {δ : Type}

/-- `SELECT parent_id FROM session_child_links WHERE child_id = child`. -/
def parent? (k : Kinship δ) (child : String) : Option String :=
  (k.links.find? child).map (·.parentId)

/-- `SELECT COALESCE((SELECT revision …), 0)`. -/
def revision (k : Kinship δ) (child : String) : Nat := (k.revisions.find? child).getD 0

/-- `SELECT COUNT(*) FROM session_child_links WHERE parent_id = parent`. -/
def childCount (k : Kinship δ) (parent : String) : Nat :=
  k.links.count fun _ link => link.parentId == parent

/-- `above` is itself a child or `below` is itself a parent:
`EXISTS (SELECT 1 FROM session_child_links WHERE child_id = above OR parent_id = below)`. -/
def nested (k : Kinship δ) (above below : String) : Bool :=
  k.links.has fun child link => child == above || link.parentId == below

/-- A deletion hold on the child that has not expired. -/
def held (k : Kinship δ) (child : String) (clockMs : Int) : Bool :=
  (k.holds.find? child).any (clockMs < ·.expiresAtMs)

end Kinship

/-! ## Reports -/

structure Report where
  childId : String
  reportId : String
  state : ReportState
  body : String
  createdAtMs : Int
  deriving DecidableEq, Repr

structure ReportReceipt (δ : Type) where
  childId : String
  digest : δ

/-- `session_child_reports` and `session_child_command_receipts`. -/
structure Reports (δ : Type) where
  rows : Sequenced Report
  receipts : Table String (ReportReceipt δ)

instance {δ : Type} : EmptyCollection (Reports δ) := ⟨⟨∅, ∅⟩⟩

/-! ## The follow-up inbox -/

inductive BatchState where
  | claimed
  | dispatching
  | consumed
  deriving DecidableEq, Repr

def BatchState.text : BatchState → String
  | .claimed => "claimed"
  | .dispatching => "dispatching"
  | .consumed => "consumed"

structure Batch where
  sessionId : String
  cutoff : Nat
  state : BatchState
  providerTurnId : Option String
  blockedReason : Option String
  deriving DecidableEq, Repr

/-- A row of `followup_messages`. `prompt` is what `prompt_json` decodes to, and `none` when it
does not decode, as the `{}` that a removal leaves. -/
structure Message (δ : Type) where
  sessionId : String
  messageId : String
  submittedBy : String
  receivedAtMs : Int
  prompt : Option PromptInput
  displayText : String
  attachmentLabels : List String
  requestDigest : δ
  payloadBytes : Nat
  batchId : Option String
  deriving DecidableEq

structure Receipt (δ : Type) where
  sessionId : String
  digest : δ
  resourceId : Option String
  deriving DecidableEq

/-- The tables of `followups/schema.sql`: paused inboxes, batches, messages, command receipts,
`child_followup_deliveries` (report sequence to message sequence), `followup_sources`,
`followup_batch_display` and `followup_removals`. -/
structure Inbox (δ : Type) where
  inboxes : Table String Bool
  batches : Table String Batch
  messages : Sequenced (Message δ)
  receipts : Table String (Receipt δ)
  deliveries : Table Nat Nat
  sources : Table Nat Source
  display : Table String String
  removals : Table Nat Unit

instance {δ : Type} : EmptyCollection (Inbox δ) := ⟨⟨∅, ∅, ∅, ∅, ∅, ∅, ∅, ∅⟩⟩

namespace Inbox

variable {δ : Type}

/-- `sequence IN (SELECT message_sequence FROM followup_removals)`. -/
def removed (i : Inbox δ) (sequence : Nat) : Bool := (i.removals.find? sequence).isSome

/-- `COALESCE((SELECT paused FROM followup_inboxes WHERE session_id = session), 0)`. -/
def paused (i : Inbox δ) (session : String) : Bool := (i.inboxes.find? session).getD false

/-- The state of the batch a message is in: `b.state` of the `LEFT JOIN`. -/
def batchState? (i : Inbox δ) (m : Message δ) : Option BatchState :=
  (m.batchId.bind i.batches.find?).map (·.state)

/-- Neither removed nor in a consumed batch: `b.state IS NULL OR b.state <> 'consumed'` over the
`LEFT JOIN` of the batches, without the removals. -/
def unsettled (i : Inbox δ) (sequence : Nat) (m : Message δ) : Bool :=
  !i.removed sequence && i.batchState? m != some .consumed

/-- `SELECT batch_id, … FROM followup_batches WHERE session_id = session AND state <> 'consumed'`. -/
def openBatch? (i : Inbox δ) (session : String) : Option (String × Batch) :=
  i.batches.rows.find? fun row => row.2.sessionId == session && row.2.state != .consumed

/-- The messages that wait: not removed, in no batch, in the order of their sequences. -/
def pending (i : Inbox δ) (session : String) : List (Nat × Message δ) :=
  i.messages.rows.filter fun row =>
    row.2.sessionId == session && row.2.batchId == none && !i.removed row.1

/-- The messages of a batch, without the removed ones, in the order of their sequences. -/
def members (i : Inbox δ) (session batch : String) : List (Nat × Message δ) :=
  i.messages.rows.filter fun row =>
    row.2.sessionId == session && row.2.batchId == some batch && !i.removed row.1

/-- `SELECT sequence FROM followup_messages WHERE session_id = session AND message_id = message`. -/
def sequenceOf? (i : Inbox δ) (session message : String) : Option Nat :=
  (i.messages.rows.find? fun row =>
    row.2.sessionId == session && row.2.messageId == message).map (·.1)

end Inbox

/-! ## The database -/

structure Db (δ : Type) where
  directory : Directory
  kinship : Kinship δ
  reports : Reports δ
  inbox : Inbox δ

instance {δ : Type} : EmptyCollection (Db δ) := ⟨⟨∅, ∅, ∅, ∅⟩⟩

end Nakode
