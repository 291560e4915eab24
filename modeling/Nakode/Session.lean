import Nakode.Relationships
import Nakode.Followups.Execute

/-!
# The session repository

Creation, deletion and the other writes of the repository that reach the sessions, their
relationships and their inboxes. Deleting a session cascades over the tables that refer to it
(`deleteSession`); the guards of `deleteGuarded` decide whether it may be deleted.
-/

namespace Nakode

open Outcome Relational

variable {δ : Type}

/-! ## Creation -/

/-- The session of a provider's own session: `sessions` is unique on the pair. -/
def Directory.byProvider? (d : Directory) (provider providerSessionId : String) :
    Option (String × SessionRow) :=
  d.sessions.rows.find? fun row =>
    row.2.provider == provider && row.2.providerSessionId == providerSessionId

/-- `bind_session_skill_profile`: the first binding of a session stays. -/
def bindSessionSkillProfile (d : Directory) (session profile : String) :
    Except SessionError Directory :=
  match d.profiles.find? session with
  | some persisted =>
    if persisted = profile then .ok d
    else .error (.invalidStoredValue "session_skill_profiles.profile_id" persisted)
  | none => do
    ensure (d.exists? session) (.database "FOREIGN KEY constraint failed")
    return { d with profiles := d.profiles.insertOrIgnore session profile }

/-- `save_session_bridge_on`: an older revision, or another record of the same one, is stale. -/
def saveSessionBridge (d : Directory) (session : String) (bridge : Bridge) :
    Except SessionError Directory := do
  ensure (!(d.bridges.find? session).any fun current =>
      current.revision > bridge.revision
        || (current.revision == bridge.revision && current != bridge))
    (.bridgeRevisionConflict session bridge.revision)
  return { d with bridges := d.bridges.upsert session bridge fun _ => bridge }

structure SessionCreation where
  id : String
  provider : String
  providerSessionId : String
  workspace : String
  title : String
  profileId : Option String
  bridge : Option (String × Bridge)
  parentSessionId : Option String

/-- The stored title: the first line, trimmed, or a default. -/
def creationTitle (title : String) : String :=
  let title := Text.trim (Text.firstLine title)
  if title.isEmpty then "New session" else title

/-- The record of a creation: a new row, or the one its provider session has already, whose
workspace and title stay. -/
def upsertSession (d : Directory) (request : SessionCreation) :
    Except SessionError (String × Directory) :=
  match d.byProvider? request.provider request.providerSessionId with
  | some (id, _) => .ok (id, d)
  | none => do
    let sessions ← need
      (d.sessions.insert? request.id
        ⟨request.provider, request.providerSessionId, request.workspace,
          creationTitle request.title⟩)
      (.database "UNIQUE constraint failed: sessions.id")
    return (request.id, { d with sessions := sessions })

/-- The profile a creation names. -/
def bindRequested (d : Directory) (id : String) : Option String → Except SessionError Directory
  | some profile => bindSessionSkillProfile d id profile
  | none => .ok d

/-- The bridge a creation comes with. -/
def saveRequested (d : Directory) : Option (String × Bridge) → Except SessionError Directory
  | some (session, bridge) => saveSessionBridge d session bridge
  | none => .ok d

/-- The directory's part of a creation: the record, its profile and its bridge. -/
def registerSession (d : Directory) (request : SessionCreation) :
    Except SessionError (String × Directory) := do
  let (id, d) ← upsertSession d request
  let d ← bindRequested d id request.profileId
  let d ← saveRequested d request.bridge
  return (id, d)

/-- `create_with_account_id_and_skill_profile`: the record and its parent link together. -/
def createSession (db : Db δ) (clockMs : Int) (request : SessionCreation) :
    Except SessionError (Db δ) := do
  let (id, directory) ← registerSession db.directory request
  let db := { db with directory := directory }
  match request.parentSessionId with
  | some parent => (linkInTransaction db clockMs parent id).mapError .childRelationship
  | none => return db

/-! ## Deletion -/

/-- The rows of `followup_*` that go with a session: its own, and what refers to its messages and
batches. -/
def Inbox.forget (i : Inbox δ) (session : String) : Inbox δ :=
  let messageOf := fun n => (i.messages.find? n).any (·.sessionId == session)
  { inboxes := i.inboxes.delete fun s _ => s == session
    batches := i.batches.delete fun _ b => b.sessionId == session
    messages := i.messages.delete fun _ m => m.sessionId == session
    receipts := i.receipts.delete fun _ r => r.sessionId == session
    deliveries := i.deliveries.delete fun _ n => messageOf n
    sources := i.sources.delete fun n _ => messageOf n
    display := i.display.delete fun b _ => (i.batches.find? b).any (·.sessionId == session)
    removals := i.removals.delete fun n _ => messageOf n }

/-- The link of this child goes with the session: it is the session's own, or to it as parent. -/
def Kinship.severed (k : Kinship δ) (session child : String) : Bool :=
  (k.links.find? child).any fun link => child == session || link.parentId == session

/-- The links that go with a session, each raising its child's revision by the trigger, and the
session's own revision and hold. -/
def Kinship.forget (k : Kinship δ) (session : String) : Kinship δ :=
  { links := k.links.delete fun child _ => k.severed session child
    revisions := (k.revisions.update (fun child _ => k.severed session child) (· + 1)).delete
      fun child _ => child == session
    transitions := k.transitions
    holds := k.holds.delete fun child _ => child == session }

/-- The reports and receipts of the children whose links go with a session. -/
def Reports.forget (r : Reports δ) (k : Kinship δ) (session : String) : Reports δ :=
  { rows := r.rows.delete fun _ report => k.severed session report.childId
    receipts := r.receipts.delete fun _ receipt => k.severed session receipt.childId }

/-- A session's row with what its foreign keys take along; its bridge stays. -/
def Directory.forget (d : Directory) (session : String) : Directory :=
  { sessions := d.sessions.delete fun id _ => id == session
    profiles := d.profiles.delete fun id _ => id == session
    bridges := d.bridges
    runs := d.runs.delete fun _ parent => parent == session }

def Db.forget (db : Db δ) (session : String) : Db δ :=
  { directory := db.directory.forget session
    kinship := db.kinship.forget session
    reports := db.reports.forget db.kinship session
    inbox := db.inbox.forget session }

/-- `DELETE FROM sessions WHERE id = session`. The trigger refuses to sever a held link, and a
message of another session keeps the batch it refers to. -/
def deleteSession (db : Db δ) (clockMs : Int) (session : String) : Except String (Db δ) := do
  ensure (!db.kinship.links.has fun child _ =>
      db.kinship.severed session child && db.kinship.held child clockMs) heldLink
  ensure (!db.inbox.messages.has fun _ m => m.sessionId != session
      && (m.batchId.bind db.inbox.batches.find?).any (·.sessionId == session))
    "FOREIGN KEY constraint failed"
  return db.forget session

/-- `find`: the exact session, or the only one that the identity abbreviates. -/
def findSession (d : Directory) (id : String) : Except SessionError (Option String) :=
  if d.exists? id then .ok (some id) else
    match (d.sessions.rows.filter fun row => Text.startsWith row.1 id).take 2 with
    | [] => .ok none
    | [row] => .ok (some row.1)
    | _ => .error (.ambiguous id)

inductive DeletionGuard where
  | owner
  | selfClear
  | child (parent : Option String)
  deriving DecidableEq, Repr

/-- A Chat may clear itself when it is owned and open, has no children, and no coordination with
it is unsettled. -/
def ensureSelfClearReady (db : Db δ) (session : String) : Except SessionError Unit :=
  let ready := db.directory.exists? session && (db.directory.profiles.find? session).isSome
    && (db.directory.bridges.find? session).any (fun b =>
      b.kind == .chat && b.lifecycle == .open && b.pendingInbound.isNone)
    && !db.kinship.links.has (fun _ link => link.parentId == session)
    && !db.inbox.messages.has (fun n m =>
      (m.sessionId == session || (db.inbox.sources.find? n).any (·.sessionId == session))
        && db.inbox.unsettled n m)
    && (db.inbox.openBatch? session).isNone
  ensure ready .selfClearNotReady

def checkGuard (db : Db δ) (id resolved : String) (found : Option String) :
    DeletionGuard → Except SessionError Unit
  | .owner => .ok ()
  | .selfClear => ensureSelfClearReady db resolved
  | .child parent => do
    ensure (found == some id) (.sessionNotFound id)
    ensure (db.kinship.parent? resolved == parent) .parentFenceMismatch

/-- The archived bridge of a deleted session. -/
def Directory.archive (d : Directory) (session : String) : Directory :=
  { d with
    bridges := d.bridges.update (fun s b => s == session && b.lifecycle != .archived)
      fun b => { b with lifecycle := .archived, revision := b.revision + 1 } }

def Db.release (db : Db δ) (child : String) : Db δ :=
  { db with kinship := { db.kinship with
    holds := db.kinship.holds.delete fun c _ => c == child } }

/-- `delete_guarded`. A parent is not deleted while it has children; a session that is not there is
deleted already. -/
def deleteGuarded (db : Db δ) (clockMs : Int) (id : String) (guard : DeletionGuard) :
    Except SessionError (Db δ) := do
  let found ← findSession db.directory id
  let resolved := found.getD id
  ensure (!db.kinship.links.has fun _ link => link.parentId == resolved) .linkedChildren
  checkGuard db id resolved found guard
  let db := { db with directory := db.directory.archive resolved }
  match found with
  | none => return db
  | some session => (deleteSession (db.release session) clockMs session).mapError .database

/-- `purge_all`: every session with all it owns, and every bridge. Committed transitions have no
foreign key and stay, as the next sequences do. -/
def purgeAll (db : Db δ) : Db δ :=
  { directory := ∅
    kinship := { (∅ : Kinship δ) with transitions := db.kinship.transitions }
    reports := { (∅ : Reports δ) with rows := db.reports.rows.delete fun _ _ => true }
    inbox := { (∅ : Inbox δ) with messages := db.inbox.messages.delete fun _ _ => true } }

/-! ## Deletion holds -/

def holdSeconds : Int := 120

/-- `hold_child_deletion`: the answer says whether the child was free before. -/
def holdChildDeletion (db : Db δ) (nowMs : Int) (id : String) (parent : Option String) :
    Except SessionError (Bool × Db δ) := do
  ensure (db.directory.exists? id) (.sessionNotFound id)
  ensure (db.kinship.parent? id == parent) .parentFenceMismatch
  let hold : Hold := ⟨parent, nowMs + holdSeconds * 1000⟩
  return (!db.kinship.held id nowMs, { db with kinship := { db.kinship with
    holds := db.kinship.holds.upsert id hold fun _ => hold } })

/-! ## Turns -/

inductive TurnOutcome where
  | completed
  | interrupted
  | failed
  deriving DecidableEq, Repr

/-- The state of the report a turn leaves. -/
def TurnOutcome.report : TurnOutcome → ReportState
  | .completed => .completed
  | .interrupted => .cancelled
  | .failed => .failed

structure LastTurn where
  id : String
  outcome : TurnOutcome
  completion : Option Completion
  observedAt : Int

/-- `update_last_turn`: a linked child's terminal turn leaves its report in the same commit, once. -/
def updateLastTurn (db : Db δ) (id : String) (turn : LastTurn) : Except SessionError (Db δ) := do
  ensure (db.directory.exists? id) (.sessionNotFound id)
  let reportId := "turn:" ++ turn.id
  if (db.kinship.links.find? id).isNone || (db.reports.lookup? id reportId).isSome then return db
  let body := (turn.completion.getD (.capture turn.id none)).encode
  return { db with reports :=
    db.reports.append ⟨id, reportId, turn.outcome.report, body, turn.observedAt * 1000⟩ }

/-! ## Other writes -/

/-- A row of `orchestration_runs` under its parent session. -/
def recordRun (db : Db δ) (run parent : String) : Except String (Db δ) := do
  ensure (db.directory.exists? parent) "FOREIGN KEY constraint failed"
  return { db with directory := { db.directory with
    runs := db.directory.runs.insertOrIgnore run parent } }

/-- `UPDATE sessions SET title = title WHERE id = session`. -/
def renameSession (db : Db δ) (session title : String) : Db δ :=
  { db with directory := { db.directory with
    sessions := db.directory.sessions.update (fun id _ => id == session)
      fun row => { row with title := title } } }

/-- The source that an upgrade records for evidence admitted before sources were. -/
def legacySource (db : Db δ) (report : Nat) : Option Source := do
  let row ← db.reports.rows.find? report
  let link ← db.kinship.links.find? row.childId
  return evidenceSource row.childId link.childTitle row.state

/-- `INSERT OR IGNORE INTO followup_sources … FROM child_followup_deliveries`, row by row. -/
def recordLegacySources (db : Db δ) : List (Nat × Nat) → Table Nat Source → Table Nat Source
  | [], sources => sources
  | (report, message) :: rest, sources =>
    recordLegacySources db rest
      (match legacySource db report with
        | some source => sources.insertOrIgnore message source
        | none => sources)

/-- `INSERT OR IGNORE INTO session_relationship_revisions SELECT child_id, 1 FROM …`. -/
def recordRevisions : List (String × Link) → Table String Nat → Table String Nat
  | [], revisions => revisions
  | (child, _) :: rest, revisions => recordRevisions rest (revisions.insertOrIgnore child 1)

/-- Opening the repository runs the statements of both schema files again. -/
def reopen (db : Db δ) : Db δ :=
  { db with
    kinship := { db.kinship with
      revisions := recordRevisions db.kinship.links.rows db.kinship.revisions }
    inbox := { db.inbox with
      sources := recordLegacySources db db.inbox.deliveries.rows db.inbox.sources } }

end Nakode
