import Nakode.Database

/-!
# The child report store

The writes of `session_child_links` with the triggers of `relationships.sql`, the one-level link
between a parent and a child session (`linkInTransaction`), and the reports a linked child leaves:
published ones (`publishInTransaction`, `executeReport`) and questions it waits on
(`recordQuestion`).
-/

namespace Nakode

open Outcome

variable {δ : Type}

/-! ## The last turn of a child -/

namespace Completion

def finalBytes : Nat := 12 * 1024

/-- The longest prefix whose characters, as JSON, take at most the given bytes. -/
def encodedPrefix : Nat → List Char → List Char
  | _, [] => []
  | budget, c :: cs =>
    let encoded := Text.len (String.ofList (Text.escapeChar c))
    if encoded > budget then [] else c :: encodedPrefix (budget - encoded) cs

def capture (turn : String) (text : Option String) : Completion :=
  let text := text.filter fun text => !(Text.trim text).isEmpty
  let total := (text.map Text.len).getD 0
  let finalText := text.map fun text => String.ofList (encodedPrefix finalBytes text.toList)
  { version := 1
    turnId := turn
    finalText
    finalTotalBytes := total
    truncated := finalText.any fun text => Text.len text < total }

/-- The text of the report of a turn: its fields in the order of the declaration. -/
def encode (c : Completion) : String :=
  (Text.Json.obj
    [("version", .int c.version), ("turn_id", .str c.turnId),
      ("final_text", .ofOption c.finalText), ("final_total_bytes", .int c.finalTotalBytes),
      ("truncated", .bool c.truncated)]).render

/-- What is shown for the body of a turn's report. -/
def display (deps : Deps δ) (body : String) : String :=
  match deps.parseCompletion body with
  | none => body
  | some completion =>
    completion.finalText.getD
      ("No final assistant response was captured for this turn. Inspect the child transcript for " ++
        "activity and failure details.")
    ++ if completion.truncated then
      "\n\n[Response truncated; the complete response remains in the child transcript.]"
    else ""

end Completion

/-! ## Link rows and their triggers -/

/-- What the triggers `held_child_link_*` raise. -/
def heldLink : String :=
  "its parent is stopping or deleting this session; relationship changes are refused"

/-- `INSERT INTO session_child_links`. The triggers refuse it under a deletion hold and raise the
child's revision. -/
def insertLink (db : Db δ) (clockMs : Int) (child parent title : String) :
    Except String (Db δ) := do
  ensure (!db.kinship.held child clockMs) heldLink
  let links ← need (db.kinship.links.insert? child ⟨parent, title⟩)
    "UNIQUE constraint failed: session_child_links.child_id"
  ensure (child != parent) "CHECK constraint failed: child_id <> parent_id"
  ensure (db.directory.exists? child && db.directory.exists? parent)
    "FOREIGN KEY constraint failed"
  return { db with kinship := { db.kinship with
    links := links
    revisions := db.kinship.revisions.upsert child 1 (· + 1) } }

/-- `UPDATE session_child_links SET parent_id = parent WHERE child_id = child`. The triggers act
when the parent differs. -/
def repointLink (db : Db δ) (clockMs : Int) (child parent : String) : Except String (Db δ) :=
  match db.kinship.links.find? child with
  | none => return db
  | some link =>
    if link.parentId == parent then return db else do
      ensure (!db.kinship.held child clockMs) heldLink
      ensure (child != parent) "CHECK constraint failed: child_id <> parent_id"
      ensure (db.directory.exists? parent) "FOREIGN KEY constraint failed"
      return { db with kinship := { db.kinship with
        links := db.kinship.links.update (fun c _ => c == child) fun l => { l with parentId := parent }
        revisions := db.kinship.revisions.update (fun c _ => c == child) (· + 1) } }

/-! ## Linking -/

def linkInTransaction (db : Db δ) (clockMs : Int) (parent child : String) :
    Except ServiceError (Db δ) := do
  ensure (parent != child) (refuse "a session cannot parent itself")
  ensure (!(db.directory.closed parent || db.directory.closed child))
    (refuse "closed sessions cannot acquire parent relationships")
  let title ← need
    (if db.directory.sharesOwnership child parent then
      (db.directory.sessions.find? child).map (·.title) else none)
    (refuse ("parent and child must exist on this runtime under the same profile; " ++
      "unbound sessions require the same workspace"))
  match db.kinship.parent? child with
  | some existing =>
    ensure (existing == parent) (refuse "child already has a different parent")
    return db
  | none =>
    ensure (!db.kinship.nested parent child)
      (refuse "nested logical-session parents are not supported")
    ensure (db.kinship.childCount parent < 32)
      (refuse "parent already has the maximum 32 linked children")
    (insertLink db clockMs child parent title).mapError reportFailure

/-! ## Reports -/

namespace Reports

/-- `SELECT state, body FROM session_child_reports WHERE child_id = child AND report_id = report`. -/
def lookup? (r : Reports δ) (child report : String) : Option (Nat × Report) :=
  r.rows.rows.find? fun row => row.2.childId == child && row.2.reportId == report

/-- `SELECT count(*) FROM session_child_reports WHERE child_id = child`. -/
def countOf (r : Reports δ) (child : String) : Nat := r.rows.count fun _ row => row.childId == child

def append (r : Reports δ) (row : Report) : Reports δ := { r with rows := r.rows.append row }

end Reports

def maxReports : Nat := 4096

def invalidReport : ServiceError :=
  ⟨.invalidRequest, "report requires an id (1–200 bytes), body (1–16384 bytes), and a supported state",
    false⟩

def publishInTransaction (db : Db δ) (child reportId state body : String) (nowMs : Int) :
    Except ServiceError (Db δ) := do
  ensure (!(reportId.isEmpty || Text.startsWith reportId "turn:"
      || Text.startsWith reportId "question:" || Text.len reportId > 200
      || body.isEmpty || Text.len body > 16 * 1024))
    invalidReport
  let state ← need (ReportState.ofText? state) invalidReport
  ensure (db.kinship.links.find? child).isSome (refuse "child has no existing parent link")
  match db.reports.lookup? child reportId with
  | some (_, saved) =>
    ensure (saved.state == state && saved.body == body)
      (refuse "report id was already used with different content")
    return db
  | none =>
    ensure (db.reports.countOf child < maxReports)
      (refuse "child report retention limit reached; existing evidence is preserved")
    return { db with reports := db.reports.append ⟨child, reportId, state, body, nowMs⟩ }

structure ReportRequest where
  command : Command
  key : String
  replayOnly : Bool
  expectedRevision : Option Nat
  nowMs : Int
  clockMs : Int

/-- The mutation of a report command, with the child it is about. -/
def reportCommand (db : Db δ) (request : ReportRequest) : Except ServiceError (String × Db δ) :=
  match request.command with
  | .linkChildSession parent child => do
    let db ← linkInTransaction db request.clockMs parent child
    return (child, db)
  | .publishChildReport child reportId state body => do
    let db ← publishInTransaction db child reportId state body request.nowMs
    return (child, db)
  | _ => .error (refuse "not a report command")

/-- `ReportStore::execute`: the mutation and its retry receipt in one transaction. -/
def executeReport [DecidableEq δ] (deps : Deps δ) (db : Db δ) (request : ReportRequest) :
    Except ServiceError (Db δ) := do
  ensure (!request.key.isEmpty && Text.len request.key ≤ 200)
    (refuse "report command key must be 1–200 bytes")
  let digest := deps.commandDigest request.command
  match db.reports.receipts.find? request.key with
  | some saved =>
    ensure (saved.digest == digest)
      (refuse "idempotency key already used for a different report command")
    return db
  | none =>
    ensure (!request.replayOnly)
      (refuse "report command receipt is unavailable; no mutation was executed")
    ensure request.expectedRevision.isNone
      ⟨.invalidRequest, "report commands do not support revision fences", false⟩
    let (child, db) ← reportCommand db request
    let receipts ← need (db.reports.receipts.insert? request.key ⟨child, digest⟩)
      (reportFailure "UNIQUE constraint failed: session_child_command_receipts.command_key")
    return { db with reports := { db.reports with receipts := receipts } }

/-! ## Questions -/

/-- A question a child session waits on: its identity and the text of the report about it, which
the projection of the child's state writes. -/
structure QuestionRequest where
  id : String
  body : String

/-- `ReportStore::record_question`: evidence about the interaction, at most once. -/
def recordQuestion (deps : Deps δ) (db : Db δ) (child : String) (question : QuestionRequest)
    (nowMs : Int) : Except ServiceError (Db δ) := do
  let reportId := "question:" ++ deps.hexDigest question.id
  if (db.kinship.links.find? child).isNone || (db.reports.lookup? child reportId).isSome then
    return db
  ensure (Text.len question.body ≤ 16 * 1024)
    (refuse "structured child question exceeds 16384-byte report limit; question remains pending")
  ensure (db.reports.countOf child < maxReports)
    (refuse "child report retention limit reached; question remains pending")
  return { db with reports := db.reports.append ⟨child, reportId, .question, question.body, nowMs⟩ }

end Nakode
