import Nakode.Followups.Admission

/-!
# Durable child evidence

Reports of linked children are admitted to their parent's inbox by `admitChildEvents`, one bounded
page a transaction, and reports of children in another runtime by `externalReport`. The payload is
data about the child (`evidencePrompt`); what the child may cause is decided by the source that the
runtime records, which `authorizedChildMessages` checks against the current relationships.
-/

namespace Nakode

open Outcome Relational

variable {δ : Type}

/-- The evidence as JSON, its fields in key order. -/
def evidencePrompt (parent child report state body : String) : PromptInput :=
  let text := (Text.Json.obj
    [("body", .str body), ("child_session_id", .str child), ("parent_session_id", .str parent),
      ("report_id", .str report), ("state", .str state)]).render
  if Text.len text > maxTextBytes then
    -- the body stays in the report history; the parent is told which report it is
    ⟨(Text.Json.obj
      [("body", .null), ("body_retained_in_report_history", .bool true),
        ("child_session_id", .str child), ("parent_session_id", .str parent),
        ("report_id", .str report), ("state", .str state)]).render, []⟩
  else ⟨text, []⟩

/-- The provenance of evidence from a child. -/
def evidenceSource (child title : String) (state : ReportState) : Source where
  kind := .durableChildEvidence
  sessionId := child
  title := Text.take 120 title
  callId := none
  status := some state
  ownerChat := false

/-- What the owner reads of a report: the final text of a turn, or the body itself. -/
def reportDisplay (deps : Deps δ) (report body : String) : String :=
  if Text.startsWith report "turn:" then Completion.display deps body else body

def externalReport (deps : Deps δ) (parent child title report state body : String) :
    Except ServiceError (PromptInput × Source × String) := do
  ensure (validId child && validId report && child != parent)
    (refuse "external child report requires stable child and report identities")
  let status ← need ((ReportState.ofText? state).filter (·.evident))
    (refuse "external child report state must be completed, failed, blocker or question")
  ensure (Text.len body ≤ 16 * 1024)
    (refuse "external child report exceeds the 16384-byte report limit")
  return (evidencePrompt parent child report state body, evidenceSource child title status,
    reportDisplay deps report body)

/-! ## Admission of linked children's reports -/

/-- A report that waits for admission, with the link it comes by. -/
structure ChildEvent where
  sequence : Nat
  parent : String
  report : Report
  title : String

/-- The report waits and its parent can take it: the parent is open, has room and still shares its
ownership with the child. -/
def admissible (db : Db δ) (sequence : Nat) (report : Report) (link : Link) : Bool :=
  report.state.evident
    && (db.inbox.deliveries.find? sequence).isNone
    && db.inbox.load link.parentId < 256
    && db.inbox.loadBytes link.parentId ≤ maxPendingBytes - maxTextBytes
    && !db.directory.closed link.parentId
    && db.directory.sharesOwnership report.childId link.parentId

/-- The page of reports to admit, oldest first. -/
def childEvents (db : Db δ) : List ChildEvent :=
  (db.reports.rows.rows.filterMap fun (sequence, report) =>
    match db.kinship.links.find? report.childId with
    | some link =>
      if admissible db sequence report link then
        some ⟨sequence, link.parentId, report, link.childTitle⟩ else none
    | none => none).take 64

def childEventMessage (sequence : Nat) : String := childEventPrefix ++ toString sequence

/-- `INSERT INTO child_followup_deliveries … SELECT …, sequence` of the named message. -/
def recordDelivery (db : Db δ) (report : Nat) (session messageId : String) :
    Except ServiceError (Db δ) :=
  match db.inbox.sequenceOf? session messageId with
  | none => return db
  | some sequence => do
    ensure (!db.inbox.deliveries.has fun _ message => message == sequence)
      (failure "UNIQUE constraint failed: child_followup_deliveries.message_sequence")
    let deliveries ← need (db.inbox.deliveries.insert? report sequence)
      (failure "UNIQUE constraint failed: child_followup_deliveries.report_sequence")
    return { db with inbox := { db.inbox with deliveries := deliveries } }

/-- The admission of one report. A refusal leaves the report for a later page. -/
def admitChildEvent (deps : Deps δ) (db : Db δ) (event : ChildEvent) :
    Except ServiceError (Bool × Db δ) :=
  let message := childEventMessage event.sequence
  let prompt := evidencePrompt event.parent event.report.childId event.report.reportId
    event.report.state.text event.report.body
  match admitMessage deps db event.parent message prompt "nakode:durable-child"
      event.report.createdAtMs (deps.textDigest prompt.text) with
  | .error error => if error.code = .conflict then .ok (false, db) else .error error
  | .ok db => do
    let db ← saveSource db event.parent message
      (evidenceSource event.report.childId event.title event.report.state)
    let db := setDisplayText db event.parent message
      (reportDisplay deps event.report.reportId event.report.body)
    let db ← recordDelivery db event.sequence event.parent message
    return (true, db)

/-- The admission of a page, one report after another. -/
def admitEach (deps : Deps δ) : List ChildEvent → Bool → Db δ → Except ServiceError (Bool × Db δ)
  | [], admitted, db => .ok (admitted, db)
  | event :: rest, admitted, db => do
    let (now, db) ← admitChildEvent deps db event
    admitEach deps rest (admitted || now) db

def admitChildEvents (deps : Deps δ) (db : Db δ) : Except ServiceError (Bool × Db δ) :=
  admitEach deps (childEvents db) false db

/-! ## Revalidation -/

/-- Evidence may still be claimed: it has its source, and the child, where it still exists, is
still linked to the inbox's session and shares its ownership. -/
def authorizedEvidence (db : Db δ) (session : String) (source : Option Source) : Bool :=
  match source with
  | none => false
  | some s =>
    s.kind == .durableChildEvidence && !s.sessionId.isEmpty
      && (!db.directory.exists? s.sessionId
        || (db.kinship.parent? s.sessionId == some session
          && db.directory.sharesOwnership s.sessionId session))

/-- `batch_id IS NULL OR batch_id IN (SELECT batch_id … WHERE state <> 'consumed')`. -/
def Inbox.undelivered (i : Inbox δ) (m : Message δ) : Bool :=
  m.batchId.all fun batch => (i.batches.find? batch).any (·.state != .consumed)

def authorizedChildMessages (db : Db δ) (parent : String) : Bool :=
  !db.inbox.messages.has fun sequence m =>
    m.sessionId == parent && !db.inbox.removed sequence && db.inbox.undelivered m
      && db.inbox.deliveries.has (fun _ message => message == sequence)
      && !authorizedEvidence db parent (db.inbox.sources.find? sequence)

end Nakode
