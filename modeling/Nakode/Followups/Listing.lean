import Nakode.Followups.Batches

/-!
# Listing an inbox

`listView` is one bounded page of a view of an inbox: all messages or the active ones upwards from a
cursor, the consumed ones downwards. `readView` is a client that follows the pages from the start.
-/

namespace Nakode

open Outcome Relational

variable {δ : Type}

structure FollowupItem where
  sequence : Nat
  messageId : String
  submittedBy : String
  receivedAtMs : Int
  text : String
  attachmentLabels : List String
  state : String
  batchId : Option String
  deriving DecidableEq, Repr

structure FollowupInbox where
  sessionId : String
  items : List FollowupItem
  hasMore : Bool
  pendingCount : Nat
  paused : Bool
  unsettledBatchId : Option String
  blockedReason : Option String
  deriving DecidableEq, Repr

def validatePage (after limit : Nat) (view : String) : Except ServiceError Unit := do
  ensure (1 ≤ limit && limit ≤ 64 && after < 2 ^ 63)
    (refuse "follow-up page limit must be 1–64; cursor must be nonnegative i64")
  ensure (view == "" || view == "all" || view == "active" || view == "consumed")
    (refuse "follow-up view must be all, active or consumed")

/-- The message is in the view: `b.state = 'consumed'`, `b.state IS NULL OR b.state <> 'consumed'`,
or anything that is not removed. -/
def Inbox.shows (i : Inbox δ) (session view : String) (sequence : Nat) (m : Message δ) : Bool :=
  m.sessionId == session && !i.removed sequence
    && (view != "consumed" || i.batchState? m == some .consumed)
    && (view != "active" || i.batchState? m != some .consumed)

/-- The rows of a view in its order, `CASE WHEN view = 'consumed' THEN -sequence ELSE sequence`. -/
def Inbox.viewed (i : Inbox δ) (session view : String) : List (Nat × Message δ) :=
  let rows := i.messages.rows.filter fun row => i.shows session view row.1 row.2
  if view == "consumed" then rows.reverse else rows

/-- The cursor leaves the row: below it in the view of consumed messages, where 0 is the start, and
above it in the others. -/
def beyond (view : String) (after sequence : Nat) : Bool :=
  if view == "consumed" then after == 0 || sequence < after else after < sequence

def Inbox.listItem (i : Inbox δ) (row : Nat × Message δ) : FollowupItem where
  sequence := row.1
  messageId := row.2.messageId
  submittedBy := row.2.submittedBy
  receivedAtMs := row.2.receivedAtMs
  text := row.2.displayText
  attachmentLabels := row.2.attachmentLabels
  state := (i.batchState? row.2).elim "pending" (·.text)
  batchId := row.2.batchId

def maxPageTextBytes : Nat := 256 * 1024

/-- The items of a page, and whether a row was left over. -/
def Inbox.listItems (i : Inbox δ) (limit : Nat) :
    List (Nat × Message δ) → List FollowupItem → Nat → List FollowupItem × Bool
  | [], items, _ => (items, false)
  | row :: rest, items, textBytes =>
    if items.length ≥ limit || textBytes + Text.len row.2.displayText > maxPageTextBytes then
      (items, true)
    else
      i.listItems limit rest (items ++ [i.listItem row]) (textBytes + Text.len row.2.displayText)

def listView (db : Db δ) (session : String) (after limit : Nat) (view : String) :
    Except ServiceError FollowupInbox := do
  authorize db session false
  validatePage after limit view
  let rows := (db.inbox.viewed session view).filter fun row => beyond view after row.1
  let (items, hasMore) := db.inbox.listItems limit (rows.take (limit + 1)) [] 0
  let unresolved := db.inbox.openBatch? session
  let blockedReason := unresolved.bind fun (_, batch) =>
    batch.blockedReason <|> if batch.state == .dispatching then
      some "Provider dispatch is unacknowledged; automatic replay is disabled." else none
  return {
    sessionId := session
    items
    hasMore
    pendingCount := (db.inbox.pending session).length
    paused := db.inbox.paused session
    unsettledBatchId := unresolved.map (·.1)
    blockedReason := blockedReason <|> if authorizedChildMessages db session then none else
      some "child evidence ownership is unavailable; explicit recovery required" }

/-- The pages that a client reads who follows the last sequence of each from a cursor on, as long as
there is more; none when the fuel runs out or a page that has more holds no sequence to follow. -/
def readView (db : Db δ) (session : String) (limit : Nat) (view : String) :
    Nat → Nat → Except ServiceError (Option (List FollowupInbox))
  | 0, _ => return none
  | fuel + 1, after => do
    let page ← listView db session after limit view
    if page.hasMore then
      match page.items.getLast? with
      | none => return none
      | some last => do
        let rest ← readView db session limit view fuel last.sequence
        return rest.map (page :: ·)
    else return some [page]

end Nakode
