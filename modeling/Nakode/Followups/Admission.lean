import Nakode.ChildReports

/-!
# Admission to the follow-up inbox

The checks of a request (`authorize`, `validatePrompt`), the admission of a message and its
provenance (`admitMessage`, `saveSource`), the source of a relay (`relaySource`), the adoption of
an agent by the owner Chat that instructs it (`adopt`), and the removal of a pending message
(`removePending`).
-/

namespace Nakode

open Outcome Relational

variable {δ : Type}

/-! ## Requests -/

def maxTextBytes : Nat := 64 * 1024

def maxPendingBytes : Nat := 64 * 1024 * 1024

structure InboxRequest where
  command : Command
  key : String
  sender : String
  replayOnly : Bool
  nowMs : Int

def validId (value : String) : Bool :=
  !value.isEmpty && Text.len value ≤ 200 && Text.trim value == value

def authorize (db : Db δ) (session : String) (requireOpen : Bool) : Except ServiceError Unit := do
  ensure (validId session) (refuse "invalid follow-up session identity")
  ensure (db.directory.exists? session) ⟨.notFound, "follow-up session not found", false⟩
  ensure (!(requireOpen && db.directory.closed session))
    (refuse "closed sessions cannot accept or dispatch follow-ups")

/-- The bytes an attachment adds to a prompt, when it is within bounds. -/
def validateAttachment (deps : Deps δ) : PromptAttachment → Except ServiceError Nat
  | .inlineImage label mediaType data => do
    ensure (Text.len label ≤ 512) (refuse "attachment label exceeds 512 bytes")
    (deps.validateImage data mediaType).mapError refuse
    return data.length
  | .artifact _ _ => .error (refuse "follow-up artifact must be materialized before admission")
  | .localFile label path => do
    ensure (Text.len label ≤ 512 && Text.len path ≤ 4096)
      (refuse "follow-up file metadata exceeds bounds")
    return Text.len label + Text.len path

def validateAttachments (deps : Deps δ) : List PromptAttachment → Nat → Except ServiceError Nat
  | [], bytes => .ok bytes
  | attachment :: rest, bytes => do
    let added ← validateAttachment deps attachment
    validateAttachments deps rest (bytes + added)

/-- The bytes of a prompt that may be admitted. -/
def validatePrompt (deps : Deps δ) (prompt : PromptInput) : Except ServiceError Nat := do
  ensure (!(Text.len prompt.text > maxTextBytes
      || ((Text.trim prompt.text).isEmpty && prompt.attachments.isEmpty)))
    (refuse "follow-up requires content and at most 64 KiB of text; nothing was enqueued")
  -- quoting must not turn an accepted head message into one that no batch can hold
  ensure (Text.len (Text.quote prompt.text) ≤ 96 * 1024)
    (refuse "escaped follow-up text exceeds 96 KiB")
  ensure (prompt.attachments.length ≤ 8) (refuse "follow-up supports at most eight attachments")
  let bytes ← validateAttachments deps prompt.attachments (Text.len prompt.text)
  ensure (bytes ≤ 20 * 1024 * 1024 + maxTextBytes) (refuse "follow-up attachments exceed 20 MiB")
  return bytes

def validateRequestIdentities (key sender : String) : Except ServiceError Unit :=
  ensure (validId key && validId sender)
    (refuse "follow-up command/client identity must be 1–200 bytes")

/-- The prefix of the message identities that the runtime keeps for child evidence. -/
def childEventPrefix : String := "nakode-child-event:"

def validateMessageIdentity (messageId : String) : Except ServiceError Unit := do
  ensure (!Text.startsWith messageId childEventPrefix)
    (refuse "child event identities are reserved for the runtime")
  ensure (validId messageId) (refuse "invalid follow-up message identity")

/-! ## Messages -/

/-- The message is in the inbox already, admitted by a request with this digest. -/
def messageExists [DecidableEq δ] (db : Db δ) (session messageId : String) (digest : δ) :
    Except ServiceError Bool :=
  match (db.inbox.sequenceOf? session messageId).bind db.inbox.messages.find? with
  | none => .ok false
  | some existing =>
    if existing.requestDigest = digest then .ok true
    else .error (refuse "follow-up message identity reused for different content")

/-- `SELECT COUNT(*)` of the unsettled messages of a session. -/
def Inbox.load (i : Inbox δ) (session : String) : Nat :=
  i.messages.count fun sequence m => m.sessionId == session && i.unsettled sequence m

/-- `SELECT COALESCE(SUM(payload_bytes), 0)` of the unsettled messages of a session. -/
def Inbox.loadBytes (i : Inbox δ) (session : String) : Nat :=
  ((i.messages.rows.filter fun row =>
    row.2.sessionId == session && i.unsettled row.1 row.2).map (·.2.payloadBytes)).sum

/-- The row of a new message. -/
def newMessage (session messageId sender : String) (nowMs : Int) (prompt : PromptInput)
    (bytes : Nat) (digest : δ) : Message δ where
  sessionId := session
  messageId := messageId
  submittedBy := sender
  receivedAtMs := nowMs
  prompt := some prompt
  displayText := prompt.text
  attachmentLabels := prompt.attachments.map (·.label)
  requestDigest := digest
  payloadBytes := bytes
  batchId := none

def Inbox.addMessage (i : Inbox δ) (m : Message δ) : Inbox δ :=
  { i with messages := i.messages.append m }

def admitMessage (deps : Deps δ) (db : Db δ) (session messageId : String) (prompt : PromptInput)
    (sender : String) (nowMs : Int) (digest : δ) : Except ServiceError (Db δ) := do
  let bytes ← validatePrompt deps prompt
  ensure (!(db.inbox.load session ≥ 256
      || db.inbox.loadBytes session + bytes > maxPendingBytes))
    (refuse "follow-up inbox is full (256 items / 64 MiB); nothing was enqueued")
  ensure (db.inbox.sequenceOf? session messageId).isNone
    (failure "UNIQUE constraint failed: followup_messages.session_id, followup_messages.message_id")
  return { db with
    inbox := db.inbox.addMessage (newMessage session messageId sender nowMs prompt bytes digest) }

/-- The unique index `followup_source_call`: the source's call is not recorded yet. -/
def Inbox.freeCall (i : Inbox δ) (source : Source) : Bool :=
  source.callId.isNone ||
    !i.sources.has fun _ s => s.sessionId == source.sessionId && s.callId == source.callId

/-- `INSERT INTO followup_sources … SELECT sequence …` of the named message. -/
def saveSource (db : Db δ) (session messageId : String) (source : Source) :
    Except ServiceError (Db δ) :=
  match db.inbox.sequenceOf? session messageId with
  | none => return db
  | some sequence => do
    ensure (db.inbox.freeCall source)
      (failure "UNIQUE constraint failed: index 'followup_source_call'")
    let sources ← need (db.inbox.sources.insert? sequence source)
      (failure "UNIQUE constraint failed: followup_sources.message_sequence")
    return { db with inbox := { db.inbox with sources := sources } }

/-- `UPDATE followup_messages SET display_text = text` of the named message. -/
def setDisplayText (db : Db δ) (session messageId text : String) : Db δ :=
  { db with inbox := { db.inbox with
    messages := db.inbox.messages.update
      (fun _ m => m.sessionId == session && m.messageId == messageId)
      fun m => { m with displayText := text } } }

/-! ## Relays -/

/-- The provenance of a relay. A parent's message to its child, and an owner Chat's message to any
of the owner's agents, is an instruction; everything else is peer context. -/
def relaySource (db : Db δ) (source target call : String) (ownerChat : Bool) :
    Except ServiceError Source := do
  authorize db source true
  let title ← need
    (if source != target && db.directory.sharesOwnership source target then
      (db.directory.sessions.find? source).map (·.title) else none)
    (refuse "relay sessions must share current runtime ownership")
  let downward := db.kinship.parent? target == some source
  return {
    kind := if downward || ownerChat then .delegatedInstruction else .peerContext
    sessionId := source
    title := Text.take 120 title
    callId := some call
    status := none
    ownerChat := ownerChat }

/-- An owner Chat that instructs an agent becomes its parent. Nothing changes when either session
is itself nested, the Chat has the most children a parent may have, or the agent is held. -/
def adopt (db : Db δ) (clockMs : Int) (chat agent : String) : Except ServiceError (Db δ) :=
  let current := db.kinship.parent? agent
  if current == some chat then return db
  else if db.kinship.nested chat agent || db.kinship.childCount chat ≥ 32
      || db.kinship.held agent clockMs then return db
  else if current.isSome then (repointLink db clockMs agent chat).mapError failure
  else match db.directory.sessions.find? agent with
    | none => return db
    | some row => (insertLink db clockMs agent chat row.title).mapError failure

/-- The source of a relay, once the runtime has matched its call; no source for other commands. -/
def authenticateSource (db : Db δ) (command : Command) (authenticate : Except ServiceError Unit) :
    Except ServiceError (Option Source) :=
  match command with
  | .relayAgentFollowup session _ source call _ ownerChat => do
    authenticate
    let source ← relaySource db source session call ownerChat
    return some source
  | _ => return none

/-! ## Removal -/

/-- What `remove_pending` leaves of a message: its identity and its digest. -/
def Message.blank (m : Message δ) : Message δ :=
  { m with prompt := none, displayText := "", attachmentLabels := [], payloadBytes := 0 }

/-- The removal of one message: its tombstone, and its row without the payload. -/
def Inbox.remove (i : Inbox δ) (sequence : Nat) : Inbox δ :=
  { i with
    removals := i.removals.insertOrIgnore sequence ()
    messages := i.messages.update (fun n _ => n == sequence) Message.blank }

def removePending (db : Db δ) (session messageId : String) : Except ServiceError (Db δ) := do
  authorize db session false
  ensure (validId messageId) (refuse "invalid follow-up message identity")
  let sequence ← need (db.inbox.sequenceOf? session messageId)
    ⟨.notFound, "follow-up message not found in this session", false⟩
  match (db.inbox.messages.find? sequence).bind db.inbox.batchState? with
  | some state =>
    .error (refuse ("Update is already " ++ state.text ++ "; it cannot be removed or recalled."))
  | none => return { db with inbox := db.inbox.remove sequence }

end Nakode
