import Nakode.System

/-!
# Delegated deletion

A parent that stops or deletes its child first takes a hold on the child's link
(`holdChildDeletion`), which the triggers of `session_child_links` respect; the deletion itself
checks the parent again in its own transaction. A command that is rejected gives back the hold only
when it was the one that took it.

`Store` adds the two ledgers of a session that no foreign key ties to it. `machine` interleaves the
turns of the runtime with the operations of any number of store handles, under a clock that only
goes forward. The runtime alone takes and releases holds, at the start and the end of a turn.
-/

namespace Nakode.Deletion

open Outcome Relational Transition

variable {δ : Type}

/-! ## The store -/

/-- `BridgeContinuationDisposition`. -/
inductive Disposition where
  | accepted
  | duplicate
  | busy
  deriving DecidableEq, Repr

structure InboundEvent where
  disposition : Disposition
  recordedAtMs : Int
  deriving DecidableEq, Repr

structure OwnerPrompt where
  sessionId : String
  promptId : String
  rawText : String
  sourceTransport : Option String
  dispatchPending : Bool
  deriving DecidableEq, Repr

/-- The database, with `session_bridge_inbound_events` (a row for a session and an external event)
and `accepted_owner_prompts`. -/
structure Store (δ : Type) where
  db : Db δ
  inboundEvents : Table (String × String) InboundEvent
  ownerPrompts : Sequenced OwnerPrompt

instance : EmptyCollection (Store δ) := ⟨⟨∅, ∅, ∅⟩⟩

inductive LedgerError where
  | ownerPromptConflict (sessionId promptId : String)
  | session (error : SessionError)
  deriving DecidableEq, Repr

namespace Store

/-- `record_owner_prompt_on`: a prompt is accepted once, with one text and transport. -/
def recordOwnerPrompt (s : Store δ) (prompt : OwnerPrompt) : Except LedgerError (Store δ) :=
  match s.ownerPrompts.rows.find? fun row =>
      row.2.sessionId == prompt.sessionId && row.2.promptId == prompt.promptId with
  | some (_, existing) => do
    ensure (existing.rawText == prompt.rawText
        && existing.sourceTransport == prompt.sourceTransport)
      (.ownerPromptConflict prompt.sessionId prompt.promptId)
    return s
  | none => return { s with ownerPrompts := s.ownerPrompts.append prompt }

/-- `acknowledge_owner_prompt_dispatch`. -/
def acknowledgeOwnerPromptDispatch (s : Store δ) (session prompt : String) :
    Except LedgerError (Store δ) := do
  let named := fun (_ : Nat) (row : OwnerPrompt) =>
    row.sessionId == session && row.promptId == prompt
  ensure (s.ownerPrompts.has named)
    (.session (.sessionNotFound (session ++ "/owner-prompt/" ++ prompt)))
  return { s with ownerPrompts := s.ownerPrompts.update named fun row =>
    { row with dispatchPending := false } }

def maxBridgeReplayEventsPerSession : Nat := 4 * 1024

/-- The events of a session past the newest ones; the event that waits to be dispatched stays. -/
def expiredEvents (events : Table (String × String) InboundEvent) (session : String)
    (protectedEvent : Option String) : List (String × String) :=
  let candidates := events.rows.filter fun row =>
    row.1.1 == session && some row.1.2 != protectedEvent
  let newestFirst := candidates.reverse.insertionSort fun a b =>
    b.2.recordedAtMs ≤ a.2.recordedAtMs
  (newestFirst.drop maxBridgeReplayEventsPerSession).map (·.1)

/-- `save_bridge_inbound_event_on`: a session of the saved bridges, each with the event it waits to
dispatch, records an event once. -/
def saveBridgeInboundEvent (s : Store δ) (bridges : List (String × Option String))
    (session event : String) (row : InboundEvent) : Except LedgerError (Store δ) := do
  let bridge ← need (bridges.find? (·.1 == session))
    (.session (.invalidStoredValue "session_bridge_inbound_events.session_id" session))
  let events ← need (s.inboundEvents.insert? (session, event) row)
    (.session (.database "UNIQUE constraint failed: session_bridge_inbound_events"))
  let expired := expiredEvents events session bridge.2
  return { s with inboundEvents := events.delete fun key _ => expired.contains key }

end Store

/-! ## Deletion -/

/-- `delete_guarded` from its transaction on. The session was looked up before, so the record that
was found may be another connection's past. -/
def deleteFound (db : Db δ) (clockMs : Int) (id : String) (found : Option String)
    (guard : DeletionGuard) : Except SessionError (Db δ) := do
  let resolved := found.getD id
  ensure (!db.kinship.links.has fun _ link => link.parentId == resolved) .linkedChildren
  checkGuard db id resolved found guard
  let db := { db with directory := db.directory.archive resolved }
  match found with
  | none => return db
  | some session => (deleteSession (db.release session) clockMs session).mapError .database

namespace Store

/-- The same transaction deletes the rows of both ledgers. -/
def deleteGuarded (s : Store δ) (clockMs : Int) (id : String) (found : Option String)
    (guard : DeletionGuard) : Except SessionError (Store δ) := do
  let db ← deleteFound s.db clockMs id found guard
  match found with
  | none => return { s with db := db }
  | some session =>
    return {
      db := db
      inboundEvents := s.inboundEvents.delete fun key _ => key.1 == session
      ownerPrompts := s.ownerPrompts.delete fun _ prompt => prompt.sessionId == session }

def purgeAll (s : Store δ) : Store δ :=
  { db := Nakode.purgeAll s.db
    inboundEvents := ∅
    ownerPrompts := s.ownerPrompts.delete fun _ _ => true }

end Store

/-! ## The runtime -/

/-- `unix_timestamp`, in milliseconds: whole seconds. -/
def unixTimestampMs (now : Int) : Int := max 0 now / 1000 * 1000

/-- What the handling of a command leaves: its effects and the response, when there is one yet. -/
structure DispatchOutcome (ε : Type) where
  effects : List ε
  commandResponse : Option (Except ServiceError (Option String))

/-- A rejection had no effect. -/
def DispatchOutcome.rejected {ε : Type} (outcome : DispatchOutcome ε) : Bool :=
  outcome.effects.isEmpty && outcome.commandResponse.any fun response => match response with
    | .ok _ => false
    | .error _ => true

/-- A command under way that took the hold of its child: whether the hold is new, and until when the
command may rely on it. That time is for the proofs only; it is gone when the child is deleted. -/
structure Turn where
  child : String
  created : Bool
  reliesUntil : Option Int
  deriving DecidableEq, Repr

/-- The store, the clock and the command the runtime handles. `accepted` records for the proofs
which commands were not rejected, each with its child and the time until which it may rely on the
hold; a deletion of the child ends them. -/
structure State (δ : Type) where
  store : Store δ
  now : Int
  turn : Option Turn
  accepted : List (String × Int)

namespace State

def withDb (s : State δ) (db : Db δ) : State δ := { s with store := { s.store with db := db } }

/-- `hold_child_deletion` at the start of a turn. A refusal answers the command. -/
def holdChildDeletion (s : State δ) (child : String) (parent : Option String) : State δ :=
  let now := unixTimestampMs s.now
  match Nakode.holdChildDeletion s.store.db now child parent with
  | .ok (created, db) =>
    { s.withDb db with turn := some ⟨child, created, some (now + holdSeconds * 1000)⟩ }
  | .error _ => s

/-- `release_rejected_child_deletion_hold` at the end of a turn. -/
def finishTurn {ε : Type} (s : State δ) (turn : Turn) (outcome : DispatchOutcome ε) : State δ :=
  if outcome.rejected then
    { (if turn.created then s.withDb (s.store.db.release turn.child) else s) with turn := none }
  else
    { s with
      turn := none
      accepted := (turn.reliesUntil.map (turn.child, ·)).toList ++ s.accepted }

/-- The deletion of a session ends what was accepted about it. -/
def forget (s : State δ) (session : String) (store : Store δ) : State δ :=
  { s with
    store := store
    turn := s.turn.map fun turn =>
      if turn.child = session then { turn with reliesUntil := none } else turn
    accepted := s.accepted.filter fun claim => claim.1 != session }

end State

/-! ## Interleavings -/

/-- The operation reads the clock at this time. The operations on holds and deletions are actions of
their own. -/
def RunsAt (now : Int) : Op → Prop
  | .execute _ runtime => runtime.clockMs = now
  | .report request => request.clockMs = now
  | .reparent request _ => request.clockMs = now
  | .createSession clockMs _ => clockMs = now
  | .holdDeletion .. | .releaseHold .. | .deleteGuarded .. | .deleteSession .. | .purgeAll => False
  | _ => True

inductive Action (ε : Type) where
  -- any store handle
  | operation (op : Op)
  | recordOwnerPrompt (prompt : OwnerPrompt)
  | acknowledgeOwnerPromptDispatch (session prompt : String)
  | saveBridgeInboundEvent (bridges : List (String × Option String)) (session event : String)
      (row : InboundEvent)
  | deleteGuarded (id : String) (found : Option String) (guard : DeletionGuard)
  | purgeAll
  -- the turns of the runtime
  | hold (child : String) (parent : Option String)
  | finish (outcome : DispatchOutcome ε)
  | restart
  | tick (ms : Nat)

/-- The store after a transaction that may fail. -/
def Store.commit (s : Store δ) (result : Except LedgerError (Store δ)) : Store δ :=
  match result with
  | .ok s' => s'
  | .error _ => s

variable {ε : Type}

namespace State

/-- What a deletion leaves: nothing of its session, or the state as it was when it is refused. -/
def deleteGuarded (s : State δ) (id : String) (found : Option String) (guard : DeletionGuard) :
    State δ :=
  match s.store.deleteGuarded s.now id found guard, found with
  | .ok store, some session => s.forget session store
  | .ok store, none => { s with store := store }
  | .error _, _ => s

def purgeAll (s : State δ) : State δ :=
  { s with
    store := s.store.purgeAll
    turn := s.turn.map fun turn => { turn with reliesUntil := none }
    accepted := [] }

/-- One action. The runtime starts a turn when it has none, and finishes the one it has. -/
def Next [DecidableEq δ] (deps : Deps δ) (s : State δ) : Action ε → State δ → Prop
  | .operation op, t => RunsAt s.now op ∧ t = s.withDb (after deps op s.store.db)
  | .recordOwnerPrompt prompt, t =>
    t = { s with store := s.store.commit (s.store.recordOwnerPrompt prompt) }
  | .acknowledgeOwnerPromptDispatch session prompt, t =>
    t = { s with store := s.store.commit (s.store.acknowledgeOwnerPromptDispatch session prompt) }
  | .saveBridgeInboundEvent bridges session event row, t =>
    t = { s with
      store := s.store.commit (s.store.saveBridgeInboundEvent bridges session event row) }
  | .deleteGuarded id found guard, t => t = s.deleteGuarded id found guard
  | .purgeAll, t => t = s.purgeAll
  | .hold child parent, t => s.turn = none ∧ t = s.holdChildDeletion child parent
  | .finish outcome, t => ∃ turn, s.turn = some turn ∧ t = s.finishTurn turn outcome
  | .restart, t => t = { s with turn := none }
  | .tick ms, t => t = { s with now := s.now + ms }

/-- Before the first command of the runtime. -/
def Starts (s : State δ) : Prop := s.turn = none ∧ s.accepted = []

end State

/-- Turns of the runtime, operations of store handles and the clock, in any order. -/
def machine [DecidableEq δ] (deps : Deps δ) (ε : Type) : System (State δ) (Action ε) where
  next s a t := s.Next deps a t

end Nakode.Deletion
