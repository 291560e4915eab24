import Nakode.Lib.Table

/-!
# Incremental session histories

The bounded history of publications that the server keeps for each observed session
(`SessionHistories`): a client that holds a cursor reads the batches recorded since
(`SessionHistories.changes`) or is told to start over. A batch is kept in its encoding, which the
codec reads back.
-/

namespace Nakode.Sync

open Relational (Table)

variable {ε : Type}

structure SessionSyncCursor where
  sessionId : String
  incarnation : String
  revision : Nat
  deriving DecidableEq, Repr

structure SessionChangeBatch (ε : Type) where
  base : SessionSyncCursor
  next : SessionSyncCursor
  events : List ε
  deriving DecidableEq

inductive SessionChanges (ε : Type) where
  /-- Every complete batch through the cursor. -/
  | changes (cursor : SessionSyncCursor) (batches : List (SessionChangeBatch ε))
  | resetRequired
  deriving DecidableEq

structure StoredBatch where
  base : Nat
  next : Nat
  atMs : Nat
  encoded : List UInt8

structure History where
  cursor : SessionSyncCursor
  batches : List StoredBatch

/-- The histories by session, and the sessions from the one that was established or published least
recently. -/
structure SessionHistories where
  sessions : Table String History
  order : List String
  maxBytes : Nat
  maxBatches : Nat
  maxSessions : Nat
  maxAgeMs : Nat

/-- The JSON encoding of a list of events and its reader. -/
structure Codec (ε : Type) where
  encode : List ε → Option (List UInt8)
  decode : List UInt8 → Option (List ε)

namespace SessionHistories

def observes (h : SessionHistories) (session : String) : Bool := (h.sessions.find? session).isSome

def remove (h : SessionHistories) (session : String) : SessionHistories :=
  { h with
    sessions := h.sessions.delete fun id _ => id == session
    order := h.order.filter (· != session) }

/-- The retained bytes, batches and sessions are within the limits. -/
def withinLimits (h : SessionHistories) : Bool :=
  ((h.sessions.rows.flatMap (·.2.batches)).map (·.encoded.length)).sum ≤ h.maxBytes
    && (h.sessions.rows.map (·.2.batches.length)).sum ≤ h.maxBatches
    && h.sessions.rows.length ≤ h.maxSessions

/-- Whole histories are dropped, in the given order, until the rest is within the limits. -/
def enforceFrom (h : SessionHistories) : List String → SessionHistories
  | [] => { h with order := [] }
  | oldest :: order =>
    if h.withinLimits then { h with order := oldest :: order }
    else enforceFrom { h with sessions := h.sessions.delete fun id _ => id == oldest } order

def enforceLimits (h : SessionHistories) : SessionHistories := h.enforceFrom h.order

/-- The cursor of a session's history; a history at another revision is replaced by an empty one
under a fresh incarnation. -/
def establish (h : SessionHistories) (session : String) (revision : Nat) (uuid : String) :
    SessionSyncCursor × SessionHistories :=
  match (h.sessions.find? session).filter (·.cursor.revision == revision) with
  | some history => (history.cursor, h)
  | none =>
    let h := h.remove session
    let cursor : SessionSyncCursor := ⟨session, uuid, revision⟩
    (cursor, enforceLimits { h with
      sessions := h.sessions.insertOrIgnore session ⟨cursor, []⟩
      order := h.order ++ [session] })

/-- Batches leave a history by age, from the oldest on. -/
def expire (h : SessionHistories) (nowMs : Nat) : SessionHistories :=
  { h with sessions := h.sessions.update (fun _ _ => true) fun history =>
    { history with batches := history.batches.dropWhile fun b => nowMs - b.atMs ≥ h.maxAgeMs } }

/-- The encoding of a batch, as long as it is within the retention budget. -/
def encodeBounded (h : SessionHistories) (codec : Codec ε) (events : List ε) :
    Option (List UInt8) :=
  (codec.encode events).filter (·.length ≤ h.maxBytes)

/-- A publication of an observed session is appended to its history; one that does not continue the
history, or does not fit, ends it. -/
def record (h : SessionHistories) (codec : Codec ε) (session : String) (base : Option Nat)
    (next : Nat) (events : List ε) (nowMs : Nat) : SessionHistories :=
  let h := h.expire nowMs
  match h.sessions.find? session with
  | none => h
  | some history =>
    if base != some history.cursor.revision || next ≤ history.cursor.revision then h.remove session
    else match h.encodeBounded codec events with
      | none => h.remove session
      | some encoded =>
        let batch : StoredBatch := ⟨history.cursor.revision, next, nowMs, encoded⟩
        enforceLimits { h with
          sessions := h.sessions.update (fun id _ => id == session) fun history =>
            { cursor := { history.cursor with revision := next }
              batches := history.batches ++ [batch] }
          order := h.order.filter (· != session) ++ [session] }

/-- The batches from a revision on, each continuing the one before it, with the revision they lead
to. -/
def collect (codec : Codec ε) (cursor : SessionSyncCursor) :
    Nat → List StoredBatch → Option (List (SessionChangeBatch ε) × Nat)
  | revision, [] => some ([], revision)
  | revision, batch :: rest =>
    if batch.base != revision then none
    else match codec.decode batch.encoded with
      | none => none
      | some events => do
        let (batches, revision) ← collect codec cursor batch.next rest
        return (⟨{ cursor with revision := batch.base }, { cursor with revision := batch.next },
          events⟩ :: batches, revision)

def changes (h : SessionHistories) (codec : Codec ε) (cursor : SessionSyncCursor) (nowMs : Nat) :
    SessionChanges ε × SessionHistories :=
  let h := h.expire nowMs
  match h.sessions.find? cursor.sessionId with
  | none => (.resetRequired, h)
  | some history =>
    if cursor.incarnation != history.cursor.incarnation
        || cursor.revision > history.cursor.revision then (.resetRequired, h)
    else match collect codec cursor cursor.revision
        (history.batches.filter fun batch => batch.next > cursor.revision) with
      | none => (.resetRequired, h)
      | some (batches, revision) =>
        if revision != history.cursor.revision then (.resetRequired, h)
        else (.changes history.cursor batches, h)

end SessionHistories

end Nakode.Sync
