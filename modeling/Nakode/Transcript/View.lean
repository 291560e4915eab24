import Mathlib

/-!
# Transcript views

What a client sees of a transcript: its entries with the end of each body, the page they are on,
and the window onto a body. The gRPC mapping carries these records over field by field, so the
server and the SDK share them here.
-/

namespace Nakode

inductive TranscriptEntryKind where
  | system
  | user
  | assistant
  | steering
  | reasoning
  | tool
  | diff
  | warning
  | error
  deriving DecidableEq, Repr

inductive TranscriptEntryStatus where
  | running
  | complete
  | failed
  | interrupted
  deriving DecidableEq, Repr

structure TranscriptEntryView where
  coordinationJson : Option String := none
  bodySha256 : String := ""
  id : String
  kind : TranscriptEntryKind
  title : String
  body : String
  bodyStartByte : Nat := 0
  bodyTotalBytes : Nat := 0
  status : TranscriptEntryStatus
  artifacts : List String := []
  createdAtMs : Option Nat := none
  providerId : Option String := none
  modelId : Option String := none
  ownerTurnId : Option String := none
  resolvedReasoningEffort : Option String := none
  resolvedFastMode : Option Bool := none
  sourceTransport : Option String := none
  sourcePromptId : Option String := none
  toolAuditJson : Option String := none
  parentToolEntryId : Option String := none
  deriving DecidableEq, Repr

structure TranscriptPage where
  prefixBefore : String := ""
  prefixThrough : String := ""
  nextBeforeEntryId : Option String := none
  entries : List TranscriptEntryView
  hasEarlier : Bool
  streamActive : Bool
  streamLabel : String
  /-- The latest owner entry, which may also be one of `entries`. -/
  currentOwnerEntry : Option TranscriptEntryView := none
  currentOwnerOmittedToolCalls : Nat := 0
  deriving DecidableEq, Repr

structure TranscriptBodyWindow where
  bodySha256 : String := ""
  entryId : String
  body : String
  startByte : Nat
  totalBytes : Nat
  hasEarlier : Bool
  deriving DecidableEq, Repr

structure TranscriptWindowView where
  entryIds : List String
  hasEarlier : Bool
  streamActive : Bool
  streamLabel : String
  deriving DecidableEq, Repr

/-- `MAX_TRANSCRIPT_DELTA_BYTES`. -/
def maxTranscriptDeltaBytes : Nat := 64 * 1024

end Nakode
