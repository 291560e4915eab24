import Nakode.Agent.Inference
import Nakode.Agent.Tools
import Nakode.Delegation.RunOrder
import Nakode.Lib.Utf8
import Nakode.Transcript.Mutation

/-!
# What is salvaged of a run

A run that was cut short leaves a report on the evidence in its transcript: the successful results of
tools and the completed diffs, each text cut to a bound (`buildSubagentSalvage`). The report is kept
with the run and is also written into its transcript as a text (`renderSalvage`).
-/

namespace Nakode.Restoration

open Agent (field? asStr? containsText lowercase)
open Delegation (SubagentStatus)
open Text (Json trim)

def maxSalvagedEvidence : Nat := 8

def maxSalvagedEvidenceBytes : Nat := 4 * 1024

/-! ## Runs -/

structure SalvagedEvidence where
  entryId : String
  title : String
  body : String
  truncated : Bool
  deriving DecidableEq, Repr

structure ContinuationProposition where
  verifiedFindings : List String
  unresolvedBoundary : String
  whyItMatters : String
  recommendedArchetype : String
  followUpObjective : String
  inheritedEvidence : List String
  canProceedIndependently : Bool
  deriving DecidableEq, Repr

structure SubagentSalvage where
  terminalReason : String
  originalObjective : String
  completedWork : List String
  verifiedEvidence : List SalvagedEvidence
  lastSuccessfulEvidence : Option SalvagedEvidence
  unresolvedQuestions : List String
  continuation : ContinuationProposition
  canResume : Bool
  redacted : Bool
  truncated : Bool
  deriving DecidableEq, Repr

structure SubagentObservability where
  title : Option String
  parentRunId : Option String
  invocationTurnId : Option String
  invocationCallId : Option String
  originatingOwnerEntryId : Option String
  archetypePurpose : String
  policyJson : String
  remainingDelegationDepth : Nat
  startedAtMs : Nat
  endedAtMs : Option Nat
  terminationKind : Option String
  terminationDetail : Option String
  objectiveMismatchHandoff : Option String
  salvage : Option SubagentSalvage
  continuedFromRunId : Option String
  continuedByRunId : Option String
  continuationDepth : Nat
  additionalTurns : Option Nat
  inheritedEvidence : List SalvagedEvidence
  deriving DecidableEq, Repr

structure BackendTokenUsage where
  inputTokens : Nat
  outputTokens : Nat
  cachedInputTokens : Nat
  cacheWriteTokens : Nat
  deriving DecidableEq, Repr

structure SubagentRun where
  id : String
  agent : String
  provider : String
  model : Option String
  providerSessionId : Option String
  usage : BackendTokenUsage
  objective : String
  status : SubagentStatus
  latestActivity : String
  observability : SubagentObservability
  deriving DecidableEq, Repr

/-! ## Evidence -/

/-- `serde_json::from_str`, and `format!` with `{:?}` of a text. -/
structure SalvageTexts where
  parse : String → Option Json
  debug : String → String

def asBool? : Json → Option Bool
  | .bool b => some b
  | _ => none

/-- A text up to a bound, and whether it was cut. -/
def boundedSalvageText (value : String) : String × Bool :=
  if Text.len value ≤ maxSalvagedEvidenceBytes then (value, false)
  else (Text.utf8Head value maxSalvagedEvidenceBytes ++ "\n[truncated from "
    ++ toString (Text.len value) ++ " bytes]", true)

def containsRedactionMarker (value : String) : Bool :=
  containsText (lowercase value) "[redacted]" || containsText (lowercase value) "<redacted>"

mutual

def jsonContainsRedaction : Json → Bool
  | .str value => containsRedactionMarker value
  | .arr values => anyContainsRedaction values
  | .obj fields =>
    ((field? (.obj fields) "redacted").bind asBool?).getD false || fieldsContainRedaction fields
  | _ => false

def anyContainsRedaction : List Json → Bool
  | [] => false
  | value :: values => jsonContainsRedaction value || anyContainsRedaction values

def fieldsContainRedaction : List (String × Json) → Bool
  | [] => false
  | (_, value) :: fields => jsonContainsRedaction value || fieldsContainRedaction fields

end

namespace SalvageTexts

variable (texts : SalvageTexts)

def transcriptEntryContainsRedaction (entry : TranscriptEntry) : Bool :=
  containsRedactionMarker entry.body
    || ((entry.toolAuditJson.bind texts.parse).any jsonContainsRedaction)

/-- An audit is missing, or says of no failure and no denial. -/
def auditSucceeded (auditJson : Option String) : Bool :=
  match auditJson with
  | none => true
  | some audit =>
    match texts.parse audit with
    | none => false
    | some audit =>
      (field? audit "failed").bind asBool? != some true
        && (field? audit "denied").bind asBool? != some true
        && (field? audit "status").bind asStr? != some "failed"

def successfulToolEvidence (entry : TranscriptEntry) : Bool :=
  entry.kind == .tool && entry.status == .complete && !(trim entry.body).isEmpty
    && texts.auditSucceeded entry.toolAuditJson

end SalvageTexts

def successfulDiffEvidence (entry : TranscriptEntry) : Bool :=
  entry.kind == .diff && entry.status == .complete && !(trim entry.body).isEmpty

/-- An entry as evidence, each of its texts cut to the bound. -/
def salvagedEvidence (entry : TranscriptEntry) : SalvagedEvidence :=
  let (body, bodyTruncated) := boundedSalvageText (trim entry.body)
  let (title, titleTruncated) := boundedSalvageText entry.title
  let (entryId, idTruncated) := boundedSalvageText entry.id
  ⟨entryId, title, body, bodyTruncated || titleTruncated || idTruncated⟩

namespace SalvageTexts

variable (texts : SalvageTexts)

def retainedEntryIsVerified (entry : TranscriptEntry) : Bool :=
  texts.successfulToolEvidence entry || successfulDiffEvidence entry

def buildSubagentSalvage (entries : List TranscriptEntry) (run : SubagentRun)
    (terminalReason : String) : SubagentSalvage :=
  let verified := entries.filter texts.retainedEntryIsVerified
  let work := verified.map fun entry => boundedSalvageText ("[" ++ entry.id ++ "] " ++ entry.title)
  let completedWork := ((work.map (·.1)).destutter (· ≠ ·)).take maxSalvagedEvidence
  let (terminalReason, reasonTruncated) := boundedSalvageText terminalReason
  let (originalObjective, objectiveTruncated) := boundedSalvageText run.objective
  let redacted := entries.any texts.transcriptEntryContainsRedaction
    || containsRedactionMarker originalObjective || containsRedactionMarker terminalReason
  let verifiedEvidence :=
    ((verified.reverse.take maxSalvagedEvidence).map salvagedEvidence).reverse
  let inheritedEvidence := verifiedEvidence.map fun evidence =>
    "[" ++ evidence.entryId ++ "] " ++ evidence.title
  let (followUpObjective, followUpTruncated) := boundedSalvageText
    ("Continue the bounded objective " ++ texts.debug originalObjective
      ++ " from retained evidence without repeating completed research; resolve the missing "
      ++ "synthesis or remaining boundary.")
  { terminalReason
    originalObjective
    completedWork
    verifiedEvidence
    lastSuccessfulEvidence := verifiedEvidence.getLast?
    unresolvedQuestions :=
      ["The delegate did not produce a complete verified final synthesis before termination."]
    continuation :=
      { verifiedFindings := inheritedEvidence.map fun citation =>
          "Authoritative successful tool evidence is retained at " ++ citation ++ "."
        unresolvedBoundary := "Complete synthesis and any objective boundary not proved by "
          ++ "retained successful tool results."
        whyItMatters := "The original delegated objective remains incomplete."
        recommendedArchetype := run.agent
        followUpObjective
        inheritedEvidence
        canProceedIndependently := false }
    canResume := false
    redacted
    truncated := work.any (·.2) || reasonTruncated || objectiveTruncated
      || verified.length > maxSalvagedEvidence || verifiedEvidence.any (·.truncated)
      || followUpTruncated }

end SalvageTexts

/-! ## The report -/

/-- A list of lines, or a line that there are none. -/
def reportLines (lines : List String) (none : String) : String :=
  if lines.isEmpty then none else String.intercalate "\n" lines

def renderSalvage (salvage : SubagentSalvage) : String :=
  let completed := reportLines (salvage.completedWork.map ("- " ++ ·))
    "- No completed tool or artifact entries were retained."
  let evidence := reportLines
    (salvage.verifiedEvidence.map fun item =>
      "- [" ++ item.entryId ++ "] " ++ item.title ++ "\n  " ++ item.body)
    "- No verified successful tool result or completed diff artifact was recoverable."
  let last := match salvage.lastSuccessfulEvidence with
    | none => "none"
    | some item => "[" ++ item.entryId ++ "] " ++ item.title
  "[Nakode Partial Result]\nTerminal reason: " ++ salvage.terminalReason
    ++ "\nOriginal objective: " ++ salvage.originalObjective
    ++ "\nCompleted work:\n" ++ completed
    ++ "\nVerified evidence recovered from retained successful tool results or completed diff "
    ++ "artifacts:\n" ++ evidence
    ++ "\nLast successful evidence: " ++ last
    ++ "\nUnresolved questions: " ++ String.intercalate "; " salvage.unresolvedQuestions
    ++ "\nSuggested continuation objective: " ++ salvage.continuation.followUpObjective
    ++ "\nCan resume this native run: " ++ toString salvage.canResume
    ++ "\nRedaction applied: " ++ toString salvage.redacted
    ++ "\nTruncation applied: " ++ toString salvage.truncated
    ++ "\n\n[Nakode Continuation Proposition]\nVerified findings so far: "
    ++ String.intercalate "; " salvage.continuation.verifiedFindings
    ++ "\nMaterial unresolved boundary: " ++ salvage.continuation.unresolvedBoundary
    ++ "\nWhy it matters: " ++ salvage.continuation.whyItMatters
    ++ "\nRecommended archetype: " ++ salvage.continuation.recommendedArchetype
    ++ "\nExact bounded follow-up objective: " ++ salvage.continuation.followUpObjective
    ++ "\nEvidence/citations to inherit: "
    ++ String.intercalate ", " salvage.continuation.inheritedEvidence
    ++ "\nCan proceed independently: " ++ toString salvage.continuation.canProceedIndependently
    ++ "\n[/Nakode Continuation Proposition]\n[/Nakode Partial Result]"

end Nakode.Restoration
