import Nakode.Lib.Outcome
import Nakode.Lib.Text

/-!
# Commands, prompts and errors

What a client sends (`Command`, `PromptInput`) and what a refused request answers
(`ServiceError`), with the code of third parties that the stores call (`Deps`).
-/

namespace Nakode

/-! ## Errors -/

inductive ErrorCode where
  | invalidRequest
  | unsupportedVersion
  | notFound
  | conflict
  | permissionDenied
  | providerUnavailable
  | capabilityUnsupported
  | resyncRequired
  | internal
  deriving DecidableEq, Repr

structure ServiceError where
  code : ErrorCode
  message : String
  retryable : Bool
  deriving DecidableEq, Repr

/-- A refusal: the request conflicts with what is stored. -/
def refuse (message : String) : ServiceError := ⟨.conflict, message, false⟩

/-- A failed SQL statement of the follow-up inbox. -/
def failure (error : String) : ServiceError :=
  ⟨.internal, "follow-up persistence: " ++ error, true⟩

/-- A failed SQL statement of the child report store. -/
def reportFailure (error : String) : ServiceError :=
  ⟨.internal, "child report persistence: " ++ error, true⟩

/-- The errors of the session repository that the modelled operations return. -/
inductive SessionError where
  | linkedChildren
  | selfClearNotReady
  | parentFenceMismatch
  | childRelationship (error : ServiceError)
  | database (error : String)
  | ambiguous (id : String)
  | sessionNotFound (id : String)
  | invalidStoredValue (field value : String)
  | bridgeRevisionConflict (sessionId : String) (revision : Nat)
  deriving DecidableEq, Repr

/-! ## Prompts -/

inductive PromptAttachment where
  | artifact (artifactId label : String)
  | localFile (label path : String)
  | inlineImage (label mediaType : String) (data : List UInt8)
  deriving DecidableEq, Repr

/-- The label of an attachment, which every kind of attachment has. -/
def PromptAttachment.label : PromptAttachment → String
  | .artifact _ label => label
  | .localFile label _ => label
  | .inlineImage label _ _ => label

structure PromptInput where
  text : String
  attachments : List PromptAttachment
  deriving DecidableEq, Repr

/-! ## Commands -/

/-- The commands that reach the inbox and the relationship store. -/
inductive Command where
  | enqueueFollowup (sessionId messageId : String) (prompt : PromptInput)
  | relayAgentFollowup (sessionId messageId sourceSessionId sourceCallId : String)
      (prompt : PromptInput) (sourceOwnerChat : Bool)
  | admitExternalChildReport
      (sessionId messageId childSessionId childTitle reportId state body : String)
  | removeFollowup (sessionId messageId : String)
  | setFollowupPaused (sessionId : String) (paused : Bool)
  | reparentChildSession (sourceSessionId sourceCallId childSessionId : String)
      (expectedParentSessionId : Option String) (expectedRelationshipRevision : Nat)
      (transfer : Bool)
  | linkChildSession (parentSessionId childSessionId : String)
  | publishChildReport (childSessionId reportId state body : String)
  deriving DecidableEq, Repr

/-! ## Report states and origins -/

/-- The states a report can have. -/
inductive ReportState where
  | progress
  | blocker
  | question
  | completed
  | failed
  | cancelled
  deriving DecidableEq, Repr

namespace ReportState

def text : ReportState → String
  | progress => "progress"
  | blocker => "blocker"
  | question => "question"
  | completed => "completed"
  | failed => "failed"
  | cancelled => "cancelled"

/-- The supported state a text names. -/
def ofText? : String → Option ReportState
  | "progress" => some progress
  | "blocker" => some blocker
  | "question" => some question
  | "completed" => some completed
  | "failed" => some failed
  | "cancelled" => some cancelled
  | _ => none

/-- The terminal and attention states, whose reports go to the parent's inbox. -/
def evident : ReportState → Bool
  | completed | failed | blocker | question => true
  | progress | cancelled => false

/-- A state is named by its own text. -/
@[simp] theorem ofText?_text (s : ReportState) : ofText? s.text = some s := by
  cases s <;> rfl

end ReportState

/-- Where a message came from, as the runtime recorded it. -/
inductive Origin where
  | delegatedInstruction
  | peerContext
  | durableChildEvidence
  | ordinaryFollowup
  deriving DecidableEq, Repr

def Origin.text : Origin → String
  | .delegatedInstruction => "delegated_instruction"
  | .peerContext => "peer_context"
  | .durableChildEvidence => "durable_child_evidence"
  | .ordinaryFollowup => "ordinary_followup"

/-- Server-owned provenance of a message. -/
structure Source where
  kind : Origin
  sessionId : String
  title : String
  callId : Option String
  status : Option ReportState
  ownerChat : Bool
  deriving DecidableEq, Repr

/-! ## The last turn of a child -/

/-- What a terminal turn leaves as evidence. -/
structure Completion where
  version : Nat
  turnId : String
  finalText : Option String
  finalTotalBytes : Nat
  truncated : Bool
  deriving DecidableEq, Repr

/-! ## Code outside the repository -/

/-- What the stores call and the repository does not contain: SHA-256 over the JSON encoding of a
command or over a text, the same digest in hexadecimal, the decoder of inline images, and the JSON
reader for `Completion`. -/
structure Deps (δ : Type) where
  commandDigest : Command → δ
  textDigest : String → δ
  hexDigest : String → String
  validateImage : List UInt8 → String → Except String Unit
  parseCompletion : String → Option Completion

/-- Digests that keep the whole of what they are taken over, and a reader that knows no completion.
Images are not looked at. -/
def Deps.verbatim : Deps Command where
  commandDigest := id
  textDigest text := .publishChildReport text "" "" ""
  hexDigest := id
  validateImage _ _ := .ok ()
  parseCompletion _ := none

end Nakode
