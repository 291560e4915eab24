import Nakode.Lib.Interaction

/-!
# The activation journal

One file records how far the activation of an installed binary is. The helper's checks and requests,
the observation of a running service and the recording of a new installation read it, change it in
memory and write it as a whole, each under the activation lease. They ask their surroundings for
everything else: the clock, the identities of the binary and of the running service, the blockers,
and the restarts (`Query`). Times, revisions and sequence numbers are numbers of 64 bits.
-/

namespace Nakode.ActivationJournal

open Interaction

/-! ## Records -/

structure ExecutableIdentity where
  path : String
  sha256 : String
  size : Nat
  modifiedAtUnixMs : Option Nat
  device : Option String
  inode : Option String
  buildRevision : Option String
  deriving DecidableEq

structure ServiceRuntimeRecord where
  pid : Nat
  startedAtUnixMs : Nat
  version : String
  workspace : Option String
  executable : Option ExecutableIdentity
  deriving DecidableEq

structure ServerReport where
  serverVersion : String
  apiVersion : String
  capabilities : List String
  buildRevision : Option String
  deriving DecidableEq

inductive Phase where
  | current | installedPending | checking | blocked | activating | forcing | activated | failed
  | cancelled
  deriving DecidableEq

inductive CheckTrigger where
  | installed | scheduled | manual | forced | recovered
  deriving DecidableEq

inductive CheckResult where
  | blocked | activated | failed | cancelled
  deriving DecidableEq

structure InstalledIdentity where
  executable : ExecutableIdentity
  version : String
  deriving DecidableEq

structure RunningIdentity where
  runtime : ServiceRuntimeRecord
  server : Option ServerReport
  deriving DecidableEq

structure HelperIdentity where
  pid : Nat
  instanceId : String
  startedAtUnixMs : Nat
  heartbeatAtUnixMs : Nat
  deriving DecidableEq

structure Blocker where
  sessionId : String
  title : String
  sessionRevision : Nat
  activity : Int
  queueCount : Nat
  reasons : List String
  deriving DecidableEq

structure CheckRecord where
  sequence : Nat
  trigger : CheckTrigger
  startedAtUnixMs : Nat
  finishedAtUnixMs : Nat
  result : CheckResult
  blockerCount : Nat
  detail : String
  deriving DecidableEq

structure Failure where
  message : String
  retryable : Bool
  deriving DecidableEq

/-! ## Statuses and errors -/

inductive Code where
  | aborted | unimplemented | unavailable | internal | failedPrecondition | invalidArgument
  deriving DecidableEq

structure Status where
  code : Code
  message : String
  deriving DecidableEq

inductive IdempotencyRejectionCode where
  | aborted | unimplemented | unavailable | internal
  deriving DecidableEq

namespace IdempotencyRejectionCode

def fromStatus (status : Status) : Option IdempotencyRejectionCode :=
  match status.code with
  | .aborted => some .aborted
  | .unimplemented => some .unimplemented
  | .unavailable => some .unavailable
  | .internal => some .internal
  | _ => none

def status (code : IdempotencyRejectionCode) (message : String) : Status :=
  match code with
  | aborted => ⟨.aborted, message⟩
  | unimplemented => ⟨.unimplemented, message⟩
  | unavailable => ⟨.unavailable, message⟩
  | internal => ⟨.internal, message⟩

end IdempotencyRejectionCode

structure IdempotencyRejection where
  key : String
  code : IdempotencyRejectionCode
  message : String
  deriving DecidableEq

inductive ActivationError where
  | control (message : String)
  | read (path source : String)
  | decode (path source : String)
  | unsupportedSchema (version : Nat)
  | write (path source : String)
  | rejected (message : String)
  deriving DecidableEq

/-- `to_string`. -/
def ActivationError.display : ActivationError → String
  | control message => message
  | read path source => s!"failed to read activation state at {path}: {source}"
  | decode path source => s!"failed to decode activation state at {path}: {source}"
  | unsupportedSchema version => s!"unsupported activation journal schema {version}"
  | write path source => s!"failed to persist activation state at {path}: {source}"
  | rejected message => s!"activation request was rejected: {message}"

def internalStatus (error : ActivationError) : Status := ⟨.internal, error.display⟩

/-! ## The journal -/

def journalSchemaVersion : Nat := 1

def checkCadenceMs : Nat := 15000

def historyLimit : Nat := 50

def idempotencyLimit : Nat := 50

def conditionalForceCapability : String := "ConditionalActivationForce"

/-- `CARGO_PKG_VERSION`. -/
def cargoPkgVersion : String := "0.3.0"

/-- `u64::MAX`. -/
def u64Max : Nat := 2 ^ 64 - 1

def saturatingAdd (a b : Nat) : Nat := min (a + b) u64Max

structure Journal where
  schemaVersion : Nat
  attemptId : String
  revision : Nat
  phase : Phase
  installed : InstalledIdentity
  running : Option RunningIdentity
  helper : Option HelperIdentity
  cadenceMs : Nat
  lastCheckAtUnixMs : Option Nat
  nextCheckAtUnixMs : Option Nat
  blockers : List Blocker
  history : List CheckRecord
  failure : Option Failure
  idempotencyKeys : List String
  idempotencyRejections : List IdempotencyRejection
  deriving DecidableEq

/-- The list without its first elements when it is longer than the limit. -/
def trim {α : Type} (limit : Nat) (xs : List α) : List α :=
  if limit < xs.length then xs.drop (xs.length - limit) else xs

namespace Journal

def new (attemptId : String) (now : Nat) (installed : InstalledIdentity)
    (running : Option RunningIdentity) : Journal where
  schemaVersion := journalSchemaVersion
  attemptId
  revision := 0
  phase := .installedPending
  installed
  running
  helper := none
  cadenceMs := checkCadenceMs
  lastCheckAtUnixMs := none
  nextCheckAtUnixMs := some now
  blockers := []
  history := []
  failure := none
  idempotencyKeys := []
  idempotencyRejections := []

def supportsForce (journal : Journal) : Bool :=
  (journal.running.bind (·.server)).any (·.capabilities.contains conditionalForceCapability)

def hasIdempotencyKey (journal : Journal) (key : String) : Bool :=
  journal.idempotencyKeys.contains key

/-- The journal with a new key at the end, or `none` when the key is empty or there. -/
def rememberIdempotencyKey (journal : Journal) (key : String) : Option Journal :=
  if key = "" ∨ journal.hasIdempotencyKey key then none
  else
    let keys := journal.idempotencyKeys ++ [key]
    some { journal with
      idempotencyKeys := trim idempotencyLimit keys
      idempotencyRejections :=
        if idempotencyLimit < keys.length then
          journal.idempotencyRejections.filter fun rejection =>
            (trim idempotencyLimit keys).contains rejection.key
        else journal.idempotencyRejections }

def rememberIdempotencyRejection (journal : Journal) (key : String) (status : Status) :
    Option Journal := do
  let code ← IdempotencyRejectionCode.fromStatus status
  let journal ← journal.rememberIdempotencyKey key
  some { journal with
    idempotencyRejections := journal.idempotencyRejections ++ [⟨key, code, status.message⟩] }

def rememberAcceptedIdempotencyRejection (journal : Journal) (key : String) (status : Status) :
    Option Journal := do
  let code ← IdempotencyRejectionCode.fromStatus status
  if key = "" ∨ ¬journal.hasIdempotencyKey key ∨
      journal.idempotencyRejections.any (·.key == key) then
    none
  else
    some { journal with
      idempotencyRejections := journal.idempotencyRejections ++ [⟨key, code, status.message⟩] }

def record (journal : Journal) (trigger : CheckTrigger) (startedAtUnixMs finishedAtUnixMs : Nat)
    (result : CheckResult) (detail : String) : Journal :=
  let sequence := journal.history.getLast?.elim 1 fun entry => saturatingAdd entry.sequence 1
  { journal with
    history := trim historyLimit (journal.history ++ [{
      sequence, trigger, startedAtUnixMs, finishedAtUnixMs, result
      blockerCount := min journal.blockers.length (2 ^ 32 - 1)
      detail }]) }

/-- The helper's sign of life. -/
def heartbeat (journal : Journal) (now : Nat) : Journal :=
  { journal with helper := journal.helper.map ({ · with heartbeatAtUnixMs := now }) }

end Journal

/-! ## The surroundings -/

inductive Query where
  | lease
  | read
  | write (journal : Journal)
  | quarantine
  | now
  | attemptId
  | runningIdentity
  | executableIdentity
  | readRuntimeRecord
  | lifecycleIsLive
  | runtimeOwnerIsDisproven
  | collectBlockers
  | restartServiceQuiescent
  | restartServiceConditionally (expected : Finset (String × Nat))
  | waitForApi

def Query.Answer : Query → Type
  | lease | write _ | restartServiceQuiescent | restartServiceConditionally _ | waitForApi =>
    Except ActivationError Unit
  | read => Except ActivationError (Option Journal)
  | quarantine => Except ActivationError String
  | now => Nat
  | attemptId => String
  | runningIdentity => Option RunningIdentity
  | executableIdentity => Except ActivationError ExecutableIdentity
  | readRuntimeRecord => Option ServiceRuntimeRecord
  | lifecycleIsLive | runtimeOwnerIsDisproven => Bool
  | collectBlockers => Except String (List Blocker)

/-- A program of the activation that fails with an error of this kind. -/
abbrev Activation (ε α : Type) : Type := Act Query.Answer ε α

def acquireLease : Activation ActivationError Unit := Act.attempt Query.lease id

def nowMs {ε : Type} : Activation ε Nat := Act.ask Query.now

def runningIdentity {ε : Type} : Activation ε (Option RunningIdentity) := Act.ask Query.runningIdentity

def readRuntimeRecord {ε : Type} : Activation ε (Option ServiceRuntimeRecord) :=
  Act.ask Query.readRuntimeRecord

/-- `socket_is_live` of the lifecycle socket. -/
def lifecycleIsLive {ε : Type} : Activation ε Bool := Act.ask Query.lifecycleIsLive

def runtimeOwnerIsDisproven {ε : Type} : Activation ε Bool := Act.ask Query.runtimeOwnerIsDisproven

def collectBlockers {ε : Type} : Activation ε (Except String (List Blocker)) :=
  Act.ask Query.collectBlockers

def restartServiceQuiescent {ε : Type} : Activation ε (Except ActivationError Unit) :=
  Act.ask Query.restartServiceQuiescent

def restartServiceConditionally (expected : Finset (String × Nat)) {ε : Type} :
    Activation ε (Except ActivationError Unit) :=
  Act.ask (Query.restartServiceConditionally expected)

def executableIdentity : Activation ActivationError ExecutableIdentity :=
  Act.attempt Query.executableIdentity id

/-- The file of a schema that is known. -/
def readJournal : Activation ActivationError (Option Journal) :=
  Act.attempt Query.read fun answer => answer.bind fun journal? =>
    match journal? with
    | some journal =>
      if journal.schemaVersion = journalSchemaVersion then .ok (some journal)
      else .error (.unsupportedSchema journal.schemaVersion)
    | none => .ok none

def readRequiredJournal : Activation ActivationError Journal := do
  match ← readJournal with
  | some journal => return journal
  | none => throw (.rejected "activation helper has no pending journal")

def quarantineCorruptJournal : Activation ActivationError String := Act.attempt Query.quarantine id

/-- The journal as it is written. -/
def Journal.bumped (journal : Journal) : Journal :=
  { journal with
    schemaVersion := journalSchemaVersion
    revision := saturatingAdd journal.revision 1 }

def writeJournal (journal : Journal) : Activation ActivationError Journal :=
  Act.attempt (Query.write journal.bumped) fun answer => answer.map fun _ => journal.bumped

def newJournal (installed : InstalledIdentity) (running : Option RunningIdentity) {ε : Type} :
    Activation ε Journal := do
  let attemptId ← Act.ask Query.attemptId
  let now ← nowMs
  return .new attemptId now installed running

/-- A record that ends now. -/
def recordNow (journal : Journal) (trigger : CheckTrigger) (started : Nat) (result : CheckResult)
    (detail : String) {ε : Type} : Activation ε Journal := do
  let now ← nowMs
  return journal.record trigger started now result detail

/-! ## Identities -/

namespace ExecutableIdentity

def sameBinary (identity other : ExecutableIdentity) : Bool :=
  identity.sha256 == other.sha256 && identity.size == other.size

def sameBuild (identity other : ExecutableIdentity) : Bool :=
  match identity.buildRevision, other.buildRevision with
  | some left, some right => left == right
  | none, none => identity.sameBinary other
  | _, _ => false

end ExecutableIdentity

def runtimeMatchesCli (record : ServiceRuntimeRecord) (cli : ExecutableIdentity)
    (server : Option ServerReport) : Bool :=
  let runningRevision := (server.bind (·.buildRevision)).or (record.executable.bind (·.buildRevision))
  match cli.buildRevision, runningRevision with
  | some installed, some running => installed == running
  | none, none => record.executable.any (·.sameBuild cli)
  | _, _ => false

def runningServiceHasBuild (running : RunningIdentity) (installed : ExecutableIdentity) : Bool :=
  running.server.isSome && runtimeMatchesCli running.runtime installed running.server

def matchesRecordedTarget (recorded current : ExecutableIdentity) : Bool :=
  recorded.sameBuild current ||
    (recorded.buildRevision.isNone && current.buildRevision.isSome && recorded.sameBinary current)

end Nakode.ActivationJournal
