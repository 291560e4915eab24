import Nakode.Background.Processes
import Nakode.Background.Registry

/-!
# The service of background tasks

The service answers the calls that a session or a delegated run makes on its tasks. A stop claims
the task (`stopBegin`), signals its processes until they are gone (`terminate`) and settles it
(`stopFinish`); a dismissal takes the row of a failed task away once a listing shows no process of
it. What the system answers, its process listings, the results of signals and the time, is an input
of the calls; the log files are outside of the service's state.
-/

namespace Nakode.BackgroundTasks

structure LeaderExit where
  code : Option Int
  signal : Option Int
  deriving DecidableEq, Repr

/-- The identity of a caller, from the state of its session. -/
structure CallerScope where
  owner : String
  /-- A delegated run sees only its own tasks. -/
  runId : Option String
  turnId : Option String
  callId : Option String
  deriving DecidableEq, Repr

namespace CallerScope

variable (scope : CallerScope)

def mayAccess (record : TaskRecord) : Bool :=
  record.ownerSessionId == scope.owner && scope.runId.all (record.originRunId == some ·)

/-- The check of a receipt in `dismiss`. -/
def mayAcknowledge (receipt : Receipt) : Bool :=
  scope.owner == receipt.ownerSessionId && scope.runId.all (receipt.originRunId == some ·)

end CallerScope

structure BackgroundTaskView where
  taskId : String
  name : String
  ownerSessionId : String
  originRunId : Option String
  originTurnId : Option String
  command : String
  cwd : String
  machine : String
  state : String
  supervision : String
  processId : Option Nat
  exitCode : Option Int
  exitSignal : Option Int
  detail : Option String
  stopReason : Option String
  ownerDeletedAtMs : Option Int
  endpoints : List String
  createdAtMs : Int
  startedAtMs : Option Int
  endedAtMs : Option Int
  updatedAtMs : Int
  deriving DecidableEq, Repr

def view (record : TaskRecord) : BackgroundTaskView where
  taskId := record.taskId
  name := record.name
  ownerSessionId := record.ownerSessionId
  originRunId := record.originRunId
  originTurnId := record.originTurnId
  command := record.command
  cwd := record.cwd
  machine := record.machine
  state := record.state.asStr
  supervision := record.supervision.asStr
  processId := record.processId.bind Int.toNat?
  exitCode := record.exitCode
  exitSignal := record.exitSignal
  detail := record.detail
  stopReason := record.stopReason.map (·.asStr)
  ownerDeletedAtMs := record.ownerDeletedAtMs
  endpoints := record.endpoints
  createdAtMs := record.createdAtMs
  startedAtMs := record.startedAtMs
  endedAtMs := record.endedAtMs
  updatedAtMs := record.updatedAtMs

structure BackgroundTaskDetail where
  task : BackgroundTaskView
  logTail : String
  logTruncated : Bool
  /-- The endpoints of the task, with what a connection to each found. -/
  endpoints : List (String × String)
  observedAtMs : Int
  deriving DecidableEq, Repr

/-- What a call finds outside of the registry. -/
structure Surroundings where
  now : Int
  /-- `read_log_tail` -/
  logTail : String → Nat → String × Bool
  /-- `probe_endpoint` -/
  probe : String → String

def maxLogTailBytes : Nat := 64 * 1024

def detail (record : TaskRecord) (logTailBytes : Nat) (around : Surroundings) :
    BackgroundTaskDetail :=
  let (logTail, logTruncated) := around.logTail record.logPath (min logTailBytes maxLogTailBytes)
  { task := view record
    logTail
    logTruncated
    endpoints := record.endpoints.map fun endpoint =>
      (endpoint, if record.state == .running then around.probe endpoint else "unknown")
    observedAtMs := around.now }

/-- A listing of all processes, or why there is none: `ProcessTable::capture`. -/
abbrev Listing := Except String ProcessTable

/-- What a stop finds: listings before both signals, while it waits, and behind the last wait, and
the failures to send the signals. -/
structure Termination where
  term : Listing
  termFailures : List String
  termPolls : List Listing
  kill : Listing
  killFailures : List String
  killPolls : List Listing
  last : Listing

structure Service where
  machine : String
  store : TaskStore
  /-- The statuses that this process reaped of leaders whose tasks have a row. -/
  leaderExits : List (String × LeaderExit)
  /-- The tasks whose stop is in progress. -/
  stopping : List String
  deletingOwners : List String
  /-- The records that were removed, as they were then; nothing reads them. -/
  removed : List TaskRecord

def unknownTask (taskId : String) : String := "unknown background task " ++ taskId

def missingRow (taskId : String) : String :=
  "background task " ++ taskId ++ " is missing from the registry"

/-- A record as a stop claims it. -/
def TaskRecord.claimed (record : TaskRecord) (reason : StopReason) (now : Int) : TaskRecord :=
  { record with
    state := .stopping
    stopReason := some reason
    stopRequestedAtMs := some now
    updatedAtMs := now }

def failCleanup (record : TaskRecord) (detail : String) : TaskRecord :=
  { record with state := .cleanupFailed, detail := some detail }

namespace Service

variable (s : Service)

def leaderExit (taskId : String) : Option LeaderExit := s.leaderExits.lookup taskId

/-- `save` of a record that has the time of the save. -/
def save (record : TaskRecord) : Except String Unit × Service :=
  match s.store.update record with
  | none => (.error (missingRow record.taskId), s)
  | some store => (.ok (), { s with store })

def remove (record : TaskRecord) : Service :=
  { s with
    store := s.store.remove record
    leaderExits := s.leaderExits.filter (·.1 != record.taskId)
    removed := s.removed ++ [record] }

/-- Remembers the processes of a task. -/
def track (taskId : String) (tracked : Tracked) : Service :=
  { s with store := s.store.track taskId tracked }

/-- The processes of a task in a listing; the descendants among them are remembered. -/
def processes (record : TaskRecord) (table : ProcessTable) : Except String TaskProcesses × Service :=
  match record.processId with
  | none =>
    if record.state == .failedToStart || record.state == .stopped then (.ok ⟨[], []⟩, s)
    else (.error "background task process identity is unknown", s)
  | some group =>
    match record.processStart.filter fun start => !start.isEmpty with
    | none => (.error "background task process identity is unknown", s)
    | some start =>
      let (processes, tracked) :=
        table.trackedTaskProcesses group start (s.store.tracked record.taskId)
      (.ok processes, s.track record.taskId tracked)

def confirmGone (record : TaskRecord) (listing : Listing) : Except String Unit × Service :=
  match listing with
  | .error error => (.error error, s)
  | .ok table =>
    match s.processes record table with
    | (.error error, s) => (.error error, s)
    | (.ok processes, s) =>
      if processes.isEmpty then (.ok (), s)
      else (.error "background task still has live processes", s)

/-! ## Stops -/

inductive StopStart
  /-- Nothing is to be done. -/
  | settled (view : BackgroundTaskView)
  /-- The task is claimed. -/
  | begun (record : TaskRecord)

def claim (taskId : String) : Service := { s with stopping := taskId :: s.stopping }

def unclaim (taskId : String) : Service :=
  { s with stopping := s.stopping.filter (· != taskId) }

/-- The first locked part of `stop`. -/
def stopBegin (taskId : String) (reason : StopReason) (now : Int) :
    Except String StopStart × Service :=
  match s.store.get taskId with
  | none => (.error (unknownTask taskId), s)
  | some record =>
    if record.state.ended || s.stopping.contains taskId then (.ok (.settled (view record)), s)
    else
      let record := record.claimed reason now
      match s.save record with
      | (.error error, s) => (.error error, s)
      | (.ok (), s) => (.ok (.begun record), s.claim taskId)

/-- A task whose processes are gone after a stop. -/
def finishStopped (record : TaskRecord) (now : Int) : TaskRecord :=
  let exit := s.leaderExit record.taskId
  { record with
    state := .stopped
    exitCode := exit.bind (·.code)
    exitSignal := exit.bind (·.signal)
    detail := some "process tree terminated"
    endedAtMs := some now }

/-- The loop of `wait_until_gone`, with the listings until its deadline. -/
def waitUntilGone (group : Int) (leaderStart : String) :
    Tracked → List Listing → Bool × Tracked
  | tracked, [] => (false, tracked)
  | tracked, .error _ :: polls => waitUntilGone group leaderStart tracked polls
  | tracked, .ok table :: polls =>
    let (processes, tracked) := table.trackedTaskProcesses group leaderStart tracked
    if processes.isEmpty then (true, tracked)
    else waitUntilGone group leaderStart tracked polls

inductive Round
  | failed (error : String)
  | gone
  | remaining (tracked : Tracked)

/-- A signal and the wait for its effect. -/
def signalRound (taskId : String) (group : Int) (leaderStart : String) (tracked : Tracked)
    (listing : Listing) (polls : List Listing) : Round × Service :=
  match listing with
  | .error error => (.failed error, s)
  | .ok table =>
    let (processes, tracked) := table.trackedTaskProcesses group leaderStart tracked
    let s := s.track taskId tracked
    if processes.isEmpty then (.gone, s)
    else
      match waitUntilGone group leaderStart tracked polls with
      | (true, _) => (.gone, s)
      | (false, tracked) => (.remaining tracked, s)

/-- The loop over the signals: the record that it settles, or the processes that remain. -/
def signalRounds (record : TaskRecord) (group : Int) (leaderStart : String) (now : Int) :
    List (Listing × List Listing) → Tracked → Service → (TaskRecord ⊕ Tracked) × Service
  | [], tracked, s => (.inr tracked, s)
  | (listing, polls) :: rounds, tracked, s =>
    match s.signalRound record.taskId group leaderStart tracked listing polls with
    | (.failed error, s) => (.inl (failCleanup record error), s)
    | (.gone, s) => (.inl (s.finishStopped record now), s)
    | (.remaining tracked, s) => signalRounds record group leaderStart now rounds tracked s

/-- What is told about a task whose processes survived. -/
def survivorsDetail (group : Int) (leaderStart : String) (tracked : Tracked)
    (inputs : Termination) : String :=
  let remaining := match inputs.last with
    | .ok table => (table.trackedTaskProcesses group leaderStart tracked).1.all
    | .error _ => []
  let failures := inputs.termFailures ++ inputs.killFailures
  "processes remained after SIGKILL: " ++ String.intercalate ", " (remaining.map toString)
    ++ if failures.isEmpty then ""
      else "; signal failures: " ++ String.intercalate "; " failures

/-- Signals a task's processes until they are gone. -/
def terminate (record : TaskRecord) (inputs : Termination) (now : Int) : TaskRecord × Service :=
  match record.processId with
  | none =>
    (failCleanup record "no process identity was recorded; cleanup cannot be verified", s)
  | some group =>
    let leaderStart := record.processStart.getD ""
    match signalRounds record group leaderStart now
        [(inputs.term, inputs.termPolls), (inputs.kill, inputs.killPolls)]
        (s.store.tracked record.taskId) s with
    | (.inl record, s) => (record, s)
    | (.inr tracked, s) =>
      (failCleanup record (survivorsDetail group leaderStart tracked inputs), s)

/-- The last locked part of `stop`. -/
def stopFinish (record : TaskRecord) (now : Int) : Except String BackgroundTaskView × Service :=
  let record := match s.store.get record.taskId with
    | some current => { record with ownerDeletedAtMs := current.ownerDeletedAtMs }
    | none => record
  if record.state.ended then (.ok (view record), (s.remove record).unclaim record.taskId)
  else
    let record := { record with updatedAtMs := now }
    match s.save record with
    | (.error error, s) => (.error error, s.unclaim record.taskId)
    | (.ok (), s) => (.ok (view record), s.unclaim record.taskId)

def stop (taskId : String) (reason : StopReason) (inputs : Termination) (now : Int) :
    Except String BackgroundTaskView × Service :=
  match s.stopBegin taskId reason now with
  | (.error error, s) => (.error error, s)
  | (.ok (.settled view), s) => (.ok view, s)
  | (.ok (.begun record), s) =>
    let (record, s) := s.terminate record inputs now
    s.stopFinish record now

/-! ## The calls -/

/-- The row of a task that a caller may access; any other is reported as a missing one. -/
def authorized (scope : CallerScope) (taskId : String) : Except String TaskRecord :=
  match (s.store.get taskId).filter scope.mayAccess with
  | none => .error (unknownTask taskId)
  | some record => .ok record

def listFor (scope : CallerScope) : List BackgroundTaskView :=
  ((s.store.list (some scope.owner)).filter scope.mayAccess).map view

def inspectFor (scope : CallerScope) (taskId : String) (logTailBytes : Nat)
    (around : Surroundings) : Except String BackgroundTaskDetail :=
  (s.authorized scope taskId).map (detail · logTailBytes around)

def stopFor (scope : CallerScope) (taskId : String) (inputs : Termination) (now : Int) :
    Except String BackgroundTaskView × Service :=
  match s.authorized scope taskId with
  | .error error => (.error error, s)
  | .ok _ => s.stop taskId .requested inputs now

/-- Acknowledges a confirmed failure of a task. -/
def dismiss (scope : Option CallerScope) (taskId : String) (listing : Listing) :
    Except String Unit × Service :=
  match s.store.get taskId with
  | none =>
    match s.store.receipt taskId with
    | some receipt =>
      if scope.all (·.mayAcknowledge receipt) then (.ok (), s)
      else (.error (unknownTask taskId), s)
    | none => (.error (unknownTask taskId), s)
  | some record =>
    if scope.any (!·.mayAccess record) then (.error (unknownTask taskId), s)
    else if !record.state.ended || s.stopping.contains taskId then
      (.error "background task is not a confirmed terminal failure", s)
    else
      match s.confirmGone record listing with
      | (.error error, s) => (.error error, s)
      | (.ok (), s) => (.ok (), s.remove record)

/-- The acknowledgement of an exact id. -/
def stopAck (scope : Option CallerScope) (taskId : String) (inputs : Termination) (now : Int)
    (listing : Listing) : Except String Unit × Service :=
  if scope.any fun scope => !(s.authorized scope taskId).isOk then
    s.dismiss scope taskId listing
  else
    match s.stop taskId .requested inputs now with
    | (.ok _, s) => (.ok (), s)
    | (.error error, s) =>
      if (s.store.get taskId).isNone then s.dismiss scope taskId listing else (.error error, s)

end Service

end Nakode.BackgroundTasks
