import Mathlib

/-!
# The registry of background tasks

The registry has a row for every task until the task is settled or acknowledged, and a receipt from
then on (`remove`). A row is found by the id of its task; a state that is saved replaces what can
change of the row (`TaskRecord.saved`). The statements of the database succeed; the update of a row
that is missing is refused.
-/

namespace Nakode.BackgroundTasks

inductive TaskState
  | launching
  | running
  | stopping
  | exited
  | stopped
  | failedToStart
  | cleanupFailed
  | unknown
  deriving DecidableEq, Repr

namespace TaskState

def asStr : TaskState → String
  | launching => "launching"
  | running => "running"
  | stopping => "stopping"
  | exited => "exited"
  | stopped => "stopped"
  | failedToStart => "failed_to_start"
  | cleanupFailed => "cleanup_failed"
  | unknown => "unknown"

/-- No process of a task can be alive any more. -/
def ended : TaskState → Bool
  | exited | stopped | failedToStart => true
  | launching | running | stopping | cleanupFailed | unknown => false

end TaskState

/-- The server started and reaps the leader of a task, or found the task after a restart. -/
inductive Supervision
  | child
  | adopted
  deriving DecidableEq, Repr

def Supervision.asStr : Supervision → String
  | child => "child"
  | adopted => "adopted"

inductive StopReason
  | requested
  | ownerDeleted
  deriving DecidableEq, Repr

def StopReason.asStr : StopReason → String
  | requested => "requested"
  | ownerDeleted => "owner_deleted"

structure TaskRecord where
  taskId : String
  name : String
  ownerSessionId : String
  originRunId : Option String
  originTurnId : Option String
  originCallId : Option String
  command : String
  cwd : String
  machine : String
  state : TaskState
  supervision : Supervision
  processId : Option Int
  processStart : Option String
  exitCode : Option Int
  exitSignal : Option Int
  detail : Option String
  stopReason : Option StopReason
  stopRequestedAtMs : Option Int
  ownerDeletedAtMs : Option Int
  endpoints : List String
  logPath : String
  createdAtMs : Int
  startedAtMs : Option Int
  endedAtMs : Option Int
  updatedAtMs : Int
  deriving DecidableEq, Repr

/-- A row after a state of its task was written to it. -/
def TaskRecord.saved (row record : TaskRecord) : TaskRecord :=
  { row with
    state := record.state
    supervision := record.supervision
    processId := record.processId
    processStart := record.processStart
    exitCode := record.exitCode
    exitSignal := record.exitSignal
    detail := record.detail
    stopReason := record.stopReason
    stopRequestedAtMs := record.stopRequestedAtMs
    ownerDeletedAtMs := record.ownerDeletedAtMs
    startedAtMs := record.startedAtMs
    endedAtMs := record.endedAtMs
    updatedAtMs := record.updatedAtMs }

/-- The session and, for a delegated run, the run that started a task. -/
structure Receipt where
  taskId : String
  ownerSessionId : String
  originRunId : Option String
  deriving DecidableEq, Repr

/-- The tables of the registry; every task has one row at most. -/
structure TaskStore where
  rows : List TaskRecord
  distinct : (rows.map (·.taskId)).Nodup
  receipts : List Receipt
  processes : List (String × Int × String)

namespace TaskStore

def empty : TaskStore := ⟨[], .nil, [], []⟩

variable (store : TaskStore)

def get (taskId : String) : Option TaskRecord := store.rows.find? (·.taskId == taskId)

/-- The rows of all tasks or of one owner's tasks, oldest first. -/
def list (ownerSessionId : Option String) : List TaskRecord :=
  (store.rows.filter fun row => ownerSessionId.all (row.ownerSessionId == ·)).insertionSort
    fun a b => toLex (a.createdAtMs, a.taskId) ≤ toLex (b.createdAtMs, b.taskId)

def listUnended : List TaskRecord := (store.list none).filter (!·.state.ended)

def receipt (taskId : String) : Option Receipt := store.receipts.find? (·.taskId == taskId)

def tracked (taskId : String) : List (Int × String) :=
  (store.processes.filter (·.1 == taskId)).map (·.2)

/-- The row of a task, where there is none. -/
def insert (record : TaskRecord) : Option TaskStore :=
  if h : record.taskId ∈ store.rows.map (·.taskId) then none
  else some { store with
    rows := store.rows ++ [record]
    distinct := by
      rw [List.map_append, List.nodup_append]
      refine ⟨store.distinct, List.nodup_singleton _, ?_⟩
      rintro _ ha _ hb rfl
      exact h ((List.mem_singleton.1 hb : _ = record.taskId) ▸ ha) }

theorem map_taskId_saved (record : TaskRecord) (rows : List TaskRecord) :
    (rows.map fun row => if row.taskId = record.taskId then row.saved record else row).map (·.taskId)
      = rows.map (·.taskId) := by
  rw [List.map_map]
  refine List.map_congr_left fun row _ => ?_
  show (if row.taskId = record.taskId then row.saved record else row).taskId = row.taskId
  split <;> rfl

/-- Writes what can change of a row, where there is one. -/
def update (record : TaskRecord) : Option TaskStore :=
  if (store.get record.taskId).isSome then
    some { store with
      rows := store.rows.map fun row =>
        if row.taskId = record.taskId then row.saved record else row
      distinct := by
        rw [map_taskId_saved]
        exact store.distinct }
  else none

/-- A receipt in the place of a row. -/
def remove (record : TaskRecord) : TaskStore where
  rows := store.rows.filter (·.taskId != record.taskId)
  distinct := store.distinct.sublist (List.filter_sublist.map _)
  receipts := if (store.receipt record.taskId).isSome then store.receipts
    else store.receipts ++ [⟨record.taskId, record.ownerSessionId, record.originRunId⟩]
  processes := store.processes.filter (·.1 != record.taskId)

/-- The processes that are remembered of a task, while it has a row. -/
def track (taskId : String) (tracked : List (Int × String)) : TaskStore :=
  { store with
    processes := store.processes.filter (·.1 != taskId) ++
      if (store.get taskId).isSome then tracked.map (taskId, ·) else [] }

/-! ## Reading back -/

variable {store} {store' : TaskStore} {record : TaskRecord} {taskId other : String}

theorem taskId_of_get (h : store.get taskId = some record) : record.taskId = taskId :=
  beq_iff_eq.1 (List.find?_some (p := fun row : TaskRecord => row.taskId == taskId) h)

theorem mem_of_get (h : store.get taskId = some record) : record ∈ store.rows :=
  List.mem_of_find?_eq_some h

theorem get_of_mem (h : record ∈ store.rows) : store.get record.taskId = some record := by
  cases hget : store.get record.taskId with
  | none => exact absurd (List.find?_eq_none.1 hget record h) (by simp)
  | some row =>
    have hid := taskId_of_get hget
    exact congrArg some (List.inj_on_of_nodup_map store.distinct (mem_of_get hget) h hid)

theorem get_eq_some_iff :
    store.get taskId = some record ↔ record ∈ store.rows ∧ record.taskId = taskId := by
  constructor
  · intro h
    exact ⟨mem_of_get h, taskId_of_get h⟩
  · rintro ⟨h, rfl⟩
    exact get_of_mem h

theorem get_eq_none_iff : store.get taskId = none ↔ taskId ∉ store.rows.map (·.taskId) := by
  rw [get, List.find?_eq_none, List.mem_map]
  simp

theorem get_insert (h : store.insert record = some store') :
    store'.get taskId = if taskId = record.taskId then some record else store.get taskId := by
  rw [insert] at h
  split at h
  · cases h
  · next hfresh =>
    cases h
    show (store.rows ++ [record]).find? (·.taskId == taskId) = _
    rw [List.find?_append, ← get]
    by_cases heq : taskId = record.taskId
    · subst heq
      rw [get_eq_none_iff.2 hfresh, if_pos rfl]
      simp
    · have hne : ¬ record.taskId = taskId := Ne.symm heq
      rw [if_neg heq]
      simp [hne]

theorem get_update (h : store.update record = some store') :
    store'.get taskId
      = if taskId = record.taskId then (store.get taskId).map (·.saved record)
        else store.get taskId := by
  rw [update] at h
  split at h
  · cases h
    have hid : ∀ row : TaskRecord,
        (if row.taskId = record.taskId then row.saved record else row).taskId = row.taskId := by
      intro row
      split <;> rfl
    show (store.rows.map fun row : TaskRecord =>
      if row.taskId = record.taskId then row.saved record else row).find? (·.taskId == taskId) = _
    rw [List.find?_map]
    simp only [Function.comp_def, hid]
    rw [← get]
    cases hget : store.get taskId with
    | none => simp
    | some row =>
      rw [Option.map_some, taskId_of_get hget, Option.map_some]
      split <;> rfl
  · cases h

theorem update_isSome_iff : (store.update record).isSome = (store.get record.taskId).isSome := by
  rw [update]
  split
  · next h => rw [h, Option.isSome_some]
  · next h => rw [Option.isSome_none, Bool.eq_false_of_not_eq_true h]

theorem get_remove :
    (store.remove record).get taskId
      = if taskId = record.taskId then none else store.get taskId := by
  show (store.rows.filter (·.taskId != record.taskId)).find? (·.taskId == taskId) = _
  rw [List.find?_filter]
  by_cases heq : taskId = record.taskId
  · rw [if_pos heq, List.find?_eq_none]
    intro row _ hrow
    obtain ⟨hne, hid⟩ := of_decide_eq_true hrow
    exact bne_iff_ne.1 hne ((beq_iff_eq.1 hid).trans heq)
  · rw [if_neg heq, get]
    refine congrArg (store.rows.find? ·) (funext fun row => ?_)
    by_cases hrow : row.taskId = taskId
    · simp [hrow, heq]
    · simp [hrow]

theorem receipt_remove :
    (store.remove record).receipt taskId
      = if taskId = record.taskId ∧ store.receipt taskId = none then
          some ⟨record.taskId, record.ownerSessionId, record.originRunId⟩
        else store.receipt taskId := by
  rw [receipt, remove]
  dsimp only
  by_cases hsome : (store.receipt record.taskId).isSome
  · rw [if_pos hsome, if_neg ?_, receipt]
    rintro ⟨rfl, hnone⟩
    rw [hnone] at hsome
    cases hsome
  · rw [if_neg hsome, List.find?_append, ← receipt]
    by_cases heq : taskId = record.taskId
    · subst heq
      rw [Option.not_isSome_iff_eq_none.1 hsome]
      simp
    · have hne : ¬ record.taskId = taskId := Ne.symm heq
      rw [if_neg fun h => heq h.1]
      simp [hne]

theorem tracked_remove :
    (store.remove record).tracked taskId
      = if taskId = record.taskId then [] else store.tracked taskId := by
  rw [tracked, remove]
  dsimp only
  rw [List.filter_filter]
  split
  · next heq => simp [heq]
  · next hne =>
    refine congrArg (List.map _) (List.filter_congr fun row _ => ?_)
    by_cases hrow : row.1 = taskId
    · simp [hrow, hne]
    · simp [hrow]

theorem tracked_track {tracked : List (Int × String)} :
    (store.track other tracked).tracked taskId
      = if taskId = other then if (store.get other).isSome then tracked else []
        else store.tracked taskId := by
  rw [TaskStore.tracked, track]
  dsimp only
  rw [List.filter_append, List.map_append, List.filter_filter]
  by_cases heq : taskId = other
  · subst heq
    rw [if_pos rfl]
    cases (store.get taskId).isSome <;> simp [List.filter_map, Function.comp_def]
  · have hne : ¬ other = taskId := Ne.symm heq
    rw [if_neg heq, TaskStore.tracked]
    have hkept : (store.processes.filter fun row => row.1 == taskId && row.1 != other)
        = store.processes.filter (·.1 == taskId) := by
      refine List.filter_congr fun row _ => ?_
      by_cases hrow : row.1 = taskId
      · simp [hrow, heq]
      · simp [hrow]
    rw [hkept]
    cases (store.get other).isSome <;> simp [List.filter_map, Function.comp_def, hne]

end TaskStore

end Nakode.BackgroundTasks
