import Nakode.Agent.Tools
import Nakode.Lib.First
import Nakode.Lib.Trace

/-!
# The todo list of a session

A todo list has phases of tasks, which are named by their contents. An operation checks its
arguments and changes the list; one that ends or removes a task starts the next pending one
(`promoteNextTask`). Contents and phase names stay distinct, because what an operation adds is
validated, but `append` adds first and validates then: an append that is refused for a duplicate
leaves it in the list. In every run without such an append the list is clean, and a refused
operation changes nothing (`todo_faithful`).
-/

namespace Nakode.Tools

open Text (Json trim)
open Agent (field? asStr?)
open Transition

inductive TodoStatus
  | pending
  | inProgress
  | completed
  | abandoned
  deriving DecidableEq, Repr

structure TodoItem where
  content : String
  status : TodoStatus
  deriving DecidableEq, Repr

structure TodoPhase where
  name : String
  tasks : List TodoItem
  deriving DecidableEq, Repr

/-- All tasks of a list, phase by phase. -/
def allTasks (phases : List TodoPhase) : List TodoItem := phases.flatMap (·.tasks)

/-! ## Arguments -/

def asArray? : Json → Option (List Json)
  | .arr items => some items
  | _ => none

/-- `required_string` -/
def requiredText (arguments : Json) (name : String) : Except String String :=
  match ((field? arguments name).bind asStr?).filter (!·.isEmpty) with
  | some value => .ok value
  | none => .error ("missing non-empty string argument " ++ name)

def taskFromValue (item : Json) : Except String TodoItem :=
  match ((asStr? item).map trim).filter (!·.isEmpty) with
  | some content => .ok ⟨content, .pending⟩
  | none => .error "todo items must be non-empty strings"

def tasksFromValue (value : Json) (field : String) : Except String (List TodoItem) :=
  match ((field? value field).bind asArray?).filter (!·.isEmpty) with
  | some items => items.mapM taskFromValue
  | none => .error ("todo requires a non-empty " ++ field ++ " array")

def phaseFromValue (value : Json) (field : String) : Except String TodoPhase := do
  let name ← requiredText value field
  let tasks ← tasksFromValue value "items"
  .ok ⟨trim name, tasks⟩

/-! ## Validation -/

/-- The contents that were seen after those of some tasks. -/
def validateTasks : List TodoItem → List String → Except String (List String)
  | [], seen => .ok seen
  | task :: tasks, seen =>
    if seen.contains task.content then .error ("duplicate todo task: " ++ task.content)
    else validateTasks tasks (task.content :: seen)

def validatePhases : List TodoPhase → List String → List String → Except String Unit
  | [], _, _ => .ok ()
  | phase :: phases, names, contents =>
    if names.contains phase.name then .error ("duplicate todo phase: " ++ phase.name)
    else
      match validateTasks phase.tasks contents with
      | .error error => .error error
      | .ok contents => validatePhases phases (phase.name :: names) contents

def validateUnique (phases : List TodoPhase) : Except String Unit := validatePhases phases [] []

/-! ## Operations -/

def missingTaskMessage (phases : List TodoPhase) (requested : String) : String :=
  let available := (allTasks phases).map fun task => "- " ++ task.content
  if available.isEmpty then "todo task not found: " ++ requested ++ "; the todo list is empty"
  else "todo task not found: " ++ requested ++ "\nUse one of these exact task values:\n"
    ++ String.intercalate "\n" available

/-- The first task that is changed, in its phase. -/
def updateTask (f : TodoItem → Option (List TodoItem)) (phases : List TodoPhase) :
    Option (List TodoPhase) :=
  First.update (fun phase => (First.update f phase.tasks).map fun tasks => [{ phase with tasks }])
    phases

/-- The first phase of a name, changed. -/
def updatePhase (name : String) (f : TodoPhase → TodoPhase) (phases : List TodoPhase) :
    Option (List TodoPhase) :=
  First.update (fun phase => if phase.name = name then some [f phase] else none) phases

/-- A task of a content, with another status. -/
def withStatus (content : String) (status : TodoStatus) (task : TodoItem) :
    Option (List TodoItem) :=
  if task.content = content then some [{ task with status }] else none

def setTaskStatus (phases : List TodoPhase) (content : String) (status : TodoStatus) :
    Except String Unit × List TodoPhase :=
  match updateTask (withStatus content status) phases with
  | some phases => (.ok (), phases)
  | none => (.error (missingTaskMessage phases content), phases)

def setTargetStatus (phases : List TodoPhase) (arguments : Json) (status : TodoStatus) :
    Except String Unit × List TodoPhase :=
  match (field? arguments "task").bind asStr? with
  | some task => setTaskStatus phases task status
  | none =>
    match requiredText arguments "phase" with
    | .error error => (.error error, phases)
    | .ok name =>
      let change := fun phase : TodoPhase =>
        { phase with tasks := phase.tasks.map fun task => { task with status } }
      match updatePhase name change phases with
      | some phases => (.ok (), phases)
      | none => (.error ("todo phase not found: " ++ name), phases)

def initialization (arguments : Json) : Except String (List TodoPhase) :=
  match (field? arguments "list").bind asArray? with
  | some list =>
    if list.isEmpty then .error "todo init list must not be empty"
    else list.mapM (phaseFromValue · "phase")
  | none => (tasksFromValue arguments "items").map fun tasks => [⟨"Todos", tasks⟩]

def initializeList (phases : List TodoPhase) (arguments : Json) :
    Except String Unit × List TodoPhase :=
  match initialization arguments with
  | .error error => (.error error, phases)
  | .ok replacement =>
    match validateUnique replacement with
    | .error error => (.error error, phases)
    | .ok () => (.ok (), replacement)

/-- The list with tasks at the end of a phase. -/
def appended (phases : List TodoPhase) (name : String) (additions : List TodoItem) :
    List TodoPhase :=
  let change := fun phase : TodoPhase => { phase with tasks := phase.tasks ++ additions }
  (updatePhase name change phases).getD (phases ++ [⟨name, additions⟩])

def append (phases : List TodoPhase) (arguments : Json) : Except String Unit × List TodoPhase :=
  match requiredText arguments "phase" with
  | .error error => (.error error, phases)
  | .ok name =>
    match tasksFromValue arguments "items" with
    | .error error => (.error error, phases)
    | .ok additions =>
      -- The list has changed when it is validated.
      let phases := appended phases name additions
      (validateUnique phases, phases)

def removed (content : String) (task : TodoItem) : Option (List TodoItem) :=
  if task.content = content then some [] else none

def removeTarget (phases : List TodoPhase) (arguments : Json) :
    Except String Unit × List TodoPhase :=
  match (field? arguments "task").bind asStr? with
  | some content =>
    match updateTask (removed content) phases with
    | some phases => (.ok (), phases.filter (!·.tasks.isEmpty))
    | none => (.error (missingTaskMessage phases content), phases)
  | none =>
    match (field? arguments "phase").bind asStr? with
    | some name =>
      let kept := phases.filter (·.name != name)
      (if kept.length < phases.length then .ok () else .error ("todo phase not found: " ++ name),
        kept)
    | none => (.ok (), [])

def started (task : TodoItem) : Option (List TodoItem) :=
  if task.status = .pending then some [{ task with status := .inProgress }] else none

/-- Starts the first pending task where none is in progress. -/
def promoteNextTask (phases : List TodoPhase) : List TodoPhase :=
  if (allTasks phases).any (·.status == .inProgress) then phases
  else (updateTask started phases).getD phases

def marker : TodoStatus → String
  | .pending => "[ ]"
  | .inProgress => "[~]"
  | .completed => "[x]"
  | .abandoned => "[-]"

def renderPhases (phases : List TodoPhase) : String :=
  if phases.isEmpty then "todo list is empty"
  else String.intercalate "\n" (phases.zipIdx.flatMap fun (phase, index) =>
    (toString (index + 1) ++ ". " ++ phase.name)
      :: phase.tasks.map fun task => "  " ++ marker task.status ++ " " ++ task.content)

/-- The change of an operation. -/
def change (phases : List TodoPhase) (arguments : Json) (op : String) :
    Except String Unit × List TodoPhase :=
  match op with
  | "view" => (.ok (), phases)
  | "init" => initializeList phases arguments
  | "append" => append phases arguments
  | "start" =>
    match requiredText arguments "task" with
    | .error error => (.error error, phases)
    | .ok task => setTaskStatus phases task .inProgress
  | "done" => setTargetStatus phases arguments .completed
  | "drop" => setTargetStatus phases arguments .abandoned
  | "rm" => removeTarget phases arguments
  | operation => (.error ("unsupported todo operation " ++ operation), phases)

/-- What an operation answers, and the list after it. -/
def applyOperation (phases : List TodoPhase) (arguments : Json) :
    Except String String × List TodoPhase :=
  match requiredText arguments "op" with
  | .error error => (.error error, phases)
  | .ok op =>
    match change phases arguments op with
    | (.error error, phases) => (.error error, phases)
    | (.ok (), phases) =>
      let phases := if op = "view" ∨ op = "start" then phases else promoteNextTask phases
      (.ok (renderPhases phases), phases)

/-- Todo lists under operations. -/
def todo : System (List TodoPhase) Json where
  next phases arguments phases' := (applyOperation phases arguments).2 = phases'

/-! ## What is promised -/

/-- Names and contents are distinct, and no phase is empty. -/
structure Clean (phases : List TodoPhase) : Prop where
  names : (phases.map (·.name)).Nodup
  contents : ((allTasks phases).map (·.content)).Nodup
  tasks : ∀ phase ∈ phases, phase.tasks ≠ []

/-- The phases and tasks of a list, without their statuses. -/
def shape (phases : List TodoPhase) : List (String × List String) :=
  phases.map fun phase => (phase.name, phase.tasks.map (·.content))

/-- A pending task was started and is the only one in progress. -/
structure Promoted (phases result : List TodoPhase) (task : TodoItem) : Prop where
  status : task.status = .inProgress
  pending : ⟨task.content, .pending⟩ ∈ allTasks phases
  only : ∀ other ∈ allTasks result, other.status = .inProgress → other = task

/-- The status of one task was changed, and one task may have been started. -/
structure OnlyTask (content : String) (status : TodoStatus) (phases result : List TodoPhase) :
    Prop where
  shape : shape result = shape phases
  target : ∀ task ∈ allTasks result, task.content = content → task.status = status
  others : ∀ task ∈ allTasks result, task.content ≠ content →
    task ∈ allTasks phases ∨ Promoted phases result task

/-- An operation sets the status of one task. -/
def SetsTask (arguments : Json) (content : String) (status : TodoStatus) : Prop :=
  (requiredText arguments "op" = .ok "start" ∧ requiredText arguments "task" = .ok content ∧
      status = .inProgress) ∨
    (field? arguments "task").bind asStr? = some content ∧
      (requiredText arguments "op" = .ok "done" ∧ status = .completed ∨
        requiredText arguments "op" = .ok "drop" ∧ status = .abandoned)

/-- What an operation does to a list. -/
structure OperationHolds (phases : List TodoPhase) (arguments : Json) : Prop where
  refused : ∀ error, (applyOperation phases arguments).1 = .error error →
    (applyOperation phases arguments).2 = phases
  promoted : ∀ output, (applyOperation phases arguments).1 = .ok output →
    requiredText arguments "op" ≠ .ok "view" → requiredText arguments "op" ≠ .ok "start" →
    (∃ task ∈ allTasks (applyOperation phases arguments).2, task.status = .pending) →
    ∃ task ∈ allTasks (applyOperation phases arguments).2, task.status = .inProgress
  only : ∀ output content status, (applyOperation phases arguments).1 = .ok output →
    SetsTask arguments content status →
    OnlyTask content status phases (applyOperation phases arguments).2

/-- An append that is well formed adds a task a second time. -/
def AppendsDuplicate (phases : List TodoPhase) (arguments : Json) : Prop :=
  requiredText arguments "op" = .ok "append" ∧
    ∃ name additions, requiredText arguments "phase" = .ok name ∧
      tasksFromValue arguments "items" = .ok additions ∧
      ¬((allTasks phases ++ additions).map (·.content)).Nodup

/-- Runs without such an append. -/
def orderlyTodo : System (List TodoPhase) Json :=
  todo.restrict fun phases arguments => ¬AppendsDuplicate phases arguments

end Nakode.Tools
