import Mathlib

/-!
# The processes of a background task

A task is a process group whose leader the server started. Its processes are found in a listing of
all processes (`ProcessTable`) by the id of the group and the time that the leader started: the
members of the group, unless its id was given to another process since, and their descendants, also
those that left the group. A descendant that was seen once is remembered with the time it started,
so that it is found again when its parent is gone (`trackedTaskProcesses`).
-/

namespace Nakode.BackgroundTasks

structure ProcessEntry where
  pid : Int
  parent : Int
  group : Int
  zombie : Bool
  start : String
  deriving DecidableEq, Repr

/-- A listing of all processes, each under its id. -/
structure ProcessTable where
  entries : List ProcessEntry
  distinct : (entries.map (·.pid)).Nodup

/-- The descendants of a task that were seen so far, with the times they started. -/
abbrev Tracked := List (Int × String)

structure TaskProcesses where
  members : List Int
  descendants : List Int
  deriving DecidableEq, Repr

namespace TaskProcesses

def isEmpty (p : TaskProcesses) : Bool := p.members.isEmpty && p.descendants.isEmpty

def count (p : TaskProcesses) : Nat := p.members.length + p.descendants.length

def all (p : TaskProcesses) : List Int := p.members ++ p.descendants

end TaskProcesses

namespace ProcessTable

variable (t : ProcessTable)

def entry? (pid : Int) : Option ProcessEntry := t.entries.find? (·.pid == pid)

def startOf (pid : Int) : Option String := (t.entry? pid).map (·.start)

/-- A process with an id is alive and started at a time. -/
def isAlive (pid : Int) (start : String) : Bool :=
  (t.entry? pid).any fun entry => !entry.zombie && entry.start == start

/-- The loop that follows the links from parents on a stack to their children; it takes every
process off the stack once. -/
def follow : Nat → List Int → List Int → List Int → List Int
  | 0, _, _, descendants => descendants
  | _ + 1, [], _, descendants => descendants
  | fuel + 1, parent :: stack, seen, descendants =>
    let found := (t.entries.filter fun entry =>
      entry.parent == parent && !entry.zombie && !seen.contains entry.pid).map (·.pid)
    follow fuel (found.reverse ++ stack) (found ++ seen) (descendants ++ found)

/-- The processes of a task, and the descendants that are remembered from then on. -/
def trackedTaskProcesses (group : Int) (leaderStart : String) (tracked : Tracked) :
    TaskProcesses × Tracked :=
  let tracked := tracked.filter fun (pid, start) => t.isAlive pid start
  let reused := (t.entry? group).any (·.start != leaderStart)
  let members := (t.entries.filter fun entry =>
    !reused && entry.group == group && !entry.zombie).map (·.pid)
  let known := (tracked.filter fun (pid, start) =>
    !members.contains pid && t.isAlive pid start).map (·.1)
  let frontier := members ++ known
  let descendants :=
    t.follow (frontier.length + t.entries.length) frontier.reverse frontier known
  let tracked := descendants.foldl (fun tracked pid =>
    match t.startOf pid with
    | none => tracked
    | some start => (pid, start) :: tracked.filter (·.1 != pid)) tracked
  (⟨members.insertionSort (· ≤ ·), descendants.insertionSort (· ≤ ·)⟩, tracked)

def taskProcesses (group : Int) (leaderStart : String) : TaskProcesses :=
  (t.trackedTaskProcesses group leaderStart []).1

end ProcessTable

end Nakode.BackgroundTasks
