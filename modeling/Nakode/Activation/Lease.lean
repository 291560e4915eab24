import Nakode.Lib.Trace

/-!
# The leases of an activation

Two files serialize the replacement of the workspace service: the lock of `ActivationLease` and the
lock of `HelperLease`. A task that acquires a lease creates the file if there is none and writes its
owner into it, and otherwise examines the owner it finds. A file of an owner that is not alive, and
for the helper's lease one of an owner that is not healthy, is read once more and unlinked if its
bytes are the same. Each read, creation, write and removal of the file is a step of its own here
(`step`), so that the tasks of all processes interleave between any two of them.
-/

namespace Nakode.Activation

open Transition

/-- The two leases, each with a path of its own. -/
inductive LeaseKind where
  | activation
  | helper
  deriving DecidableEq, Repr

/-- The bytes `"{pid}:{mark}\n"` of an owner. The mark is the time of the attempt in an activation
lease, and the instance in a helper's. -/
structure Owner where
  pid : Nat
  mark : String
  deriving DecidableEq, Repr

/-- The file at the path of a lease. Its owner is missing until it is written. Which task created
the file is not in its bytes: it tells apart the files that the path holds one after another. -/
structure LockFile where
  creator : Nat
  owner : Option Owner
  modified : Nat
  deriving DecidableEq, Repr

/-- The helper in the activation journal. -/
structure HelperIdentity where
  pid : Nat
  instanceId : String
  heartbeatAtUnixMs : Nat
  deriving DecidableEq, Repr

/-- What a task runs: one of the two `acquire`s, or `reclaim_unhealthy_helper_lock`. -/
inductive Job where
  | activation
  | helper (instanceId : String)
  | reclaim
  deriving DecidableEq, Repr

namespace Job

def lease : Job → LeaseKind
  | activation => .activation
  | helper _ => .helper
  | reclaim => .helper

/-- `ACTIVATION_LOCK_ATTEMPTS`, and the two rounds of the helper's loop. -/
def attempts : Job → Nat
  | activation => 120
  | helper _ => 2
  | reclaim => 0

/-- The owner that a task of a process writes, at a time. -/
def owner (pid now : Nat) : Job → Owner
  | helper instanceId => ⟨pid, instanceId⟩
  | _ => ⟨pid, toString now⟩

/-- The instance that a task draws for its lease. -/
def drawn : Job → List String
  | helper instanceId => [instanceId]
  | _ => []

end Job

/-- `ACTIVATION_LOCK_STALE_AFTER`, in milliseconds. -/
def activationLockStaleAfter : Nat := 30000

/-- `HELPER_START_GRACE`, in milliseconds. -/
def helperStartGrace : Nat := 5000

/-- `CHECK_CADENCE_MS` -/
def checkCadenceMs : Nat := 15000

/-- `HELPER_HEARTBEAT_STALE_MS` -/
def helperHeartbeatStaleMs : Nat := checkCadenceMs * 2 + 5000

/-- What a task does when it has found the helper's lease unhealthy. -/
inductive Verdict where
  /-- The first check of `reclaim_unhealthy_helper_lock`, which has not read the file yet. -/
  | observe
  /-- The check after the file was read, with the rounds that are left. -/
  | recheck (left : Nat) (observed : Option LockFile)
  deriving DecidableEq, Repr

/-- Where a task is. -/
inductive Phase where
  /-- At the head of the loop, with the rounds that are left. -/
  | trying (left : Nat)
  /-- The file is created, and the owner not written yet. -/
  | writing (owner : Owner)
  /-- `acquire` has returned the lease. -/
  | holding (owner : Owner)
  /-- The drop has read its own owner, and the file is not unlinked yet. -/
  | releasing (owner : Owner) (seen : LockFile)
  /-- `abandoned_activation_lock`, before its read. -/
  | examining (left : Nat)
  /-- `abandoned_activation_lock` on a file without an owner, before it reads the file's age. -/
  | aging (left : Nat) (seen : LockFile)
  /-- The helper's loop, before it reads the file that is in its way. -/
  | observing (left : Nat)
  /-- `reclaim_unhealthy_helper_lock` after its first check. -/
  | reclaiming
  /-- `helper_lease_is_healthy`, before it reads the owner. -/
  | identifying (next : Verdict)
  /-- `helper_lease_is_healthy` with an owner that is alive, before it reads the file's age. -/
  | dating (next : Verdict) (lock : LockFile)
  /-- `helper_lease_is_healthy` past the grace, before it asks for the socket and the heartbeat. -/
  | probing (next : Verdict) (lock : LockFile)
  /-- Before the second read of a file that may be removed. -/
  | rechecking (left : Nat) (seen : LockFile)
  /-- The second read has found the same bytes, and the file is not unlinked yet. -/
  | unlinking (left : Nat) (seen : LockFile)
  | finished
  deriving DecidableEq, Repr

/-- Where a task goes on from an unhealthy lease. -/
def Verdict.phase : Verdict → Phase
  | observe => .reclaiming
  | recheck left none => .trying left
  | recheck left (some seen) => .rechecking left seen

/-- Where a task begins: `acquire` at its loop, `reclaim_unhealthy_helper_lock` with its check. -/
def Job.entry : Job → Phase
  | reclaim => .identifying .observe
  | job => .trying job.attempts

/-- A task of a process. -/
structure Task where
  pid : Nat
  job : Job
  phase : Phase
  deriving DecidableEq, Repr

/-- The lease that a task works on. -/
def Task.lease (task : Task) : LeaseKind := task.job.lease

/-- The tasks of all processes, the processes that have died, the clock and the two files. Which
instances have been drawn, and which tasks hold a lock that a health check has rejected while its
process was alive, is only recorded. -/
structure Leases where
  now : Nat
  dead : List Nat
  file : LeaseKind → Option LockFile
  task : Nat → Option Task
  instances : List String
  condemned : List Nat

namespace Leases

def empty : Leases where
  now := 0
  dead := []
  file := fun _ => none
  task := fun _ => none
  instances := []
  condemned := []

/-- `activation_owner_is_alive`: the process number is one, and a signal reaches it. -/
def activationOwnerIsAlive (s : Leases) (pid : Nat) : Bool :=
  decide (pid < 2 ^ 31) && decide (pid ∉ s.dead)

/-- The time since a file was modified, unless the clock has been set back. -/
def age (s : Leases) (file : LockFile) : Option Nat :=
  if file.modified ≤ s.now then some (s.now - file.modified) else none

/-- `helper_heartbeat_is_recent` -/
def helperHeartbeatIsRecent (helper : HelperIdentity) (owner : Owner) (observedAtMs : Nat) : Bool :=
  helper.pid == owner.pid && helper.instanceId == owner.mark &&
    decide (observedAtMs - helper.heartbeatAtUnixMs ≤ helperHeartbeatStaleMs)

def setPhase (s : Leases) (t : Nat) (task : Task) (phase : Phase) : Leases :=
  { s with task := Function.update s.task t (some { task with phase := phase }) }

def setFile (s : Leases) (kind : LeaseKind) (file : Option LockFile) : Leases :=
  { s with file := Function.update s.file kind file }

@[simp] theorem setFile_self (s : Leases) (kind : LeaseKind) (file : Option LockFile) :
    (s.setFile kind file).file kind = file :=
  Function.update_self ..

theorem setFile_of_ne {kind kind' : LeaseKind} (h : kind' ≠ kind) (s : Leases)
    (file : Option LockFile) : (s.setFile kind file).file kind' = s.file kind' :=
  Function.update_of_ne h ..

/-- A task whose process is alive. -/
def alive (s : Leases) (t : Nat) : Option Task :=
  (s.task t).filter fun task => decide (task.pid ∉ s.dead)

/-- The next step of a task, where its own process and the file decide it. -/
def move (s : Leases) (t : Nat) (task : Task) : Option Leases :=
  match task.phase with
  | .trying 0 => some (s.setPhase t task .finished)
  | .trying (left + 1) =>
    match s.file task.lease with
    | none =>
      some ((s.setFile task.lease (some ⟨t, none, s.now⟩)).setPhase t task
        (.writing (task.job.owner task.pid s.now)))
    | some _ =>
      match task.lease with
      | .activation => some (s.setPhase t task (.examining left))
      | .helper => some (s.setPhase t task (.observing left))
  | .writing owner =>
    -- The file is written where it is, also when it has been unlinked from the path.
    match s.file task.lease with
    | some file =>
      if file.creator = t then
        some ((s.setFile task.lease (some ⟨t, some owner, s.now⟩)).setPhase t task
          (.holding owner))
      else some (s.setPhase t task (.holding owner))
    | none => some (s.setPhase t task (.holding owner))
  | .holding _ => none
  | .releasing _ _ => some ((s.setFile task.lease none).setPhase t task .finished)
  | .examining left =>
    match s.file task.lease with
    | none => some (s.setPhase t task (.trying left))
    | some file =>
      match file.owner with
      | none => some (s.setPhase t task (.aging left file))
      | some owner =>
        if s.activationOwnerIsAlive owner.pid then some (s.setPhase t task (.trying left))
        else some (s.setPhase t task (.rechecking left file))
  | .aging left seen =>
    if ((s.file task.lease).bind s.age).any (activationLockStaleAfter ≤ ·) then
      some (s.setPhase t task (.rechecking left seen))
    else some (s.setPhase t task (.trying left))
  | .observing left =>
    some (s.setPhase t task (.identifying (.recheck left (s.file task.lease))))
  | .reclaiming =>
    match s.file task.lease with
    | none => some (s.setPhase t task .finished)
    | some file => some (s.setPhase t task (.identifying (.recheck 0 (some file))))
  | .identifying next =>
    match s.file task.lease with
    | none => some (s.setPhase t task next.phase)
    | some file =>
      if file.owner.any fun owner => s.activationOwnerIsAlive owner.pid then
        some (s.setPhase t task (.dating next file))
      else some (s.setPhase t task next.phase)
  | .dating next lock =>
    if ((s.file task.lease).bind s.age).any (· ≤ helperStartGrace) then
      some (s.setPhase t task .finished)
    else some (s.setPhase t task (.probing next lock))
  | .probing _ _ => none
  | .rechecking left seen =>
    match s.file task.lease with
    | none => some (s.setPhase t task (.trying left))
    | some file =>
      if file.owner = seen.owner then some (s.setPhase t task (.unlinking left file))
      else some (s.setPhase t task (.trying left))
  | .unlinking left _ => some ((s.setFile task.lease none).setPhase t task (.trying left))
  | .finished => none

/-- The end of a health check: the answers of the socket and of the journal. -/
def probe (s : Leases) (t : Nat) (task : Task) (socketReachable : Bool)
    (heartbeat : Option HelperIdentity) : Option Leases :=
  match task.phase with
  | .probing next lock =>
    if socketReachable && lock.owner.any fun owner =>
        heartbeat.any (helperHeartbeatIsRecent · owner s.now) then
      some (s.setPhase t task .finished)
    else
      some ({ s with condemned := lock.creator :: s.condemned }.setPhase t task next.phase)
  | _ => none

/-- The drop of a lease, up to its read. -/
def drop (s : Leases) (t : Nat) (task : Task) : Option Leases :=
  match task.phase with
  | .holding owner =>
    match s.file task.lease with
    | none => some (s.setPhase t task .finished)
    | some file =>
      if file.owner = some owner then some (s.setPhase t task (.releasing owner file))
      else some (s.setPhase t task .finished)
  | _ => none

/-- The write of the owner fails, and with it `acquire`. -/
def failWrite (s : Leases) (t : Nat) (task : Task) : Option Leases :=
  match task.phase with
  | .writing _ => some (s.setPhase t task .finished)
  | _ => none

/-- What happens to the leases. -/
inductive Act where
  /-- A new task of a process begins its work. -/
  | start (t pid : Nat) (job : Job)
  | move (t : Nat)
  | probe (t : Nat) (socketReachable : Bool) (heartbeat : Option HelperIdentity)
  | drop (t : Nat)
  | failWrite (t : Nat)
  | die (pid : Nat)
  | clock (now : Nat)
  deriving DecidableEq, Repr

/-- A step of the leases. A process that has died takes none, and its number is not used again. -/
def step (s : Leases) : Act → Option Leases
  | .start t pid job =>
    if (s.task t).isNone && decide (0 < pid) && s.activationOwnerIsAlive pid then
      some { s with
        task := Function.update s.task t (some ⟨pid, job, job.entry⟩)
        instances := job.drawn ++ s.instances }
    else none
  | .die pid => some { s with dead := pid :: s.dead }
  | .clock now => some { s with now := now }
  | .move t => s.alive t >>= s.move t
  | .probe t socketReachable heartbeat =>
    s.alive t >>= fun task => s.probe t task socketReachable heartbeat
  | .drop t => s.alive t >>= s.drop t
  | .failWrite t => s.alive t >>= s.failWrite t

/-- The leases as a transition system. -/
def leases : System Leases Act := System.ofStep step

end Leases

end Nakode.Activation
