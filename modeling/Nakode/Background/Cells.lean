import Nakode.Background.Service
import Nakode.Lib.Parts

/-!
# What the service has of one task

The row or the receipt of a task, the processes that are remembered of it, the status of its leader
and whether it is being stopped are the cell of the task. A task belongs to one session, and one run
where a run started it (`Cell.Owned`). Every part of a stop and of a dismissal acts on the cell of
its task alone (`acts_stop`, `acts_dismiss`).
-/

namespace Nakode.BackgroundTasks

open Parts

structure Cell where
  row : Option TaskRecord
  receipt : Option Receipt
  tracked : Tracked
  exit : Option LeaderExit
  stopping : Bool

/-- The receipt that a record leaves when it is removed. -/
def TaskRecord.receipt (record : TaskRecord) : Receipt :=
  ⟨record.taskId, record.ownerSessionId, record.originRunId⟩

/-- A task has a row or a receipt, which name its session and run. -/
structure Cell.Owned (o : Receipt) (c : Cell) : Prop where
  row : ∀ record, c.row = some record → record.receipt = o
  receipt : ∀ receipt, c.receipt = some receipt → receipt = o
  apart : c.row = none ∨ c.receipt = none

namespace Service

def cell (s : Service) (taskId : String) : Cell where
  row := s.store.get taskId
  receipt := s.store.receipt taskId
  tracked := s.store.tracked taskId
  exit := s.leaderExit taskId
  stopping := s.stopping.contains taskId

variable {s : Service} {record : TaskRecord} {o : Receipt} {taskId other : String}

/-- A task has a row or a receipt, never both. -/
def Coherent (s : Service) : Prop :=
  ∀ taskId, s.store.get taskId = none ∨ s.store.receipt taskId = none

theorem Coherent.owned (h : s.Coherent) (hrow : s.store.get taskId = some record) :
    Cell.Owned record.receipt (s.cell taskId) := by
  have hnone : s.store.receipt taskId = none := (h taskId).resolve_left (by simp [hrow])
  refine ⟨fun row hcell => ?_, fun receipt hreceipt => ?_, h taskId⟩
  · rw [Option.some.inj (hrow.symm.trans hcell)]
  · cases hnone.symm.trans hreceipt

/-! ## The cells after a write -/

theorem lookup_filter_ne {α : Type} (l : List (String × α)) :
    (l.filter (·.1 != taskId)).lookup other = if other = taskId then none else l.lookup other := by
  induction l with
  | nil =>
    rw [List.filter_nil, List.lookup_nil, ite_self]
  | cons e l ih =>
    obtain ⟨id, a⟩ := e
    by_cases hid : id = taskId
    · subst hid
      rw [List.filter_cons_of_neg (by simp), ih, List.lookup_cons]
      by_cases hother : other = id
      · rw [if_pos hother, if_pos hother]
      · rw [if_neg hother, if_neg hother, beq_false_of_ne hother]
    · rw [List.filter_cons_of_pos (by simpa using hid), List.lookup_cons, List.lookup_cons, ih]
      by_cases hother : other = id
      · subst hother
        simp [hid]
      · rw [beq_false_of_ne hother]

theorem cell_remove (s : Service) (record : TaskRecord) (other : String) :
    (s.remove record).cell other
      = if other = record.taskId then
          { row := none
            receipt := some ((s.cell other).receipt.getD record.receipt)
            tracked := []
            exit := none
            stopping := (s.cell other).stopping }
        else s.cell other := by
  rw [cell, remove, leaderExit]
  dsimp only
  rw [TaskStore.get_remove, TaskStore.receipt_remove, TaskStore.tracked_remove, lookup_filter_ne]
  by_cases h : other = record.taskId
  · rw [if_pos h, if_pos h, if_pos h, if_pos h, cell]
    cases hreceipt : s.store.receipt other with
    | none => rw [if_pos ⟨h, rfl⟩]; rfl
    | some receipt => rw [if_neg (by simp)]; rfl
  · rw [if_neg h, if_neg h, if_neg h, if_neg h, if_neg fun hand => h hand.1]
    rfl

theorem cell_track (s : Service) (taskId : String) (tracked : Tracked) (other : String) :
    (s.track taskId tracked).cell other
      = if other = taskId then
          { s.cell other with tracked := if (s.cell other).row.isSome then tracked else [] }
        else s.cell other := by
  have htracked : (s.store.track taskId tracked).tracked other =
      if other = taskId then if (s.store.get taskId).isSome then tracked else []
      else s.store.tracked other := s.store.tracked_track
  rw [cell, track]
  dsimp only
  rw [htracked]
  by_cases h : other = taskId
  · subst h
    rw [if_pos rfl, if_pos rfl]
    rfl
  · rw [if_neg h, if_neg h]
    rfl

theorem save_fst (s : Service) (record : TaskRecord) :
    (s.save record).1 = if (s.cell record.taskId).row.isSome then .ok ()
      else .error (missingRow record.taskId) := by
  rw [save]
  have hsome : (s.store.update record).isSome = (s.store.get record.taskId).isSome :=
    s.store.update_isSome_iff
  cases hupdate : s.store.update record with
  | none =>
    rw [hupdate, Option.isSome_none] at hsome
    rw [if_neg (by rw [cell, ← hsome]; decide)]
  | some store =>
    rw [hupdate, Option.isSome_some] at hsome
    rw [if_pos (by rw [cell, ← hsome])]

theorem cell_save (s : Service) (record : TaskRecord) (other : String) :
    (s.save record).2.cell other
      = if other = record.taskId then
          { s.cell other with row := (s.cell other).row.map (·.saved record) }
        else s.cell other := by
  rw [save]
  have hsome : (s.store.update record).isSome = (s.store.get record.taskId).isSome :=
    s.store.update_isSome_iff
  cases hupdate : s.store.update record with
  | none =>
    rw [hupdate, Option.isSome_none] at hsome
    have hnone : s.store.get record.taskId = none :=
      Option.not_isSome_iff_eq_none.1 (by rw [← hsome]; decide)
    dsimp only
    split
    · next h =>
      subst h
      rw [cell, hnone]
      rfl
    · rfl
  | some store =>
    have hreceipts : store.receipts = s.store.receipts ∧ store.processes = s.store.processes := by
      rw [TaskStore.update] at hupdate
      split at hupdate
      · cases hupdate
        exact ⟨rfl, rfl⟩
      · cases hupdate
    dsimp only
    rw [cell, TaskStore.get_update hupdate, TaskStore.receipt, TaskStore.tracked, hreceipts.1,
      hreceipts.2]
    split
    · rfl
    · rfl

theorem cell_claim (s : Service) (taskId other : String) :
    (s.claim taskId).cell other
      = if other = taskId then { s.cell other with stopping := true } else s.cell other := by
  rw [cell, claim]
  dsimp only
  rw [List.contains_cons]
  by_cases h : other = taskId
  · rw [if_pos h, beq_iff_eq.2 h, Bool.true_or]
    rfl
  · rw [if_neg h, beq_false_of_ne h, Bool.false_or]
    rfl

theorem cell_unclaim (s : Service) (taskId other : String) :
    (s.unclaim taskId).cell other
      = if other = taskId then { s.cell other with stopping := false } else s.cell other := by
  have hcontains : (s.stopping.filter (· != taskId)).contains other
      = (s.stopping.contains other && other != taskId) := by
    rw [Bool.eq_iff_iff, Bool.and_eq_true, List.contains_iff_mem, List.contains_iff_mem,
      List.mem_filter]
  rw [cell, unclaim]
  dsimp only
  rw [hcontains]
  by_cases h : other = taskId
  · rw [if_pos h, h, bne_self_eq_false, Bool.and_false]
    rfl
  · rw [if_neg h, bne_iff_ne.2 h, Bool.and_true]
    rfl

/-! ## What acts on one cell -/

/-- An operation on the cell of a task that belongs to a session and a run. -/
def ActsOn {ρ : Type} (o : Receipt) (op : Service → ρ × Service) : Prop :=
  Acts cell o.taskId (Cell.Owned o) op

/-- An operation of which it is known what it makes of a cell. -/
theorem acts_write {ρ : Type} {f : Service → Service} (r : Cell → ρ) (g : Cell → Cell)
    (hf : ∀ s other, (f s).cell other
      = if other = o.taskId then g (s.cell other) else s.cell other)
    (hkeeps : ∀ c, Cell.Owned o c → Cell.Owned o (g c)) :
    ActsOn o fun s => (r (s.cell o.taskId), f s) :=
  Acts.write r g (fun s _ => (hf s _).trans (if_pos rfl)) hkeeps
    fun s j hj => (hf s j).trans (if_neg hj)

/-- An operation that first reads the cell. -/
theorem acts_read {ρ : Type} {op : Service → ρ × Service} (k : Cell → Service → ρ × Service)
    (hop : ∀ s, op s = k (s.cell o.taskId) s) (hk : ∀ c, Cell.Owned o c → ActsOn o (k c)) :
    ActsOn o op := by
  rw [show op = fun s => k (s.cell o.taskId) s from funext hop]
  exact Acts.read hk

/-- One operation after another. -/
theorem acts_seq {ρ τ : Type} {op : Service → ρ × Service} {op' : Service → τ × Service}
    (k : ρ → Service → τ × Service) (hop : ∀ s, op' s = k (op s).1 (op s).2) (h : ActsOn o op)
    (Q : ρ → Prop) (hresult : ∀ s, Cell.Owned o (s.cell o.taskId) → Q (op s).1)
    (hk : ∀ r, Q r → ActsOn o (k r)) : ActsOn o op' := by
  rw [show op' = fun s => k (op s).1 (op s).2 from funext hop]
  exact Acts.bind h Q hresult hk

/-- An operation that fails where a first one does. -/
theorem acts_bind {α β : Type} {op : Service → Except String α × Service}
    {op' : Service → Except String β × Service} (k : α → Service → Except String β × Service)
    (hop : ∀ s, op' s = match op s with
      | (.error error, s) => (.error error, s)
      | (.ok a, s) => k a s)
    (h : ActsOn o op) (Q : α → Prop)
    (hresult : ∀ s, Cell.Owned o (s.cell o.taskId) → ∀ a, (op s).1 = .ok a → Q a)
    (hk : ∀ a, Q a → ActsOn o (k a)) : ActsOn o op' := by
  refine acts_seq (fun r s => match r with
    | .error error => (.error error, s)
    | .ok a => k a s) (fun s => ?_) h (fun r => ∀ a, r = .ok a → Q a) hresult fun r hr => ?_
  · rw [hop]
    rcases op s with ⟨_ | _, _⟩ <;> rfl
  · cases r with
    | error error => exact Acts.pure _
    | ok a => exact hk a (hr a rfl)

theorem acts_remove {ρ : Type} (hmine : record.receipt = o) (r : ρ) :
    ActsOn o fun s => (r, s.remove record) := by
  subst hmine
  refine acts_write (fun _ => r) (fun c => ⟨none, some (c.receipt.getD record.receipt), [], none,
    c.stopping⟩) ?_ ?_
  · intro s other
    exact cell_remove s record other
  · intro c hc
    refine ⟨fun row hrow => absurd hrow (by simp), fun receipt hreceipt => ?_, .inl rfl⟩
    obtain rfl := Option.some.inj hreceipt
    cases hheld : c.receipt with
    | none => rfl
    | some held => exact hc.receipt held hheld

theorem acts_claim {ρ : Type} (o : Receipt) (r : ρ) : ActsOn o fun s => (r, s.claim o.taskId) :=
  acts_write (fun _ => r) (fun c => { c with stopping := true })
    (fun s other => cell_claim s _ other) fun _ hc => ⟨hc.row, hc.receipt, hc.apart⟩

theorem acts_unclaim {ρ : Type} (o : Receipt) (r : ρ) :
    ActsOn o fun s => (r, s.unclaim o.taskId) :=
  acts_write (fun _ => r) (fun c => { c with stopping := false })
    (fun s other => cell_unclaim s _ other) fun _ hc => ⟨hc.row, hc.receipt, hc.apart⟩

theorem acts_save (hmine : record.receipt = o) : ActsOn o fun s => s.save record := by
  subst hmine
  have hsave : (fun s : Service => s.save record) = fun s =>
      ((fun c : Cell => if c.row.isSome then .ok () else .error (missingRow record.taskId))
        (s.cell record.receipt.taskId), (s.save record).2) :=
    funext fun s => Prod.ext (save_fst s record) rfl
  rw [hsave]
  refine acts_write (r := fun c : Cell => if c.row.isSome then Except.ok ()
    else Except.error (missingRow record.taskId)) (fun c => { c with row := c.row.map (·.saved record) }) ?_ ?_
  · intro s other
    exact cell_save s record other
  · intro c hc
    refine ⟨fun saved hsaved => ?_, hc.receipt, hc.apart.imp_left fun h => by rw [h]; rfl⟩
    obtain ⟨row, hrow, rfl⟩ := Option.map_eq_some_iff.1 hsaved
    exact hc.row row hrow

/-- Remembers processes that depend on those that were remembered. -/
theorem acts_track {ρ : Type} (o : Receipt) (f : Tracked → ρ × Tracked) :
    ActsOn o fun s => ((f (s.store.tracked o.taskId)).1,
      s.track o.taskId (f (s.store.tracked o.taskId)).2) :=
  acts_write (f := fun s => s.track o.taskId (f (s.store.tracked o.taskId)).2)
    (fun c => (f c.tracked).1)
    (fun c => { c with tracked := if c.row.isSome then (f c.tracked).2 else [] })
    (fun s other => by
      rw [cell_track]
      split
      · next h =>
        subst h
        rfl
      · rfl)
    fun _ hc => ⟨hc.row, hc.receipt, hc.apart⟩

theorem acts_processes (hmine : record.receipt = o) (table : ProcessTable) :
    ActsOn o fun s => s.processes record table := by
  subst hmine
  unfold processes
  cases record.processId with
  | none =>
    dsimp only
    split
    · exact Acts.pure _
    · exact Acts.pure _
  | some group =>
    dsimp only
    split
    · exact Acts.pure _
    · next start _ =>
      exact acts_track record.receipt fun tracked =>
        (Except.ok (table.trackedTaskProcesses group start tracked).1,
          (table.trackedTaskProcesses group start tracked).2)

theorem acts_confirmGone (hmine : record.receipt = o) (listing : Listing) :
    ActsOn o fun s => s.confirmGone record listing := by
  cases listing with
  | error error => exact Acts.pure _
  | ok table =>
    refine acts_bind (fun processes s => if processes.isEmpty then (.ok (), s)
      else (.error "background task still has live processes", s)) (fun s => by
        rw [confirmGone]
        rcases s.processes record table with ⟨_ | _, _⟩ <;> rfl)
      (acts_processes hmine table) (fun _ => True) (fun _ _ _ _ => trivial) fun processes _ => ?_
    split
    · exact Acts.pure _
    · exact Acts.pure _

/-! ## Stops and dismissals -/

/-- The record that a stop goes on with. -/
def StopStart.Mine (o : Receipt) : StopStart → Prop
  | .settled _ => True
  | .begun record => record.receipt = o

/-- `stopBegin` of a task whose cell was read. -/
def stopBeginOf (taskId : String) (reason : StopReason) (now : Int) (c : Cell) (s : Service) :
    Except String StopStart × Service :=
  match c.row with
  | none => (.error (unknownTask taskId), s)
  | some record =>
    if record.state.ended || c.stopping then (.ok (.settled (view record)), s)
    else
      match s.save (record.claimed reason now) with
      | (.error error, s) => (.error error, s)
      | (.ok (), s) => (.ok (.begun (record.claimed reason now)), s.claim taskId)

theorem acts_stopBegin (o : Receipt) (reason : StopReason) (now : Int) :
    ActsOn o fun s => s.stopBegin o.taskId reason now := by
  refine acts_read (stopBeginOf o.taskId reason now) (fun _ => rfl) fun c hc => ?_
  unfold stopBeginOf
  cases hrow : c.row with
  | none => exact Acts.pure _
  | some record =>
    dsimp only
    split
    · exact Acts.pure _
    · have hmine : (record.claimed reason now).receipt = o := hc.row record hrow
      refine acts_bind (fun _ s => (.ok (.begun (record.claimed reason now)), s.claim o.taskId))
        (fun s => ?_) (acts_save hmine) (fun _ => True) (fun _ _ _ _ => trivial)
        fun _ _ => acts_claim o _
      rcases s.save (record.claimed reason now) with ⟨_ | _, _⟩ <;> rfl

theorem mine_stopBegin (o : Receipt) (reason : StopReason) (now : Int) (s : Service)
    (hs : Cell.Owned o (s.cell o.taskId)) :
    ∀ start, (s.stopBegin o.taskId reason now).1 = .ok start → start.Mine o := by
  intro start hstart
  rw [stopBegin] at hstart
  cases hrow : s.store.get o.taskId with
  | none =>
    rw [hrow] at hstart
    cases hstart
  | some record =>
    rw [hrow] at hstart
    dsimp only at hstart
    split at hstart
    · cases hstart
      trivial
    · split at hstart
      · cases hstart
      · cases hstart
        exact hs.row record hrow

theorem acts_signalRound (o : Receipt) (group : Int) (leaderStart : String) (tracked : Tracked)
    (listing : Listing) (polls : List Listing) :
    ActsOn o fun s => s.signalRound o.taskId group leaderStart tracked listing polls := by
  unfold signalRound
  cases listing with
  | error error => exact Acts.pure _
  | ok table =>
    dsimp only
    generalize table.trackedTaskProcesses group leaderStart tracked = seen
    split
    · exact acts_track o fun _ => (Round.gone, seen.2)
    · split
      · exact acts_track o fun _ => (Round.gone, seen.2)
      · next remaining _ => exact acts_track o fun _ => (Round.remaining remaining, seen.2)

theorem acts_finishStopped {τ : Type} (hmine : record.receipt = o) (now : Int)
    (f : TaskRecord → τ) : ActsOn o fun s => (f (s.finishStopped record now), s) := by
  subst hmine
  exact acts_read (fun c s => (f { record with
    state := .stopped
    exitCode := c.exit.bind (·.code)
    exitSignal := c.exit.bind (·.signal)
    detail := some "process tree terminated"
    endedAtMs := some now }, s)) (fun _ => rfl) fun _ _ => Acts.pure _

/-- A record of a stop stays that of its task. -/
theorem mine_signalRounds (hmine : record.receipt = o) (group : Int) (leaderStart : String)
    (now : Int) (rounds : List (Listing × List Listing)) (tracked : Tracked) (s : Service) :
    ∀ record', (signalRounds record group leaderStart now rounds tracked s).1 = .inl record' →
      record'.receipt = o := by
  induction rounds generalizing tracked s with
  | nil => exact fun _ h => by cases h
  | cons round rounds ih =>
    intro record' h
    obtain ⟨listing, polls⟩ := round
    rw [signalRounds] at h
    split at h
    · cases h
      exact hmine
    · cases h
      exact hmine
    · exact ih _ _ record' h

theorem acts_signalRounds (hmine : record.receipt = o) (group : Int) (leaderStart : String)
    (now : Int) (rounds : List (Listing × List Listing)) (tracked : Tracked) :
    ActsOn o fun s => signalRounds record group leaderStart now rounds tracked s := by
  subst hmine
  induction rounds generalizing tracked with
  | nil => exact Acts.pure _
  | cons round rounds ih =>
    obtain ⟨listing, polls⟩ := round
    refine acts_seq (fun r s => match r with
      | .failed error => (.inl (failCleanup record error), s)
      | .gone => (.inl (s.finishStopped record now), s)
      | .remaining tracked => signalRounds record group leaderStart now rounds tracked s)
      (fun s => ?_) (acts_signalRound record.receipt group leaderStart tracked listing polls)
      (fun _ => True) (fun _ _ => trivial) fun r _ => ?_
    · rw [signalRounds]
      generalize hround : s.signalRound record.taskId group leaderStart tracked listing polls
        = result
      rw [show s.signalRound record.receipt.taskId group leaderStart tracked listing polls = result
        from hround]
      rcases result with ⟨_ | _ | _, _⟩ <;> rfl
    · cases r with
      | failed error => exact Acts.pure _
      | gone => exact acts_finishStopped rfl now Sum.inl
      | remaining tracked => exact ih tracked

theorem mine_terminate (hmine : record.receipt = o) (inputs : Termination) (now : Int)
    (s : Service) : (s.terminate record inputs now).1.receipt = o := by
  rw [terminate]
  cases record.processId with
  | none => exact hmine
  | some group =>
    dsimp only
    split
    · next record' _ h =>
      exact mine_signalRounds hmine _ _ _ _ _ _ record' (congrArg Prod.fst h)
    · exact hmine

/-- The record that the signals lead to. -/
def signalled (record : TaskRecord) (group : Int) (inputs : Termination) :
    TaskRecord ⊕ Tracked → TaskRecord
  | .inl record => record
  | .inr tracked =>
    failCleanup record (survivorsDetail group (record.processStart.getD "") tracked inputs)

theorem terminate_eq {group : Int} (hprocess : record.processId = some group)
    (inputs : Termination) (now : Int) (s : Service) :
    s.terminate record inputs now =
      ((signalRounds record group (record.processStart.getD "") now
        [(inputs.term, inputs.termPolls), (inputs.kill, inputs.killPolls)]
        (s.store.tracked record.taskId) s).map (signalled record group inputs) id) := by
  rw [terminate, hprocess]
  dsimp only
  split
  · next heq => rw [heq]; rfl
  · next heq => rw [heq]; rfl

theorem acts_terminate (hmine : record.receipt = o) (inputs : Termination) (now : Int) :
    ActsOn o fun s => s.terminate record inputs now := by
  subst hmine
  cases hprocess : record.processId with
  | none =>
    unfold terminate
    rw [hprocess]
    exact Acts.pure _
  | some group =>
    refine acts_read (fun c s => (signalRounds record group (record.processStart.getD "") now
        [(inputs.term, inputs.termPolls), (inputs.kill, inputs.killPolls)] c.tracked s).map
        (signalled record group inputs) id) (terminate_eq hprocess inputs now) fun c _ => ?_
    exact acts_seq (fun r s => (signalled record group inputs r, s)) (fun _ => rfl)
      (acts_signalRounds rfl group (record.processStart.getD "") now
        [(inputs.term, inputs.termPolls), (inputs.kill, inputs.killPolls)] c.tracked)
      (fun _ => True) (fun _ _ => trivial) fun r _ => Acts.pure _

/-- The record that a stop settles: whether the owner is deleted is read of the row. -/
def refreshed (record : TaskRecord) : Option TaskRecord → TaskRecord
  | some current => { record with ownerDeletedAtMs := current.ownerDeletedAtMs }
  | none => record

theorem receipt_refreshed (record : TaskRecord) (row : Option TaskRecord) :
    (refreshed record row).receipt = record.receipt := by
  cases row <;> rfl

/-- The settlement of a stop. -/
def settleStop (record : TaskRecord) (now : Int) (s : Service) :
    Except String BackgroundTaskView × Service :=
  if record.state.ended then (.ok (view record), (s.remove record).unclaim record.taskId)
  else
    match s.save { record with updatedAtMs := now } with
    | (.error error, s) => (.error error, s.unclaim record.taskId)
    | (.ok (), s) => (.ok (view { record with updatedAtMs := now }), s.unclaim record.taskId)

/-- What a save was refused with, and the service that gives the task up. -/
def unclaimed (record : TaskRecord) (now : Int) (r : Except String Unit) (s : Service) :
    Except String BackgroundTaskView × Service :=
  (r.map fun () => view { record with updatedAtMs := now }, s.unclaim record.taskId)

theorem acts_stopFinish (hmine : record.receipt = o) (now : Int) :
    ActsOn o fun s => s.stopFinish record now := by
  subst hmine
  refine acts_read (fun c => settleStop (refreshed record c.row) now) (fun _ => rfl) fun c _ => ?_
  have hmine' := receipt_refreshed record c.row
  generalize refreshed record c.row = record' at hmine' ⊢
  rw [← hmine']
  unfold settleStop
  split
  · exact acts_seq (fun _ s => (.ok (view record'), s.unclaim record'.receipt.taskId))
      (fun _ => rfl) (acts_remove rfl ()) (fun _ => True) (fun _ _ => trivial)
      fun _ _ => acts_unclaim record'.receipt _
  · have hsaved : TaskRecord.receipt { record' with updatedAtMs := now } = record'.receipt := rfl
    refine acts_seq (unclaimed record' now) (fun s => ?_) (acts_save hsaved) (fun _ => True)
      (fun _ _ => trivial) fun r _ => acts_unclaim record'.receipt _
    rcases s.save { record' with updatedAtMs := now } with ⟨_ | _, _⟩ <;> rfl

/-- `stop` of a task that was claimed, or needs no stop. -/
def stopOn (inputs : Termination) (now : Int) (start : StopStart) (s : Service) :
    Except String BackgroundTaskView × Service :=
  match start with
  | .settled view => (.ok view, s)
  | .begun record =>
    let (record, s) := s.terminate record inputs now
    s.stopFinish record now

theorem acts_stop (o : Receipt) (reason : StopReason) (inputs : Termination) (now : Int) :
    ActsOn o fun s => s.stop o.taskId reason inputs now := by
  refine acts_bind (stopOn inputs now) (fun s => ?_) (acts_stopBegin o reason now)
    (StopStart.Mine o) (mine_stopBegin o reason now) fun start hmine => ?_
  · rw [stop]
    rcases s.stopBegin o.taskId reason now with ⟨_ | _ | _, _⟩ <;> rfl
  · cases start with
    | settled view => exact Acts.pure _
    | begun record =>
      exact acts_seq (fun record s => s.stopFinish record now) (fun _ => rfl)
        (acts_terminate hmine inputs now) (fun record => record.receipt = o)
        (fun s _ => mine_terminate hmine inputs now s) fun record hmine => acts_stopFinish hmine now

/-- `dismiss` of a task whose cell was read. -/
def dismissOf (scope : Option CallerScope) (taskId : String) (listing : Listing) (c : Cell)
    (s : Service) : Except String Unit × Service :=
  match c.row with
  | none =>
    match c.receipt with
    | some receipt =>
      if scope.all (·.mayAcknowledge receipt) then (.ok (), s)
      else (.error (unknownTask taskId), s)
    | none => (.error (unknownTask taskId), s)
  | some record =>
    if scope.any (!·.mayAccess record) then (.error (unknownTask taskId), s)
    else if !record.state.ended || c.stopping then
      (.error "background task is not a confirmed terminal failure", s)
    else
      match s.confirmGone record listing with
      | (.error error, s) => (.error error, s)
      | (.ok (), s) => (.ok (), s.remove record)

/-- A dismissal by a caller that may access the task, if it has a row, and may acknowledge it. -/
theorem acts_dismiss (o : Receipt) (scope : Option CallerScope) (listing : Listing) :
    ActsOn o fun s => s.dismiss scope o.taskId listing := by
  refine acts_read (dismissOf scope o.taskId listing) (fun _ => rfl) fun c hc => ?_
  unfold dismissOf
  cases hrow : c.row with
  | none =>
    cases c.receipt with
    | none => exact Acts.pure _
    | some receipt =>
      dsimp only
      split
      · exact Acts.pure _
      · exact Acts.pure _
  | some record =>
    dsimp only
    split
    · exact Acts.pure _
    · split
      · exact Acts.pure _
      · have hmine := hc.row record hrow
        refine acts_bind (fun _ s => (.ok (), s.remove record)) (fun s => ?_)
          (acts_confirmGone hmine listing) (fun _ => True) (fun _ _ _ _ => trivial)
          fun _ _ => acts_remove hmine _
        rcases s.confirmGone record listing with ⟨_ | _, _⟩ <;> rfl

end Service

end Nakode.BackgroundTasks
