import Nakode.Background.Service

/-!
# The calls of a caller

A caller lists its tasks, inspects, stops and dismisses one of them. Of what is outside of the
registry, a call reads the processes of the task that it names, the log of the task and what is at
its endpoints: inputs that are the same in these are the same to the call (`call_congr`).
-/

namespace Nakode.BackgroundTasks

inductive Call
  | list
  | inspect (taskId : String) (logTailBytes : Nat)
  | stop (taskId : String)
  | stopAck (taskId : String)
  | dismiss (taskId : String)

/-- What a call finds outside of the registry. -/
structure Inputs where
  around : Surroundings
  termination : Termination
  listing : Listing

inductive Answer
  | tasks (views : List BackgroundTaskView)
  | detail (detail : BackgroundTaskDetail)
  | task (view : BackgroundTaskView)
  | done
  deriving DecidableEq, Repr

namespace Call

/-- The task that a call names. -/
def taskId? : Call → Option String
  | .list => none
  | .inspect taskId _ => some taskId
  | .stop taskId => some taskId
  | .stopAck taskId => some taskId
  | .dismiss taskId => some taskId

/-- The call may acknowledge a task by its receipt. -/
def acknowledges : Call → Bool
  | .stopAck _ | .dismiss _ => true
  | .list | .inspect _ _ | .stop _ => false

theorem eq_list {c : Call} (h : c.taskId? = none) : c = .list := by
  cases c with
  | list => rfl
  | inspect | stop | stopAck | dismiss => cases h

end Call

def Service.call (s : Service) (scope : CallerScope) (inputs : Inputs) :
    Call → Except String Answer × Service
  | .list => (.ok (.tasks (s.listFor scope)), s)
  | .inspect taskId logTailBytes =>
    ((s.inspectFor scope taskId logTailBytes inputs.around).map .detail, s)
  | .stop taskId =>
    let (result, s) := s.stopFor scope taskId inputs.termination inputs.around.now
    (result.map .task, s)
  | .stopAck taskId =>
    let (result, s) := s.stopAck (some scope) taskId inputs.termination inputs.around.now
      inputs.listing
    (result.map fun _ => .done, s)
  | .dismiss taskId =>
    let (result, s) := s.dismiss (some scope) taskId inputs.listing
    (result.map fun _ => .done, s)

/-! ## Inputs that are the same to a task -/

/-- Two listings show the same processes of a task. -/
def SameProcesses (record : TaskRecord) : Listing → Listing → Prop
  | .ok table, .ok table' => ∀ group, record.processId = some group → ∀ tracked,
      table.trackedTaskProcesses group (record.processStart.getD "") tracked
        = table'.trackedTaskProcesses group (record.processStart.getD "") tracked
  | .error error, .error error' => error = error'
  | .ok _, .error _ | .error _, .ok _ => False

structure Termination.Same (record : TaskRecord) (inputs inputs' : Termination) : Prop where
  term : SameProcesses record inputs.term inputs'.term
  termFailures : inputs.termFailures = inputs'.termFailures
  termPolls : List.Forall₂ (SameProcesses record) inputs.termPolls inputs'.termPolls
  kill : SameProcesses record inputs.kill inputs'.kill
  killFailures : inputs.killFailures = inputs'.killFailures
  killPolls : List.Forall₂ (SameProcesses record) inputs.killPolls inputs'.killPolls
  last : SameProcesses record inputs.last inputs'.last

structure Inputs.Same (record : TaskRecord) (inputs inputs' : Inputs) : Prop where
  now : inputs.around.now = inputs'.around.now
  logTail : inputs.around.logTail record.logPath = inputs'.around.logTail record.logPath
  probe : ∀ endpoint ∈ record.endpoints,
    inputs.around.probe endpoint = inputs'.around.probe endpoint
  termination : inputs.termination.Same record inputs'.termination
  listing : SameProcesses record inputs.listing inputs'.listing

/-- Inputs that are the same to every task that a caller may access. -/
def Inputs.Agree (scope : CallerScope) (s : Service) (inputs inputs' : Inputs) : Prop :=
  ∀ taskId record, s.store.get taskId = some record → scope.mayAccess record = true →
    inputs.Same record inputs'

theorem SameProcesses.cases {record : TaskRecord} {listing listing' : Listing}
    (h : SameProcesses record listing listing') :
    (∃ error, listing = .error error ∧ listing' = .error error) ∨
      ∃ table table', listing = .ok table ∧ listing' = .ok table' ∧
        ∀ group, record.processId = some group → ∀ tracked,
          table.trackedTaskProcesses group (record.processStart.getD "") tracked
            = table'.trackedTaskProcesses group (record.processStart.getD "") tracked := by
  cases listing with
  | error error =>
    cases listing' with
    | error error' => exact .inl ⟨error, rfl, congrArg _ (Eq.symm h)⟩
    | ok => exact absurd h (by simp [SameProcesses])
  | ok table =>
    cases listing' with
    | error => exact absurd h (by simp [SameProcesses])
    | ok table' => exact .inr ⟨table, table', rfl, rfl, h⟩

theorem detail_congr {record : TaskRecord} {inputs inputs' : Inputs}
    (h : inputs.Same record inputs') (logTailBytes : Nat) :
    BackgroundTasks.detail record logTailBytes inputs.around
      = BackgroundTasks.detail record logTailBytes inputs'.around := by
  have hprobes : (record.endpoints.map fun endpoint =>
        (endpoint, if record.state == .running then inputs.around.probe endpoint else "unknown"))
      = record.endpoints.map fun endpoint =>
        (endpoint, if record.state == .running then inputs'.around.probe endpoint else "unknown") :=
    List.map_congr_left fun endpoint hmem => by rw [h.probe endpoint hmem]
  rw [BackgroundTasks.detail, BackgroundTasks.detail, h.logTail, h.now, hprobes]

namespace Service

variable {s : Service} {record : TaskRecord} {taskId : String} {scope : CallerScope}
  {listing listing' : Listing} {group : Int}

theorem confirmGone_congr (h : SameProcesses record listing listing') :
    s.confirmGone record listing = s.confirmGone record listing' := by
  obtain ⟨error, rfl, rfl⟩ | ⟨table, table', rfl, rfl, hsame⟩ := h.cases
  · rfl
  · have hprocesses : s.processes record table = s.processes record table' := by
      rw [processes, processes]
      cases hid : record.processId with
      | none => rfl
      | some group =>
        have hgroup := hsame group hid
        cases hstart : record.processStart with
        | none => rfl
        | some start =>
          rw [hstart, Option.getD_some] at hgroup
          dsimp only
          rw [Option.filter_some]
          split
          · rfl
          · next _ hfilter =>
            split at hfilter
            · cases hfilter
              rw [hgroup]
            · cases hfilter
    rw [confirmGone, confirmGone, hprocesses]

theorem waitUntilGone_congr (hid : record.processId = some group) {polls polls' : List Listing}
    (h : List.Forall₂ (SameProcesses record) polls polls') (tracked : Tracked) :
    waitUntilGone group (record.processStart.getD "") tracked polls
      = waitUntilGone group (record.processStart.getD "") tracked polls' := by
  induction h generalizing tracked with
  | nil => rfl
  | cons hpoll _ ih =>
    obtain ⟨error, rfl, rfl⟩ | ⟨table, table', rfl, rfl, hsame⟩ := hpoll.cases
    · exact ih tracked
    · rw [waitUntilGone, waitUntilGone, hsame group hid]
      dsimp only
      split
      · rfl
      · exact ih _

theorem signalRound_congr (hid : record.processId = some group) {polls polls' : List Listing}
    (h : SameProcesses record listing listing')
    (hpolls : List.Forall₂ (SameProcesses record) polls polls') (tracked : Tracked) :
    s.signalRound taskId group (record.processStart.getD "") tracked listing polls
      = s.signalRound taskId group (record.processStart.getD "") tracked listing' polls' := by
  obtain ⟨error, rfl, rfl⟩ | ⟨table, table', rfl, rfl, hsame⟩ := h.cases
  · rfl
  · rw [signalRound, signalRound, hsame group hid]
    dsimp only
    rw [waitUntilGone_congr hid hpolls]

theorem survivorsDetail_congr (hid : record.processId = some group) {inputs inputs' : Termination}
    (h : inputs.Same record inputs') (tracked : Tracked) :
    survivorsDetail group (record.processStart.getD "") tracked inputs
      = survivorsDetail group (record.processStart.getD "") tracked inputs' := by
  unfold survivorsDetail
  obtain ⟨error, hlast, hlast'⟩ | ⟨table, table', hlast, hlast', hsame⟩ := h.last.cases
  · simp only [hlast, hlast', h.termFailures, h.killFailures]
  · simp only [hlast, hlast', h.termFailures, h.killFailures, hsame group hid]

theorem terminate_congr {inputs inputs' : Termination} (h : inputs.Same record inputs')
    (now : Int) : s.terminate record inputs now = s.terminate record inputs' now := by
  rw [terminate, terminate]
  cases hid : record.processId with
  | none => rfl
  | some group =>
    have hrounds : ∀ tracked, signalRounds record group (record.processStart.getD "") now
          [(inputs.term, inputs.termPolls), (inputs.kill, inputs.killPolls)] tracked s
        = signalRounds record group (record.processStart.getD "") now
          [(inputs'.term, inputs'.termPolls), (inputs'.kill, inputs'.killPolls)] tracked s := by
      intro tracked
      rw [signalRounds, signalRounds, signalRound_congr hid h.term h.termPolls]
      rcases s.signalRound record.taskId group (record.processStart.getD "") tracked inputs'.term
        inputs'.termPolls with ⟨_ | _ | remaining, t⟩
      · rfl
      · rfl
      · show signalRounds record group (record.processStart.getD "") now
            [(inputs.kill, inputs.killPolls)] remaining t
          = signalRounds record group (record.processStart.getD "") now
            [(inputs'.kill, inputs'.killPolls)] remaining t
        rw [signalRounds, signalRounds, signalRound_congr hid h.kill h.killPolls]
    dsimp only
    rw [hrounds]
    generalize signalRounds record group (record.processStart.getD "") now
      [(inputs'.term, inputs'.termPolls), (inputs'.kill, inputs'.killPolls)]
      (s.store.tracked record.taskId) s = result
    rcases result with ⟨_ | tracked, t⟩
    · rfl
    · exact congrArg (fun detail => (failCleanup record detail, t)) (survivorsDetail_congr hid h tracked)

/-- The record that a stop goes on with is the row as it was claimed. -/
theorem stopBegin_begun {reason : StopReason} {now : Int} {claimed : TaskRecord}
    (h : (s.stopBegin taskId reason now).1 = .ok (.begun claimed)) :
    ∃ record, s.store.get taskId = some record ∧ claimed = record.claimed reason now := by
  rw [stopBegin] at h
  cases hrow : s.store.get taskId with
  | none =>
    rw [hrow] at h
    cases h
  | some record =>
    rw [hrow] at h
    dsimp only at h
    split at h
    · cases h
    · split at h
      · cases h
      · cases h
        exact ⟨record, rfl, rfl⟩

theorem stop_congr {inputs inputs' : Termination} {reason : StopReason} {now : Int}
    (h : ∀ record, s.store.get taskId = some record → inputs.Same record inputs') :
    s.stop taskId reason inputs now = s.stop taskId reason inputs' now := by
  rw [stop, stop]
  rcases hbegin : s.stopBegin taskId reason now with ⟨_ | _ | claimed, t⟩
  · rfl
  · rfl
  · obtain ⟨record, hrow, rfl⟩ := stopBegin_begun (congrArg Prod.fst hbegin)
    have hsame : inputs.Same (record.claimed reason now) inputs' :=
      let ⟨hterm, htermFailures, htermPolls, hkill, hkillFailures, hkillPolls, hlast⟩ :=
        h record hrow
      ⟨hterm, htermFailures, htermPolls, hkill, hkillFailures, hkillPolls, hlast⟩
    dsimp only
    rw [terminate_congr hsame]

theorem dismiss_congr
    (h : ∀ record, s.store.get taskId = some record → scope.mayAccess record = true →
      SameProcesses record listing listing') :
    s.dismiss (some scope) taskId listing = s.dismiss (some scope) taskId listing' := by
  rw [dismiss, dismiss]
  cases hrow : s.store.get taskId with
  | none => rfl
  | some record =>
    dsimp only
    split
    · rfl
    · next haccess =>
      have ha : scope.mayAccess record = true := by simpa using haccess
      rw [confirmGone_congr (h record hrow ha)]

theorem authorized_eq_ok_iff :
    s.authorized scope taskId = .ok record ↔
      s.store.get taskId = some record ∧ scope.mayAccess record = true := by
  rw [authorized]
  cases s.store.get taskId with
  | none => simp
  | some row =>
    rw [Option.filter_some]
    by_cases ha : scope.mayAccess row = true
    · rw [if_pos ha]
      constructor
      · rintro ⟨⟩
        exact ⟨rfl, ha⟩
      · rintro ⟨⟨⟩, _⟩
        rfl
    · rw [if_neg ha]
      constructor
      · rintro ⟨⟩
      · rintro ⟨⟨⟩, ha'⟩
        exact absurd ha' ha

theorem stopAck_of_error {error : String} (h : s.authorized scope taskId = .error error)
    (inputs : Termination) (now : Int) (listing : Listing) :
    s.stopAck (some scope) taskId inputs now listing = s.dismiss (some scope) taskId listing := by
  rw [stopAck, Option.any_some, h]
  rfl

theorem stopAck_congr {inputs inputs' : Termination} {now : Int}
    (hstop : ∀ record, s.store.get taskId = some record → scope.mayAccess record = true →
      inputs.Same record inputs')
    (hdismiss : ∀ record, s.store.get taskId = some record → scope.mayAccess record = true →
      SameProcesses record listing listing') :
    s.stopAck (some scope) taskId inputs now listing
      = s.stopAck (some scope) taskId inputs' now listing' := by
  rw [stopAck, stopAck, Option.any_some]
  cases hauthorized : s.authorized scope taskId with
  | error _ =>
    exact dismiss_congr hdismiss
  | ok record =>
    obtain ⟨hrow, ha⟩ := authorized_eq_ok_iff.1 hauthorized
    have hsame : s.stop taskId .requested inputs now = s.stop taskId .requested inputs' now :=
      stop_congr fun row hget => hstop row hget (Option.some.inj (hrow.symm.trans hget) ▸ ha)
    rw [hsame]
    have hok : ¬ (!(Except.ok record : Except String TaskRecord).isOk) = true :=
      Bool.false_ne_true
    rw [if_neg hok, if_neg hok]
    split
    · rfl
    · split
      · next hnone =>
        refine dismiss_congr fun row hget => ?_
        rw [hget] at hnone
        cases hnone
      · rfl

/-- Inputs that are the same to the tasks of a caller are the same to its calls. -/
theorem call_congr {inputs inputs' : Inputs} (h : inputs.Agree scope s inputs') (c : Call) :
    s.call scope inputs c = s.call scope inputs' c := by
  cases c with
  | list => rfl
  | inspect taskId logTailBytes =>
    rw [call, call, inspectFor, inspectFor]
    cases hauthorized : s.authorized scope taskId with
    | error _ => rfl
    | ok record =>
      obtain ⟨hrow, ha⟩ := authorized_eq_ok_iff.1 hauthorized
      exact congrArg (fun detail => (Except.ok (Answer.detail detail), s))
        (detail_congr (h taskId record hrow ha) logTailBytes)
  | stop taskId =>
    rw [call, call, stopFor, stopFor]
    cases hauthorized : s.authorized scope taskId with
    | error _ => rfl
    | ok record =>
      obtain ⟨hrow, ha⟩ := authorized_eq_ok_iff.1 hauthorized
      have hsame : ∀ row, s.store.get taskId = some row → inputs.Same row inputs' :=
        fun row hget => h taskId row hget (Option.some.inj (hrow.symm.trans hget) ▸ ha)
      dsimp only
      rw [(hsame record hrow).now, stop_congr fun row hget => (hsame row hget).termination]
  | stopAck taskId =>
    have hstop : ∀ now, s.stopAck (some scope) taskId inputs.termination now inputs.listing
        = s.stopAck (some scope) taskId inputs'.termination now inputs'.listing := fun now =>
      stopAck_congr (fun row hget ha => (h taskId row hget ha).termination)
        fun row hget ha => (h taskId row hget ha).listing
    rw [call, call, hstop]
    cases hauthorized : s.authorized scope taskId with
    | error _ => rw [stopAck_of_error hauthorized, stopAck_of_error hauthorized]
    | ok record =>
      obtain ⟨hrow, ha⟩ := authorized_eq_ok_iff.1 hauthorized
      rw [(h taskId record hrow ha).now]
  | dismiss taskId =>
    rw [call, call, dismiss_congr fun row hget ha => (h taskId row hget ha).listing]

end Service

end Nakode.BackgroundTasks
