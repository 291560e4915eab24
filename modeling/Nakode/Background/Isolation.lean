import Nakode.Background.Calls
import Nakode.Background.Cells

/-!
# Callers see their own tasks

A caller has a session and, as a delegated run, a run of it, and may access the tasks that these
started. Two states of the registry that agree on these tasks and on their receipts (`Agrees`)
cannot be told apart by a call, and a call leaves everything else as it is (`callers_isolated`). A
task of another session is answered like one that never was.
-/

namespace Nakode.BackgroundTasks

open Parts

namespace Service

variable {s s' : Service} {record : TaskRecord} {o : Receipt} {scope : CallerScope}
  {taskId : String}

/-! ## What a caller can tell apart -/

/-- The registries agree on the tasks and receipts of a caller, and on what is known of these
tasks. -/
structure Agrees (scope : CallerScope) (s s' : Service) : Prop where
  tasks : ∀ taskId record, scope.mayAccess record = true →
    (s.store.get taskId = some record ↔ s'.store.get taskId = some record)
  receipts : ∀ taskId receipt, scope.mayAcknowledge receipt = true →
    (s.store.receipt taskId = some receipt ↔ s'.store.receipt taskId = some receipt)
  known : ∀ taskId record, s.store.get taskId = some record → scope.mayAccess record = true →
    s.store.tracked taskId = s'.store.tracked taskId ∧ s.leaderExit taskId = s'.leaderExit taskId ∧
      s.stopping.contains taskId = s'.stopping.contains taskId

/-- No task but those of a caller was changed. -/
def Untouched (scope : CallerScope) (s t : Service) : Prop :=
  ∀ taskId, (∀ record, s.store.get taskId = some record → scope.mayAccess record = false) →
    t.cell taskId = s.cell taskId

theorem Agrees.symm (h : Agrees scope s s') : Agrees scope s' s := by
  refine ⟨fun taskId record ha => (h.tasks taskId record ha).symm,
    fun taskId receipt ha => (h.receipts taskId receipt ha).symm, fun taskId record hrow ha => ?_⟩
  obtain ⟨htracked, hexit, hstopping⟩ :=
    h.known taskId record ((h.tasks taskId record ha).2 hrow) ha
  exact ⟨htracked.symm, hexit.symm, hstopping.symm⟩

/-- The cell of a task that a caller may access is the same. -/
theorem Agrees.cell (h : Agrees scope s s') (hs : s.Coherent) (hs' : s'.Coherent)
    (hrow : s.store.get taskId = some record) (ha : scope.mayAccess record = true) :
    s.cell taskId = s'.cell taskId := by
  have hrow' := (h.tasks taskId record ha).1 hrow
  obtain ⟨htracked, hexit, hstopping⟩ := h.known taskId record hrow ha
  have hnone : s.store.receipt taskId = none := (hs taskId).resolve_left (by simp [hrow])
  have hnone' : s'.store.receipt taskId = none := (hs' taskId).resolve_left (by simp [hrow'])
  rw [Service.cell, Service.cell, hrow, hrow', hnone, hnone', htracked, hexit, hstopping]

/-- A call on the cell of an accessible task gives the same in registries that agree, and changes
only this task. -/
theorem acts_agree {ρ : Type} {op : Service → ρ × Service} (hop : ActsOn o op)
    (h : Agrees scope s s') (hs : s.Coherent) (hs' : s'.Coherent)
    (hrow : s.store.get o.taskId = some record) (hmine : record.receipt = o)
    (ha : scope.mayAccess record = true) :
    (op s).1 = (op s').1 ∧ Agrees scope (op s).2 (op s').2 ∧ Untouched scope s (op s).2 ∧
      (op s).2.Coherent := by
  subst hmine
  have howned := hs.owned hrow
  generalize record.receipt = o at *
  have hsame := h.cell hs hs' hrow ha
  obtain ⟨hresult, hcell⟩ := hop.same s s' howned hsame
  have hcells : ∀ other, other ≠ o.taskId →
      (op s).2.cell other = s.cell other ∧ (op s').2.cell other = s'.cell other := fun other hne =>
    ⟨hop.frame s howned other hne, hop.frame s' (hsame ▸ howned) other hne⟩
  refine ⟨hresult, ⟨fun id row hid => ?_, fun id receipt hid => ?_, fun id row hget hid => ?_⟩,
    fun id hdenied => ?_, fun id => ?_⟩
  · by_cases heq : id = o.taskId
    · subst heq
      exact iff_of_eq (congrArg (fun c => Cell.row c = some row) hcell)
    · obtain ⟨hleft, hright⟩ := hcells id heq
      exact ((iff_of_eq (congrArg (fun c => Cell.row c = some row) hleft)).trans
        (h.tasks id row hid)).trans
        (iff_of_eq (congrArg (fun c => Cell.row c = some row) hright)).symm
  · by_cases heq : id = o.taskId
    · subst heq
      exact iff_of_eq (congrArg (fun c => Cell.receipt c = some receipt) hcell)
    · obtain ⟨hleft, hright⟩ := hcells id heq
      exact ((iff_of_eq (congrArg (fun c => Cell.receipt c = some receipt) hleft)).trans
        (h.receipts id receipt hid)).trans
        (iff_of_eq (congrArg (fun c => Cell.receipt c = some receipt) hright)).symm
  · by_cases heq : id = o.taskId
    · subst heq
      exact ⟨congrArg Cell.tracked hcell, congrArg Cell.exit hcell, congrArg Cell.stopping hcell⟩
    · obtain ⟨hleft, hright⟩ := hcells id heq
      have hbefore : s.store.get id = some row := (congrArg Cell.row hleft).symm.trans hget
      obtain ⟨htracked, hexit, hstopping⟩ := h.known id row hbefore hid
      exact ⟨((congrArg Cell.tracked hleft).trans htracked).trans (congrArg Cell.tracked hright).symm,
        ((congrArg Cell.exit hleft).trans hexit).trans (congrArg Cell.exit hright).symm,
        ((congrArg Cell.stopping hleft).trans hstopping).trans (congrArg Cell.stopping hright).symm⟩
  · refine (hcells id ?_).1
    rintro rfl
    rw [hdenied record hrow] at ha
    cases ha
  · by_cases heq : id = o.taskId
    · subst heq
      exact (hop.keeps s howned).apart
    · have hcell := (hcells id heq).1
      exact (hs id).imp (congrArg Cell.row hcell).trans (congrArg Cell.receipt hcell).trans

/-! ## The tasks of others -/

/-- The caller may access no row of a task. -/
def Denied (scope : CallerScope) (s : Service) (taskId : String) : Prop :=
  ∀ record, s.store.get taskId = some record → scope.mayAccess record = false

/-- There is no task that the caller may access or acknowledge; another may have one. -/
structure Hidden (scope : CallerScope) (s : Service) (taskId : String) : Prop where
  row : Denied scope s taskId
  receipt : ∀ receipt, s.store.receipt taskId = some receipt → scope.mayAcknowledge receipt = false

theorem authorized_of_denied (h : Denied scope s taskId) :
    s.authorized scope taskId = .error (unknownTask taskId) := by
  rw [authorized]
  cases hrow : s.store.get taskId with
  | none => rfl
  | some record => rw [Option.filter_some, h record hrow]; rfl

/-- What a dismissal answers on a task that the caller may not access: there may be a receipt. -/
theorem dismiss_of_denied (hs : s.Coherent) (h : Denied scope s taskId) (listing : Listing) :
    s.dismiss (some scope) taskId listing
      = (if (s.store.receipt taskId).any scope.mayAcknowledge then .ok ()
          else .error (unknownTask taskId), s) := by
  rw [dismiss]
  cases hrow : s.store.get taskId with
  | none =>
    cases s.store.receipt taskId with
    | none => rfl
    | some receipt =>
      dsimp only [Option.all_some, Option.any_some]
      split <;> rfl
  | some record =>
    have hnone : s.store.receipt taskId = none := (hs taskId).resolve_left (by simp [hrow])
    rw [hnone]
    simp [h record hrow]

theorem stopAck_of_denied (h : Denied scope s taskId) (inputs : Termination) (now : Int)
    (listing : Listing) :
    s.stopAck (some scope) taskId inputs now listing = s.dismiss (some scope) taskId listing :=
  stopAck_of_error (authorized_of_denied h) inputs now listing

theorem Agrees.denied (h : Agrees scope s s') (hdenied : Denied scope s taskId) :
    Denied scope s' taskId := by
  intro record hrow
  by_contra hne
  have ha : scope.mayAccess record = true := by simpa using hne
  rw [hdenied record ((h.tasks taskId record ha).2 hrow)] at ha
  cases ha

theorem Agrees.any_receipt (h : Agrees scope s s') (taskId : String) :
    (s.store.receipt taskId).any scope.mayAcknowledge
      = (s'.store.receipt taskId).any scope.mayAcknowledge := by
  have hiff : ∀ {s s' : Service}, Agrees scope s s' →
      (s.store.receipt taskId).any scope.mayAcknowledge = true →
      (s'.store.receipt taskId).any scope.mayAcknowledge = true := by
    intro s s' h hany
    obtain ⟨receipt, hreceipt, ha⟩ := (Option.any_eq_true _ _).1 hany
    exact (Option.any_eq_true _ _).2 ⟨receipt, (h.receipts taskId receipt ha).1 hreceipt, ha⟩
  exact Bool.eq_iff_iff.2 ⟨hiff h, hiff h.symm⟩

/-- The tasks of a caller are listed in one order. -/
theorem Agrees.listFor (h : Agrees scope s s') : s.listFor scope = s'.listFor scope := by
  have hmem : ∀ {s : Service} {record : TaskRecord},
      record ∈ (s.store.list (some scope.owner)).filter scope.mayAccess ↔
        s.store.get record.taskId = some record ∧ scope.mayAccess record = true := by
    intro s record
    rw [List.mem_filter, TaskStore.list, List.mem_insertionSort, List.mem_filter,
      TaskStore.get_eq_some_iff, and_assoc]
    refine ⟨fun ⟨hrow, _, ha⟩ => ⟨⟨hrow, rfl⟩, ha⟩, fun ⟨⟨hrow, _⟩, ha⟩ => ⟨hrow, ?_, ha⟩⟩
    rw [CallerScope.mayAccess, Bool.and_eq_true] at ha
    exact ha.1
  have hnodup : ∀ s : Service,
      ((s.store.list (some scope.owner)).filter scope.mayAccess).Nodup := by
    intro s
    refine List.Nodup.filter _ ?_
    rw [TaskStore.list, (List.perm_insertionSort _ _).nodup_iff]
    exact (List.Nodup.of_map _ s.store.distinct).filter _
  have hsorted : ∀ s : Service,
      ((s.store.list (some scope.owner)).filter scope.mayAccess).Pairwise fun a b =>
        toLex (a.createdAtMs, a.taskId) ≤ toLex (b.createdAtMs, b.taskId) := by
    intro s
    refine List.Pairwise.filter _ ?_
    let older := fun a b : TaskRecord =>
      toLex (a.createdAtMs, a.taskId) ≤ toLex (b.createdAtMs, b.taskId)
    have htotal : Std.Total older := ⟨fun _ _ => le_total _ _⟩
    have htrans : IsTrans TaskRecord older := ⟨fun _ _ _ => le_trans⟩
    exact List.pairwise_insertionSort older _
  rw [Service.listFor, Service.listFor]
  refine congrArg (List.map view) (List.Perm.eq_of_pairwise ?_ (hsorted s) (hsorted s') ?_)
  · intro a b ha hb hab hba
    have hkey := le_antisymm hab hba
    have hid : a.taskId = b.taskId := congrArg (fun k => (ofLex k).2) hkey
    have hrow := (hmem.1 ha).1
    have hrow' := (h.tasks _ b (hmem.1 hb).2).2 (hmem.1 hb).1
    rw [hid] at hrow
    exact Option.some.inj (hrow.symm.trans hrow')
  · rw [List.perm_ext_iff_of_nodup (hnodup s) (hnodup s')]
    intro record
    rw [hmem, hmem]
    exact and_congr_left fun ha => h.tasks record.taskId record ha

/-! ## Calls on a task -/

/-- The row of a cell, where a caller may access it. -/
def authorizedOf (scope : CallerScope) (taskId : String) (c : Cell) : Except String TaskRecord :=
  match c.row.filter scope.mayAccess with
  | none => .error (unknownTask taskId)
  | some record => .ok record

/-- A call that goes on with a row that the caller may access. -/
def permitted {α : Type} (next : Service → Except String α × Service)
    (authorized : Except String TaskRecord) (s : Service) : Except String α × Service :=
  match authorized with
  | .error error => (.error error, s)
  | .ok _ => next s

theorem acts_inspectFor (o : Receipt) (logTailBytes : Nat) (around : Surroundings) :
    ActsOn o fun s => (s.inspectFor scope o.taskId logTailBytes around, s) :=
  acts_read (fun c s => ((authorizedOf scope o.taskId c).map (detail · logTailBytes around), s))
    (fun _ => rfl) fun _ _ => Acts.pure _

theorem acts_stopFor (o : Receipt) (inputs : Termination) (now : Int) :
    ActsOn o fun s => s.stopFor scope o.taskId inputs now := by
  refine acts_read (fun c => permitted (fun s => s.stop o.taskId .requested inputs now)
    (authorizedOf scope o.taskId c)) (fun _ => rfl) fun c _ => ?_
  cases authorizedOf scope o.taskId c with
  | error error => exact Acts.pure _
  | ok record => exact acts_stop o .requested inputs now

/-- An acknowledgement after a stop: what could not be stopped for it has no row is dismissed. -/
def acknowledged (scope : CallerScope) (taskId : String) (listing : Listing)
    (r : Except String BackgroundTaskView) (s : Service) : Except String Unit × Service :=
  match r with
  | .ok _ => (.ok (), s)
  | .error error =>
    if (s.store.get taskId).isNone then s.dismiss (some scope) taskId listing
    else (.error error, s)

theorem acts_stopAck (o : Receipt) (inputs : Termination) (now : Int) (listing : Listing) :
    ActsOn o fun s => s.stopAck (some scope) o.taskId inputs now listing := by
  refine acts_read (fun c s =>
    if (c.row.filter scope.mayAccess).isNone then s.dismiss (some scope) o.taskId listing
    else
      acknowledged scope o.taskId listing (s.stop o.taskId .requested inputs now).1
        (s.stop o.taskId .requested inputs now).2) (fun s => ?_) fun c _ => ?_
  · rw [stopAck, Option.any_some, authorized]
    show _ = if ((s.store.get o.taskId).filter scope.mayAccess).isNone then _ else _
    rcases s.stop o.taskId .requested inputs now with ⟨_ | _, _⟩ <;>
      cases (s.store.get o.taskId).filter scope.mayAccess <;> rfl
  · split
    · exact acts_dismiss o _ listing
    · refine acts_seq (acknowledged scope o.taskId listing) (fun _ => rfl)
        (acts_stop o .requested inputs now) (fun _ => True) (fun _ _ => trivial) fun r _ => ?_
      · cases r with
        | ok _ => exact Acts.pure _
        | error error =>
          refine acts_read (fun c s =>
            if c.row.isNone then s.dismiss (some scope) o.taskId listing
            else (.error error, s)) (fun _ => rfl) fun c _ => ?_
          split
          · exact acts_dismiss o _ listing
          · exact Acts.pure _

/-- An operation with what its result is answered as. -/
theorem acts_answer {α : Type} {op : Service → Except String α × Service} (h : ActsOn o op)
    (f : α → Answer) : ActsOn o fun s => ((op s).1.map f, (op s).2) :=
  acts_seq (fun (r : Except String α) s => (r.map f, s)) (fun _ => rfl) h (fun _ => True)
    (fun _ _ => trivial) fun r _ => Acts.pure (r.map f)

/-- A call on an accessible task acts on its cell. -/
theorem acts_call (o : Receipt) (inputs : Inputs) (c : Call) (hc : c.taskId? = some o.taskId) :
    ActsOn o fun s => s.call scope inputs c := by
  cases c with
  | list => cases hc
  | inspect taskId logTailBytes =>
    obtain rfl : taskId = o.taskId := Option.some.inj hc
    exact acts_answer (acts_inspectFor o logTailBytes inputs.around) .detail
  | stop taskId =>
    obtain rfl : taskId = o.taskId := Option.some.inj hc
    exact acts_answer (acts_stopFor o inputs.termination inputs.around.now) .task
  | stopAck taskId =>
    obtain rfl : taskId = o.taskId := Option.some.inj hc
    exact acts_answer (acts_stopAck o inputs.termination inputs.around.now inputs.listing)
      fun _ => .done
  | dismiss taskId =>
    obtain rfl : taskId = o.taskId := Option.some.inj hc
    exact acts_answer (acts_dismiss o (some scope) inputs.listing) fun _ => .done

/-- A call on a task that the caller may not access: it is answered as one on a task that was
acknowledged, or that never was, and does nothing. -/
theorem call_of_denied {c : Call} (hs : s.Coherent) (hc : c.taskId? = some taskId)
    (h : Denied scope s taskId) (inputs : Inputs) :
    s.call scope inputs c
      = (if c.acknowledges && (s.store.receipt taskId).any scope.mayAcknowledge then .ok .done
          else .error (unknownTask taskId), s) := by
  cases c with
  | list => cases hc
  | inspect taskId logTailBytes =>
    cases hc
    rw [call, inspectFor, authorized_of_denied h]
    rfl
  | stop taskId =>
    cases hc
    rw [call, stopFor, authorized_of_denied h]
    rfl
  | stopAck taskId =>
    cases hc
    rw [call, stopAck_of_denied h, dismiss_of_denied hs h]
    cases (s.store.receipt taskId).any scope.mayAcknowledge with
    | true => rfl
    | false => rfl
  | dismiss taskId =>
    cases hc
    rw [call, dismiss_of_denied hs h]
    cases (s.store.receipt taskId).any scope.mayAcknowledge with
    | true => rfl
    | false => rfl

/-! ## Isolation -/

/-- A call on registries that agree on what its caller may access. -/
theorem Agrees.call (h : Agrees scope s s') (hs : s.Coherent) (hs' : s'.Coherent) (inputs : Inputs)
    (c : Call) :
    (s.call scope inputs c).1 = (s'.call scope inputs c).1 ∧
      Agrees scope (s.call scope inputs c).2 (s'.call scope inputs c).2 ∧
      Untouched scope s (s.call scope inputs c).2 ∧ (s.call scope inputs c).2.Coherent := by
  cases hid : c.taskId? with
  | none =>
    obtain rfl := Call.eq_list hid
    exact ⟨congrArg (fun views => Except.ok (Answer.tasks views)) h.listFor, h, fun _ _ => rfl, hs⟩
  | some taskId =>
    by_cases hdenied : Denied scope s taskId
    · have hcall := call_of_denied hs hid hdenied inputs
      have hcall' := call_of_denied hs' hid (h.denied hdenied) inputs
      rw [hcall, hcall', h.any_receipt taskId]
      exact ⟨rfl, h, fun _ _ => rfl, hs⟩
    · obtain ⟨record, hrow, ha⟩ :
          ∃ record, s.store.get taskId = some record ∧ scope.mayAccess record = true := by
        simpa [Denied] using hdenied
      obtain rfl := TaskStore.taskId_of_get hrow
      exact acts_agree (acts_call record.receipt inputs c hid) h hs hs' hrow rfl ha

/-- Inputs that are the same to the tasks of a caller in one of two such registries are the same to
those in the other. -/
theorem Agrees.inputs {inputs inputs' : Inputs} (h : Agrees scope s s')
    (hinputs : inputs.Agree scope s inputs') : inputs.Agree scope s' inputs' :=
  fun taskId record hrow ha => hinputs taskId record ((h.tasks taskId record ha).2 hrow) ha

/-- Registries that agree on what a caller may access answer it alike and agree after the call,
which changes only tasks that the caller may access. A task that it may not access is answered as
one that is in no table. -/
theorem callers_isolated (scope : CallerScope) (c : Call) (s s' : Service)
    (inputs inputs' : Inputs) (hs : s.Coherent) (hs' : s'.Coherent) (h : Agrees scope s s')
    (hinputs : inputs.Agree scope s inputs') :
    (s.call scope inputs c).1 = (s'.call scope inputs' c).1 ∧
      Agrees scope (s.call scope inputs c).2 (s'.call scope inputs' c).2 ∧
      Untouched scope s (s.call scope inputs c).2 ∧
      (s.call scope inputs c).2.Coherent ∧
      ∀ taskId, c.taskId? = some taskId → Hidden scope s taskId →
        s.call scope inputs c = (.error (unknownTask taskId), s) := by
  rw [← call_congr (h.inputs hinputs) c]
  obtain ⟨hanswer, hagrees, huntouched, hcoherent⟩ := h.call hs hs' inputs c
  refine ⟨hanswer, hagrees, huntouched, hcoherent, fun taskId hc hid => ?_⟩
  have hany : (s.store.receipt taskId).any scope.mayAcknowledge = false := by
    cases hreceipt : s.store.receipt taskId with
    | none => rfl
    | some receipt => exact hid.receipt receipt hreceipt
  rw [call_of_denied hs hc hid.row, hany, Bool.and_false]
  rfl

/-- A running task of a session. -/
def taskOf (taskId owner : String) : TaskRecord where
  taskId
  name := "watch"
  ownerSessionId := owner
  originRunId := none
  originTurnId := none
  originCallId := none
  command := "make watch"
  cwd := "/work"
  machine := "host"
  state := .running
  supervision := .child
  processId := some 41
  processStart := some "9:00"
  exitCode := none
  exitSignal := none
  detail := none
  stopReason := none
  stopRequestedAtMs := none
  ownerDeletedAtMs := none
  endpoints := []
  logPath := "/logs/watch.log"
  createdAtMs := 1
  startedAtMs := some 2
  endedAtMs := none
  updatedAtMs := 2

/-- A registry with one task of the session `a` and, where it is given, one of another session. -/
def registryWith (owner : Option String) : Service where
  machine := "host"
  store :=
    { rows := taskOf "bgt_1" "a" :: (owner.map (taskOf "bgt_2")).toList
      distinct := by
        cases owner with
        | none => exact List.nodup_singleton "bgt_1"
        | some owner => exact (by decide : ["bgt_1", "bgt_2"].Nodup)
      receipts := []
      processes := [] }
  leaderExits := []
  stopping := []
  deletingOwners := []
  removed := []

/-- No listing is to be had. -/
def blind : Inputs where
  around := ⟨3, fun _ _ => ("", false), fun _ => "unknown"⟩
  termination :=
    { term := .error "unavailable", termFailures := [], termPolls := [], kill := .error "unavailable",
      killFailures := [], killPolls := [], last := .error "unavailable" }
  listing := .error "unavailable"

/-- The session `a` is told of a task of the session `b` what it is told where there is none. -/
theorem callers_isolated_two_sessions :
    ((registryWith (some "b")).call ⟨"a", none, none, none⟩ blind (.stopAck "bgt_2")).1
        = ((registryWith none).call ⟨"a", none, none, none⟩ blind (.stopAck "bgt_2")).1 ∧
      (registryWith (some "b")).call ⟨"a", none, none, none⟩ blind (.stopAck "bgt_2")
        = (.error (unknownTask "bgt_2"), registryWith (some "b")) := by
  have hrows : ∀ (taskId : String) (record : TaskRecord),
      CallerScope.mayAccess ⟨"a", none, none, none⟩ record = true →
      ((registryWith (some "b")).store.get taskId = some record ↔
        (registryWith none).store.get taskId = some record) := by
    intro taskId record ha
    rw [TaskStore.get_eq_some_iff, TaskStore.get_eq_some_iff]
    refine and_congr_left fun _ => ?_
    show record ∈ [taskOf "bgt_1" "a", taskOf "bgt_2" "b"] ↔ record ∈ [taskOf "bgt_1" "a"]
    rw [List.mem_cons, List.mem_singleton, List.mem_singleton, or_iff_left]
    rintro rfl
    exact absurd ha (by decide)
  have hknown : ∀ taskId : String,
      (registryWith (some "b")).store.tracked taskId = (registryWith none).store.tracked taskId :=
    fun _ => rfl
  obtain ⟨hanswer, _, _, _, hhidden⟩ := callers_isolated ⟨"a", none, none, none⟩ (.stopAck "bgt_2")
    (registryWith (some "b")) (registryWith none) blind blind (fun _ => .inr rfl)
    (fun _ => .inr rfl)
    ⟨hrows, fun _ _ _ => Iff.rfl, fun taskId _ _ _ => ⟨hknown taskId, rfl, rfl⟩⟩
    fun _ _ _ _ => ⟨rfl, rfl, fun _ _ => rfl, ⟨rfl, rfl, .nil, rfl, rfl, .nil, rfl⟩, rfl⟩
  refine ⟨hanswer, hhidden "bgt_2" rfl ⟨fun record hrow => ?_, fun receipt hreceipt => ?_⟩⟩
  · obtain rfl : taskOf "bgt_2" "b" = record :=
      Option.some.inj ((by decide :
        some (taskOf "bgt_2" "b") = (registryWith (some "b")).store.get "bgt_2").trans hrow)
    decide
  · cases hreceipt

end Service

end Nakode.BackgroundTasks
