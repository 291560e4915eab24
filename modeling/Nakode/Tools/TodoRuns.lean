import Nakode.Lib.Outcome
import Nakode.Tools.Todo

/-!
# Runs of todo operations

What each part of an operation does to a list: validation accepts exactly lists without duplicates
(`validateUnique_eq_ok_iff`), a change of one task keeps the shape of the list, and an append adds its
tasks to those of the list. With this an operation on a clean list keeps its promises exactly if it
is no append of a duplicate, and in runs without one every list is clean (`todo_faithful`).
-/

namespace Nakode.Tools

open Text (Json)
open Agent (field? asStr?)
open Outcome (mapM_eq_ok_iff)
open Transition

variable {phases result : List TodoPhase} {arguments : Json} {tasks additions : List TodoItem}
  {name content error : String} {status : TodoStatus}

/-! ## Validation -/

theorem validateTasks_eq_ok_iff {seen seen' : List String} :
    validateTasks tasks seen = .ok seen' ↔
      ((tasks.map (·.content)).Nodup ∧ (tasks.map (·.content)).Disjoint seen) ∧
        seen' = (tasks.map (·.content)).reverse ++ seen := by
  induction tasks generalizing seen with
  | nil => simp [validateTasks, eq_comm]
  | cons task tasks ih =>
    rw [validateTasks, List.map_cons, List.disjoint_cons_left]
    split
    · next hseen =>
      refine iff_of_false (by simp) fun h => ?_
      exact h.1.2.1 (List.contains_iff_mem.1 hseen)
    · next hseen =>
      have hfresh : task.content ∉ seen := fun h => hseen (List.contains_iff_mem.2 h)
      rw [ih, List.nodup_cons, List.disjoint_cons_right, List.reverse_cons, List.append_assoc,
        List.singleton_append]
      tauto

theorem allTasks_cons (phase : TodoPhase) (phases : List TodoPhase) :
    allTasks (phase :: phases) = phase.tasks ++ allTasks phases := rfl

theorem validatePhases_eq_ok_iff {names contents : List String} :
    validatePhases phases names contents = .ok () ↔
      ((phases.map (·.name)).Nodup ∧ (phases.map (·.name)).Disjoint names) ∧
        ((allTasks phases).map (·.content)).Nodup ∧
          ((allTasks phases).map (·.content)).Disjoint contents := by
  induction phases generalizing names contents with
  | nil => simp [validatePhases, allTasks]
  | cons phase phases ih =>
    rw [validatePhases, allTasks_cons, List.map_append, List.nodup_append', List.map_cons,
      List.nodup_cons, List.disjoint_cons_left, List.disjoint_append_left]
    split
    · next hseen =>
      refine iff_of_false (by simp) fun h => ?_
      exact h.1.2.1 (List.contains_iff_mem.1 hseen)
    · next hseen =>
      have hfresh : phase.name ∉ names := fun h => hseen (List.contains_iff_mem.2 h)
      split
      · next error herror =>
        refine iff_of_false (by simp) fun h => ?_
        have hok := validateTasks_eq_ok_iff.2 ⟨⟨h.2.1.1, h.2.2.1⟩, rfl⟩
        cases herror.symm.trans hok
      · next contents' hok =>
        obtain ⟨htasks, rfl⟩ := validateTasks_eq_ok_iff.1 hok
        have hreverse : ((allTasks phases).map (·.content)).Disjoint
              ((phase.tasks.map (·.content)).reverse ++ contents) ↔
            (phase.tasks.map (·.content)).Disjoint ((allTasks phases).map (·.content)) ∧
              ((allTasks phases).map (·.content)).Disjoint contents := by
          rw [List.disjoint_append_right, List.disjoint_reverse_right, List.disjoint_comm]
        rw [ih, List.disjoint_cons_right, hreverse]
        tauto

theorem validateUnique_eq_ok_iff :
    validateUnique phases = .ok () ↔
      (phases.map (·.name)).Nodup ∧ ((allTasks phases).map (·.content)).Nodup := by
  rw [validateUnique, validatePhases_eq_ok_iff]
  simp

/-! ## Shapes -/

theorem names_eq_shape (phases : List TodoPhase) :
    phases.map (·.name) = (shape phases).map (·.1) := by
  rw [shape, List.map_map]
  rfl

theorem contents_eq_shape (phases : List TodoPhase) :
    (allTasks phases).map (·.content) = (shape phases).flatMap (·.2) := by
  rw [allTasks, shape, List.map_flatMap, List.flatMap_map]

/-- Whether a list is clean does not depend on the statuses. -/
theorem Clean.of_shape (h : Clean phases) (hshape : shape result = shape phases) :
    Clean result := by
  refine ⟨?_, ?_, fun phase hphase => ?_⟩
  · rw [names_eq_shape, hshape, ← names_eq_shape]
    exact h.names
  · rw [contents_eq_shape, hshape, ← contents_eq_shape]
    exact h.contents
  · have hmem : (phase.name, phase.tasks.map (·.content)) ∈ shape phases :=
      hshape ▸ List.mem_map_of_mem (f := fun p : TodoPhase => (p.name, p.tasks.map (·.content))) hphase
    obtain ⟨old, hold, heq⟩ := List.mem_map.1 hmem
    have htasks : old.tasks.map (·.content) = phase.tasks.map (·.content) := congrArg Prod.snd heq
    intro hnil
    rw [hnil, List.map_nil, List.map_eq_nil_iff] at htasks
    exact h.tasks old hold htasks

/-- Two tasks of a clean list that have one content are one task. -/
theorem Clean.task_eq (h : Clean phases) {task other : TodoItem} (htask : task ∈ allTasks phases)
    (hother : other ∈ allTasks phases) (heq : task.content = other.content) : task = other :=
  List.inj_on_of_nodup_map h.contents htask hother heq

/-! ## Changes of one task -/

section

variable {f : TodoItem → Option (List TodoItem)}

theorem exists_of_updateTask (h : updateTask f phases = some result) :
    ∃ front phase back before task after new, phases = front ++ phase :: back ∧
      phase.tasks = before ++ task :: after ∧ f task = some new ∧
      result = front ++ { phase with tasks := before ++ new ++ after } :: back := by
  obtain ⟨front, phase, back, new, rfl, hphase, rfl⟩ := First.exists_of_update h
  obtain ⟨tasks, htasks, rfl⟩ := Option.map_eq_some_iff.1 hphase
  obtain ⟨before, task, after, new, hsplit, htask, rfl⟩ := First.exists_of_update htasks
  refine ⟨front, phase, back, before, task, after, new, rfl, hsplit, htask, ?_⟩
  rw [List.append_assoc, List.singleton_append]

theorem updateTask_eq_none_iff :
    updateTask f phases = none ↔ ∀ task ∈ allTasks phases, f task = none := by
  rw [updateTask, First.update_eq_none_iff]
  constructor
  · intro h task htask
    obtain ⟨phase, hphase, htask⟩ := List.mem_flatMap.1 htask
    exact First.update_eq_none_iff.1 (Option.map_eq_none_iff.1 (h phase hphase)) task htask
  · intro h phase hphase
    refine Option.map_eq_none_iff.2 (First.update_eq_none_iff.2 fun task htask => ?_)
    exact h task (List.mem_flatMap.2 ⟨phase, hphase, htask⟩)

theorem allTasks_append (front back : List TodoPhase) :
    allTasks (front ++ back) = allTasks front ++ allTasks back := List.flatMap_append

/-- A change of one task keeps the shape of a list and the other tasks. -/
theorem updateTask_one (hf : ∀ task new, f task = some new →
      ∃ status, new = [{ task with status }]) (h : updateTask f phases = some result) :
    shape result = shape phases ∧ ∃ before task status after,
      allTasks phases = before ++ task :: after ∧ f task = some [{ task with status }] ∧
        allTasks result = before ++ { task with status } :: after := by
  obtain ⟨front, phase, back, before, task, after, new, rfl, hsplit, htask, rfl⟩ :=
    exists_of_updateTask h
  obtain ⟨status, rfl⟩ := hf task new htask
  refine ⟨?_, allTasks front ++ before, task, status, after ++ allTasks back, ?_, htask, ?_⟩
  · simp [shape, hsplit]
  · rw [allTasks_append, allTasks_cons, hsplit]
    simp
  · rw [allTasks_append, allTasks_cons]
    simp

end

theorem withStatus_one {task : TodoItem} {new : List TodoItem}
    (h : withStatus content status task = some new) : new = [{ task with status }] := by
  rw [withStatus] at h
  split at h
  · cases h
    rfl
  · cases h

theorem started_one {task : TodoItem} {new : List TodoItem} (h : started task = some new) :
    new = [{ task with status := .inProgress }] := by
  rw [started] at h
  split at h
  · cases h
    rfl
  · cases h

/-- A promotion keeps the shape. What it starts was pending, and nothing else is in progress. -/
theorem promoteNextTask_spec (phases : List TodoPhase) :
    shape (promoteNextTask phases) = shape phases ∧
      (∀ task ∈ allTasks (promoteNextTask phases),
        task ∈ allTasks phases ∨ Promoted phases (promoteNextTask phases) task) ∧
      ((∃ task ∈ allTasks (promoteNextTask phases), task.status = .pending) →
        ∃ task ∈ allTasks (promoteNextTask phases), task.status = .inProgress) := by
  rw [promoteNextTask]
  split
  · next hany =>
    obtain ⟨task, htask, hstatus⟩ := List.any_eq_true.1 hany
    exact ⟨rfl, fun _ h => .inl h, fun _ => ⟨task, htask, beq_iff_eq.1 hstatus⟩⟩
  · next hany =>
    have hidle : ∀ task ∈ allTasks phases, task.status ≠ .inProgress := fun task htask hstatus =>
      hany (List.any_eq_true.2 ⟨task, htask, beq_iff_eq.2 hstatus⟩)
    cases hstart : updateTask started phases with
    | none =>
      refine ⟨rfl, fun _ h => .inl h, fun ⟨task, htask, hstatus⟩ => ?_⟩
      have hnone := updateTask_eq_none_iff.1 hstart task htask
      rw [started, if_pos hstatus] at hnone
      cases hnone
    | some result =>
      rw [Option.getD_some]
      obtain ⟨hshape, before, task, status, after, hold, htask, hnew⟩ :=
        updateTask_one (fun task new h => ⟨_, started_one h⟩) hstart
      obtain rfl : status = .inProgress :=
        congrArg TodoItem.status (List.singleton_inj.1 (started_one htask))
      have hpending : task.status = .pending := by
        by_contra hne
        rw [started, if_neg hne] at htask
        cases htask
      have hold' : ∀ other ∈ before ++ after, other ∈ allTasks phases := by
        intro other hother
        rw [hold]
        obtain hother | hother := List.mem_append.1 hother
        · exact List.mem_append_left _ hother
        · exact List.mem_append_right _ (List.mem_cons_of_mem _ hother)
      have hnew' : ∀ other, other ∈ allTasks result ↔
          other = { task with status := .inProgress } ∨ other ∈ before ++ after := by
        intro other
        rw [hnew]
        simp only [List.mem_append, List.mem_cons]
        tauto
      refine ⟨hshape, fun other hother => ?_,
        fun _ => ⟨_, (hnew' _).2 (.inl rfl), rfl⟩⟩
      obtain rfl | hkept := (hnew' other).1 hother
      · refine .inr ⟨rfl, ?_, fun another hanother hstatus => ?_⟩
        · rw [hold, ← hpending]
          exact List.mem_append_right _ List.mem_cons_self
        · obtain rfl | hkept := (hnew' another).1 hanother
          · rfl
          · exact absurd hstatus (hidle another (hold' another hkept))
      · exact .inl (hold' other hkept)

/-! ## The changes -/

/-- A refusal leaves the list; an accepted change of one task keeps the others and the shape. -/
theorem setTaskStatus_cases (phases : List TodoPhase) (content : String) (status : TodoStatus) :
    (∃ error, setTaskStatus phases content status = (.error error, phases)) ∨
      ∃ result, setTaskStatus phases content status = (.ok (), result) ∧
        shape result = shape phases ∧ ∃ before task after, task.content = content ∧
          allTasks phases = before ++ task :: after ∧
          allTasks result = before ++ { task with status } :: after := by
  rw [setTaskStatus]
  cases hset : updateTask (withStatus content status) phases with
  | none => exact .inl ⟨_, rfl⟩
  | some result =>
    obtain ⟨hshape, before, task, status', after, hold, htask, hnew⟩ :=
      updateTask_one (fun task new h => ⟨_, withStatus_one h⟩) hset
    obtain rfl : status' = status :=
      congrArg TodoItem.status (List.singleton_inj.1 (withStatus_one htask))
    have hcontent : task.content = content := by
      by_contra hne
      rw [withStatus, if_neg hne] at htask
      cases htask
    exact .inr ⟨result, rfl, hshape, before, task, after, hcontent, hold, hnew⟩

theorem setTaskStatus_spec (hclean : Clean phases)
    (h : setTaskStatus phases content status = (.ok (), result)) :
    shape result = shape phases ∧
      (∀ task ∈ allTasks result, task.content = content → task.status = status) ∧
      ∀ task ∈ allTasks result, task.content ≠ content → task ∈ allTasks phases := by
  obtain ⟨error, herror⟩ | ⟨result', hok, hshape, before, task, after, hcontent, hold, hnew⟩ :=
    setTaskStatus_cases phases content status
  · cases herror.symm.trans h
  · cases hok.symm.trans h
    refine ⟨hshape, fun other hother hsame => ?_, fun other hother hne => ?_⟩
    · have hset : ({ task with status } : TodoItem) ∈ allTasks result := by
        rw [hnew]
        exact List.mem_append_right _ List.mem_cons_self
      rw [(hclean.of_shape hshape).task_eq hother hset (hsame.trans hcontent.symm)]
    · rw [hnew] at hother
      rw [hold]
      obtain hother | hother := List.mem_append.1 hother
      · exact List.mem_append_left _ hother
      · obtain rfl | hother := List.mem_cons.1 hother
        · exact absurd hcontent hne
        · exact List.mem_append_right _ (List.mem_cons_of_mem _ hother)

theorem exists_of_updatePhase {f : TodoPhase → TodoPhase}
    (h : updatePhase name f phases = some result) :
    ∃ front phase back, phases = front ++ phase :: back ∧ phase.name = name ∧
      result = front ++ f phase :: back := by
  obtain ⟨front, phase, back, new, rfl, hphase, rfl⟩ := First.exists_of_update h
  split at hphase
  · next hname =>
    cases hphase
    refine ⟨front, phase, back, rfl, hname, ?_⟩
    rw [List.append_assoc, List.singleton_append]
  · cases hphase

theorem updatePhase_eq_none_iff {f : TodoPhase → TodoPhase} :
    updatePhase name f phases = none ↔ ∀ phase ∈ phases, phase.name ≠ name := by
  rw [updatePhase, First.update_eq_none_iff]
  refine forall_congr' fun phase => forall_congr' fun _ => ?_
  split <;> simp_all

/-- A change of the statuses of a phase or a task. -/
theorem setTargetStatus_cases (phases : List TodoPhase) (arguments : Json) (status : TodoStatus) :
    (∃ error, setTargetStatus phases arguments status = (.error error, phases)) ∨
      ∃ result, setTargetStatus phases arguments status = (.ok (), result) ∧
        shape result = shape phases := by
  rw [setTargetStatus]
  split
  · next task _ =>
    obtain h | ⟨result, hresult, hshape, _⟩ := setTaskStatus_cases phases task status
    · exact .inl h
    · exact .inr ⟨result, hresult, hshape⟩
  · split
    · exact .inl ⟨_, rfl⟩
    · dsimp only
      split
      · next result hresult =>
        obtain ⟨front, phase, back, rfl, -, rfl⟩ := exists_of_updatePhase hresult
        refine .inr ⟨_, rfl, ?_⟩
        simp [shape]
      · exact .inl ⟨_, rfl⟩

theorem tasksFromValue_ne_nil {value : Json} {field : String}
    (h : tasksFromValue value field = .ok tasks) : tasks ≠ [] := by
  rw [tasksFromValue] at h
  split at h
  · next items hitems =>
    have hne : items.isEmpty = false := by
      have hsome := (Option.filter_eq_some_iff.1 hitems).2
      simpa using hsome
    have hlength := (mapM_eq_ok_iff.1 h).length_eq
    rintro rfl
    rw [List.length_nil, List.length_eq_zero_iff] at hlength
    rw [hlength] at hne
    cases hne
  · cases h

theorem mapM_phaseFromValue_ne_nil {values : List Json}
    (h : List.Forall₂ (fun value phase => phaseFromValue value "phase" = .ok phase) values phases) :
    ∀ phase ∈ phases, phase.tasks ≠ [] := by
  induction h with
  | nil => exact fun _ hmem => absurd hmem List.not_mem_nil
  | cons hphase _ ih =>
    refine List.forall_mem_cons.2 ⟨?_, ih⟩
    rw [phaseFromValue] at hphase
    obtain ⟨name, -, hrest⟩ := Outcome.bind_eq_ok.1 hphase
    obtain ⟨tasks, htasks, hphase⟩ := Outcome.bind_eq_ok.1 hrest
    cases hphase
    exact tasksFromValue_ne_nil htasks

theorem initialization_ne_nil (h : initialization arguments = .ok phases) :
    ∀ phase ∈ phases, phase.tasks ≠ [] := by
  rw [initialization] at h
  split at h
  · next list hlist =>
    split at h
    · cases h
    · exact mapM_phaseFromValue_ne_nil (mapM_eq_ok_iff.1 h)
  · cases htasks : tasksFromValue arguments "items" with
    | error error =>
      rw [htasks] at h
      cases h
    | ok tasks =>
      rw [htasks] at h
      cases h
      intro phase hphase
      obtain rfl := List.mem_singleton.1 hphase
      exact tasksFromValue_ne_nil htasks

theorem initializeList_cases (phases : List TodoPhase) (arguments : Json) :
    (∃ error, initializeList phases arguments = (.error error, phases)) ∨
      ∃ result, initializeList phases arguments = (.ok (), result) ∧ Clean result := by
  rw [initializeList]
  split
  · exact .inl ⟨_, rfl⟩
  · next replacement hreplacement =>
    split
    · exact .inl ⟨_, rfl⟩
    · next hvalid =>
      obtain ⟨hnames, hcontents⟩ := validateUnique_eq_ok_iff.1 hvalid
      exact .inr ⟨_, rfl, hnames, hcontents, initialization_ne_nil hreplacement⟩

/-- An append adds its tasks, in a new phase or at the end of an old one. -/
theorem appended_spec (hclean : Clean phases) (name : String) (hne : additions ≠ []) :
    ((appended phases name additions).map (·.name)).Nodup ∧
      (allTasks (appended phases name additions)).Perm (allTasks phases ++ additions) ∧
      ∀ phase ∈ appended phases name additions, phase.tasks ≠ [] := by
  rw [appended]
  cases hupdate : updatePhase name (fun phase => { phase with tasks := phase.tasks ++ additions })
      phases with
  | none =>
    have hnew := updatePhase_eq_none_iff.1 hupdate
    rw [Option.getD_none]
    refine ⟨?_, ?_, ?_⟩
    · rw [List.map_append, List.nodup_append']
      refine ⟨hclean.names, List.nodup_singleton _, ?_⟩
      rw [List.map_singleton, List.disjoint_singleton, List.mem_map]
      rintro ⟨phase, hphase, hname⟩
      exact hnew phase hphase hname
    · rw [allTasks_append, allTasks_cons]
      show (allTasks phases ++ (additions ++ [])).Perm _
      rw [List.append_nil]
    · intro phase hphase
      obtain hphase | hphase := List.mem_append.1 hphase
      · exact hclean.tasks phase hphase
      · obtain rfl := List.mem_singleton.1 hphase
        exact hne
  | some result =>
    obtain ⟨front, phase, back, rfl, -, rfl⟩ := exists_of_updatePhase hupdate
    rw [Option.getD_some]
    refine ⟨?_, ?_, ?_⟩
    · have hnames := hclean.names
      rw [List.map_append, List.map_cons] at hnames ⊢
      exact hnames
    · rw [allTasks_append, allTasks_append, allTasks_cons, allTasks_cons, List.append_assoc,
        List.append_assoc, List.append_assoc]
      exact (List.perm_append_comm.append_left phase.tasks).append_left (allTasks front)
    · intro other hother
      obtain hother | hother := List.mem_append.1 hother
      · exact hclean.tasks other (List.mem_append_left _ hother)
      · obtain rfl | hother := List.mem_cons.1 hother
        · exact List.append_ne_nil_of_right_ne_nil _ hne
        · exact hclean.tasks other (List.mem_append_right _ (List.mem_cons_of_mem _ hother))

theorem removed_cases {task : TodoItem} {new : List TodoItem}
    (h : removed content task = some new) : new = [] := by
  rw [removed] at h
  split at h
  · cases h
    rfl
  · cases h

/-- A list without some phases and tasks of a clean list. -/
theorem Clean.sublist (h : Clean phases) (hnames : (result.map (·.name)).Sublist (phases.map (·.name)))
    (htasks : (allTasks result).Sublist (allTasks phases)) (hne : ∀ phase ∈ result, phase.tasks ≠ []) :
    Clean result :=
  ⟨h.names.sublist hnames, h.contents.sublist (htasks.map _), hne⟩

theorem removeTarget_cases (hclean : Clean phases) (arguments : Json) :
    (∃ error, removeTarget phases arguments = (.error error, phases)) ∨
      ∃ result, removeTarget phases arguments = (.ok (), result) ∧ Clean result := by
  rw [removeTarget]
  split
  · next content _ =>
    split
    · next result hresult =>
      obtain ⟨front, phase, back, before, task, after, new, rfl, hsplit, htask, rfl⟩ :=
        exists_of_updateTask hresult
      obtain rfl := removed_cases htask
      refine .inr ⟨_, rfl, hclean.sublist ?_ ?_ fun other hother => ?_⟩
      · refine (List.filter_sublist.map _).trans ?_
        rw [List.map_append, List.map_append, List.map_cons, List.map_cons]
      · refine (List.filter_sublist.flatMap _).trans ?_
        show (allTasks (front ++ { phase with tasks := before ++ [] ++ after } :: back)).Sublist _
        rw [allTasks_append, allTasks_append, allTasks_cons, allTasks_cons, hsplit, List.append_nil]
        have hcut : (before ++ after).Sublist (before ++ task :: after) :=
          (List.sublist_cons_self task after).append_left before
        exact (hcut.append_right _).append_left _
      · have hsome := (List.mem_filter.1 hother).2
        simpa using hsome
    · exact .inl ⟨_, rfl⟩
  · split
    · next name _ =>
      dsimp only
      split
      · refine .inr ⟨_, rfl, hclean.sublist (List.filter_sublist.map _) ?_ fun other hother => ?_⟩
        · exact List.filter_sublist.flatMap _
        · exact hclean.tasks other (List.mem_of_mem_filter hother)
      · next hlength =>
        refine .inl ⟨"todo phase not found: " ++ name, ?_⟩
        have hall : (phases.filter (·.name != name)).length = phases.length :=
          le_antisymm (List.length_filter_le _ _) (Nat.le_of_not_lt hlength)
        rw [(List.filter_sublist).eq_of_length hall]
    · refine .inr ⟨_, rfl, List.nodup_nil, List.nodup_nil, ?_⟩
      exact fun _ hmem => absurd hmem List.not_mem_nil

/-! ## Operations -/

/-- An append is accepted exactly if it adds no task a second time. -/
theorem append_cases (hclean : Clean phases) (hop : requiredText arguments "op" = .ok "append") :
    (∃ error, append phases arguments = (.error error, phases) ∧
        ¬AppendsDuplicate phases arguments) ∨
      (∃ result, append phases arguments = (.ok (), result) ∧ Clean result ∧
        ¬AppendsDuplicate phases arguments) ∨
      ∃ error result, append phases arguments = (.error error, result) ∧ result ≠ phases ∧
        AppendsDuplicate phases arguments := by
  rw [append]
  cases hname : requiredText arguments "phase" with
  | error error =>
    refine .inl ⟨error, rfl, fun h => ?_⟩
    obtain ⟨_, name, _, hok, _⟩ := h
    cases hname.symm.trans hok
  | ok name =>
    cases hitems : tasksFromValue arguments "items" with
    | error error =>
      refine .inl ⟨error, rfl, fun h => ?_⟩
      obtain ⟨_, _, additions, _, hok, _⟩ := h
      cases hitems.symm.trans hok
    | ok additions =>
      have hne := tasksFromValue_ne_nil hitems
      obtain ⟨hnames, hperm, htasks⟩ := appended_spec hclean name hne
      have hdup : AppendsDuplicate phases arguments ↔
          ¬((allTasks (appended phases name additions)).map (·.content)).Nodup := by
        rw [(hperm.map _).nodup_iff]
        constructor
        · rintro ⟨_, _, additions', _, hitems', hdup⟩
          cases hitems.symm.trans hitems'
          exact hdup
        · exact fun h => ⟨hop, name, additions, hname, hitems, h⟩
      dsimp only
      cases hvalid : validateUnique (appended phases name additions) with
      | ok _ =>
        obtain ⟨_, hcontents⟩ := validateUnique_eq_ok_iff.1 hvalid
        exact .inr (.inl ⟨_, rfl, ⟨hnames, hcontents, htasks⟩, fun h => hdup.1 h hcontents⟩)
      | error error =>
        refine .inr (.inr ⟨error, _, rfl, fun heq => ?_, hdup.2 fun hcontents => ?_⟩)
        · have hlength := hperm.length_eq
          rw [heq, List.length_append] at hlength
          exact hne (List.length_eq_zero_iff.1 (by omega))
        · cases hvalid.symm.trans (validateUnique_eq_ok_iff.2 ⟨hnames, hcontents⟩)

/-- What a change does to a clean list: it is refused and leaves the list, it is accepted and keeps
the list clean, or it is an append of a duplicate. -/
theorem change_cases (hclean : Clean phases) {op : String}
    (hop : requiredText arguments "op" = .ok op) :
    (∃ error, change phases arguments op = (.error error, phases) ∧
        ¬AppendsDuplicate phases arguments) ∨
      (∃ result, change phases arguments op = (.ok (), result) ∧ Clean result ∧
        ¬AppendsDuplicate phases arguments) ∨
      ∃ error result, change phases arguments op = (.error error, result) ∧ result ≠ phases ∧
        AppendsDuplicate phases arguments := by
  by_cases happend : op = "append"
  · subst happend
    exact append_cases hclean hop
  · have hno : ¬AppendsDuplicate phases arguments := by
      rintro ⟨h, _⟩
      cases hop.symm.trans h
      exact happend rfl
    have hkeep : ∀ {r : Except String Unit × List TodoPhase},
        ((∃ error, r = (.error error, phases)) ∨ ∃ result, r = (.ok (), result) ∧ Clean result) →
        (∃ error, r = (.error error, phases) ∧ ¬AppendsDuplicate phases arguments) ∨
          (∃ result, r = (.ok (), result) ∧ Clean result ∧ ¬AppendsDuplicate phases arguments) ∨
          ∃ error result, r = (.error error, result) ∧ result ≠ phases ∧
            AppendsDuplicate phases arguments := by
      rintro r (⟨error, h⟩ | ⟨result, h, hresult⟩)
      · exact .inl ⟨error, h, hno⟩
      · exact .inr (.inl ⟨result, h, hresult, hno⟩)
    have hshape : ∀ {r : Except String Unit × List TodoPhase},
        ((∃ error, r = (.error error, phases)) ∨
          ∃ result, r = (.ok (), result) ∧ shape result = shape phases) →
        (∃ error, r = (.error error, phases)) ∨ ∃ result, r = (.ok (), result) ∧ Clean result :=
      fun h => h.imp_right fun ⟨result, hresult, hsame⟩ => ⟨result, hresult, hclean.of_shape hsame⟩
    refine hkeep ?_
    unfold change
    split
    · exact .inr ⟨phases, rfl, hclean⟩
    · exact initializeList_cases phases arguments
    · exact absurd rfl happend
    · split
      · exact .inl ⟨_, rfl⟩
      · next task _ =>
        obtain h | ⟨result, hresult, hsame, _⟩ := setTaskStatus_cases phases task .inProgress
        · exact .inl h
        · exact hshape (.inr ⟨result, hresult, hsame⟩)
    · exact hshape (setTargetStatus_cases phases arguments .completed)
    · exact hshape (setTargetStatus_cases phases arguments .abandoned)
    · exact removeTarget_cases hclean arguments
    · exact .inl ⟨_, rfl⟩

/-- What an operation answers on a clean list, and the list after it. -/
theorem applyOperation_cases (hclean : Clean phases) (arguments : Json) :
    (∃ error, applyOperation phases arguments = (.error error, phases) ∧
        ¬AppendsDuplicate phases arguments) ∨
      (∃ op changed result, requiredText arguments "op" = .ok op ∧
        change phases arguments op = (.ok (), changed) ∧ Clean changed ∧
        result = (if op = "view" ∨ op = "start" then changed else promoteNextTask changed) ∧
        applyOperation phases arguments = (.ok (renderPhases result), result) ∧
        ¬AppendsDuplicate phases arguments) ∨
      ∃ error result, applyOperation phases arguments = (.error error, result) ∧ result ≠ phases ∧
        AppendsDuplicate phases arguments := by
  rw [applyOperation]
  cases hop : requiredText arguments "op" with
  | error error =>
    refine .inl ⟨error, rfl, fun h => ?_⟩
    cases hop.symm.trans h.1
  | ok op =>
    dsimp only
    obtain ⟨error, h, hno⟩ | ⟨changed, h, hchanged, hno⟩ | ⟨error, result, h, hne, hdup⟩ :=
      change_cases hclean hop
    · rw [h]
      exact .inl ⟨error, rfl, hno⟩
    · refine .inr (.inl ⟨op, changed, _, rfl, h, hchanged, rfl, ?_, hno⟩)
      rw [h]
    · rw [h]
      exact .inr (.inr ⟨error, result, rfl, hne, hdup⟩)

theorem applyOperation_clean (hclean : Clean phases) (hno : ¬AppendsDuplicate phases arguments) :
    Clean (applyOperation phases arguments).2 := by
  obtain ⟨error, h, _⟩ | ⟨op, changed, result, _, _, hchanged, hresult, h, _⟩ |
    ⟨error, result, _, _, hdup⟩ := applyOperation_cases hclean arguments
  · rw [h]
    exact hclean
  · rw [h, hresult]
    show Clean (ite _ _ _)
    split
    · exact hchanged
    · exact hchanged.of_shape (promoteNextTask_spec changed).1
  · exact absurd hdup hno

/-- A task whose status is set before a promotion keeps it, unless it is set to pending. -/
theorem OnlyTask.promoteNextTask {changed : List TodoPhase} (hstatus : status ≠ .pending)
    (h : OnlyTask content status phases changed)
    (hothers : ∀ task ∈ allTasks changed, task.content ≠ content → task ∈ allTasks phases) :
    OnlyTask content status phases (promoteNextTask changed) := by
  obtain ⟨hshape, htasks, _⟩ := promoteNextTask_spec changed
  refine ⟨hshape.trans h.shape, fun task htask hcontent => ?_, fun task htask hcontent => ?_⟩
  · obtain hkept | hstarted := htasks task htask
    · exact h.target task hkept hcontent
    · exact absurd (h.target _ hstarted.pending hcontent).symm hstatus
  · obtain hkept | hstarted := htasks task htask
    · exact .inl (hothers task hkept hcontent)
    · exact .inr ⟨hstarted.status, hothers _ hstarted.pending hcontent, hstarted.only⟩

/-- An accepted change that sets the status of a task sets no other. -/
theorem change_only (hclean : Clean phases) {op : String} {changed : List TodoPhase}
    (hop : requiredText arguments "op" = .ok op)
    (h : change phases arguments op = (.ok (), changed))
    (hsets : SetsTask arguments content status) :
    OnlyTask content status phases
      (if op = "view" ∨ op = "start" then changed else promoteNextTask changed) := by
  have hset : setTaskStatus phases content status = (.ok (), changed) →
      OnlyTask content status phases changed ∧
        ∀ task ∈ allTasks changed, task.content ≠ content → task ∈ allTasks phases := by
    intro hset
    obtain ⟨hshape, htarget, hothers⟩ := setTaskStatus_spec hclean hset
    exact ⟨⟨hshape, htarget, fun task htask hne => .inl (hothers task htask hne)⟩, hothers⟩
  have htarget : (field? arguments "task").bind asStr? = some content →
      setTargetStatus phases arguments status = setTaskStatus phases content status := by
    intro htask
    rw [setTargetStatus, htask]
  obtain ⟨hstart, htask, rfl⟩ | ⟨htask, ⟨hdone, rfl⟩ | ⟨hdrop, rfl⟩⟩ := hsets
  · cases hop.symm.trans hstart
    rw [if_pos (.inr rfl)]
    refine (hset ?_).1
    rw [← h, change, htask]
  · cases hop.symm.trans hdone
    rw [if_neg (by decide)]
    obtain ⟨honly, hothers⟩ := hset (by rw [← htarget htask, ← h, change])
    exact honly.promoteNextTask (by decide) hothers
  · cases hop.symm.trans hdrop
    rw [if_neg (by decide)]
    obtain ⟨honly, hothers⟩ := hset (by rw [← htarget htask, ← h, change])
    exact honly.promoteNextTask (by decide) hothers

/-- An operation on a clean list keeps its promises exactly if it appends no task twice. -/
theorem operationHolds_iff (hclean : Clean phases) :
    OperationHolds phases arguments ↔ ¬AppendsDuplicate phases arguments := by
  obtain ⟨error, h, hno⟩ | ⟨op, changed, result, hop, hchange, hchanged, hresult, h, hno⟩ |
    ⟨error, result, h, hne, hdup⟩ := applyOperation_cases hclean arguments
  · refine iff_of_true ⟨fun _ _ => by rw [h], fun output hok => ?_, fun output _ _ hok => ?_⟩ hno
    · rw [h] at hok
      cases hok
    · rw [h] at hok
      cases hok
  · refine iff_of_true ⟨fun error herror => ?_, fun output _ hview hstart => ?_,
      fun output content status _ hsets => ?_⟩ hno
    · rw [h] at herror
      cases herror
    · have hpromotes : ¬(op = "view" ∨ op = "start") := by
        rintro (rfl | rfl)
        · exact hview hop
        · exact hstart hop
      rw [if_neg hpromotes] at hresult
      rw [h, hresult]
      exact (promoteNextTask_spec changed).2.2
    · rw [h, hresult]
      exact change_only hclean hop hchange hsets
  · refine iff_of_false (fun holds => hne ?_) fun hno => hno hdup
    have hrefused := holds.refused error (congrArg Prod.fst h)
    rw [h] at hrefused
    exact hrefused

/-! ## Runs -/

theorem clean_nil : Clean [] :=
  ⟨List.nodup_nil, List.nodup_nil, fun _ h => absurd h List.not_mem_nil⟩

/-- From an empty list, operations without an append of a duplicate keep the list clean, and there
every operation but such an append keeps its promises. -/
theorem todo_faithful (operations : List Json) (phases : List TodoPhase)
    (hrun : orderlyTodo.Run [] operations phases) :
    Clean phases ∧ ∀ arguments, OperationHolds phases arguments ↔
      ¬AppendsDuplicate phases arguments := by
  have hclean : Clean phases := by
    refine hrun.invariant (fun hstep hclean => ?_) clean_nil
    obtain ⟨hno, rfl⟩ := hstep
    exact applyOperation_clean hclean hno
  exact ⟨hclean, fun arguments => operationHolds_iff hclean⟩

/-- Operations on the task `a`. -/
def initTask : Json := .obj [("op", .str "init"), ("items", .arr [.str "a"])]

def appendTask : Json :=
  .obj [("op", .str "append"), ("phase", .str "p"), ("items", .arr [.str "a"])]

/-- The list after its initialization. -/
def taskList : List TodoPhase := [⟨"Todos", [⟨"a", .inProgress⟩]⟩]

theorem applyOperation_initTask : (applyOperation [] initTask).2 = taskList := by decide

theorem todo_faithful_init :
    Clean taskList ∧
      (OperationHolds taskList appendTask ↔ ¬AppendsDuplicate taskList appendTask) := by
  have hrun : orderlyTodo.Run [] [initTask] taskList :=
    .single ⟨fun h => absurd h.1 (by decide), applyOperation_initTask⟩
  obtain ⟨hclean, hholds⟩ := todo_faithful [initTask] taskList hrun
  exact ⟨hclean, hholds appendTask⟩

/-- An append of a task that is in the list is refused, and the task is added. -/
theorem refused_append_adds :
    ¬∀ operations phases, todo.Run [] operations phases →
      Clean phases ∧ ∀ arguments, OperationHolds phases arguments := by
  intro h
  have hrun : todo.Run [] [initTask] taskList := .single applyOperation_initTask
  have hrefused := ((h _ _ hrun).2 appendTask).refused "duplicate todo task: a" (by decide)
  exact absurd hrefused (by decide)

end Nakode.Tools
