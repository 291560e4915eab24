import Nakode.Activation.Lease

/-!
# Who holds an activation lease

Two live tasks hold one lease at a time only where a health check has rejected the lock of one of
them, and a live holder's lock is unlinked by nobody else but for that (`Sound`). This rests on two
things that the locks themselves do not provide (`undisturbed`): that nothing happens to a file
between its last read and its removal, and that no file is removed while its creator is about to
write it. A lock that its holder has left by dying is taken by the next `acquire`.
-/

namespace Nakode.Activation

open Transition

namespace Phase

/-- The task has created its file, or has given up. It creates none any more. -/
def past : Phase → Bool
  | writing _ | holding _ | releasing _ _ | finished => true
  | _ => false

/-- The owner that a task has drawn up. -/
def owner : Phase → Option Owner
  | writing owner | holding owner | releasing owner _ => some owner
  | _ => none

/-- `acquire` has returned the lease, and the drop has not unlinked it. -/
def held : Phase → Bool
  | holding _ | releasing _ _ => true
  | _ => false

def isWriting : Phase → Bool
  | writing _ => true
  | _ => false

/-- The file that the next step unlinks, as it was read last. -/
def removes : Phase → Option LockFile
  | releasing _ seen | unlinking _ seen => some seen
  | _ => none

/-- The rounds that are left. -/
def left : Phase → Nat
  | trying left | examining left | aging left _ | rechecking left _ | unlinking left _ => left
  | observing left => left
  | identifying (.recheck left _) | dating (.recheck left _) _ | probing (.recheck left _) _ => left
  | _ => 0

end Phase

namespace Leases

variable {s s' : Leases} {t u : Nat} {task : Task} {kind : LeaseKind} {file seen : LockFile}

/-- A live task that has got the lease and has not dropped it. -/
def Holder (s : Leases) (kind : LeaseKind) (t : Nat) : Prop :=
  ∃ task, s.alive t = some task ∧ task.lease = kind ∧ task.phase.held = true

instance (s : Leases) (kind : LeaseKind) (t : Nat) : Decidable (Holder s kind t) :=
  decidable_of_iff ((s.alive t).any fun task => task.lease = kind && task.phase.held) (by
    simp [Holder, Option.any_eq_true])

/-- The creator of a file is about to write it. -/
def unwritten (s : Leases) (file : LockFile) : Bool :=
  (s.alive file.creator).any (·.phase.isWriting)

/-- Nothing happens to a file between its last read and its removal, and none is removed that its
creator is about to write. The instances of helpers are distinct. -/
def Undisturbed (s : Leases) : Act → Prop
  | .start _ _ job => ∀ instanceId ∈ job.drawn, instanceId ∉ s.instances
  | .move t => ∀ task ∈ s.alive t, ∀ seen ∈ task.phase.removes, ∀ file ∈ s.file task.lease,
      file = seen ∧ s.unwritten file = false
  | _ => True

instance (s : Leases) (act : Act) : Decidable (s.Undisturbed act) := by
  cases act <;> unfold Undisturbed <;> infer_instance

/-! ## What a step leaves as it is -/

/-- The state after another one: tasks, deaths and verdicts stay, and a file at a path is the one
before, perhaps written since, or new. -/
structure Evolves (s s' : Leases) : Prop where
  task : ∀ t task, s.task t = some task → ∃ task', s'.task t = some task' ∧
    task'.pid = task.pid ∧ task'.job = task.job ∧ (task.phase.past = true → task'.phase.past = true)
  dead : s.dead ⊆ s'.dead
  condemned : s.condemned ⊆ s'.condemned
  file : ∀ kind file', s'.file kind = some file' →
    (∃ file, s.file kind = some file ∧ file.creator = file'.creator ∧
      (file.owner = none ∨ file.owner = file'.owner)) ∨
    ∀ task, s.task file'.creator = some task → task.phase.past = false

/-- An owner is the one of a task. The mark of a helper's is its instance. -/
def Signed (task : Task) (owner : Owner) : Prop :=
  owner.pid = task.pid ∧ (task.lease = .helper → task.job = .helper owner.mark)

/-- A file that the path holds or has held, with the owner that its creator wrote. -/
def Known (s : Leases) (kind : LeaseKind) (file : LockFile) : Prop :=
  ∃ task, s.task file.creator = some task ∧ task.lease = kind ∧ task.phase.past = true ∧
    ∀ owner ∈ file.owner, Signed task owner

/-- What the path holds is not a file, or no longer. -/
def Gone (s : Leases) (kind : LeaseKind) (file : LockFile) : Prop :=
  ∀ file' ∈ s.file kind, file'.creator ≠ file.creator

/-- A file that was read: if it is still there, then with the bytes that were read. -/
structure Seen (s : Leases) (kind : LeaseKind) (seen : LockFile) : Prop where
  known : Known s kind seen
  bytes : ∀ file ∈ s.file kind, file.creator = seen.creator →
    seen.owner = none ∨ file.owner = seen.owner

/-- A file that may be removed: nobody wrote it, or its owner has died. A helper's was found
unhealthy, or it is not there any more. -/
def Cleared (s : Leases) (kind : LeaseKind) (seen : LockFile) : Prop :=
  seen.owner = none ∨ (∃ owner, seen.owner = some owner ∧ owner.pid ∈ s.dead) ∨
    (kind = .helper ∧ (seen.creator ∈ s.condemned ∨ Gone s kind seen))

variable (hev : Evolves s s')
include hev

theorem Known.evolves (h : Known s kind file) : Known s' kind file := by
  obtain ⟨task, htask, hkind, hpast, howner⟩ := h
  obtain ⟨task', htask', hpid, hjob, hmono⟩ := hev.task _ _ htask
  refine ⟨task', htask', by rw [← hkind, Task.lease, Task.lease, hjob], hmono hpast, ?_⟩
  intro owner ho
  obtain ⟨h1, h2⟩ := howner owner ho
  exact ⟨h1.trans hpid.symm, by simpa only [Signed, Task.lease, hjob] using h2⟩

/-- The files of a path before and after: a known creator does not create another one. -/
theorem Known.file_evolves (h : Known s kind seen) {file' : LockFile}
    (hfile : s'.file kind = some file') (heq : file'.creator = seen.creator) :
    ∃ file, s.file kind = some file ∧ file.creator = seen.creator ∧
      (file.owner = none ∨ file.owner = file'.owner) := by
  rcases hev.file kind file' hfile with ⟨file, hf, hc, ho⟩ | hnew
  · exact ⟨file, hf, hc.trans heq, ho⟩
  · obtain ⟨task, htask, -, hpast, -⟩ := h
    rw [hnew task (by rw [heq]; exact htask)] at hpast
    cases hpast

theorem Gone.evolves (h : Gone s kind seen) (hknown : Known s kind seen) : Gone s' kind seen := by
  intro file' hfile' heq
  obtain ⟨file, hfile, hcreator, -⟩ := hknown.file_evolves hev hfile' heq
  exact h file hfile hcreator

theorem Seen.evolves (h : Seen s kind seen) : Seen s' kind seen := by
  refine ⟨h.known.evolves hev, ?_⟩
  intro file' hfile' heq
  obtain ⟨file, hfile, hcreator, ho⟩ := h.known.file_evolves hev hfile' heq
  rcases h.bytes file hfile hcreator with hnone | hsame
  · exact .inl hnone
  · rcases ho with ho | ho
    · exact .inl (hsame.symm.trans ho)
    · exact .inr (ho.symm.trans hsame)

theorem Cleared.evolves (h : Cleared s kind seen) (hknown : Known s kind seen) :
    Cleared s' kind seen := by
  rcases h with hnone | ⟨owner, ho, hdead⟩ | ⟨hkind, hc | hgone⟩
  · exact .inl hnone
  · exact .inr (.inl ⟨owner, ho, hev.dead hdead⟩)
  · exact .inr (.inr ⟨hkind, .inl (hev.condemned hc)⟩)
  · exact .inr (.inr ⟨hkind, .inr (hgone.evolves hev hknown)⟩)

omit hev

/-! ## The invariant -/

/-- What a health check comes back to: the file that was read before it. A lock that the check has
looked at since is the same one, or that one is gone. -/
def Resumes (s : Leases) (kind : LeaseKind) (lock : Option LockFile) : Verdict → Prop
  | .recheck _ (some seen) => Seen s kind seen ∧
      ∀ file ∈ lock, file.creator = seen.creator ∨ Gone s kind seen
  | _ => True

/-- What a task relies on where it is. -/
def Warranted (s : Leases) (kind : LeaseKind) : Phase → Prop
  | .releasing owner seen => Seen s kind seen ∧ seen.owner = some owner
  | .aging _ seen => Seen s kind seen ∧ seen.owner = none
  | .identifying next => kind = .helper ∧ Resumes s kind none next
  | .dating next lock | .probing next lock => kind = .helper ∧ Resumes s kind (some lock) next
  | .rechecking _ seen | .unlinking _ seen => Seen s kind seen ∧ Cleared s kind seen
  | .observing _ | .reclaiming => kind = .helper
  | _ => True

/-- While a task is alive, the file that it created is at the path: without an owner until it is
written, then with the task's own, unless a health check has rejected it. -/
def Owns (s : Leases) (t : Nat) (task : Task) : Prop :=
  task.pid ∉ s.dead →
    (task.phase.isWriting = true →
      ∃ file, s.file task.lease = some file ∧ file.creator = t ∧ file.owner = none) ∧
    (task.phase.held = true → (task.lease = .helper ∧ t ∈ s.condemned) ∨
      ∃ file, s.file task.lease = some file ∧ file.creator = t ∧ file.owner = task.phase.owner)

/-- What holds of one task. -/
structure Fit (s : Leases) (t : Nat) (task : Task) : Prop where
  pid : task.pid < 2 ^ 31
  left : task.phase.left ≤ task.job.attempts
  signed : ∀ owner ∈ task.phase.owner, Signed task owner
  warranted : Warranted s task.lease task.phase
  owns : Owns s t task

/-- The invariant of the leases. -/
structure Sound (s : Leases) : Prop where
  known : ∀ kind file, s.file kind = some file → Known s kind file
  fit : ∀ t task, s.task t = some task → Fit s t task
  drawn : ∀ t task instanceId, s.task t = some task → task.job = .helper instanceId →
    instanceId ∈ s.instances
  distinct : ∀ t u task task' instanceId, s.task t = some task → s.task u = some task' →
    task.job = .helper instanceId → task'.job = .helper instanceId → t = u

theorem Resumes.evolves (hev : Evolves s s') {lock : Option LockFile} {next : Verdict}
    (h : Resumes s kind lock next) : Resumes s' kind lock next := by
  unfold Resumes at h ⊢
  split at h
  · refine ⟨h.1.evolves hev, fun file hfile => ?_⟩
    exact (h.2 file hfile).imp_right fun hgone => hgone.evolves hev h.1.known
  · trivial

theorem Warranted.evolves (hev : Evolves s s') {phase : Phase} (h : Warranted s kind phase) :
    Warranted s' kind phase := by
  cases phase with
  | releasing owner seen => exact ⟨h.1.evolves hev, h.2⟩
  | aging left seen => exact ⟨h.1.evolves hev, h.2⟩
  | identifying next => exact ⟨h.1, h.2.evolves hev⟩
  | dating next lock => exact ⟨h.1, h.2.evolves hev⟩
  | probing next lock => exact ⟨h.1, h.2.evolves hev⟩
  | rechecking left seen => exact ⟨h.1.evolves hev, h.2.evolves hev h.1.known⟩
  | unlinking left seen => exact ⟨h.1.evolves hev, h.2.evolves hev h.1.known⟩
  | _ => exact h

theorem alive_eq_some : s.alive t = some task ↔ s.task t = some task ∧ task.pid ∉ s.dead := by
  simp [alive, Option.filter_eq_some_iff]

/-- The written bytes of a helper's file tell who created it. -/
theorem Sound.creator_eq (h : Sound s) {file : LockFile} {owner : Owner}
    (hfile : Known s .helper file) (hseen : Known s .helper seen) (ho : file.owner = some owner)
    (ho' : seen.owner = some owner) : file.creator = seen.creator := by
  obtain ⟨task, htask, hkind, -, hsigned⟩ := hfile
  obtain ⟨task', htask', hkind', -, hsigned'⟩ := hseen
  exact h.distinct _ _ _ _ owner.mark htask htask' ((hsigned owner ho).2 hkind)
    ((hsigned' owner ho').2 hkind')

/-- Who owns a file that may be removed: nobody alive, unless it was found unhealthy or its creator
is about to write it. -/
theorem Sound.spared (h : Sound s) (hcleared : Cleared s kind file)
    (hfile : s.file kind = some file) (hwritten : s.unwritten file = false)
    (hu : s.alive file.creator = some task) (hkind : task.lease = kind) :
    task.phase.isWriting = false ∧
      (task.phase.held = true → kind = .helper ∧ file.creator ∈ s.condemned) := by
  obtain ⟨htask, halive⟩ := alive_eq_some.1 hu
  refine ⟨by simpa [unwritten, hu] using hwritten, fun hheld => ?_⟩
  have hfit := h.fit _ _ htask
  rcases (hfit.owns halive).2 hheld with ⟨hhelper, hc⟩ | ⟨file', hfile', -, howner⟩
  · exact ⟨hkind.symm.trans hhelper, hc⟩
  rw [hkind, hfile] at hfile'
  cases hfile'
  -- The owner is the task's own, so it is there and alive.
  obtain ⟨owner, howner'⟩ : ∃ owner, task.phase.owner = some owner := by
    cases hp : task.phase <;> simp_all [Phase.held, Phase.owner]
  have hsigned := hfit.signed owner howner'
  rcases hcleared with hnone | ⟨dead, hdead, hmem⟩ | ⟨hhelper, hc | hgone⟩
  · rw [howner, howner'] at hnone
    cases hnone
  · rw [howner, howner'] at hdead
    cases hdead
    rw [hsigned.1] at hmem
    exact absurd hmem halive
  · exact ⟨hhelper, hc⟩
  · exact absurd rfl (hgone file hfile)

/-! ## What one step keeps -/

/-- A task moves on to a phase. What it does to the files spares what the others own. -/
theorem Sound.moves (h : Sound s) {phase : Phase} (ht : s.alive t = some task)
    (hev : Evolves s s')
    (htask : s'.task = Function.update s.task t (some { task with phase := phase }))
    (hinstances : s'.instances = s.instances)
    (hknown : ∀ kind file, s'.file kind = some file → s.file kind = some file ∨ Known s' kind file)
    (hothers : ∀ u task', u ≠ t → s.task u = some task' → Owns s u task' → Owns s' u task')
    (hself : Fit s' t { task with phase := phase }) : Sound s' := by
  obtain ⟨htask₀, -⟩ := alive_eq_some.1 ht
  -- Each task after the step is one before it, but for its phase.
  have hback : ∀ u task', s'.task u = some task' →
      ∃ task₀, s.task u = some task₀ ∧ task'.job = task₀.job := by
    intro u task' hu
    rw [htask] at hu
    by_cases heq : u = t
    · subst heq
      rw [Function.update_self] at hu
      cases hu
      exact ⟨task, htask₀, rfl⟩
    · rw [Function.update_of_ne heq] at hu
      exact ⟨task', hu, rfl⟩
  refine ⟨?_, ?_, ?_, ?_⟩
  · intro kind file hfile
    rcases hknown kind file hfile with hold | hnew
    · exact (h.known kind file hold).evolves hev
    · exact hnew
  · intro u task' hu
    by_cases heq : u = t
    · subst heq
      rw [htask, Function.update_self] at hu
      cases hu
      exact hself
    · rw [htask, Function.update_of_ne heq] at hu
      have hfit := h.fit u task' hu
      exact ⟨hfit.pid, hfit.left, hfit.signed, hfit.warranted.evolves hev,
        hothers u task' heq hu hfit.owns⟩
  · intro u task' instanceId hu hjob
    obtain ⟨task₀, hu₀, hjob₀⟩ := hback u task' hu
    rw [hinstances]
    exact h.drawn u task₀ instanceId hu₀ (hjob₀.symm.trans hjob)
  · intro u v task₁ task₂ instanceId hu hv hjob₁ hjob₂
    obtain ⟨_, hu₀, hj₁⟩ := hback u task₁ hu
    obtain ⟨_, hv₀, hj₂⟩ := hback v task₂ hv
    exact h.distinct u v _ _ instanceId hu₀ hv₀ (hj₁.symm.trans hjob₁) (hj₂.symm.trans hjob₂)

/-- The tasks after one of them has moved. -/
theorem evolves_task {phase : Phase} (ht : s.task t = some task)
    (hpast : task.phase.past = true → phase.past = true) (u : Nat) (task₀ : Task)
    (hu : s.task u = some task₀) :
    ∃ task', Function.update s.task t (some { task with phase := phase }) u = some task' ∧
      task'.pid = task₀.pid ∧ task'.job = task₀.job ∧
      (task₀.phase.past = true → task'.phase.past = true) := by
  by_cases heq : u = t
  · subst heq
    rw [ht] at hu
    cases hu
    exact ⟨{ task with phase := phase }, Function.update_self .., rfl, rfl, hpast⟩
  · exact ⟨task₀, by rw [Function.update_of_ne heq]; exact hu, rfl, rfl, id⟩

theorem Evolves.setPhase {phase : Phase} (ht : s.task t = some task)
    (hpast : task.phase.past = true → phase.past = true) : Evolves s (s.setPhase t task phase) :=
  ⟨evolves_task ht hpast, fun _ => id, fun _ => id,
    fun _ file' hfile => .inl ⟨file', hfile, rfl, .inr rfl⟩⟩

/-- A step that leaves the files alone. -/
theorem Sound.goes (h : Sound s) {phase : Phase} (ht : s.alive t = some task)
    (hpast : task.phase.past = true → phase.past = true)
    (hleft : phase.left ≤ task.job.attempts) (hsigned : ∀ owner ∈ phase.owner, Signed task owner)
    (hwarranted : Warranted s task.lease phase) (howns : Owns s t { task with phase := phase }) :
    Sound (s.setPhase t task phase) := by
  obtain ⟨htask, -⟩ := alive_eq_some.1 ht
  have hev : Evolves s (s.setPhase t task phase) := .setPhase htask hpast
  exact h.moves ht hev rfl rfl (fun _ _ hfile => .inl hfile) (fun _ _ _ _ howns => howns)
    ⟨(h.fit t task htask).pid, hleft, hsigned, hwarranted.evolves hev, howns⟩

/-- A step in which the task neither has nor gets anything to own. -/
theorem Sound.passes (h : Sound s) {phase : Phase} (ht : s.alive t = some task)
    (hpast : task.phase.past = false ∨ phase = .finished)
    (hleft : phase.left ≤ task.job.attempts) (howner : phase.owner = none)
    (hwarranted : Warranted s task.lease phase) : Sound (s.setPhase t task phase) := by
  refine h.goes ht ?_ hleft (by simp [howner]) hwarranted ?_
  · rcases hpast with hpast | rfl
    · simp [hpast]
    · simp [Phase.past]
  · intro _
    cases phase <;> simp_all [Phase.owner, Phase.isWriting, Phase.held]

theorem Evolves.setFile_none : Evolves s (s.setFile kind none) := by
  refine ⟨fun t task ht => ⟨task, ht, rfl, rfl, id⟩, fun _ => id, fun _ => id, ?_⟩
  intro kind' file' hfile
  by_cases heq : kind' = kind
  · subst heq
    simp [setFile] at hfile
  · exact .inl ⟨file', by simpa [setFile, heq] using hfile, rfl, .inr rfl⟩

/-- The removal of a file that no live task owns. -/
theorem Sound.unlinks (h : Sound s)
    (hfree : ∀ file ∈ s.file kind, ∀ task, s.alive file.creator = some task → task.lease = kind →
      task.phase.isWriting = false ∧
        (task.phase.held = true → kind = .helper ∧ file.creator ∈ s.condemned)) :
    Sound (s.setFile kind none) := by
  refine ⟨?_, ?_, h.drawn, h.distinct⟩
  · intro kind' file hfile
    by_cases heq : kind' = kind
    · subst heq
      simp at hfile
    · rw [setFile_of_ne heq] at hfile
      exact (h.known kind' file hfile).evolves .setFile_none
  · intro t task ht
    have hfit := h.fit t task ht
    refine ⟨hfit.pid, hfit.left, hfit.signed, hfit.warranted.evolves .setFile_none, ?_⟩
    intro halive
    obtain ⟨hwriting, hheld⟩ := hfit.owns halive
    by_cases heq : task.lease = kind
    · have hfree' : ∀ file ∈ s.file kind, file.creator = t → _ := fun file hfile hc =>
        hfree file hfile task (by rw [hc]; exact alive_eq_some.2 ⟨ht, halive⟩) heq
      refine ⟨fun hw => ?_, fun hh => ?_⟩
      · obtain ⟨file, hfile, hc, -⟩ := hwriting hw
        rw [heq] at hfile
        rw [(hfree' file hfile hc).1] at hw
        cases hw
      · rcases hheld hh with hc | ⟨file, hfile, hc, -⟩
        · exact .inl hc
        · rw [heq] at hfile
          obtain ⟨hhelper, hcond⟩ := (hfree' file hfile hc).2 hh
          exact .inl ⟨heq.trans hhelper, hc ▸ hcond⟩
    · rw [setFile_of_ne heq]
      exact ⟨hwriting, hheld⟩

/-- A task puts its own file at the path: it creates it, or it writes it. -/
theorem Sound.puts (h : Sound s) {phase : Phase} {owner : Option Owner} (ht : s.alive t = some task)
    (hmine : ∀ file ∈ s.file task.lease, file.creator = t ∧ file.owner = none)
    (hnew : s.file task.lease = none → task.phase.past = false) (hpast : phase.past = true)
    (hleft : phase.left ≤ task.job.attempts) (hsigned : ∀ owner ∈ phase.owner, Signed task owner)
    (howner : if phase.isWriting = true then owner = none else owner = phase.owner)
    (hwarranted : Warranted s task.lease phase) :
    Sound ((s.setFile task.lease (some ⟨t, owner, s.now⟩)).setPhase t task phase) := by
  obtain ⟨htask, -⟩ := alive_eq_some.1 ht
  have hsigned' : ∀ o ∈ owner, Signed task o := by
    intro o ho
    split at howner
    · subst howner
      cases ho
    · exact hsigned o (by rw [← howner]; exact ho)
  have hev : Evolves s
      ((s.setFile task.lease (some ⟨t, owner, s.now⟩)).setPhase t task phase) := by
    refine ⟨evolves_task htask fun _ => hpast, fun _ => id, fun _ => id, ?_⟩
    intro kind file' hfile
    change (s.setFile task.lease _).file kind = _ at hfile
    by_cases hkind : kind = task.lease
    · subst hkind
      rw [setFile_self] at hfile
      cases hfile
      cases hold : s.file task.lease with
      | none =>
        right
        intro task₀ ht₀
        rw [htask] at ht₀
        cases ht₀
        exact hnew hold
      | some file =>
        obtain ⟨hc, hnone⟩ := hmine file hold
        exact .inl ⟨file, rfl, hc, .inl hnone⟩
    · rw [setFile_of_ne hkind] at hfile
      exact .inl ⟨file', hfile, rfl, .inr rfl⟩
  refine h.moves ht hev rfl rfl ?_ ?_ ⟨(h.fit t task htask).pid, hleft, hsigned,
    hwarranted.evolves hev, ?_⟩
  · intro kind file hfile
    by_cases hkind : kind = task.lease
    · subst hkind
      change (s.setFile task.lease _).file _ = _ at hfile
      rw [setFile_self] at hfile
      cases hfile
      exact .inr ⟨{ task with phase := phase }, Function.update_self .., rfl, hpast, hsigned'⟩
    · exact .inl (by rw [← hfile]; exact (setFile_of_ne hkind ..).symm)
  · intro u task' hne hu howns halive
    obtain ⟨hwriting, hheld⟩ := howns halive
    -- The file of another task is not in the way, so it is at another path.
    have hkeep : ∀ file, s.file task'.lease = some file → file.creator = u →
        (s.setFile task.lease (some ⟨t, owner, s.now⟩)).file task'.lease = some file := by
      intro file hfile hc
      have hkind : task'.lease ≠ task.lease := by
        intro heq
        exact hne (hc.symm.trans (hmine file (heq ▸ hfile)).1)
      rw [setFile_of_ne hkind]
      exact hfile
    refine ⟨fun hw => ?_, fun hh => ?_⟩
    · obtain ⟨file, hfile, hc, ho⟩ := hwriting hw
      exact ⟨file, hkeep file hfile hc, hc, ho⟩
    · refine (hheld hh).imp_right ?_
      rintro ⟨file, hfile, hc, ho⟩
      exact ⟨file, hkeep file hfile hc, hc, ho⟩
  · intro _
    have hfile : (s.setFile task.lease (some ⟨t, owner, s.now⟩)).file task.lease =
        some ⟨t, owner, s.now⟩ := setFile_self ..
    refine ⟨fun hw => ⟨_, hfile, rfl, ?_⟩, fun hh => .inr ⟨_, hfile, rfl, ?_⟩⟩
    · simpa [hw] using howner
    · have hw : phase.isWriting = false := by
        cases phase <;> simp_all [Phase.isWriting, Phase.held]
      simpa [hw] using howner

theorem Evolves.of_eq (htask : s'.task = s.task) (hfile : s'.file = s.file)
    (hdead : s.dead ⊆ s'.dead) (hcondemned : s.condemned ⊆ s'.condemned) : Evolves s s' :=
  ⟨fun t task ht => ⟨task, by rw [htask]; exact ht, rfl, rfl, id⟩, hdead, hcondemned,
    fun _ file' hfile' => .inl ⟨file', by rw [← hfile]; exact hfile', rfl, .inr rfl⟩⟩

/-- A step that only lets processes die, rejects locks or sets the clock. -/
theorem Sound.of_eq (h : Sound s) (htask : s'.task = s.task) (hfile : s'.file = s.file)
    (hinstances : s'.instances = s.instances) (hdead : s.dead ⊆ s'.dead)
    (hcondemned : s.condemned ⊆ s'.condemned) : Sound s' := by
  have hev := Evolves.of_eq htask hfile hdead hcondemned
  refine ⟨?_, ?_, ?_, ?_⟩
  · intro kind file hf
    rw [hfile] at hf
    exact (h.known kind file hf).evolves hev
  · intro t task ht
    rw [htask] at ht
    have hfit := h.fit t task ht
    refine ⟨hfit.pid, hfit.left, hfit.signed, hfit.warranted.evolves hev, fun halive => ?_⟩
    obtain ⟨hwriting, hheld⟩ := hfit.owns fun hd => halive (hdead hd)
    rw [hfile]
    exact ⟨hwriting, fun hh => (hheld hh).imp_left fun hc => ⟨hc.1, hcondemned hc.2⟩⟩
  · rw [htask, hinstances]
    exact h.drawn
  · rw [htask]
    exact h.distinct

/-- A new task begins. The instance that it draws is new. -/
theorem Sound.start (h : Sound s) {pid : Nat} {job : Job} (hnone : s.task t = none)
    (hpid : pid < 2 ^ 31) (hfresh : ∀ instanceId ∈ job.drawn, instanceId ∉ s.instances) :
    Sound { s with
      task := Function.update s.task t (some ⟨pid, job, job.entry⟩)
      instances := job.drawn ++ s.instances } := by
  have hne : ∀ {u task}, s.task u = some task → u ≠ t := by
    rintro u task hu rfl
    rw [hnone] at hu
    cases hu
  have hnew : ∀ {u task}, Function.update s.task t (some ⟨pid, job, job.entry⟩) u = some task →
      (u = t ∧ task = ⟨pid, job, job.entry⟩) ∨ s.task u = some task := by
    intro u task hu
    by_cases heq : u = t
    · subst heq
      rw [Function.update_self] at hu
      cases hu
      exact .inl ⟨rfl, rfl⟩
    · rw [Function.update_of_ne heq] at hu
      exact .inr hu
  have hev : Evolves s { s with
      task := Function.update s.task t (some ⟨pid, job, job.entry⟩)
      instances := job.drawn ++ s.instances } :=
    ⟨fun u task hu => ⟨task, by rw [← hu]; exact Function.update_of_ne (hne hu) .., rfl, rfl, id⟩,
      fun _ => id, fun _ => id, fun _ file' hfile => .inl ⟨file', hfile, rfl, .inr rfl⟩⟩
  refine ⟨fun kind file hfile => (h.known kind file hfile).evolves hev, ?_, ?_, ?_⟩
  · intro u task hu
    rcases hnew hu with ⟨rfl, rfl⟩ | hold
    · cases job <;> exact ⟨hpid, by simp [Job.entry, Phase.left], by simp [Job.entry, Phase.owner],
        by simp [Job.entry, Warranted, Resumes, Task.lease, Job.lease],
        fun _ => by simp [Job.entry, Phase.isWriting, Phase.held]⟩
    · have hfit := h.fit u task hold
      exact ⟨hfit.pid, hfit.left, hfit.signed, hfit.warranted.evolves hev, hfit.owns⟩
  · intro u task instanceId hu hjob
    rcases hnew hu with ⟨rfl, rfl⟩ | hold
    · simp only at hjob
      simp [hjob, Job.drawn]
    · exact List.mem_append_right _ (h.drawn u task instanceId hold hjob)
  · intro u v task task' instanceId hu hv hjob hjob'
    have hclash : ∀ {w task₀}, s.task w = some task₀ → task₀.job = .helper instanceId →
        job ≠ .helper instanceId := by
      rintro w task₀ hw hjob₀ rfl
      exact hfresh instanceId (by simp [Job.drawn]) (h.drawn w task₀ instanceId hw hjob₀)
    rcases hnew hu with ⟨rfl, rfl⟩ | hu₀
    · rcases hnew hv with ⟨rfl, -⟩ | hv₀
      · rfl
      · exact absurd hjob (hclash hv₀ hjob')
    · rcases hnew hv with ⟨rfl, rfl⟩ | hv₀
      · exact absurd hjob' (hclash hu₀ hjob)
      · exact h.distinct u v task task' instanceId hu₀ hv₀ hjob hjob'

/-! ## The steps of a task -/

/-- A file that is there when it is read is one that the path holds. -/
theorem Sound.seen_file (h : Sound s) (hfile : s.file kind = some file) : Seen s kind file := by
  refine ⟨h.known kind file hfile, fun file' hfile' _ => .inr ?_⟩
  rw [hfile] at hfile'
  cases hfile'
  rfl

theorem Sound.alive_pid (h : Sound s) {owner : Owner} (hknown : Known s kind file)
    (ho : file.owner = some owner) (hdead : s.activationOwnerIsAlive owner.pid = false) :
    owner.pid ∈ s.dead := by
  obtain ⟨task, htask, -, -, hsigned⟩ := hknown
  have hpid := (h.fit _ _ htask).pid
  rw [← (hsigned owner ho).1] at hpid
  by_contra hnot
  rw [activationOwnerIsAlive, decide_eq_true hpid, decide_eq_true hnot] at hdead
  cases hdead

/-- A health check goes back with a file that may be removed. -/
theorem Sound.goesBack (h : Sound s) {next : Verdict} {lock : Option LockFile}
    (ht : s.alive t = some task) (hpast : task.phase.past = false)
    (hkind : task.lease = .helper) (hleft : next.phase.left ≤ task.job.attempts)
    (hresumes : Resumes s .helper lock next)
    (hcleared : ∀ left seen, next = .recheck left (some seen) → Cleared s .helper seen) :
    Sound (s.setPhase t task next.phase) := by
  refine h.passes ht (.inl hpast) hleft ?_ ?_
  · cases next with
    | observe => rfl
    | recheck left seen => cases seen <;> rfl
  · cases next with
    | observe => exact hkind
    | recheck left seen =>
      cases seen with
      | none => trivial
      | some seen =>
        rw [hkind]
        exact ⟨hresumes.1, hcleared left seen rfl⟩

/-- The read of the owner in a health check finds no file, or none of an owner that is alive. -/
theorem Sound.cleared (h : Sound s) (hseen : Seen s .helper seen)
    (hdead : ∀ file owner, s.file .helper = some file → file.owner = some owner →
      s.activationOwnerIsAlive owner.pid = false) : Cleared s .helper seen := by
  by_cases hgone : Gone s .helper seen
  · exact .inr (.inr ⟨rfl, .inr hgone⟩)
  obtain ⟨file, hfile, hc⟩ : ∃ file, s.file .helper = some file ∧ file.creator = seen.creator := by
    simpa [Gone] using hgone
  cases ho : seen.owner with
  | none => exact .inl ho
  | some owner =>
    have hbytes : file.owner = some owner := by
      rcases hseen.bytes file hfile hc with hnone | hsame
      · rw [hnone] at ho
        cases ho
      · exact hsame.trans ho
    exact .inr (.inl ⟨owner, ho,
      h.alive_pid (h.known _ file hfile) hbytes (hdead file owner hfile hbytes)⟩)

/-- A file with the bytes of one that may be removed may be removed. -/
theorem Sound.cleared_of_owner (h : Sound s) (hseen : Seen s kind seen)
    (hcleared : Cleared s kind seen) (hfile : s.file kind = some file)
    (hbytes : file.owner = seen.owner) : Cleared s kind file := by
  rcases hcleared with hnone | ⟨owner, ho, hdead⟩ | ⟨rfl, hlost⟩
  · exact .inl (hbytes.trans hnone)
  · exact .inr (.inl ⟨owner, hbytes.trans ho, hdead⟩)
  · cases ho : seen.owner with
    | none => exact .inl (hbytes.trans ho)
    | some owner =>
      have hc := h.creator_eq (h.known _ _ hfile) hseen.known (hbytes.trans ho) ho
      rcases hlost with hcond | hgone
      · exact .inr (.inr ⟨rfl, .inl (hc ▸ hcond)⟩)
      · exact absurd hc (hgone file hfile)

theorem alive_setPhase_of_ne {phase : Phase} (hne : u ≠ t) :
    (s.setPhase t task phase).alive u = s.alive u := by
  have hsame : (s.setPhase t task phase).task u = s.task u := Function.update_of_ne hne ..
  rw [alive, hsame]
  rfl

theorem alive_setPhase_self {phase : Phase} (ht : s.alive t = some task) :
    (s.setPhase t task phase).alive t = some { task with phase := phase } :=
  alive_eq_some.2 ⟨Function.update_self .., (alive_eq_some.1 ht).2⟩

/-- A task unlinks the file that it read last, and goes on to a phase in which it owns none. -/
theorem Sound.removes (h : Sound s) {phase : Phase} (ht : s.alive t = some task)
    (hpast : task.phase.past = false ∨ phase = .finished) (hleft : phase.left ≤ task.job.attempts)
    (howner : phase.owner = none) (hwarranted : Warranted s task.lease phase)
    (hfree : ∀ file ∈ s.file task.lease, file.creator = t ∨
      Cleared s task.lease file ∧ s.unwritten file = false) :
    Sound ((s.setFile task.lease none).setPhase t task phase) := by
  have hmoved := h.passes ht hpast hleft howner hwarranted
  change Sound ((s.setPhase t task phase).setFile task.lease none)
  refine hmoved.unlinks ?_
  intro file hfile task' hu hkind
  by_cases hc : file.creator = t
  · rw [hc, alive_setPhase_self ht] at hu
    cases hu
    cases phase <;> simp_all [Phase.owner, Phase.isWriting, Phase.held]
  · rw [alive_setPhase_of_ne hc] at hu
    obtain ⟨hcleared, hwritten⟩ := (hfree file hfile).resolve_left hc
    exact h.spared hcleared hfile hwritten hu hkind

/-- The file whose owner a dropping task has found to be its own is its own. -/
theorem Sound.creator_of_releasing (h : Sound s) {owner : Owner} (ht : s.alive t = some task)
    (hphase : task.phase = .releasing owner seen) (hfile : s.file task.lease = some file)
    (ho : file.owner = some owner) : file.creator = t := by
  obtain ⟨htask, halive⟩ := alive_eq_some.1 ht
  have hfit := h.fit t task htask
  have howns := (hfit.owns halive).2 (by simp [hphase, Phase.held])
  rcases howns with ⟨hhelper, -⟩ | ⟨file', hfile', hc, -⟩
  · obtain ⟨creator, hcreator, hkind, -, hsigned⟩ := h.known _ _ hfile
    have hmine := hfit.signed owner (by simp [hphase, Phase.owner])
    exact h.distinct _ _ _ _ owner.mark hcreator htask
      ((hsigned owner ho).2 (hkind.trans hhelper)) (hmine.2 hhelper)
  · rw [hfile] at hfile'
    cases hfile'
    exact hc

theorem Sound.move (h : Sound s) (ht : s.alive t = some task) (hclean : s.Undisturbed (.move t))
    (hstep : s.move t task = some s') : Sound s' := by
  obtain ⟨htask, halive⟩ := alive_eq_some.1 ht
  have hfit := h.fit t task htask
  have hleft := hfit.left
  have hwarranted := hfit.warranted
  have hclean := hclean task ht
  have hpast : ∀ {phase phase' : Phase}, task.phase = phase → phase.past = false →
      task.phase.past = false ∨ phase' = .finished := by
    rintro phase phase' rfl hpast
    exact .inl hpast
  unfold Leases.move at hstep
  cases hphase : task.phase with
  | trying left =>
    rw [hphase] at hleft
    cases left with
    | zero =>
      simp only [hphase, Option.some.injEq] at hstep
      subst hstep
      exact h.passes ht (.inr rfl) (Nat.zero_le _) rfl trivial
    | succ left =>
      simp only [hphase] at hstep
      cases hfile : s.file task.lease with
      | none =>
        simp only [hfile, Option.some.injEq] at hstep
        subst hstep
        have hsigned : Signed task (task.job.owner task.pid s.now) := by
          cases hjob : task.job with
          | reclaim =>
            rw [hjob] at hleft
            simp [Phase.left, Job.attempts] at hleft
          | _ => simp [Signed, Job.owner, Task.lease, hjob, Job.lease]
        exact h.puts ht (by simp [hfile]) (fun _ => by simp [hphase, Phase.past]) rfl
          (Nat.zero_le _) (by simpa [Phase.owner] using hsigned) rfl trivial
      | some file =>
        simp only [hfile] at hstep
        cases hkind : task.lease with
        | activation =>
          simp only [hkind, Option.some.injEq] at hstep
          subst hstep
          exact h.passes ht (hpast hphase rfl)
            (Nat.le_of_succ_le hleft) rfl trivial
        | helper =>
          simp only [hkind, Option.some.injEq] at hstep
          subst hstep
          exact h.passes ht (hpast hphase rfl)
            (Nat.le_of_succ_le hleft) rfl hkind
  | writing owner =>
    obtain ⟨file, hfile, hc, ho⟩ := (hfit.owns halive).1 (by simp [hphase, Phase.isWriting])
    simp only [hphase, hfile, hc, if_true, Option.some.injEq] at hstep
    subst hstep
    exact h.puts ht (by simp [hfile, hc, ho]) (by simp [hfile]) rfl (Nat.zero_le _)
      (by simpa [hphase, Phase.owner] using hfit.signed) rfl trivial
  | holding owner => simp [hphase] at hstep
  | releasing owner seen =>
    simp only [hphase, Option.some.injEq] at hstep
    subst hstep
    rw [hphase] at hwarranted
    refine h.removes ht (.inr rfl) (Nat.zero_le _) rfl trivial fun file hfile => .inl ?_
    obtain ⟨rfl, -⟩ := hclean seen (by simp [hphase, Phase.removes]) file hfile
    exact h.creator_of_releasing ht hphase hfile hwarranted.2
  | examining left =>
    rw [hphase] at hleft
    simp only [hphase] at hstep
    cases hfile : s.file task.lease with
    | none =>
      simp only [hfile, Option.some.injEq] at hstep
      subst hstep
      exact h.passes ht (hpast hphase rfl) hleft rfl trivial
    | some file =>
      simp only [hfile] at hstep
      have hseen := h.seen_file hfile
      cases ho : file.owner with
      | none =>
        simp only [ho, Option.some.injEq] at hstep
        subst hstep
        exact h.passes ht (hpast hphase rfl) hleft rfl ⟨hseen, ho⟩
      | some owner =>
        simp only [ho] at hstep
        split at hstep
        · cases hstep
          exact h.passes ht (hpast hphase rfl) hleft rfl trivial
        · next hdead =>
          cases hstep
          exact h.passes ht (hpast hphase rfl) hleft rfl ⟨hseen, .inr (.inl ⟨owner, ho,
            h.alive_pid hseen.known ho (by simpa using hdead)⟩)⟩
  | aging left seen =>
    rw [hphase] at hleft hwarranted
    simp only [hphase] at hstep
    split at hstep
    · cases hstep
      exact h.passes ht (hpast hphase rfl) hleft rfl ⟨hwarranted.1, .inl hwarranted.2⟩
    · cases hstep
      exact h.passes ht (hpast hphase rfl) hleft rfl trivial
  | observing left =>
    rw [hphase] at hleft hwarranted
    simp only [hphase, Option.some.injEq] at hstep
    subst hstep
    refine h.passes ht (hpast hphase rfl) hleft rfl ⟨hwarranted, ?_⟩
    cases hfile : s.file task.lease with
    | none => trivial
    | some file => exact ⟨h.seen_file hfile, by simp⟩
  | reclaiming =>
    rw [hphase] at hwarranted
    simp only [hphase] at hstep
    cases hfile : s.file task.lease with
    | none =>
      simp only [hfile, Option.some.injEq] at hstep
      subst hstep
      exact h.passes ht (.inr rfl) (Nat.zero_le _) rfl trivial
    | some file =>
      simp only [hfile, Option.some.injEq] at hstep
      subst hstep
      exact h.passes ht (hpast hphase rfl) (Nat.zero_le _) rfl
        ⟨hwarranted, h.seen_file hfile, by simp⟩
  | identifying next =>
    rw [hphase] at hleft hwarranted
    obtain ⟨hkind, hresumes⟩ := hwarranted
    rw [hkind] at hresumes
    simp only [hphase] at hstep
    have hback : next.phase.left ≤ task.job.attempts := by
      refine Nat.le_trans (Nat.le_of_eq ?_) hleft
      rcases next with _ | ⟨left, _ | seen⟩ <;> rfl
    cases hfile : s.file task.lease with
    | none =>
      simp only [hfile, Option.some.injEq] at hstep
      subst hstep
      rw [hkind] at hfile
      refine h.goesBack ht (by rw [hphase]; rfl) hkind hback hresumes ?_
      rintro left seen rfl
      exact h.cleared hresumes.1 (by simp [hfile])
    | some file =>
      simp only [hfile] at hstep
      rw [hkind] at hfile
      split at hstep
      · cases hstep
        refine h.passes ht (hpast hphase rfl) ?_ rfl ⟨hkind, ?_⟩
        · cases next <;> exact hleft
        · rw [hkind]
          rcases next with _ | ⟨left, _ | seen⟩
          · trivial
          · trivial
          · refine ⟨hresumes.1, ?_⟩
            intro lock hlock
            cases hlock
            by_cases hc : file.creator = seen.creator
            · exact .inl hc
            · refine .inr fun file' hfile' => ?_
              rw [hfile] at hfile'
              cases hfile'
              exact hc
      · next hdead =>
        cases hstep
        refine h.goesBack ht (by rw [hphase]; rfl) hkind hback hresumes ?_
        rintro left seen rfl
        refine h.cleared hresumes.1 fun file' owner hfile' ho => ?_
        rw [hfile] at hfile'
        cases hfile'
        simpa [ho] using hdead
  | dating next lock =>
    rw [hphase] at hleft hwarranted
    simp only [hphase] at hstep
    split at hstep
    · cases hstep
      exact h.passes ht (.inr rfl) (Nat.zero_le _) rfl trivial
    · cases hstep
      refine h.passes ht (hpast hphase rfl) ?_ rfl hwarranted
      cases next <;> exact hleft
  | probing next lock => simp [hphase] at hstep
  | rechecking left seen =>
    rw [hphase] at hleft hwarranted
    simp only [hphase] at hstep
    cases hfile : s.file task.lease with
    | none =>
      simp only [hfile, Option.some.injEq] at hstep
      subst hstep
      exact h.passes ht (hpast hphase rfl) hleft rfl trivial
    | some file =>
      simp only [hfile] at hstep
      split at hstep
      · next hbytes =>
        cases hstep
        exact h.passes ht (hpast hphase rfl) hleft rfl
          ⟨h.seen_file hfile, h.cleared_of_owner hwarranted.1 hwarranted.2 hfile hbytes⟩
      · cases hstep
        exact h.passes ht (hpast hphase rfl) hleft rfl trivial
  | unlinking left seen =>
    rw [hphase] at hleft hwarranted
    simp only [hphase, Option.some.injEq] at hstep
    subst hstep
    refine h.removes ht (hpast hphase rfl) hleft rfl trivial fun file hfile => .inr ?_
    obtain ⟨rfl, hwritten⟩ := hclean seen (by simp [hphase, Phase.removes]) file hfile
    exact ⟨hwarranted.2, hwritten⟩
  | finished => simp [hphase] at hstep

theorem Sound.probe (h : Sound s) (ht : s.alive t = some task) {socketReachable : Bool}
    {heartbeat : Option HelperIdentity}
    (hstep : s.probe t task socketReachable heartbeat = some s') : Sound s' := by
  have hfit := h.fit t task (alive_eq_some.1 ht).1
  have hleft := hfit.left
  have hwarranted := hfit.warranted
  unfold Leases.probe at hstep
  cases hphase : task.phase with
  | probing next lock =>
    rw [hphase] at hleft hwarranted
    obtain ⟨hkind, hresumes⟩ := hwarranted
    rw [hkind] at hresumes
    simp only [hphase] at hstep
    split at hstep
    · cases hstep
      exact h.passes ht (.inr rfl) (Nat.zero_le _) rfl trivial
    · cases hstep
      have hback : next.phase.left ≤ task.job.attempts := by
        refine Nat.le_trans (Nat.le_of_eq ?_) hleft
        rcases next with _ | ⟨left, _ | seen⟩ <;> rfl
      have hev : Evolves s { s with condemned := lock.creator :: s.condemned } :=
        .of_eq rfl rfl (fun _ => id) fun _ => List.mem_cons_of_mem _
      have hsound : Sound { s with condemned := lock.creator :: s.condemned } :=
        h.of_eq rfl rfl rfl (fun _ => id) fun _ => List.mem_cons_of_mem _
      refine hsound.goesBack ht (by rw [hphase]; rfl) hkind hback (hresumes.evolves hev) ?_
      · rintro left seen rfl
        rcases hresumes.2 lock rfl with hc | hgone
        · exact .inr (.inr ⟨rfl, .inl (by rw [← hc]; exact List.mem_cons_self)⟩)
        · exact .inr (.inr ⟨rfl, .inr hgone⟩)
  | _ => simp [hphase] at hstep

theorem Sound.drop (h : Sound s) (ht : s.alive t = some task)
    (hstep : s.drop t task = some s') : Sound s' := by
  have hfit := h.fit t task (alive_eq_some.1 ht).1
  unfold Leases.drop at hstep
  cases hphase : task.phase with
  | holding owner =>
    simp only [hphase] at hstep
    cases hfile : s.file task.lease with
    | none =>
      simp only [hfile, Option.some.injEq] at hstep
      subst hstep
      exact h.passes ht (.inr rfl) (Nat.zero_le _) rfl trivial
    | some file =>
      simp only [hfile] at hstep
      split at hstep
      · next ho =>
        cases hstep
        refine h.goes ht (fun _ => rfl) (Nat.zero_le _)
          (by simpa [hphase, Phase.owner] using hfit.signed) ⟨h.seen_file hfile, ho⟩ ?_
        intro halive
        refine ⟨by simp [Phase.isWriting], fun _ => ?_⟩
        have hmine := (hfit.owns halive).2 (by simp [hphase, Phase.held])
        rw [hphase] at hmine
        exact hmine
      · cases hstep
        exact h.passes ht (.inr rfl) (Nat.zero_le _) rfl trivial
  | _ => simp [hphase] at hstep

theorem Sound.failWrite (h : Sound s) (ht : s.alive t = some task)
    (hstep : s.failWrite t task = some s') : Sound s' := by
  unfold Leases.failWrite at hstep
  cases hphase : task.phase with
  | writing owner =>
    simp only [hphase, Option.some.injEq] at hstep
    subst hstep
    exact h.passes ht (.inr rfl) (Nat.zero_le _) rfl trivial
  | _ => simp [hphase] at hstep

theorem Sound.step {act : Act} (h : Sound s) (hclean : s.Undisturbed act)
    (hstep : s.step act = some s') : Sound s' := by
  cases act with
  | start t pid job =>
    simp only [Leases.step] at hstep
    split at hstep
    · next hnew =>
      cases hstep
      simp only [Bool.and_eq_true, Option.isNone_iff_eq_none, activationOwnerIsAlive,
        decide_eq_true_eq] at hnew
      exact h.start hnew.1.1 hnew.2.1 hclean
    · cases hstep
  | die pid =>
    cases hstep
    exact h.of_eq rfl rfl rfl (fun _ => List.mem_cons_of_mem _) fun _ => id
  | clock now =>
    cases hstep
    exact h.of_eq rfl rfl rfl (fun _ => id) fun _ => id
  | move t =>
    obtain ⟨task, ht, hstep⟩ := Option.bind_eq_some_iff.1 hstep
    exact h.move ht hclean hstep
  | probe t socketReachable heartbeat =>
    obtain ⟨task, ht, hstep⟩ := Option.bind_eq_some_iff.1 hstep
    exact h.probe ht hstep
  | drop t =>
    obtain ⟨task, ht, hstep⟩ := Option.bind_eq_some_iff.1 hstep
    exact h.drop ht hstep
  | failWrite t =>
    obtain ⟨task, ht, hstep⟩ := Option.bind_eq_some_iff.1 hstep
    exact h.failWrite ht hstep

theorem sound_empty : Sound empty where
  known := by simp [empty]
  fit := by simp [empty]
  drawn := by simp [empty]
  distinct := by simp [empty]

/-- The runs in which nobody disturbs a removal. -/
def orderly : System Leases Act := leases.restrict Undisturbed

theorem orderly_sound {acts : List Act} (h : orderly.Run empty acts s) : Sound s :=
  h.invariant (fun hnext hs => hs.step hnext.1 hnext.2) sound_empty

/-! ## Holders -/

/-- What a live holder has: its own file at the path, unless a health check has rejected it. -/
theorem Sound.holds (h : Sound s) (hholder : Holder s kind t) :
    (kind = .helper ∧ t ∈ s.condemned) ∨ ∃ file, s.file kind = some file ∧ file.creator = t := by
  obtain ⟨task, ht, rfl, hheld⟩ := hholder
  obtain ⟨htask, halive⟩ := alive_eq_some.1 ht
  rcases ((h.fit t task htask).owns halive).2 hheld with hc | ⟨file, hfile, hc, -⟩
  · exact .inl hc
  · exact .inr ⟨file, hfile, hc⟩

/-- Two live holders of a lease are one, unless a health check has rejected the lock of one. -/
theorem Sound.exclusive (h : Sound s) {a b : Nat} (ha : Holder s kind a) (hb : Holder s kind b)
    (hne : a ≠ b) : kind = .helper ∧ (a ∈ s.condemned ∨ b ∈ s.condemned) := by
  rcases h.holds ha with ⟨hkind, hc⟩ | ⟨file, hfile, rfl⟩
  · exact ⟨hkind, .inl hc⟩
  rcases h.holds hb with ⟨hkind, hc⟩ | ⟨file', hfile', rfl⟩
  · exact ⟨hkind, .inr hc⟩
  rw [hfile] at hfile'
  cases hfile'
  exact absurd rfl hne

/-- What the next step of a task does to the files. -/
theorem move_file (hstep : s.move t task = some s') :
    s'.file = s.file ∨
    (∃ owner, s'.file = (s.setFile task.lease (some ⟨t, owner, s.now⟩)).file ∧
      ∀ file ∈ s.file task.lease, file.creator = t ∧ task.phase.isWriting = true) ∨
    ∃ seen, task.phase.removes = some seen ∧ s'.file = (s.setFile task.lease none).file := by
  unfold move at hstep
  cases hphase : task.phase <;> simp only [hphase] at hstep
  case trying left =>
    cases left <;> simp only at hstep
    · cases hstep
      exact .inl rfl
    · split at hstep
      · next hfile =>
        cases hstep
        exact .inr (.inl ⟨none, rfl, by simp [hfile]⟩)
      · split at hstep <;> cases hstep <;> exact .inl rfl
  case writing owner =>
    split at hstep
    · next file hfile =>
      split at hstep
      · next hc =>
        cases hstep
        exact .inr (.inl ⟨some owner, rfl, by simp [hfile, hc, Phase.isWriting]⟩)
      · cases hstep
        exact .inl rfl
    · cases hstep
      exact .inl rfl
  case releasing owner seen =>
    cases hstep
    exact .inr (.inr ⟨seen, rfl, rfl⟩)
  case unlinking left seen =>
    cases hstep
    exact .inr (.inr ⟨seen, rfl, rfl⟩)
  case holding => cases hstep
  case probing => cases hstep
  case finished => cases hstep
  all_goals
    left
    repeat' split at hstep
    all_goals
      cases hstep
      rfl

/-- A step that is no step of a task on the files leaves them as they are. -/
theorem step_file {act : Act} (hstep : s.step act = some s') (hmove : ∀ t, act ≠ .move t) :
    s'.file = s.file := by
  cases act with
  | start t pid job =>
    simp only [step] at hstep
    split at hstep <;> cases hstep
    rfl
  | move t => exact absurd rfl (hmove t)
  | probe t socketReachable heartbeat =>
    obtain ⟨task, -, hstep⟩ := Option.bind_eq_some_iff.1 hstep
    unfold probe at hstep
    repeat' split at hstep
    all_goals
      cases hstep
      try rfl
  | drop t =>
    obtain ⟨task, -, hstep⟩ := Option.bind_eq_some_iff.1 hstep
    unfold drop at hstep
    repeat' split at hstep
    all_goals
      cases hstep
      try rfl
  | failWrite t =>
    obtain ⟨task, -, hstep⟩ := Option.bind_eq_some_iff.1 hstep
    unfold failWrite at hstep
    split at hstep <;> cases hstep
    rfl
  | die pid =>
    cases hstep
    rfl
  | clock now =>
    cases hstep
    rfl

/-- The file of a live holder stays as it is, but for the holder's own steps, unless a health check
has rejected it. -/
theorem Sound.keeps {act : Act} (h : Sound s) (hclean : s.Undisturbed act)
    (hstep : s.step act = some s') (hfile : s.file kind = some file)
    (hholder : Holder s kind file.creator) :
    s'.file kind = some file ∨ act = .move file.creator ∨
      (kind = .helper ∧ file.creator ∈ s.condemned) := by
  by_cases hmove : ∃ t, act = .move t
  · obtain ⟨t, rfl⟩ := hmove
    by_cases hmine : file.creator = t
    · exact .inr (.inl (by rw [hmine]))
    obtain ⟨task, ht, hstep⟩ := Option.bind_eq_some_iff.1 hstep
    have hfit := h.fit t task (alive_eq_some.1 ht).1
    rcases move_file hstep with hsame | ⟨owner, hput, hown⟩ | ⟨seen, hremoves, hgone⟩
    · exact .inl (by rw [hsame]; exact hfile)
    · left
      have hkind : kind ≠ task.lease := by
        rintro rfl
        exact hmine (hown file hfile).1
      rw [hput, setFile_of_ne hkind]
      exact hfile
    · by_cases hkind : kind = task.lease
      · subst hkind
        obtain ⟨rfl, hwritten⟩ := hclean task ht seen hremoves file hfile
        obtain ⟨holder, hu, hlease, hheld⟩ := hholder
        cases hphase : task.phase with
        | releasing owner seen =>
          have hwarranted := hfit.warranted
          rw [hphase] at hremoves hwarranted
          cases hremoves
          exact absurd (h.creator_of_releasing ht hphase hfile hwarranted.2) hmine
        | unlinking left seen =>
          have hwarranted := hfit.warranted
          rw [hphase] at hremoves hwarranted
          cases hremoves
          exact .inr (.inr ((h.spared hwarranted.2 hfile hwritten hu hlease).2 hheld))
        | _ => simp [hphase, Phase.removes] at hremoves
      · left
        rw [hgone, setFile_of_ne hkind]
        exact hfile
  · rw [step_file hstep (by simpa using hmove)]
    exact .inl hfile

/-! ## A lease that was left -/

/-- Nobody has the lease: there is no file, or the process of its creator has died. -/
def Left (s : Leases) (kind : LeaseKind) : Prop :=
  ∀ file ∈ s.file kind, ∃ task, s.task file.creator = some task ∧ task.pid ∈ s.dead

/-- The act is a task's own, or the clock's. -/
def Act.isOf (t : Nat) : Act → Bool
  | start u _ _ | move u | probe u _ _ | drop u | failWrite u => u == t
  | clock _ => true
  | die _ => false

/-- A task gets from one state to another by itself. -/
def Reaches (t : Nat) (s s' : Leases) : Prop :=
  ∃ acts, orderly.Run s acts s' ∧ ∀ act ∈ acts, act.isOf t = true

theorem Reaches.step (act : Act) {s₁ : Leases} (hact : act.isOf t = true)
    (hstep : orderly.next s act s₁) (h : Reaches t s₁ s') : Reaches t s s' := by
  obtain ⟨acts, hrun, hacts⟩ := h
  refine ⟨act :: acts, .cons hstep hrun, ?_⟩
  intro act' hact'
  rcases List.mem_cons.1 hact' with rfl | hmem
  · exact hact
  · exact hacts act' hmem

/-- A step of a task that removes nothing, or what it read last. -/
theorem Reaches.move {s₁ : Leases} (ht : s.alive t = some task)
    (hclean : ∀ seen ∈ task.phase.removes, ∀ file ∈ s.file task.lease,
      file = seen ∧ s.unwritten file = false)
    (hstep : s.move t task = some s₁) (h : Reaches t s₁ s') : Reaches t s s' := by
  refine h.step (.move t) (by simp [Act.isOf]) ⟨?_, ?_⟩
  · intro task' ht'
    rw [ht] at ht'
    cases ht'
    exact hclean
  · change (s.alive t >>= s.move t) = some s₁
    rw [ht]
    exact hstep

theorem reaches_of_free {left : Nat} (ht : s.alive t = some task)
    (hphase : task.phase = .trying (left + 1)) (hfile : s.file task.lease = none) :
    ∃ s', Reaches t s s' ∧ Holder s' task.lease t := by
  let owner := task.job.owner task.pid s.now
  let s₁ := (s.setFile task.lease (some ⟨t, none, s.now⟩)).setPhase t task (.writing owner)
  have h₁ : s.move t task = some s₁ := by simp [Leases.move, hphase, hfile, s₁, owner]
  have ht₁ : s₁.alive t = some { task with phase := .writing owner } := alive_setPhase_self ht
  have hfile₁ : s₁.file task.lease = some ⟨t, none, s.now⟩ := setFile_self ..
  let task₁ : Task := { task with phase := .writing owner }
  let s₂ := (s₁.setFile task.lease (some ⟨t, some owner, s₁.now⟩)).setPhase t task₁ (.holding owner)
  have h₂ : s₁.move t task₁ = some s₂ := by
    have hfile₁ : s₁.file task₁.lease = some ⟨t, none, s.now⟩ := hfile₁
    simp only [Leases.move, task₁, hfile₁]
    rfl
  have ht₂ : s₂.alive t = some { task₁ with phase := .holding owner } := alive_setPhase_self ht₁
  refine ⟨s₂, ?_, _, ht₂, rfl, rfl⟩
  exact .move ht (by simp [hphase, Phase.removes]) h₁
    (.move ht₁ (by simp [Phase.removes]) h₂ ⟨[], .nil _, by simp⟩)

/-- The situation of a task in whose way there is a file of a process that has died. -/
structure Abandoned (s : Leases) (t pid : Nat) (job : Job) (phase : Phase) (file : LockFile) :
    Prop where
  waits : s.alive t = some ⟨pid, job, phase⟩
  found : s.file job.lease = some file
  creator : s.alive file.creator = none
  rejected : ∀ owner ∈ file.owner, s.activationOwnerIsAlive owner.pid = false

namespace Abandoned

variable {pid left : Nat} {job : Job} {phase : Phase}

theorem creator_ne (h : Abandoned s t pid job phase file) : file.creator ≠ t := by
  rintro rfl
  have := h.creator
  rw [h.waits] at this
  cases this

/-- A step of the task that only looks at the files. -/
theorem look (phase' : Phase) (h : Abandoned s t pid job phase file) (hremoves : phase.removes = none)
    (hstep : s.move t ⟨pid, job, phase⟩ = some (s.setPhase t ⟨pid, job, phase⟩ phase'))
    (hrest : ∀ s₁ : Leases, s₁.now = s.now → Abandoned s₁ t pid job phase' file →
      ∃ s', Reaches t s₁ s' ∧ Holder s' job.lease t) :
    ∃ s', Reaches t s s' ∧ Holder s' job.lease t := by
  have hnext : Abandoned (s.setPhase t ⟨pid, job, phase⟩ phase') t pid job phase' file :=
    ⟨alive_setPhase_self h.waits, h.found, (alive_setPhase_of_ne h.creator_ne).trans h.creator,
      h.rejected⟩
  obtain ⟨s', hreaches, hholder⟩ := hrest (s.setPhase t ⟨pid, job, phase⟩ phase') rfl hnext
  exact ⟨s', .move h.waits (by simp [hremoves]) hstep hreaches, hholder⟩

theorem rechecking (h : Abandoned s t pid job (.rechecking (left + 1) file) file) :
    ∃ s', Reaches t s s' ∧ Holder s' job.lease t := by
  have hfile := h.found
  refine h.look (.unlinking (left + 1) file) rfl ?_ fun s₁ _ h₁ => ?_
  · simp [Leases.move, Task.lease, hfile]
  -- The removal takes away the file that was read, and the loop begins again.
  let task : Task := ⟨pid, job, .unlinking (left + 1) file⟩
  let s₂ := (s₁.setFile task.lease none).setPhase t task (.trying (left + 1))
  have ht₂ : s₂.alive t = some { task with phase := .trying (left + 1) } :=
    alive_setPhase_self (s := s₁.setFile task.lease none) h₁.waits
  obtain ⟨s', hreaches, hholder⟩ := reaches_of_free ht₂ rfl (setFile_self ..)
  refine ⟨s', .move h₁.waits ?_ rfl hreaches, hholder⟩
  intro seen hseen file' hfile'
  cases hseen
  have heq : file' = file := by
    have := h₁.found.symm.trans hfile'
    cases this
    rfl
  exact ⟨heq, by simp [unwritten, heq, h₁.creator]⟩

theorem activation (h : Abandoned s t pid job (.trying (left + 2)) file)
    (hkind : job.lease = .activation) (hage : file.modified + activationLockStaleAfter ≤ s.now) :
    ∃ s', Reaches t s s' ∧ Holder s' job.lease t := by
  have hfile := h.found
  refine h.look (.examining (left + 1)) rfl ?_ fun s₁ hnow₁ h₁ => ?_
  · simp only [Leases.move, Task.lease, hfile]
    rw [hkind]
  have hfile₁ := h₁.found
  cases ho : file.owner with
  | some owner =>
    have hdead := h₁.rejected owner ho
    refine h₁.look (.rechecking (left + 1) file) rfl ?_ fun s₂ _ h₂ => h₂.rechecking
    simp [Leases.move, Task.lease, hfile₁, ho, hdead]
  | none =>
    refine h₁.look (.aging (left + 1) file) rfl ?_ fun s₂ hnow₂ h₂ => ?_
    · simp [Leases.move, Task.lease, hfile₁, ho]
    have hfile₂ := h₂.found
    have hold : s₂.age file = some (s₂.now - file.modified) := by
      rw [age, if_pos (by omega)]
    refine h₂.look (.rechecking (left + 1) file) rfl ?_ fun s₃ _ h₃ => h₃.rechecking
    simp only [Leases.move, Task.lease, hfile₂, Option.bind_some, hold, Option.any_some]
    rw [if_pos (by simp only [decide_eq_true_eq]; omega)]

theorem helper (h : Abandoned s t pid job (.trying (left + 2)) file)
    (hkind : job.lease = .helper) : ∃ s', Reaches t s s' ∧ Holder s' job.lease t := by
  have hfile := h.found
  refine h.look (.observing (left + 1)) rfl ?_ fun s₁ _ h₁ => ?_
  · simp only [Leases.move, Task.lease, hfile]
    rw [hkind]
  have hfile₁ := h₁.found
  refine h₁.look (.identifying (.recheck (left + 1) (some file))) rfl ?_
    fun s₂ _ h₂ => ?_
  · simp [Leases.move, Task.lease, hfile₁]
  have hfile₂ := h₂.found
  have hrejected : (file.owner.any fun owner => s₂.activationOwnerIsAlive owner.pid) = false := by
    cases ho : file.owner with
    | none => rfl
    | some owner => exact h₂.rejected owner ho
  refine h₂.look (.rechecking (left + 1) file) rfl ?_ fun s₃ _ h₃ => h₃.rechecking
  simp [Leases.move, Task.lease, hfile₂, hrejected, Verdict.phase]

end Abandoned

/-- A new task of a live process gets a lease that nobody has. -/
theorem Sound.reacquires (h : Sound s) (hleft : Left s kind) {pid : Nat} {job : Job}
    (hkind : job.lease = kind) (hjob : job ≠ .reclaim) (hnew : s.task t = none) (hpos : 0 < pid)
    (hpid : s.activationOwnerIsAlive pid = true)
    (hfresh : ∀ instanceId ∈ job.drawn, instanceId ∉ s.instances) :
    ∃ s', Reaches t s s' ∧ Holder s' kind t := by
  subst hkind
  -- Time passes until a file without an owner is stale, and the task begins.
  let s₁ : Leases := { s with
    now := s.now + ((s.file job.lease).elim 0 (·.modified) + activationLockStaleAfter) }
  have hsound : Sound s₁ := h.of_eq rfl rfl rfl (fun _ => id) fun _ => id
  let s₂ : Leases := { s₁ with
    task := Function.update s₁.task t (some ⟨pid, job, job.entry⟩)
    instances := job.drawn ++ s₁.instances }
  have hstart : orderly.next s₁ (.start t pid job) s₂ := by
    have hpid₁ : s₁.activationOwnerIsAlive pid = true := hpid
    have hnew₁ : s₁.task t = none := hnew
    refine ⟨hfresh, ?_⟩
    change (if _ then some s₂ else none) = some s₂
    rw [if_pos (by simp [hnew₁, hpos, hpid₁])]
  have halive : s₂.alive t = some ⟨pid, job, job.entry⟩ := by
    refine alive_eq_some.2 ⟨Function.update_self .., ?_⟩
    simp only [activationOwnerIsAlive, Bool.and_eq_true, decide_eq_true_eq] at hpid
    exact hpid.2
  suffices hreach : ∃ s', Reaches t s₂ s' ∧ Holder s' job.lease t by
    obtain ⟨s', hreaches, hholder⟩ := hreach
    refine ⟨s', ?_, hholder⟩
    exact .step (.clock s₁.now) rfl ⟨trivial, rfl⟩
      (.step (.start t pid job) (by simp [Act.isOf]) hstart hreaches)
  have hentry : job.entry = .trying job.attempts := by
    cases job <;> first | rfl | exact absurd rfl hjob
  cases hfile : s.file job.lease with
  | none =>
    have hpositive : job.attempts = job.attempts - 1 + 1 := by
      cases job <;> first | rfl | exact absurd rfl hjob
    exact reaches_of_free halive (by rw [hentry, ← hpositive]) hfile
  | some file =>
    obtain ⟨creator, hcreator, hdead⟩ := hleft file hfile
    have hne : file.creator ≠ t := by
      rintro rfl
      rw [hnew] at hcreator
      cases hcreator
    have hgone : s₂.alive file.creator = none := by
      have hsame : s₂.task file.creator = some creator := by
        rw [← hcreator]
        exact Function.update_of_ne hne ..
      have hdead₂ : creator.pid ∈ s₂.dead := hdead
      simp [alive, hsame, Option.filter, hdead₂]
    have hrejected : ∀ owner ∈ file.owner, s₂.activationOwnerIsAlive owner.pid = false := by
      intro owner ho
      obtain ⟨creator', hcreator', -, -, hsigned⟩ := h.known _ _ hfile
      rw [hcreator] at hcreator'
      cases hcreator'
      have hdead₂ : owner.pid ∈ s₂.dead := (hsigned owner ho).1 ▸ hdead
      simp [activationOwnerIsAlive, hdead₂]
    have hsituation : Abandoned s₂ t pid job job.entry file := ⟨halive, hfile, hgone, hrejected⟩
    cases job with
    | activation =>
      refine Abandoned.activation hsituation rfl ?_
      change _ ≤ s.now + ((s.file _).elim 0 (·.modified) + activationLockStaleAfter)
      rw [hfile]
      exact Nat.le_add_left ..
    | helper instanceId => exact Abandoned.helper hsituation rfl
    | reclaim => exact absurd rfl hjob

/-- A step by which a health check rejects the lock of a task: the socket does not answer, or the
heartbeat of the lock's owner is missing or stale. -/
def Rejects (s : Leases) (t : Nat) : Act → Prop
  | .probe u socketReachable heartbeat => ∃ task next lock, s.alive u = some task ∧
      task.phase = .probing next lock ∧ lock.creator = t ∧
      ¬(socketReachable = true ∧ ∃ owner ∈ lock.owner, ∃ helper ∈ heartbeat,
        helperHeartbeatIsRecent helper owner s.now = true)
  | _ => False

theorem move_condemned (hstep : s.move t task = some s') : s'.condemned = s.condemned := by
  unfold move at hstep
  repeat' split at hstep
  all_goals
    cases hstep
    try rfl

/-- Only a health check condemns a lock. -/
theorem step_condemned {act : Act} (hstep : s.step act = some s') (ht : t ∈ s'.condemned) :
    t ∈ s.condemned ∨ Rejects s t act := by
  cases act with
  | probe u socketReachable heartbeat =>
    obtain ⟨task, hu, hstep⟩ := Option.bind_eq_some_iff.1 hstep
    unfold probe at hstep
    cases hphase : task.phase with
    | probing next lock =>
      simp only [hphase] at hstep
      split at hstep
      · cases hstep
        exact .inl ht
      · next hunhealthy =>
        cases hstep
        rcases List.mem_cons.1 ht with rfl | hold
        · refine .inr ⟨task, next, lock, hu, hphase, rfl, ?_⟩
          rintro ⟨hsocket, owner, ho, helper, hhelper, hrecent⟩
          refine hunhealthy ?_
          rw [Option.mem_def.1 ho, Option.mem_def.1 hhelper]
          simp [hsocket, hrecent]
        · exact .inl hold
    | _ => simp [hphase] at hstep
  | move u =>
    obtain ⟨task, -, hstep⟩ := Option.bind_eq_some_iff.1 hstep
    rw [move_condemned hstep] at ht
    exact .inl ht
  | start u pid job =>
    simp only [step] at hstep
    split at hstep <;> cases hstep
    exact .inl ht
  | drop u =>
    obtain ⟨task, -, hstep⟩ := Option.bind_eq_some_iff.1 hstep
    unfold drop at hstep
    repeat' split at hstep
    all_goals
      cases hstep
      try exact .inl ht
  | failWrite u =>
    obtain ⟨task, -, hstep⟩ := Option.bind_eq_some_iff.1 hstep
    unfold failWrite at hstep
    split at hstep <;> cases hstep
    exact .inl ht
  | die pid =>
    cases hstep
    exact .inl ht
  | clock now =>
    cases hstep
    exact .inl ht

/-- In a run in which nobody disturbs a removal, two live tasks hold a lease only if a health check
has rejected the lock of one of them, a live holder's lock changes only by the holder's own steps or
after such a check, and a lease that was left can be acquired. -/
theorem leases_exclusive {acts : List Act} (hrun : orderly.Run empty acts s) :
    (∀ kind a b, Holder s kind a → Holder s kind b → a ≠ b →
      kind = .helper ∧ (a ∈ s.condemned ∨ b ∈ s.condemned)) ∧
    (∀ act s' kind file, orderly.next s act s' → s.file kind = some file →
      Holder s kind file.creator → s'.file kind = some file ∨ act = .move file.creator ∨
        (kind = .helper ∧ file.creator ∈ s.condemned)) ∧
    (∀ act s' t, orderly.next s act s' → t ∈ s'.condemned → t ∈ s.condemned ∨ Rejects s t act) ∧
    ∀ kind, Left s kind → ∀ (job : Job) t pid, job.lease = kind → job ≠ .reclaim → s.task t = none →
      0 < pid → s.activationOwnerIsAlive pid = true →
      (∀ instanceId ∈ job.drawn, instanceId ∉ s.instances) →
      ∃ s', Reaches t s s' ∧ Holder s' kind t := by
  have hsound := orderly_sound hrun
  refine ⟨fun kind a b ha hb => hsound.exclusive ha hb, ?_, ?_, ?_⟩
  · intro act s' kind file hnext hfile hholder
    exact hsound.keeps hnext.1 hnext.2 hfile hholder
  · intro act s' t hnext ht
    exact step_condemned hnext.2 ht
  · intro kind hleft job t pid hkind hjob hnew hpos hpid hfresh
    exact hsound.reacquires hleft hkind hjob hnew hpos hpid hfresh

/-- A helper that starts, and a second one that finds its heartbeat stale and takes its place. -/
def displacement : List Act :=
  [.start 1 10 (.helper "first"), .move 1, .move 1, .clock 60000,
    .start 2 20 (.helper "second"), .move 2, .move 2, .move 2, .move 2, .probe 2 false none,
    .move 2, .move 2, .move 2, .move 2]

theorem displacement_run : ∃ s, orderly.Run empty displacement s ∧
    Holder s .helper 1 ∧ Holder s .helper 2 := by
  have h : (displacement.foldlM (fun s act => if Undisturbed s act then step s act else none)
      empty).any (fun s => Holder s .helper 1 && Holder s .helper 2) = true := by
    decide +kernel
  obtain ⟨s, hs, hboth⟩ := (Option.any_eq_true ..).1 h
  simp only [Bool.and_eq_true, decide_eq_true_eq] at hboth
  exact ⟨s, System.Run.of_foldlM hs, hboth⟩

theorem leases_exclusive_displacement : ∃ s, orderly.Run empty displacement s ∧
    (1 ∈ s.condemned ∨ 2 ∈ s.condemned) := by
  obtain ⟨s, hrun, h₁, h₂⟩ := displacement_run
  exact ⟨s, hrun, ((leases_exclusive hrun).1 .helper 1 2 h₁ h₂ (by decide)).2⟩

/-- Two tasks find the file of a process that has died. The second takes the lease between the
first one's last read and its removal of the file. -/
def lateRemoval : List Act :=
  [.start 1 10 .activation, .move 1, .move 1, .die 10,
    .start 2 20 .activation, .move 2, .move 2, .move 2,
    .start 3 30 .activation, .move 3, .move 3, .move 3, .move 3, .move 3, .move 3,
    .move 2, .move 2, .move 2]

/-- A helper that is alive but not healthy keeps holding its lease beside the one that took it.
Where a removal comes late, even an activation lease has two holders. -/
theorem two_live_holders : (¬∀ acts s, orderly.Run empty acts s → ∀ kind a b, Holder s kind a →
    Holder s kind b → a = b) ∧
    ¬∀ acts s, leases.Run empty acts s → ∀ a b, Holder s .activation a →
      Holder s .activation b → a = b := by
  constructor
  · intro hclaim
    obtain ⟨s, hrun, h₁, h₂⟩ := displacement_run
    exact absurd (hclaim displacement s hrun .helper 1 2 h₁ h₂) (by decide)
  · intro hclaim
    have h : (lateRemoval.foldlM (fun s act => if True then step s act else none)
        empty).any (fun s => Holder s .activation 2 && Holder s .activation 3) = true := by
      decide +kernel
    obtain ⟨s, hs, hboth⟩ := (Option.any_eq_true ..).1 h
    simp only [Bool.and_eq_true, decide_eq_true_eq] at hboth
    have hrun : leases.Run empty lateRemoval s := (System.Run.of_foldlM hs).of_restrict
    exact absurd (hclaim lateRemoval s hrun 2 3 hboth.1 hboth.2) (by decide)

end Leases

end Nakode.Activation
