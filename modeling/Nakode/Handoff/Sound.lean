import Nakode.Handoff.Slots

/-!
# What holds of the slots

At most one prompt is on its way, under an id that is not queued, and nothing is pending while it is
(`Sound`). A reservation is the one of this prompt and has what the prompt carries. Each package is
accounted for: a step moves it, delivers it with the turn that starts, or drops it (`Balanced`).

One function of the engine begins all prompts. It needs a session in which none is on its way
(`Begins`), and leaves a sound one (`begins_beginPrompt`).
-/

namespace Nakode.Handoff

/-! ## The invariant -/

namespace State

structure Sound (s : State) : Prop where
  nodup : (s.queue.map QueuedPrompt.id).Nodup
  creating : s.pendingSessionPrompt.isSome = true →
    s.startingTurn = none ∧ s.activeTurn = none ∧ s.creatingSession = true
  starting : s.startingTurn.isSome = true → s.activeTurn = none
  unqueued : ∀ prompt, s.unstarted = some prompt → s.isQueued prompt.id = false
  reserved : ∀ pending, s.redirectStart = some pending → ∃ prompt, s.unstarted = some prompt ∧
    prompt.id = pending.prompt.id ∧ prompt.handoff = pending.prompt.handoff
  blocked : ∀ promptId, s.replayBlockedPrompt = some promptId →
    s.isQueued promptId = false ∧ ∀ prompt, s.unstarted = some prompt → prompt.id ≠ promptId
  recoverable : ∀ promptId, s.recoverablePrompt = some promptId →
    s.isQueued promptId = false ∧ ∀ prompt, s.unstarted = some prompt → prompt.id ≠ promptId
  free : s.unstarted.isSome = true → s.pendingHandoff = none

/-- A prompt that is not queued can begin: none is on its way, and a reservation is its own. -/
structure Begins (s : State) (prompt : QueuedPrompt) : Prop where
  nodup : ((prompt :: s.queue).map QueuedPrompt.id).Nodup
  creating : s.pendingSessionPrompt = none
  starting : s.startingTurn = none
  active : s.activeTurn = none
  reserved : ∀ pending, s.redirectStart = some pending → pending.prompt = prompt
  blocked : ∀ promptId, s.replayBlockedPrompt = some promptId →
    prompt.id ≠ promptId ∧ s.isQueued promptId = false
  recoverable : ∀ promptId, s.recoverablePrompt = some promptId →
    prompt.id ≠ promptId ∧ s.isQueued promptId = false

/-- No prompt is on its way. -/
structure Quiet (s : State) : Prop where
  creating : s.pendingSessionPrompt = none
  starting : s.startingTurn = none

end State

/-! ## Accounts -/

/-- Whether a slot holds a package, as a number. -/
def count (package : HandoffPackage) (slot : Option HandoffPackage) : Nat :=
  if slot = some package then 1 else 0

@[simp] theorem count_none (package : HandoffPackage) : count package none = 0 := rfl

def queuedCount (package : HandoffPackage) (queue : List QueuedPrompt) : Nat :=
  (queue.map fun prompt => count package prompt.handoff).sum

@[simp] theorem queuedCount_nil (package : HandoffPackage) : queuedCount package [] = 0 := rfl

@[simp] theorem queuedCount_cons (package : HandoffPackage) (prompt : QueuedPrompt)
    (queue : List QueuedPrompt) :
    queuedCount package (prompt :: queue) =
      count package prompt.handoff + queuedCount package queue := by
  rw [queuedCount, List.map_cons, List.sum_cons, queuedCount]

theorem queuedCount_perm {package : HandoffPackage} {queue queue' : List QueuedPrompt}
    (h : queue.Perm queue') : queuedCount package queue = queuedCount package queue' :=
  (h.map _).sum_eq

/-- In how many slots a package lies. A reservation only repeats what its prompt carries. -/
def State.held (package : HandoffPackage) (s : State) : Nat :=
  count package s.pendingHandoff + count package (s.unstarted.bind (·.handoff)) +
    queuedCount package s.queue

namespace Note

def made? : Note → Option HandoffPackage
  | made package => some package
  | _ => none

def delivered? : Note → Option HandoffPackage
  | started _ handoff => handoff
  | _ => none

def dropped? : Note → Option HandoffPackage
  | dropped package => some package
  | _ => none

end Note

/-- How often a package is in what is selected from some notes. -/
def tally (package : HandoffPackage) (select : Note → Option HandoffPackage) (notes : List Note) :
    Nat :=
  (notes.map fun note => count package (select note)).sum

@[simp] theorem tally_nil (package : HandoffPackage) (select : Note → Option HandoffPackage) :
    tally package select [] = 0 := rfl

@[simp] theorem tally_cons (package : HandoffPackage) (select : Note → Option HandoffPackage)
    (note : Note) (notes : List Note) :
    tally package select (note :: notes) =
      count package (select note) + tally package select notes := by
  rw [tally, List.map_cons, List.sum_cons, tally]

@[simp] theorem tally_append (package : HandoffPackage) (select : Note → Option HandoffPackage)
    (notes more : List Note) :
    tally package select (notes ++ more) =
      tally package select notes + tally package select more := by
  rw [tally, List.map_append, List.sum_append, tally, tally]

/-- The packages that come from somewhere are those that go somewhere. `extra` is what the prompt
that begins was queued with. -/
def Balanced (package : HandoffPackage) (s : State) (extra : Option HandoffPackage)
    (notes : List Note) (s' : State) : Prop :=
  s.held package + count package extra + tally package Note.made? notes =
    s'.held package + tally package Note.delivered? notes + tally package Note.dropped? notes

/-- What is true of a step: its end is sound, and every package is accounted for. -/
structure Keeps (s : State) (extra : Option HandoffPackage) (notes : List Note) (s' : State) :
    Prop where
  sound : s'.Sound
  balanced : ∀ package, Balanced package s extra notes s'

namespace State

variable {s : State}

/-! ## Small facts -/

theorem isQueued_eq_false_iff {promptId : String} :
    s.isQueued promptId = false ↔ promptId ∉ s.queue.map QueuedPrompt.id := by
  rw [isQueued, List.any_eq_false, List.mem_map]
  constructor
  · rintro h ⟨prompt, hmem, rfl⟩
    exact h prompt hmem (beq_self_eq_true prompt.id)
  · intro h prompt hmem heq
    exact h ⟨prompt, hmem, beq_iff_eq.1 heq⟩

theorem Quiet.unstarted (h : s.Quiet) : s.unstarted = none := by
  rw [State.unstarted, h.creating, h.starting]
  rfl

/-- Nothing is reserved while nothing is on its way. -/
theorem Sound.redirectStart_eq_none (h : s.Sound) (hnone : s.unstarted = none) :
    s.redirectStart = none := by
  cases hr : s.redirectStart with
  | none => rfl
  | some pending =>
    obtain ⟨prompt, hprompt, -⟩ := h.reserved pending hr
    rw [hnone] at hprompt
    cases hprompt

theorem Sound.quiet_of_not_hasActiveWork (h : s.Sound) (hwork : s.hasActiveWork = false) :
    s.Quiet ∧ s.activeTurn = none := by
  simp only [hasActiveWork, Bool.or_eq_false_iff, Option.isSome_eq_false_iff,
    Option.isNone_iff_eq_none] at hwork
  refine ⟨⟨?_, hwork.1.1.2⟩, hwork.1.2⟩
  cases hp : s.pendingSessionPrompt with
  | none => rfl
  | some prompt =>
    have := (h.creating (by rw [hp]; rfl)).2.2
    rw [hwork.1.1.1] at this
    cases this

theorem Sound.quiet_of_not_isBusy (h : s.Sound) (hbusy : s.isBusy = false) :
    s.Quiet ∧ s.activeTurn = none :=
  h.quiet_of_not_hasActiveWork (by
    rw [isBusy, Bool.or_eq_false_iff] at hbusy
    exact hbusy.2)

theorem Quiet.held_eq (h : s.Quiet) (package : HandoffPackage) :
    s.held package = count package s.pendingHandoff + queuedCount package s.queue := by
  rw [held, h.unstarted, Option.bind_none, count_none, Nat.add_zero]

theorem Quiet.sound (h : s.Quiet) (hnodup : (s.queue.map QueuedPrompt.id).Nodup)
    (hredirect : s.redirectStart = none)
    (hblocked : ∀ promptId, s.replayBlockedPrompt = some promptId → s.isQueued promptId = false)
    (hrecoverable : ∀ promptId, s.recoverablePrompt = some promptId →
      s.isQueued promptId = false) : s.Sound where
  nodup := hnodup
  creating hsome := by
    rw [h.creating] at hsome
    cases hsome
  starting hsome := by
    rw [h.starting] at hsome
    cases hsome
  unqueued prompt hsome := by
    rw [h.unstarted] at hsome
    cases hsome
  reserved pending hsome := by
    rw [hredirect] at hsome
    cases hsome
  blocked promptId hsome := by
    refine ⟨hblocked promptId hsome, fun prompt hprompt => ?_⟩
    rw [h.unstarted] at hprompt
    cases hprompt
  recoverable promptId hsome := by
    refine ⟨hrecoverable promptId hsome, fun prompt hprompt => ?_⟩
    rw [h.unstarted] at hprompt
    cases hprompt
  free hsome := by
    rw [h.unstarted] at hsome
    cases hsome

theorem Begins.quiet {prompt : QueuedPrompt} (h : s.Begins prompt) : s.Quiet :=
  ⟨h.creating, h.starting⟩

theorem Begins.unqueued {prompt : QueuedPrompt} (h : s.Begins prompt) :
    s.isQueued prompt.id = false := by
  rw [isQueued_eq_false_iff]
  exact (List.nodup_cons.1 h.nodup).1

/-! ## Going back to the queue -/

theorem redirectIndex_le (pending : RedirectStart) (queue : List QueuedPrompt) :
    redirectIndex pending queue ≤ queue.length := by
  have hposition : ∀ {id i}, queue.findIdx? (fun p => p.id == id) = some i → i < queue.length :=
    fun h => (List.findIdx?_eq_some_iff_findIdx_eq.1 h).1
  unfold redirectIndex
  dsimp only
  cases hsuccessor : pending.successorIds.findSome?
      fun id => queue.findIdx? fun p => p.id == id with
  | some i =>
    obtain ⟨_, _, h⟩ := List.exists_of_findSome?_eq_some hsuccessor
    rw [Option.getD_some]
    exact (hposition h).le
  | none =>
    cases hpredecessor : pending.predecessorIds.reverse.findSome?
        fun id => (queue.findIdx? fun p => p.id == id).map (· + 1) with
    | some i =>
      obtain ⟨_, _, h⟩ := List.exists_of_findSome?_eq_some hpredecessor
      obtain ⟨j, hj, rfl⟩ := Option.map_eq_some_iff.1 h
      exact hposition hj
    | none => exact Nat.zero_le _

/-- A prompt that is not queued goes back to the queue, and nothing else happens. -/
theorem restoreRedirectStart_eq {pending : RedirectStart}
    (h : s.isQueued pending.prompt.id = false) :
    ∃ queue, s.restoreRedirectStart pending = { s with queue } ∧
      queue.Perm (pending.prompt :: s.queue) := by
  rw [restoreRedirectStart, h, if_neg Bool.false_ne_true]
  exact ⟨_, rfl, List.perm_insertIdx _ _ (redirectIndex_le pending s.queue)⟩

/-- The queue with a prompt back in it, while no prompt is on its way. -/
theorem Begins.returned {prompt : QueuedPrompt} (h : s.Begins prompt) {queue : List QueuedPrompt}
    (hqueue : queue.Perm (prompt :: s.queue)) :
    Keeps s prompt.handoff [] { s with queue, redirectStart := none } := by
  have hids := hqueue.map QueuedPrompt.id
  have hquiet : ({ s with queue, redirectStart := none } : State).Quiet :=
    ⟨h.creating, h.starting⟩
  have hout : ∀ {promptId}, prompt.id ≠ promptId ∧ s.isQueued promptId = false →
      promptId ∉ queue.map QueuedPrompt.id := by
    rintro promptId ⟨hne, hout⟩ hin
    rcases List.mem_cons.1 (hids.subset hin) with heq | hin
    · exact hne heq.symm
    · exact isQueued_eq_false_iff.1 hout hin
  constructor
  · exact hquiet.sound (hids.nodup_iff.2 h.nodup) rfl
      (fun promptId hsome => isQueued_eq_false_iff.2 (hout (h.blocked promptId hsome)))
      (fun promptId hsome => isQueued_eq_false_iff.2 (hout (h.recoverable promptId hsome)))
  · intro package
    rw [Balanced, h.quiet.held_eq, hquiet.held_eq, queuedCount_perm hqueue, queuedCount_cons]
    simp only [tally_nil]
    omega

/-- A prompt that could not be begun is in the queue again. -/
theorem Begins.putBack {prompt : QueuedPrompt} (h : s.Begins prompt) :
    Keeps s prompt.handoff [] (s.putBack prompt) := by
  unfold State.putBack takeRedirectStart
  cases hr : s.redirectStart with
  | none =>
    have hback := h.returned (List.Perm.refl (prompt :: s.queue))
    rw [isRedirected, hr, Option.any_none, if_neg Bool.false_ne_true]
    exact hback
  | some pending =>
    obtain rfl := h.reserved pending hr
    have hout : ({ s with redirectStart := none } : State).isQueued pending.prompt.id = false :=
      h.unqueued
    obtain ⟨queue, heq, hqueue⟩ := restoreRedirectStart_eq hout
    rw [isRedirected, hr, Option.any_some, beq_self_eq_true, if_pos rfl]
    dsimp only
    rw [heq]
    exact h.returned hqueue

/-! ## Beginning a prompt -/

/-- What a prompt takes along, and what it leaves behind, is what was pending and its own. -/
theorem leftBehind_balanced (package : HandoffPackage) (s : State) (prompt : QueuedPrompt) :
    count package s.pendingHandoff + count package prompt.handoff =
      count package (s.pendingHandoff <|> prompt.handoff) +
        tally package Note.dropped? (s.leftBehind prompt) ∧
      tally package Note.made? (s.leftBehind prompt) = 0 ∧
      tally package Note.delivered? (s.leftBehind prompt) = 0 := by
  unfold leftBehind
  cases hp : s.pendingHandoff <;> cases hh : prompt.handoff <;>
    simp [Note.made?, Note.delivered?, Note.dropped?]

theorem bindReservation_redirectStart {promptId : String} {handoff : Option HandoffPackage}
    {pending : RedirectStart} (hids : ∀ pending, s.redirectStart = some pending →
      pending.prompt.id = promptId)
    (h : (s.bindReservation promptId handoff).redirectStart = some pending) :
    pending.prompt.id = promptId ∧ pending.prompt.handoff = handoff := by
  obtain ⟨before, hbefore, hafter⟩ := Option.map_eq_some_iff.1 h
  have hid := hids before hbefore
  rw [hid, beq_self_eq_true, if_pos rfl] at hafter
  subst hafter
  exact ⟨hid, rfl⟩

/-- What handing a prompt over changes. -/
structure Sent (s : State) (prompt : OutgoingPrompt) (s' : State) : Prop where
  unstarted : s'.unstarted = some prompt
  creating : s'.pendingSessionPrompt.isSome = true →
    s'.startingTurn = none ∧ s'.creatingSession = true
  activeTurn : s'.activeTurn = s.activeTurn
  queue : s'.queue = s.queue
  redirectStart : s'.redirectStart = s.redirectStart
  replayBlockedPrompt : s'.replayBlockedPrompt = s.replayBlockedPrompt
  recoverablePrompt : s'.recoverablePrompt = s.recoverablePrompt
  pendingHandoff : s'.pendingHandoff = s.pendingHandoff

theorem sendPrompt_sent (h : s.Quiet) (prompt : OutgoingPrompt) :
    Sent s prompt (s.sendPrompt prompt).1 := by
  have hcreating := h.creating
  unfold sendPrompt startPromptOnSession
  split
  · refine ⟨?_, fun hsome => ?_, rfl, rfl, rfl, rfl, rfl, rfl⟩
    · dsimp only [State.unstarted]
      rw [hcreating]
      rfl
    · rw [show (_ : Option OutgoingPrompt) = none from hcreating] at hsome
      cases hsome
  · exact ⟨rfl, fun _ => ⟨h.starting, rfl⟩, rfl, rfl, rfl, rfl, rfl, rfl⟩

/-- A command to the backend is no news of packages. -/
theorem tally_sendPrompt (package : HandoffPackage) (s : State) (prompt : OutgoingPrompt) :
    tally package Note.made? (s.sendPrompt prompt).2 = 0 ∧
      tally package Note.delivered? (s.sendPrompt prompt).2 = 0 ∧
      tally package Note.dropped? (s.sendPrompt prompt).2 = 0 := by
  unfold sendPrompt startPromptOnSession
  split <;> exact ⟨rfl, rfl, rfl⟩

/-- The prompt is on its way, with the pending package or else its own. -/
theorem Begins.dispatchPrompt {prompt : QueuedPrompt} (h : s.Begins prompt) :
    Keeps s prompt.handoff (s.dispatchPrompt prompt).2 (s.dispatchPrompt prompt).1 := by
  have hreserved : ∀ pending, s.redirectStart = some pending → pending.prompt.id = prompt.id :=
    fun pending hr => by rw [h.reserved pending hr]
  let handoff := s.pendingHandoff <|> prompt.handoff
  let base := { s with pendingHandoff := none }.bindReservation prompt.id handoff
  let outgoing : OutgoingPrompt := { id := prompt.id, text := prompt.text, handoff }
  have hquiet : base.Quiet := ⟨h.creating, h.starting⟩
  have hsent := sendPrompt_sent hquiet outgoing
  have haway : ∀ {promptId}, prompt.id ≠ promptId ∧ s.isQueued promptId = false →
      (base.sendPrompt outgoing).1.isQueued promptId = false ∧
        ∀ other, (base.sendPrompt outgoing).1.unstarted = some other → other.id ≠ promptId := by
    rintro promptId ⟨hne, hout⟩
    refine ⟨?_, fun other hother => ?_⟩
    · rw [isQueued, hsent.queue]
      exact hout
    · obtain rfl := Option.some.inj (hsent.unstarted.symm.trans hother)
      exact hne
  constructor
  · constructor
    · show ((base.sendPrompt outgoing).1.queue.map QueuedPrompt.id).Nodup
      rw [hsent.queue]
      exact (List.nodup_cons.1 h.nodup).2
    · intro hsome
      obtain ⟨hstarting, hcreating⟩ := hsent.creating hsome
      exact ⟨hstarting, hsent.activeTurn.trans h.active, hcreating⟩
    · intro
      exact hsent.activeTurn.trans h.active
    · intro other hsome
      obtain rfl := Option.some.inj (hsent.unstarted.symm.trans hsome)
      show (base.sendPrompt outgoing).1.isQueued prompt.id = false
      rw [isQueued, hsent.queue]
      exact h.unqueued
    · intro pending hsome
      obtain ⟨hid, hhandoff⟩ := bindReservation_redirectStart hreserved
        (hsent.redirectStart.symm.trans hsome)
      exact ⟨outgoing, hsent.unstarted, hid.symm, hhandoff.symm⟩
    · intro promptId hsome
      exact haway (h.blocked promptId (hsent.replayBlockedPrompt.symm.trans hsome))
    · intro promptId hsome
      exact haway (h.recoverable promptId (hsent.recoverablePrompt.symm.trans hsome))
    · intro
      exact hsent.pendingHandoff
  · intro package
    obtain ⟨hbalance, hmade, hdelivered⟩ := leftBehind_balanced package s prompt
    obtain ⟨hmade', hdelivered', hdropped'⟩ := tally_sendPrompt package base outgoing
    have hheld : (base.sendPrompt outgoing).1.held package =
        count package (s.pendingHandoff <|> prompt.handoff) + queuedCount package s.queue := by
      rw [held, hsent.unstarted, hsent.pendingHandoff, hsent.queue]
      exact congrArg (· + _) (Nat.zero_add _)
    show s.held package + count package prompt.handoff +
        tally package Note.made? (s.leftBehind prompt ++ (base.sendPrompt outgoing).2) =
      (base.sendPrompt outgoing).1.held package +
        tally package Note.delivered? (s.leftBehind prompt ++ (base.sendPrompt outgoing).2) +
        tally package Note.dropped? (s.leftBehind prompt ++ (base.sendPrompt outgoing).2)
    simp only [h.quiet.held_eq, hheld, tally_append]
    omega

/-! ## Changing the provider -/

/-- Another provider takes over with a package of its own. -/
theorem switchTo_balanced (h : s.Quiet) (target : String) (targetReady : Bool)
    (sourceModel : Option String) (package : HandoffPackage) :
    Balanced package s none (s.switchTo target targetReady sourceModel).2
      (s.switchTo target targetReady sourceModel).1 := by
  have hquiet : (s.switchTo target targetReady sourceModel).1.Quiet :=
    ⟨h.creating, h.starting⟩
  rw [Balanced, h.held_eq, hquiet.held_eq]
  unfold switchTo
  dsimp only
  generalize HandoffPackage.fromTranscript .. = handoff
  cases s.pendingHandoff <;> cases handoff <;>
    simp [Note.made?, Note.delivered?, Note.dropped?] <;> omega

theorem Begins.switchTo {prompt : QueuedPrompt} (h : s.Begins prompt) (target : String)
    (targetReady : Bool) (sourceModel : Option String) :
    (s.switchTo target targetReady sourceModel).1.Begins prompt :=
  ⟨h.nodup, h.creating, h.starting, h.active, h.reserved, h.blocked, h.recoverable⟩

/-- The selected provider is the active one, or is turned to, or cannot be. -/
theorem prepareSelectedProviderTransition_cases (s : State) :
    s.prepareSelectedProviderTransition = none ∨
      s.prepareSelectedProviderTransition = some (s, []) ∨
      ∃ target targetReady sourceModel, target ≠ s.backendProvider ∧
        s.prepareSelectedProviderTransition =
          some (s.switchTo target targetReady sourceModel) := by
  unfold prepareSelectedProviderTransition
  cases s.targetProvider with
  | none => exact .inr (.inl rfl)
  | some target =>
    dsimp only
    split
    · exact .inr (.inl rfl)
    · next hother =>
      cases s.available target with
      | none => exact .inl rfl
      | some targetReady =>
        exact .inr (.inr ⟨target, targetReady, _, mt beq_iff_eq.2 hother, rfl⟩)

/-- One step after another accounts for every package. -/
theorem balanced_append {package : HandoffPackage} {s s' s'' : State}
    {extra : Option HandoffPackage} {notes more : List Note}
    (h : Balanced package s none notes s') (h' : Balanced package s' extra more s'') :
    Balanced package s extra (notes ++ more) s'' := by
  simp only [Balanced, tally_append, count_none] at *
  omega

theorem Begins.beginPrompt {prompt : QueuedPrompt} (h : s.Begins prompt) :
    Keeps s prompt.handoff (s.beginPrompt prompt).2 (s.beginPrompt prompt).1 := by
  unfold State.beginPrompt
  rcases prepareSelectedProviderTransition_cases s with
    heq | heq | ⟨target, targetReady, sourceModel, -, heq⟩
  · rw [heq]
    exact h.putBack
  · rw [heq]
    exact h.dispatchPrompt
  · rw [heq]
    obtain ⟨hsound, hbalanced⟩ := (h.switchTo target targetReady sourceModel).dispatchPrompt
    exact ⟨hsound, fun package =>
      balanced_append (switchTo_balanced h.quiet target targetReady sourceModel package)
        (hbalanced package)⟩

end State

end Nakode.Handoff
