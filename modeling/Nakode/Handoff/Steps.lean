import Nakode.Handoff.Sound

/-!
# Every step keeps the slots sound

Each step of a session's engine keeps `Sound` and accounts for every package (`keeps_step`), as long
as the provider reports no turn and no failed reload while a session is being created, and a change
of the provider that could not be stored was not made for a reserved prompt (`Orderly`).
-/

namespace Nakode.Handoff

namespace State

variable {s : State}

/-! ## The queue -/

/-- A package leaves the queue with its prompt. -/
theorem held_dequeue {prompt : QueuedPrompt} {queue : List QueuedPrompt}
    (hqueue : s.queue.Perm (prompt :: queue)) (package : HandoffPackage) :
    s.held package = { s with queue }.held package + count package prompt.handoff := by
  simp only [held, unstarted, queuedCount_perm hqueue, queuedCount_cons]
  omega

theorem perm_eraseP {α : Type} {p : α → Bool} {a : α} {l : List α} (h : l.find? p = some a) :
    l.Perm (a :: l.eraseP p) := by
  induction l with
  | nil => cases h
  | cons b l ih =>
    rw [List.find?_cons] at h
    split at h
    · next hp =>
      cases h
      rw [List.eraseP_cons_of_pos hp]
    · next hp =>
      rw [List.eraseP_cons_of_neg (by rw [hp]; exact Bool.false_ne_true)]
      exact ((ih h).cons b).trans (.swap a b _)

theorem isQueued_sublist {queue : List QueuedPrompt} (hqueue : queue.Sublist s.queue)
    {promptId : String} (h : s.isQueued promptId = false) :
    { s with queue }.isQueued promptId = false := by
  rw [isQueued_eq_false_iff] at *
  exact fun hin => h ((hqueue.map QueuedPrompt.id).subset hin)

theorem Sound.dequeue (h : s.Sound) {queue : List QueuedPrompt} (hqueue : queue.Sublist s.queue) :
    { s with queue }.Sound where
  nodup := (hqueue.map QueuedPrompt.id).nodup h.nodup
  creating := h.creating
  starting := h.starting
  unqueued prompt hsome := isQueued_sublist hqueue (h.unqueued prompt hsome)
  reserved := h.reserved
  blocked promptId hsome :=
    ⟨isQueued_sublist hqueue (h.blocked promptId hsome).1, (h.blocked promptId hsome).2⟩
  recoverable promptId hsome :=
    ⟨isQueued_sublist hqueue (h.recoverable promptId hsome).1, (h.recoverable promptId hsome).2⟩
  free := h.free

/-- A prompt can begin that leaves the queue of a session in which none is on its way. -/
theorem Sound.begins (h : s.Sound) (hquiet : s.Quiet) (hactive : s.activeTurn = none)
    {prompt : QueuedPrompt} {queue : List QueuedPrompt} (hqueue : s.queue.Perm (prompt :: queue)) :
    { s with queue }.Begins prompt := by
  have hids := hqueue.map QueuedPrompt.id
  have hout : ∀ {promptId}, s.isQueued promptId = false →
      prompt.id ≠ promptId ∧ { s with queue }.isQueued promptId = false := by
    intro promptId hnot
    rw [isQueued_eq_false_iff] at hnot ⊢
    exact ⟨fun heq => hnot (hids.symm.subset (heq ▸ List.mem_cons_self)),
      fun hin => hnot (hids.symm.subset (List.mem_cons_of_mem _ hin))⟩
  refine ⟨hids.nodup_iff.1 h.nodup, hquiet.creating, hquiet.starting, hactive, ?_, ?_, ?_⟩
  · intro pending hsome
    rw [show (_ : Option RedirectStart) = none from
      h.redirectStart_eq_none hquiet.unstarted] at hsome
    cases hsome
  · intro promptId hsome
    exact hout (h.blocked promptId hsome).1
  · intro promptId hsome
    exact hout (h.recoverable promptId hsome).1

end State

/-- A prompt that begins out of the queue takes its package along. -/
theorem Keeps.of_dequeue {s : State} {prompt : QueuedPrompt} {queue : List QueuedPrompt}
    {notes : List Note} {s' : State} (hqueue : s.queue.Perm (prompt :: queue))
    (h : Keeps { s with queue } prompt.handoff notes s') : Keeps s none notes s' := by
  refine ⟨h.sound, fun package => ?_⟩
  have hbalanced := h.balanced package
  have hheld := State.held_dequeue hqueue package
  simp only [Balanced, count_none] at hbalanced ⊢
  omega

theorem Keeps.refl {s : State} (h : s.Sound) : Keeps s none [] s := ⟨h, fun _ => rfl⟩

/-- A step that leaves the slots alone. -/
theorem Keeps.of_held {s s' : State} (hsound : s'.Sound)
    (hheld : ∀ package, s'.held package = s.held package) : Keeps s none [] s' :=
  ⟨hsound, fun package => by rw [Balanced, hheld]; rfl⟩

namespace State

variable {s : State}

theorem keeps_drainQueue (h : s.Sound) : Keeps s none s.drainQueue.2 s.drainQueue.1 := by
  unfold drainQueue
  split
  · exact .refl h
  · next hidle =>
    rw [Bool.or_eq_true, not_or, Bool.not_eq_true, Bool.not_eq_true] at hidle
    obtain ⟨hquiet, hactive⟩ := h.quiet_of_not_isBusy hidle.2
    split
    · exact .refl h
    · next prompt queue hqueue =>
      split
      · exact .refl h
      · have hperm : s.queue.Perm (prompt :: queue) := .of_eq hqueue
        exact .of_dequeue hperm (h.begins hquiet hactive hperm).beginPrompt

/-! ## Commands -/

/-- A prompt that is submitted is refused, or begins with no package of its own. -/
theorem submitPrompt_cases (h : s.Sound) (promptId text : String) :
    s.submitPrompt promptId text = (s, []) ∨
      ∃ replayBlockedPrompt, s.isQueued promptId = false ∧ s.Quiet ∧
        Begins { s with replayBlockedPrompt, recoverablePrompt := none }
          { deliveryUncertain := false, id := promptId, text, handoff := none } ∧
        s.submitPrompt promptId text =
          { s with replayBlockedPrompt, recoverablePrompt := none }.beginPrompt
            { deliveryUncertain := false, id := promptId, text, handoff := none } := by
  unfold submitPrompt
  dsimp only
  split
  · exact .inl rfl
  · next hnew =>
    split
    · exact .inl rfl
    · next hfree =>
      simp only [Bool.or_eq_true, not_or, Bool.not_eq_true] at hfree
      obtain ⟨-, hwork, hblocked⟩ := hfree
      obtain ⟨hquiet, hactive⟩ := h.quiet_of_not_hasActiveWork hwork
      have hout : s.isQueued promptId = false := by
        by_cases hretry : s.replayBlockedPrompt = some promptId
        · exact (h.blocked promptId hretry).1
        · by_cases hrecover : s.recoverablePrompt = some promptId
          · exact (h.recoverable promptId hrecover).1
          · simpa [hretry, hrecover, isKnown, hquiet.unstarted] using hnew
      refine .inr ⟨_, hout, hquiet, ?_, rfl⟩
      refine ⟨?_, hquiet.creating, hquiet.starting, hactive, ?_, ?_, ?_⟩
      · exact List.nodup_cons.2 ⟨isQueued_eq_false_iff.1 hout, h.nodup⟩
      · intro pending hsome
        rw [show (_ : Option RedirectStart) = none from
          h.redirectStart_eq_none hquiet.unstarted] at hsome
        cases hsome
      · intro other hsome
        dsimp only at hsome
        split at hsome
        · cases hsome
        · next hretry =>
          rw [Bool.not_eq_true] at hretry
          rw [hretry, hsome] at hblocked
          cases hblocked
      · intro other hsome
        cases hsome

theorem keeps_submitPrompt (h : s.Sound) (promptId text : String) :
    Keeps s none (s.submitPrompt promptId text).2 (s.submitPrompt promptId text).1 := by
  rcases submitPrompt_cases h promptId text with heq | ⟨_, -, -, hbegins, heq⟩
  · rw [heq]
    exact .refl h
  · obtain ⟨hsound, hbalanced⟩ := hbegins.beginPrompt
    rw [heq]
    exact ⟨hsound, hbalanced⟩

theorem keeps_enqueuePrompt (h : s.Sound) (promptId text : String) :
    Keeps s none (s.enqueuePrompt promptId text).2 (s.enqueuePrompt promptId text).1 := by
  unfold enqueuePrompt
  split
  · exact keeps_submitPrompt h promptId text
  · next hretry =>
    split
    · exact .refl h
    · next hnew =>
      split
      · exact keeps_submitPrompt h promptId text
      · have hretry : s.replayBlockedPrompt ≠ some promptId := by simpa using hretry
        have hout : s.isQueued promptId = false ∧
            ∀ prompt, s.unstarted = some prompt → prompt.id ≠ promptId := by
          by_cases hrecover : s.recoverablePrompt = some promptId
          · exact h.recoverable promptId hrecover
          · have hnew : s.isQueued promptId = false ∧
                s.unstarted.any (·.id == promptId) = false := by
              simpa [hrecover, isKnown] using hnew
            refine ⟨hnew.1, fun prompt hprompt => ?_⟩
            have := hnew.2
            rw [hprompt, Option.any_some, beq_eq_false_iff_ne] at this
            exact this
        have happend : ∀ {other}, s.isQueued other = false → other ≠ promptId →
            { s with
              recoverablePrompt := none
              queue := s.queue ++ [(⟨false, promptId, text, none⟩ : QueuedPrompt)]
              }.isQueued other = false := by
          intro other hother hne
          rw [isQueued, List.any_append, List.any_cons, List.any_nil, Bool.or_false,
            show s.queue.any _ = false from hother, beq_eq_false_iff_ne.2 hne.symm]
          rfl
        refine .of_held ?_ fun package => ?_
        · refine ⟨?_, h.creating, h.starting, ?_, h.reserved, ?_, ?_, h.free⟩
          · rw [List.map_append, List.nodup_append]
            refine ⟨h.nodup, List.nodup_singleton promptId, ?_⟩
            intro other hin new hnew heq
            obtain rfl : new = promptId := List.mem_singleton.1 hnew
            exact isQueued_eq_false_iff.1 hout.1 (heq ▸ hin)
          · intro prompt hprompt
            exact happend (h.unqueued prompt hprompt) (hout.2 prompt hprompt)
          · intro other hsome
            obtain ⟨hnot, haway⟩ := h.blocked other hsome
            refine ⟨happend hnot ?_, haway⟩
            rintro rfl
            exact hretry hsome
          · intro other hsome
            cases hsome
        · simp only [held, unstarted, queuedCount, List.map_append, List.map_cons, List.map_nil,
            List.sum_append, List.sum_cons, List.sum_nil, count_none, Nat.add_zero]

/-- A package that leaves the queue with its prompt is dropped. -/
theorem tally_queuedHandoffs (package : HandoffPackage) (s : State) (promptId : String) :
    (∀ prompt, s.queue.find? (·.id == promptId) = some prompt →
      tally package Note.dropped? ((s.queuedHandoffs promptId).map .dropped) =
        count package prompt.handoff) ∧
      (s.queue.find? (·.id == promptId) = none →
        tally package Note.dropped? ((s.queuedHandoffs promptId).map .dropped) = 0) ∧
      tally package Note.made? ((s.queuedHandoffs promptId).map .dropped) = 0 ∧
      tally package Note.delivered? ((s.queuedHandoffs promptId).map .dropped) = 0 := by
  unfold queuedHandoffs
  cases hfind : s.queue.find? (·.id == promptId) with
  | none => simp
  | some prompt =>
    cases hhandoff : prompt.handoff <;> simp [hhandoff, Note.dropped?, Note.made?, Note.delivered?]

theorem keeps_handleSteerAccepted (h : s.Sound) (promptId : String) :
    Keeps s none (s.handleSteerAccepted promptId).2 (s.handleSteerAccepted promptId).1 := by
  refine ⟨h.dequeue List.eraseP_sublist, fun package => ?_⟩
  obtain ⟨hsome, hnone, hmade, hdelivered⟩ := tally_queuedHandoffs package s promptId
  unfold handleSteerAccepted
  simp only [Balanced, count_none]
  cases hfind : s.queue.find? (·.id == promptId) with
  | some prompt =>
    have hheld := held_dequeue (perm_eraseP hfind) package
    rw [hsome prompt hfind]
    omega
  | none =>
    have hkept : s.queue.eraseP (·.id == promptId) = s.queue :=
      List.eraseP_of_forall_not (by simpa using hfind)
    rw [hnone hfind, hkept, hmade, hdelivered]

theorem keeps_removeQueuedPrompt (h : s.Sound) (promptId : String) :
    Keeps s none (s.removeQueuedPrompt promptId).2 (s.removeQueuedPrompt promptId).1 := by
  unfold removeQueuedPrompt
  split
  · exact .refl h
  · split
    · obtain ⟨hsound, hbalanced⟩ := keeps_handleSteerAccepted h promptId
      obtain ⟨hsound', hbalanced'⟩ := keeps_drainQueue hsound
      exact ⟨hsound', fun package => balanced_append (hbalanced package) (hbalanced' package)⟩
    · exact .refl h

theorem keeps_steerQueuedPrompt (h : s.Sound) (promptId : String) (native : Bool) :
    Keeps s none [] (s.steerQueuedPrompt promptId native) := by
  unfold steerQueuedPrompt
  split
  · split
    · have hids : (s.queue.map (QueuedPrompt.markUncertain promptId)).map QueuedPrompt.id =
          s.queue.map QueuedPrompt.id := by
        rw [List.map_map]
        exact List.map_congr_left fun prompt _ => prompt.markUncertain_id promptId
      have hout : ∀ {other}, s.isQueued other = false →
          { s with queue := s.queue.map (QueuedPrompt.markUncertain promptId) }.isQueued other =
            false := by
        intro other hother
        rw [isQueued_eq_false_iff] at hother ⊢
        rwa [hids]
      refine .of_held ?_ fun package => ?_
      · exact ⟨by rw [hids]; exact h.nodup, h.creating, h.starting,
          fun prompt hprompt => hout (h.unqueued prompt hprompt), h.reserved,
          fun other hsome => ⟨hout (h.blocked other hsome).1, (h.blocked other hsome).2⟩,
          fun other hsome => ⟨hout (h.recoverable other hsome).1, (h.recoverable other hsome).2⟩,
          h.free⟩
      · simp only [held, unstarted, queuedCount, List.map_map, Function.comp_def,
          QueuedPrompt.markUncertain_handoff]
    · exact .of_held ⟨h.nodup, h.creating, h.starting, h.unqueued, h.reserved, h.blocked,
        h.recoverable, h.free⟩ fun _ => rfl
  · exact .refl h

theorem Sound.switchTo (h : s.Sound) (hquiet : s.Quiet) (target : String) (targetReady : Bool)
    (sourceModel : Option String) : (s.switchTo target targetReady sourceModel).1.Sound := by
  have hafter : (s.switchTo target targetReady sourceModel).1.Quiet :=
    ⟨hquiet.creating, hquiet.starting⟩
  exact hafter.sound h.nodup (h.redirectStart_eq_none hquiet.unstarted)
    (fun promptId hsome => (h.blocked promptId hsome).1)
    fun promptId hsome => (h.recoverable promptId hsome).1

theorem keeps_selectModel (h : s.Sound) (provider modelId : String) :
    Keeps s none (s.selectModel provider modelId).2 (s.selectModel provider modelId).1 := by
  have hselect : ∀ {t : State} (model : Option String), t.Sound →
      { t with selectedModel := model }.Sound := fun _ ht =>
    ⟨ht.nodup, ht.creating, ht.starting, ht.unqueued, ht.reserved, ht.blocked, ht.recoverable,
      ht.free⟩
  unfold selectModel
  dsimp only
  split
  · exact .of_held (hselect _ h) fun _ => rfl
  · split
    · exact .refl h
    · next targetReady _ =>
      split
      · exact .of_held (hselect _ h) fun _ => rfl
      · next hbusy =>
        rw [Bool.not_eq_true] at hbusy
        obtain ⟨hquiet, -⟩ := h.quiet_of_not_isBusy hbusy
        exact ⟨hselect _ (h.switchTo hquiet provider targetReady s.selectedModel),
          switchTo_balanced hquiet provider targetReady s.selectedModel⟩

/-! ## The course of a turn -/

/-- A redirected prompt is gone, or begins out of its place in the queue. -/
theorem beginPendingRedirect_cases (h : s.Sound) (hquiet : s.Quiet) (hactive : s.activeTurn = none)
    (promptId : String) :
    s.beginPendingRedirect promptId = (s, []) ∨
      ∃ prompt queue redirectStart, s.queue.Perm (prompt :: queue) ∧
        Begins { s with queue, redirectStart } prompt ∧
        s.beginPendingRedirect promptId = { s with queue, redirectStart }.beginPrompt prompt := by
  unfold beginPendingRedirect
  split
  · exact .inl rfl
  · next prompt hfind =>
    have hperm := perm_eraseP hfind
    have hbegins := h.begins hquiet hactive hperm
    refine .inr ⟨prompt, _, _, hperm, ?_, rfl⟩
    exact ⟨hbegins.nodup, hbegins.creating, hbegins.starting, hbegins.active,
      fun pending hsome => by rw [← Option.some.inj hsome], hbegins.blocked, hbegins.recoverable⟩

theorem keeps_beginPendingRedirect (h : s.Sound) (hquiet : s.Quiet) (hactive : s.activeTurn = none)
    (promptId : String) :
    Keeps s none (s.beginPendingRedirect promptId).2 (s.beginPendingRedirect promptId).1 := by
  rcases beginPendingRedirect_cases h hquiet hactive promptId with
    heq | ⟨prompt, queue, redirectStart, hperm, hbegins, heq⟩
  · rw [heq]
    exact .refl h
  · obtain ⟨hsound, hbalanced⟩ := hbegins.beginPrompt
    rw [heq]
    exact .of_dequeue hperm ⟨hsound, hbalanced⟩

theorem keeps_continueAfterTurn (h : s.Sound) (hquiet : s.Quiet) (hactive : s.activeTurn = none)
    (outcome : TurnOutcome) :
    Keeps s none (s.continueAfterTurn outcome).2 (s.continueAfterTurn outcome).1 := by
  have hcleared : { s with pendingRedirect := none }.Sound :=
    ⟨h.nodup, h.creating, h.starting, h.unqueued, h.reserved, h.blocked, h.recoverable, h.free⟩
  unfold continueAfterTurn
  split
  · split
    · exact .of_held hcleared fun _ => rfl
    · obtain ⟨hsound, hbalanced⟩ := keeps_beginPendingRedirect hcleared
        ⟨hquiet.creating, hquiet.starting⟩ hactive _
      exact ⟨hsound, hbalanced⟩
  · exact keeps_drainQueue h

/-- Where the prompt of a start that did not succeed is no longer on its way. -/
structure Cleared (s t : State) : Prop where
  creating : t.pendingSessionPrompt = none
  starting : t.startingTurn = none
  queue : t.queue = s.queue
  redirectStart : t.redirectStart = s.redirectStart
  replayBlockedPrompt : t.replayBlockedPrompt = s.replayBlockedPrompt
  recoverablePrompt : t.recoverablePrompt = s.recoverablePrompt
  pendingHandoff : t.pendingHandoff = s.pendingHandoff

theorem Cleared.quiet {t : State} (h : Cleared s t) : t.Quiet := ⟨h.creating, h.starting⟩

/-- A reservation is the one of the prompt on its way. -/
theorem Sound.isRedirected_iff (h : s.Sound) {prompt : OutgoingPrompt}
    (hprompt : s.unstarted = some prompt) :
    s.isRedirected prompt.id = s.redirectStart.isSome := by
  cases hr : s.redirectStart with
  | none => rw [isRedirected, hr]; rfl
  | some pending =>
    obtain ⟨other, hother, hid, -⟩ := h.reserved pending hr
    obtain rfl := Option.some.inj (hother.symm.trans hprompt)
    rw [isRedirected, hr, Option.any_some, hid, beq_self_eq_true]
    rfl

/-- Where the prompt on its way goes when it cannot start: its package is pending again, or goes
back to the queue with it. -/
theorem keeps_restoreFailedPrompt (h : s.Sound) {t : State} (hcleared : Cleared s t)
    {prompt : OutgoingPrompt} (hprompt : s.unstarted = some prompt)
    (hredirect : s.redirectStart = none) : Keeps s none [] (t.restoreFailedPrompt prompt) := by
  have hout : t.isQueued prompt.id = false := by
    rw [isQueued, hcleared.queue]
    exact h.unqueued prompt hprompt
  have hquiet : (t.restoreFailedPrompt prompt).Quiet := ⟨hcleared.creating, hcleared.starting⟩
  refine .of_held ?_ fun package => ?_
  · refine hquiet.sound ?_ (hcleared.redirectStart.trans hredirect) ?_ ?_
    · show (t.queue.map QueuedPrompt.id).Nodup
      rw [hcleared.queue]
      exact h.nodup
    · intro promptId hsome
      rw [← Option.some.inj hsome]
      exact hout
    · intro promptId hsome
      rw [← Option.some.inj hsome]
      exact hout
  · rw [hquiet.held_eq, held, hprompt, h.free (by rw [hprompt]; rfl)]
    show count package prompt.handoff + queuedCount package t.queue = _
    rw [hcleared.queue, count_none, Option.bind_some, Nat.zero_add]

/-- A reserved prompt goes back to the queue with what it carried. -/
theorem takeRedirectStart_eq (h : s.Sound) {t : State} (hcleared : Cleared s t)
    {prompt : OutgoingPrompt} (hprompt : s.unstarted = some prompt) {pending : RedirectStart}
    (hredirect : s.redirectStart = some pending) :
    ∃ queue, t.takeRedirectStart = { t with redirectStart := none, queue } ∧
      queue.Perm (pending.prompt :: s.queue) ∧ prompt.id = pending.prompt.id ∧
      prompt.handoff = pending.prompt.handoff := by
  obtain ⟨other, hother, hid, hhandoff⟩ := h.reserved pending hredirect
  obtain rfl := Option.some.inj (hother.symm.trans hprompt)
  have hout : { t with redirectStart := none }.isQueued pending.prompt.id = false := by
    rw [← hid, isQueued]
    show t.queue.any _ = false
    rw [hcleared.queue]
    exact h.unqueued other hprompt
  obtain ⟨queue, heq, hperm⟩ := restoreRedirectStart_eq hout
  refine ⟨queue, ?_, hcleared.queue ▸ hperm, hid, hhandoff⟩
  rw [takeRedirectStart, hcleared.redirectStart, hredirect]
  exact heq

theorem keeps_takeRedirectStart (h : s.Sound) {t : State} (hcleared : Cleared s t)
    {prompt : OutgoingPrompt} (hprompt : s.unstarted = some prompt) {pending : RedirectStart}
    (hredirect : s.redirectStart = some pending) : Keeps s none [] t.takeRedirectStart := by
  obtain ⟨queue, htake, hperm, hid, hhandoff⟩ :=
    takeRedirectStart_eq h hcleared hprompt hredirect
  have hquiet : { t with redirectStart := none, queue }.Quiet :=
    ⟨hcleared.creating, hcleared.starting⟩
  have hids := hperm.map QueuedPrompt.id
  have hrestored : ∀ {promptId}, s.isQueued promptId = false ∧
      (∀ prompt, s.unstarted = some prompt → prompt.id ≠ promptId) →
      { t with redirectStart := none, queue }.isQueued promptId = false := by
    rintro promptId ⟨hnot, haway⟩
    rw [isQueued_eq_false_iff]
    intro hin
    rcases List.mem_cons.1 (hids.subset hin) with heq | hin
    · exact haway prompt hprompt (hid.trans heq.symm)
    · exact isQueued_eq_false_iff.1 hnot hin
  have hfree := h.free (by rw [hprompt]; rfl)
  rw [htake]
  refine .of_held ?_ fun package => ?_
  · refine hquiet.sound ?_ rfl ?_ ?_
    · refine hids.nodup_iff.2 (List.nodup_cons.2 ⟨?_, h.nodup⟩)
      exact isQueued_eq_false_iff.1 (hid ▸ h.unqueued prompt hprompt)
    · intro promptId hsome
      exact hrestored (h.blocked promptId (hcleared.replayBlockedPrompt.symm.trans hsome))
    · intro promptId hsome
      exact hrestored (h.recoverable promptId (hcleared.recoverablePrompt.symm.trans hsome))
  · rw [hquiet.held_eq, queuedCount_perm hperm, queuedCount_cons, held, hprompt, hfree,
      Option.bind_some, hhandoff, count_none, Nat.zero_add]
    show count package t.pendingHandoff + _ = _
    rw [hcleared.pendingHandoff, hfree, count_none, Nat.zero_add]

theorem keeps_returnPrompt (h : s.Sound) {t : State} (hcleared : Cleared s t)
    {prompt : OutgoingPrompt} (hprompt : s.unstarted = some prompt) :
    Keeps s none [] (t.returnPrompt prompt) := by
  have hredirected : t.isRedirected prompt.id = s.redirectStart.isSome := by
    rw [isRedirected, hcleared.redirectStart]
    exact h.isRedirected_iff hprompt
  unfold returnPrompt
  rw [hredirected]
  cases hr : s.redirectStart with
  | none => exact keeps_restoreFailedPrompt h hcleared hprompt hr
  | some pending => exact keeps_takeRedirectStart h hcleared hprompt hr

/-- What is left when nothing was on its way. -/
theorem keeps_cleared (h : s.Sound) {t : State} (hcleared : Cleared s t)
    (hnone : s.unstarted = none) : Keeps s none [] t := by
  have hout : ∀ {promptId}, s.isQueued promptId = false → t.isQueued promptId = false := by
    intro promptId hnot
    rwa [isQueued, hcleared.queue]
  refine .of_held ?_ fun package => ?_
  · refine hcleared.quiet.sound ?_ ?_ ?_ ?_
    · rw [hcleared.queue]
      exact h.nodup
    · exact hcleared.redirectStart.trans (h.redirectStart_eq_none hnone)
    · intro promptId hsome
      exact hout (h.blocked promptId (hcleared.replayBlockedPrompt.symm.trans hsome)).1
    · intro promptId hsome
      exact hout (h.recoverable promptId (hcleared.recoverablePrompt.symm.trans hsome)).1
  · rw [hcleared.quiet.held_eq, held, hnone, hcleared.pendingHandoff, hcleared.queue]
    rfl

theorem Sound.starting_eq_none (h : s.Sound) {prompt : OutgoingPrompt}
    (hprompt : s.pendingSessionPrompt = some prompt) : s.startingTurn = none :=
  (h.creating (by rw [hprompt]; rfl)).1

/-- While a prompt waits for its turn, none waits for its session. -/
theorem Sound.pendingSessionPrompt_eq_none (h : s.Sound) {prompt : OutgoingPrompt}
    (hprompt : s.startingTurn = some prompt) : s.pendingSessionPrompt = none := by
  cases hp : s.pendingSessionPrompt with
  | none => rfl
  | some other =>
    rw [h.starting_eq_none hp] at hprompt
    cases hprompt

/-! ## Starts that fail -/

theorem keeps_startSessionFailed (h : s.Sound) (code : Int) :
    Keeps s none (s.startSessionFailed code).2 (s.startSessionFailed code).1 := by
  unfold startSessionFailed
  split
  · exact .refl h
  · split
    · next hnone =>
      refine .of_held ⟨h.nodup, fun hsome => ?_, h.starting, h.unqueued, h.reserved, h.blocked,
        h.recoverable, h.free⟩ fun _ => rfl
      rw [show (_ : Option OutgoingPrompt) = none from hnone] at hsome
      cases hsome
    · next prompt hprompt =>
      have hcleared : Cleared s { s with creatingSession := false, pendingSessionPrompt := none } :=
        ⟨rfl, h.starting_eq_none hprompt, rfl, rfl, rfl, rfl, rfl⟩
      exact keeps_returnPrompt h hcleared (by rw [unstarted, hprompt]; rfl)

theorem keeps_startTurnFailed (h : s.Sound) (code : Int) :
    Keeps s none (s.startTurnFailed code).2 (s.startTurnFailed code).1 := by
  unfold startTurnFailed
  split
  · exact .refl h
  · split
    · next prompt hprompt =>
      have hnone := h.pendingSessionPrompt_eq_none hprompt
      have hcleared : Cleared s { s with startingTurn := none } :=
        ⟨hnone, rfl, rfl, rfl, rfl, rfl, rfl⟩
      exact keeps_returnPrompt h hcleared (by rw [unstarted, hnone, hprompt]; rfl)
    · exact keeps_drainQueue h

/-- A session that is lost returns its prompt as a start that fails does. -/
theorem releaseUnstarted_eq (h : s.Sound) :
    ∃ t, Cleared s t ∧ s.releaseUnstarted = s.unstarted.elim t t.returnPrompt := by
  refine ⟨{ s with
      pendingSessionPrompt := none
      startingTurn := if s.pendingSessionPrompt.isSome then s.startingTurn else none
      activeTurn := none
      creatingSession := false
      pendingRedirect := none }, ⟨rfl, ?_, rfl, rfl, rfl, rfl, rfl⟩, ?_⟩
  · dsimp only
    split
    · next hsome => exact (h.creating hsome).1
    · rfl
  · unfold releaseUnstarted
    dsimp only
    cases hprompt : s.unstarted with
    | none =>
      have hr := h.redirectStart_eq_none hprompt
      simp only [Option.elim_none, takeRedirectStart, hr]
    | some prompt =>
      have hredirected := h.isRedirected_iff hprompt
      dsimp only [Option.elim_some]
      cases hr : s.redirectStart with
      | none =>
        rw [hr] at hredirected
        simp only [returnPrompt, isRedirected, hr, Option.any_none, Bool.false_eq_true, if_false,
          takeRedirectStart]
      | some pending =>
        simp only [isRedirected, hr, Option.any_some, Option.isSome_some] at hredirected
        simp only [returnPrompt, isRedirected, hr, Option.any_some, hredirected, if_true]

theorem keeps_releaseUnstarted (h : s.Sound) : Keeps s none [] s.releaseUnstarted := by
  obtain ⟨t, hcleared, heq⟩ := releaseUnstarted_eq h
  rw [heq]
  cases hprompt : s.unstarted with
  | none => exact keeps_cleared h hcleared hprompt
  | some prompt => exact keeps_returnPrompt h hcleared hprompt

/-! ## Orderly steps -/

/-- No turn and no failed reload is reported while a session is being created, and the change of a
provider that could not be stored was not made for a reserved prompt. -/
def Orderly (s : State) : Action → Prop
  | .turnStarted _ | .reloadFailed => s.pendingSessionPrompt = none
  | .primaryTransitionFailed => s.redirectStart = none
  | _ => True

/-- What a session looks like when the turn of the prompt on its way has started. -/
theorem observeTurnStarted_of_starting (h : s.Sound) {prompt : OutgoingPrompt}
    (hprompt : s.startingTurn = some prompt) (turnId : String) :
    s.observeTurnStarted turnId =
      { s with startingTurn := none, redirectStart := none, activeTurn := some turnId } := by
  have hnone := h.pendingSessionPrompt_eq_none hprompt
  have hunstarted : s.unstarted = some prompt := by rw [unstarted, hnone, hprompt]; rfl
  have hredirected := h.isRedirected_iff hunstarted
  rw [observeTurnStarted, h.starting (by rw [hprompt]; rfl)]
  dsimp only
  rw [hprompt, Option.any_some, hredirected]
  cases hr : s.redirectStart with
  | none => rfl
  | some pending => rfl

/-- The turn that starts takes the package of its prompt. -/
theorem keeps_started (h : s.Sound) {prompt : OutgoingPrompt}
    (hprompt : s.startingTurn = some prompt) (activeTurn : Option String) :
    Keeps s none [.started prompt.id prompt.handoff]
      { s with startingTurn := none, redirectStart := none, activeTurn } := by
  have hnone := h.pendingSessionPrompt_eq_none hprompt
  have hquiet : { s with startingTurn := none, redirectStart := none, activeTurn }.Quiet :=
    ⟨hnone, rfl⟩
  refine ⟨?_, fun package => ?_⟩
  · exact hquiet.sound h.nodup rfl (fun promptId hsome => (h.blocked promptId hsome).1)
      fun promptId hsome => (h.recoverable promptId hsome).1
  · rw [Balanced, hquiet.held_eq, held, unstarted, hnone, hprompt]
    simp only [tally_cons, tally_nil, Note.made?, Note.delivered?, Note.dropped?, count_none]
    show _ + count package prompt.handoff + queuedCount package s.queue + 0 + _ = _
    omega

theorem keeps_turnStarted (h : s.Sound) (hnone : s.pendingSessionPrompt = none) (turnId : String) :
    Keeps s none s.startedNotes (s.observeTurnStarted turnId) := by
  cases hactive : s.activeTurn with
  | some active =>
    rw [startedNotes, observeTurnStarted, hactive]
    exact .refl h
  | none =>
    cases hprompt : s.startingTurn with
    | some prompt =>
      rw [observeTurnStarted_of_starting h hprompt, startedNotes, hactive, hprompt]
      exact keeps_started h hprompt (some turnId)
    | none =>
      have hr := h.redirectStart_eq_none (by rw [unstarted, hnone, hprompt]; rfl)
      have heq : s.observeTurnStarted turnId =
          { s with startingTurn := none, activeTurn := some turnId } := by
        rw [observeTurnStarted, hactive, hprompt]
        rfl
      have hquiet : { s with startingTurn := none, activeTurn := some turnId }.Quiet := ⟨hnone, rfl⟩
      rw [startedNotes, heq, hactive, hprompt]
      refine .of_held ?_ fun package => ?_
      · exact hquiet.sound h.nodup hr (fun promptId hsome => (h.blocked promptId hsome).1)
          fun promptId hsome => (h.recoverable promptId hsome).1
      · rw [held, held, unstarted, unstarted, hprompt]

/-- A session whose turn is over, before what runs next. -/
def finished (s : State) : State :=
  { s with startingTurn := none, redirectStart := none, activeTurn := none }

theorem Sound.finished (h : s.Sound) (hnone : s.pendingSessionPrompt = none) :
    s.finished.Sound ∧ s.finished.Quiet := by
  have hquiet : s.finished.Quiet := ⟨hnone, rfl⟩
  exact ⟨hquiet.sound h.nodup rfl (fun promptId hsome => (h.blocked promptId hsome).1)
    fun promptId hsome => (h.recoverable promptId hsome).1, hquiet⟩

/-- How a turn completes: it is not the current one, it is over, it failed before it was seen to
start, or it is over and had not been seen to start. -/
theorem completeTurn_cases (h : s.Sound) (turnId : String) (outcome : TurnOutcome) :
    (s.startingTurn = none ∧ s.completeTurn turnId outcome = (s, [])) ∨
      (s.Quiet ∧ s.completeTurn turnId outcome = s.finished.continueAfterTurn outcome) ∨
      ∃ prompt, s.startingTurn = some prompt ∧ s.pendingSessionPrompt = none ∧
        (outcome = .failed ∧
          s.completeTurn turnId outcome = (s.finished.restoreFailedPrompt prompt, []) ∨
        outcome ≠ .failed ∧ s.completeTurn turnId outcome =
          ((s.finished.continueAfterTurn outcome).1,
            [.started prompt.id prompt.handoff] ++ (s.finished.continueAfterTurn outcome).2)) := by
  cases hprompt : s.startingTurn with
  | none =>
    have hfailed : s.failedBeforeStart outcome = none := by
      rw [failedBeforeStart, hprompt, ite_self]
    have hnotes : s.startedNotes = [] := by
      rw [startedNotes, hprompt]
      split <;> rfl
    have heq : s.completeTurn turnId outcome = if s.activeTurn != some turnId then (s, []) else
        { s with activeTurn := none, startingTurn := none }.continueAfterTurn outcome := by
      unfold completeTurn
      simp only [hfailed, hnotes, hprompt, Option.isSome_none, Bool.and_false, Bool.false_eq_true,
        if_false, List.nil_append]
    rw [heq]
    split
    · exact .inl ⟨rfl, rfl⟩
    · next hcurrent =>
      have hactive : s.activeTurn = some turnId := by simpa using hcurrent
      have hnone : s.pendingSessionPrompt = none := by
        cases hp : s.pendingSessionPrompt with
        | none => rfl
        | some prompt =>
          rw [(h.creating (by rw [hp]; rfl)).2.1] at hactive
          cases hactive
      have hquiet : s.Quiet := ⟨hnone, hprompt⟩
      refine .inr (.inl ⟨hquiet, ?_⟩)
      rw [finished, ← h.redirectStart_eq_none hquiet.unstarted]
  | some prompt =>
    have hactive := h.starting (by rw [hprompt]; rfl)
    refine .inr (.inr ⟨prompt, rfl, h.pendingSessionPrompt_eq_none hprompt, ?_⟩)
    by_cases hfailed : outcome = .failed
    · have hprompt' : s.failedBeforeStart outcome = some prompt := by
        rw [failedBeforeStart, hfailed, hactive, hprompt]
        rfl
      refine .inl ⟨hfailed, ?_⟩
      unfold completeTurn
      simp only [hprompt, hactive, observeTurnStarted_of_starting h hprompt, hprompt',
        Option.isNone_none, Option.isSome_some, Bool.and_self, if_true, bne_self_eq_false,
        Bool.false_eq_true, if_false, finished]
    · have hnotfailed : s.failedBeforeStart outcome = none := by
        rw [failedBeforeStart, beq_eq_false_iff_ne.2 hfailed]
        rfl
      have hnotes : s.startedNotes = [.started prompt.id prompt.handoff] := by
        rw [startedNotes, hactive, hprompt]
        rfl
      refine .inr ⟨hfailed, ?_⟩
      unfold completeTurn
      simp only [hprompt, hactive, observeTurnStarted_of_starting h hprompt, hnotfailed, hnotes,
        Option.isNone_none, Option.isSome_some, Option.isSome_none, Bool.and_self, if_true,
        bne_self_eq_false, Bool.false_eq_true, if_false, finished]

theorem keeps_completeTurn (h : s.Sound) (turnId : String) (outcome : TurnOutcome) :
    Keeps s none (s.completeTurn turnId outcome).2 (s.completeTurn turnId outcome).1 := by
  rcases completeTurn_cases h turnId outcome with
    ⟨-, heq⟩ | ⟨hquiet, heq⟩ | ⟨prompt, hprompt, hnone, ⟨-, heq⟩ | ⟨-, heq⟩⟩
  · rw [heq]
    exact .refl h
  · obtain ⟨hsound, hafter⟩ := h.finished hquiet.creating
    obtain ⟨hkept, hbalanced⟩ := keeps_continueAfterTurn hsound hafter rfl outcome
    rw [heq]
    refine ⟨hkept, fun package => ?_⟩
    have hbalance := hbalanced package
    rw [Balanced, hafter.held_eq] at hbalance
    rw [Balanced, hquiet.held_eq]
    exact hbalance
  · have hsound : { s with redirectStart := none }.Sound :=
      ⟨h.nodup, h.creating, h.starting, h.unqueued, fun _ hsome => (by cases hsome),
        h.blocked, h.recoverable, h.free⟩
    have hcleared : Cleared { s with redirectStart := none } s.finished :=
      ⟨hnone, rfl, rfl, rfl, rfl, rfl, rfl⟩
    obtain ⟨hkept, hbalanced⟩ := keeps_restoreFailedPrompt hsound hcleared
      (show _ = some prompt by rw [unstarted, hnone, hprompt]; rfl) rfl
    rw [heq]
    exact ⟨hkept, hbalanced⟩
  · have hstarted := keeps_started h hprompt none
    obtain ⟨hsound, hafter⟩ := h.finished hnone
    have hcontinued := keeps_continueAfterTurn hsound hafter rfl outcome
    rw [heq]
    exact ⟨hcontinued.sound, fun package =>
      balanced_append (hstarted.balanced package) (hcontinued.balanced package)⟩

/-! ## The backend -/

/-- A session that is there starts the turn of the prompt that waited for it. -/
theorem keeps_handleSessionCreated (h : s.Sound) (providerSessionId model : String) :
    Keeps s none (s.handleSessionCreated providerSessionId model).2
      (s.handleSessionCreated providerSessionId model).1 := by
  unfold handleSessionCreated startPromptOnSession
  split
  · exact .refl h
  · dsimp only
    split
    · next hnone =>
      refine .of_held ⟨h.nodup, fun hsome => ?_, h.starting, h.unqueued, h.reserved, h.blocked,
        h.recoverable, h.free⟩ fun _ => rfl
      rw [show (_ : Option OutgoingPrompt) = none from hnone] at hsome
      cases hsome
    · next prompt hprompt =>
      obtain ⟨-, hactive, -⟩ := h.creating (by rw [hprompt]; rfl)
      have hunstarted : s.unstarted = some prompt := by rw [unstarted, hprompt]; rfl
      refine ⟨⟨h.nodup, fun hsome => (by cases hsome), fun _ => hactive, ?_, ?_, ?_, ?_, ?_⟩,
        fun package => ?_⟩
      · intro other hother
        exact h.unqueued other (hunstarted.trans hother)
      · intro pending hsome
        obtain ⟨other, hother, hsame⟩ := h.reserved pending hsome
        exact ⟨other, hunstarted.symm.trans hother, hsame⟩
      · intro promptId hsome
        obtain ⟨hnot, haway⟩ := h.blocked promptId hsome
        exact ⟨hnot, fun other hother => haway other (hunstarted.trans hother)⟩
      · intro promptId hsome
        obtain ⟨hnot, haway⟩ := h.recoverable promptId hsome
        exact ⟨hnot, fun other hother => haway other (hunstarted.trans hother)⟩
      · intro
        exact h.free (by rw [hunstarted]; rfl)
      · rw [Balanced, held, held, hunstarted]
        rfl

theorem sessionPrimaryTransitionFailed_eq (h : s.Sound) :
    ∃ t, Cleared s t ∧
      s.sessionPrimaryTransitionFailed = s.unstarted.elim t t.restoreFailedPrompt := by
  refine ⟨{ s with
      startingTurn := none
      pendingSessionPrompt := if s.startingTurn.isSome then s.pendingSessionPrompt else none
      creatingSession := false
      providerSessionId := none
      activeTurn := none }, ⟨?_, rfl, rfl, rfl, rfl, rfl, rfl⟩, ?_⟩
  · dsimp only
    split
    · next hsome =>
      obtain ⟨prompt, hprompt⟩ := Option.isSome_iff_exists.1 hsome
      exact h.pendingSessionPrompt_eq_none hprompt
    · rfl
  · have hfailed : (s.startingTurn <|> s.pendingSessionPrompt) = s.unstarted := by
      cases hprompt : s.startingTurn with
      | none => cases hp : s.pendingSessionPrompt <;> simp [unstarted, hprompt, hp]
      | some prompt => simp [unstarted, hprompt, h.pendingSessionPrompt_eq_none hprompt]
    unfold sessionPrimaryTransitionFailed
    dsimp only
    rw [hfailed]
    cases s.unstarted <;> rfl

theorem keeps_sessionPrimaryTransitionFailed (h : s.Sound) (hredirect : s.redirectStart = none) :
    Keeps s none [] s.sessionPrimaryTransitionFailed := by
  obtain ⟨t, hcleared, heq⟩ := sessionPrimaryTransitionFailed_eq h
  rw [heq]
  cases hprompt : s.unstarted with
  | none => exact keeps_cleared h hcleared hprompt
  | some prompt => exact keeps_restoreFailedPrompt h hcleared hprompt hredirect

/-! ## All steps -/

theorem keeps_step (h : s.Sound) {action : Action} (horderly : s.Orderly action) :
    Keeps s none (s.step action).2 (s.step action).1 := by
  cases action with
  | submit promptId text => exact keeps_submitPrompt h promptId text
  | enqueue promptId text => exact keeps_enqueuePrompt h promptId text
  | remove promptId => exact keeps_removeQueuedPrompt h promptId
  | steerQueued promptId native => exact keeps_steerQueuedPrompt h promptId native
  | steerAccepted promptId => exact keeps_handleSteerAccepted h promptId
  | selectModel provider modelId => exact keeps_selectModel h provider modelId
  | drain => exact keeps_drainQueue h
  | sessionCreated providerSessionId model =>
    exact keeps_handleSessionCreated h providerSessionId model
  | sessionObserved providerSessionId =>
    show Keeps s none [] (ite _ _ _)
    split
    · exact .of_held ⟨h.nodup, h.creating, h.starting, h.unqueued, h.reserved, h.blocked,
        h.recoverable, h.free⟩ fun _ => rfl
    · exact .refl h
  | turnStarted turnId =>
    show Keeps s none (ite _ _ _ : State × List Note).2 (ite _ _ _ : State × List Note).1
    split
    · exact .refl h
    · exact keeps_turnStarted h horderly turnId
  | turnCompleted turnId outcome => exact keeps_completeTurn h turnId outcome
  | startSessionFailed code => exact keeps_startSessionFailed h code
  | startTurnFailed code => exact keeps_startTurnFailed h code
  | interruptTurnFailed =>
    exact .of_held ⟨h.nodup, h.creating, h.starting, h.unqueued, h.reserved, h.blocked,
      h.recoverable, h.free⟩ fun _ => rfl
  | reloadFailed =>
    refine .of_held ⟨h.nodup, fun hsome => ?_, h.starting, h.unqueued, h.reserved, h.blocked,
      h.recoverable, h.free⟩ fun _ => rfl
    rw [show (s.step .reloadFailed).1.pendingSessionPrompt = none from horderly] at hsome
    cases hsome
  | sessionClosed providerSessionId =>
    show Keeps s none [] (s.handleSessionClosed providerSessionId)
    unfold handleSessionClosed
    split
    · exact .refl h
    · have hsound : { s with providerSessionId := none }.Sound :=
        ⟨h.nodup, h.creating, h.starting, h.unqueued, h.reserved, h.blocked, h.recoverable, h.free⟩
      obtain ⟨hkept, hbalanced⟩ := keeps_releaseUnstarted hsound
      exact ⟨hkept, hbalanced⟩
  | disconnected =>
    have hsound : { s with ready := false }.Sound :=
      ⟨h.nodup, h.creating, h.starting, h.unqueued, h.reserved, h.blocked, h.recoverable, h.free⟩
    obtain ⟨hkept, hbalanced⟩ := keeps_releaseUnstarted hsound
    exact ⟨hkept, hbalanced⟩
  | primaryTransitionFailed => exact keeps_sessionPrimaryTransitionFailed h horderly
  | surroundings new =>
    exact .of_held ⟨h.nodup, h.creating, h.starting, h.unqueued, h.reserved, h.blocked,
      h.recoverable, h.free⟩ fun _ => rfl

end State

open Transition

/-- The notes of a run. -/
def notesOf (labels : List (Action × List Note)) : List Note := labels.flatMap (·.2)

/-- Every orderly run keeps the slots sound and accounts for every package. -/
theorem keeps_run {s s' : State} {labels : List (Action × List Note)} (h : s.Sound)
    (hrun : (relay.restrict fun s label => s.Orderly label.1).Run s labels s') :
    Keeps s none (notesOf labels) s' := by
  induction hrun with
  | nil => exact .refl h
  | @cons s t s' label labels hnext _ ih =>
    obtain ⟨horderly, hstep⟩ := hnext
    have hkeeps := State.keeps_step h horderly
    rw [hstep] at hkeeps
    obtain ⟨hsound, hbalanced⟩ := ih hkeeps.sound
    refine ⟨hsound, fun package => ?_⟩
    rw [notesOf, List.flatMap_cons]
    exact State.balanced_append (hkeeps.balanced package) (hbalanced package)

end Nakode.Handoff
