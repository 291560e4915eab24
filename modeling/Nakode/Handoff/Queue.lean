import Nakode.Handoff.Steps

/-!
# The packages of queued prompts

A queued prompt stays in the queue with its package until it begins, unless its owner takes it out
or the provider takes it as guidance (`retains_step`).
-/

namespace Nakode.Handoff

/-- The queued prompt that an action takes out of the queue. -/
def Action.removes : Action → Option String
  | .remove promptId | .steerAccepted promptId => some promptId
  | _ => none

namespace State

variable {s : State}

/-- A queued prompt is still queued with its package, or is on its way. -/
def Retains (s : State) (removed : Option String) (s' : State) : Prop :=
  ∀ queued ∈ s.queue, removed ≠ some queued.id →
    (∃ kept ∈ s'.queue, kept.id = queued.id ∧ kept.handoff = queued.handoff) ∨
      ∃ prompt, s'.unstarted = some prompt ∧ prompt.id = queued.id

theorem Retains.of_subset {removed : Option String} {s' : State} (h : s.queue ⊆ s'.queue) :
    Retains s removed s' :=
  fun queued hmem _ => .inl ⟨queued, h hmem, rfl, rfl⟩

/-- A prompt that begins is on its way, or is back in the queue. -/
theorem Begins.retains {t : State} {prompt : QueuedPrompt} {removed : Option String}
    (h : t.Begins prompt) (hqueue : ∀ queued ∈ s.queue, removed ≠ some queued.id →
      queued ∈ prompt :: t.queue) : Retains s removed (t.beginPrompt prompt).1 := by
  have hput : prompt :: t.queue ⊆ (t.putBack prompt).queue := by
    unfold State.putBack takeRedirectStart
    cases hr : t.redirectStart with
    | none =>
      rw [isRedirected, hr, Option.any_none, if_neg Bool.false_ne_true]
      exact List.Subset.refl _
    | some pending =>
      obtain rfl := h.reserved pending hr
      have hout : ({ t with redirectStart := none } : State).isQueued pending.prompt.id = false :=
        h.unqueued
      obtain ⟨queue, heq, hperm⟩ := restoreRedirectStart_eq hout
      rw [isRedirected, hr, Option.any_some, beq_self_eq_true, if_pos rfl]
      dsimp only
      rw [heq]
      exact hperm.symm.subset
  have hsent : ∀ {t' : State}, t'.Quiet → t'.queue = t.queue →
      Retains s removed (t'.dispatchPrompt prompt).1 := by
    intro t' hquiet hsame queued hmem hstays
    have hbase : ({ t' with pendingHandoff := none }.bindReservation prompt.id
        (t'.pendingHandoff <|> prompt.handoff)).Quiet := ⟨hquiet.creating, hquiet.starting⟩
    have hsent := sendPrompt_sent hbase
      { id := prompt.id, text := prompt.text, handoff := t'.pendingHandoff <|> prompt.handoff }
    rcases List.mem_cons.1 (hqueue queued hmem hstays) with rfl | hrest
    · exact .inr ⟨_, hsent.unstarted, rfl⟩
    · exact .inl ⟨queued, hsent.queue.symm ▸ hsame.symm ▸ hrest, rfl, rfl⟩
  unfold State.beginPrompt
  rcases prepareSelectedProviderTransition_cases t with
    heq | heq | ⟨target, targetReady, sourceModel, -, heq⟩
  · rw [heq]
    exact fun queued hmem hstays => .inl ⟨queued, hput (hqueue queued hmem hstays), rfl, rfl⟩
  · rw [heq]
    exact hsent h.quiet rfl
  · have hswitched : (t.switchTo target targetReady sourceModel).1.Quiet :=
      ⟨h.creating, h.starting⟩
    rw [heq]
    exact hsent hswitched rfl

theorem retains_drainQueue {t : State} (h : t.Sound) {removed : Option String}
    (hqueue : ∀ queued ∈ s.queue, removed ≠ some queued.id → queued ∈ t.queue) :
    Retains s removed t.drainQueue.1 := by
  have hstays : Retains s removed t := fun queued hmem hstays =>
    .inl ⟨queued, hqueue queued hmem hstays, rfl, rfl⟩
  unfold drainQueue
  split
  · exact hstays
  · next hidle =>
    rw [Bool.or_eq_true, not_or, Bool.not_eq_true, Bool.not_eq_true] at hidle
    obtain ⟨hquiet, hactive⟩ := h.quiet_of_not_isBusy hidle.2
    split
    · exact hstays
    · next prompt queue heq =>
      split
      · exact hstays
      · exact (h.begins hquiet hactive (.of_eq heq)).retains fun queued hmem hstays =>
          heq ▸ hqueue queued hmem hstays

theorem mem_eraseP_of_ne {promptId : String} {queued : QueuedPrompt}
    (hmem : queued ∈ s.queue) (hne : some promptId ≠ some queued.id) :
    queued ∈ s.queue.eraseP (·.id == promptId) :=
  by
  refine (List.mem_eraseP_of_neg ?_).2 hmem
  rw [beq_iff_eq]
  exact fun heq => hne (congrArg some heq.symm)

/-- Lost sessions and failed starts put prompts back and take none out. -/
theorem takeRedirectStart_subset {queue : List QueuedPrompt} (hqueue : s.queue = queue) :
    queue ⊆ s.takeRedirectStart.queue := by
  subst hqueue
  unfold takeRedirectStart
  split
  · exact List.Subset.refl _
  · next pending _ =>
    cases hout : ({ s with redirectStart := none } : State).isQueued pending.prompt.id with
    | true =>
      rw [restoreRedirectStart, hout, if_pos rfl]
      exact List.Subset.refl _
    | false =>
      obtain ⟨queue, heq, hperm⟩ := restoreRedirectStart_eq hout
      rw [heq]
      exact fun queued hmem => hperm.symm.subset (List.mem_cons_of_mem _ hmem)

theorem returnPrompt_subset {queue : List QueuedPrompt} (hqueue : s.queue = queue)
    (prompt : OutgoingPrompt) : queue ⊆ (s.returnPrompt prompt).queue := by
  unfold returnPrompt
  split
  · exact takeRedirectStart_subset hqueue
  · exact hqueue ▸ List.Subset.refl _

theorem releaseUnstarted_subset {queue : List QueuedPrompt} (hqueue : s.queue = queue) :
    queue ⊆ s.releaseUnstarted.queue := by
  unfold releaseUnstarted
  dsimp only
  split
  · exact takeRedirectStart_subset hqueue
  · split <;> exact takeRedirectStart_subset hqueue

theorem retains_continueAfterTurn {t : State} (h : t.Sound) (hquiet : t.Quiet)
    (hactive : t.activeTurn = none) (hqueue : t.queue = s.queue) (outcome : TurnOutcome) :
    Retains s none (t.continueAfterTurn outcome).1 := by
  have hmem : ∀ queued ∈ s.queue, queued ∈ t.queue := fun _ hin => hqueue ▸ hin
  have hcleared : { t with pendingRedirect := none }.Sound :=
    ⟨h.nodup, h.creating, h.starting, h.unqueued, h.reserved, h.blocked, h.recoverable, h.free⟩
  unfold continueAfterTurn
  split
  · split
    · exact .of_subset hmem
    · rcases beginPendingRedirect_cases hcleared ⟨hquiet.creating, hquiet.starting⟩ hactive _ with
        heq | ⟨prompt, queue, redirectStart, hperm, hbegins, heq⟩
      · rw [heq]
        exact .of_subset hmem
      · rw [heq]
        exact hbegins.retains fun queued hin _ => hperm.subset (hmem queued hin)
  · exact retains_drainQueue h fun queued hin _ => hmem queued hin

theorem retains_submitPrompt (h : s.Sound) (promptId text : String) :
    Retains s none (s.submitPrompt promptId text).1 := by
  rcases submitPrompt_cases h promptId text with heq | ⟨_, -, -, hbegins, heq⟩
  · rw [heq]
    exact .of_subset (List.Subset.refl _)
  · rw [heq]
    exact hbegins.retains fun queued hmem _ => List.mem_cons_of_mem _ hmem

theorem retains_completeTurn (h : s.Sound) (turnId : String) (outcome : TurnOutcome) :
    Retains s none (s.completeTurn turnId outcome).1 := by
  rcases completeTurn_cases h turnId outcome with
    ⟨-, heq⟩ | ⟨hquiet, heq⟩ | ⟨prompt, -, hnone, ⟨-, heq⟩ | ⟨-, heq⟩⟩
  · rw [heq]
    exact .of_subset (List.Subset.refl _)
  · obtain ⟨hsound, hafter⟩ := h.finished hquiet.creating
    rw [heq]
    exact retains_continueAfterTurn hsound hafter rfl rfl outcome
  · rw [heq]
    exact .of_subset (List.Subset.refl _)
  · obtain ⟨hsound, hafter⟩ := h.finished hnone
    rw [heq]
    exact retains_continueAfterTurn hsound hafter rfl rfl outcome

/-- A step keeps the queued prompts with their packages. -/
theorem retains_step (h : s.Sound) (action : Action) :
    Retains s action.removes (s.step action).1 := by
  cases action with
  | submit promptId text => exact retains_submitPrompt h promptId text
  | enqueue promptId text =>
    show Retains s none (s.enqueuePrompt promptId text).1
    unfold enqueuePrompt
    split
    · exact retains_submitPrompt h promptId text
    · split
      · exact .of_subset (List.Subset.refl _)
      · split
        · exact retains_submitPrompt h promptId text
        · exact .of_subset (List.subset_append_left _ _)
  | remove promptId =>
    show Retains s (some promptId) (s.removeQueuedPrompt promptId).1
    unfold removeQueuedPrompt
    split
    · exact .of_subset (List.Subset.refl _)
    · split
      · exact retains_drainQueue (h.dequeue List.eraseP_sublist) fun queued hmem hne =>
          mem_eraseP_of_ne hmem hne
      · exact .of_subset (List.Subset.refl _)
  | steerQueued promptId native =>
    show Retains s none (s.steerQueuedPrompt promptId native)
    unfold steerQueuedPrompt
    split
    · split
      · intro queued hmem _
        exact .inl ⟨queued.markUncertain promptId, List.mem_map_of_mem hmem,
          queued.markUncertain_id promptId, queued.markUncertain_handoff promptId⟩
      · exact .of_subset (List.Subset.refl _)
    · exact .of_subset (List.Subset.refl _)
  | steerAccepted promptId =>
    intro queued hmem hne
    exact .inl ⟨queued, mem_eraseP_of_ne hmem hne, rfl, rfl⟩
  | selectModel provider modelId =>
    show Retains s none (s.selectModel provider modelId).1
    unfold selectModel
    dsimp only
    split
    · exact .of_subset (List.Subset.refl _)
    · split
      · exact .of_subset (List.Subset.refl _)
      · split <;> exact .of_subset (List.Subset.refl _)
  | drain => exact retains_drainQueue h fun queued hmem _ => hmem
  | sessionCreated providerSessionId model =>
    show Retains s none (s.handleSessionCreated providerSessionId model).1
    unfold handleSessionCreated startPromptOnSession
    dsimp only
    split
    · exact .of_subset (List.Subset.refl _)
    · split <;> exact .of_subset (List.Subset.refl _)
  | sessionObserved providerSessionId =>
    show Retains s none (ite _ _ _)
    split <;> exact .of_subset (List.Subset.refl _)
  | turnStarted turnId =>
    show Retains s none (ite _ _ _ : State × List Note).1
    split
    · exact .of_subset (List.Subset.refl _)
    · dsimp only [observeTurnStarted]
      split <;> exact .of_subset (List.Subset.refl _)
  | turnCompleted turnId outcome => exact retains_completeTurn h turnId outcome
  | startSessionFailed code =>
    show Retains s none (s.startSessionFailed code).1
    unfold startSessionFailed
    split
    · exact .of_subset (List.Subset.refl _)
    · split
      · exact .of_subset (List.Subset.refl _)
      · exact .of_subset (returnPrompt_subset (by rfl) _)
  | startTurnFailed code =>
    show Retains s none (s.startTurnFailed code).1
    unfold startTurnFailed
    split
    · exact .of_subset (List.Subset.refl _)
    · split
      · exact .of_subset (returnPrompt_subset (by rfl) _)
      · exact retains_drainQueue h fun queued hmem _ => hmem
  | interruptTurnFailed => exact .of_subset (List.Subset.refl _)
  | reloadFailed => exact .of_subset (List.Subset.refl _)
  | sessionClosed providerSessionId =>
    show Retains s none (s.handleSessionClosed providerSessionId)
    unfold handleSessionClosed
    split
    · exact .of_subset (List.Subset.refl _)
    · exact .of_subset (releaseUnstarted_subset (by rfl))
  | disconnected => exact .of_subset (releaseUnstarted_subset (by rfl))
  | primaryTransitionFailed =>
    obtain ⟨t, hcleared, heq⟩ := sessionPrimaryTransitionFailed_eq h
    show Retains s none s.sessionPrimaryTransitionFailed
    rw [heq]
    refine .of_subset ?_
    cases s.unstarted with
    | none => exact hcleared.queue.symm ▸ List.Subset.refl _
    | some prompt => exact hcleared.queue.symm ▸ List.Subset.refl _
  | surroundings new => exact .of_subset (List.Subset.refl _)

end State

end Nakode.Handoff
