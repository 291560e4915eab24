import Nakode.Domain.Frames

/-!
# What a command and an event can do

Each lemma lists what one function of the reducer can leave behind, with the guards under which it
does so. The invariants of an engine are derived from these lists.
-/

namespace Nakode.Domain.DomainState

variable {s : DomainState}

/-! ## Submitting and queueing -/

/-- Nothing stands against handing a prompt to the provider. -/
structure Idle (s : DomainState) : Prop where
  certain : ∀ p ∈ s.queue, p.deliveryUncertain = false
  ready : s.connection.isReady = true
  idle : s.hasActiveWork = false

theorem idle_of_refusal {retrying : Bool} (h : s.refusal retrying = none) :
    s.Idle ∧ (retrying = false → s.replayBlockedPrompt = none) := by
  unfold refusal at h
  split at h
  · cases h
  next hcertain =>
    split at h
    · cases h
    next hready =>
      split at h
      · cases h
      next hidle =>
        simp only [Bool.or_eq_true, Bool.and_eq_true, not_or, Bool.not_eq_true] at hidle
        refine ⟨⟨by simpa using hcertain, by simpa using hready, hidle.1⟩, fun hretry => ?_⟩
        simpa [hretry] using hidle.2

/-- The engine has taken on a prompt of this identity before. -/
def known (s : DomainState) (promptId text : String) (attachments : List PromptAttachment) : Bool :=
  (s.blockedReplay promptId).isSome || (s.promptIdentityMatches promptId text attachments).isSome

/-- The prompt that a submission makes. -/
def submitted (promptId text : String) (attachments : List PromptAttachment)
    (sourceTransport : Option String) : QueuedPrompt :=
  { deliveryUncertain := false, id := promptId, text, attachments, sourceTransport }

/-- A submission is refused, or was settled before, or its prompt is begun in an idle session. -/
theorem submit_cases (promptId text : String) (attachments : List PromptAttachment)
    (sourceTransport : Option String) (suppress : Bool) :
    (∃ e, s.submitPromptWithIdentityPolicy promptId text attachments sourceTransport suppress =
      (.error e, s)) ∨
    (s.submitPromptWithIdentityPolicy promptId text attachments sourceTransport suppress =
        (.ok [], s) ∧ suppress = true ∧ s.known promptId text attachments = true) ∨
    (s.Idle ∧ ((s.replayBlockedPrompt = none ∧
        (suppress = true → s.promptIdentityMatches promptId text attachments = none)) ∨
        ∃ b, s.replayBlockedPrompt = some b ∧ b.id = promptId) ∧
      s.submitPromptWithIdentityPolicy promptId text attachments sourceTransport suppress =
        let begun := { s with replayBlockedPrompt := none, recoverablePrompt := none }.beginPrompt
          (submitted promptId text attachments sourceTransport)
        (.ok begun.2, begun.1)) := by
  unfold submitPromptWithIdentityPolicy
  split
  · exact .inl ⟨_, rfl⟩
  · exact .inl ⟨_, rfl⟩
  dsimp only
  split
  · exact .inl ⟨_, rfl⟩
  split
  next hsettled =>
    split at hsettled
    next hnew =>
      simp only [Bool.and_eq_true] at hnew
      exact .inr (.inl ⟨rfl, hnew.1, by simp [known, hsettled]⟩)
    next => cases hsettled
  next => exact .inl ⟨_, rfl⟩
  next hunknown =>
    cases hrefusal : s.refusal (s.blockedReplay promptId).isSome with
    | some e => exact .inl ⟨e, by simp only⟩
    | none =>
      obtain ⟨hidle, hblocked⟩ := idle_of_refusal hrefusal
      refine .inr (.inr ⟨hidle, ?_, ?_⟩)
      · cases hretry : s.blockedReplay promptId with
        | none =>
          simp only [hretry, Option.isSome_none, Bool.not_false, Bool.and_true] at hunknown hblocked
          refine .inl ⟨hblocked trivial, fun hsuppress => ?_⟩
          simpa [hsuppress] using hunknown
        | some b =>
          obtain ⟨hb, hid⟩ := Option.filter_eq_some_iff.1 hretry
          exact .inr ⟨b, hb, by simpa using hid⟩
      · have hnone : (if (s.blockedReplay promptId).isSome then none else s.replayBlockedPrompt) =
            none := by
          split
          · rfl
          next hretry => exact hblocked (by simpa using hretry)
        simp only [hnone, submitted]

/-- While work is in progress no prompt is replayed. -/
theorem replay_of_busy (hbusy : s.hasActiveWork = true) (prompt : QueuedPrompt) :
    ∃ e, s.replayPendingPromptWithIdAndSource prompt.id prompt.text prompt.attachments
      prompt.sourceTransport = (.error e, s) := by
  rcases s.submit_cases prompt.id prompt.text prompt.attachments prompt.sourceTransport false with
    ⟨e, heq⟩ | ⟨-, hsuppress, -⟩ | ⟨hidle, -⟩
  · exact ⟨e, heq⟩
  · cases hsuppress
  · rw [hidle.idle] at hbusy
    cases hbusy

/-- A prompt to queue is refused, or was settled before, or is submitted, or joins the queue of a
busy session. -/
theorem enqueue_cases (promptId text : String) (attachments : List PromptAttachment) :
    (∃ e, s.enqueuePromptWithId promptId text attachments = (.error e, s)) ∨
    (s.enqueuePromptWithId promptId text attachments = (.ok [], s) ∧
      s.known promptId text attachments = true) ∨
    (s.enqueuePromptWithId promptId text attachments =
      s.submitPromptWithId promptId text attachments) ∨
    (s.isBusy = true ∧ s.blockedReplay promptId = none ∧
      s.promptIdentityMatches promptId text attachments = none ∧
      s.enqueuePromptWithId promptId text attachments =
        (.ok (s.sessionId.toList.map .recordOwnerActivity),
          { s with
            recoverablePrompt := none
            queue := s.queue ++ [submitted promptId text attachments none] })) := by
  unfold enqueuePromptWithId
  split
  · exact .inl ⟨_, rfl⟩
  · exact .inl ⟨_, rfl⟩
  split
  · split
    · exact .inl ⟨_, rfl⟩
    · exact .inr (.inr (.inl rfl))
  next hblocked =>
    split
    next hsettled => exact .inr (.inl ⟨rfl, by simp [known, hsettled]⟩)
    · exact .inl ⟨_, rfl⟩
    next hunknown =>
      split
      · exact .inr (.inr (.inl rfl))
      next hbusy =>
        exact .inr (.inr (.inr ⟨by simpa using hbusy, hblocked, hunknown, rfl⟩))

/-- The queue is drained of its first prompt, if the session can take it. -/
theorem drain_cases :
    (s.drainQueue = (s, [])) ∨
    ∃ prompt queue, s.queue = prompt :: queue ∧ prompt.deliveryUncertain = false ∧
      s.connection.isReady = true ∧ s.isBusy = false ∧
      s.drainQueue = { s with queue }.beginPrompt prompt := by
  unfold drainQueue
  split
  · exact .inl rfl
  next hidle =>
    simp only [Bool.or_eq_true, Bool.not_eq_true', not_or, Bool.not_eq_false, Bool.not_eq_true]
      at hidle
    split
    · exact .inl rfl
    next prompt queue hqueue =>
      split
      · exact .inl rfl
      next hcertain =>
        exact .inr ⟨prompt, queue, hqueue, by simpa using hcertain, hidle.1, hidle.2, rfl⟩

theorem remove_cases (promptId : String) :
    (∃ e, s.removeQueuedPrompt promptId = (.error e, s)) ∨
    (s.removeQueuedPrompt promptId = (.ok [], s) ∧ promptId ∉ s.queue.map QueuedPrompt.id) ∨
    (s.isRedirecting promptId = false ∧ promptId ∈ s.queue.map QueuedPrompt.id ∧
      s.removeQueuedPrompt promptId =
        let drained := { s with queue := s.queue.eraseP (·.id == promptId) }.drainQueue
        (.ok drained.2, drained.1)) := by
  unfold removeQueuedPrompt
  split
  · exact .inl ⟨_, rfl⟩
  next hredirecting =>
    split
    next hqueued =>
      refine .inr (.inr ⟨by simpa using hredirecting, ?_, rfl⟩)
      simpa using hqueued
    next hqueued => exact .inr (.inl ⟨rfl, by simpa using hqueued⟩)

/-! ## Beginning a prompt -/

theorem sessionId_activateProvider {provider : String} {s' : DomainState}
    (h : s.activateProvider provider = (false, s')) : s'.sessionId = s.sessionId := by
  unfold activateProvider at h
  split at h
  · cases h
  · split at h
    · cases h
      rfl
    · dsimp only at h
      split at h <;> cases h
      rfl

/-- Another provider takes the session over. -/
theorem sessionId_prepareSelectedProviderTransition (s : DomainState) :
    s.prepareSelectedProviderTransition.2.sessionId = s.sessionId := by
  unfold prepareSelectedProviderTransition
  split
  · rfl
  · split
    · rfl
    · split
      next heq => exact sessionId_activateProvider heq
      · rfl

/-- A prompt is begun on the session of the provider, or while that session is created, or goes back
to the queue because its provider is not available. -/
theorem begin_cases (prompt : QueuedPrompt) :
    ∃ s₁, Switches s s₁ ∧ s₁.sessionId = s.sessionId ∧
      (s.beginPrompt prompt = (s₁.putBack prompt, []) ∨
        s.beginPrompt prompt = s₁.dispatchPrompt (s₁.outgoing prompt)) := by
  refine ⟨_, s.switches_prepareSelectedProviderTransition,
    s.sessionId_prepareSelectedProviderTransition, ?_⟩
  unfold beginPrompt
  split
  next s' heq => exact .inl (by rw [heq])
  next s' heq => exact .inr (by rw [heq])

/-! ## Guidance -/

theorem steer_cases (turnId text steerId : String) :
    (∃ e, s.steerTurn turnId text steerId = (.error e, s)) ∨
    ∃ active effects, s.activeTurn = some active ∧ active.id = turnId ∧ s.pendingSteer = none ∧
      s.steerTurn turnId text steerId = (.ok effects,
        { s with pendingSteer := some { id := steerId, text, turnId, queuedOrigin := none } }) := by
  unfold steerTurn
  split
  · exact .inl ⟨_, rfl⟩
  split
  · exact .inl ⟨_, rfl⟩
  split
  · exact .inl ⟨_, rfl⟩
  next hpending =>
    split
    · exact .inl ⟨_, rfl⟩
    next active hactive =>
      split
      · exact .inl ⟨_, rfl⟩
      next hid =>
        split
        · exact .inl ⟨_, rfl⟩
        split
        · exact .inl ⟨_, rfl⟩
        · exact .inr ⟨active, _, hactive, by simpa using hid, by simpa using hpending, rfl⟩

theorem cancel_cases (turnId : String) :
    (∃ e, s.cancelTurn turnId = (.error e, s)) ∨
    ∃ active effects, s.activeTurn = some active ∧ active.id = turnId ∧
      s.cancelTurn turnId =
        (.ok effects, { s with activeTurn := some { active with cancelling := true } }) := by
  unfold cancelTurn
  split
  · exact .inl ⟨_, rfl⟩
  split
  · exact .inl ⟨_, rfl⟩
  next active hactive =>
    split
    · exact .inl ⟨_, rfl⟩
    next hid =>
      split
      · exact .inl ⟨_, rfl⟩
      split
      · exact .inl ⟨_, rfl⟩
      · exact .inr ⟨active, _, hactive, by simpa using hid, rfl⟩

/-- A queued prompt stays in the queue when it is steered: as guidance of uncertain delivery, or
reserved to run when the turn has been interrupted. -/
theorem steerQueued_cases (promptId steerId : String) :
    (∃ e, s.steerQueuedPrompt promptId steerId = (.error e, s)) ∨
    (∃ prompt active effects, s.queue.find? (·.id == promptId) = some prompt ∧
      s.activeTurn = some active ∧ s.pendingSteer = none ∧ s.pendingRedirect = none ∧
      s.steerQueuedPrompt promptId steerId = (.ok effects,
        { s with
          queue := s.queue.modify (s.queue.findIdx (·.id == promptId)) fun p =>
            { p with deliveryUncertain := true }
          pendingSteer := some
            { id := steerId, text := prompt.text, turnId := active.id,
              queuedOrigin := some ⟨promptId⟩ } })) ∨
    ∃ prompt active effects, s.queue.find? (·.id == promptId) = some prompt ∧
      prompt.deliveryUncertain = false ∧ s.activeTurn = some active ∧ s.pendingSteer = none ∧
      s.pendingRedirect = none ∧
      s.steerQueuedPrompt promptId steerId = (.ok effects,
        { s with
          activeTurn := some { active with cancelling := true }
          pendingRedirect := some ⟨promptId⟩ }) := by
  unfold steerQueuedPrompt
  split
  · exact .inl ⟨_, rfl⟩
  next prompt hprompt =>
    split
    · exact .inl ⟨_, rfl⟩
    next hsteer =>
      split
      · exact .inl ⟨_, rfl⟩
      next hcertain =>
        split
        · exact .inl ⟨_, rfl⟩
        next active hactive =>
          split
          · exact .inl ⟨_, rfl⟩
          next hredirect =>
            have hsteer' : s.pendingSteer = none := by simpa using hsteer
            have hredirect' : s.pendingRedirect = none := by simpa using hredirect
            split
            · rcases s.steer_cases active.id prompt.text steerId with ⟨e, h⟩ | ⟨_, effects, -, -, -, h⟩
              · exact .inl ⟨e, by rw [h]⟩
              · exact .inr (.inl ⟨prompt, active, effects, hprompt, hactive, hsteer', hredirect',
                  by rw [h]; rfl⟩)
            · split
              · exact .inl ⟨_, rfl⟩
              unfold redirectQueuedPrompt
              split
              next hcancelling =>
                have hsame : active = { active with cancelling := true } := by
                  simp only [hactive, Option.any_some] at hcancelling
                  rw [← hcancelling]
                refine .inr (.inr ⟨prompt, active, [], hprompt, by simpa using hcertain, hactive,
                  hsteer', hredirect', ?_⟩)
                rw [← hsame, ← hactive]
              next =>
                rcases s.cancel_cases active.id with ⟨e, h⟩ | ⟨active', effects, hactive', -, h⟩
                · exact .inl ⟨e, by rw [h]⟩
                · obtain rfl : active = active' := by simpa [hactive] using hactive'
                  exact .inr (.inr ⟨prompt, active, effects, hprompt, by simpa using hcertain,
                    hactive, hsteer', hredirect', by rw [h]⟩)

/-- The queued prompt that leaves the queue when guidance for a turn is accepted. -/
def acceptedGuidance (s : DomainState) (turnId : String) : Option String :=
  if s.turnIsCurrent turnId then
    (((s.pendingSteer.filter (·.turnId == turnId)).bind (·.queuedOrigin)).map (·.promptId)).filter
      fun promptId => s.queue.any (·.id == promptId)
  else
    none

/-- What an accepted guidance does: the queued prompt it was leaves the queue. -/
theorem steerAccepted_cases (turnId : String) :
    (s.acceptedGuidance turnId = none ∧
      ∃ b, s.handleSteerAccepted turnId = (b, { s with pendingSteer := none })) ∨
    ∃ promptId, s.acceptedGuidance turnId = some promptId ∧
      s.queue.any (·.id == promptId) = true ∧
      s.handleSteerAccepted turnId = (true,
        { s with pendingSteer := none, queue := s.queue.eraseP (·.id == promptId) }) := by
  unfold handleSteerAccepted
  split
  next hnone =>
    have hsame : { s with pendingSteer := none } = s := by rw [← hnone]
    exact .inl ⟨by simp [acceptedGuidance, hnone], false, by rw [hsame]⟩
  next pending hpending =>
    dsimp only
    have hcurrent : { s with pendingSteer := none }.turnIsCurrent turnId = s.turnIsCurrent turnId :=
      rfl
    rw [hcurrent]
    split
    next hturn =>
      refine .inl ⟨?_, false, rfl⟩
      by_cases hid : pending.turnId = turnId
      · have hlate : s.turnIsCurrent turnId = false := by simpa [hid] using hturn
        simp [acceptedGuidance, hlate]
      · simp [acceptedGuidance, hpending, Option.filter_some, hid]
    next hturn =>
      simp only [Bool.or_eq_true, bne_iff_ne, ne_eq, not_or, not_not, Bool.not_eq_true',
        Bool.not_eq_false] at hturn
      simp only [acceptedGuidance, hpending, hturn, if_true, Option.filter_some, beq_self_eq_true,
        Option.bind_some]
      split
      next hnone => exact .inl ⟨by simp [hnone], true, rfl⟩
      next origin horigin =>
        simp only [horigin, Option.map_some, Option.filter_some]
        split
        next hqueued => exact .inr ⟨origin.promptId, by simp, hqueued, rfl⟩
        next hqueued => exact .inl ⟨by simp, false, rfl⟩

end Nakode.Domain.DomainState
