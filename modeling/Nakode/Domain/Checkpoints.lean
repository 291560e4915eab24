import Nakode.Domain.Store

/-!
# The checkpoints of a step

A step that puts a prompt on its way to a provider asks for the prompt's row to be recorded, and for
its session to be created if there is none (`Checkpointed`). Each function of the reducer does so,
and leaves the session that the engine is in alone (`Follows`, `Remains`).
-/

namespace Nakode.Domain.DomainState

variable {s s' : DomainState}

/-- A prompt is on its way that was not only if its checkpoint is among the effects. -/
inductive Checkpointed (before : Option OutgoingPrompt) : DomainState × List Effect → Prop
  | kept {s' : DomainState} {effects : List Effect} :
      effects.filter isPromptCheckpoint = [] →
      s'.startingTurn = before ∨ s'.startingTurn = none → Checkpointed before (s', effects)
  | accepted {s' : DomainState} {effects : List Effect} {sessionId : String}
      {prompt : OutgoingPrompt} :
      effects.filter isPromptCheckpoint =
        [.persistAcceptedOwnerPrompt sessionId (acceptedOwnerPrompt prompt)] →
      sessionId = s'.nakodeSessionId ∨ s'.sessionId = some sessionId →
      s'.startingTurn = some prompt → Checkpointed before (s', effects)
  | created {s' : DomainState} {effects : List Effect} {provider providerSessionId title : String}
      {model : Option String} {prompt : OutgoingPrompt} :
      effects.filter isPromptCheckpoint =
        [.persistSession provider providerSessionId title model,
          .persistAcceptedOwnerPrompt s'.nakodeSessionId (acceptedOwnerPrompt prompt)] →
      s'.startingTurn = some prompt ∨ s'.startingTurn = none → Checkpointed before (s', effects)

/-- A step stays in the session and checkpoints what it puts on its way. -/
structure Follows (s : DomainState) (result : DomainState × List Effect) : Prop where
  nakodeSessionId : result.1.nakodeSessionId = s.nakodeSessionId
  sessionId : result.1.sessionId = s.sessionId
  checkpointed : Checkpointed s.startingTurn result

theorem Follows.kept {effects : List Effect} (hnakode : s'.nakodeSessionId = s.nakodeSessionId)
    (hsession : s'.sessionId = s.sessionId)
    (hstarting : s'.startingTurn = s.startingTurn ∨ s'.startingTurn = none)
    (heffects : effects.filter isPromptCheckpoint = []) : s.Follows (s', effects) :=
  ⟨hnakode, hsession, .kept heffects hstarting⟩

theorem Follows.of_eq {t : DomainState} {result : DomainState × List Effect} (h : t.Follows result)
    (hnakode : t.nakodeSessionId = s.nakodeSessionId) (hsession : t.sessionId = s.sessionId)
    (hstarting : t.startingTurn = s.startingTurn ∨ t.startingTurn = none) : s.Follows result := by
  obtain ⟨hn, hs, hcheckpointed⟩ := h
  refine ⟨hn.trans hnakode, hs.trans hsession, ?_⟩
  cases hcheckpointed with
  | kept heffects h => exact .kept heffects (h.elim (fun h => by rwa [h]) .inr)
  | accepted heffects hid h => exact .accepted heffects hid h
  | created heffects h => exact .created heffects h

theorem takeRedirectStart_session (s : DomainState) :
    s.takeRedirectStart.nakodeSessionId = s.nakodeSessionId ∧
      s.takeRedirectStart.sessionId = s.sessionId := by
  unfold takeRedirectStart restoreRedirectStart
  split
  · exact ⟨rfl, rfl⟩
  · split <;> exact ⟨rfl, rfl⟩

theorem putBack_session (s : DomainState) (prompt : QueuedPrompt) :
    (s.putBack prompt).nakodeSessionId = s.nakodeSessionId ∧
      (s.putBack prompt).sessionId = s.sessionId := by
  unfold putBack
  split
  · exact s.takeRedirectStart_session
  · exact ⟨rfl, rfl⟩

theorem follows_dispatchPrompt (s : DomainState) (hstarting : s.startingTurn = none)
    (prompt : OutgoingPrompt) : s.Follows (s.dispatchPrompt prompt) := by
  unfold dispatchPrompt
  dsimp only
  split
  · refine ⟨rfl, rfl, ?_⟩
    cases hsession : s.sessionId with
    | none =>
      have hsession' : (s.recordOutgoingUserPrompt prompt).sessionId = none := hsession
      rw [hsession']
      exact .created rfl (.inl rfl)
    | some sessionId =>
      have hsession' : (s.recordOutgoingUserPrompt prompt).sessionId = some sessionId := hsession
      rw [hsession']
      exact .accepted rfl (.inr hsession) rfl
  · exact ⟨rfl, rfl, .created rfl (.inr hstarting)⟩

theorem follows_beginPrompt (s : DomainState) (hstarting : s.startingTurn = none)
    (prompt : QueuedPrompt) : s.Follows (s.beginPrompt prompt) := by
  obtain ⟨s₁, hswitch, hsession, hcases⟩ := s.begin_cases prompt
  have hnakode : s₁.nakodeSessionId = s.nakodeSessionId :=
    (congrArg DomainState.nakodeSessionId hswitch).trans rfl
  have hstarting₁ : s₁.startingTurn = none := hswitch.startingTurn.trans hstarting
  rcases hcases with heq | heq <;> rw [heq]
  · obtain ⟨hputNakode, hputSession⟩ := s₁.putBack_session prompt
    have hputStarting := (s₁.putBack_others prompt).2.1
    exact .kept (hputNakode.trans hnakode) (hputSession.trans hsession)
      (.inr (hputStarting.trans hstarting₁)) rfl
  · exact (follows_dispatchPrompt s₁ hstarting₁ _).of_eq hnakode hsession (.inr hstarting₁)

theorem starting_of_idle (hidle : s.hasActiveWork = false) : s.startingTurn = none := by
  simp only [hasActiveWork, Bool.or_eq_false_iff, Option.isSome_eq_false_iff,
    Option.isNone_iff_eq_none] at hidle
  exact hidle.1.1.1.1.2

theorem follows_drainQueue (s : DomainState) : s.Follows s.drainQueue := by
  rcases s.drain_cases with heq | ⟨prompt, queue, -, -, -, hbusy, heq⟩ <;> rw [heq]
  · exact .kept rfl rfl (.inl rfl) rfl
  · simp only [isBusy, Bool.or_eq_false_iff] at hbusy
    have hstarting := starting_of_idle hbusy.2
    exact (follows_beginPrompt { s with queue } hstarting prompt).of_eq rfl rfl (.inl rfl)

theorem follows_submit (s : DomainState) (promptId text : String)
    (attachments : List PromptAttachment) (sourceTransport : Option String) (suppress : Bool) :
    s.Follows (settle
      (s.submitPromptWithIdentityPolicy promptId text attachments sourceTransport suppress)) := by
  rcases s.submit_cases promptId text attachments sourceTransport suppress with
    ⟨e, heq⟩ | ⟨heq, -, -⟩ | ⟨hidle, -, heq⟩ <;> rw [heq]
  · exact .kept rfl rfl (.inl rfl) rfl
  · exact .kept rfl rfl (.inl rfl) rfl
  · exact (follows_beginPrompt { s with replayBlockedPrompt := none, recoverablePrompt := none }
      (starting_of_idle hidle.idle) _).of_eq rfl rfl (.inl rfl)

theorem filter_checkpoint_activity (ids : List String) :
    (ids.map Effect.recordOwnerActivity).filter isPromptCheckpoint = [] := by
  induction ids with
  | nil => rfl
  | cons _ _ ih => exact ih

theorem follows_enqueue (s : DomainState) (promptId text : String)
    (attachments : List PromptAttachment) :
    s.Follows (settle (s.enqueuePromptWithId promptId text attachments)) := by
  rcases s.enqueue_cases promptId text attachments with
    ⟨e, heq⟩ | ⟨heq, -⟩ | heq | ⟨-, -, -, heq⟩ <;> rw [heq]
  · exact .kept rfl rfl (.inl rfl) rfl
  · exact .kept rfl rfl (.inl rfl) rfl
  · exact s.follows_submit promptId text attachments none true
  · exact .kept rfl rfl (.inl rfl) (filter_checkpoint_activity _)

theorem follows_remove (s : DomainState) (promptId : String) :
    s.Follows (settle (s.removeQueuedPrompt promptId)) := by
  rcases s.remove_cases promptId with ⟨e, heq⟩ | ⟨heq, -⟩ | ⟨-, -, heq⟩ <;> rw [heq]
  · exact .kept rfl rfl (.inl rfl) rfl
  · exact .kept rfl rfl (.inl rfl) rfl
  · exact (follows_drainQueue _).of_eq rfl rfl (.inl rfl)

theorem filter_checkpoint_terminal (s : DomainState) :
    s.terminalEffects.filter isPromptCheckpoint = [] := by
  unfold terminalEffects
  split <;> rfl

theorem Follows.after {effects more : List Effect} (h : s.Follows (s', more))
    (heffects : effects.filter isPromptCheckpoint = []) : s.Follows (s', effects ++ more) := by
  obtain ⟨hnakode, hsession, hcheckpointed⟩ := h
  refine ⟨hnakode, hsession, ?_⟩
  cases hcheckpointed with
  | kept h hstarting => exact .kept (by rw [List.filter_append, heffects, h]; rfl) hstarting
  | accepted h hid hstarting =>
    exact .accepted (by rw [List.filter_append, heffects, h]; rfl) hid hstarting
  | created h hstarting =>
    exact .created (by rw [List.filter_append, heffects, h]; rfl) hstarting

theorem follows_continueAfterTurn (s : DomainState) (hstarting : s.startingTurn = none) :
    s.Follows s.continueAfterTurn := by
  unfold continueAfterTurn beginPendingRedirect
  split
  · split
    · exact .kept rfl rfl (.inl rfl) rfl
    · dsimp only
      refine .of_eq (follows_beginPrompt _ ?_ _) ?_ ?_ (.inl ?_)
      · exact hstarting
      all_goals rfl
  · exact s.follows_drainQueue

theorem observeTurnStarted_session (s : DomainState) (turnId : String) :
    (s.observeTurnStarted turnId).nakodeSessionId = s.nakodeSessionId ∧
      (s.observeTurnStarted turnId).sessionId = s.sessionId ∧
      ((s.observeTurnStarted turnId).startingTurn = s.startingTurn ∨
        (s.observeTurnStarted turnId).startingTurn = none) := by
  unfold observeTurnStarted
  split
  · exact ⟨rfl, rfl, .inl rfl⟩
  · exact ⟨rfl, rfl, .inr rfl⟩

theorem follows_completeTurn (s : DomainState) (turnId : String) (outcome : TurnOutcome) :
    s.Follows (s.completeTurn turnId outcome) := by
  obtain ⟨hnakode, hsession, hstarting⟩ :
      (s.observeCompletion turnId).nakodeSessionId = s.nakodeSessionId ∧
        (s.observeCompletion turnId).sessionId = s.sessionId ∧
        ((s.observeCompletion turnId).startingTurn = s.startingTurn ∨
          (s.observeCompletion turnId).startingTurn = none) := by
    unfold observeCompletion
    split
    · exact s.observeTurnStarted_session turnId
    · exact ⟨rfl, rfl, .inl rfl⟩
  have hretired : ∀ t : DomainState,
      (t.retireTurn turnId outcome).nakodeSessionId = t.nakodeSessionId ∧
        (t.retireTurn turnId outcome).sessionId = t.sessionId ∧
        (t.retireTurn turnId outcome).startingTurn = none := by
    intro t
    unfold retireTurn recordTerminalOwnerTurn
    split <;> exact ⟨rfl, rfl, rfl⟩
  obtain ⟨hnakode', hsession', hnone⟩ := hretired (s.observeCompletion turnId)
  unfold completeTurn settleTurn
  dsimp only
  split
  · exact .kept hnakode hsession hstarting rfl
  · split
    · exact .kept (hnakode'.trans hnakode) (hsession'.trans hsession) (.inr hnone)
        (filter_checkpoint_terminal _)
    · split
      · exact .kept (hnakode'.trans hnakode) (hsession'.trans hsession) (.inr hnone)
          (filter_checkpoint_terminal _)
      · exact ((follows_continueAfterTurn _ hnone).of_eq (hnakode'.trans hnakode)
          (hsession'.trans hsession) (.inr hnone)).after (filter_checkpoint_terminal _)

theorem follows_handleSessionCreated (s : DomainState) (providerSessionId model : String) :
    s.Follows (s.handleSessionCreated providerSessionId model) := by
  have hoptions : ∀ (first : List Effect) (t : DomainState) (command : BackendCommand),
      (first ++ t.sessionOptions providerSessionId ++ [Effect.backend command]).filter
        isPromptCheckpoint = first.filter isPromptCheckpoint := by
    intro first t command
    unfold sessionOptions
    split <;> simp [isPromptCheckpoint]
  unfold handleSessionCreated
  split
  · exact .kept rfl rfl (.inl rfl) rfl
  · dsimp only
    split
    · exact .kept rfl rfl (.inl rfl) rfl
    · refine ⟨rfl, rfl, ?_⟩
      cases hsession : s.sessionId with
      | none => exact .created ((hoptions [_, _] _ _).trans rfl) (.inl rfl)
      | some sessionId => exact .accepted ((hoptions [_, _] _ _).trans rfl) (.inl rfl) rfl

/-- A prompt that is begun goes back to the queue, without effects, or is work in progress. -/
theorem begun_cases (s : DomainState) (prompt : QueuedPrompt) :
    (s.beginPrompt prompt).2 = [] ∨ (s.beginPrompt prompt).1.hasActiveWork = true := by
  obtain ⟨s₁, -, -, heq | heq⟩ := s.begin_cases prompt <;> rw [heq]
  · exact .inl rfl
  · refine .inr ?_
    unfold dispatchPrompt
    dsimp only
    split <;> simp [startPromptOnSession, hasActiveWork]

/-- While work is in progress, nothing that is still to be replayed is begun. -/
theorem replayPending_of_busy (rows : List PersistedOwnerPrompt) (hbusy : s.hasActiveWork = true) :
    ∃ blocked, (replayPending rows s).2 = ({ s with replayBlockedPrompt := blocked }, []) := by
  induction rows generalizing s with
  | nil => exact ⟨s.replayBlockedPrompt, rfl⟩
  | cons pending rest ih =>
    obtain ⟨e, heq⟩ := replay_of_busy hbusy (replayPrompt pending)
    rw [replayPending]
    dsimp only
    rw [heq]
    exact ih (s := { s with replayBlockedPrompt := some (replayPrompt pending) }) hbusy

/-- One of the prompts that are still to be replayed is begun at most, with its effects, and the
others are refused or back in the queue. -/
theorem follows_replayPending (rows : List PersistedOwnerPrompt) (s : DomainState) :
    s.Follows (replayPending rows s).2 ∧
      ((replayPending rows s).2.2 = [] ∨ (replayPending rows s).2.1.hasActiveWork = true) := by
  induction rows generalizing s with
  | nil => exact ⟨.kept rfl rfl (.inl rfl) rfl, .inl rfl⟩
  | cons pending rest ih =>
    have hbegun := s.follows_submit (replayPrompt pending).id (replayPrompt pending).text
      (replayPrompt pending).attachments (replayPrompt pending).sourceTransport false
    rw [replayPending]
    dsimp only
    rcases s.submit_cases (replayPrompt pending).id (replayPrompt pending).text
        (replayPrompt pending).attachments (replayPrompt pending).sourceTransport false with
      ⟨e, heq⟩ | ⟨-, hsuppress, -⟩ | ⟨hidle, -, heq⟩
    · rw [replayPendingPromptWithIdAndSource, heq]
      obtain ⟨hfollows, hbusy⟩ := ih { s with replayBlockedPrompt := some (replayPrompt pending) }
      exact ⟨hfollows.of_eq rfl rfl (.inl rfl), hbusy⟩
    · cases hsuppress
    · have hcases := begun_cases { s with replayBlockedPrompt := none, recoverablePrompt := none }
        (submitted (replayPrompt pending).id (replayPrompt pending).text
          (replayPrompt pending).attachments (replayPrompt pending).sourceTransport)
      rw [heq] at hbegun
      rw [replayPendingPromptWithIdAndSource, heq]
      dsimp only [settle] at hbegun ⊢
      generalize beginPrompt { s with replayBlockedPrompt := none, recoverablePrompt := none }
        (submitted (replayPrompt pending).id (replayPrompt pending).text
          (replayPrompt pending).attachments (replayPrompt pending).sourceTransport) = begun
          at hbegun hcases ⊢
      obtain ⟨t, effects⟩ := begun
      dsimp only at hcases ⊢
      rcases hcases with rfl | hbusy
      · have hstarting : t.startingTurn = none := by
          have hchecked := hbegun.checkpointed
          rw [starting_of_idle hidle.idle] at hchecked
          cases hchecked with
          | kept _ h => exact h.elim id id
          | accepted h => cases h
          | created h => cases h
        obtain ⟨hfollows, hmore⟩ := ih t
        exact ⟨hfollows.of_eq hbegun.nakodeSessionId hbegun.sessionId (.inr hstarting), hmore⟩
      · obtain ⟨blocked, hrest⟩ := replayPending_of_busy rest hbusy
        generalize replayPending rest t = more at hrest ⊢
        obtain ⟨failed, t', effects'⟩ := more
        cases hrest
        refine ⟨?_, .inr hbusy⟩
        rw [List.append_nil]
        obtain ⟨hnakode, hsession, hchecked⟩ := hbegun
        refine ⟨hnakode, hsession, ?_⟩
        cases hchecked with
        | kept h hstarting => exact .kept h hstarting
        | accepted h hid hstarting => exact .accepted h hid hstarting
        | created h hstarting => exact .created h hstarting

theorem follows_handleSessionResumed (providerSessionId model : String) (history : List UserRow)
    (hlinked : ∀ record, s.resumingSession = some record → record.id = s.nakodeSessionId) :
    (s.handleSessionResumed providerSessionId model history).1.nakodeSessionId =
        s.nakodeSessionId ∧
      ((s.handleSessionResumed providerSessionId model history).1.sessionId = s.sessionId ∨
        (s.handleSessionResumed providerSessionId model history).1.sessionId =
          some s.nakodeSessionId) ∧
      Checkpointed s.startingTurn (s.handleSessionResumed providerSessionId model history) := by
  unfold handleSessionResumed
  split
  · exact ⟨rfl, .inl rfl, .kept rfl (.inl rfl)⟩
  next record hresuming =>
    have hid := hlinked record hresuming
    split
    · exact ⟨rfl, .inl rfl, .kept rfl (.inl rfl)⟩
    dsimp only
    obtain ⟨hfollows, hbusy⟩ := follows_replayPending
      ((s.resumedState record providerSessionId model history).ownerPrompts.filter
        (·.dispatchPending)) (s.resumedState record providerSessionId model history)
    generalize replayPending _ (s.resumedState record providerSessionId model history) = result at *
    obtain ⟨failed, t, effects⟩ := result
    have hoptions : ∀ (b : Bool) (t : DomainState) (more : List Effect),
        (.touchSession record.id :: .loadSubagents record.id ::
          (if b then t.sessionOptions providerSessionId else []) ++ more).filter
            isPromptCheckpoint = more.filter isPromptCheckpoint := by
      intro b t more
      cases b
      · rfl
      · unfold sessionOptions
        simp only [if_true]
        split <;> rfl
    have hdrained : t.Follows (t.continueAfterReplay failed) := by
      unfold continueAfterReplay
      split
      · exact .kept rfl rfl (.inl rfl) rfl
      · exact (follows_drainQueue _).of_eq rfl rfl (.inl rfl)
    have hquiet : t.hasActiveWork = true →
        t.continueAfterReplay failed = ({ t with deferResumeQueue := false }, []) := by
      intro hbusy
      unfold continueAfterReplay
      split
      · rfl
      · rcases drain_cases (s := { t with deferResumeQueue := false }) with
          heq | ⟨_, _, -, -, -, hidle, -⟩
        · exact heq
        · simp only [isBusy, Bool.or_eq_false_iff] at hidle
          rw [show t.hasActiveWork = false from hidle.2] at hbusy
          cases hbusy
    have hfinish : ∀ {t' : DomainState} {more : List Effect},
        (s.resumedState record providerSessionId model history).Follows (t', more) →
        t'.nakodeSessionId = s.nakodeSessionId ∧
          (t'.sessionId = s.sessionId ∨ t'.sessionId = some s.nakodeSessionId) ∧
          ∀ (b : Bool) (t : DomainState), Checkpointed s.startingTurn
            (t', .touchSession record.id :: .loadSubagents record.id ::
              (if b then t.sessionOptions providerSessionId else []) ++ more) := by
      intro t' more h
      obtain ⟨hnakode, hsession, hchecked⟩ := h
      refine ⟨hnakode.trans hid, .inr (hsession.trans (congrArg some hid)), fun b t => ?_⟩
      cases hchecked with
      | kept h hstarting => exact .kept ((hoptions b t more).trans h) hstarting
      | accepted h hid hstarting => exact .accepted ((hoptions b t more).trans h) hid hstarting
      | created h hstarting => exact .created ((hoptions b t more).trans h) hstarting
    rw [List.append_assoc]
    -- Either nothing was begun, or the queue is not drained.
    rcases hbusy with hnone | hbusy
    · obtain rfl : effects = [] := hnone
      have hstarting : t.startingTurn =
          (s.resumedState record providerSessionId model history).startingTurn ∨
            t.startingTurn = none := by
        cases hfollows.checkpointed with
        | kept _ h => exact h
        | accepted h => cases h
        | created h => cases h
      obtain ⟨hnakode, hsession, hchecked⟩ := hfinish
        (hdrained.of_eq hfollows.nakodeSessionId hfollows.sessionId hstarting)
      exact ⟨hnakode, hsession, hchecked _ _⟩
    · rw [hquiet hbusy]
      dsimp only
      rw [List.append_nil]
      have hfollows' : (s.resumedState record providerSessionId model history).Follows
          ({ t with deferResumeQueue := false }, effects) := by
        obtain ⟨hnakode, hsession, hchecked⟩ := hfollows
        refine ⟨hnakode, hsession, ?_⟩
        cases hchecked with
        | kept h hstarting => exact .kept h hstarting
        | accepted h hid hstarting => exact .accepted h hid hstarting
        | created h hstarting => exact .created h hstarting
      obtain ⟨hnakode, hsession, hchecked⟩ := hfinish hfollows'
      exact ⟨hnakode, hsession, hchecked _ _⟩

/-! ### Other events -/

theorem session_returnPrompt (s : DomainState) (prompt : OutgoingPrompt) :
    (s.returnPrompt prompt).nakodeSessionId = s.nakodeSessionId ∧
      (s.returnPrompt prompt).sessionId = s.sessionId ∧
      (s.returnPrompt prompt).startingTurn = s.startingTurn := by
  unfold returnPrompt
  split
  · exact ⟨s.takeRedirectStart_session.1, s.takeRedirectStart_session.2,
      s.takeRedirectStart_others.2.1⟩
  · exact ⟨rfl, rfl, rfl⟩

theorem follows_requestFailed (s : DomainState) (operation : BackendOperation) (code : Int)
    (message : String) : s.Follows (s.requestFailed operation code message) := by
  have hreturn : ∀ (t : DomainState) (prompt : OutgoingPrompt),
      t.nakodeSessionId = s.nakodeSessionId → t.sessionId = s.sessionId →
      (t.startingTurn = s.startingTurn ∨ t.startingTurn = none) →
      s.Follows (t.returnPrompt prompt, []) := by
    intro t prompt hnakode hsession hstarting
    obtain ⟨hn, hs, ht⟩ := t.session_returnPrompt prompt
    exact .kept (hn.trans hnakode) (hs.trans hsession) (by rwa [ht]) rfl
  unfold requestFailed
  cases operation <;> dsimp only
  case startSession =>
    split
    · exact .kept rfl rfl (.inl rfl) rfl
    · split
      · exact .kept rfl rfl (.inl rfl) rfl
      · exact hreturn _ _ rfl rfl (.inl rfl)
  case startTurn =>
    split
    · exact .kept rfl rfl (.inl rfl) rfl
    · split
      · exact hreturn _ _ rfl rfl (.inr rfl)
      · exact s.follows_drainQueue
  all_goals exact .kept rfl rfl (.inl rfl) rfl

theorem follows_releaseUnstarted (s : DomainState) : s.Follows (s.releaseUnstarted, []) := by
  obtain ⟨t, ht⟩ : ∃ t : DomainState, t = { s with
      pendingSessionPrompt := none
      startingTurn := if s.pendingSessionPrompt.isSome then s.startingTurn else none
      activeTurn := none
      contextCompaction := none
      creatingSession := false
      pendingSteer := none
      pendingRedirect := none } := ⟨_, rfl⟩
  have hnakode : t.takeRedirectStart.nakodeSessionId = s.nakodeSessionId := by
    rw [t.takeRedirectStart_session.1, ht]
  have hsession : t.takeRedirectStart.sessionId = s.sessionId := by
    rw [t.takeRedirectStart_session.2, ht]
  have hstarting : t.takeRedirectStart.startingTurn = s.startingTurn ∨
      t.takeRedirectStart.startingTurn = none := by
    rw [t.takeRedirectStart_others.2.1, ht]
    dsimp only
    split
    · exact .inl rfl
    · exact .inr rfl
  unfold releaseUnstarted
  dsimp only
  rw [← ht]
  split
  · exact .kept hnakode hsession hstarting rfl
  · split <;> exact .kept hnakode hsession hstarting rfl

/-- A step of the engine stays in its session, or resumes that session, and checkpoints what it puts
on its way. -/
structure Remains (s : DomainState) (result : DomainState × List Effect) : Prop where
  nakodeSessionId : result.1.nakodeSessionId = s.nakodeSessionId
  sessionId : result.1.sessionId = s.sessionId ∨ result.1.sessionId = some s.nakodeSessionId
  checkpointed : Checkpointed s.startingTurn result

theorem Follows.remains {result : DomainState × List Effect} (h : s.Follows result) :
    s.Remains result :=
  ⟨h.nakodeSessionId, .inl h.sessionId, h.checkpointed⟩

/-- What is known of the provider is brought up to date after a step. -/
theorem Remains.sync {effects : List Effect} (h : s.Remains (s', effects)) :
    s.Remains (s'.syncActiveProviderContext, effects) := by
  obtain ⟨hnakode, hsession, hchecked⟩ := h
  refine ⟨hnakode, hsession, ?_⟩
  cases hchecked with
  | kept heffects hstarting => exact .kept heffects hstarting
  | accepted heffects hid hstarting => exact .accepted heffects hid hstarting
  | created heffects hstarting => exact .created heffects hstarting

theorem Remains.of_eq {t : DomainState} {result : DomainState × List Effect} (h : t.Remains result)
    (hnakode : t.nakodeSessionId = s.nakodeSessionId) (hsession : t.sessionId = s.sessionId)
    (hstarting : t.startingTurn = s.startingTurn) : s.Remains result :=
  ⟨h.nakodeSessionId.trans hnakode, by rw [← hsession, ← hnakode]; exact h.sessionId,
    hstarting ▸ h.checkpointed⟩

/-- A session is resumed as the one that the engine is in. -/
def ResumesOwn (s : DomainState) : BackendEvent → Prop
  | .sessionResumed providerSessionId _ _ =>
    providerSessionId.isEmpty = false →
      ∀ record, s.resumingSession = some record → record.id = s.nakodeSessionId
  | _ => True

theorem remains_handleBackend {event : BackendEvent} (hown : s.ResumesOwn event) :
    s.Remains (s.handleBackend event) := by
  have hkept : ∀ {s' : DomainState} {effects : List Effect},
      s'.nakodeSessionId = s.nakodeSessionId → s'.sessionId = s.sessionId →
      s'.startingTurn = s.startingTurn → effects.filter isPromptCheckpoint = [] →
      s.Remains (s', effects) :=
    fun hnakode hsession hstarting heffects =>
      (Follows.kept hnakode hsession (.inl hstarting) heffects).remains
  cases event <;> simp only [handleBackend]
  case sessionCreated => exact (s.follows_handleSessionCreated _ _).remains
  case sessionResumed providerSessionId model history =>
    cases hempty : providerSessionId.isEmpty with
    | true =>
      unfold handleSessionResumed
      split
      · exact hkept rfl rfl rfl rfl
      · rw [if_pos hempty]
        exact hkept rfl rfl rfl rfl
    | false =>
      obtain ⟨hnakode, hsession, hchecked⟩ :=
        follows_handleSessionResumed providerSessionId model history (hown hempty)
      exact ⟨hnakode, hsession, hchecked⟩
  case sessionObserved => unfold observeSession; split <;> exact hkept rfl rfl rfl rfl
  case turnStarted turnId =>
    unfold handleTurnStarted
    split
    · exact hkept rfl rfl rfl rfl
    · obtain ⟨hnakode, hsession, hstarting⟩ := s.observeTurnStarted_session turnId
      refine (Follows.kept hnakode hsession hstarting ?_).remains
      cases s.acknowledgedPrompt <;> rfl
  case turnCompleted turnId outcome =>
    exact ((follows_completeTurn { s with externalToolCalls := [] } turnId outcome).of_eq (s := s)
      rfl rfl (.inl rfl)).remains
  case itemStarted => unfold observeItem; split <;> exact hkept rfl rfl rfl rfl
  case itemCompleted => unfold observeItem; split <;> exact hkept rfl rfl rfl rfl
  case itemDelta => unfold observeItem; split <;> exact hkept rfl rfl rfl rfl
  case turnProgress => unfold handleTurnProgress; split <;> exact hkept rfl rfl rfl rfl
  case steerAccepted turnId =>
    rcases s.steerAccepted_cases turnId with ⟨-, b, heq⟩ | ⟨_, -, -, heq⟩ <;> rw [heq]
    · cases b
      · exact hkept rfl rfl rfl rfl
      · refine hkept rfl rfl rfl ?_
        exact filter_checkpoint_activity _
    · refine hkept rfl rfl rfl ?_
      exact filter_checkpoint_activity _
  case modelRerouted =>
    unfold handleModelRerouted
    split
    · split <;> exact hkept rfl rfl rfl rfl
    · exact hkept rfl rfl rfl rfl
  case contextCompactionStarted =>
    unfold contextCompactionStarted
    dsimp only
    split <;> exact hkept rfl rfl rfl rfl
  case contextCompactionCompleted =>
    unfold contextCompactionEnded; split <;> exact hkept rfl rfl rfl rfl
  case contextCompactionFailed =>
    unfold contextCompactionEnded; split <;> exact hkept rfl rfl rfl rfl
  case requestFailed => exact (s.follows_requestFailed _ _ _).remains
  case sessionClosed providerSessionId =>
    unfold handleSessionClosed
    split
    · exact hkept rfl rfl rfl rfl
    · exact ((follows_releaseUnstarted { s with
        questions := [], approvals := [], providerSessionId := none }).of_eq (s := s) rfl rfl
          (.inl rfl)).remains.sync
  case disconnected reason =>
    exact ((follows_releaseUnstarted { s with
      questions := [], externalToolCalls := [], connection := .disconnected reason,
      runningSubagents := [] }).of_eq (s := s) rfl rfl (.inl rfl)).remains
  all_goals exact hkept rfl rfl rfl rfl

theorem observeProvider_session (s : DomainState) (provider : String) (event : BackendEvent) :
    (s.observeProvider provider event).nakodeSessionId = s.nakodeSessionId ∧
      (s.observeProvider provider event).sessionId = s.sessionId ∧
      (s.observeProvider provider event).startingTurn = s.startingTurn ∧
      (s.observeProvider provider event).resumingSession = s.resumingSession := by
  unfold observeProvider updateContext
  split <;> (try dsimp only) <;> (try split) <;> exact ⟨rfl, rfl, rfl, rfl⟩

theorem remains_handleProviderBackend {provider : String} {event : BackendEvent}
    (hown : s.ResumesOwn event) : s.Remains (s.handleProviderBackend provider event) := by
  obtain ⟨hnakode, hsession, hstarting, hresuming⟩ := s.observeProvider_session provider event
  have hown' : (s.observeProvider provider event).ResumesOwn event := by
    cases event <;> try trivial
    simpa only [ResumesOwn, hresuming, hnakode] using hown
  unfold handleProviderBackend
  split
  · exact (Follows.kept rfl rfl (.inl rfl) rfl).remains
  · dsimp only
    split
    · exact (Follows.kept hnakode hsession (.inl hstarting) rfl).remains
    · exact ((remains_handleBackend hown').of_eq hnakode hsession hstarting).sync

theorem follows_steerTurn (s : DomainState) (turnId text steerId : String) :
    s.Follows (settle (s.steerTurn turnId text steerId)) := by
  unfold steerTurn
  repeat' split
  all_goals exact .kept rfl rfl (.inl rfl) rfl

theorem follows_cancelTurn (s : DomainState) (turnId : String) :
    s.Follows (settle (s.cancelTurn turnId)) := by
  unfold cancelTurn
  repeat' split
  all_goals exact .kept rfl rfl (.inl rfl) rfl

theorem follows_steerQueuedPrompt (s : DomainState) (promptId steerId : String) :
    s.Follows (settle (s.steerQueuedPrompt promptId steerId)) := by
  have hmarked : ∀ {t t' : DomainState} {effects : List Effect}, s.Follows (t, effects) →
      t'.nakodeSessionId = t.nakodeSessionId → t'.sessionId = t.sessionId →
      t'.startingTurn = t.startingTurn → s.Follows (t', effects) := by
    intro t t' effects h hnakode hsession hstarting
    refine ⟨hnakode.trans h.nakodeSessionId, hsession.trans h.sessionId, ?_⟩
    cases h.checkpointed with
    | kept heffects h => exact .kept heffects (by rwa [hstarting])
    | accepted heffects hid h =>
      exact .accepted heffects (by rwa [hnakode, hsession]) (hstarting.trans h)
    | created heffects h => exact .created (by rwa [hnakode]) (by rwa [hstarting])
  have hsame : ∀ e : DomainCommandError, s.Follows (settle (.error e, s)) :=
    fun _ => .kept rfl rfl (.inl rfl) rfl
  unfold steerQueuedPrompt
  split
  · exact hsame _
  next prompt _ =>
    split
    · exact hsame _
    split
    · exact hsame _
    split
    · exact hsame _
    next active _ =>
      split
      · exact hsame _
      split
      · have hsteered := s.follows_steerTurn active.id prompt.text steerId
        split
        next heq => rw [heq] at hsteered; exact hsteered
        next heq => rw [heq] at hsteered; exact hmarked hsteered rfl rfl rfl
      · split
        · exact hsame _
        unfold redirectQueuedPrompt
        split
        · exact .kept rfl rfl (.inl rfl) rfl
        · have hcancelled := s.follows_cancelTurn active.id
          split
          next heq => rw [heq] at hcancelled; exact hcancelled
          next heq => rw [heq] at hcancelled; exact hmarked hcancelled rfl rfl rfl

/-- The condition under which an action resumes no other session than the engine's. -/
def StaysOwn (s : DomainState) : Action → Prop
  | .backend _ event => s.ResumesOwn event
  | _ => True

theorem remains_step {action : Action} (hown : s.StaysOwn action) : s.Remains (s.step action) := by
  have hkept : ∀ {s' : DomainState} {effects : List Effect},
      s'.nakodeSessionId = s.nakodeSessionId → s'.sessionId = s.sessionId →
      s'.startingTurn = s.startingTurn → effects.filter isPromptCheckpoint = [] →
      s.Remains (s', effects) :=
    fun hnakode hsession hstarting heffects =>
      (Follows.kept hnakode hsession (.inl hstarting) heffects).remains
  cases action <;> simp only [step]
  case submit => exact (s.follows_submit _ _ _ _ _).remains
  case enqueue => exact (s.follows_enqueue _ _ _).remains
  case remove => exact (s.follows_remove _).remains
  case steerQueued => exact (s.follows_steerQueuedPrompt _ _).remains
  case steer => exact (s.follows_steerTurn _ _ _).remains
  case cancel => exact (s.follows_cancelTurn _).remains
  case shell =>
    unfold runShellCommand
    split <;> exact hkept rfl rfl rfl rfl
  case compact =>
    unfold compactContext
    split
    · exact hkept rfl rfl rfl rfl
    · split
      · exact hkept rfl rfl rfl rfl
      · split
        · exact hkept rfl rfl rfl rfl
        · split <;> exact hkept rfl rfl rfl rfl
  case backend => exact remains_handleProviderBackend hown
  all_goals exact hkept rfl rfl rfl rfl

end Nakode.Domain.DomainState
