import Nakode.Domain.Settled

/-!
# What a resumed session sends

After a restart an engine turns to a persisted session. The prompts whose rows are pending are
replayed first, then the queue is drained. Until a client interferes, prompts only move forward: a
queued prompt is begun, one that waits for its session is sent, one that cannot start waits for a
retry (`Proceeds`). So each is sent once, and the pending ones first (`InOrder`).
-/

namespace Nakode.Domain

open Transition

namespace DomainState

variable {s s' : DomainState}

/-- No guidance and no redirect is in progress. -/
structure Undirected (s : DomainState) : Prop where
  pendingSteer : s.pendingSteer = none
  pendingRedirect : s.pendingRedirect = none
  redirectStart : s.redirectStart = none

theorem Undirected.not_redirected (h : s.Undirected) (promptId : String) :
    s.isRedirected promptId = false := by
  simp [isRedirected, h.redirectStart]

theorem Undirected.takeRedirectStart (h : s.Undirected) : s.takeRedirectStart = s := by
  simp [DomainState.takeRedirectStart, h.redirectStart]

theorem Undirected.dispatches (h : s.Undirected) (hdispatches : Dispatches s s')
    (hredirect : s'.redirectStart = none) : s'.Undirected :=
  ⟨hdispatches.pendingSteer.trans h.pendingSteer,
    hdispatches.pendingRedirect.trans h.pendingRedirect, hredirect⟩

/-! ## One step -/

/-- How the prompts of a session move in a step that no client takes part in. -/
inductive Proceeds (s : DomainState) : DomainState × List Effect → Prop
  | stays {s' : DomainState} {effects : List Effect} :
      startedTurns effects = [] → s'.pendingIds = s.pendingIds → s'.blockedIds = s.blockedIds →
      s'.queuedIds = s.queuedIds → (∀ x ∈ s'.startingIds, x ∈ s.startingIds) →
      Proceeds s (s', effects)
  /-- The prompt that waited for its session is sent. -/
  | created {s' : DomainState} {effects : List Effect} {x : String} :
      s.pendingIds = [x] → startedTurns effects = [x] → s'.startingIds = [x] →
      s'.pendingIds = [] → s'.blockedIds = s.blockedIds → s'.queuedIds = s.queuedIds →
      Proceeds s (s', effects)
  /-- The front of the queue is begun, or goes back there. -/
  | drained {s' : DomainState} {effects : List Effect} :
      s.resumingSession = none → s.pendingIds = [] → s.blockedIds = [] → s'.blockedIds = [] →
      startedTurns effects ++ s'.pendingIds ++ s'.queuedIds = s.queuedIds →
      (∀ x ∈ s'.startingIds, x ∈ startedTurns effects) → Proceeds s (s', effects)
  /-- The prompt on its way cannot start. -/
  | failed {s' : DomainState} {effects : List Effect} {x : String} :
      startedTurns effects = [] → s.pendingIds = [x] ∨ s.pendingIds = [] ∧ x ∈ s.startingIds →
      s.blockedIds = [] → s'.blockedIds = [x] → s'.pendingIds = [] → s'.startingIds = [] →
      s'.queuedIds = s.queuedIds → Proceeds s (s', effects)

/-- A step from a state in which the prompts are where they were. -/
theorem Proceeds.of_eq {t : DomainState} {result : DomainState × List Effect}
    (h : t.Proceeds result) (hpending : t.pendingIds = s.pendingIds)
    (hblocked : t.blockedIds = s.blockedIds) (hqueued : t.queuedIds = s.queuedIds)
    (hstarting : ∀ x ∈ t.startingIds, x ∈ s.startingIds)
    (hresuming : t.resumingSession = s.resumingSession) : s.Proceeds result := by
  cases h with
  | stays heffects hp hb hq hs =>
    exact .stays heffects (hp.trans hpending) (hb.trans hblocked) (hq.trans hqueued)
      fun x hx => hstarting x (hs x hx)
  | created hx heffects hs hp hb hq =>
    exact .created (hpending ▸ hx) heffects hs hp (hb.trans hblocked) (hq.trans hqueued)
  | drained hr hp hb hb' hq hs =>
    exact .drained (hresuming ▸ hr) (hpending ▸ hp) (hblocked ▸ hb) hb' (hq.trans hqueued) hs
  | failed heffects hx hb hb' hp hs hq =>
    refine .failed heffects ?_ (hblocked ▸ hb) hb' hp hs (hq.trans hqueued)
    rw [hpending] at hx
    exact hx.imp_right fun h => ⟨h.1, hstarting _ h.2⟩

/-- Effects that send nothing change nothing. -/
theorem Proceeds.after {effects more : List Effect} (h : s.Proceeds (s', more))
    (heffects : startedTurns effects = []) : s.Proceeds (s', effects ++ more) := by
  have hsame : startedTurns (effects ++ more) = startedTurns more := by
    rw [startedTurns_append, heffects, List.nil_append]
  cases h with
  | stays h hp hb hq hs => exact .stays (hsame.trans h) hp hb hq hs
  | created hx h hs hp hb hq => exact .created hx (hsame.trans h) hs hp hb hq
  | drained hr hp hb hb' hq hs =>
    exact .drained hr hp hb hb' (by rw [hsame]; exact hq) (by rw [hsame]; exact hs)
  | failed h hx hb hb' hp hs hq => exact .failed (hsame.trans h) hx hb hb' hp hs hq

/-- What is done beside the prompts. -/
theorem Proceeds.samePlaces {t : DomainState} {effects : List Effect} (h : s.Proceeds (s', effects))
    (hplaces : SamePlaces s' t) : s.Proceeds (t, effects) := by
  have hpending : t.pendingIds = s'.pendingIds := by
    simp only [pendingIds, hplaces.pendingSessionPrompt]
  have hblocked : t.blockedIds = s'.blockedIds := by
    simp only [blockedIds, hplaces.replayBlockedPrompt]
  have hstarting : t.startingIds = s'.startingIds := by
    simp only [startingIds, hplaces.startingTurn]
  have hqueued := hplaces.queuedIds
  cases h with
  | stays h hp hb hq hs =>
    exact .stays h (hpending.trans hp) (hblocked.trans hb) (hqueued.trans hq) (hstarting ▸ hs)
  | created hx h hs hp hb hq =>
    exact .created hx h (hstarting.trans hs) (hpending.trans hp) (hblocked.trans hb)
      (hqueued.trans hq)
  | drained hr hp hb hb' hq hs =>
    exact .drained hr hp hb (hblocked.trans hb') (by rwa [hpending, hqueued]) (hstarting ▸ hs)
  | failed h hx hb hb' hp hs hq =>
    exact .failed h hx hb (hblocked.trans hb') (hpending.trans hp) (hstarting.trans hs)
      (hqueued.trans hq)

/-- Such a step directs nothing and goes on with the same resume. -/
structure Advances (s : DomainState) (result : DomainState × List Effect) : Prop where
  proceeds : s.Proceeds result
  undirected : result.1.Undirected
  resumingSession : result.1.resumingSession = s.resumingSession

/-- The prompts that wait are the same, and no other one is on its way. -/
structure Stands (s s' : DomainState) : Prop where
  pendingSessionPrompt : s'.pendingSessionPrompt = s.pendingSessionPrompt
  replayBlockedPrompt : s'.replayBlockedPrompt = s.replayBlockedPrompt
  queuedIds : s'.queuedIds = s.queuedIds
  starting : s'.startingTurn = s.startingTurn ∨ s'.startingTurn = none
  resumingSession : s'.resumingSession = s.resumingSession
  undirected : s'.Undirected

theorem Stands.startingIds (h : Stands s s') : ∀ x ∈ s'.startingIds, x ∈ s.startingIds := by
  intro x hx
  rcases h.starting with heq | heq
  · rwa [DomainState.startingIds, heq] at hx
  · simp [DomainState.startingIds, heq] at hx

theorem Stands.pendingIds (h : Stands s s') : s'.pendingIds = s.pendingIds := by
  simp only [DomainState.pendingIds, h.pendingSessionPrompt]

theorem Stands.blockedIds (h : Stands s s') : s'.blockedIds = s.blockedIds := by
  simp only [DomainState.blockedIds, h.replayBlockedPrompt]

theorem Stands.advances {effects : List Effect} (h : Stands s s')
    (heffects : startedTurns effects = []) : s.Advances (s', effects) :=
  ⟨.stays heffects h.pendingIds h.blockedIds h.queuedIds h.startingIds, h.undirected,
    h.resumingSession⟩

theorem Advances.of_stands {t : DomainState} {result : DomainState × List Effect}
    (h : t.Advances result) (hstands : Stands s t) : s.Advances result :=
  ⟨h.proceeds.of_eq hstands.pendingIds hstands.blockedIds hstands.queuedIds hstands.startingIds
    hstands.resumingSession, h.undirected, h.resumingSession.trans hstands.resumingSession⟩

/-! ### Beginning a prompt -/

/-- A prompt that is begun is sent, or waits for its session, or goes to the front of the queue. -/
structure Begun (s : DomainState) (promptId : String) (result : DomainState × List Effect) :
    Prop where
  place : ∃ front, result.1.queuedIds = front ++ s.queuedIds ∧
    startedTurns result.2 ++ result.1.pendingIds ++ front = [promptId]
  blockedIds : result.1.blockedIds = s.blockedIds
  startingIds : result.1.startingIds = startedTurns result.2
  creating : result.1.pendingSessionPrompt.isSome → result.1.creatingSession = true
  undirected : result.1.Undirected
  resumingSession : result.1.resumingSession = s.resumingSession

theorem begun_dispatchPrompt (hdirected : s.Undirected) (hpending : s.pendingSessionPrompt = none)
    (hstarting : s.startingTurn = none) (prompt : OutgoingPrompt) :
    s.Begun prompt.id (s.dispatchPrompt prompt) := by
  obtain ⟨hsteer, hredirect, hstart⟩ := hdirected
  unfold dispatchPrompt
  dsimp only
  split
  next providerSessionId _ =>
    have hstarted : ∀ (b : Bool) (first : Effect) (more : List Effect),
        startedTurns [first] = [] →
        startedTurns ((if b then [first] else []) ++
          (s.sessionId.toList.map .recordOwnerActivity) ++ more) = startedTurns more := by
      intro b first more hfirst
      rw [startedTurns_append, startedTurns_append, startedTurns_map_activity]
      cases b <;> simp [hfirst]
    have hsent := hstarted s.sessionId.isNone (.persistSession s.backendProvider
      providerSessionId prompt.text s.selectedModel) (.persistAcceptedOwnerPrompt
        (s.sessionId.getD s.nakodeSessionId) (acceptedOwnerPrompt prompt) ::
      [.backend (.startTurn providerSessionId prompt.id prompt.text prompt.attachments
        prompt.model)]) rfl
    refine ⟨⟨[], rfl, ?_⟩, rfl, hsent.symm, ?_, ⟨hsteer, hredirect, hstart⟩, rfl⟩
    · refine (congrArg (· ++ s.pendingIds ++ []) hsent).trans ?_
      simp only [pendingIds, hpending]
      rfl
    · intro hsome
      simp [recordOutgoingUserPrompt, startPromptOnSession, hpending] at hsome
  · refine ⟨⟨[], rfl, rfl⟩, rfl, ?_, fun _ => rfl, ⟨hsteer, hredirect, hstart⟩, rfl⟩
    simp only [startingIds, recordOutgoingUserPrompt, hstarting]
    rfl

theorem begun_beginPrompt (hdirected : s.Undirected) (hpending : s.pendingSessionPrompt = none)
    (hstarting : s.startingTurn = none) (prompt : QueuedPrompt) :
    s.Begun prompt.id (s.beginPrompt prompt) := by
  obtain ⟨s₁, hswitch, -, hcases⟩ := s.begin_cases prompt
  have hplaces := SamePlaces.of_switches hswitch
  have hpending₁ := hplaces.pendingSessionPrompt.trans hpending
  have hstarting₁ := hplaces.startingTurn.trans hstarting
  have hdirected₁ : s₁.Undirected := hdirected.dispatches hswitch.dispatches
    (hplaces.redirectStart.trans hdirected.redirectStart)
  have hbegun : s₁.Begun prompt.id (s.beginPrompt prompt) := by
    rcases hcases with heq | heq <;> rw [heq]
    · unfold putBack
      rw [hdirected₁.not_redirected, if_neg Bool.false_ne_true]
      refine ⟨⟨[prompt.id], rfl, ?_⟩, rfl, ?_, ?_,
        hdirected₁.dispatches rfl hdirected₁.redirectStart, rfl⟩
      · simp [pendingIds, hpending₁]
      · simp [startingIds, hstarting₁]
      · simp [hpending₁]
    · exact begun_dispatchPrompt hdirected₁ hpending₁ hstarting₁ (s₁.outgoing prompt)
  refine ⟨?_, ?_, hbegun.startingIds, hbegun.creating, hbegun.undirected,
    hbegun.resumingSession.trans hswitch.dispatches.resumingSession⟩
  · rw [← hplaces.queuedIds]
    exact hbegun.place
  · rw [hbegun.blockedIds]
    simp only [blockedIds, hplaces.replayBlockedPrompt]

/-- An idle session has no prompt that waits for a session. -/
theorem pending_of_idle (hcreating : s.pendingSessionPrompt.isSome → s.creatingSession = true)
    (hidle : s.hasActiveWork = false) : s.pendingSessionPrompt = none := by
  simp only [hasActiveWork, Bool.or_eq_false_iff] at hidle
  cases hpending : s.pendingSessionPrompt with
  | none => rfl
  | some p =>
    have hbusy := hcreating (by simp [hpending])
    rw [hidle.1.1.1.1.1.1] at hbusy
    cases hbusy

theorem advances_drainQueue (hdirected : s.Undirected)
    (hcreating : s.pendingSessionPrompt.isSome → s.creatingSession = true) :
    s.Advances s.drainQueue := by
  rcases s.drain_cases with heq | ⟨prompt, queue, hqueue, -, -, hbusy, heq⟩ <;> rw [heq]
  · exact ⟨.stays rfl rfl rfl rfl fun _ => id, hdirected, rfl⟩
  · simp only [isBusy, Bool.or_eq_false_iff, Option.isSome_eq_false_iff,
      Option.isNone_iff_eq_none] at hbusy
    obtain ⟨hblocked, hidle⟩ := hbusy
    have hpending := pending_of_idle hcreating hidle
    have hresuming : s.resumingSession = none := by
      simp only [hasActiveWork, Bool.or_eq_false_iff, Option.isSome_eq_false_iff,
        Option.isNone_iff_eq_none] at hidle
      exact hidle.1.1.1.1.1.2
    have hbegun := begun_beginPrompt (s := { s with queue }) ⟨hdirected.pendingSteer,
      hdirected.pendingRedirect, hdirected.redirectStart⟩ hpending (starting_of_idle hidle) prompt
    generalize beginPrompt { s with queue } prompt = begun at hbegun ⊢
    obtain ⟨t, effects⟩ := begun
    obtain ⟨⟨front, hqueued, hplace⟩, hslot, hsent, -, hundirected, hresumes⟩ := hbegun
    have hblockedIds : s.blockedIds = [] := by simp [blockedIds, hblocked]
    refine ⟨.drained hresuming (by simp [pendingIds, hpending]) hblockedIds
      (hslot.trans hblockedIds) ?_ ?_, hundirected, hresumes⟩
    · have hids : s.queuedIds = prompt.id :: queuedIds { s with queue } := by
        simp [queuedIds, hqueue]
      dsimp only at hqueued hplace ⊢
      rw [hqueued, ← List.append_assoc, hplace, hids]
      rfl
    · intro x hx
      exact hsent ▸ hx

/-! ### Events -/

/-- A prompt that cannot start takes the free slot of a retry. -/
theorem advances_restoreFailedPrompt {t : DomainState} {prompt : OutgoingPrompt}
    {effects : List Effect} (hdirected : t.Undirected)
    (hresuming : t.resumingSession = s.resumingSession) (heffects : startedTurns effects = [])
    (hprompt : s.pendingIds = [prompt.id] ∨ s.pendingIds = [] ∧ prompt.id ∈ s.startingIds)
    (hfree : s.replayBlockedPrompt = none) (hpending : t.pendingIds = [])
    (hstarting : t.startingIds = []) (hqueued : t.queuedIds = s.queuedIds) :
    s.Advances (t.restoreFailedPrompt prompt, effects) := by
  refine ⟨.failed heffects hprompt (by simp [blockedIds, hfree]) rfl hpending hstarting hqueued,
    ?_, hresuming⟩
  exact ⟨hdirected.pendingSteer, hdirected.pendingRedirect, hdirected.redirectStart⟩

theorem stands_observeTurnStarted (hdirected : s.Undirected) (turnId : String) :
    s.Stands (s.observeTurnStarted turnId) := by
  unfold observeTurnStarted
  split
  · exact ⟨rfl, rfl, rfl, .inl rfl, rfl, hdirected⟩
  · refine ⟨rfl, rfl, rfl, .inr rfl, rfl, hdirected.pendingSteer, hdirected.pendingRedirect, ?_⟩
    dsimp only
    split
    · rfl
    · exact hdirected.redirectStart

theorem stands_observeCompletion (hdirected : s.Undirected) (turnId : String) :
    s.Stands (s.observeCompletion turnId) := by
  unfold observeCompletion
  split
  · exact stands_observeTurnStarted hdirected turnId
  · exact ⟨rfl, rfl, rfl, .inl rfl, rfl, hdirected⟩

theorem stands_retireTurn (hdirected : s.Undirected) (turnId : String) (outcome : TurnOutcome) :
    s.Stands (s.retireTurn turnId outcome) := by
  unfold retireTurn recordTerminalOwnerTurn
  split <;>
    exact ⟨rfl, rfl, rfl, .inr rfl, rfl, by simp [hdirected.pendingSteer],
      hdirected.pendingRedirect, hdirected.redirectStart⟩

theorem Stands.trans {s'' : DomainState} (h : Stands s s') (h' : Stands s' s'') : Stands s s'' where
  pendingSessionPrompt := h'.pendingSessionPrompt.trans h.pendingSessionPrompt
  replayBlockedPrompt := h'.replayBlockedPrompt.trans h.replayBlockedPrompt
  queuedIds := h'.queuedIds.trans h.queuedIds
  starting := h'.starting.elim (fun heq => h.starting.imp heq.trans heq.trans) .inr
  resumingSession := h'.resumingSession.trans h.resumingSession
  undirected := h'.undirected

theorem creatingSession_retired (turnId : String) (outcome : TurnOutcome) :
    ((s.observeCompletion turnId).retireTurn turnId outcome).creatingSession =
      s.creatingSession := by
  unfold retireTurn recordTerminalOwnerTurn observeCompletion observeTurnStarted
  split <;> (dsimp only; split) <;> (try split) <;> rfl

theorem startingTurn_retireTurn (turnId : String) (outcome : TurnOutcome) :
    (s.retireTurn turnId outcome).startingTurn = none := by
  unfold retireTurn recordTerminalOwnerTurn
  split <;> rfl

theorem advances_completeTurn (hs : s.Sound) (hdirected : s.Undirected) {outcome : TurnOutcome}
    (hfree : (s.failedBeforeStart outcome).isSome → s.replayBlockedPrompt = none)
    (turnId : String) : s.Advances (s.completeTurn turnId outcome) := by
  have hobserved := stands_observeCompletion hdirected turnId
  have hretired := hobserved.trans (stands_retireTurn hobserved.undirected turnId outcome)
  have hcreating : ((s.observeCompletion turnId).retireTurn turnId
      outcome).pendingSessionPrompt.isSome →
        ((s.observeCompletion turnId).retireTurn turnId outcome).creatingSession = true := by
    rw [hretired.pendingSessionPrompt, creatingSession_retired]
    exact hs.creating
  have hstarting := startingTurn_retireTurn (s := s.observeCompletion turnId) turnId outcome
  unfold completeTurn settleTurn
  dsimp only
  split
  · exact hobserved.advances rfl
  generalize (s.observeCompletion turnId).retireTurn turnId outcome = t
    at hretired hcreating hstarting ⊢
  split
  next prompt hfailed =>
    have hprompt : s.startingTurn = some prompt := by
      unfold failedBeforeStart at hfailed
      split at hfailed
      · exact hfailed
      · cases hfailed
    have hpending : s.pendingIds = [] := by
      cases hp : s.pendingSessionPrompt with
      | none => simp [pendingIds, hp]
      | some _ => simpa [hprompt] using (hs.alone (by simp [hp])).1
    exact advances_restoreFailedPrompt hretired.undirected hretired.resumingSession
      (startedTurns_terminalEffects _) (.inr ⟨hpending, by simp [startingIds, hprompt]⟩)
      (hfree (by simp [hfailed])) (hretired.pendingIds.trans hpending)
      (by simp [startingIds, hstarting]) hretired.queuedIds
  next hfailed =>
    split
    next hredirect => simp [hretired.undirected.pendingRedirect] at hredirect
    · have hdrained : t.continueAfterTurn = t.drainQueue := by
        simp only [continueAfterTurn, hretired.undirected.pendingRedirect]
      rw [hdrained]
      have hadvances := (advances_drainQueue hretired.undirected hcreating).of_stands hretired
      generalize t.drainQueue = drained at hadvances ⊢
      obtain ⟨t', effects⟩ := drained
      exact ⟨hadvances.proceeds.after (startedTurns_terminalEffects _), hadvances.undirected,
        hadvances.resumingSession⟩

theorem advances_handleSessionCreated (hdirected : s.Undirected)
    (providerSessionId model : String) :
    s.Advances (s.handleSessionCreated providerSessionId model) := by
  have hoptions : ∀ t : DomainState, startedTurns (t.sessionOptions providerSessionId) = [] := by
    intro t
    unfold sessionOptions
    split <;> rfl
  have hundirected : ∀ {t : DomainState}, t.pendingSteer = s.pendingSteer →
      t.pendingRedirect = s.pendingRedirect → t.redirectStart = s.redirectStart → t.Undirected :=
    fun hsteer hredirect hstart => ⟨hsteer.trans hdirected.pendingSteer,
      hredirect.trans hdirected.pendingRedirect, hstart.trans hdirected.redirectStart⟩
  unfold handleSessionCreated
  split
  · exact Stands.advances ⟨rfl, rfl, rfl, .inl rfl, rfl, hdirected⟩ rfl
  · dsimp only
    split
    · exact Stands.advances ⟨rfl, rfl, rfl, .inl rfl, rfl, hundirected rfl rfl rfl⟩ rfl
    next prompt hpending =>
      refine ⟨.created (x := prompt.id) (by simp [pendingIds, hpending]) ?_ rfl rfl rfl rfl,
        hundirected rfl rfl rfl, rfl⟩
      rw [startedTurns_append]
      cases s.sessionId <;> exact congrArg (· ++ [prompt.id]) (hoptions _)

theorem advances_releaseUnstarted (hs : s.Sound) (hdirected : s.Undirected)
    (hfree : s.SlotFree s.unstartedPrompt) : s.Advances (s.releaseUnstarted, []) := by
  obtain ⟨t, ht⟩ : ∃ t : DomainState, t = { s with
      pendingSessionPrompt := none
      startingTurn := if s.pendingSessionPrompt.isSome then s.startingTurn else none
      activeTurn := none
      contextCompaction := none
      creatingSession := false
      pendingSteer := none
      pendingRedirect := none } := ⟨_, rfl⟩
  have hundirected : t.Undirected := by
    rw [ht]
    exact ⟨rfl, rfl, hdirected.redirectStart⟩
  have hstarting : t.startingTurn = none := by
    cases hp : s.pendingSessionPrompt with
    | none => simp [ht, hp]
    | some _ => simp [ht, hp, (hs.alone (by simp [hp])).1]
  unfold releaseUnstarted
  dsimp only
  rw [← ht, hundirected.takeRedirectStart]
  split
  next hnone =>
    obtain ⟨hpending, -⟩ : s.pendingSessionPrompt = none ∧ s.startingTurn = none := by
      simpa [unstartedPrompt] using hnone
    refine Stands.advances ⟨?_, ?_, ?_, .inr hstarting, ?_, hundirected⟩ rfl
    · rw [ht, hpending]
    all_goals rw [ht]
    rfl
  next prompt hunstarted =>
    rw [hdirected.not_redirected, if_neg Bool.false_ne_true]
    refine advances_restoreFailedPrompt hundirected (by rw [ht]) rfl ?_
      (hfree prompt (by simp [hunstarted]) (hdirected.not_redirected _)) (by rw [ht]; rfl)
      (by simp [startingIds, hstarting]) (by rw [ht]; rfl)
    cases hp : s.pendingSessionPrompt with
    | none =>
      have hprompt : s.startingTurn = some prompt := by simpa [unstartedPrompt, hp] using hunstarted
      exact .inr ⟨by simp [pendingIds, hp], by simp [startingIds, hprompt]⟩
    | some p =>
      obtain rfl : p = prompt := by simpa [unstartedPrompt, hp] using hunstarted
      exact .inl (by simp [pendingIds, hp])

theorem advances_requestFailed (hs : s.Sound) (hdirected : s.Undirected)
    {operation : BackendOperation} {code : Int} (horderly : s.OrderlyRequest operation code)
    (hresume : operation ≠ .resumeSession) (message : String) :
    s.Advances (s.requestFailed operation code message) := by
  have hstays : ∀ {t : DomainState}, Stands s t → s.Advances (t, []) := fun h => h.advances rfl
  have hreturn : ∀ {t : DomainState} (prompt : OutgoingPrompt), t.Undirected →
      t.returnPrompt prompt = t.restoreFailedPrompt prompt := by
    intro t prompt h
    rw [returnPrompt, h.not_redirected, if_neg Bool.false_ne_true]
  unfold requestFailed
  cases operation <;> dsimp only
  case resumeSession => exact absurd rfl hresume
  case startSession =>
    split
    · exact hstays ⟨rfl, rfl, rfl, .inl rfl, rfl, hdirected⟩
    next htimedOut =>
      have hfree := horderly (by simpa using htimedOut)
      split
      next hpending =>
        exact hstays ⟨hpending.symm, rfl, rfl, .inl rfl, rfl, hdirected.pendingSteer,
          hdirected.pendingRedirect, hdirected.redirectStart⟩
      next prompt hpending =>
        have hundirected : Undirected
            { s with creatingSession := false, pendingSessionPrompt := none } :=
          ⟨hdirected.pendingSteer, hdirected.pendingRedirect, hdirected.redirectStart⟩
        rw [hreturn prompt hundirected]
        exact advances_restoreFailedPrompt hundirected rfl rfl
          (.inl (by simp [pendingIds, hpending]))
          (hfree prompt (by simp [hpending]) (hdirected.not_redirected _)) rfl
          (by simp [startingIds, (hs.alone (by simp [hpending])).1]) rfl
  case startTurn =>
    split
    · exact hstays ⟨rfl, rfl, rfl, .inl rfl, rfl, hdirected⟩
    next htimedOut =>
      have hfree := horderly (by simpa using htimedOut)
      split
      next prompt hstarting =>
        have hundirected : Undirected { s with startingTurn := none } :=
          ⟨hdirected.pendingSteer, hdirected.pendingRedirect, hdirected.redirectStart⟩
        have hpending : s.pendingIds = [] := by
          cases hp : s.pendingSessionPrompt with
          | none => simp [pendingIds, hp]
          | some _ => simpa [hstarting] using (hs.alone (by simp [hp])).1
        rw [hreturn prompt hundirected]
        exact advances_restoreFailedPrompt hundirected rfl rfl
          (.inr ⟨hpending, by simp [startingIds, hstarting]⟩)
          (hfree prompt (by simp [hstarting]) (hdirected.not_redirected _)) hpending rfl rfl
      · exact advances_drainQueue hdirected hs.creating
  case steerTurn =>
    exact hstays ⟨rfl, rfl, rfl, .inl rfl, rfl, rfl, hdirected.pendingRedirect,
      hdirected.redirectStart⟩
  case interruptTurn =>
    exact hstays ⟨rfl, rfl, rfl, .inl rfl, rfl, hdirected.pendingSteer, rfl,
      hdirected.redirectStart⟩
  all_goals
    exact hstays ⟨rfl, rfl, rfl, .inl rfl, rfl, hdirected.pendingSteer, hdirected.pendingRedirect,
      hdirected.redirectStart⟩

/-- An event that is not about the resume of the session itself. -/
def Turning : BackendEvent → Prop
  | .sessionResumed .. => False
  | .requestFailed .resumeSession .. => False
  | _ => True

theorem advances_handleBackend (hs : s.Sound) (hdirected : s.Undirected) {event : BackendEvent}
    (horderly : s.OrderlyEvent event) (hturning : Turning event) :
    s.Advances (s.handleBackend event) := by
  have hstays : ∀ {t : DomainState}, t.pendingSessionPrompt = s.pendingSessionPrompt →
      t.replayBlockedPrompt = s.replayBlockedPrompt → t.queue = s.queue →
      t.startingTurn = s.startingTurn → t.resumingSession = s.resumingSession →
      t.pendingSteer = s.pendingSteer → t.pendingRedirect = s.pendingRedirect →
      t.redirectStart = s.redirectStart → s.Advances (t, []) := by
    intro t hpending hblocked hqueue hstarting hresuming hsteer hredirect hstart
    exact Stands.advances ⟨hpending, hblocked, by simp only [queuedIds, hqueue], .inl hstarting,
      hresuming, hsteer.trans hdirected.pendingSteer, hredirect.trans hdirected.pendingRedirect,
      hstart.trans hdirected.redirectStart⟩ rfl
  cases event <;> simp only [handleBackend]
  case sessionResumed => exact hturning.elim
  case sessionCreated => exact advances_handleSessionCreated hdirected _ _
  case sessionObserved => unfold observeSession; split <;> exact hstays rfl rfl rfl rfl rfl rfl rfl rfl
  case turnStarted turnId =>
    unfold handleTurnStarted
    split
    · exact hstays rfl rfl rfl rfl rfl rfl rfl rfl
    · refine (stands_observeTurnStarted hdirected turnId).advances ?_
      cases s.acknowledgedPrompt <;> rfl
  case turnCompleted turnId outcome =>
    exact (advances_completeTurn (s := { s with externalToolCalls := [] }) ⟨hs.creating, hs.alone,
      hs.unstarted, hs.distinct, hs.redirect, hs.recoverable⟩ ⟨hdirected.pendingSteer,
        hdirected.pendingRedirect, hdirected.redirectStart⟩ horderly turnId).of_stands
      ⟨rfl, rfl, rfl, .inl rfl, rfl, hdirected.pendingSteer, hdirected.pendingRedirect,
        hdirected.redirectStart⟩
  case itemStarted => unfold observeItem; split <;> exact hstays rfl rfl rfl rfl rfl rfl rfl rfl
  case itemCompleted => unfold observeItem; split <;> exact hstays rfl rfl rfl rfl rfl rfl rfl rfl
  case itemDelta => unfold observeItem; split <;> exact hstays rfl rfl rfl rfl rfl rfl rfl rfl
  case turnProgress =>
    unfold handleTurnProgress; split <;> exact hstays rfl rfl rfl rfl rfl rfl rfl rfl
  case steerAccepted turnId =>
    have hnone : s.handleSteerAccepted turnId = (false, s) := by
      simp [handleSteerAccepted, hdirected.pendingSteer]
    rw [hnone]
    exact hstays rfl rfl rfl rfl rfl rfl rfl rfl
  case modelRerouted =>
    unfold handleModelRerouted
    split
    · split <;> exact hstays rfl rfl rfl rfl rfl rfl rfl rfl
    · exact hstays rfl rfl rfl rfl rfl rfl rfl rfl
  case contextCompactionStarted =>
    unfold contextCompactionStarted
    dsimp only
    split <;> exact hstays rfl rfl rfl rfl rfl rfl rfl rfl
  case contextCompactionCompleted =>
    unfold contextCompactionEnded; split <;> exact hstays rfl rfl rfl rfl rfl rfl rfl rfl
  case contextCompactionFailed =>
    unfold contextCompactionEnded; split <;> exact hstays rfl rfl rfl rfl rfl rfl rfl rfl
  case requestFailed operation code message =>
    refine advances_requestFailed hs hdirected horderly ?_ message
    rintro rfl
    exact hturning
  case sessionClosed providerSessionId =>
    unfold handleSessionClosed
    split
    · exact hstays rfl rfl rfl rfl rfl rfl rfl rfl
    next hclosed =>
      have hreleased := (advances_releaseUnstarted (s := { s with
          questions := [], approvals := [], providerSessionId := none }) ⟨hs.creating, hs.alone,
        hs.unstarted, hs.distinct, hs.redirect, hs.recoverable⟩ ⟨hdirected.pendingSteer,
          hdirected.pendingRedirect, hdirected.redirectStart⟩
        (horderly (by simpa using hclosed))).of_stands (s := s)
        ⟨rfl, rfl, rfl, .inl rfl, rfl, hdirected.pendingSteer, hdirected.pendingRedirect,
          hdirected.redirectStart⟩
      exact ⟨hreleased.proceeds.samePlaces (.of_switches (switches_syncActiveProviderContext _)),
        hreleased.undirected.dispatches rfl hreleased.undirected.redirectStart,
        hreleased.resumingSession⟩
  case disconnected reason =>
    exact (advances_releaseUnstarted (s := { s with
        questions := [], externalToolCalls := [], connection := .disconnected reason,
        runningSubagents := [] }) ⟨hs.creating, hs.alone, hs.unstarted, hs.distinct, hs.redirect,
          hs.recoverable⟩ ⟨hdirected.pendingSteer, hdirected.pendingRedirect,
          hdirected.redirectStart⟩ horderly).of_stands (s := s)
      ⟨rfl, rfl, rfl, .inl rfl, rfl, hdirected.pendingSteer, hdirected.pendingRedirect,
        hdirected.redirectStart⟩
  all_goals exact hstays rfl rfl rfl rfl rfl rfl rfl rfl

theorem stands_observeProvider (hdirected : s.Undirected) (provider : String)
    (event : BackendEvent) : s.Stands (s.observeProvider provider event) := by
  obtain ⟨hsteer, hredirect, hstart⟩ := hdirected
  unfold observeProvider updateContext
  split <;> (try dsimp only) <;> (try split) <;>
    exact ⟨rfl, rfl, rfl, .inl rfl, rfl, hsteer, hredirect, hstart⟩

/-- What is reduced is the first news of a provider, or an event of the active one. -/
theorem hears_of_observed {provider : String} {event : BackendEvent}
    (h : (provider != (s.observeProvider provider event).backendProvider) = false) :
    (∃ identity, event = .ready identity) ∨ s.hears provider = true := by
  by_cases hready : ∃ identity, event = .ready identity
  · exact .inl hready
  · rw [backendProvider_observeProvider fun identity h => hready ⟨identity, h⟩] at h
    exact .inr (by simpa [hears] using h)

/-- An event is as orderly once its provider has been observed. -/
theorem OrderlyEvent.observed {provider : String} {event : BackendEvent}
    (hhears : s.hears provider = true) (horderly : s.OrderlyEvent event) :
    (s.observeProvider provider event).OrderlyEvent event := by
  by_cases hready : ∃ identity, event = .ready identity
  · obtain ⟨identity, rfl⟩ := hready
    trivial
  by_cases hreload : ∃ code message, event = .requestFailed .reload code message
  · obtain ⟨code, message, rfl⟩ := hreload
    exact (s.samePlaces_observeProvider provider _).pendingSessionPrompt.trans horderly
  · rw [observeProvider_eq hhears (fun identity h => hready ⟨identity, h⟩)
      fun code message h => hreload ⟨code, message, h⟩]
    exact horderly

theorem advances_handleProviderBackend (hs : s.Sound) (hdirected : s.Undirected)
    {provider : String} {event : BackendEvent}
    (horderly : s.hears provider = true → s.OrderlyEvent event)
    (hturning : s.hears provider = true → Turning event) :
    s.Advances (s.handleProviderBackend provider event) := by
  have hobserved := stands_observeProvider hdirected provider event
  have hsound := (s.samePlaces_observeProvider provider event).sound hs
  unfold handleProviderBackend
  split
  · exact Stands.advances ⟨rfl, rfl, rfl, .inl rfl, rfl, hdirected⟩ rfl
  dsimp only
  split
  · exact hobserved.advances rfl
  next hactive =>
    have hreduced : (s.observeProvider provider event).OrderlyEvent event ∧ Turning event := by
      rcases hears_of_observed (by simpa using hactive) with ⟨identity, rfl⟩ | hhears
      · exact ⟨trivial, trivial⟩
      · exact ⟨.observed hhears (horderly hhears), hturning hhears⟩
    have hadvances := (advances_handleBackend hsound hobserved.undirected hreduced.1
      hreduced.2).of_stands hobserved
    exact ⟨hadvances.proceeds.samePlaces (.of_switches (switches_syncActiveProviderContext _)),
      hadvances.undirected.dispatches rfl hadvances.undirected.redirectStart,
      hadvances.resumingSession⟩

/-! ## The order of what is sent -/

/-- Every row of `rows` comes before everything of `queued` in `line`. -/
def Ahead (rows queued line : List String) : Prop :=
  ∀ front x back, line = front ++ x :: back → x ∈ queued → ∀ row ∈ rows, row ∈ front

/-- A repetition takes nothing from what is ahead. -/
theorem Ahead.insert {rows queued front back : List String} {x : String}
    (h : Ahead rows queued (front ++ back)) (hx : x ∈ front) :
    Ahead rows queued (front ++ x :: back) := by
  have hrepeated : x ∈ queued → ∀ row ∈ rows, row ∈ front := by
    intro hqueued row hrow
    obtain ⟨front₁, front₂, rfl⟩ := List.append_of_mem hx
    have hmem := h front₁ x (front₂ ++ back) (by simp) hqueued row hrow
    exact List.mem_append_left _ hmem
  intro front' y back' heq hy row hrow
  rcases List.append_eq_append_iff.1 heq with ⟨more, rfl, hback⟩ | ⟨more, rfl, hback⟩
  · cases more with
    | nil =>
      cases hback
      exact List.mem_append_left _ (hrepeated hy row hrow)
    | cons z more =>
      cases hback
      have hmem := h (front ++ more) y back' (by simp) hy row hrow
      rcases List.mem_append.1 hmem with hmem | hmem
      · exact List.mem_append_left _ hmem
      · exact List.mem_append_right _ (List.mem_cons_of_mem _ hmem)
  · cases more with
    | nil =>
      cases hback
      simpa using hrepeated hy row hrow
    | cons z more =>
      cases hback
      exact h front' y (more ++ back) (by simp) hy row hrow

/-- What comes from the rows comes first. -/
theorem Ahead.of_append {rows queued front back : List String} (hfront : ∀ x, x ∈ front ↔ x ∈ rows)
    (hapart : ∀ x ∈ rows, x ∉ queued) : Ahead rows queued (front ++ back) := by
  intro front' x back' heq hx row hrow
  rcases List.append_eq_append_iff.1 heq with ⟨more, rfl, -⟩ | ⟨more, rfl, hback⟩
  · exact List.mem_append_left _ ((hfront row).2 hrow)
  · cases more with
    | nil => simpa using (hfront row).2 hrow
    | cons z more =>
      cases hback
      exact absurd hx (hapart x ((hfront x).1 (by simp)))

/-- The line of a session: what was sent, and what waits in the order in which it will be. -/
def line (s : DomainState) (sent : List String) : List String :=
  sent ++ s.pendingIds ++ s.blockedIds ++ s.queuedIds

/-- The session goes on with its prompts: each is sent once at most, and its pending rows before its
queue. -/
structure InOrder (rows queued sent : List String) (s : DomainState) : Prop where
  undirected : s.Undirected
  resumed : s.resumingSession = none
  starting : ∀ x ∈ s.startingIds, x ∈ sent
  once : ∀ x, sent.count x + s.pendingIds.count x + s.queuedIds.count x ≤ 1
  ahead : Ahead rows queued (s.line sent)
  present : ∀ row ∈ rows, row ∈ s.line sent

/-- A step keeps the order. -/
theorem InOrder.advances {rows queued sent : List String} {effects : List Effect}
    (h : InOrder rows queued sent s) (hadvances : s.Advances (s', effects)) :
    InOrder rows queued (sent ++ startedTurns effects) s' := by
  obtain ⟨hproceeds, hundirected, hresuming⟩ := hadvances
  obtain ⟨-, hresumed, hstarting, honce, hahead, hpresent⟩ := h
  -- What was sent and what waits make the same line, up to a repetition.
  have hsame : s'.line (sent ++ startedTurns effects) = s.line sent →
      (∀ x ∈ s'.startingIds, x ∈ sent ++ startedTurns effects) →
      (∀ x, (startedTurns effects).count x + s'.pendingIds.count x + s'.queuedIds.count x ≤
        s.pendingIds.count x + s.queuedIds.count x) →
      InOrder rows queued (sent ++ startedTurns effects) s' := by
    intro hline hsent hcount
    refine ⟨hundirected, hresuming.trans hresumed, hsent, fun x => ?_, hline ▸ hahead,
      hline ▸ hpresent⟩
    have hbefore := honce x
    have hafter := hcount x
    rw [List.count_append]
    omega
  cases hproceeds with
  | stays heffects hp hb hq hs =>
    refine hsame ?_ (fun x hx => ?_) fun x => ?_
    · simp only [line, heffects, hp, hb, hq, List.append_nil]
    · exact List.mem_append_left _ (hstarting x (hs x hx))
    · simp only [heffects, hp, hq, List.count_nil, Nat.zero_add, Nat.le_refl]
  | @created _ _ y hy heffects hs hp hb hq =>
    refine hsame ?_ (fun x hx => ?_) fun x => ?_
    · simp only [line, heffects, hy, hp, hb, hq, List.append_nil]
    · rw [hs] at hx
      rw [heffects]
      exact List.mem_append_right _ hx
    · simp only [heffects, hp, hq, hy, List.count_nil, Nat.add_zero, Nat.le_refl]
  | drained hr hp hb hb' hq hs =>
    refine hsame ?_ (fun x hx => List.mem_append_right _ (hs x hx)) fun x => ?_
    · simp only [line, hp, hb, hb', ← hq, List.append_nil, List.append_assoc]
    · rw [← hq, List.count_append, List.count_append]
      omega
  | @failed _ _ y heffects hy hb hb' hp hs hq =>
    rcases hy with hy | ⟨hnone, hy⟩
    · refine hsame ?_ (by simp [hs]) fun x => ?_
      · simp only [line, heffects, hy, hp, hb, hb', hq, List.append_nil]
      · simp only [heffects, hp, hq, List.count_nil]
        omega
    · refine ⟨hundirected, hresuming.trans hresumed, by simp [hs], fun x => ?_, ?_, ?_⟩
      · have hbefore := honce x
        simp only [heffects, hp, hq, List.append_nil, List.count_nil]
        omega
      · have hline : s'.line (sent ++ startedTurns effects) = sent ++ y :: s.queuedIds := by
          simp [line, heffects, hp, hb', hq]
        rw [hline]
        refine Ahead.insert ?_ (hstarting y hy)
        simpa [line, hnone, hb] using hahead
      · intro row hrow
        have hmem := hpresent row hrow
        simp only [line, heffects, hp, hb', hq, hnone, hb, List.append_nil, List.mem_append] at hmem ⊢
        exact hmem.elim (fun h => .inl (.inl h)) .inr

/-! ## The answer to a resume -/

/-- The provider has not answered the resume yet, and everything is as in the record. -/
structure Awaits (s : DomainState) (record : SessionRecord) : Prop where
  undirected : s.Undirected
  resuming : s.resumingSession = some record
  pending : s.pendingIds = []
  starting : s.startingIds = []
  blocked : s.blockedIds = []
  queued : s.queuedIds = record.queuedPrompts.map QueuedPrompt.id

theorem Awaits.advances {record : SessionRecord} {effects : List Effect} (h : s.Awaits record)
    (hadvances : s.Advances (s', effects)) : s'.Awaits record ∧ startedTurns effects = [] := by
  obtain ⟨hproceeds, hundirected, hresuming⟩ := hadvances
  cases hproceeds with
  | stays heffects hp hb hq hs =>
    refine ⟨⟨hundirected, hresuming.trans h.resuming, hp.trans h.pending, ?_, hb.trans h.blocked,
      hq.trans h.queued⟩, heffects⟩
    refine List.eq_nil_iff_forall_not_mem.2 fun x hx => ?_
    simpa [h.starting] using hs x hx
  | created hx => simp [h.pending] at hx
  | drained hr => simp [h.resuming] at hr
  | failed _ hx => simp [h.pending, h.starting] at hx

/-- What a replay adds to the places of prompts. -/
structure Replayed (s : DomainState) (rows : List String) (result : DomainState × List Effect) :
    Prop where
  place : ∃ front, result.1.queuedIds = front ++ s.queuedIds ∧
    ∀ x, (startedTurns result.2).count x + result.1.pendingIds.count x +
      result.1.blockedIds.count x + front.count x =
        s.pendingIds.count x + s.blockedIds.count x + rows.count x
  startingIds : ∀ x ∈ result.1.startingIds, x ∈ s.startingIds ∨ x ∈ startedTurns result.2
  creating : result.1.pendingSessionPrompt.isSome → result.1.creatingSession = true
  undirected : result.1.Undirected

theorem replayed_replayPending (rows : List PersistedOwnerPrompt) (hdirected : s.Undirected)
    (hcreating : s.pendingSessionPrompt.isSome → s.creatingSession = true)
    (hdistinct : (rows.map (·.promptId) ++ s.blockedIds).Nodup) (hreplayable : Replayable rows s) :
    s.Replayed (rows.map (·.promptId)) (replayPending rows s).2 := by
  induction rows generalizing s with
  | nil => exact ⟨⟨[], rfl, fun _ => by simp [replayPending]⟩, fun _ => .inl, hcreating, hdirected⟩
  | cons pending rest ih =>
    rw [List.map_cons, List.cons_append] at hdistinct
    obtain ⟨hnew, hrest⟩ := List.nodup_cons.1 hdistinct
    have hrows : (rest.map (·.promptId)).Nodup := (List.nodup_append.1 hrest).1
    have hblockedNew : ∀ b, s.replayBlockedPrompt = some b → b.id ≠ pending.promptId := by
      rintro b hb hid
      exact hnew (List.mem_append_right _ (by simp [blockedIds, hb, hid]))
    rw [List.map_cons, replayPending]
    rw [Replayable] at hreplayable
    dsimp only at hreplayable ⊢
    rcases s.submit_cases (replayPrompt pending).id (replayPrompt pending).text
        (replayPrompt pending).attachments (replayPrompt pending).sourceTransport false with
      ⟨e, heq⟩ | ⟨-, hsuppress, -⟩ | ⟨hidle, hidentity, heq⟩
    · rw [replayPendingPromptWithIdAndSource, heq] at hreplayable ⊢
      dsimp only at hreplayable ⊢
      obtain ⟨hblocked, hreplayable⟩ := hreplayable
      obtain ⟨t, ht⟩ : ∃ t : DomainState,
          t = { s with replayBlockedPrompt := some (replayPrompt pending) } := ⟨_, rfl⟩
      rw [← ht] at hreplayable ⊢
      have hslot : t.blockedIds = [pending.promptId] := by rw [ht]; rfl
      obtain ⟨⟨front, hqueued, hcount⟩, hstarting, hcreating', hundirected⟩ := ih
        (by rw [ht]; exact hdirected.dispatches rfl hdirected.redirectStart)
        (by rw [ht]; exact hcreating) (by
          rw [hslot]
          refine List.nodup_append.2 ⟨hrows, List.nodup_singleton _, fun x hx y hy => ?_⟩
          rintro rfl
          obtain rfl := List.mem_singleton.1 hy
          exact hnew (List.mem_append_left _ hx)) hreplayable
      generalize replayPending rest t = more at *
      obtain ⟨failed, t', effects⟩ := more
      refine ⟨⟨front, ?_, fun x => ?_⟩, fun x hx => ?_, hcreating', hundirected⟩
      · rw [hqueued, ht]
        rfl
      · have hsum := hcount x
        have hfree : s.blockedIds = [] := by simp [blockedIds, hblocked]
        have hsame : t.pendingIds = s.pendingIds := by rw [ht]; rfl
        rw [hslot, hsame] at hsum
        rw [hfree, count_cons_eq, List.count_nil]
        dsimp only at hsum ⊢
        omega
      · rcases hstarting x hx with hx | hx
        · rw [ht] at hx
          exact .inl hx
        · exact .inr hx
    · cases hsuppress
    · have hfree : s.replayBlockedPrompt = none := by
        rcases hidentity with ⟨hnone, -⟩ | ⟨b, hb, hid⟩
        · exact hnone
        · exact absurd hid (hblockedNew b hb)
      have hpending := pending_of_idle hcreating hidle.idle
      have hstarting := starting_of_idle hidle.idle
      rw [replayPendingPromptWithIdAndSource, heq] at hreplayable ⊢
      have hbegun := begun_beginPrompt
        (s := { s with replayBlockedPrompt := none, recoverablePrompt := none })
        ⟨hdirected.pendingSteer, hdirected.pendingRedirect, hdirected.redirectStart⟩ hpending
        hstarting (submitted (replayPrompt pending).id (replayPrompt pending).text
          (replayPrompt pending).attachments (replayPrompt pending).sourceTransport)
      dsimp only at hreplayable ⊢
      generalize beginPrompt { s with replayBlockedPrompt := none, recoverablePrompt := none }
        (submitted (replayPrompt pending).id (replayPrompt pending).text
          (replayPrompt pending).attachments (replayPrompt pending).sourceTransport) = begun
          at hbegun hreplayable ⊢
      obtain ⟨t, effects⟩ := begun
      obtain ⟨⟨front, hqueued, hplace⟩, hslot, hsent, hcreating', hundirected, -⟩ := hbegun
      have hslot' : t.blockedIds = [] := hslot
      obtain ⟨⟨front', hqueued', hcount⟩, hstarting', hcreating'', hundirected'⟩ :=
        ih hundirected hcreating' (by rw [hslot', List.append_nil]; exact hrows) hreplayable
      dsimp only at hqueued hplace hsent ⊢
      generalize replayPending rest t = more at *
      obtain ⟨failed, t', effects'⟩ := more
      refine ⟨⟨front' ++ front, ?_, fun x => ?_⟩, fun x hx => ?_, hcreating'', hundirected'⟩
      · rw [hqueued', hqueued, List.append_assoc]
        rfl
      · have hsum := hcount x
        have hone := congrArg (List.count x) hplace
        have hnoneP : s.pendingIds = [] := by simp [pendingIds, hpending]
        have hnoneB : s.blockedIds = [] := by simp [blockedIds, hfree]
        simp only [List.count_append] at hone
        rw [hslot', List.count_nil] at hsum
        rw [hnoneP, hnoneB, startedTurns_append, count_cons_eq, List.count_append,
          List.count_append, List.count_nil]
        have hid : (submitted (replayPrompt pending).id (replayPrompt pending).text
          (replayPrompt pending).attachments (replayPrompt pending).sourceTransport).id =
            pending.promptId := rfl
        rw [hid] at hone
        dsimp only at hsum ⊢
        omega
      · rw [startedTurns_append, List.mem_append]
        rcases hstarting' x hx with hx | hx
        · rw [hsent] at hx
          exact .inr (.inl hx)
        · exact .inr (.inr hx)

/-- The rows of a record that a resume replays. -/
def pendingRows (record : SessionRecord) : List String :=
  (record.ownerPrompts.filter (·.dispatchPending)).map (·.promptId)

def storedQueue (record : SessionRecord) : List String :=
  record.queuedPrompts.map QueuedPrompt.id

theorem advances_continueAfterReplay (hdirected : s.Undirected)
    (hcreating : s.pendingSessionPrompt.isSome → s.creatingSession = true) (failed : Bool) :
    s.Advances (s.continueAfterReplay failed) := by
  have hstands : Stands s { s with deferResumeQueue := false } :=
    ⟨rfl, rfl, rfl, .inl rfl, rfl, hdirected.pendingSteer, hdirected.pendingRedirect,
      hdirected.redirectStart⟩
  unfold continueAfterReplay
  split
  · exact hstands.advances rfl
  · exact (advances_drainQueue hstands.undirected hcreating).of_stands hstands

/-- The pending rows come before the queue, and none of the two has an identity twice. -/
theorem InOrder.of_front {rows queued sent : List String} (front : List String) (hdirected : s.Undirected)
    (hresuming : s.resumingSession = none) (hstarting : ∀ x ∈ s.startingIds, x ∈ sent)
    (hdistinct : (front ++ queued).Nodup) (hrows : rows = [] ∨ ∀ x, x ∈ front ↔ x ∈ rows)
    (hplace : ∃ more, s.queuedIds = more ++ queued ∧ ∀ x, sent.count x + s.pendingIds.count x +
      s.blockedIds.count x + more.count x = front.count x) :
    InOrder rows queued sent s := by
  obtain ⟨more, hqueued, hcount⟩ := hplace
  have hline : s.line sent = (sent ++ s.pendingIds ++ s.blockedIds ++ more) ++ queued := by
    simp only [line, hqueued, List.append_assoc]
  have hmem : ∀ x, x ∈ sent ++ s.pendingIds ++ s.blockedIds ++ more ↔ x ∈ front := by
    intro x
    rw [← List.count_pos_iff, ← List.count_pos_iff, ← hcount x]
    simp only [List.count_append]
  refine ⟨hdirected, hresuming, hstarting, fun x => ?_, ?_, fun row hrow => ?_⟩
  · have hone := List.nodup_iff_count_le_one.1 hdistinct x
    have hsum := hcount x
    rw [hqueued, List.count_append]
    rw [List.count_append] at hone
    omega
  · rw [hline]
    rcases hrows with rfl | hrows
    · exact fun _ _ _ _ _ row hrow => absurd hrow List.not_mem_nil
    · refine Ahead.of_append (fun x => (hmem x).trans (hrows x)) fun x hx hq => ?_
      exact (List.nodup_append.1 hdistinct).2.2 x ((hrows x).2 hx) x hq rfl
  · rw [hline, List.mem_append]
    rcases hrows with rfl | hrows
    · cases hrow
    · exact .inl ((hmem row).2 ((hrows row).2 hrow))

/-- The answer to a resume replays the pending rows before the queue is drained. -/
theorem Awaits.resumed {record : SessionRecord} {providerSessionId model : String}
    {history : List UserRow} (h : s.Awaits record) (hs : s.Sound)
    (hempty : providerSessionId.isEmpty = false)
    (horderly : s.OrderlyEvent (.sessionResumed providerSessionId model history)) :
    InOrder (pendingRows record) (storedQueue record)
      (startedTurns (s.handleSessionResumed providerSessionId model history).2)
      (s.handleSessionResumed providerSessionId model history).1 := by
  obtain ⟨hdistinct, hreplayable⟩ := horderly
  have hreplayed : s.replayed providerSessionId =
      record.ownerPrompts.filter (·.dispatchPending) := by
    simp [DomainState.replayed, h.resuming, hempty]
  rw [hreplayed] at hdistinct hreplayable
  have hheld : s.held = storedQueue record := by
    simp [held, h.queued, h.pending, h.starting, h.blocked, storedQueue]
  rw [hheld] at hdistinct
  unfold handleSessionResumed
  rw [h.resuming]
  dsimp only
  rw [hempty, if_neg Bool.false_ne_true]
  obtain ⟨t, ht⟩ : ∃ t, t = s.resumedState record providerSessionId model history := ⟨_, rfl⟩
  have hplaces : SamePlaces s t := by rw [ht]; constructor <;> rfl
  have hdirected : t.Undirected := by
    rw [ht]
    exact ⟨h.undirected.pendingSteer, h.undirected.pendingRedirect, h.undirected.redirectStart⟩
  have hblocked : t.blockedIds = [] := by
    rw [blockedIds, hplaces.replayBlockedPrompt]
    exact h.blocked
  have hpending : t.pendingIds = [] := by
    rw [pendingIds, hplaces.pendingSessionPrompt]
    exact h.pending
  have hresumed := (t.dispatches_replayPending
    (record.ownerPrompts.filter (·.dispatchPending))).resumingSession
  have hline := replayed_replayPending (record.ownerPrompts.filter (·.dispatchPending)) hdirected
    (hplaces.sound hs).creating (by
      rw [hblocked, List.append_nil]
      exact (List.nodup_append.1 hdistinct).1) (ht ▸ hreplayable record h.resuming)
  have hrows : t.ownerPrompts = record.ownerPrompts := by rw [ht]; rfl
  rw [← ht, hrows]
  generalize replayPending (record.ownerPrompts.filter (·.dispatchPending)) t = result at hline hresumed ⊢
  obtain ⟨failed, t', effects⟩ := result
  obtain ⟨⟨front, hqueued, hcount⟩, hstarting, hcreating, hundirected⟩ := hline
  dsimp only at hresumed hqueued hcount hstarting hcreating ⊢
  have hstart : InOrder (pendingRows record) (storedQueue record) (startedTurns effects) t' := by
    refine .of_front _ hundirected ?_ (fun x hx => ?_) hdistinct (.inr fun _ => Iff.rfl)
      ⟨front, ?_, fun x => ?_⟩
    · rw [hresumed, ht]
      rfl
    · refine (hstarting x hx).resolve_left fun hx => ?_
      rw [startingIds, hplaces.startingTurn] at hx
      have hnone := h.starting
      rw [startingIds] at hnone
      rw [hnone] at hx
      cases hx
    · rw [hqueued, hplaces.queuedIds, h.queued]
      rfl
    · have hsum := hcount x
      rw [hpending, hblocked] at hsum
      simpa using hsum
  have hcontinued := hstart.advances (advances_continueAfterReplay hundirected hcreating failed)
  have hoptions : ∀ (b : Bool) (t : DomainState) (more : List Effect),
      startedTurns (.touchSession record.id :: .loadSubagents record.id ::
        (if b then t.sessionOptions providerSessionId else []) ++ more) = startedTurns more := by
    intro b t more
    cases b
    · rfl
    · unfold sessionOptions
      rw [if_pos rfl]
      split <;> rfl
  rw [List.append_assoc, hoptions, startedTurns_append]
  exact hcontinued

/-! ## Turning to a session -/

/-- A session is taken on: its provider is there and can resume it, and if it is still to be created
it has one pending row at most. -/
structure Adopts (s : DomainState) (record : SessionRecord) : Prop where
  provider : (s.activateProvider record.provider).1 = true
  resumable : isPendingProviderSessionId record.providerSessionId = true ∨
    (s.activateProvider record.provider).2.backendCapabilities.resume = true
  boundary : (s.activateProvider record.provider).2.toolBoundary = none
  single : isPendingProviderSessionId record.providerSessionId = true →
    (record.ownerPrompts.filter (·.dispatchPending)).length ≤ 1

theorem startedTurns_beginPrompt_of_none (hnone : s.providerSessionId = none)
    (prompt : QueuedPrompt) : startedTurns (s.beginPrompt prompt).2 = [] := by
  have hprepared : ∀ t, s.prepareSelectedProviderTransition = (true, t) →
      t.providerSessionId = none := by
    intro t ht
    unfold prepareSelectedProviderTransition at ht
    split at ht
    · cases ht
      exact hnone
    · split at ht
      · cases ht
        exact hnone
      · split at ht <;> cases ht
        rfl
  unfold beginPrompt
  split
  · rfl
  next t ht =>
    have hsession : (t.recordOutgoingUserPrompt (t.outgoing prompt)).providerSessionId = none :=
      hprepared t ht
    unfold dispatchPrompt
    dsimp only
    rw [hsession]
    rfl

/-- A session that is created with its only pending row. -/
theorem creationPrompt_rows {record : SessionRecord} {prompt : PersistedOwnerPrompt}
    (hprompt : creationPrompt record = some prompt)
    (hsingle : (record.ownerPrompts.filter (·.dispatchPending)).length ≤ 1) :
    pendingRows record = [] ∨ pendingRows record = [prompt.promptId] := by
  have hhead := List.head?_filter (p := (·.dispatchPending)) (l := record.ownerPrompts)
  unfold pendingRows
  cases hrows : record.ownerPrompts.filter (·.dispatchPending) with
  | nil => exact .inl rfl
  | cons row rest =>
    cases rest with
    | nil =>
      rw [hrows, List.head?_cons] at hhead
      obtain rfl : row = prompt := by simpa [creationPrompt, ← hhead] using hprompt
      exact .inr rfl
    | cons _ _ => simp [hrows] at hsingle

theorem beginResume_starts (hfresh : s.Fresh) {record : SessionRecord} (hadopts : s.Adopts record)
    (hdistinct : (s.beginResume record).1.held.Nodup) :
    (s.beginResume record).1.Awaits record ∨
      InOrder (pendingRows record) (storedQueue record) [] (s.beginResume record).1 := by
  have hidle : s.isBusy = false := by
    simp [isBusy, hasActiveWork, hasRunningSubagents, hfresh.replayBlockedPrompt,
      hfresh.creatingSession, hfresh.resumingSession, hfresh.startingTurn, hfresh.activeTurn,
      hfresh.contextCompaction, hfresh.activeShells, hfresh.runningSubagents]
  obtain ⟨hprovider, hresumable, hboundary, hsingle⟩ := hadopts
  have hswitch := s.switches_activateProvider record.provider
  have hdispatches := hswitch.dispatches
  unfold beginResume at hdistinct ⊢
  rw [hidle, if_neg Bool.false_ne_true] at hdistinct ⊢
  generalize s.activateProvider record.provider = activated at *
  obtain ⟨b, t⟩ := activated
  dsimp only at hprovider hresumable hboundary hswitch hdispatches
  subst hprovider
  have hresume : (!isPendingProviderSessionId record.providerSessionId &&
      !t.backendCapabilities.resume) = false := by
    rcases hresumable with h | h <;> simp [h]
  dsimp only at hdistinct ⊢
  rw [hresume, hboundary] at hdistinct ⊢
  simp only [Bool.false_eq_true, Option.isSome_none, if_false] at hdistinct ⊢
  have hundirected : t.Undirected := ⟨hdispatches.pendingSteer.trans hfresh.pendingSteer,
    hdispatches.pendingRedirect.trans hfresh.pendingRedirect,
    hswitch.redirectStart.trans hfresh.redirectStart⟩
  have hpending : t.pendingSessionPrompt = none :=
    hswitch.pendingSessionPrompt.trans hfresh.pendingSessionPrompt
  have hstarting : t.startingTurn = none := hswitch.startingTurn.trans hfresh.startingTurn
  have hblocked : t.replayBlockedPrompt = none :=
    hswitch.replayBlockedPrompt.trans hfresh.replayBlockedPrompt
  split at hdistinct
  next hcreating =>
    rw [if_pos hcreating]
    obtain ⟨adopted, hadopted⟩ : ∃ adopted : DomainState, adopted = { t.adoptRecord record with
        sessionId := some record.id
        providerSessionId := none
        resumingSession := none
        creationTitle :=
          if (Text.trim record.title).isEmpty then none else some (Text.trim record.title) } :=
      ⟨_, rfl⟩
    have hqueued : adopted.queuedIds = storedQueue record := by rw [hadopted]; rfl
    have hundirected' : adopted.Undirected := by
      rw [hadopted]
      exact ⟨hundirected.pendingSteer, hundirected.pendingRedirect, hundirected.redirectStart⟩
    have hpending' : adopted.pendingSessionPrompt = none := by rw [hadopted]; exact hpending
    have hstarting' : adopted.startingTurn = none := by rw [hadopted]; exact hstarting
    have hblocked' : adopted.blockedIds = [] := by
      rw [hadopted]
      simp [blockedIds, adoptRecord, restoreRecord, hblocked]
    have hresuming' : adopted.resumingSession = none := by rw [hadopted]
    have hsession : adopted.providerSessionId = none := by rw [hadopted]
    rw [← hadopted] at hdistinct ⊢
    refine .inr ?_
    split at hdistinct
    next hnone =>
      have hrows : pendingRows record = [] := by
        cases hprompts : record.ownerPrompts with
        | nil => simp [pendingRows, hprompts]
        | cons row rest =>
          unfold creationPrompt at hnone
          rw [hprompts] at hnone
          cases hfound : (row :: rest).find? (·.dispatchPending) <;> simp [hfound] at hnone
      refine .of_front [] hundirected' hresuming' (by simp [startingIds, hstarting']) ?_ (.inl hrows)
        ⟨[], hqueued, fun x => ?_⟩
      · rw [List.nil_append, ← hqueued]
        refine hdistinct.sublist ?_
        simp only [held, List.append_assoc]
        exact List.sublist_append_left _ _
      · simp [pendingIds, hpending', hblocked']
    next prompt hprompt =>
      have hunsent := startedTurns_beginPrompt_of_none hsession (replayPrompt prompt)
      have hbegun := begun_beginPrompt hundirected' hpending' hstarting' (replayPrompt prompt)
      generalize adopted.beginPrompt (replayPrompt prompt) = begun at hbegun hunsent hdistinct ⊢
      obtain ⟨t', effects⟩ := begun
      obtain ⟨⟨front, hfront, hplace⟩, hslot, hsent, -, hundirected'', hresumes⟩ := hbegun
      dsimp only at hunsent hfront hplace hslot hsent hundirected'' hresumes hdistinct ⊢
      rw [hunsent] at hsent hplace
      have hslot' : t'.blockedIds = [] := hslot.trans hblocked'
      have hone : ∀ x, t'.pendingIds.count x + front.count x = [prompt.promptId].count x := by
        intro x
        have hcount := congrArg (List.count x) hplace
        rw [show (replayPrompt prompt).id = prompt.promptId from rfl] at hcount
        simpa [List.count_append] using hcount
      refine .of_front [prompt.promptId] hundirected'' (hresumes.trans hresuming') (by simp [hsent])
        ?_ ?_ ⟨front, hfront.trans (by rw [hqueued]), fun x => ?_⟩
      · refine nodup_of_count_le hdistinct fun x => ?_
        rw [count_held, hfront, hqueued, hsent, hslot', List.count_append, List.count_append,
          ← hone x]
        simp only [List.count_nil]
        omega
      · rcases creationPrompt_rows hprompt (hsingle hcreating) with hrows | hrows
        · exact .inl hrows
        · exact .inr fun x => by rw [hrows]
      · rw [hslot', ← hone x]
        simp
  next hcreating =>
    rw [if_neg hcreating]
    refine .inl ⟨⟨hundirected.pendingSteer, hundirected.pendingRedirect,
      hundirected.redirectStart⟩, rfl, ?_, ?_, ?_, rfl⟩
    · simp [pendingIds, adoptRecord, restoreRecord, hpending]
    · simp [startingIds, adoptRecord, restoreRecord, hstarting]
    · simp [blockedIds, adoptRecord, restoreRecord, hblocked]

/-- What follows a resume by itself: the events of the provider, other than its refusal to resume. -/
def Automatic (s : DomainState) : Action → Prop
  | .backend provider event => s.hears provider = true →
    match event with
    | .sessionResumed providerSessionId _ _ => providerSessionId.isEmpty = false
    | .requestFailed .resumeSession _ _ => False
    | _ => True
  | _ => False

/-- The prompts of a session that was turned to. -/
def Replaying (record : SessionRecord) (sent : List String) (s : DomainState) : Prop :=
  s.Awaits record ∧ sent = [] ∨ InOrder (pendingRows record) (storedQueue record) sent s

theorem Replaying.undirected {record : SessionRecord} {sent : List String}
    (h : Replaying record sent s) : s.Undirected :=
  h.elim (fun h => h.1.undirected) InOrder.undirected

theorem Replaying.advances {record : SessionRecord} {sent : List String} {effects : List Effect}
    (h : Replaying record sent s) (hadvances : s.Advances (s', effects)) :
    Replaying record (sent ++ startedTurns effects) s' := by
  rcases h with ⟨hawaits, rfl⟩ | hordered
  · obtain ⟨hawaits', hunsent⟩ := hawaits.advances hadvances
    exact .inl ⟨hawaits', hunsent⟩
  · exact .inr (hordered.advances hadvances)

/-- The provider's answer to a resume that was asked for starts the replay. -/
theorem Replaying.resumed {record : SessionRecord} {sent : List String}
    {provider providerSessionId model : String} {history : List UserRow} (hs : s.Sound)
    (h : Replaying record sent s) (hhears : s.hears provider = true)
    (hempty : providerSessionId.isEmpty = false)
    (horderly : s.OrderlyEvent (.sessionResumed providerSessionId model history)) :
    Replaying record (sent ++ startedTurns (s.handleProviderBackend provider
        (.sessionResumed providerSessionId model history)).2)
      (s.handleProviderBackend provider (.sessionResumed providerSessionId model history)).1 := by
  have hactive : (provider != s.backendProvider) = false := by simpa [hears] using hhears
  have hreduced : s.handleProviderBackend provider
      (.sessionResumed providerSessionId model history) =
        ((s.handleSessionResumed providerSessionId model history).1.syncActiveProviderContext,
          (s.handleSessionResumed providerSessionId model history).2) := by
    unfold handleProviderBackend
    dsimp only
    rw [observeProvider_eq hhears (fun _ h => by cases h) (fun _ _ h => by cases h), hactive]
    rfl
  rw [hreduced]
  dsimp only
  rcases h with ⟨hawaits, rfl⟩ | hordered
  · obtain ⟨hundirected, hresumed, hstarting, honce, hahead, hpresent⟩ :=
      hawaits.resumed hs hempty horderly
    exact .inr ⟨hundirected.dispatches rfl hundirected.redirectStart, hresumed, hstarting, honce,
      hahead, hpresent⟩
  · have hignored : s.handleSessionResumed providerSessionId model history = (s, []) := by
      simp [handleSessionResumed, hordered.resumed]
    rw [hignored]
    obtain ⟨hundirected, hresumed, hstarting, honce, hahead, hpresent⟩ := hordered
    refine .inr ?_
    dsimp only
    rw [startedTurns_nil, List.append_nil]
    exact ⟨hundirected.dispatches rfl hundirected.redirectStart, hresumed, hstarting, honce,
      hahead, hpresent⟩

theorem Replaying.step {record : SessionRecord} {h : History} {action : Action} (hs : s.Sound)
    (hreplaying : Replaying record h.sent s) (horderly : s.Orderly action)
    (hautomatic : s.Automatic action) :
    Replaying record (h.record s action).sent (s.step action).1 := by
  cases action with
  | backend provider event =>
    have hturning : (s.hears provider = true → Turning event) →
        Replaying record (h.record s (.backend provider event)).sent
          (s.step (.backend provider event)).1 := fun hturning =>
      hreplaying.advances
        (advances_handleProviderBackend hs hreplaying.undirected horderly hturning)
    by_cases hhears : s.hears provider = true
    · have hevent := hautomatic hhears
      cases event with
      | sessionResumed providerSessionId model history =>
        exact hreplaying.resumed hs hhears hevent (horderly hhears)
      | requestFailed operation code message =>
        refine hturning fun _ => ?_
        cases operation <;> trivial
      | _ => exact hturning fun _ => trivial
    · exact hturning fun h => absurd h hhears
  | _ => exact hautomatic.elim

end DomainState

open DomainState

/-- In every run of events that follows turning to a session, in which no step writes over a prompt,
each prompt is sent once at most, every pending row before every queued prompt, and no pending row is
dropped. -/
theorem replay_in_order {s₀ s : DomainState} {record : SessionRecord} {h : History}
    {actions : List Action} (hfresh : s₀.Fresh) (hadopts : s₀.Adopts record)
    (hdistinct : (s₀.beginResume record).1.held.Nodup)
    (hrun : (recorded.restrict fun x action =>
      x.1.Orderly action ∧ x.1.Automatic action).Run
        ((s₀.beginResume record).1, .start (s₀.beginResume record).1) actions (s, h)) :
    h.sent.Nodup ∧ Ahead (pendingRows record) (storedQueue record) h.sent ∧
      ∀ row ∈ pendingRows record, row ∈ h.sent ∨ row ∈ s.held ∨ s.resumingSession = some record := by
  have hreplaying : s.Sound ∧ Replaying record h.sent s := by
    refine hrun.invariant (Q := fun x => x.1.Sound ∧ Replaying record x.2.sent x.1) ?_
      ⟨(Starts.resumed record hfresh).sound hdistinct, ?_⟩
    · rintro ⟨s, h⟩ action _ ⟨⟨horderly, hautomatic⟩, rfl⟩ ⟨hs, hreplaying⟩
      exact ⟨(step_sound hs horderly).1, hreplaying.step hs horderly hautomatic⟩
    · exact (beginResume_starts hfresh hadopts hdistinct).imp_left fun hawaits => ⟨hawaits, rfl⟩
  rcases hreplaying.2 with ⟨hawaits, hnone⟩ | hordered
  · rw [hnone]
    refine ⟨List.nodup_nil, fun front x back heq => ?_, fun _ _ => .inr (.inr hawaits.resuming)⟩
    simp at heq
  · refine ⟨List.nodup_iff_count_le_one.2 fun x => ?_, fun front x back heq hx => ?_,
      fun row hrow => ?_⟩
    · have honce := hordered.once x
      omega
    · refine hordered.ahead front x (back ++ s.pendingIds ++ s.blockedIds ++ s.queuedIds) ?_ hx
      simp only [line, heq, List.append_assoc, List.cons_append]
    · have hpresent := hordered.present row hrow
      simp only [line, List.append_assoc, List.mem_append] at hpresent
      simp only [held, List.append_assoc, List.mem_append]
      tauto

/-- A redirected prompt goes back to the queue when its turn is refused. -/
def refusedRedirect : List Action :=
  redirecting ++ [.native (.turnCompleted "turn-1" .interrupted),
    .native (.requestFailed .startTurn 0 "refused")]

/-- The session as it is stored then. -/
def refusedRecord : Option SessionRecord :=
  (livesAfter ((native, .empty), ⟨none, []⟩) refusedRedirect).1.2.load "session"

/-- What the provider reports after a restart. -/
def answered : List Action :=
  [.native (.sessionResumed "thread" "" []), .native (.turnStarted "turn-2"),
    .native (.turnCompleted "turn-2" .completed)]

/-- The prompt is a pending row and is queued: it is replayed, completed, and sent once more. -/
theorem queued_row_sent_twice :
    lives.Run ((native, .empty), ⟨none, []⟩) (refusedRedirect.map some)
        (livesAfter ((native, .empty), ⟨none, []⟩) refusedRedirect) ∧
      refusedRecord.map (fun record =>
        let s := (native.beginResume record).1
        ((History.after (s, .start s) answered).2.sent,
          (History.after (s, .start s) answered).2.rejected)) =
        some (["second", "second"], []) :=
  ⟨lives_after (by decide +kernel), by decide +kernel⟩

/-- A prompt is sent, and the server stops before its turn is heard of. A second one is queued. -/
def interruptedRun : List Action :=
  [.say "first", .native (.sessionCreated "thread" ""), .enqueue "second" "look here" []]

def interruptedRecord : SessionRecord where
  id := "session"
  provider := "native"
  providerSessionId := "thread"
  title := "go on"
  model := none
  lastTurn := none
  ownerTurns := []
  ownerPrompts := [⟨"first", "go on", none, true⟩]
  queuedPrompts := [⟨false, "second", "look here", [], none⟩]

/-- A single row can be replayed or takes the free slot of a retry. -/
theorem replayable_single {s : DomainState} (hfree : s.replayBlockedPrompt = none)
    (row : PersistedOwnerPrompt) : Replayable [row] s := by
  rw [Replayable]
  rcases s.submit_cases (replayPrompt row).id (replayPrompt row).text (replayPrompt row).attachments
      (replayPrompt row).sourceTransport false with ⟨e, heq⟩ | ⟨-, hsuppress, -⟩ | ⟨-, -, heq⟩
  · rw [replayPendingPromptWithIdAndSource, heq]
    exact ⟨hfree, trivial⟩
  · cases hsuppress
  · rw [replayPendingPromptWithIdAndSource, heq]
    trivial

theorem interrupted_run :
    (recorded.restrict fun x action => x.1.Orderly action ∧ x.1.Automatic action).Run
      ((native.beginResume interruptedRecord).1, .start (native.beginResume interruptedRecord).1)
      answered
      (History.after ((native.beginResume interruptedRecord).1,
        .start (native.beginResume interruptedRecord).1) answered) := by
  refine .cons ⟨⟨fun _ => ⟨by decide +kernel, fun record hresuming => ?_⟩,
    fun _ => by decide +kernel⟩, rfl⟩
    (.cons ⟨⟨fun _ _ => ?_, fun _ => trivial⟩, rfl⟩
      (.cons ⟨⟨fun _ hfailed => ?_, fun _ => trivial⟩, rfl⟩ (.nil _)))
  · obtain rfl : interruptedRecord = record := Option.some.inj hresuming
    have hrows : (native.beginResume interruptedRecord).1.replayed "thread" =
        [⟨"first", "go on", none, true⟩] := by decide +kernel
    rw [hrows]
    exact replayable_single rfl _
  · decide +kernel
  · revert hfailed
    decide +kernel

theorem replay_in_order_interrupted :
    let s := (native.beginResume interruptedRecord).1
    let x := History.after (s, .start s) answered
    (livesAfter ((native, .empty), ⟨none, []⟩) interruptedRun).1.2.load "session" =
        some interruptedRecord ∧
      x.2.sent = ["first", "second"] ∧ x.2.sent.Nodup ∧
      Ahead (pendingRows interruptedRecord) (storedQueue interruptedRecord) x.2.sent ∧
      ∀ row ∈ pendingRows interruptedRecord,
        row ∈ x.2.sent ∨ row ∈ x.1.held ∨ x.1.resumingSession = some interruptedRecord :=
  ⟨by decide +kernel, by decide +kernel, replay_in_order native_fresh
    ⟨by decide +kernel, .inr (by decide +kernel), by decide +kernel, by decide +kernel⟩
    (by decide +kernel) interrupted_run⟩

end Nakode.Domain
