import Nakode.Domain.Conserve

/-!
# Turns that could not be checkpointed

Before a turn that an event starts is sent to its provider, the accepted prompt and the queue are
checkpointed. When that fails the turn is fenced: it is not sent, and the engine is told that it was
refused, with the queue held out of the way. What is retained then is all that was held exactly when
the fenced prompt was not a redirected one.
-/

namespace Nakode.Domain

namespace DomainState

variable {s s' : DomainState}

/-! ## The turns that effects start -/

@[simp] theorem startedTurns_nil : startedTurns [] = [] := rfl

@[simp] theorem startedTurns_append (effects more : List Effect) :
    startedTurns (effects ++ more) = startedTurns effects ++ startedTurns more :=
  List.filterMap_append

/-- The effects start no turn, or that of the prompt that is on its way. -/
def Announces (result : DomainState × List Effect) : Prop :=
  startedTurns result.2 = [] ∨
    ∃ prompt, result.1.startingTurn = some prompt ∧ startedTurns result.2 = [prompt.id]

theorem startedTurns_map_activity (ids : List String) :
    startedTurns (ids.map .recordOwnerActivity) = [] := by
  induction ids with
  | nil => rfl
  | cons _ _ ih => exact ih

theorem announces_dispatchPrompt (s : DomainState) (prompt : OutgoingPrompt) :
    Announces (s.dispatchPrompt prompt) := by
  unfold dispatchPrompt
  dsimp only
  split
  · refine .inr ⟨prompt, rfl, ?_⟩
    simp only [startedTurns_append, startedTurns_map_activity, startPromptOnSession]
    split <;> rfl
  · exact .inl rfl

theorem announces_beginPrompt (s : DomainState) (prompt : QueuedPrompt) :
    Announces (s.beginPrompt prompt) := by
  obtain ⟨s₁, -, -, heq | heq⟩ := s.begin_cases prompt <;> rw [heq]
  · exact .inl rfl
  · exact announces_dispatchPrompt s₁ _

theorem announces_drainQueue (s : DomainState) : Announces s.drainQueue := by
  rcases s.drain_cases with heq | ⟨prompt, queue, -, -, -, -, heq⟩ <;> rw [heq]
  · exact .inl rfl
  · exact announces_beginPrompt _ prompt

theorem startedTurns_terminalEffects (s : DomainState) : startedTurns s.terminalEffects = [] := by
  unfold terminalEffects
  split <;> rfl

theorem announces_completeTurn (s : DomainState) (turnId : String) (outcome : TurnOutcome) :
    Announces (s.completeTurn turnId outcome) := by
  have hcontinue : ∀ s : DomainState, Announces s.continueAfterTurn := by
    intro s
    unfold continueAfterTurn beginPendingRedirect
    split
    · split
      · exact .inl rfl
      · exact announces_beginPrompt _ _
    · exact announces_drainQueue s
  unfold completeTurn settleTurn
  dsimp only
  split
  · exact .inl rfl
  · split
    · exact .inl (startedTurns_terminalEffects _)
    · split
      · exact .inl (startedTurns_terminalEffects _)
      · have hannounces := hcontinue ((s.observeCompletion turnId).retireTurn turnId outcome)
        simpa [Announces, startedTurns_terminalEffects] using hannounces

theorem announces_handleSessionCreated (s : DomainState) (providerSessionId model : String) :
    Announces (s.handleSessionCreated providerSessionId model) := by
  have hoptions : ∀ s : DomainState, startedTurns (s.sessionOptions providerSessionId) = [] := by
    intro s
    unfold sessionOptions
    split <;> rfl
  unfold handleSessionCreated
  split
  · exact .inl rfl
  · dsimp only
    split
    · exact .inl rfl
    next prompt _ =>
      refine .inr ⟨_, rfl, ?_⟩
      rw [startedTurns_append]
      cases s.sessionId <;> exact congrArg (· ++ [prompt.id]) (hoptions _)

theorem announces_replay (s : DomainState) (prompt : QueuedPrompt) :
    Announces (settle (s.replayPendingPromptWithIdAndSource prompt.id prompt.text prompt.attachments
      prompt.sourceTransport)) := by
  rcases s.submit_cases prompt.id prompt.text prompt.attachments prompt.sourceTransport false with
    ⟨e, heq⟩ | ⟨-, hsuppress, -⟩ | ⟨-, -, heq⟩
  · rw [replayPendingPromptWithIdAndSource, heq]
    exact .inl rfl
  · cases hsuppress
  · rw [replayPendingPromptWithIdAndSource, heq]
    exact announces_beginPrompt _ _

theorem announces_replayPending (rows : List PersistedOwnerPrompt) (s : DomainState) :
    Announces (replayPending rows s).2 ∧ ∀ prompt, s.startingTurn = some prompt →
      (replayPending rows s).2.1.startingTurn = some prompt ∧
        startedTurns (replayPending rows s).2.2 = [] := by
  induction rows generalizing s with
  | nil => exact ⟨.inl rfl, fun prompt h => ⟨h, rfl⟩⟩
  | cons pending rest ih =>
    rw [replayPending]
    dsimp only
    constructor
    · have hbegun := announces_replay s (replayPrompt pending)
      split
      next effects s' heq =>
        rw [heq] at hbegun
        rcases hbegun with hnone | ⟨prompt, hstarting, hstarted⟩
        · have hrest := (ih s').1
          simpa [Announces, show startedTurns effects = [] from hnone] using hrest
        · obtain ⟨hkept, hmore⟩ := (ih s').2 prompt hstarting
          refine .inr ⟨prompt, hkept, ?_⟩
          rw [startedTurns_append, hmore, List.append_nil]
          exact hstarted
      next e s' heq => exact (ih _).1
    · intro prompt hstarting
      have hbusy : s.hasActiveWork = true := by simp [hasActiveWork, hstarting]
      obtain ⟨e, heq⟩ := s.replay_of_busy hbusy (replayPrompt pending)
      rw [heq]
      exact (ih { s with replayBlockedPrompt := some (replayPrompt pending) }).2 prompt hstarting

theorem announces_handleSessionResumed (s : DomainState) (providerSessionId model : String)
    (history : List UserRow) :
    Announces (s.handleSessionResumed providerSessionId model history) := by
  unfold handleSessionResumed
  split
  · exact .inl rfl
  next record _ =>
    split
    · exact .inl rfl
    dsimp only
    obtain ⟨hreplayed, hkept⟩ := announces_replayPending
      ((s.resumedState record providerSessionId model history).ownerPrompts.filter
        (·.dispatchPending)) (s.resumedState record providerSessionId model history)
    generalize replayPending _ (s.resumedState record providerSessionId model history) = result at *
    obtain ⟨failed, t, effects⟩ := result
    have hoptions : ∀ b : Bool, ∀ s : DomainState,
        startedTurns (if b then s.sessionOptions providerSessionId else []) = [] := by
      intro b s
      cases b
      · rfl
      · unfold sessionOptions
        rw [if_pos rfl]
        split <;> rfl
    have hdrained : Announces (t.continueAfterReplay failed) ∧
        (t.startingTurn.isSome → (t.continueAfterReplay failed).1.startingTurn = t.startingTurn ∧
          startedTurns (t.continueAfterReplay failed).2 = []) := by
      unfold continueAfterReplay
      split
      · exact ⟨.inl rfl, fun _ => ⟨rfl, rfl⟩⟩
      · refine ⟨announces_drainQueue _, fun hstarting => ?_⟩
        rcases drain_cases (s := { t with deferResumeQueue := false }) with
          heq | ⟨_, _, -, -, -, hbusy, -⟩
        · rw [heq]
          exact ⟨rfl, rfl⟩
        · simp [isBusy, hasActiveWork, hstarting] at hbusy
    obtain ⟨hannounces, hquiet⟩ := hdrained
    generalize t.continueAfterReplay failed = drained at *
    obtain ⟨t', more⟩ := drained
    have hsplit : ∀ options : List Effect, startedTurns options = [] →
        startedTurns (.touchSession record.id :: .loadSubagents record.id :: options ++ effects ++
          more) = startedTurns effects ++ startedTurns more := by
      intro options hoptions
      rw [startedTurns_append, startedTurns_append]
      exact congrArg (· ++ startedTurns effects ++ startedTurns more) hoptions
    unfold Announces
    dsimp only
    rw [hsplit _ (hoptions _ _)]
    rcases hreplayed with hnone | ⟨prompt, hstarting, hstarted⟩
    · rw [show startedTurns effects = [] from hnone]
      exact hannounces
    · obtain ⟨hkept, hmore⟩ := hquiet (by simp [show t.startingTurn = some prompt from hstarting])
      refine .inr ⟨prompt, hkept.trans hstarting, ?_⟩
      rw [show startedTurns more = [] from hmore, List.append_nil]
      exact hstarted

theorem announces_handleBackend (s : DomainState) (event : BackendEvent) :
    Announces (s.handleBackend event) := by
  cases event <;> simp only [handleBackend]
  case sessionCreated => exact announces_handleSessionCreated s _ _
  case sessionResumed => exact announces_handleSessionResumed s _ _ _
  case turnStarted =>
    unfold handleTurnStarted
    split
    · exact .inl rfl
    · cases s.acknowledgedPrompt <;> exact .inl rfl
  case turnCompleted => exact announces_completeTurn _ _ _
  case steerAccepted =>
    split
    · exact .inl (startedTurns_map_activity _)
    · exact .inl rfl
  case requestFailed operation code message =>
    unfold requestFailed
    cases operation <;> dsimp only
    case startSession =>
      split
      · exact .inl rfl
      · split <;> exact .inl rfl
    case startTurn =>
      split
      · exact .inl rfl
      · split
        · exact .inl rfl
        · exact announces_drainQueue s
    all_goals exact .inl rfl
  all_goals exact .inl rfl

theorem announces_handleProviderBackend (s : DomainState) (provider : String)
    (event : BackendEvent) : Announces (s.handleProviderBackend provider event) := by
  unfold handleProviderBackend
  split
  · exact .inl rfl
  · dsimp only
    split
    · exact .inl rfl
    · exact announces_handleBackend _ event

/-! ## Fencing -/

def isStartTurn : Effect → Bool
  | .backend (.startTurn ..) => true
  | _ => false

/-- The effects that are checkpoints of the prompts. -/
def isPromptCheckpoint : Effect → Bool
  | .persistSession .. => true
  | .persistAcceptedOwnerPrompt .. => true
  | _ => false

/-- `session_persisted`. -/
def sessionPersisted (s : DomainState) (recordId : String) : DomainState :=
  { s with nakodeSessionId := recordId, sessionId := some recordId }

/-- `persist_owner_prompt_effects` when it fails. The session may have been created before that. -/
def failCheckpoint (s : DomainState) (created : Option String) (effects : List Effect) :
    DomainState × List Effect :=
  (created.elim s s.sessionPersisted, effects.filter fun effect => !isPromptCheckpoint effect)

/-- `fence_owner_prompt_dispatch` when the checkpoint fails with an error. -/
def fenceOwnerPromptDispatch (s : DomainState) (created : Option String) (error : String)
    (effects : List Effect) : DomainState × List Effect :=
  let startsTurn := effects.any isStartTurn
  let (s, effects) := s.failCheckpoint created effects
  let effects := effects.filter fun effect => !isStartTurn effect
  if !startsTurn then
    (s, effects)
  else
    let queued := s.queue
    let (s, recovery) := { s with queue := [] }.handleProviderBackend s.backendProvider
      (.requestFailed .startTurn (-1) ("Owner message was not sent because its durable transcript " ++
        "checkpoint failed: " ++ error))
    ({ s with queue := queued }, effects ++ recovery)

/-! ## What is retained -/

def reservedIds (s : DomainState) : List String := (s.redirectStart.map (·.prompt.id)).toList

/-- No turn is sent, the prompt that was on its way can be retried or is back in the queue where it
was taken from, the rest of the queue is as it was, and every prompt is held once. -/
structure Retains (s : DomainState) (fenced : DomainState × List Effect) : Prop where
  unsent : startedTurns fenced.2 = []
  place : ∀ prompt, s.startingTurn = some prompt →
    (fenced.1.blockedIds = [prompt.id] ∧ fenced.1.queue = s.queue) ∨
      ∃ r, s.redirectStart = some r ∧ r.prompt.id = prompt.id ∧
        fenced.1.queue = s.queue.insertIdx (redirectIndex r s.queue) r.prompt
  once : ∀ x ∈ s.queuedIds ++ s.startingIds ++ s.reservedIds, fenced.1.held.count x = 1

/-- The prompt on its way is not a redirected one, unless it waits for a retry as well, and no
prompt is held twice. -/
structure Fenceable (s : DomainState) : Prop where
  slot : ∀ prompt, s.startingTurn = some prompt → s.isRedirected prompt.id = true →
    s.blockedIds = [prompt.id]
  once : ∀ x ∈ s.queuedIds ++ s.startingIds ++ s.reservedIds,
    (s.queuedIds ++ s.pendingIds ++ s.startingIds).count x = 1

theorem startedTurns_filter (effects : List Effect) :
    startedTurns (effects.filter fun effect => !isStartTurn effect) = [] := by
  induction effects with
  | nil => rfl
  | cons effect effects ih =>
    rw [List.filter_cons]
    split
    next hother =>
      rw [← ih]
      unfold startedTurns
      rw [List.filterMap_cons]
      split
      · rfl
      next hstart =>
        unfold isStartTurn at hother
        split at hstart
        · cases hother
        · cases hstart
    · exact ih

theorem any_isStartTurn {effects : List Effect} (hstarts : startedTurns effects ≠ []) :
    effects.any isStartTurn = true := by
  by_contra hnone
  refine hstarts ?_
  have hsame : effects.filter (fun effect => !isStartTurn effect) = effects :=
    List.filter_eq_self.2 fun effect heffect => by
      simp only [List.any_eq_true, not_exists, not_and, Bool.not_eq_true] at hnone
      simp [hnone effect heffect]
  rw [← hsame]
  exact startedTurns_filter effects

theorem takeRedirectStart_others (s : DomainState) :
    s.takeRedirectStart.pendingSessionPrompt = s.pendingSessionPrompt ∧
      s.takeRedirectStart.startingTurn = s.startingTurn ∧
      s.takeRedirectStart.replayBlockedPrompt = s.replayBlockedPrompt := by
  unfold takeRedirectStart restoreRedirectStart
  split
  · exact ⟨rfl, rfl, rfl⟩
  · split <;> exact ⟨rfl, rfl, rfl⟩

/-- The state after a turn was fenced: the prompt that was on its way is returned, to the queue in
vain. -/
theorem fence_eq {prompt : OutgoingPrompt} (hstarting : s.startingTurn = some prompt)
    (created : Option String) (error : String) {effects : List Effect}
    (hstarts : startedTurns effects ≠ []) :
    ∃ s', SamePlaces s s' ∧ s'.startingTurn = some prompt ∧ s'.queue = s.queue ∧
      s.fenceOwnerPromptDispatch created error effects =
        ({ ({ s' with queue := [], startingTurn := none }.returnPrompt
              prompt).syncActiveProviderContext with queue := s.queue },
          (s.failCheckpoint created effects).2.filter fun effect => !isStartTurn effect) := by
  refine ⟨(s.failCheckpoint created effects).1, ?_, ?_, ?_, ?_⟩
  · cases created <;> constructor <;> rfl
  · cases created <;> exact hstarting
  · cases created <;> rfl
  · have hqueue : (s.failCheckpoint created effects).1.queue = s.queue := by
      cases created <;> rfl
    have hprompt : (s.failCheckpoint created effects).1.startingTurn = some prompt := by
      cases created <;> exact hstarting
    unfold fenceOwnerPromptDispatch
    rw [any_isStartTurn hstarts]
    dsimp only
    rw [hqueue]
    have hcode : ((-1 : Int) == timedOut) = false := rfl
    simp only [handleProviderBackend, observeProvider, bne_self_eq_false, handleBackend,
      requestFailed, hcode, hprompt, Bool.false_eq_true, if_false, Bool.not_true, List.append_nil]

/-- Where everything is after a turn was fenced. -/
theorem fence_places {prompt : OutgoingPrompt} (hstarting : s.startingTurn = some prompt)
    (created : Option String) (error : String) {effects : List Effect}
    (hstarts : startedTurns effects ≠ []) :
    startedTurns (s.fenceOwnerPromptDispatch created error effects).2 = [] ∧
      (s.fenceOwnerPromptDispatch created error effects).1.queue = s.queue ∧
      (s.fenceOwnerPromptDispatch created error effects).1.pendingIds = s.pendingIds ∧
      (s.fenceOwnerPromptDispatch created error effects).1.startingIds = [] ∧
      (s.fenceOwnerPromptDispatch created error effects).1.blockedIds =
        if s.isRedirected prompt.id then s.blockedIds else [prompt.id] := by
  obtain ⟨t, hplaces, -, -, heq⟩ := fence_eq hstarting created error hstarts
  have hredirected : isRedirected { t with queue := [], startingTurn := none } prompt.id =
      s.isRedirected prompt.id := by simp only [isRedirected, hplaces.redirectStart]
  rw [heq]
  refine ⟨startedTurns_filter _, rfl, ?_⟩
  simp only [pendingIds, startingIds, blockedIds, syncActiveProviderContext, returnPrompt,
    hredirected]
  split
  · obtain ⟨hpending, hstart, hblocked⟩ := takeRedirectStart_others
      { t with queue := [], startingTurn := none }
    rw [hpending, hstart, hblocked]
    exact ⟨by rw [← hplaces.pendingSessionPrompt], rfl, by rw [← hplaces.replayBlockedPrompt]⟩
  · exact ⟨by rw [← hplaces.pendingSessionPrompt]; rfl, rfl, rfl⟩

theorem retains_iff {prompt : OutgoingPrompt} (hstarting : s.startingTurn = some prompt)
    (created : Option String) (error : String) {effects : List Effect}
    (hstarts : startedTurns effects ≠ []) :
    s.Retains (s.fenceOwnerPromptDispatch created error effects) ↔ s.Fenceable := by
  obtain ⟨hunsent, hqueue, hpending, hstart, hblocked⟩ :=
    fence_places hstarting created error hstarts
  have hids : s.startingIds = [prompt.id] := by simp [startingIds, hstarting]
  have hqueued : (s.fenceOwnerPromptDispatch created error effects).1.queuedIds = s.queuedIds := by
    simp only [queuedIds, hqueue]
  -- Once the prompt is in the slot, it is held there as it was held on its way.
  have hheld : (s.fenceOwnerPromptDispatch created error effects).1.blockedIds = [prompt.id] →
      (s.fenceOwnerPromptDispatch created error effects).1.held =
        s.queuedIds ++ s.pendingIds ++ s.startingIds := by
    intro hslot
    rw [held, hqueued, hpending, hstart, hslot, hids, List.append_nil]
  constructor
  · intro h
    have hslot : (s.fenceOwnerPromptDispatch created error effects).1.blockedIds =
        [prompt.id] := by
      rcases h.place prompt hstarting with ⟨hslot, -⟩ | ⟨r, -, -, hinsert⟩
      · exact hslot
      · have hlength := congrArg List.length hinsert
        rw [hqueue, List.length_insertIdx_of_le_length (redirectIndex_le r s.queue)] at hlength
        omega
    refine ⟨fun p hp hredirected => ?_, fun x hx => ?_⟩
    · obtain rfl : prompt = p := by simpa [hstarting] using hp
      rwa [hblocked, if_pos hredirected] at hslot
    · rw [← hheld hslot]
      exact h.once x hx
  · intro h
    have hslot : (s.fenceOwnerPromptDispatch created error effects).1.blockedIds =
        [prompt.id] := by
      rw [hblocked]
      split
      next hredirected => exact h.slot prompt hstarting hredirected
      · rfl
    refine ⟨hunsent, fun p hp => ?_, fun x hx => ?_⟩
    · obtain rfl : prompt = p := by simpa [hstarting] using hp
      exact .inl ⟨hslot, hqueue⟩
    · rw [hheld hslot]
      exact h.once x hx

/-- In sound places, what decides is whether the prompt on its way was redirected. -/
theorem Sound.fenceable_iff (hs : s.Sound) {prompt : OutgoingPrompt}
    (hstarting : s.startingTurn = some prompt) :
    s.Fenceable ↔ s.isRedirected prompt.id = false := by
  have hids : s.startingIds = [prompt.id] := by simp [startingIds, hstarting]
  have hpending : s.pendingIds = [] := by
    cases h : s.pendingSessionPrompt with
    | none => simp [pendingIds, h]
    | some p => simpa [hstarting] using (hs.alone (by simp [h])).1
  have hone := List.nodup_iff_count_le_one.1 hs.distinct
  constructor
  · intro h
    by_contra hredirected
    have hslot := h.slot prompt hstarting (by simpa using hredirected)
    have htwice := hone prompt.id
    rw [count_held, hids, hslot] at htwice
    simp at htwice
  · intro hredirected
    refine ⟨fun p hp h => ?_, fun x hx => ?_⟩
    · obtain rfl : prompt = p := by simpa [hstarting] using hp
      rw [hredirected] at h
      cases h
    · have hle := hone x
      rw [count_held] at hle
      have hreserved : s.reservedIds = [] := by
        cases hr : s.redirectStart with
        | none => simp [reservedIds, hr]
        | some r =>
          have hmem := hs.redirect r hr
          rw [hpending, hids, List.nil_append, List.mem_singleton] at hmem
          simp [isRedirected, hr, hmem] at hredirected
      rw [hreserved, List.append_nil, List.mem_append] at hx
      have hpos : 0 < s.queuedIds.count x + s.startingIds.count x := by
        rcases hx with hx | hx
        · have hqueued := List.count_pos_iff.2 hx
          omega
        · have hstart := List.count_pos_iff.2 hx
          omega
      rw [List.count_append, List.count_append]
      omega

end DomainState

open DomainState

/-- When the checkpoint of a turn that an event starts fails, the turn is not sent and every prompt
is retained exactly when the prompt of the turn was not redirected and no prompt was held twice. -/
theorem fence_retains_iff (s : DomainState) (provider : String) (event : BackendEvent)
    (created : Option String) (error : String)
    (hstarts : startedTurns (s.handleProviderBackend provider event).2 ≠ []) :
    (s.handleProviderBackend provider event).1.Retains
        ((s.handleProviderBackend provider event).1.fenceOwnerPromptDispatch created error
          (s.handleProviderBackend provider event).2) ↔
      (s.handleProviderBackend provider event).1.Fenceable := by
  rcases announces_handleProviderBackend s provider event with hnone | ⟨prompt, hstarting, -⟩
  · exact absurd hnone hstarts
  · exact retains_iff hstarting created error hstarts

/-- A queued prompt is redirected into a turn. -/
def redirecting : List Action :=
  [.say "first", .native (.sessionCreated "thread" ""), .native (.turnStarted "turn-1"),
    .enqueue "second" "look here" [⟨"notes", some "notes.md", none⟩],
    .steerQueued "second" "steer"]

/-- When the checkpoint of its turn fails, the redirected prompt is lost. -/
theorem redirected_prompt_lost :
    let s := native.after redirecting
    let result := s.handleProviderBackend "native" (.turnCompleted "turn-1" .interrupted)
    Reachable s ∧ startedTurns result.2 = ["second"] ∧
      (result.1.fenceOwnerPromptDispatch none "disk full" result.2).1.held = [] ∧
      ¬ result.1.Retains (result.1.fenceOwnerPromptDispatch none "disk full" result.2) := by
  refine ⟨.after native_fresh _, by decide +kernel, by decide +kernel, fun h => ?_⟩
  have honce := h.once "second" (by decide +kernel)
  revert honce
  decide +kernel

/-- A prompt is queued behind a turn. -/
def queueing : List Action :=
  [.say "first", .native (.sessionCreated "thread" ""), .native (.turnStarted "turn-1"),
    .enqueue "second" "look here" []]

theorem fence_retains_iff_queueing :
    let result := (native.after queueing).handleProviderBackend "native"
      (.turnCompleted "turn-1" .completed)
    result.1.Retains (result.1.fenceOwnerPromptDispatch none "disk full" result.2) ↔
      result.1.Fenceable :=
  fence_retains_iff (native.after queueing) "native" (.turnCompleted "turn-1" .completed) none
    "disk full" (by decide +kernel)

end Nakode.Domain
