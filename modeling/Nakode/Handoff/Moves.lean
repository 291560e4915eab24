import Nakode.Handoff.Queue

/-!
# How a package moves

While no prompt is on its way a package stays pending, and a prompt that begins takes it, or else
the one it was queued with (`idles_step`). A prompt on its way keeps its package. When its turn
starts the package is delivered; when its session or its turn cannot start the package is pending
again, or back in the queue with the prompt if this was sent ahead (`goes_step`).
-/

namespace Nakode.Handoff

namespace State

variable {s : State}

/-! ## The prompt that begins -/

/-- What a prompt was queued with; a prompt that is not queued brings nothing. -/
def Owns (s : State) (promptId : String) (own : Option HandoffPackage) : Prop :=
  (∃ queued ∈ s.queue, queued.id = promptId ∧ queued.handoff = own) ∨
    (s.isQueued promptId = false ∧ own = none)

/-- No turn of a prompt has started. -/
def Silent (notes : List Note) : Prop := ∀ note ∈ notes, ∀ promptId handoff,
  note ≠ .started promptId handoff

theorem Silent.append {notes more : List Note} (h : Silent notes) (h' : Silent more) :
    Silent (notes ++ more) := by
  intro note hnote
  rcases List.mem_append.1 hnote with hnote | hnote
  · exact h note hnote
  · exact h' note hnote

theorem silent_nil : Silent [] := fun _ hnote => absurd hnote List.not_mem_nil

theorem silent_dropped (packages : List HandoffPackage) : Silent (packages.map .dropped) := by
  intro note hnote promptId handoff heq
  obtain ⟨package, -, rfl⟩ := List.mem_map.1 hnote
  cases heq

theorem silent_switchTo (s : State) (target : String) (targetReady : Bool)
    (sourceModel : Option String) : Silent (s.switchTo target targetReady sourceModel).2 := by
  refine .append (silent_dropped _) fun note hnote promptId handoff heq => ?_
  obtain ⟨package, -, rfl⟩ := List.mem_map.1 hnote
  cases heq

theorem silent_startPromptOnSession (s : State) (prompt : OutgoingPrompt)
    (providerSessionId : String) : Silent (s.startPromptOnSession prompt providerSessionId).2 := by
  intro note hnote promptId handoff heq
  rw [List.mem_singleton.1 hnote] at heq
  cases heq

theorem silent_sendPrompt (s : State) (prompt : OutgoingPrompt) :
    Silent (s.sendPrompt prompt).2 := by
  unfold sendPrompt
  split
  · exact silent_startPromptOnSession s prompt _
  · intro note hnote promptId handoff heq
    rw [List.mem_singleton.1 hnote] at heq
    cases heq

theorem silent_dispatchPrompt (s : State) (prompt : QueuedPrompt) :
    Silent (s.dispatchPrompt prompt).2 := by
  refine .append ?_ (silent_sendPrompt _ _)
  unfold leftBehind
  split
  · exact silent_dropped _
  · exact silent_nil

theorem silent_beginPrompt (s : State) (prompt : QueuedPrompt) :
    Silent (s.beginPrompt prompt).2 := by
  unfold beginPrompt
  rcases prepareSelectedProviderTransition_cases s with
    heq | heq | ⟨target, targetReady, sourceModel, -, heq⟩
  · rw [heq]
    exact silent_nil
  · rw [heq]
    exact silent_dispatchPrompt s prompt
  · rw [heq]
    exact .append (silent_switchTo s target targetReady sourceModel) (silent_dispatchPrompt _ _)

/-- What became of the pending package when a step that began with no prompt on its way kept its
provider. -/
structure Carries (s s' : State) : Prop where
  waits : s'.unstarted = none → s'.pendingHandoff = s.pendingHandoff
  begun : ∀ prompt, s'.unstarted = some prompt → ∃ own, s.Owns prompt.id own ∧
    prompt.handoff = (s.pendingHandoff <|> own)

theorem Carries.of_same {s' : State} (hquiet : s.unstarted = none)
    (hunstarted : s'.unstarted = s.unstarted) (hpending : s'.pendingHandoff = s.pendingHandoff) :
    Carries s s' := by
  refine ⟨fun _ => hpending, fun prompt hprompt => ?_⟩
  rw [hunstarted, hquiet] at hprompt
  cases hprompt

theorem dispatchPrompt_unstarted (hquiet : s.Quiet) (prompt : QueuedPrompt) :
    (s.dispatchPrompt prompt).1.unstarted = some
      { id := prompt.id, text := prompt.text, handoff := s.pendingHandoff <|> prompt.handoff } := by
  have hbase : ({ s with pendingHandoff := none }.bindReservation prompt.id
      (s.pendingHandoff <|> prompt.handoff)).Quiet := ⟨hquiet.creating, hquiet.starting⟩
  exact (sendPrompt_sent hbase _).unstarted

theorem dispatchPrompt_provider (s : State) (prompt : QueuedPrompt) :
    (s.dispatchPrompt prompt).1.backendProvider = s.backendProvider := by
  unfold dispatchPrompt sendPrompt startPromptOnSession
  dsimp only
  split <;> rfl

/-- A prompt that could not be begun leaves what is pending. -/
theorem putBack_pending (s : State) (prompt : QueuedPrompt) :
    (s.putBack prompt).pendingHandoff = s.pendingHandoff ∧
      (s.putBack prompt).unstarted = s.unstarted ∧
      (s.putBack prompt).backendProvider = s.backendProvider := by
  unfold putBack takeRedirectStart restoreRedirectStart
  split
  · split
    · exact ⟨rfl, rfl, rfl⟩
    · split <;> exact ⟨rfl, rfl, rfl⟩
  · exact ⟨rfl, rfl, rfl⟩

/-! ## Steps while no prompt is on its way -/

/-- A step from a session in which no prompt is on its way starts no turn of a prompt, and a prompt
that begins has what was pending or else what it was queued with. -/
structure Idles (s : State) (notes : List Note) (s' : State) : Prop where
  silent : Silent notes
  carries : s'.backendProvider = s.backendProvider → Carries s s'

theorem Idles.of_same {s' : State} (hquiet : s.unstarted = none)
    (hunstarted : s'.unstarted = s.unstarted) (hpending : s'.pendingHandoff = s.pendingHandoff) :
    Idles s [] s' :=
  ⟨silent_nil, fun _ => .of_same hquiet hunstarted hpending⟩

theorem Idles.refl (hquiet : s.unstarted = none) : Idles s [] s := .of_same hquiet rfl rfl

/-- A prompt that begins out of the queue has what it was queued with. -/
theorem idles_beginPrompt {prompt : QueuedPrompt} {t : State} (h : t.Begins prompt)
    (howns : s.Owns prompt.id prompt.handoff) (hpending : t.pendingHandoff = s.pendingHandoff)
    (hprovider : t.backendProvider = s.backendProvider) :
    Idles s (t.beginPrompt prompt).2 (t.beginPrompt prompt).1 := by
  refine ⟨silent_beginPrompt t prompt, fun hkept => ?_⟩
  unfold beginPrompt at hkept ⊢
  rcases prepareSelectedProviderTransition_cases t with
    heq | heq | ⟨target, targetReady, sourceModel, hother, heq⟩
  · rw [heq]
    obtain ⟨hsame, hunstarted, -⟩ := putBack_pending t prompt
    refine ⟨fun _ => hsame.trans hpending, fun other hsome => ?_⟩
    rw [show (t.putBack prompt).unstarted = none from hunstarted.trans h.quiet.unstarted] at hsome
    cases hsome
  · rw [heq]
    have hunstarted := dispatchPrompt_unstarted h.quiet prompt
    refine ⟨fun hnone => ?_, fun other hsome => ?_⟩
    · rw [show (t.dispatchPrompt prompt).1.unstarted = none from hnone] at hunstarted
      cases hunstarted
    · obtain rfl := Option.some.inj (hunstarted.symm.trans hsome)
      exact ⟨prompt.handoff, howns, by rw [hpending]⟩
  · rw [heq] at hkept
    have hsame : target = s.backendProvider := (dispatchPrompt_provider
      (t.switchTo target targetReady sourceModel).1 prompt).symm.trans hkept
    exact absurd (hsame.trans hprovider.symm) hother

/-- The queue is drained after a step that changed neither what is pending nor the provider. -/
theorem idles_drainQueue {t : State} (h : t.Sound) (hquiet : t.unstarted = none)
    (hqueue : t.queue ⊆ s.queue) (hpending : t.pendingHandoff = s.pendingHandoff)
    (hprovider : t.backendProvider = s.backendProvider) :
    Idles s t.drainQueue.2 t.drainQueue.1 := by
  have hstays : Idles s [] t := by
    refine ⟨silent_nil, fun _ => ⟨fun _ => hpending, fun prompt hprompt => ?_⟩⟩
    rw [hquiet] at hprompt
    cases hprompt
  unfold drainQueue
  split
  · exact hstays
  · next hidle =>
    rw [Bool.or_eq_true, not_or, Bool.not_eq_true, Bool.not_eq_true] at hidle
    obtain ⟨hslots, hactive⟩ := h.quiet_of_not_isBusy hidle.2
    split
    · exact hstays
    · next prompt queue heq =>
      split
      · exact hstays
      · have hmem : prompt ∈ s.queue := hqueue (heq ▸ List.mem_cons_self)
        exact idles_beginPrompt (h.begins hslots hactive (.of_eq heq))
          (.inl ⟨prompt, hmem, rfl, rfl⟩) hpending hprovider

theorem idles_submitPrompt (h : s.Sound) (hquiet : s.unstarted = none) (promptId text : String) :
    Idles s (s.submitPrompt promptId text).2 (s.submitPrompt promptId text).1 := by
  rcases submitPrompt_cases h promptId text with heq | ⟨_, hout, -, hbegins, heq⟩
  · rw [heq]
    exact .refl hquiet
  · rw [heq]
    exact idles_beginPrompt hbegins (.inr ⟨hout, rfl⟩) rfl rfl

theorem idles_enqueuePrompt (h : s.Sound) (hquiet : s.unstarted = none) (promptId text : String) :
    Idles s (s.enqueuePrompt promptId text).2 (s.enqueuePrompt promptId text).1 := by
  unfold enqueuePrompt
  split
  · exact idles_submitPrompt h hquiet promptId text
  · split
    · exact .refl hquiet
    · split
      · exact idles_submitPrompt h hquiet promptId text
      · exact .of_same hquiet rfl rfl

theorem idles_removeQueuedPrompt (h : s.Sound) (hquiet : s.unstarted = none) (promptId : String) :
    Idles s (s.removeQueuedPrompt promptId).2 (s.removeQueuedPrompt promptId).1 := by
  unfold removeQueuedPrompt
  split
  · exact .refl hquiet
  · split
    · have hqueue := List.eraseP_sublist (p := (·.id == promptId)) (l := s.queue)
      have hdrained := idles_drainQueue (s := s) (h.dequeue hqueue) hquiet hqueue.subset rfl rfl
      exact ⟨.append (silent_dropped _) hdrained.silent, hdrained.carries⟩
    · exact .refl hquiet

theorem idles_selectModel (hquiet : s.unstarted = none) (provider modelId : String) :
    Idles s (s.selectModel provider modelId).2 (s.selectModel provider modelId).1 := by
  unfold selectModel
  dsimp only
  split
  · exact .of_same hquiet rfl rfl
  · next hother =>
    split
    · exact .refl hquiet
    · next targetReady _ =>
      split
      · exact .of_same hquiet rfl rfl
      · refine ⟨silent_switchTo s provider targetReady s.selectedModel, fun hkept => ?_⟩
        have hsame : provider = s.backendProvider := hkept
        exact absurd (beq_iff_eq.2 hsame) hother

theorem idles_beginPendingRedirect {t : State} (h : t.Sound) (hquiet : t.Quiet)
    (hactive : t.activeTurn = none) (hqueue : t.queue = s.queue)
    (hpending : t.pendingHandoff = s.pendingHandoff)
    (hprovider : t.backendProvider = s.backendProvider) (promptId : String) :
    Idles s (t.beginPendingRedirect promptId).2 (t.beginPendingRedirect promptId).1 := by
  rcases beginPendingRedirect_cases h hquiet hactive promptId with
    heq | ⟨prompt, queue, redirectStart, hperm, hbegins, heq⟩
  · rw [heq]
    refine ⟨silent_nil, fun _ => ⟨fun _ => hpending, fun prompt hprompt => ?_⟩⟩
    rw [hquiet.unstarted] at hprompt
    cases hprompt
  · rw [heq]
    have hmem : prompt ∈ s.queue := hqueue ▸ hperm.symm.subset List.mem_cons_self
    exact idles_beginPrompt hbegins (.inl ⟨prompt, hmem, rfl, rfl⟩) hpending hprovider

theorem idles_completeTurn (h : s.Sound) (hquiet : s.Quiet) (turnId : String)
    (outcome : TurnOutcome) :
    Idles s (s.completeTurn turnId outcome).2 (s.completeTurn turnId outcome).1 := by
  rcases completeTurn_cases h turnId outcome with
    ⟨-, heq⟩ | ⟨-, heq⟩ | ⟨prompt, hprompt, -⟩
  · rw [heq]
    exact .refl hquiet.unstarted
  · obtain ⟨hsound, hafter⟩ := h.finished hquiet.creating
    rw [heq]
    unfold continueAfterTurn
    split
    · split
      · exact .of_same hquiet.unstarted (hafter.unstarted.trans hquiet.unstarted.symm) rfl
      · have hcleared : { s.finished with pendingRedirect := none }.Sound :=
          ⟨hsound.nodup, hsound.creating, hsound.starting, hsound.unqueued, hsound.reserved,
            hsound.blocked, hsound.recoverable, hsound.free⟩
        exact idles_beginPendingRedirect (s := s) hcleared ⟨hafter.creating, rfl⟩ rfl rfl rfl rfl _
    · exact idles_drainQueue hsound hafter.unstarted (List.Subset.refl _) rfl rfl
  · rw [hquiet.starting] at hprompt
    cases hprompt

theorem Quiet.of_unstarted (hquiet : s.unstarted = none) : s.Quiet := by
  unfold State.unstarted at hquiet
  cases hp : s.pendingSessionPrompt with
  | some prompt => simp [hp] at hquiet
  | none => exact ⟨hp, by simpa [hp] using hquiet⟩

theorem takeRedirectStart_of_none (hredirect : s.redirectStart = none) :
    s.takeRedirectStart = s := by
  rw [takeRedirectStart, hredirect]

theorem idles_releaseUnstarted (h : s.Sound) (hquiet : s.unstarted = none) :
    Idles s [] s.releaseUnstarted := by
  have hredirect := h.redirectStart_eq_none hquiet
  unfold releaseUnstarted
  rw [hquiet]
  dsimp only
  rw [takeRedirectStart_of_none (by exact hredirect)]
  refine .of_same hquiet ?_ rfl
  rw [hquiet, unstarted]
  dsimp only
  split
  · next hsome =>
    rw [(Quiet.of_unstarted hquiet).creating] at hsome
    cases hsome
  · rfl

/-- Every step from a session in which no prompt is on its way. -/
theorem idles_step (h : s.Sound) (hquiet : s.unstarted = none) (action : Action) :
    Idles s (s.step action).2 (s.step action).1 := by
  have hslots := Quiet.of_unstarted hquiet
  have hpendingNone := hslots.creating
  have hstartingNone := hslots.starting
  cases action with
  | submit promptId text => exact idles_submitPrompt h hquiet promptId text
  | enqueue promptId text => exact idles_enqueuePrompt h hquiet promptId text
  | remove promptId => exact idles_removeQueuedPrompt h hquiet promptId
  | steerQueued promptId native =>
    show Idles s [] (s.steerQueuedPrompt promptId native)
    unfold steerQueuedPrompt
    split
    · split <;> exact .of_same hquiet rfl rfl
    · exact .refl hquiet
  | steerAccepted promptId =>
    exact ⟨silent_dropped _, fun _ => .of_same hquiet rfl rfl⟩
  | selectModel provider modelId => exact idles_selectModel hquiet provider modelId
  | drain => exact idles_drainQueue h hquiet (List.Subset.refl _) rfl rfl
  | sessionCreated providerSessionId model =>
    show Idles s (s.handleSessionCreated providerSessionId model).2
      (s.handleSessionCreated providerSessionId model).1
    unfold handleSessionCreated
    dsimp only
    split
    · exact .refl hquiet
    · rw [hpendingNone]
      exact .of_same hquiet (by rw [unstarted, unstarted, hpendingNone]) rfl
  | sessionObserved providerSessionId =>
    show Idles s [] (ite _ _ _)
    split
    · exact .of_same hquiet rfl rfl
    · exact .refl hquiet
  | turnStarted turnId =>
    show Idles s (ite _ _ _ : State × List Note).2 (ite _ _ _ : State × List Note).1
    split
    · exact .refl hquiet
    · have hnotes : s.startedNotes = [] := by
        rw [startedNotes, hstartingNone]
        split <;> rfl
      dsimp only
      rw [hnotes, observeTurnStarted]
      split
      · exact .refl hquiet
      · refine .of_same hquiet ?_ rfl
        rw [unstarted, unstarted, hstartingNone]
  | turnCompleted turnId outcome => exact idles_completeTurn h hslots turnId outcome
  | startSessionFailed code =>
    show Idles s (s.startSessionFailed code).2 (s.startSessionFailed code).1
    unfold startSessionFailed
    split
    · exact .refl hquiet
    · rw [hpendingNone]
      exact .of_same hquiet (by rw [unstarted, unstarted, hpendingNone]) rfl
  | startTurnFailed code =>
    show Idles s (s.startTurnFailed code).2 (s.startTurnFailed code).1
    unfold startTurnFailed
    split
    · exact .refl hquiet
    · rw [hstartingNone]
      exact idles_drainQueue h hquiet (List.Subset.refl _) rfl rfl
  | interruptTurnFailed => exact .of_same hquiet rfl rfl
  | reloadFailed => exact .of_same hquiet rfl rfl
  | sessionClosed providerSessionId =>
    show Idles s [] (s.handleSessionClosed providerSessionId)
    unfold handleSessionClosed
    split
    · exact .refl hquiet
    · have hsound : { s with providerSessionId := none }.Sound :=
        ⟨h.nodup, h.creating, h.starting, h.unqueued, h.reserved, h.blocked, h.recoverable, h.free⟩
      obtain ⟨hsilent, hcarries⟩ := idles_releaseUnstarted hsound hquiet
      exact ⟨hsilent, fun hkept => ⟨(hcarries hkept).waits, (hcarries hkept).begun⟩⟩
  | disconnected =>
    have hsound : { s with ready := false }.Sound :=
      ⟨h.nodup, h.creating, h.starting, h.unqueued, h.reserved, h.blocked, h.recoverable, h.free⟩
    obtain ⟨hsilent, hcarries⟩ := idles_releaseUnstarted hsound hquiet
    exact ⟨hsilent, fun hkept => ⟨(hcarries hkept).waits, (hcarries hkept).begun⟩⟩
  | primaryTransitionFailed =>
    show Idles s [] s.sessionPrimaryTransitionFailed
    unfold sessionPrimaryTransitionFailed
    rw [hstartingNone, hpendingNone]
    exact .of_same hquiet (by rw [hquiet]; rfl) rfl
  | surroundings new => exact .of_same hquiet rfl rfl

/-! ## Steps while a prompt is on its way -/

/-- A start is refused, or its session is lost. A request that timed out is not refused. -/
def FailsStart (s : State) : Action → Prop
  | .startSessionFailed code => code ≠ timedOut ∧ s.pendingSessionPrompt.isSome = true
  | .startTurnFailed code => code ≠ timedOut ∧ s.startingTurn.isSome = true
  | .turnCompleted _ outcome => outcome = .failed ∧ s.startingTurn.isSome = true
  | .sessionClosed providerSessionId => s.providerSessionId = some providerSessionId
  | .disconnected | .primaryTransitionFailed => True
  | _ => False

/-- Where the package of a prompt is that did not start: pending, or with the prompt in the queue if
it had been sent ahead. -/
structure Returned (s : State) (prompt : OutgoingPrompt) (s' : State) : Prop where
  unstarted : s'.unstarted = none
  pending : s.redirectStart = none → s'.pendingHandoff = prompt.handoff
  queued : s.redirectStart ≠ none → s'.pendingHandoff = prompt.handoff ∨
    s'.pendingHandoff = none ∧
      ∃ queued ∈ s'.queue, queued.id = prompt.id ∧ queued.handoff = prompt.handoff

theorem returned_returnPrompt (h : s.Sound) {t : State} (hcleared : Cleared s t)
    {prompt : OutgoingPrompt} (hprompt : s.unstarted = some prompt) :
    Returned s prompt (t.returnPrompt prompt) := by
  have hredirected : t.isRedirected prompt.id = s.redirectStart.isSome := by
    rw [isRedirected, hcleared.redirectStart]
    exact h.isRedirected_iff hprompt
  unfold returnPrompt
  rw [hredirected]
  cases hr : s.redirectStart with
  | none =>
    have hquiet : (t.restoreFailedPrompt prompt).Quiet := ⟨hcleared.creating, hcleared.starting⟩
    exact ⟨hquiet.unstarted, fun _ => rfl, fun hsome => absurd hr hsome⟩
  | some pending =>
    obtain ⟨queue, htake, hperm, hid, hhandoff⟩ := takeRedirectStart_eq h hcleared hprompt hr
    have hquiet : { t with redirectStart := none, queue }.Quiet :=
      ⟨hcleared.creating, hcleared.starting⟩
    show Returned s prompt t.takeRedirectStart
    rw [htake]
    refine ⟨hquiet.unstarted, fun hnone => ?_, fun _ => .inr ⟨?_, ?_⟩⟩
    · rw [hr] at hnone
      cases hnone
    · exact hcleared.pendingHandoff.trans (h.free (by rw [hprompt]; rfl))
    · exact ⟨pending.prompt, hperm.symm.subset List.mem_cons_self, hid.symm, hhandoff.symm⟩

/-- What becomes of a prompt on its way: it goes on, its turn starts with its package, or it cannot
start. -/
structure Goes (s : State) (prompt : OutgoingPrompt) (action : Action) (notes : List Note)
    (s' : State) : Prop where
  failed : s.FailsStart action → Silent notes ∧ Returned s prompt s'
  goes : ¬ s.FailsStart action → (Silent notes ∧ s'.unstarted = some prompt ∧
    s'.redirectStart = s.redirectStart) ∨
      ∃ rest, notes = .started prompt.id prompt.handoff :: rest

/-- A step that leaves the prompt on its way. -/
theorem Goes.on {prompt : OutgoingPrompt} {action : Action} {notes : List Note} {s' : State}
    (hfails : ¬ s.FailsStart action) (hsilent : Silent notes)
    (hunstarted : s'.unstarted = some prompt) (hredirect : s'.redirectStart = s.redirectStart) :
    Goes s prompt action notes s' :=
  ⟨fun h => absurd h hfails, fun _ => .inl ⟨hsilent, hunstarted, hredirect⟩⟩

theorem Goes.back {prompt : OutgoingPrompt} {action : Action} {s' : State}
    (hfails : s.FailsStart action) (hreturned : Returned s prompt s') :
    Goes s prompt action [] s' :=
  ⟨fun _ => ⟨silent_nil, hreturned⟩, fun h => absurd hfails h⟩

theorem Sound.isBusy_of_unstarted (h : s.Sound) {prompt : OutgoingPrompt}
    (hprompt : s.unstarted = some prompt) : s.isBusy = true := by
  by_contra hidle
  rw [Bool.not_eq_true] at hidle
  rw [(h.quiet_of_not_isBusy hidle).1.unstarted] at hprompt
  cases hprompt

theorem drainQueue_of_isBusy (hbusy : s.isBusy = true) : s.drainQueue = (s, []) := by
  rw [drainQueue, hbusy, Bool.or_true, if_pos rfl]

theorem submitPrompt_of_unstarted (h : s.Sound) {prompt : OutgoingPrompt}
    (hprompt : s.unstarted = some prompt) (promptId text : String) :
    s.submitPrompt promptId text = (s, []) := by
  rcases submitPrompt_cases h promptId text with heq | ⟨_, -, hquiet, -, -⟩
  · exact heq
  · rw [hquiet.unstarted] at hprompt
    cases hprompt

theorem goes_completeTurn (h : s.Sound) {prompt : OutgoingPrompt}
    (hprompt : s.unstarted = some prompt) (turnId : String) (outcome : TurnOutcome) :
    Goes s prompt (.turnCompleted turnId outcome) (s.completeTurn turnId outcome).2
      (s.completeTurn turnId outcome).1 := by
  rcases completeTurn_cases h turnId outcome with
    ⟨hstarting, heq⟩ | ⟨hquiet, -⟩ | ⟨other, hother, hnone, hcases⟩
  · rw [heq]
    refine .on ?_ silent_nil hprompt rfl
    rintro ⟨-, hsome⟩
    rw [hstarting] at hsome
    cases hsome
  · rw [hquiet.unstarted] at hprompt
    cases hprompt
  · obtain rfl : other = prompt := by simpa [unstarted, hother, hnone] using hprompt
    rcases hcases with ⟨hfailed, heq⟩ | ⟨hfailed, heq⟩
    · have hquiet : (s.finished.restoreFailedPrompt other).Quiet := ⟨hnone, rfl⟩
      rw [heq]
      exact .back ⟨hfailed, by rw [hother]; rfl⟩
        ⟨hquiet.unstarted, fun _ => rfl, fun _ => .inl rfl⟩
    · rw [heq]
      exact ⟨fun hfails => absurd hfails.1 hfailed, fun _ => .inr ⟨_, rfl⟩⟩

theorem goes_step (h : s.Sound) {prompt : OutgoingPrompt} (hprompt : s.unstarted = some prompt)
    {action : Action} (horderly : s.Orderly action) :
    Goes s prompt action (s.step action).2 (s.step action).1 := by
  have hbusy := h.isBusy_of_unstarted hprompt
  cases action with
  | submit promptId text =>
    show Goes s prompt _ (s.submitPrompt promptId text).2 (s.submitPrompt promptId text).1
    rw [submitPrompt_of_unstarted h hprompt]
    exact .on id silent_nil hprompt rfl
  | enqueue promptId text =>
    show Goes s prompt _ (s.enqueuePrompt promptId text).2 (s.enqueuePrompt promptId text).1
    unfold enqueuePrompt
    rw [submitPrompt_of_unstarted h hprompt]
    split
    · exact .on id silent_nil hprompt rfl
    · split
      · exact .on id silent_nil hprompt rfl
      · split <;> exact .on id silent_nil hprompt rfl
  | remove promptId =>
    show Goes s prompt _ (s.removeQueuedPrompt promptId).2 (s.removeQueuedPrompt promptId).1
    unfold removeQueuedPrompt
    split
    · exact .on id silent_nil hprompt rfl
    · split
      · rw [drainQueue_of_isBusy (by exact hbusy)]
        exact .on id (.append (silent_dropped _) silent_nil) hprompt rfl
      · exact .on id silent_nil hprompt rfl
  | steerQueued promptId native =>
    show Goes s prompt _ [] (s.steerQueuedPrompt promptId native)
    unfold steerQueuedPrompt
    split
    · split <;> exact .on id silent_nil hprompt rfl
    · exact .on id silent_nil hprompt rfl
  | steerAccepted promptId => exact .on id (silent_dropped _) hprompt rfl
  | selectModel provider modelId =>
    show Goes s prompt _ (s.selectModel provider modelId).2 (s.selectModel provider modelId).1
    unfold selectModel
    dsimp only
    rw [hbusy]
    split
    · exact .on id silent_nil hprompt rfl
    · split
      · exact .on id silent_nil hprompt rfl
      · exact .on id silent_nil hprompt rfl
  | drain =>
    show Goes s prompt _ s.drainQueue.2 s.drainQueue.1
    rw [drainQueue_of_isBusy hbusy]
    exact .on id silent_nil hprompt rfl
  | sessionCreated providerSessionId model =>
    show Goes s prompt _ (s.handleSessionCreated providerSessionId model).2
      (s.handleSessionCreated providerSessionId model).1
    unfold handleSessionCreated
    dsimp only
    split
    · exact .on id silent_nil hprompt rfl
    · cases hp : s.pendingSessionPrompt with
      | none =>
        refine .on id silent_nil ?_ rfl
        rw [← hprompt, unstarted, unstarted, hp]
      | some other =>
        obtain rfl : other = prompt := by simpa [unstarted, hp] using hprompt
        exact .on id (silent_startPromptOnSession _ _ _) rfl rfl
  | sessionObserved providerSessionId =>
    show Goes s prompt _ [] (ite _ _ _)
    split <;> exact .on id silent_nil hprompt rfl
  | turnStarted turnId =>
    show Goes s prompt _ (ite _ _ _ : State × List Note).2 (ite _ _ _ : State × List Note).1
    split
    · exact .on id silent_nil hprompt rfl
    · have hstarting : s.startingTurn = some prompt := by
        rw [← hprompt, unstarted, show s.pendingSessionPrompt = none from horderly]
        rfl
      refine ⟨fun hfails => hfails.elim, fun _ => .inr ⟨[], ?_⟩⟩
      rw [startedNotes, h.starting (by rw [hstarting]; rfl), hstarting]
      rfl
  | turnCompleted turnId outcome => exact goes_completeTurn h hprompt turnId outcome
  | startSessionFailed code =>
    show Goes s prompt _ (s.startSessionFailed code).2 (s.startSessionFailed code).1
    unfold startSessionFailed
    split
    · next htimed => exact .on (fun hfails => hfails.1 (beq_iff_eq.1 htimed)) silent_nil hprompt rfl
    · next hcode =>
      cases hp : s.pendingSessionPrompt with
      | none =>
        refine .on (fun hfails => ?_) silent_nil ?_ rfl
        · have := hfails.2
          rw [hp] at this
          cases this
        · rw [← hprompt, unstarted, unstarted, hp]
      | some other =>
        obtain rfl : other = prompt := by simpa [unstarted, hp] using hprompt
        have hcleared : Cleared s
            { s with creatingSession := false, pendingSessionPrompt := none } :=
          ⟨rfl, h.starting_eq_none hp, rfl, rfl, rfl, rfl, rfl⟩
        exact .back ⟨fun heq => hcode (beq_iff_eq.2 heq), by rw [hp]; rfl⟩
          (returned_returnPrompt h hcleared hprompt)
  | startTurnFailed code =>
    show Goes s prompt _ (s.startTurnFailed code).2 (s.startTurnFailed code).1
    unfold startTurnFailed
    split
    · next htimed => exact .on (fun hfails => hfails.1 (beq_iff_eq.1 htimed)) silent_nil hprompt rfl
    · next hcode =>
      cases hp : s.startingTurn with
      | none =>
        dsimp only
        rw [drainQueue_of_isBusy hbusy]
        refine .on (fun hfails => ?_) silent_nil hprompt rfl
        have := hfails.2
        rw [hp] at this
        cases this
      | some other =>
        have hnone := h.pendingSessionPrompt_eq_none hp
        obtain rfl : other = prompt := by simpa [unstarted, hp, hnone] using hprompt
        have hcleared : Cleared s { s with startingTurn := none } :=
          ⟨hnone, rfl, rfl, rfl, rfl, rfl, rfl⟩
        exact .back ⟨fun heq => hcode (beq_iff_eq.2 heq), by rw [hp]; rfl⟩
          (returned_returnPrompt h hcleared hprompt)
  | interruptTurnFailed => exact .on id silent_nil hprompt rfl
  | reloadFailed => exact .on id silent_nil hprompt rfl
  | sessionClosed providerSessionId =>
    show Goes s prompt _ [] (s.handleSessionClosed providerSessionId)
    unfold handleSessionClosed
    split
    · next hother =>
      refine .on (fun hfails => ?_) silent_nil hprompt rfl
      rw [show s.providerSessionId = some providerSessionId from hfails] at hother
      exact absurd hother (by simp)
    · next hsame =>
      have hsound : { s with providerSessionId := none }.Sound :=
        ⟨h.nodup, h.creating, h.starting, h.unqueued, h.reserved, h.blocked, h.recoverable, h.free⟩
      obtain ⟨t, hcleared, heq⟩ := releaseUnstarted_eq hsound
      rw [heq, show ({ s with providerSessionId := none } : State).unstarted = some prompt
        from hprompt]
      have hreturned := returned_returnPrompt hsound hcleared hprompt
      have hclosed : s.providerSessionId = some providerSessionId := by simpa using hsame
      exact .back hclosed ⟨hreturned.unstarted, hreturned.pending, hreturned.queued⟩
  | disconnected =>
    show Goes s prompt _ [] { s with ready := false }.releaseUnstarted
    have hsound : { s with ready := false }.Sound :=
      ⟨h.nodup, h.creating, h.starting, h.unqueued, h.reserved, h.blocked, h.recoverable, h.free⟩
    obtain ⟨t, hcleared, heq⟩ := releaseUnstarted_eq hsound
    rw [heq, show ({ s with ready := false } : State).unstarted = some prompt from hprompt]
    have hreturned := returned_returnPrompt hsound hcleared hprompt
    exact .back trivial ⟨hreturned.unstarted, hreturned.pending, hreturned.queued⟩
  | primaryTransitionFailed =>
    obtain ⟨t, hcleared, heq⟩ := sessionPrimaryTransitionFailed_eq h
    have hquiet : (t.restoreFailedPrompt prompt).Quiet := ⟨hcleared.creating, hcleared.starting⟩
    show Goes s prompt _ [] s.sessionPrimaryTransitionFailed
    rw [heq, hprompt]
    exact .back trivial ⟨hquiet.unstarted, fun _ => rfl, fun hsome => absurd horderly hsome⟩
  | surroundings new => exact .on id silent_nil hprompt rfl

end State

end Nakode.Handoff
