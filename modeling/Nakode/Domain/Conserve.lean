import Nakode.Domain.Held

/-!
# No prompt is lost or doubled

Along a run every prompt that was accepted once is in one place: it is held in one of the places of
the engine, or it was begun, taken as guidance or removed. The conditions on a step (`Orderly`) are
those under which nothing is written over a prompt that is still held.
-/

namespace Nakode.Domain.DomainState

open Transition

variable {s s' : DomainState}

theorem SamePlaces.trans {s'' : DomainState} (h : SamePlaces s s') (h' : SamePlaces s' s'') :
    SamePlaces s s'' :=
  ⟨h'.queuedIds.trans h.queuedIds, h'.pendingSessionPrompt.trans h.pendingSessionPrompt,
    h'.startingTurn.trans h.startingTurn, h'.replayBlockedPrompt.trans h.replayBlockedPrompt,
    h'.recoverablePrompt.trans h.recoverablePrompt, h'.redirectStart.trans h.redirectStart,
    h'.creatingSession.trans h.creatingSession, h'.activeTurn.trans h.activeTurn⟩

/-! ## Giving prompts back -/

/-- A prompt that has left its place and is not redirected leaves no reservation behind. -/
theorem Poised.redirectStart_eq_none {promptId : String} (h : s.Poised promptId)
    (hredirected : s.isRedirected promptId = false) : s.redirectStart = none := by
  cases hr : s.redirectStart with
  | none => rfl
  | some r => simp [isRedirected, hr, h.redirect r hr] at hredirected

theorem Poised.sound {promptId : String} (h : s.Poised promptId)
    (hredirect : s.redirectStart = none) : s.Sound where
  creating := by simp [h.pending]
  alone := by simp [h.pending]
  unstarted := by simp [h.starting]
  distinct := (List.nodup_cons.1 h.distinct).2
  redirect := by simp [hredirect]
  recoverable := h.recoverable

/-- A prompt that was refused returns to the queue, or takes the free slot of a retry. -/
theorem returnPrompt_sound {prompt : OutgoingPrompt} (h : s.Poised prompt.id)
    (hfree : s.isRedirected prompt.id = false → s.replayBlockedPrompt = none) :
    (s.returnPrompt prompt).Sound ∧
      ∀ x, (s.returnPrompt prompt).held.count x = s.held.count x + [prompt.id].count x := by
  unfold returnPrompt
  cases hredirected : s.isRedirected prompt.id with
  | true =>
    have hput : s.takeRedirectStart =
        s.putBack (submitted prompt.id prompt.text prompt.attachments none) := by
      simp [putBack, submitted, hredirected]
    rw [if_pos rfl, hput]
    exact putBack_sound h
  | false =>
    have hredirect := h.redirectStart_eq_none hredirected
    rw [if_neg Bool.false_ne_true]
    exact restoreFailedPrompt_sound (h.sound hredirect) (List.nodup_cons.1 h.distinct).1
      (hfree hredirected)

/-- The slot of a retry is free for a prompt that would go there. -/
def SlotFree (s : DomainState) (prompt : Option OutgoingPrompt) : Prop :=
  ∀ p ∈ prompt, s.isRedirected p.id = false → s.replayBlockedPrompt = none

/-- Losing the session gives back the prompt that was on its way. -/
theorem releaseUnstarted_sound (hs : s.Sound) (hfree : s.SlotFree s.unstartedPrompt) :
    s.releaseUnstarted.Sound ∧ ∀ x, s.releaseUnstarted.held.count x = s.held.count x := by
  obtain ⟨cleared, hcleared⟩ : ∃ c : DomainState, c = { s with
      pendingSessionPrompt := none
      startingTurn := if s.pendingSessionPrompt.isSome then s.startingTurn else none
      activeTurn := none
      contextCompaction := none
      creatingSession := false
      pendingSteer := none
      pendingRedirect := none } := ⟨_, rfl⟩
  have hstarting : cleared.startingTurn = none := by
    cases hpending : s.pendingSessionPrompt with
    | none => simp [hcleared, hpending]
    | some p => simp [hcleared, (hs.alone (by simp [hpending])).1]
  have hids : ∀ x, s.held.count x = cleared.held.count x +
      (s.unstartedPrompt.map OutgoingPrompt.id).toList.count x := by
    intro x
    cases hpending : s.pendingSessionPrompt with
    | none =>
      simp [count_held, hcleared, queuedIds, pendingIds, startingIds, blockedIds, unstartedPrompt,
        hpending]
      omega
    | some p =>
      simp [count_held, hcleared, queuedIds, pendingIds, startingIds, blockedIds, unstartedPrompt,
        hpending, (hs.alone (by simp [hpending])).1]
      omega
  have hredirect : ∀ r, s.redirectStart = some r →
      r.prompt.id ∈ (s.unstartedPrompt.map OutgoingPrompt.id).toList := by
    intro r hr
    have hmem := hs.redirect r hr
    cases hpending : s.pendingSessionPrompt with
    | none => simpa [pendingIds, startingIds, unstartedPrompt, hpending] using hmem
    | some p =>
      simpa [pendingIds, startingIds, unstartedPrompt, hpending,
        (hs.alone (by simp [hpending])).1] using hmem
  unfold releaseUnstarted
  dsimp only
  rw [← hcleared]
  cases hunstarted : s.unstartedPrompt with
  | none =>
    have hnone : s.redirectStart = none := by
      cases hr : s.redirectStart with
      | none => rfl
      | some r => simpa [hunstarted] using hredirect r hr
    have htake : cleared.takeRedirectStart = cleared := by
      simp [takeRedirectStart, hcleared, hnone]
    have hcount : ∀ x, cleared.held.count x = s.held.count x := by
      intro x
      simp [hids x, hunstarted]
    dsimp only
    rw [htake]
    refine ⟨⟨?_, ?_, ?_, ?_, ?_, ?_⟩, hcount⟩
    · simp [hcleared]
    · simp [hcleared]
    · simp [hstarting]
    · exact nodup_of_count_le hs.distinct fun x => Nat.le_of_eq (hcount x)
    · simp [hcleared, hnone]
    · rw [hcleared]; exact hs.recoverable
  | some prompt =>
    have hpoised : cleared.Poised prompt.id := by
      refine ⟨by rw [hcleared], hstarting, by rw [hcleared], ?_, fun r hr => ?_, ?_⟩
      · refine nodup_of_count_le hs.distinct fun x => ?_
        rw [hids x, hunstarted, count_cons_eq]
        exact Nat.le_refl _
      · have hmem := hredirect r (by simpa [hcleared] using hr)
        simpa [hunstarted] using hmem
      · rw [hcleared]; exact hs.recoverable
    have hredirected : s.isRedirected prompt.id = cleared.isRedirected prompt.id := by
      rw [hcleared]; rfl
    have hslot : cleared.isRedirected prompt.id = false → cleared.replayBlockedPrompt = none := by
      intro h
      have hblocked := hfree prompt (by simp [hunstarted]) (hredirected.trans h)
      rw [hcleared]; exact hblocked
    obtain ⟨hsound, hcount⟩ := returnPrompt_sound hpoised hslot
    have hreturn : (if s.isRedirected prompt.id = true then cleared.takeRedirectStart
        else cleared.takeRedirectStart.restoreFailedPrompt prompt) =
          cleared.returnPrompt prompt := by
      unfold returnPrompt
      rw [hredirected]
      split
      · rfl
      next h =>
        have hnone := hpoised.redirectStart_eq_none (by simpa using h)
        simp [takeRedirectStart, hnone]
    dsimp only
    rw [hreturn]
    refine ⟨hsound, fun x => ?_⟩
    rw [hcount, hids, hunstarted]
    rfl

/-! ## Failed requests -/

/-- A failed request finds the slot of a retry free for the prompt it gives back, and a failed reload
finds no prompt that waits for its session. -/
def OrderlyRequest (s : DomainState) (operation : BackendOperation) (code : Int) : Prop :=
  match operation with
  | .reload => s.pendingSessionPrompt = none
  | .startSession => code ≠ timedOut → s.SlotFree s.pendingSessionPrompt
  | .startTurn => code ≠ timedOut → s.SlotFree s.startingTurn
  | _ => True

theorem requestFailed_sound (hs : s.Sound) {operation : BackendOperation} {code : Int}
    (horderly : OrderlyRequest s operation code) (message : String) :
    (s.requestFailed operation code message).1.Sound ∧
      ∀ x, (s.requestFailed operation code message).1.held.count x = s.held.count x := by
  have hsame : ∀ {s' : DomainState}, SamePlaces s s' →
      s'.Sound ∧ ∀ x, s'.held.count x = s.held.count x :=
    fun h => ⟨h.sound hs, fun x => by rw [h.held]⟩
  unfold requestFailed
  cases operation <;> dsimp only
  case reload =>
    have hpending : s.pendingSessionPrompt = none := horderly
    refine ⟨⟨?_, hs.alone, hs.unstarted, hs.distinct, hs.redirect, hs.recoverable⟩, fun _ => rfl⟩
    simp [hpending]
  case startSession =>
    split
    · exact ⟨hs, fun _ => rfl⟩
    next htimedOut =>
    have hfree := horderly (by simpa using htimedOut)
    split
    next hpending =>
      refine ⟨⟨?_, ?_, hs.unstarted, ?_, ?_, hs.recoverable⟩, fun x => ?_⟩
      · simp
      · simp
      · simpa [held, queuedIds, pendingIds, startingIds, blockedIds, hpending] using hs.distinct
      · simpa [pendingIds, startingIds, hpending] using hs.redirect
      · simp [count_held, queuedIds, pendingIds, startingIds, blockedIds, hpending]
    next prompt hpending =>
      obtain ⟨hstarting, hactive⟩ := hs.alone (by simp [hpending])
      have hcount : ∀ x, s.held.count x =
          { s with creatingSession := false, pendingSessionPrompt := none }.held.count x +
            [prompt.id].count x := by
        intro x
        simp [count_held, queuedIds, pendingIds, startingIds, blockedIds, hpending]
        omega
      have hpoised : { s with creatingSession := false, pendingSessionPrompt := none }.Poised
          prompt.id := by
        refine ⟨rfl, hstarting, hactive, nodup_of_count_le hs.distinct fun x => ?_, fun r hr => ?_,
          hs.recoverable⟩
        · exact Nat.le_of_eq (by rw [hcount, count_cons_eq])
        · simpa [pendingIds, startingIds, hpending, hstarting] using hs.redirect r hr
      obtain ⟨hsound, hreturned⟩ := returnPrompt_sound hpoised
        (hfree prompt (by simp [hpending]))
      exact ⟨hsound, fun x => by rw [hreturned, hcount]⟩
  case startTurn =>
    split
    · exact ⟨hs, fun _ => rfl⟩
    next htimedOut =>
    have hfree := horderly (by simpa using htimedOut)
    split
    next prompt hstarting =>
      have hactive := hs.unstarted (by simp [hstarting])
      have hpending : s.pendingSessionPrompt = none := by
        cases h : s.pendingSessionPrompt with
        | none => rfl
        | some p => simpa [hstarting] using (hs.alone (by simp [h])).1
      have hcount : ∀ x, s.held.count x =
          { s with startingTurn := none }.held.count x + [prompt.id].count x := by
        intro x
        simp [count_held, queuedIds, pendingIds, startingIds, blockedIds, hstarting]
        omega
      have hpoised : { s with startingTurn := none }.Poised prompt.id := by
        refine ⟨hpending, rfl, hactive, nodup_of_count_le hs.distinct fun x => ?_, fun r hr => ?_,
          hs.recoverable⟩
        · exact Nat.le_of_eq (by rw [hcount, count_cons_eq])
        · simpa [pendingIds, startingIds, hpending, hstarting] using hs.redirect r hr
      obtain ⟨hsound, hreturned⟩ := returnPrompt_sound hpoised
        (hfree prompt (by simp [hstarting]))
      exact ⟨hsound, fun x => by rw [hreturned, hcount]⟩
    · exact drain_sound hs
  case interruptTurn =>
    exact hsame ⟨rfl, rfl, rfl, rfl, rfl, rfl, rfl, by simp⟩
  all_goals exact hsame (by constructor <;> rfl)

/-! ## Resuming a session -/

/-- While the pending prompts of a resumed session are replayed, none is refused when another one
waits for a retry already. -/
def Replayable : List PersistedOwnerPrompt → DomainState → Prop
  | [], _ => True
  | pending :: rest, s =>
    let prompt := replayPrompt pending
    match s.replayPendingPromptWithIdAndSource prompt.id prompt.text prompt.attachments
        prompt.sourceTransport with
    | (.ok _, s) => Replayable rest s
    | (.error _, s) =>
      s.replayBlockedPrompt = none ∧ Replayable rest { s with replayBlockedPrompt := some prompt }

/-- Each prompt that is replayed is held afterwards. -/
theorem replayPending_sound (rows : List PersistedOwnerPrompt) (hs : s.Sound)
    (hdistinct : (rows.map (·.promptId) ++ s.held).Nodup) (hreplayable : Replayable rows s) :
    (replayPending rows s).2.1.Sound ∧ ∀ x,
      (replayPending rows s).2.1.held.count x =
        s.held.count x + (rows.map (·.promptId)).count x := by
  induction rows generalizing s with
  | nil => exact ⟨hs, fun _ => rfl⟩
  | cons pending rest ih =>
    rw [List.map_cons, List.cons_append] at hdistinct
    obtain ⟨hnew, hrest⟩ := List.nodup_cons.1 hdistinct
    have hheld : pending.promptId ∉ s.held := fun h => hnew (List.mem_append_right _ h)
    have hnext : ∀ {s' : DomainState},
        (∀ x, s'.held.count x = s.held.count x + [pending.promptId].count x) →
        (rest.map (·.promptId) ++ s'.held).Nodup := by
      intro s' hcount
      refine nodup_of_count_le hdistinct fun x => ?_
      refine Nat.le_of_eq ?_
      rw [count_cons_eq, List.count_append, List.count_append, hcount, Nat.add_assoc]
    have hgather : ∀ {s' s'' : DomainState},
        (∀ x, s'.held.count x = s.held.count x + [pending.promptId].count x) →
        (∀ x, s''.held.count x = s'.held.count x + (rest.map (·.promptId)).count x) →
        ∀ x, s''.held.count x =
          s.held.count x + (pending.promptId :: rest.map (·.promptId)).count x := by
      intro s' s'' hcount hmore x
      rw [hmore, hcount, Nat.add_assoc, Nat.add_comm ([pending.promptId].count x), ← count_cons_eq]
    have hbrings := submit_sound hs pending.promptId pending.rawText [] pending.sourceTransport false
      fun _ => hheld
    rw [List.map_cons, replayPending]
    rw [Replayable] at hreplayable
    simp only [replayPrompt, replayPendingPromptWithIdAndSource] at hreplayable ⊢
    generalize s.submitPromptWithIdentityPolicy pending.promptId pending.rawText []
      pending.sourceTransport false = outcome at hbrings hreplayable
    cases hbrings with
    | refused e =>
      obtain ⟨hblocked, hreplayable⟩ := hreplayable
      have hcount : ∀ x, { s with replayBlockedPrompt := some (replayPrompt pending) }.held.count x =
          s.held.count x + [pending.promptId].count x := by
        intro x
        simp [count_held, queuedIds, pendingIds, startingIds, blockedIds, hblocked, replayPrompt]
      have hsound : Sound { s with replayBlockedPrompt := some (replayPrompt pending) } := by
        refine ⟨hs.creating, hs.alone, hs.unstarted,
          nodup_of_count_cons (List.nodup_cons.2 ⟨hheld, hs.distinct⟩) hcount, hs.redirect,
          fun r hr => ?_⟩
        obtain ⟨b, hb, -⟩ := hs.recoverable r hr
        rw [hblocked] at hb
        cases hb
      obtain ⟨hsound, hmore⟩ := ih hsound (hnext hcount) hreplayable
      exact ⟨hsound, hgather hcount hmore⟩
    | settled hknown => cases hknown.1
    | retried _ hids =>
      exact absurd (by simp [held, hids]) hheld
    | taken hsound _ _ _ hcount =>
      obtain ⟨hsound, hmore⟩ := ih hsound (hnext hcount) hreplayable
      exact ⟨hsound, hgather hcount hmore⟩

/-- A resumed session holds what it held and what it replays. -/
theorem resumed_sound (hs : s.Sound) {providerSessionId : String} (model : String)
    (history : List UserRow)
    (hdistinct : ((s.replayed providerSessionId).map (·.promptId) ++ s.held).Nodup)
    (hreplayable : ∀ record, s.resumingSession = some record → Replayable
      (s.replayed providerSessionId) (s.resumedState record providerSessionId model history)) :
    (s.handleSessionResumed providerSessionId model history).1.Sound ∧ ∀ x,
      (s.handleSessionResumed providerSessionId model history).1.held.count x =
        s.held.count x + ((s.replayed providerSessionId).map (·.promptId)).count x := by
  cases hresuming : s.resumingSession with
  | none =>
    have hreplayed : s.replayed providerSessionId = [] := by simp [replayed, hresuming]
    simp only [handleSessionResumed, hresuming, hreplayed]
    exact ⟨hs, fun _ => rfl⟩
  | some record =>
    by_cases hempty : providerSessionId.isEmpty = true
    · have hreplayed : s.replayed providerSessionId = [] := by simp [replayed, hresuming, hempty]
      have hsame : SamePlaces s { s with resumingSession := none } := by constructor <;> rfl
      simp only [handleSessionResumed, hresuming, hreplayed, hempty, if_true]
      exact ⟨hsame.sound hs, fun x => by rw [hsame.held]; rfl⟩
    · have hreplayed : s.replayed providerSessionId =
          record.ownerPrompts.filter (·.dispatchPending) := by simp [replayed, hresuming, hempty]
      have hsame : SamePlaces s (s.resumedState record providerSessionId model history) := by
        constructor <;> rfl
      obtain ⟨hreplayedSound, hreplayedCount⟩ := replayPending_sound _ (hsame.sound hs)
        (hsame.held ▸ hdistinct) (hreplayable record hresuming)
      have hrows : (s.resumedState record providerSessionId model history).ownerPrompts.filter
          (·.dispatchPending) = s.replayed providerSessionId := hreplayed.symm
      simp only [handleSessionResumed, hresuming, hempty, Bool.false_eq_true, if_false, hrows]
      generalize replayPending (s.replayed providerSessionId)
        (s.resumedState record providerSessionId model history) = result at *
      obtain ⟨failed, t, effects⟩ := result
      have hdefer : SamePlaces t { t with deferResumeQueue := false } := by constructor <;> rfl
      have hcontinue : (t.continueAfterReplay failed).1.Sound ∧
          ∀ x, (t.continueAfterReplay failed).1.held.count x = t.held.count x := by
        unfold continueAfterReplay
        split
        · exact ⟨hdefer.sound hreplayedSound, fun _ => rfl⟩
        · exact drain_sound (hdefer.sound hreplayedSound)
      refine ⟨hcontinue.1, fun x => ?_⟩
      rw [hcontinue.2, hreplayedCount, hsame.held]

/-! ## Events -/

/-- An event writes over no prompt that is held: a prompt that is given back finds the slot of a
retry free, no turn starts while a prompt waits for its session, and a resumed session replays
prompts that are not held. -/
def OrderlyEvent (s : DomainState) : BackendEvent → Prop
  | .turnStarted turnId => turnId.isEmpty = false → s.pendingSessionPrompt = none
  | .turnCompleted _ outcome => (s.failedBeforeStart outcome).isSome → s.replayBlockedPrompt = none
  | .requestFailed operation code _ => s.OrderlyRequest operation code
  | .sessionClosed providerSessionId =>
    s.providerSessionId = some providerSessionId → s.SlotFree s.unstartedPrompt
  | .disconnected _ => s.SlotFree s.unstartedPrompt
  | .sessionResumed providerSessionId model history =>
    ((s.replayed providerSessionId).map (·.promptId) ++ s.held).Nodup ∧
      ∀ record, s.resumingSession = some record → Replayable (s.replayed providerSessionId)
        (s.resumedState record providerSessionId model history)
  | _ => True

/-- The held prompts before and after a step differ by what the step brings in and takes out. -/
def Balanced (s : DomainState) (action : Action) (s' : DomainState) : Prop :=
  ∀ x, s'.held.count x + (s.begins action).count x + (s.steers action).count x +
    (s.removes action).count x = s.held.count x + (s.accepts action).count x

theorem handleBackend_sound (hs : s.Sound) {provider : String} (hhears : s.hears provider = true)
    {event : BackendEvent} (horderly : s.OrderlyEvent event) :
    (s.handleBackend event).1.Sound ∧
      s.Balanced (.backend provider event) (s.handleBackend event).1 := by
  have hsame : ∀ {s' : DomainState}, SamePlaces s s' →
      s'.Sound ∧ ∀ x, s'.held.count x = s.held.count x :=
    fun h => ⟨h.sound hs, fun x => by rw [h.held]⟩
  cases event <;> simp only [handleBackend, Balanced, begins, steers, removes, accepts, hhears,
    Bool.true_and, if_true, List.count_nil, Nat.add_zero]
  case ready => exact hsame (by constructor <;> rfl)
  case sessionCreated => exact created_sound hs _ _
  case sessionResumed =>
    obtain ⟨hdistinct, hreplayable⟩ := horderly
    exact resumed_sound hs _ _ hdistinct hreplayable
  case sessionObserved => unfold observeSession; split <;> exact hsame (by constructor <;> rfl)
  case turnStarted turnId =>
    unfold handleTurnStarted
    cases hempty : turnId.isEmpty with
    | true => exact ⟨hs, fun _ => rfl⟩
    | false =>
      cases hactive : s.activeTurn with
      | some active =>
        have hobserve : s.observeTurnStarted turnId = s := by simp [observeTurnStarted, hactive]
        simp only [hobserve]
        exact ⟨hs, fun _ => rfl⟩
      | none =>
        obtain ⟨hsound, -, hcount⟩ := observeTurnStarted_sound hs hactive (horderly hempty) turnId
        exact ⟨hsound, hcount⟩
  case turnCompleted turnId outcome =>
    have hcleared : SamePlaces s { s with externalToolCalls := [] } := by constructor <;> rfl
    exact completeTurn_sound (hcleared.sound hs) horderly turnId
  case itemStarted => unfold observeItem; split <;> exact hsame (by constructor <;> rfl)
  case itemCompleted => unfold observeItem; split <;> exact hsame (by constructor <;> rfl)
  case itemDelta => unfold observeItem; split <;> exact hsame (by constructor <;> rfl)
  case turnProgress => unfold handleTurnProgress; split <;> exact hsame (by constructor <;> rfl)
  case steerAccepted turnId =>
    have haccepted := steerAccepted_sound hs turnId
    split
    next heq => rw [heq] at haccepted; exact haccepted
    next heq => rw [heq] at haccepted; exact haccepted
  case modelRerouted =>
    unfold handleModelRerouted
    split
    next hactive => split <;> exact hsame ⟨rfl, rfl, rfl, rfl, rfl, rfl, rfl, by simp [hactive]⟩
    · exact hsame (.refl s)
  case contextCompactionStarted =>
    unfold contextCompactionStarted
    dsimp only
    split <;> exact hsame (by constructor <;> rfl)
  case contextCompactionCompleted =>
    unfold contextCompactionEnded; split <;> exact hsame (by constructor <;> rfl)
  case contextCompactionFailed =>
    unfold contextCompactionEnded; split <;> exact hsame (by constructor <;> rfl)
  case requestFailed => exact requestFailed_sound hs horderly _
  case sessionClosed providerSessionId =>
    unfold handleSessionClosed
    split
    · exact hsame (.refl s)
    next hclosed =>
      have hcleared : SamePlaces s
          { s with questions := [], approvals := [], providerSessionId := none } := by
        constructor <;> rfl
      obtain ⟨hsound, hcount⟩ := releaseUnstarted_sound (hcleared.sound hs)
        (horderly (by simpa using hclosed))
      have hsync := SamePlaces.of_switches (switches_syncActiveProviderContext
        (releaseUnstarted { s with questions := [], approvals := [], providerSessionId := none }))
      exact ⟨hsync.sound hsound, fun x => by rw [hsync.held, hcount, hcleared.held]⟩
  case disconnected reason =>
    have hcleared : SamePlaces s { s with
        questions := [], externalToolCalls := [], connection := .disconnected reason,
        runningSubagents := [] } := by constructor <;> rfl
    obtain ⟨hsound, hcount⟩ := releaseUnstarted_sound (hcleared.sound hs) horderly
    exact ⟨hsound, fun x => by rw [handleDisconnected, hcount, hcleared.held]⟩
  case approvalRequested => exact hsame (by constructor <;> rfl)
  case approvalResolved => exact hsame (by constructor <;> rfl)
  case questionRequested => exact hsame (by constructor <;> rfl)
  case externalToolRequested => exact hsame (by constructor <;> rfl)
  all_goals exact ⟨hs, fun _ => trivial⟩

/-! ### The slot of a retry -/

theorem replayBlockedPrompt_takeRedirectStart (s : DomainState) :
    s.takeRedirectStart.replayBlockedPrompt = s.replayBlockedPrompt := by
  unfold takeRedirectStart restoreRedirectStart
  split
  · rfl
  · split <;> rfl

theorem replayBlockedPrompt_returnPrompt {prompt : OutgoingPrompt} {b : QueuedPrompt}
    (hblocked : s.replayBlockedPrompt = some b) (hfree : s.SlotFree (some prompt)) :
    (s.returnPrompt prompt).replayBlockedPrompt = some b := by
  unfold returnPrompt
  cases hredirected : s.isRedirected prompt.id with
  | true => rw [if_pos rfl, replayBlockedPrompt_takeRedirectStart, hblocked]
  | false =>
    have hnone := hfree prompt rfl hredirected
    rw [hblocked] at hnone
    cases hnone

theorem replayBlockedPrompt_releaseUnstarted {b : QueuedPrompt}
    (hblocked : s.replayBlockedPrompt = some b) (hfree : s.SlotFree s.unstartedPrompt) :
    s.releaseUnstarted.replayBlockedPrompt = some b := by
  unfold releaseUnstarted
  dsimp only
  split
  · rw [replayBlockedPrompt_takeRedirectStart, hblocked]
  next prompt hunstarted =>
    cases hredirected : s.isRedirected prompt.id with
    | true => rw [if_pos rfl, replayBlockedPrompt_takeRedirectStart, hblocked]
    | false =>
      have hnone := hfree prompt (by simp [hunstarted]) hredirected
      rw [hblocked] at hnone
      cases hnone

theorem replayBlockedPrompt_continueAfterTurn (s : DomainState) :
    s.continueAfterTurn.1.replayBlockedPrompt = s.replayBlockedPrompt := by
  unfold continueAfterTurn beginPendingRedirect
  split
  · split
    · rfl
    · exact replayBlockedPrompt_beginPrompt _ _
  · exact replayBlockedPrompt_drainQueue s

theorem replayBlockedPrompt_observeTurnStarted (s : DomainState) (turnId : String) :
    (s.observeTurnStarted turnId).replayBlockedPrompt = s.replayBlockedPrompt := by
  unfold observeTurnStarted
  split <;> rfl

theorem replayBlockedPrompt_completeTurn {b : QueuedPrompt}
    (hblocked : s.replayBlockedPrompt = some b) {outcome : TurnOutcome}
    (hfree : (s.failedBeforeStart outcome).isSome → s.replayBlockedPrompt = none)
    (turnId : String) : (s.completeTurn turnId outcome).1.replayBlockedPrompt = some b := by
  have hobserved : (s.observeCompletion turnId).replayBlockedPrompt = some b := by
    unfold observeCompletion
    split
    · rw [replayBlockedPrompt_observeTurnStarted, hblocked]
    · exact hblocked
  have hretired : ((s.observeCompletion turnId).retireTurn turnId outcome).replayBlockedPrompt =
      some b := by
    unfold retireTurn recordTerminalOwnerTurn
    split <;> exact hobserved
  have hunstarted : s.failedBeforeStart outcome = none := by
    cases h : s.failedBeforeStart outcome with
    | none => rfl
    | some p => simp [hfree (by simp [h])] at hblocked
  unfold completeTurn settleTurn
  dsimp only
  rw [hunstarted]
  split
  · exact hobserved
  · dsimp only
    split
    · exact hretired
    · rw [replayBlockedPrompt_continueAfterTurn, hretired]

/-- While a prompt waits for a retry, nothing can be replayed without writing over it. -/
theorem Replayable.eq_nil {b : QueuedPrompt} {rows : List PersistedOwnerPrompt}
    (hreplayable : Replayable rows s) (hdistinct : (rows.map (·.promptId) ++ s.held).Nodup)
    (hblocked : s.replayBlockedPrompt = some b) : rows = [] := by
  cases rows with
  | nil => rfl
  | cons pending rest =>
    rw [List.map_cons, List.cons_append] at hdistinct
    have hheld : pending.promptId ∉ s.held := fun h =>
      (List.nodup_cons.1 hdistinct).1 (List.mem_append_right _ h)
    rw [Replayable] at hreplayable
    simp only [replayPrompt, replayPendingPromptWithIdAndSource] at hreplayable
    rcases s.submit_cases pending.promptId pending.rawText [] pending.sourceTransport false with
      ⟨e, heq⟩ | ⟨-, hsuppress, -⟩ | ⟨-, ⟨hnone, -⟩ | ⟨b', hb', hid⟩, -⟩
    · simp [heq, hblocked] at hreplayable
    · cases hsuppress
    · simp [hblocked] at hnone
    · exact absurd (by simp [held, blockedIds, hb', hid]) hheld

theorem replayBlockedPrompt_handleSessionResumed {b : QueuedPrompt} {providerSessionId : String}
    {model : String} {history : List UserRow}
    (horderly : s.OrderlyEvent (.sessionResumed providerSessionId model history))
    (hblocked : s.replayBlockedPrompt = some b) :
    (s.handleSessionResumed providerSessionId model history).1.replayBlockedPrompt = some b := by
  obtain ⟨hdistinct, hreplayable⟩ := horderly
  unfold handleSessionResumed
  split
  · exact hblocked
  next record hresuming =>
    split
    · exact hblocked
    next hempty =>
      have hreplayed : s.replayed providerSessionId =
          record.ownerPrompts.filter (·.dispatchPending) := by simp [replayed, hresuming, hempty]
      have hrows : s.replayed providerSessionId = [] :=
        (hreplayable record hresuming).eq_nil hdistinct hblocked
      have hnone : (s.resumedState record providerSessionId model history).ownerPrompts.filter
          (·.dispatchPending) = [] := hreplayed.symm.trans hrows
      simp only [hnone, replayPending, continueAfterReplay]
      split
      · exact hblocked
      · exact (replayBlockedPrompt_drainQueue _).trans hblocked

theorem replayBlockedPrompt_handleBackend {b : QueuedPrompt} {event : BackendEvent}
    (horderly : s.OrderlyEvent event) (hblocked : s.replayBlockedPrompt = some b) :
    (s.handleBackend event).1.replayBlockedPrompt = some b := by
  cases event <;> simp only [handleBackend]
  case sessionCreated =>
    unfold handleSessionCreated
    split
    · exact hblocked
    · dsimp only
      split <;> exact hblocked
  case sessionResumed => exact replayBlockedPrompt_handleSessionResumed horderly hblocked
  case sessionObserved => unfold observeSession; split <;> exact hblocked
  case turnStarted =>
    unfold handleTurnStarted
    split
    · exact hblocked
    · exact (replayBlockedPrompt_observeTurnStarted s _).trans hblocked
  case turnCompleted =>
    exact replayBlockedPrompt_completeTurn (s := { s with externalToolCalls := [] }) hblocked
      horderly _
  case itemStarted => unfold observeItem; split <;> exact hblocked
  case itemCompleted => unfold observeItem; split <;> exact hblocked
  case itemDelta => unfold observeItem; split <;> exact hblocked
  case turnProgress => unfold handleTurnProgress; split <;> exact hblocked
  case steerAccepted turnId =>
    have hsteered : (s.handleSteerAccepted turnId).2.replayBlockedPrompt = some b := by
      rcases s.steerAccepted_cases turnId with ⟨-, _, heq⟩ | ⟨_, -, -, heq⟩ <;> rw [heq] <;>
        exact hblocked
    split
    next heq => rw [heq] at hsteered; exact hsteered
    next heq => rw [heq] at hsteered; exact hsteered
  case modelRerouted =>
    unfold handleModelRerouted
    split
    · split <;> exact hblocked
    · exact hblocked
  case contextCompactionStarted =>
    unfold contextCompactionStarted
    dsimp only
    split <;> exact hblocked
  case contextCompactionCompleted => unfold contextCompactionEnded; split <;> exact hblocked
  case contextCompactionFailed => unfold contextCompactionEnded; split <;> exact hblocked
  case requestFailed operation code message =>
    unfold requestFailed
    cases operation <;> dsimp only
    case startSession =>
      split
      · exact hblocked
      next htimedOut =>
        have hfree := horderly (by simpa using htimedOut)
        split
        · exact hblocked
        next prompt hpending =>
          exact replayBlockedPrompt_returnPrompt (s := { s with
            creatingSession := false, pendingSessionPrompt := none }) hblocked
            (hpending ▸ hfree)
    case startTurn =>
      split
      · exact hblocked
      next htimedOut =>
        have hfree := horderly (by simpa using htimedOut)
        split
        next prompt hstarting =>
          exact replayBlockedPrompt_returnPrompt (s := { s with startingTurn := none }) hblocked
            (hstarting ▸ hfree)
        · exact (replayBlockedPrompt_drainQueue s).trans hblocked
    all_goals exact hblocked
  case sessionClosed =>
    unfold handleSessionClosed
    split
    · exact hblocked
    next hclosed =>
      exact replayBlockedPrompt_releaseUnstarted (s := { s with
        questions := [], approvals := [], providerSessionId := none }) hblocked
        (horderly (by simpa using hclosed))
  case disconnected =>
    exact replayBlockedPrompt_releaseUnstarted (s := { s with
      questions := [], externalToolCalls := [], connection := .disconnected _,
      runningSubagents := [] }) hblocked horderly
  all_goals exact hblocked

/-! ## Steps -/

theorem samePlaces_observeProvider (provider : String) (event : BackendEvent) :
    SamePlaces s (s.observeProvider provider event) := by
  unfold observeProvider updateContext
  split <;> (try dsimp only) <;> (try split) <;> constructor <;> rfl

/-- Of the active provider's events only two tell something of the provider itself. -/
theorem observeProvider_eq {provider : String} (hhears : s.hears provider = true)
    {event : BackendEvent} (hready : ∀ identity, event ≠ .ready identity)
    (hreload : ∀ code message, event ≠ .requestFailed .reload code message) :
    s.observeProvider provider event = s := by
  unfold hears at hhears
  unfold observeProvider
  split
  · exact absurd rfl (hready _)
  · exact absurd rfl (hreload _ _)
  all_goals simp_all

theorem backendProvider_observeProvider {provider : String} {event : BackendEvent}
    (hready : ∀ identity, event ≠ .ready identity) :
    (s.observeProvider provider event).backendProvider = s.backendProvider := by
  unfold observeProvider updateContext
  split
  · exact absurd rfl (hready _)
  all_goals (try dsimp only) <;> (try split) <;> rfl

/-- An event of another provider leaves all places alone. An event of the active one is reduced. -/
theorem provider_cases (provider : String) (event : BackendEvent) :
    (SamePlaces s (s.handleProviderBackend provider event).1 ∧
      s.begins (.backend provider event) = [] ∧ s.steers (.backend provider event) = [] ∧
      s.accepts (.backend provider event) = []) ∨
    (s.hears provider = true ∧
      SamePlaces (s.handleBackend event).1 (s.handleProviderBackend provider event).1) := by
  have hobserved := s.samePlaces_observeProvider provider event
  have hsync : ∀ s : DomainState, SamePlaces s s.syncActiveProviderContext := fun s =>
    .of_switches s.switches_syncActiveProviderContext
  unfold handleProviderBackend
  split
  · exact .inl ⟨.refl s, rfl, rfl, rfl⟩
  dsimp only
  cases hhears : s.hears provider with
  | false =>
    refine .inl ⟨?_, ?_, ?_, ?_⟩
    · split
      · exact hobserved
      next hactive =>
        by_cases hready : ∃ identity, event = .ready identity
        · obtain ⟨identity, rfl⟩ := hready
          exact hobserved.trans (.trans (by constructor <;> rfl) (hsync _))
        · rw [backendProvider_observeProvider (fun identity h => hready ⟨identity, h⟩)] at hactive
          simp [hears] at hhears
          simp [hhears] at hactive
    all_goals cases event <;> simp [begins, steers, accepts, hhears]
  | true =>
    refine .inr ⟨rfl, ?_⟩
    have hactive : (provider != (s.observeProvider provider event).backendProvider) = false := by
      by_cases hready : ∃ identity, event = .ready identity
      · obtain ⟨identity, rfl⟩ := hready
        simp only [hears, beq_iff_eq] at hhears
        simp only [observeProvider]
        split <;> simp [hhears]
      · rw [backendProvider_observeProvider (fun identity h => hready ⟨identity, h⟩)]
        simpa [hears] using hhears
    rw [hactive, if_neg Bool.false_ne_true]
    by_cases hready : ∃ identity, event = .ready identity
    · obtain ⟨identity, rfl⟩ := hready
      refine .trans ?_ (hsync _)
      exact ⟨hobserved.queuedIds, hobserved.pendingSessionPrompt, hobserved.startingTurn,
        hobserved.replayBlockedPrompt, hobserved.recoverablePrompt, hobserved.redirectStart,
        hobserved.creatingSession, hobserved.activeTurn⟩
    · by_cases hreload : ∃ code message, event = .requestFailed .reload code message
      · obtain ⟨code, message, rfl⟩ := hreload
        refine .trans ?_ (hsync _)
        exact ⟨hobserved.queuedIds, hobserved.pendingSessionPrompt, hobserved.startingTurn,
          hobserved.replayBlockedPrompt, hobserved.recoverablePrompt, hobserved.redirectStart,
          rfl, hobserved.activeTurn⟩
      · rw [observeProvider_eq hhears (fun identity h => hready ⟨identity, h⟩)
          fun code message h => hreload ⟨code, message, h⟩]
        exact hsync _

/-! ## Steps -/

/-- An action that writes over no prompt that is held. -/
def Orderly (s : DomainState) : Action → Prop
  | .backend provider event => s.hears provider = true → s.OrderlyEvent event
  | _ => True

/-- A prompt leaves the slot of a retry only to be begun again, and is then in the queue or on its
way to a turn. -/
def KeepsSlot (s : DomainState) (action : Action) (s' : DomainState) : Prop :=
  ∀ b, s.replayBlockedPrompt = some b → s'.replayBlockedPrompt = some b ∨
    (action.brings = some b.id ∧ b.id ∈ s'.queuedIds ++ s'.pendingIds ++ s'.startingIds)

theorem Brings.step {promptId text : String} {attachments : List PromptAttachment} {p : Prop}
    {outcome : Except DomainCommandError (List Effect) × DomainState} (hs : s.Sound)
    (hknown : s.known promptId text attachments = true ↔ p)
    (hbrings : Brings s promptId p outcome) :
    outcome.2.Sound ∧
      (∀ x, outcome.2.held.count x =
        s.held.count x + (s.taken promptId text attachments outcome).count x) ∧
      ∀ b, s.replayBlockedPrompt = some b → outcome.2.replayBlockedPrompt = some b ∨
        (some promptId = some b.id ∧
          b.id ∈ outcome.2.queuedIds ++ outcome.2.pendingIds ++ outcome.2.startingIds) := by
  cases hbrings with
  | refused e => exact ⟨hs, fun _ => rfl, fun b hb => .inl hb⟩
  | settled h =>
    have hnone : s.taken promptId text attachments (.ok [], s) = [] := by
      simp [DomainState.taken, hknown.2 h]
    exact ⟨hs, fun _ => by rw [hnone]; rfl, fun b hb => .inl hb⟩
  | @retried effects s' hsound hids hslot hcount =>
    have hblocked : ∃ b, s.replayBlockedPrompt = some b ∧ b.id = promptId := by
      simpa [blockedIds, Option.toList_eq_singleton_iff] using hids
    obtain ⟨b, hb, rfl⟩ := hblocked
    have hnone : s.taken b.id text attachments (.ok effects, s') = [] := by
      simp [DomainState.taken, known, blockedReplay, hb]
    refine ⟨hsound, fun x => by rw [hnone]; exact hcount x, fun b' hb' => .inr ?_⟩
    obtain rfl : b = b' := by simpa [hb] using hb'
    have hheld : b.id ∈ s'.held := by
      rw [← List.count_pos_iff, hcount, List.count_pos_iff]
      simp [held, hids]
    simpa [held, blockedIds, hslot] using hheld
  | @taken effects s' hsound h _ hslot hcount =>
    have hsome : s.taken promptId text attachments (.ok effects, s') = [promptId] := by
      have hnew : s.known promptId text attachments = false := by
        simpa using fun hk => h (hknown.1 hk)
      simp [DomainState.taken, hnew, Except.isOk, Except.toBool]
    exact ⟨hsound, fun x => by rw [hsome]; exact hcount x, fun b hb => .inl (hslot.trans hb)⟩

/-- A step that writes over no prompt keeps the places sound and every prompt in them. -/
theorem step_sound (hs : s.Sound) {action : Action} (horderly : s.Orderly action) :
    (s.step action).1.Sound ∧ s.Balanced action (s.step action).1 ∧
      s.KeepsSlot action (s.step action).1 := by
  have hsame : ∀ {s' : DomainState}, SamePlaces s s' → s'.Sound ∧
      (∀ x, s'.held.count x = s.held.count x) ∧
      ∀ b, s.replayBlockedPrompt = some b → s'.replayBlockedPrompt = some b ∨
        (action.brings = some b.id ∧ b.id ∈ s'.queuedIds ++ s'.pendingIds ++ s'.startingIds) :=
    fun h => ⟨h.sound hs, fun x => by rw [h.held],
      fun b hb => .inl (h.replayBlockedPrompt.trans hb)⟩
  cases action <;> simp only [step, settle_fst, Balanced, KeepsSlot, begins, steers, accepts,
    List.count_nil, Nat.add_zero]
  case submit =>
    exact (submit_sound hs _ _ _ _ true nofun).step hs (by simp)
  case enqueue => exact (enqueue_sound hs).step hs Iff.rfl
  case remove promptId =>
    obtain ⟨hsound, hcount⟩ := remove_sound hs promptId
    refine ⟨hsound, hcount, fun b hb => .inl ?_⟩
    rcases s.remove_cases promptId with ⟨_, heq⟩ | ⟨heq, -⟩ | ⟨-, -, heq⟩ <;> rw [heq]
    · exact hb
    · exact hb
    · exact (replayBlockedPrompt_drainQueue _).trans hb
  case steerQueued => exact hsame (samePlaces_steerQueuedPrompt _ _)
  case steer =>
    rcases s.steer_cases _ _ _ with ⟨e, h⟩ | ⟨_, _, -, -, -, h⟩ <;> rw [h] <;>
      exact hsame (by constructor <;> rfl)
  case cancel =>
    rcases s.cancel_cases _ with ⟨e, h⟩ | ⟨_, _, hactive, -, h⟩ <;> rw [h]
    · exact hsame (.refl s)
    · exact hsame ⟨rfl, rfl, rfl, rfl, rfl, rfl, rfl, by simp [hactive]⟩
  case shell => unfold runShellCommand; split <;> exact hsame (by constructor <;> rfl)
  case shellEnded => exact hsame (by constructor <;> rfl)
  case subagentStarted => exact hsame (by constructor <;> rfl)
  case subagentFinished => exact hsame (by constructor <;> rfl)
  case compact =>
    unfold compactContext
    split
    · exact hsame (.refl s)
    · split
      · exact hsame (.refl s)
      · split
        · exact hsame (.refl s)
        · split
          · exact hsame (.refl s)
          · exact hsame (by constructor <;> rfl)
  case selectModel => exact hsame (by constructor <;> rfl)
  case backend provider event =>
    rcases s.provider_cases provider event with ⟨hplaces, hbegins, hsteers, haccepts⟩ |
      ⟨hhears, hplaces⟩
    · simp only [begins, steers, accepts] at hbegins hsteers haccepts
      rw [hbegins, hsteers, haccepts]
      exact hsame hplaces
    · obtain ⟨hsound, hbalanced⟩ := handleBackend_sound hs hhears (horderly hhears)
      refine ⟨hplaces.sound hsound, fun x => ?_, fun b hb => .inl ?_⟩
      · rw [hplaces.held]
        exact hbalanced x
      · rw [hplaces.replayBlockedPrompt]
        exact replayBlockedPrompt_handleBackend (horderly hhears) hb

end DomainState

/-! ## Runs -/

open DomainState

/-- Where a prompt can be. -/
inductive Place
  | queued
  | creating
  | starting
  | blocked
  | begun
  | steered
  | removed
  deriving DecidableEq, Repr

/-- The prompts that are in a place. -/
def History.at (h : History) (s : DomainState) : Place → List String
  | .queued => s.queuedIds
  | .creating => s.pendingIds
  | .starting => s.startingIds
  | .blocked => s.blockedIds
  | .begun => h.begun
  | .steered => h.steered
  | .removed => h.removed

/-- Every prompt that was accepted once is in one place, once. -/
def History.Conserved (h : History) (s : DomainState) : Prop :=
  ∀ x, h.accepted.count x = 1 →
    ∃ place, (h.at s place).count x = 1 ∧ ∀ other, other ≠ place → x ∉ h.at s other

/-- What came in is held or went out. -/
def History.Accounts (h : History) (s : DomainState) : Prop :=
  ∀ x, h.accepted.count x =
    s.held.count x + h.begun.count x + h.steered.count x + h.removed.count x

theorem History.Accounts.conserved {h : History} {s : DomainState} (haccounts : h.Accounts s) :
    h.Conserved s := by
  intro x hx
  have hsum := haccounts x
  rw [hx, count_held] at hsum
  have hcount : ∀ place, (h.at s place).count x ≤ 1 := by
    intro place
    cases place <;> simp only [History.at] <;> omega
  have hone : ∃ place, (h.at s place).count x = 1 := by
    by_contra hnone
    simp only [not_exists] at hnone
    have hzero : ∀ place, (h.at s place).count x = 0 := fun place => by
      have hle := hcount place
      have hne := hnone place
      omega
    have h₁ := hzero .queued
    have h₂ := hzero .creating
    have h₃ := hzero .starting
    have h₄ := hzero .blocked
    have h₅ := hzero .begun
    have h₆ := hzero .steered
    have h₇ := hzero .removed
    simp only [History.at] at h₁ h₂ h₃ h₄ h₅ h₆ h₇
    omega
  obtain ⟨place, hplace⟩ := hone
  refine ⟨place, hplace, fun other hother => ?_⟩
  rw [← List.count_eq_zero]
  cases place <;> cases other <;> simp only [History.at, ne_eq, not_true_eq_false] at * <;> omega

namespace DomainState

variable {s s' : DomainState}

/-- Whatever is held, a prompt that is begun without a reservation is held once more. -/
theorem count_beginPrompt (hpending : s.pendingSessionPrompt = none)
    (hstarting : s.startingTurn = none) (hredirect : s.redirectStart = none) (prompt : QueuedPrompt)
    (x : String) :
    (s.beginPrompt prompt).1.held.count x = s.held.count x + [prompt.id].count x := by
  obtain ⟨s₁, hswitch, -, hcases⟩ := s.begin_cases prompt
  have hplaces := SamePlaces.of_switches hswitch
  have hpending₁ := hplaces.pendingSessionPrompt.trans hpending
  have hstarting₁ := hplaces.startingTurn.trans hstarting
  have hredirect₁ := hplaces.redirectStart.trans hredirect
  rw [← hplaces.held]
  rcases hcases with heq | heq <;> rw [heq]
  · simp [putBack, isRedirected, hredirect₁, count_held, queuedIds, pendingIds, startingIds,
      blockedIds, List.count_cons]
    omega
  · unfold dispatchPrompt
    dsimp only
    split <;> simp [recordOutgoingUserPrompt, startPromptOnSession, outgoing, count_held, queuedIds,
      pendingIds, startingIds, blockedIds, hpending₁, hstarting₁] <;> omega

/-- Nothing is on its way to a turn, and nothing is held back for it. -/
structure AtRest (s : DomainState) : Prop where
  pending : s.pendingSessionPrompt = none
  starting : s.startingTurn = none
  active : s.activeTurn = none
  redirect : s.redirectStart = none
  recoverable : s.recoverablePrompt = none

theorem Fresh.atRest (h : s.Fresh) : s.AtRest :=
  ⟨h.pendingSessionPrompt, h.startingTurn, h.activeTurn, h.redirectStart, h.recoverablePrompt⟩

theorem AtRest.sound (h : s.AtRest) (hdistinct : s.held.Nodup) : s.Sound where
  creating := by simp [h.pending]
  alone := by simp [h.pending]
  unstarted := by simp [h.starting]
  distinct := hdistinct
  redirect := by simp [h.redirect]
  recoverable := by simp [h.recoverable]

theorem AtRest.switches (h : s.AtRest) (hswitch : Switches s s') : s'.AtRest :=
  ⟨hswitch.pendingSessionPrompt.trans h.pending, hswitch.startingTurn.trans h.starting,
    hswitch.activeTurn.trans h.active, hswitch.redirectStart.trans h.redirect,
    hswitch.recoverablePrompt.trans h.recoverable⟩

theorem AtRest.begin_sound (h : s.AtRest) {prompt : QueuedPrompt}
    (hdistinct : (s.beginPrompt prompt).1.held.Nodup) : (s.beginPrompt prompt).1.Sound := by
  have hcount := count_beginPrompt h.pending h.starting h.redirect prompt
  have hcons : (prompt.id :: s.held).Nodup := by
    refine nodup_of_count_le hdistinct fun x => ?_
    exact Nat.le_of_eq (by rw [count_cons_eq, hcount])
  exact (DomainState.begin_sound ⟨h.pending, h.starting, h.active, hcons, by simp [h.redirect],
    by simp [h.recoverable]⟩).1

/-- Turning to a session leaves nothing on its way, or begins the prompt that the session was to be
created with. -/
theorem resume_cases (h : s.AtRest) (record : SessionRecord) :
    (s.beginResume record).1.AtRest ∨
      ∃ (t : DomainState) (prompt : QueuedPrompt), t.AtRest ∧
        (s.beginResume record).1 = (t.beginPrompt prompt).1 := by
  have hactivate := h.switches (s.switches_activateProvider record.provider)
  unfold beginResume
  split
  · exact .inl h
  split
  next heq => rw [heq] at hactivate; exact .inl hactivate
  next s' heq =>
    rw [heq] at hactivate
    have hadopted : (s'.adoptRecord record).AtRest := by
      obtain ⟨hpending, hstarting, hactive, hredirect, hrecoverable⟩ := hactivate
      exact ⟨hpending, hstarting, hactive, hredirect, hrecoverable⟩
    obtain ⟨hpending, hstarting, hactive, hredirect, hrecoverable⟩ := hadopted
    dsimp only
    split
    · exact .inl hactivate
    split
    · exact .inl hactivate
    split
    · split
      · exact .inl ⟨hpending, hstarting, hactive, hredirect, hrecoverable⟩
      · refine .inr ⟨_, _, ?_, rfl⟩
        exact ⟨hpending, hstarting, hactive, hredirect, hrecoverable⟩
    · exact .inl ⟨hpending, hstarting, hactive, hredirect, hrecoverable⟩

end DomainState

theorem Starts.sound {s : DomainState} (hstart : Starts s) (hdistinct : s.held.Nodup) :
    s.Sound := by
  cases hstart with
  | fresh hfresh => exact hfresh.atRest.sound hdistinct
  | resumed record hfresh =>
    rcases resume_cases hfresh.atRest record with hrest | ⟨t, prompt, hrest, heq⟩
    · exact hrest.sound hdistinct
    · rw [heq] at hdistinct ⊢
      exact hrest.begin_sound hdistinct

/-- Along a run whose steps write over no prompt, what came in is held or went out. -/
theorem accounts_run {s₀ s : DomainState} {h : History} {actions : List Action}
    (hsound : s₀.Sound)
    (hrun : (recorded.restrict fun x => x.1.Orderly).Run (s₀, .start s₀) actions (s, h)) :
    s.Sound ∧ h.Accounts s := by
  refine hrun.invariant (Q := fun x => x.1.Sound ∧ x.2.Accounts x.1) ?_ ⟨hsound, fun x => ?_⟩
  · rintro ⟨s, h⟩ action _ ⟨horderly, rfl⟩ ⟨hs, haccounts⟩
    obtain ⟨hsound, hbalanced, -⟩ := step_sound hs horderly
    refine ⟨hsound, fun x => ?_⟩
    have hbefore := haccounts x
    have hafter := hbalanced x
    simp only [History.record, List.count_append] at hbefore hafter ⊢
    omega
  · simp [History.start]

/-- In every run of an engine whose steps write over no prompt, each prompt that was accepted once
is in exactly one place, none is queued twice, and the next step takes a prompt out of the slot of a
retry only to begin it again. -/
theorem prompts_conserved {s₀ s : DomainState} {h : History} {actions : List Action}
    (hstart : Starts s₀) (hdistinct : s₀.held.Nodup)
    (hrun : (recorded.restrict fun x => x.1.Orderly).Run (s₀, .start s₀) actions (s, h)) :
    h.Conserved s ∧ s.queuedIds.Nodup ∧
      ∀ action, s.Orderly action → s.KeepsSlot action (s.step action).1 := by
  obtain ⟨hsound, haccounts⟩ := accounts_run (hstart.sound hdistinct) hrun
  exact ⟨haccounts.conserved, hsound.queue, fun action horderly =>
    (step_sound hsound horderly).2.2⟩

/-- A prompt that failed to start waits for a retry, and its turn is heard of late. A second prompt is
redirected into that turn and fails before its own turn starts. -/
def failedTwice : List Action :=
  [.say "first", .native (.sessionCreated "thread" ""),
    .native (.requestFailed .startTurn 0 "refused"), .native (.turnStarted "late"),
    .enqueue "second" "look here" [⟨"notes", some "notes.md", none⟩],
    .steerQueued "second" "steer", .native (.turnCompleted "late" .interrupted),
    .native (.turnCompleted "turn-2" .failed)]

/-- The first prompt was accepted once, and is nowhere. -/
theorem blocked_prompt_lost :
    Starts native ∧
      recorded.Run (native, .start native) failedTwice
        (History.after (native, .start native) failedTwice) ∧
      ¬ (History.after (native, .start native) failedTwice).2.Conserved
        (History.after (native, .start native) failedTwice).1 := by
  refine ⟨.fresh native_fresh, History.run_after _ _, fun h => ?_⟩
  obtain ⟨place, hplace, -⟩ := h "first" (by decide +kernel)
  revert hplace
  cases place <;> decide +kernel

/-- A prompt runs. -/
def firstTurn : List Action :=
  [.say "first", .native (.sessionCreated "thread" ""), .native (.turnStarted "turn-1"),
    .native (.turnCompleted "turn-1" .completed)]

theorem prompts_conserved_firstTurn :
    (History.after (native, .start native) firstTurn).2.Conserved
        (History.after (native, .start native) firstTurn).1 ∧
      (History.after (native, .start native) firstTurn).1.queuedIds.Nodup ∧
      ∀ action, (History.after (native, .start native) firstTurn).1.Orderly action →
        (History.after (native, .start native) firstTurn).1.KeepsSlot action
          ((History.after (native, .start native) firstTurn).1.step action).1 := by
  have hrun : (recorded.restrict fun x => x.1.Orderly).Run (native, .start native) firstTurn
      (History.after (native, .start native) firstTurn) := by
    refine .cons ⟨trivial, rfl⟩ (.cons ⟨fun _ => trivial, rfl⟩ (.cons ⟨fun _ _ => ?_, rfl⟩
      (.cons ⟨fun _ hfailed => ?_, rfl⟩ (.nil _))))
    · decide +kernel
    · revert hfailed
      decide +kernel
  exact prompts_conserved (.fresh native_fresh) (by decide +kernel) hrun

end Nakode.Domain
