import Nakode.Handoff.Moves

/-!
# Where a package is delivered

A package goes along from prompt to prompt until a turn starts, and is delivered with that turn
(`first_started`). It is delivered at most as often as it was made (`keeps_run`). A prompt that was
sent ahead out of the queue and could not start keeps it, and other prompts begin without it
(`not_always_attached_to_next`).
-/

namespace Nakode.Handoff

namespace State

variable {s : State}

/-! ## The first turn that starts -/

/-- A package is pending, or on its way with a prompt. -/
def Carried (package : HandoffPackage) (s : State) : Prop :=
  s.pendingHandoff = some package ∨
    ∃ prompt, s.unstarted = some prompt ∧ prompt.handoff = some package

/-- No prompt has been sent ahead out of the queue, and the step keeps the session's provider. -/
def Stays (s : State) (action : Action) : Prop :=
  s.redirectStart = none ∧ (s.step action).1.backendProvider = s.backendProvider

/-- A package that is carried is carried on, or delivered with the turn that starts. -/
theorem carried_step (h : s.Sound) {package : HandoffPackage} (hcarried : s.Carried package)
    {action : Action} (horderly : s.Orderly action) (hstays : s.Stays action) :
    (Silent (s.step action).2 ∧ (s.step action).1.Carried package) ∨
      ∃ promptId rest, (s.step action).2 = .started promptId (some package) :: rest := by
  cases hprompt : s.unstarted with
  | none =>
    have hpending : s.pendingHandoff = some package := by
      rcases hcarried with hpending | ⟨prompt, hsome, -⟩
      · exact hpending
      · rw [hprompt] at hsome
        cases hsome
    obtain ⟨hsilent, hcarries⟩ := idles_step h hprompt action
    obtain ⟨hwaits, hbegun⟩ := hcarries hstays.2
    refine .inl ⟨hsilent, ?_⟩
    cases hafter : (s.step action).1.unstarted with
    | none => exact .inl ((hwaits hafter).trans hpending)
    | some prompt =>
      obtain ⟨own, -, hhandoff⟩ := hbegun prompt hafter
      rw [hpending] at hhandoff
      exact .inr ⟨prompt, hafter, hhandoff⟩
  | some prompt =>
    have hhandoff : prompt.handoff = some package := by
      rcases hcarried with hpending | ⟨other, hsome, hhandoff⟩
      · rw [h.free (by rw [hprompt]; rfl)] at hpending
        cases hpending
      · obtain rfl := Option.some.inj (hsome.symm.trans hprompt)
        exact hhandoff
    obtain ⟨hfailed, hgoes⟩ := goes_step h hprompt horderly
    by_cases hfails : s.FailsStart action
    · obtain ⟨hsilent, hreturned⟩ := hfailed hfails
      exact .inl ⟨hsilent, .inl ((hreturned.pending hstays.1).trans hhandoff)⟩
    · rcases hgoes hfails with ⟨hsilent, hafter, -⟩ | ⟨rest, hnotes⟩
      · exact .inl ⟨hsilent, .inr ⟨prompt, hafter, hhandoff⟩⟩
      · exact .inr ⟨prompt.id, rest, by rw [hnotes, hhandoff]⟩

end State

open Transition

/-- The orderly runs of a session. -/
def orderly : System State (Action × List Note) :=
  relay.restrict fun s label => s.Orderly label.1

/-- The orderly runs in which a session stays with its provider and no prompt is sent ahead. -/
def staying : System State (Action × List Note) :=
  relay.restrict fun s label => s.Orderly label.1 ∧ s.Stays label.1

/-- The first turn of a prompt that starts in some notes. -/
def FirstStarted (notes : List Note) (promptId : String) (handoff : Option HandoffPackage) : Prop :=
  ∃ before after, notes = before ++ .started promptId handoff :: after ∧ State.Silent before

/-- The first turn that starts has the package. -/
theorem first_started {s s' : State} {labels : List (Action × List Note)} (h : s.Sound)
    {package : HandoffPackage} (hcarried : s.Carried package) (hrun : staying.Run s labels s') :
    (State.Silent (notesOf labels) ∧ s'.Carried package) ∨
      ∃ promptId, FirstStarted (notesOf labels) promptId (some package) := by
  induction hrun with
  | nil => exact .inl ⟨State.silent_nil, hcarried⟩
  | @cons s t s' label labels hnext _ ih =>
    obtain ⟨⟨horderly, hstays⟩, hstep⟩ := hnext
    have hsound := (State.keeps_step h horderly).sound
    have hnotes : notesOf (label :: labels) = label.2 ++ notesOf labels := List.flatMap_cons
    rcases State.carried_step h hcarried horderly hstays with
      ⟨hsilent, hcarried⟩ | ⟨promptId, rest, hstarted⟩
    · rw [hstep] at hsound hsilent hcarried
      rw [hnotes]
      rcases ih hsound hcarried with ⟨hrest, hlast⟩ | ⟨promptId, before, after, hfirst, hbefore⟩
      · exact .inl ⟨hsilent.append hrest, hlast⟩
      · exact .inr ⟨promptId, label.2 ++ before, after, by rw [hfirst, List.append_assoc],
          hsilent.append hbefore⟩
    · rw [hstep] at hstarted
      refine .inr ⟨promptId, [], rest ++ notesOf labels, ?_, State.silent_nil⟩
      rw [hnotes, hstarted]
      rfl

/-! ## Runs of actions -/

namespace State

/-- The engine of a session before it has taken anything on. -/
def new (backendProvider : String) (providerContexts : List (String × Bool))
    (transcript : List TranscriptEntry) : State where
  ready := true
  backendProvider
  providerContexts
  selectedModel := none
  lastModel := none
  transcript
  providerSessionId := none
  otherWork := false
  creatingSession := false
  pendingSessionPrompt := none
  startingTurn := none
  activeTurn := none
  queue := []
  replayBlockedPrompt := none
  recoverablePrompt := none
  pendingRedirect := none
  redirectStart := none
  pendingHandoff := none

theorem new_sound (backendProvider : String) (providerContexts : List (String × Bool))
    (transcript : List TranscriptEntry) : (new backendProvider providerContexts transcript).Sound :=
  Quiet.sound ⟨rfl, rfl⟩ List.nodup_nil rfl (fun _ hsome => by cases hsome)
    fun _ hsome => by cases hsome

variable (s : State)

def after (actions : List Action) : State :=
  actions.foldl (fun s action => (s.step action).1) s

def labels : State → List Action → List (Action × List Note)
  | _, [] => []
  | s, action :: actions => (action, (s.step action).2) :: (s.step action).1.labels actions

instance (action : Action) : Decidable (s.Orderly action) :=
  match action with
  | .turnStarted _ | .reloadFailed => inferInstanceAs (Decidable (s.pendingSessionPrompt = none))
  | .primaryTransitionFailed => inferInstanceAs (Decidable (s.redirectStart = none))
  | .submit .. | .enqueue .. | .remove .. | .steerQueued .. | .steerAccepted .. | .selectModel ..
  | .drain | .sessionCreated .. | .sessionObserved .. | .turnCompleted .. | .startSessionFailed ..
  | .startTurnFailed .. | .interruptTurnFailed | .sessionClosed .. | .disconnected
  | .surroundings .. => isTrue trivial

instance (action : Action) : Decidable (s.Stays action) :=
  inferInstanceAs (Decidable (_ ∧ _))

/-- Each action meets a condition in the state it is taken in. -/
def Along (C : State → Action → Prop) : State → List Action → Prop
  | _, [] => True
  | s, action :: actions => C s action ∧ (s.step action).1.Along C actions

instance decidableAlong {C : State → Action → Prop} [∀ s action, Decidable (C s action)] :
    ∀ (s : State) (actions : List Action), Decidable (s.Along C actions)
  | _, [] => isTrue trivial
  | s, action :: actions =>
    @instDecidableAnd _ _ inferInstance (decidableAlong (s.step action).1 actions)

theorem run_after {C : State → Action → Prop} {s : State} {actions : List Action}
    (h : s.Along C actions) :
    (relay.restrict fun s label => C s label.1).Run s (s.labels actions) (s.after actions) := by
  induction actions generalizing s with
  | nil => exact .nil s
  | cons action actions ih => exact .cons ⟨h.1, rfl⟩ (ih h.2)

/-- A session with one message. -/
def greeted : State :=
  new "codex" [("codex", true), ("devin", true)]
    [{ id := "entry", kind := .user, title := "", body := "hello", status := .complete }]

end State

/-- The package of that message for another provider. -/
def greeting (sourceModel sourceSession : Option String) : HandoffPackage where
  sourceProvider := "codex"
  sourceModel
  sourceSession
  targetProvider := "devin"
  messages := [{ role := .user, body := "hello" }]
  omittedMessages := 0

/-! ## Delivery -/

/-- A package holds the newest dialogue that fits, and what is on its way with a prompt that cannot
start goes with the next one, or stays with the prompt if this was sent ahead out of the queue. -/
theorem handoff_delivered :
    (∀ (sourceProvider : String) (sourceModel sourceSession : Option String)
      (targetProvider : String) (entries : List TranscriptEntry),
      (HandoffPackage.fromTranscript sourceProvider sourceModel sourceSession targetProvider
          entries = none ↔
        ∀ entry ∈ entries, entry.kind.handoffRole = none ∨ Text.trim entry.body = "") ∧
      ∀ package, HandoffPackage.fromTranscript sourceProvider sourceModel sourceSession
          targetProvider entries = some package →
        HandoffPackage.Kept (HandoffPackage.dialogue entries) package) ∧
    (∀ s labels s', s.Sound → orderly.Run s labels s' →
      (∀ package, s.held package + tally package Note.made? (notesOf labels) =
        s'.held package + tally package Note.delivered? (notesOf labels) +
          tally package Note.dropped? (notesOf labels)) ∧
      (∀ action prompt, s'.Orderly action → s'.unstarted = some prompt → s'.FailsStart action →
        s'.Returned prompt (s'.step action).1) ∧
      (∀ action, s'.unstarted = none → (s'.step action).1.backendProvider = s'.backendProvider →
        s'.Carries (s'.step action).1) ∧
      ∀ action, s'.Retains action.removes (s'.step action).1) ∧
    ∀ s labels s' package, s.Sound → s.Carried package → staying.Run s labels s' →
      (State.Silent (notesOf labels) ∧ s'.Carried package) ∨
        ∃ promptId, FirstStarted (notesOf labels) promptId (some package) := by
  refine ⟨fun _ _ _ _ _ => ⟨?_, fun _ hsome => HandoffPackage.kept_of_fromTranscript hsome⟩, ?_,
    fun _ _ _ _ h hcarried hrun => first_started h hcarried hrun⟩
  · rw [HandoffPackage.fromTranscript_eq_none_iff, HandoffPackage.dialogue_eq_nil_iff]
  · intro s labels s' h hrun
    obtain ⟨hsound, hbalanced⟩ := keeps_run h hrun
    refine ⟨hbalanced, fun action prompt horderly hprompt hfails => ?_,
      fun action hnone hkept => ?_, State.retains_step hsound⟩
    · exact ((State.goes_step hsound hprompt horderly).failed hfails).2
    · exact (State.idles_step hsound hnone action).carries hkept

/-- A prompt whose session was refused takes the package along when it is retried. -/
theorem handoff_delivered_retry :
    ∃ promptId, FirstStarted
      (notesOf ((State.greeted.after [.selectModel "devin" "m", .submit "p" "go on"]).labels
        [.startSessionFailed (-1), .submit "p" "go on", .sessionCreated "thread" "",
          .turnStarted "turn"]))
      promptId (some (greeting none none)) := by
  have hbegun : orderly.Run State.greeted
      (State.greeted.labels [.selectModel "devin" "m", .submit "p" "go on"])
      (State.greeted.after [.selectModel "devin" "m", .submit "p" "go on"]) :=
    State.run_after (C := State.Orderly) (by decide)
  have hsound := (keeps_run (State.new_sound ..) hbegun).sound
  have hrun : staying.Run (State.greeted.after [.selectModel "devin" "m", .submit "p" "go on"])
      ((State.greeted.after [.selectModel "devin" "m", .submit "p" "go on"]).labels
        [.startSessionFailed (-1), .submit "p" "go on", .sessionCreated "thread" "",
          .turnStarted "turn"]) _ :=
    State.run_after (C := fun s action => s.Orderly action ∧ s.Stays action) (by decide)
  refine (handoff_delivered.2.2 _ _ _ (greeting none none) hsound (.inr ?_) hrun).resolve_left ?_
  · exact ⟨⟨"p", "go on", some (greeting none none)⟩, by decide, rfl⟩
  · rintro ⟨hsilent, -⟩
    exact hsilent (.started "p" (some (greeting none none))) (by decide) "p" _ rfl

/-- A queued prompt that was sent ahead keeps the package when its session is refused: another
prompt begins without it. -/
theorem not_always_attached_to_next :
    ¬ ∀ labels (s : State) package (prompt next : OutgoingPrompt) action promptId text,
      orderly.Run State.greeted labels s → s.unstarted = some prompt →
      prompt.handoff = some package → s.FailsStart action →
      ((s.step action).1.step (.submit promptId text)).1.unstarted = some next →
      next.handoff = some package := by
  intro h
  have hnone := h _ (State.greeted.after
      [.submit "a" "go on", .sessionCreated "thread" "", .turnStarted "turn",
        .enqueue "b" "then this", .selectModel "devin" "m", .steerQueued "b" false,
        .turnCompleted "turn" .interrupted])
    (greeting (some "devin/m") (some "thread"))
    ⟨"b", "then this", some (greeting (some "devin/m") (some "thread"))⟩
    ⟨"c", "something else", none⟩ (.startSessionFailed (-1)) "c" "something else"
    (State.run_after (C := State.Orderly) (by decide)) (by decide) rfl
    ⟨by decide, by decide⟩ (by decide)
  cases hnone

end Nakode.Handoff
