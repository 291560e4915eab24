import Nakode.Agent.Delivery

/-!
# Restarts and redeliveries

What holds in every state that the machine with a session reaches, wherever the process was lost and
whichever turns were delivered again (`Coherent`): the session in memory and the last checkpoint are
both fenced and, unless a recovery took an open call for a settled one, both sound.
-/

namespace Nakode.Agent

open Process Process.Proc
open ConversationItem

variable {R : AgentRuntime} {s s' : State} {w w' : World} {kept : Kept} {turnId : String}

namespace State

/-- The state as a world, with a session to work on. -/
def world (s : State) (kept : Kept) : World := ⟨s.saved, kept, s.log⟩

/-- The sessions that have survived: the one in memory and the last checkpoint. -/
def Survives (s : State) (kept : Kept) : Prop :=
  s.memory.kept? = some kept ∨ s.saved = some kept

end State

structure Coherent (s : State) : Prop where
  fenced : ∀ kept, s.Survives kept → Fenced (s.world kept)
  sound : Unambiguous s.log → ∀ kept, s.Survives kept → Sound (s.world kept)
  live : ∀ kept, s.memory = .live kept → (s.world kept).Waiting []
  asked : Unambiguous s.log → ∀ effect ∈ s.log, ∀ request, effect.request? = some request →
    Exchange.Answered role request.history
  once : ((executions s.log).map fun e => (e.1.turnId, e.1.slot)).Nodup

/-! ## From worlds to states -/

theorem Fenced.restart (h : Fenced w) (hsaved : w.saved = some kept) :
    Fenced ⟨w.saved, kept, w.log⟩ where
  turns kept' hkept' := by
    cases hsaved.symm.trans hkept'
    exact fun _ hturn => hturn
  effects := h.effects
  prompts := h.saved kept hsaved
  saved := h.saved
  once := h.once

theorem Sound.restart (h : Sound w) (hsaved : w.saved = some kept) :
    Sound ⟨w.saved, kept, w.log⟩ :=
  ⟨h.saved kept hsaved, h.saved, h.asked, h.slots⟩

/-- A state that a computation on a session has led to. -/
theorem Coherent.of_world (hfenced : Fenced w) (hsound : Unambiguous w.log → Sound w)
    {memory : Memory} (hmemory : ∀ kept, memory.kept? = some kept → kept = w.kept)
    (hlive : ∀ kept, memory = .live kept → w.Waiting []) :
    Coherent ⟨w.saved, memory, w.log⟩ where
  fenced kept h := by
    rcases h with h | h
    · rw [hmemory kept h]
      exact hfenced
    · exact hfenced.restart h
  sound hlog kept h := by
    rcases h with h | h
    · rw [hmemory kept h]
      exact hsound hlog
    · exact (hsound hlog).restart h
  live kept h := by
    have hkept : kept = w.kept := hmemory kept (congrArg Memory.kept? h)
    rw [hkept]
    exact hlive kept h
  asked hlog := (hsound hlog).asked
  once := hfenced.once

theorem Memory.kept?_put {memory : Memory} {old : Kept} (h : (memory.put kept).kept? = some old) :
    old = kept := by
  cases memory <;> cases h <;> rfl

namespace Coherent

/-- The session in memory. -/
theorem inMemory (h : Coherent s) (hkept : s.memory.kept? = some kept) :
    Fenced (s.world kept) ∧ (Unambiguous (s.world kept).log → Sound (s.world kept)) :=
  ⟨h.fenced kept (.inl hkept), fun hlog => h.sound hlog kept (.inl hkept)⟩

/-- Moves on the session in memory have led to a world that is kept. -/
theorem after (h : Coherent s) (hkept : s.memory.kept? = some kept) {turn : Option String}
    (hmoves : Moves R turn (s.world kept) w) (hlive : ∀ old, s.memory = .live old → w.Waiting []) :
    Coherent (s.after w) := by
  obtain ⟨hfenced, hsound⟩ := h.inMemory hkept
  refine .of_world (hfenced.moves hmoves) (Sound.moves hsound hmoves)
    (fun old hold => Memory.kept?_put hold) fun old hold => ?_
  cases hmemory : s.memory with
  | live old => exact hlive old hmemory
  | lost | loaded =>
    rw [hmemory] at hold
    cases hold

/-- Moves on the session in memory were made, and the process was lost. -/
theorem lose (h : Coherent s) (hkept : s.memory.kept? = some kept) {turn : Option String}
    (hmoves : Moves R turn (s.world kept) w) : Coherent ⟨w.saved, .lost, w.log⟩ := by
  obtain ⟨hfenced, hsound⟩ := h.inMemory hkept
  exact .of_world (hfenced.moves hmoves) (Sound.moves hsound hmoves) nofun nofun

end Coherent

/-! ## Steps -/

theorem Delivered.emit {result : Except Stop Unit} (h : Delivered R w turnId result w')
    (effect : Effect) (heffect : effect.isQuiet = true) :
    Moves R (fenced w.kept.session turnId) w (w'.emit effect)
      ∧ ((result = .ok () ∨ ∃ error, result = .error (.failed error)) → w.Waiting [] →
        (w'.emit effect).Waiting []) := by
  rcases h with rfl | ⟨hmoves, hwaiting⟩
  · exact ⟨.single (.emit heffect), fun _ hold hlog => hold hlog.of_append⟩
  · exact ⟨hmoves.tail (.emit heffect), fun hresult _ hlog => hwaiting hresult hlog.of_append⟩

namespace Coherent

theorem deliver (h : Coherent s) (hkept : s.memory.kept? = some kept) (prompt : String)
    (attachments : List PromptAttachment) (replies : List Reply) :
    Coherent (let (result, w, _) := runTurn R turnId prompt attachments (s.world kept) replies
      s.delivered turnId result w) := by
  obtain ⟨hfenced, hsound⟩ := h.inMemory hkept
  have htriple := triple_runTurn (R := R) hfenced hsound turnId prompt attachments
    (s.world kept) replies rfl
  have hlive : ∀ old, s.memory = .live old → (s.world kept).Waiting [] := by
    intro old hold
    obtain rfl := Option.some.inj (hkept.symm.trans (congrArg Memory.kept? hold))
    exact h.live kept hold
  generalize runTurn R turnId prompt attachments (s.world kept) replies = run at htriple ⊢
  obtain ⟨result, w, rest⟩ := run
  cases result with
  | ok value =>
    obtain ⟨hmoves, hwaiting⟩ := Delivered.emit htriple (.returned turnId (.ok ())) rfl
    exact h.after hkept hmoves fun old hold => hwaiting (.inl rfl) (hlive old hold)
  | error stop =>
    cases stop with
    | failed error =>
      obtain ⟨hmoves, hwaiting⟩ := Delivered.emit htriple
        (.returned turnId (.error error)) rfl
      exact h.after hkept hmoves fun old hold => hwaiting (.inr ⟨error, rfl⟩) (hlive old hold)
    | lost | timedOut | cut =>
      rcases htriple with rfl | ⟨hmoves, -⟩
      · exact h.lose hkept (.refl : Moves R none (s.world kept) (s.world kept))
      · exact h.lose hkept hmoves

/-- A compaction between turns. -/
theorem compact (h : Coherent s) (hmemory : s.memory = .live kept) (id : String)
    (replies : List Reply) :
    Coherent (let (result, w, _) := Agent.compact R id id .manual (s.world kept) replies
      s.finished result w) := by
  have hkept : s.memory.kept? = some kept := congrArg Memory.kept? hmemory
  have hstart : Running R (s.world kept) none 0 [] (s.world kept) :=
    ⟨.refl, nofun, nofun, nofun, h.live kept hmemory⟩
  have htriple := triple_compact id id .manual (s.world kept) replies hstart
  generalize Agent.compact R id id .manual (s.world kept) replies = run at htriple ⊢
  obtain ⟨result, w, rest⟩ := run
  cases result with
  | ok value => exact h.after hkept htriple.moves fun _ _ => htriple.waiting
  | error stop =>
    cases stop with
    | failed error => exact h.after hkept htriple.moves fun _ _ => htriple.waiting
    | lost | timedOut | cut => exact h.lose hkept htriple.moves

/-- A session is recovered and saved. -/
theorem resume (h : Coherent s) (hkept : s.memory.kept? = some kept) :
    Coherent (let w := (s.world kept).recover.save
      ⟨w.saved, .live w.kept, w.log⟩) := by
  obtain ⟨hfenced, hsound⟩ := h.inMemory hkept
  have hrecovered : Unambiguous (s.world kept).recover.log → Sound (s.world kept).recover :=
    fun hlog => (hsound hlog.of_recover).recover hlog
  refine .of_world hfenced.recover.save (fun hlog => (hrecovered hlog).save) ?_ fun _ _ hlog => ?_
  · intro old hold
    cases hold
    rfl
  · exact (hrecovered hlog).waiting (World.pendingTurn_recover _)

/-- The session in memory becomes another, or is saved. -/
theorem replace (h : Coherent s) {memory : Memory}
    (hmemory : ∀ kept, memory.kept? = some kept → s.Survives kept)
    (hlive : ∀ kept, memory = .live kept → (s.world kept).Waiting []) :
    Coherent { s with memory := memory } where
  fenced kept hkept := h.fenced kept (hkept.elim (hmemory kept) .inr)
  sound hlog kept hkept := h.sound hlog kept (hkept.elim (hmemory kept) .inr)
  live := hlive
  asked := h.asked
  once := h.once

theorem step (h : Coherent s) {i : Input} (hstep : s.step i = some s') : Coherent s' := by
  cases i with
  | lost =>
    cases hstep
    exact h.replace nofun nofun
  | restart =>
    simp only [State.step] at hstep
    split at hstep
    · next hsaved =>
      cases hstep
      refine h.replace (fun kept hkept => ?_) nofun
      cases hkept
      exact .inr hsaved
    · cases hstep
  | resume failure =>
    obtain ⟨kept, hkept, rfl⟩ := Option.map_eq_some_iff.1 hstep
    cases failure with
    | none => exact h.resume hkept
    | some failure => exact h
  | persist =>
    obtain ⟨kept, hkept, rfl⟩ := Option.map_eq_some_iff.1 hstep
    obtain ⟨hfenced, hsound⟩ := h.inMemory hkept
    refine .of_world hfenced.save (fun hlog => (hsound hlog).save) (fun old hold => ?_)
      fun old hold => ?_
    · exact Option.some.inj (hold.symm.trans hkept)
    · obtain rfl := Option.some.inj (hkept.symm.trans (congrArg Memory.kept? hold))
      exact h.live kept hold
  | configure model contextWindow =>
    simp only [State.step] at hstep
    split at hstep
    · next kept hmemory =>
      cases hstep
      obtain ⟨hfenced, hsound⟩ := h.inMemory (congrArg Memory.kept? hmemory)
      let f (session : RuntimeSession) : RuntimeSession :=
        { session with model := model, contextWindow := contextWindow }
      refine .of_world (w := (s.world kept).update f) (hfenced.update fun _ hturn => hturn)
        (fun hlog => ?_) (fun old hold => ?_) fun old hold => ?_
      · exact (hsound hlog).update ((hsound hlog).kept.same rfl rfl (.inr rfl))
      · cases hold
        rfl
      · exact h.live kept hmemory
    · cases hstep
  | deliver R turnId prompt attachments replies =>
    obtain ⟨kept, hkept, rfl⟩ := Option.map_eq_some_iff.1 hstep
    exact h.deliver hkept prompt attachments replies
  | compact R id replies =>
    simp only [State.step] at hstep
    split at hstep
    · next kept hmemory =>
      cases hstep
      exact h.compact hmemory id replies
    · cases hstep

theorem init (id providerId model instructions : String) :
    Coherent (.init id providerId model instructions) := by
  have hturns : (RuntimeSession.new id providerId model instructions).turns = [] := rfl
  have hwaiting : (RuntimeSession.new id providerId model instructions).waiting? = some [] := rfl
  refine .of_world
    (w := ⟨none, ⟨.new id providerId model instructions, []⟩, []⟩) ?_ (fun _ => ?_) ?_ ?_
  · exact ⟨nofun, List.forall_mem_nil _, ⟨List.nodup_nil, List.forall_mem_nil _⟩, nofun,
      List.nodup_nil⟩
  · exact ⟨⟨[], hwaiting, fun hne => absurd rfl hne, nofun⟩, nofun, List.forall_mem_nil _,
      List.nodup_nil⟩
  · intro kept hkept
    cases hkept
    rfl
  · exact fun _ _ _ => hwaiting

/-- Whatever is delivered, lost and restarted, the state stays coherent. -/
theorem run {id providerId model instructions : String} {is : List Input}
    (h : system.Run (.init id providerId model instructions) is s) : Coherent s :=
  h.invariant (fun hstep h => h.step hstep) (init id providerId model instructions)

end Coherent

/-! ## Every call is answered -/

/-- Unless a recovery takes an open call for a settled one, whatever a provider is asked with has
each call of a message answered directly behind it, and no other result. -/
theorem requests_answered {id providerId model instructions : String} {is : List Input}
    (h : system.Run (.init id providerId model instructions) is s) (hlog : Unambiguous s.log) :
    ∀ effect ∈ s.log, ∀ request, effect.request? = some request →
      Exchange.Answered role request.history :=
  (Coherent.run h).asked hlog

/-- A runtime without tools. -/
def bareRuntime : AgentRuntime where
  tools := ⟨[], List.nodup_nil⟩
  compactionThresholdPercent := 80
  directImageInput := true
  visionEnabled := false
  vision := false
  imageTokens _ _ _ := 0
  externalTools := none

/-- A point where nothing has happened. -/
def silence : Reply := {}

/-- A message with a call that has this id. -/
def callReply (id : String) : Reply :=
  { inference := .ok { toolCalls := [{ id := id, name := "bash", arguments := .obj [] }] } }

/-- A turn whose second call is still open when the process is lost, a restart, and another turn. -/
def lossAtCall (first second : String) : List Input :=
  [.deliver bareRuntime "t1" "hi" []
      (List.replicate 5 silence ++ [callReply first] ++ List.replicate 7 silence
        ++ [callReply second, silence]),
    .restart,
    .deliver bareRuntime "t2" "go on" [] (List.replicate 5 silence)]

namespace State

def perform (s : State) (is : List Input) : Option State := is.foldlM State.step s

theorem run_of_perform {is : List Input} (h : s.perform is = some s') : system.Run s is s' := by
  induction is generalizing s with
  | nil =>
    cases h
    exact .nil _
  | cons i is ih =>
    obtain ⟨next, hnext, hrest⟩ := Option.bind_eq_some_iff.1 h
    exact .cons hnext (ih hrest)

end State

theorem unambiguous_iff {log : List Effect} :
    Unambiguous log ↔ ∀ session ∈ log.filterMap (·.recovered?), session.Unambiguous := by
  simp only [Unambiguous, List.mem_filterMap]
  constructor
  · rintro h session ⟨effect, heffect, hrecovered⟩
    cases effect <;> cases hrecovered
    exact h _ heffect
  · exact fun h session hsession => h session ⟨_, hsession, rfl⟩

theorem requests_answered_lossAtCall :
    ∃ s, system.Run (.init "s" "p" "m" "i") (lossAtCall "a" "b") s
      ∧ (s.log.filterMap (·.request?)).length = 3
      ∧ ∀ effect ∈ s.log, ∀ request, effect.request? = some request →
        Exchange.Answered role request.history := by
  have hrun : ((State.init "s" "p" "m" "i").perform (lossAtCall "a" "b")).any (fun s =>
      decide (∀ session ∈ s.log.filterMap (·.recovered?), session.Unambiguous)
        && (s.log.filterMap (·.request?)).length == 3) = true := by decide +kernel
  obtain ⟨s, hs, hlog⟩ := (Option.any_eq_true _ _).1 hrun
  rw [Bool.and_eq_true, decide_eq_true_iff, beq_iff_eq] at hlog
  exact ⟨s, State.run_of_perform hs, hlog.2,
    requests_answered (State.run_of_perform hs) (unambiguous_iff.2 hlog.1)⟩

/-- A call whose id an earlier call had stays open after the recovery. -/
theorem requests_unanswered : ¬∀ (id providerId model instructions : String) (is : List Input)
    (s : State), system.Run (.init id providerId model instructions) is s →
      ∀ effect ∈ s.log, ∀ request, effect.request? = some request →
        Exchange.Answered role request.history := by
  intro hall
  have hrun : ((State.init "s" "p" "m" "i").perform (lossAtCall "a" "a")).any (fun s =>
      s.log.any fun effect => effect.request?.any fun request =>
        (Exchange.waiting? role request.history).isNone) = true := by decide +kernel
  obtain ⟨s, hs, hlog⟩ := (Option.any_eq_true _ _).1 hrun
  obtain ⟨effect, heffect, hrequest⟩ := List.any_eq_true.1 hlog
  obtain ⟨request, hrequest, hnone⟩ := (Option.any_eq_true _ _).1 hrequest
  have hanswered := hall _ _ _ _ _ s (State.run_of_perform hs) effect heffect request hrequest
  rw [hanswered.waiting?] at hnone
  cases hnone

end Nakode.Agent
