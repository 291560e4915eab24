import Nakode.Agent.Restarts

/-!
# A turn runs once

A turn that a checkpoint knows has no effects any more, whatever is delivered, lost and restarted
later (`Knows.run`); so its effects are all of one delivery. What was executed for a call of a
message ends in the conversation, with its own result or as unknown (`Ends`), unless a recovery took
an open call for a settled one.
-/

namespace Nakode.Agent

open Process Process.Proc
open ConversationItem

variable {R : AgentRuntime} {s s' : State} {w w' : World} {kept : Kept} {turn : Option String}
  {turnId : String}

/-! ## Known turns -/

/-- A checkpoint of the turn exists. -/
def State.Knows (s : State) (turnId : String) : Prop :=
  ∃ kept, s.saved = some kept ∧ turnId ∈ kept.session.turns

/-- Nothing was asked or executed for a turn. -/
def Spares (turnId : String) (log log' : List Effect) : Prop :=
  ∃ more, log' = log ++ more ∧ ∀ effect ∈ more, effect.turn? ≠ some turnId

namespace Spares

variable {log log₁ log₂ : List Effect}

protected theorem refl : Spares turnId log log :=
  ⟨[], (List.append_nil _).symm, List.forall_mem_nil _⟩

protected theorem trans (h₁ : Spares turnId log log₁) (h₂ : Spares turnId log₁ log₂) :
    Spares turnId log log₂ := by
  obtain ⟨more, rfl, hmore⟩ := h₁
  obtain ⟨next, rfl, hnext⟩ := h₂
  exact ⟨more ++ next, List.append_assoc _ _ _, List.forall_mem_append.2 ⟨hmore, hnext⟩⟩

theorem of_adds (h : Adds turn log log₁) (hturn : turn ≠ some turnId) : Spares turnId log log₁ := by
  obtain ⟨more, hlog, hmore⟩ := h
  exact ⟨more, hlog, fun effect heffect hsame => hturn (hmore effect heffect turnId hsame)⟩

end Spares

theorem Move.saved_turns (h : Fenced w) (hmove : Move R turn w w') {old : Kept}
    (hold : w.saved = some old) (hmem : turnId ∈ old.session.turns) :
    ∃ kept, w'.saved = some kept ∧ turnId ∈ kept.session.turns := by
  cases hmove with
  | save => exact ⟨w.kept, rfl, h.turns old hold turnId hmem⟩
  | recover =>
    unfold World.recover
    split <;> exact ⟨old, hold, hmem⟩
  | _ => exact ⟨old, hold, hmem⟩

theorem Moves.saved_turns (h : Fenced w) (hmoves : Moves R turn w w') {old : Kept}
    (hold : w.saved = some old) (hmem : turnId ∈ old.session.turns) :
    ∃ kept, w'.saved = some kept ∧ turnId ∈ kept.session.turns := by
  induction hmoves with
  | refl => exact ⟨old, hold, hmem⟩
  | tail hmoves hmove ih =>
    obtain ⟨kept, hkept, hkeptmem⟩ := ih
    exact hmove.saved_turns (h.moves hmoves) hkept hkeptmem

namespace State.Knows

/-- Moves for another turn on the session in memory. -/
theorem moves (h : s.Knows turnId) (hs : Coherent s) (hkept : s.memory.kept? = some kept)
    (hmoves : Moves R turn (s.world kept) w) (hturn : turn ≠ some turnId) (memory : Memory) :
    State.Knows ⟨w.saved, memory, w.log⟩ turnId ∧ Spares turnId s.log w.log := by
  obtain ⟨old, hold, hmem⟩ := h
  exact ⟨Moves.saved_turns (hs.inMemory hkept).1 hmoves hold hmem,
    .of_adds hmoves.adds hturn⟩

theorem deliver (h : s.Knows turnId) (hs : Coherent s) (hkept : s.memory.kept? = some kept)
    (other prompt : String) (attachments : List PromptAttachment) (replies : List Reply) :
    let s' := (let (result, w, _) := runTurn R other prompt attachments (s.world kept) replies
      s.delivered other result w)
    s'.Knows turnId ∧ Spares turnId s.log s'.log := by
  obtain ⟨hfenced, hsound⟩ := hs.inMemory hkept
  have htriple := triple_runTurn (R := R) hfenced hsound other prompt attachments
    (s.world kept) replies rfl
  have hturn : fenced kept.session other ≠ some turnId := by
    obtain ⟨old, hold, hmem⟩ := h
    unfold fenced
    split
    · exact Option.some_ne_none _ ∘ Eq.symm
    · next hnew =>
      rintro ⟨⟩
      exact hnew (hfenced.turns old hold _ hmem)
  generalize runTurn R other prompt attachments (s.world kept) replies = run at htriple ⊢
  obtain ⟨result, w, rest⟩ := run
  cases result with
  | ok value => exact h.moves hs hkept (htriple.emit (.returned other (.ok ())) rfl).1 hturn _
  | error stop =>
    cases stop with
    | failed error =>
      exact h.moves hs hkept (htriple.emit (.returned other (.error error)) rfl).1 hturn _
    | lost | timedOut | cut =>
      rcases htriple with rfl | ⟨hmoves, -⟩
      · exact h.moves hs hkept (.refl : Moves R none _ _) (Option.some_ne_none _).symm _
      · exact h.moves hs hkept hmoves hturn _

theorem compact (h : s.Knows turnId) (hs : Coherent s) (hmemory : s.memory = .live kept)
    (id : String) (replies : List Reply) :
    let s' := (let (result, w, _) := Agent.compact R id id .manual (s.world kept) replies
      s.finished result w)
    s'.Knows turnId ∧ Spares turnId s.log s'.log := by
  have hkept : s.memory.kept? = some kept := congrArg Memory.kept? hmemory
  have hstart : Running R (s.world kept) none 0 [] (s.world kept) :=
    ⟨.refl, nofun, nofun, nofun, hs.live kept hmemory⟩
  have htriple := triple_compact id id .manual (s.world kept) replies hstart
  generalize Agent.compact R id id .manual (s.world kept) replies = run at htriple ⊢
  obtain ⟨result, w, rest⟩ := run
  have hnone : (none : Option String) ≠ some turnId := (Option.some_ne_none _).symm
  cases result with
  | ok value => exact h.moves hs hkept htriple.moves hnone _
  | error stop => cases stop <;> exact h.moves hs hkept htriple.moves hnone _

theorem resume (h : s.Knows turnId) (hs : Coherent s) (hkept : s.memory.kept? = some kept) :
    let w := (s.world kept).recover.save
    State.Knows ⟨w.saved, .live w.kept, w.log⟩ turnId ∧ Spares turnId s.log w.log := by
  obtain ⟨old, hold, hmem⟩ := h
  have hturns := (hs.inMemory hkept).1.recover
  refine ⟨⟨_, rfl, hturns.turns old ?_ turnId hmem⟩, ?_⟩
  · unfold World.recover
    split <;> exact hold
  · change Spares turnId s.log (s.world kept).recover.log
    unfold World.recover
    split
    · exact .refl
    · exact ⟨[_], rfl, List.forall_mem_singleton.2 nofun⟩

theorem step (h : s.Knows turnId) (hs : Coherent s) {i : Input} (hstep : s.step i = some s') :
    s'.Knows turnId ∧ Spares turnId s.log s'.log := by
  cases i with
  | lost =>
    cases hstep
    exact ⟨h, .refl⟩
  | restart =>
    simp only [State.step] at hstep
    split at hstep
    · cases hstep
      exact ⟨h, .refl⟩
    · cases hstep
  | resume failure =>
    obtain ⟨kept, hkept, rfl⟩ := Option.map_eq_some_iff.1 hstep
    cases failure with
    | none => exact h.resume hs hkept
    | some failure => exact ⟨h, .refl⟩
  | persist =>
    obtain ⟨kept, hkept, rfl⟩ := Option.map_eq_some_iff.1 hstep
    obtain ⟨old, hold, hmem⟩ := h
    exact ⟨⟨kept, rfl, (hs.inMemory hkept).1.turns old hold turnId hmem⟩, .refl⟩
  | configure model contextWindow =>
    simp only [State.step] at hstep
    split at hstep
    · cases hstep
      exact ⟨h, .refl⟩
    · cases hstep
  | deliver R other prompt attachments replies =>
    obtain ⟨kept, hkept, rfl⟩ := Option.map_eq_some_iff.1 hstep
    exact h.deliver hs hkept other prompt attachments replies
  | compact R id replies =>
    simp only [State.step] at hstep
    split at hstep
    · next kept hmemory =>
      cases hstep
      exact h.compact hs hmemory id replies
    · cases hstep

/-- A turn that a checkpoint knows has no effects any more. -/
theorem run (h : s.Knows turnId) (hs : Coherent s) {is : List Input}
    (hrun : system.Run s is s') : Spares turnId s.log s'.log :=
  hrun.rel (Q := fun s => Coherent s ∧ s.Knows turnId) (R := fun s s' => Spares turnId s.log s'.log)
    (fun _ => .refl) (fun h₁ h₂ => h₁.trans h₂)
    (fun hstep ⟨hs, h⟩ => ⟨⟨hs.step hstep, (h.step hs hstep).1⟩, (h.step hs hstep).2⟩) ⟨hs, h⟩

end State.Knows

/-! ## Runs -/

/-- Where no turn is pending, whatever was executed for a call of a message stands answered at the
call's place, with its own result or as unknown. -/
def Ends (log : List Effect) (session : RuntimeSession) : Prop :=
  session.pendingTurn = none → ∀ site call, (site, call) ∈ executions log →
    site.slot.sequence = none →
      ∃ result, session.historyItems[site.slot.position]? = some (.toolResult result)
        ∧ Explains log site call result

/-- What runs of turns leave, whatever is delivered again. -/
structure RunsOnce (s : State) : Prop where
  /-- A turn's prompt was appended once to what has survived. -/
  prompts : ∀ kept, s.Survives kept → kept.prompts.Nodup
  /-- A turn that a checkpoint knows neither infers nor executes anything later. -/
  known : ∀ turnId, s.Knows turnId → ∀ is s', system.Run s is s' → Spares turnId s.log s'.log
  /-- Nothing was executed twice for a call. -/
  once : ((executions s.log).map fun e => (e.1.turnId, e.1.slot)).Nodup
  /-- A completed turn is answered at once, and nothing changes. -/
  completed : ∀ kept turnId, s.memory.kept? = some kept →
    turnId ∈ kept.session.completedTurns → ∀ R prompt attachments replies,
      s.step (.deliver R turnId prompt attachments replies)
        = some (s.after ((s.world kept).emit (.returned turnId (.ok ()))))

theorem Coherent.runsOnce (h : Coherent s) : RunsOnce s where
  prompts kept hkept := (h.fenced kept hkept).prompts.nodup
  known turnId hturn is s' hrun := hturn.run h hrun
  once := h.once
  completed kept turnId hkept hdone R prompt attachments replies := by
    have hrun : runTurn R turnId prompt attachments (s.world kept) replies
        = (.ok (), s.world kept, replies) := by
      change (if kept.session.completedTurns.contains turnId then _ else _ : Native Unit) _ _ = _
      rw [if_pos (List.contains_iff_mem.2 hdone)]
      rfl
    simp only [State.step, hkept, Option.map_some]
    change some (let (result, w, _) := runTurn R turnId prompt attachments (s.world kept) replies
      s.delivered turnId result w) = _
    rw [hrun]
    rfl

theorem Coherent.ends (h : Coherent s) (hlog : Unambiguous s.log) (hkept : s.Survives kept) :
    Ends s.log kept.session := by
  intro hpending site call hmem hseq
  obtain ⟨keys, hkeys, -, hall⟩ := (h.sound hlog kept hkept).kept
  obtain rfl := Option.some.inj (((h.sound hlog kept hkept).waiting hpending).symm.trans hkeys)
  have haccounted := hall site call hmem
  exact haccounted.answered hseq (by simpa using haccounted.below)

/-- A turn runs at most once: what recoveries have to do with it is that none takes an open call for
a settled one. -/
theorem turns_run_once {id providerId model instructions : String} {is : List Input}
    (h : system.Run (.init id providerId model instructions) is s) :
    RunsOnce s ∧ (Unambiguous s.log → ∀ kept, s.Survives kept →
      Accounts s.log kept.session ∧ Ends s.log kept.session) :=
  have hs := Coherent.run h
  ⟨hs.runsOnce, fun hlog kept hkept => ⟨(hs.sound hlog kept hkept).kept, hs.ends hlog hkept⟩⟩

/-- A tool that accepts everything. -/
def shell : Tool where
  definition := ⟨"bash", "", .obj []⟩
  summarize _ := ""
  prepareAndValidate := .ok
  available := true
  concurrency := .exclusive

def shellRuntime : AgentRuntime :=
  { bareRuntime with tools := ⟨[shell], List.nodup_singleton _⟩ }

/-- The process is lost while the second call of a turn is executed, and another turn follows. -/
def lossInTool (first second : String) : List Input :=
  [.deliver shellRuntime "t1" "hi" []
      (List.replicate 5 silence ++ [callReply first] ++ List.replicate 9 silence
        ++ [callReply second] ++ List.replicate 4 silence),
    .restart,
    .deliver shellRuntime "t2" "go on" [] (List.replicate 14 silence)]

theorem turns_run_once_lossInTool :
    ∃ s, system.Run (.init "s" "p" "m" "i") (lossInTool "a" "b") s
      ∧ (executions s.log).length = 2 ∧ RunsOnce s
      ∧ ∀ kept, s.Survives kept → Accounts s.log kept.session ∧ Ends s.log kept.session := by
  have hrun : ((State.init "s" "p" "m" "i").perform (lossInTool "a" "b")).any (fun s =>
      decide (∀ session ∈ s.log.filterMap (·.recovered?), session.Unambiguous)
        && (executions s.log).length == 2) = true := by decide +kernel
  obtain ⟨s, hs, hlog⟩ := (Option.any_eq_true _ _).1 hrun
  rw [Bool.and_eq_true, decide_eq_true_iff, beq_iff_eq] at hlog
  have honce := turns_run_once (State.run_of_perform hs)
  exact ⟨s, State.run_of_perform hs, hlog.2, honce.1, honce.2 (unambiguous_iff.2 hlog.1)⟩

/-- No position of the conversation has a result for an execution. -/
def unended (s : State) (kept : Kept) : Bool :=
  kept.session.pendingTurn.isNone && (executions s.log).any fun e =>
    e.1.slot.sequence.isNone && match kept.session.historyItems[e.1.slot.position]? with
      | some (.toolResult _) => false
      | _ => true

/-- A call that was executed and has the id of an earlier one never gets a result. -/
theorem execution_unended : ¬∀ (id providerId model instructions : String) (is : List Input)
    (s : State), system.Run (.init id providerId model instructions) is s →
      ∀ kept, s.Survives kept → Ends s.log kept.session := by
  intro hall
  have hrun : ((State.init "s" "p" "m" "i").perform (lossInTool "a" "a")).any (fun s =>
      s.memory.kept?.any (unended s)) = true := by decide +kernel
  obtain ⟨s, hs, hkept⟩ := (Option.any_eq_true _ _).1 hrun
  obtain ⟨kept, hkept, hunended⟩ := (Option.any_eq_true _ _).1 hkept
  have hends := hall _ _ _ _ _ s (State.run_of_perform hs) kept (.inl hkept)
  rw [unended, Bool.and_eq_true, Option.isNone_iff_eq_none] at hunended
  obtain ⟨hpending, hunended⟩ := hunended
  obtain ⟨⟨site, call⟩, hmem, hnot⟩ := List.any_eq_true.1 hunended
  rw [Bool.and_eq_true, Option.isNone_iff_eq_none] at hnot
  obtain ⟨result, hitem, -⟩ := hends hpending site call hmem hnot.1
  simp [hitem] at hnot

end Nakode.Agent
