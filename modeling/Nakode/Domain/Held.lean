import Nakode.Domain.History

/-!
# What the reducer does with the prompts it holds

`Sound` is the invariant of the places: at most one prompt is on its way to a turn and none while a
turn runs, no identity is queued twice or queued and elsewhere, and a reserved redirect is of the
prompt on its way. Each function that hands prompts on keeps it, and what it does with the held
prompts is stated by counting identities.
-/

namespace Nakode.Domain.DomainState

variable {s s' : DomainState}

structure Sound (s : DomainState) : Prop where
  creating : s.pendingSessionPrompt.isSome → s.creatingSession = true
  alone : s.pendingSessionPrompt.isSome → s.startingTurn = none ∧ s.activeTurn = none
  unstarted : s.startingTurn.isSome → s.activeTurn = none
  distinct : s.held.Nodup
  redirect : ∀ r, s.redirectStart = some r → r.prompt.id ∈ s.pendingIds ++ s.startingIds
  recoverable : ∀ r, s.recoverablePrompt = some r →
    ∃ b, s.replayBlockedPrompt = some b ∧ b.id = r.id

/-- A prompt that has just left its place can be begun. -/
structure Poised (s : DomainState) (promptId : String) : Prop where
  pending : s.pendingSessionPrompt = none
  starting : s.startingTurn = none
  active : s.activeTurn = none
  distinct : (promptId :: s.held).Nodup
  redirect : ∀ r, s.redirectStart = some r → r.prompt.id = promptId
  recoverable : ∀ r, s.recoverablePrompt = some r →
    ∃ b, s.replayBlockedPrompt = some b ∧ b.id = r.id

/-! ### Counting identities -/

theorem count_held (s : DomainState) (x : String) :
    s.held.count x = s.queuedIds.count x + s.pendingIds.count x + s.startingIds.count x +
      s.blockedIds.count x := by
  simp only [held, List.count_append]

theorem count_cons_eq (x y : String) (xs : List String) :
    (y :: xs).count x = xs.count x + [y].count x := by
  rw [show y :: xs = [y] ++ xs from rfl, List.count_append, Nat.add_comm]

theorem nodup_of_count_le {xs ys : List String} (hxs : xs.Nodup)
    (hcount : ∀ x, ys.count x ≤ xs.count x) : ys.Nodup :=
  List.nodup_iff_count_le_one.2 fun x =>
    Nat.le_trans (hcount x) (List.nodup_iff_count_le_one.1 hxs x)

theorem nodup_of_count_cons {xs ys : List String} {y : String} (hxs : (y :: xs).Nodup)
    (hcount : ∀ x, ys.count x = xs.count x + [y].count x) : ys.Nodup := by
  refine nodup_of_count_le hxs fun x => ?_
  exact Nat.le_of_eq (by rw [hcount, count_cons_eq x y xs])

theorem Sound.queue (hs : s.Sound) : s.queuedIds.Nodup :=
  hs.distinct.sublist (by simp only [held, List.append_assoc]; exact List.sublist_append_left _ _)

/-- A prompt outside the queue is not queued. -/
theorem Sound.apart (hs : s.Sound) {x : String}
    (hx : x ∈ s.pendingIds ++ s.startingIds ++ s.blockedIds) : x ∉ s.queuedIds := by
  have hdistinct := hs.distinct
  simp only [held, List.append_assoc] at hdistinct
  rw [List.append_assoc] at hx
  exact fun hq => (List.nodup_append.1 hdistinct).2.2 x hq x hx rfl

/-- `s'` differs from `s` in nothing that the places of prompts depend on. -/
structure SamePlaces (s s' : DomainState) : Prop where
  queuedIds : s'.queuedIds = s.queuedIds
  pendingSessionPrompt : s'.pendingSessionPrompt = s.pendingSessionPrompt
  startingTurn : s'.startingTurn = s.startingTurn
  replayBlockedPrompt : s'.replayBlockedPrompt = s.replayBlockedPrompt
  recoverablePrompt : s'.recoverablePrompt = s.recoverablePrompt
  redirectStart : s'.redirectStart = s.redirectStart
  creatingSession : s'.creatingSession = s.creatingSession
  activeTurn : s'.activeTurn.isSome = s.activeTurn.isSome

theorem SamePlaces.refl (s : DomainState) : SamePlaces s s := by constructor <;> rfl

theorem SamePlaces.of_switches (h : Switches s s') : SamePlaces s s' :=
  ⟨by simp only [DomainState.queuedIds, h.queue], h.pendingSessionPrompt, h.startingTurn,
    h.replayBlockedPrompt, h.recoverablePrompt, h.redirectStart, h.creatingSession,
    by rw [h.activeTurn]⟩

theorem SamePlaces.held (h : SamePlaces s s') : s'.held = s.held := by
  simp [DomainState.held, pendingIds, startingIds, blockedIds, h.queuedIds,
    h.pendingSessionPrompt, h.startingTurn, h.replayBlockedPrompt]

theorem SamePlaces.sound (h : SamePlaces s s') (hs : s.Sound) : s'.Sound := by
  have hactive : ∀ {t : DomainState}, t.activeTurn = none ↔ t.activeTurn.isSome = false := by simp
  constructor
  · rw [h.pendingSessionPrompt, h.creatingSession]; exact hs.creating
  · rw [h.pendingSessionPrompt, h.startingTurn, hactive, h.activeTurn, ← hactive]; exact hs.alone
  · rw [h.startingTurn, hactive, h.activeTurn, ← hactive]; exact hs.unstarted
  · rw [h.held]; exact hs.distinct
  · simpa only [pendingIds, startingIds, h.redirectStart, h.pendingSessionPrompt,
      h.startingTurn] using hs.redirect
  · simpa only [h.recoverablePrompt, h.replayBlockedPrompt] using hs.recoverable

theorem Poised.samePlaces {promptId : String} (h : SamePlaces s s') (hp : s.Poised promptId) :
    s'.Poised promptId := by
  have hactive : ∀ {t : DomainState}, t.activeTurn = none ↔ t.activeTurn.isSome = false := by simp
  constructor
  · rw [h.pendingSessionPrompt]; exact hp.pending
  · rw [h.startingTurn]; exact hp.starting
  · rw [hactive, h.activeTurn, ← hactive]; exact hp.active
  · rw [h.held]; exact hp.distinct
  · simpa only [h.redirectStart] using hp.redirect
  · simpa only [h.recoverablePrompt, h.replayBlockedPrompt] using hp.recoverable

/-! ## The place of a redirected prompt -/

theorem redirectIndex_le (pending : RedirectStart) (queue : List QueuedPrompt) :
    redirectIndex pending queue ≤ queue.length := by
  have hposition : ∀ {id i}, queue.findIdx? (fun p => p.id == id) = some i → i < queue.length :=
    fun h => (List.findIdx?_eq_some_iff_findIdx_eq.1 h).1
  unfold redirectIndex
  dsimp only
  cases hsuccessor : pending.successorIds.findSome?
      fun id => queue.findIdx? fun p => p.id == id with
  | some i =>
    obtain ⟨_, _, h⟩ := List.exists_of_findSome?_eq_some hsuccessor
    have hlt := hposition h
    simp only [Option.getD_some]
    omega
  | none =>
    cases hpredecessor : pending.predecessorIds.reverse.findSome?
        fun id => (queue.findIdx? fun p => p.id == id).map (· + 1) with
    | some i =>
      obtain ⟨_, _, h⟩ := List.exists_of_findSome?_eq_some hpredecessor
      obtain ⟨j, hj, rfl⟩ := Option.map_eq_some_iff.1 h
      have hlt := hposition hj
      simp only [Option.getD_none, Option.getD_some]
      omega
    | none => simp

/-- A redirected prompt that is not queued goes back to the queue. -/
theorem queuedIds_restoreRedirectStart {pending : RedirectStart}
    (hnew : pending.prompt.id ∉ s.queuedIds) :
    ((s.restoreRedirectStart pending).queuedIds).Perm (pending.prompt.id :: s.queuedIds) := by
  have hqueue : s.queue.any (·.id == pending.prompt.id) = false := by
    simpa [queuedIds] using hnew
  simp only [restoreRedirectStart, hqueue, Bool.false_eq_true, if_false, queuedIds]
  exact (List.perm_insertIdx _ _ (redirectIndex_le pending s.queue)).map QueuedPrompt.id

/-! ## Beginning a prompt -/

/-- A prompt that was put back is in the queue again. -/
theorem putBack_queue {prompt : QueuedPrompt} (h : s.Poised prompt.id) :
    (s.putBack prompt).queuedIds.Perm (prompt.id :: s.queuedIds) ∧
      (s.putBack prompt).redirectStart = none := by
  unfold putBack takeRedirectStart
  cases hredirect : s.redirectStart with
  | none => simp [isRedirected, hredirect, queuedIds]
  | some r =>
    have hid := h.redirect r hredirect
    have hnew : r.prompt.id ∉ { s with redirectStart := none }.queuedIds := by
      rw [hid]
      exact fun hq => (List.nodup_cons.1 h.distinct).1 (List.mem_append_left _
        (List.mem_append_left _ (List.mem_append_left _ hq)))
    have hperm := queuedIds_restoreRedirectStart hnew
    simp only [isRedirected, hredirect, Option.any_some, hid, beq_self_eq_true, if_true]
    rw [hid] at hperm
    refine ⟨hperm, ?_⟩
    unfold restoreRedirectStart
    split <;> rfl

/-- Putting a prompt back leaves all places but the queue alone. -/
theorem putBack_others (s : DomainState) (prompt : QueuedPrompt) :
    (s.putBack prompt).pendingSessionPrompt = s.pendingSessionPrompt ∧
      (s.putBack prompt).startingTurn = s.startingTurn ∧
      (s.putBack prompt).replayBlockedPrompt = s.replayBlockedPrompt ∧
      (s.putBack prompt).recoverablePrompt = s.recoverablePrompt := by
  unfold putBack takeRedirectStart restoreRedirectStart
  split
  · split
    · exact ⟨rfl, rfl, rfl, rfl⟩
    · split <;> exact ⟨rfl, rfl, rfl, rfl⟩
  · exact ⟨rfl, rfl, rfl, rfl⟩

theorem putBack_sound {prompt : QueuedPrompt} (h : s.Poised prompt.id) :
    (s.putBack prompt).Sound ∧
      ∀ x, (s.putBack prompt).held.count x = s.held.count x + [prompt.id].count x := by
  obtain ⟨hqueue, hredirect⟩ := putBack_queue h
  obtain ⟨hpending, hstarting, hblocked, hrecoverable⟩ := s.putBack_others prompt
  rw [h.pending] at hpending
  rw [h.starting] at hstarting
  have hcount : ∀ x, (s.putBack prompt).held.count x = s.held.count x + [prompt.id].count x := by
    intro x
    have hqueued := hqueue.count_eq x
    rw [count_cons_eq] at hqueued
    simp only [count_held, hqueued, pendingIds, startingIds, blockedIds, hpending, hstarting,
      hblocked, h.pending, h.starting]
    omega
  refine ⟨⟨?_, ?_, ?_, nodup_of_count_cons h.distinct hcount, ?_, ?_⟩, hcount⟩
  · simp [hpending]
  · simp [hpending]
  · simp [hstarting]
  · simp [hredirect]
  · rw [hrecoverable, hblocked]
    exact h.recoverable

/-- A prompt that is handed on is on its way to a turn. -/
theorem dispatch_sound {prompt : OutgoingPrompt} (h : s.Poised prompt.id) :
    (s.dispatchPrompt prompt).1.Sound ∧
      ∀ x, (s.dispatchPrompt prompt).1.held.count x = s.held.count x + [prompt.id].count x := by
  cases hsession : s.providerSessionId with
  | some providerSessionId =>
    have hplaces : SamePlaces { s with startingTurn := some prompt } (s.dispatchPrompt prompt).1 := by
      simp only [dispatchPrompt, recordOutgoingUserPrompt, hsession]
      constructor <;> rfl
    have hcount : ∀ x, { s with startingTurn := some prompt }.held.count x =
        s.held.count x + [prompt.id].count x := by
      intro x
      simp only [count_held, pendingIds, startingIds, h.starting, queuedIds, blockedIds,
        Option.map_some, Option.map_none, Option.toList_some, Option.toList_none, List.count_nil]
      omega
    have hsound : Sound { s with startingTurn := some prompt } := by
      refine ⟨?_, ?_, fun _ => h.active, nodup_of_count_cons h.distinct hcount, fun r hr => ?_,
        h.recoverable⟩
      · simp [h.pending]
      · simp [h.pending]
      · simpa [pendingIds, h.pending, startingIds] using h.redirect r hr
    exact ⟨hplaces.sound hsound, fun x => by rw [hplaces.held]; exact hcount x⟩
  | none =>
    have hplaces : SamePlaces { s with creatingSession := true, pendingSessionPrompt := some prompt }
        (s.dispatchPrompt prompt).1 := by
      simp only [dispatchPrompt, recordOutgoingUserPrompt, hsession]
      constructor <;> rfl
    have hcount : ∀ x,
        { s with creatingSession := true, pendingSessionPrompt := some prompt }.held.count x =
          s.held.count x + [prompt.id].count x := by
      intro x
      simp only [count_held, pendingIds, startingIds, h.pending, queuedIds, blockedIds,
        Option.map_some, Option.map_none, Option.toList_some, Option.toList_none, List.count_nil]
      omega
    have hsound : Sound { s with creatingSession := true, pendingSessionPrompt := some prompt } := by
      refine ⟨fun _ => rfl, fun _ => ⟨h.starting, h.active⟩, ?_,
        nodup_of_count_cons h.distinct hcount, fun r hr => ?_, h.recoverable⟩
      · simp [h.starting]
      · simpa [pendingIds, h.starting, startingIds] using h.redirect r hr
    exact ⟨hplaces.sound hsound, fun x => by rw [hplaces.held]; exact hcount x⟩

/-- A prompt that is begun is held in one more place, and nothing else changes place. -/
theorem begin_sound {prompt : QueuedPrompt} (h : s.Poised prompt.id) :
    (s.beginPrompt prompt).1.Sound ∧
      ∀ x, (s.beginPrompt prompt).1.held.count x = s.held.count x + [prompt.id].count x := by
  obtain ⟨s₁, hswitch, -, hcases⟩ := s.begin_cases prompt
  have hplaces := SamePlaces.of_switches hswitch
  rw [← hplaces.held]
  rcases hcases with heq | heq <;> rw [heq]
  · exact putBack_sound (h.samePlaces hplaces)
  · exact dispatch_sound (h.samePlaces hplaces)

/-! ### The slot of a retry -/

theorem replayBlockedPrompt_dispatchPrompt (s : DomainState) (prompt : OutgoingPrompt) :
    (s.dispatchPrompt prompt).1.replayBlockedPrompt = s.replayBlockedPrompt := by
  unfold dispatchPrompt
  dsimp only
  split <;> rfl

theorem replayBlockedPrompt_beginPrompt (s : DomainState) (prompt : QueuedPrompt) :
    (s.beginPrompt prompt).1.replayBlockedPrompt = s.replayBlockedPrompt := by
  obtain ⟨s₁, hswitch, -, heq | heq⟩ := s.begin_cases prompt <;> rw [heq]
  · exact (s₁.putBack_others prompt).2.2.1.trans hswitch.replayBlockedPrompt
  · exact (replayBlockedPrompt_dispatchPrompt s₁ _).trans hswitch.replayBlockedPrompt

theorem replayBlockedPrompt_drainQueue (s : DomainState) :
    s.drainQueue.1.replayBlockedPrompt = s.replayBlockedPrompt := by
  rcases s.drain_cases with heq | ⟨prompt, queue, -, -, -, -, heq⟩ <;> rw [heq]
  exact replayBlockedPrompt_beginPrompt _ prompt

/-! ## An idle session -/

/-- In an idle session no prompt is on its way to a turn. -/
theorem idle_places (hs : s.Sound) (hidle : s.hasActiveWork = false) :
    s.pendingSessionPrompt = none ∧ s.startingTurn = none ∧ s.activeTurn = none ∧
      s.redirectStart = none := by
  simp only [hasActiveWork, Bool.or_eq_false_iff, Option.isSome_eq_false_iff,
    Option.isNone_iff_eq_none] at hidle
  obtain ⟨⟨⟨⟨⟨⟨hcreating, -⟩, hstarting⟩, hactive⟩, -⟩, -⟩, -⟩ := hidle
  have hpending : s.pendingSessionPrompt = none := by
    cases hp : s.pendingSessionPrompt with
    | none => rfl
    | some p =>
      have htrue := hs.creating (by simp [hp])
      simp [hcreating] at htrue
  refine ⟨hpending, hstarting, hactive, ?_⟩
  cases hr : s.redirectStart with
  | none => rfl
  | some r => simpa [pendingIds, startingIds, hpending, hstarting] using hs.redirect r hr

/-- Draining the queue keeps every prompt. -/
theorem drain_sound (hs : s.Sound) :
    s.drainQueue.1.Sound ∧ ∀ x, s.drainQueue.1.held.count x = s.held.count x := by
  rcases s.drain_cases with heq | ⟨prompt, queue, hqueue, -, -, hbusy, heq⟩
  · rw [heq]
    exact ⟨hs, fun _ => rfl⟩
  · rw [heq]
    simp only [isBusy, Bool.or_eq_false_iff, Option.isSome_eq_false_iff,
      Option.isNone_iff_eq_none] at hbusy
    obtain ⟨hblocked, hidle⟩ := hbusy
    obtain ⟨hpending, hstarting, hactive, hredirect⟩ := idle_places hs hidle
    have hids : s.queuedIds = prompt.id :: queue.map QueuedPrompt.id := by simp [queuedIds, hqueue]
    have hheld : s.held = prompt.id :: { s with queue }.held := by
      simp only [held, hids, List.cons_append]
      rfl
    have hpoised : { s with queue }.Poised prompt.id :=
      ⟨hpending, hstarting, hactive, hheld ▸ hs.distinct, by simp [hredirect], hs.recoverable⟩
    obtain ⟨hsound, hcount⟩ := begin_sound hpoised
    refine ⟨hsound, fun x => ?_⟩
    rw [hcount, hheld]
    exact (count_cons_eq x prompt.id _).symm

/-! ## Commands -/

/-- What is known of an identity that no prompt is known under. -/
theorem not_held_of_unknown (hs : s.Sound) {promptId text : String}
    {attachments : List PromptAttachment} (hblocked : s.blockedReplay promptId = none)
    (hunknown : s.promptIdentityMatches promptId text attachments = none) :
    promptId ∉ s.held := by
  have hnotBlocked : promptId ∉ s.blockedIds := by
    intro hmem
    obtain ⟨b, hb, hid⟩ : ∃ b, s.replayBlockedPrompt = some b ∧ b.id = promptId := by
      simpa [blockedIds] using hmem
    simp [blockedReplay, hb, hid] at hblocked
  have hrecoverable : s.recoverablePrompt.filter (·.id == promptId) = none := by
    rw [Option.filter_eq_none_iff]
    intro r hr hid
    obtain ⟨b, hb, hbr⟩ := hs.recoverable r hr
    refine hnotBlocked ?_
    simp only [beq_iff_eq] at hid
    simp [blockedIds, hb, hbr, hid]
  unfold promptIdentityMatches at hunknown
  rw [hrecoverable] at hunknown
  dsimp only at hunknown
  split at hunknown
  · cases hunknown
  next hqueue =>
    split at hunknown
    · cases hunknown
    next hway =>
      have hqueued : promptId ∉ s.queuedIds := by
        simpa [queuedIds] using hqueue
      have ⟨hstarting, hpending⟩ : s.startingTurn.filter (·.id == promptId) = none ∧
          s.pendingSessionPrompt.filter (·.id == promptId) = none := by
        cases hs : s.startingTurn.filter (·.id == promptId) <;> rw [hs] at hway
        · exact ⟨rfl, hway⟩
        · cases hway
      rw [Option.filter_eq_none_iff] at hstarting hpending
      simp only [held, List.mem_append, not_or]
      refine ⟨⟨⟨hqueued, ?_⟩, ?_⟩, hnotBlocked⟩
      · simpa [pendingIds] using hpending
      · simpa [startingIds] using hstarting

theorem known_eq_false_iff {promptId text : String} {attachments : List PromptAttachment} :
    s.known promptId text attachments = false ↔
      s.blockedReplay promptId = none ∧ s.promptIdentityMatches promptId text attachments = none := by
  simp [known]

/-- What a command that brings a prompt can do: it is refused, or the prompt was settled before, or
the blocked prompt is begun again, or a prompt that is not held is taken on. -/
inductive Brings (s : DomainState) (promptId : String) (known : Prop) :
    Except DomainCommandError (List Effect) × DomainState → Prop
  | refused (e : DomainCommandError) : Brings s promptId known (.error e, s)
  | settled : known → Brings s promptId known (.ok [], s)
  | retried {effects : List Effect} {s' : DomainState} : s'.Sound → s.blockedIds = [promptId] →
      s'.replayBlockedPrompt = none → (∀ x, s'.held.count x = s.held.count x) →
      Brings s promptId known (.ok effects, s')
  | taken {effects : List Effect} {s' : DomainState} : s'.Sound → ¬ known → promptId ∉ s.held →
      s'.replayBlockedPrompt = s.replayBlockedPrompt →
      (∀ x, s'.held.count x = s.held.count x + [promptId].count x) →
      Brings s promptId known (.ok effects, s')

theorem submit_sound (hs : s.Sound) (promptId text : String) (attachments : List PromptAttachment)
    (sourceTransport : Option String) (suppress : Bool)
    (hnew : suppress = false → promptId ∉ s.held) :
    Brings s promptId (suppress = true ∧ s.known promptId text attachments = true)
      (s.submitPromptWithIdentityPolicy promptId text attachments sourceTransport suppress) := by
  rcases s.submit_cases promptId text attachments sourceTransport suppress with
    ⟨e, heq⟩ | ⟨heq, hsettled⟩ | ⟨hidle, hidentity, heq⟩
  · rw [heq]; exact .refused e
  · rw [heq]; exact .settled hsettled
  rw [heq]
  dsimp only
  obtain ⟨hpending, hstarting, hactive, hredirect⟩ := idle_places hs hidle.idle
  have hcleared : ∀ x, s.held.count x =
      { s with replayBlockedPrompt := none, recoverablePrompt := none }.held.count x +
        s.blockedIds.count x := by
    intro x
    simp [count_held, queuedIds, pendingIds, startingIds, blockedIds]
  have hslot : (DomainState.beginPrompt { s with
      replayBlockedPrompt := none, recoverablePrompt := none }
        (submitted promptId text attachments sourceTransport)).1.replayBlockedPrompt = none :=
    replayBlockedPrompt_beginPrompt _ _
  rcases hidentity with ⟨hblocked, hunknown⟩ | ⟨b, hb, rfl⟩
  · have hknown : ¬(suppress = true ∧ s.known promptId text attachments = true) := by
      rintro ⟨hsuppress, hknown⟩
      rw [known_eq_false_iff.2 ⟨by simp [blockedReplay, hblocked], hunknown hsuppress⟩] at hknown
      cases hknown
    have hheld : promptId ∉ s.held := by
      cases suppress with
      | false => exact hnew rfl
      | true => exact not_held_of_unknown hs (by simp [blockedReplay, hblocked]) (hunknown rfl)
    have hsame : { s with replayBlockedPrompt := none, recoverablePrompt := none }.held =
        s.held := by simp [held, queuedIds, pendingIds, startingIds, blockedIds, hblocked]
    have hpoised : { s with replayBlockedPrompt := none, recoverablePrompt := none }.Poised
        (submitted promptId text attachments sourceTransport).id :=
      ⟨hpending, hstarting, hactive, hsame ▸ List.nodup_cons.2 ⟨hheld, hs.distinct⟩,
        by simp [hredirect], by simp⟩
    obtain ⟨hsound, hcount⟩ := begin_sound hpoised
    exact .taken hsound hknown hheld (hslot.trans hblocked.symm) fun x => by
      rw [hcount, hsame]; rfl
  · have hids : s.blockedIds = [b.id] := by simp [blockedIds, hb]
    have hpoised : { s with replayBlockedPrompt := none, recoverablePrompt := none }.Poised
        (submitted b.id text attachments sourceTransport).id := by
      refine ⟨hpending, hstarting, hactive, nodup_of_count_le hs.distinct fun x => ?_,
        by simp [hredirect], by simp⟩
      rw [hcleared, hids, count_cons_eq]
      exact Nat.le_refl _
    obtain ⟨hsound, hcount⟩ := begin_sound hpoised
    exact .retried hsound hids hslot fun x => by rw [hcount, hcleared, hids]; rfl

theorem enqueue_sound (hs : s.Sound) {promptId text : String}
    {attachments : List PromptAttachment} :
    Brings s promptId (s.known promptId text attachments = true)
      (s.enqueuePromptWithId promptId text attachments) := by
  rcases s.enqueue_cases promptId text attachments with
    ⟨e, heq⟩ | ⟨heq, hknown⟩ | heq | ⟨-, hblocked, hunknown, heq⟩
  · rw [heq]; exact .refused e
  · rw [heq]; exact .settled hknown
  · rw [heq]
    have hsubmit := submit_sound hs promptId text attachments none true nofun
    simp only [true_and] at hsubmit
    exact hsubmit
  · rw [heq]
    have hheld := not_held_of_unknown hs hblocked hunknown
    have hids : { s with
          recoverablePrompt := none
          queue := s.queue ++ [submitted promptId text attachments none] }.queuedIds =
        s.queuedIds ++ [promptId] := by simp [queuedIds, submitted]
    have hcount : ∀ x, { s with
          recoverablePrompt := none
          queue := s.queue ++ [submitted promptId text attachments none] }.held.count x =
        s.held.count x + [promptId].count x := by
      intro x
      simp only [count_held, hids, List.count_append]
      simp only [pendingIds, startingIds, blockedIds]
      omega
    have hdistinct := nodup_of_count_cons (List.nodup_cons.2 ⟨hheld, hs.distinct⟩) hcount
    have hknown : ¬ s.known promptId text attachments = true := by
      simp [known_eq_false_iff.2 ⟨hblocked, hunknown⟩]
    exact .taken ⟨hs.creating, hs.alone, hs.unstarted, hdistinct, hs.redirect, by simp⟩ hknown hheld
      rfl hcount

theorem map_eraseP (queue : List QueuedPrompt) (promptId : String) :
    (queue.eraseP (·.id == promptId)).map QueuedPrompt.id =
      (queue.map QueuedPrompt.id).erase promptId := by
  rw [List.erase_eq_eraseP', List.eraseP_map]
  rfl

theorem count_erase {promptId : String} (hqueued : promptId ∈ s.queuedIds) (x : String) :
    { s with queue := s.queue.eraseP (·.id == promptId) }.held.count x + [promptId].count x =
      s.held.count x := by
  have hids : { s with queue := s.queue.eraseP (·.id == promptId) }.queuedIds =
      s.queuedIds.erase promptId := map_eraseP s.queue promptId
  have hcount := (List.perm_cons_erase hqueued).count_eq x
  rw [count_cons_eq] at hcount
  simp only [count_held, hids]
  simp only [pendingIds, startingIds, blockedIds]
  omega

/-- Taking a queued prompt out of the queue. -/
theorem erase_sound (hs : s.Sound) {promptId : String} (hqueued : promptId ∈ s.queuedIds) :
    Sound { s with queue := s.queue.eraseP (·.id == promptId) } := by
  have hdistinct : { s with queue := s.queue.eraseP (·.id == promptId) }.held.Nodup := by
    refine nodup_of_count_le hs.distinct fun x => ?_
    have hcount := count_erase hqueued x
    omega
  exact ⟨hs.creating, hs.alone, hs.unstarted, hdistinct, hs.redirect, hs.recoverable⟩

theorem remove_sound (hs : s.Sound) (promptId : String) :
    (s.removeQueuedPrompt promptId).2.Sound ∧ ∀ x,
      (s.removeQueuedPrompt promptId).2.held.count x + (s.removes (.remove promptId)).count x =
        s.held.count x := by
  rcases s.remove_cases promptId with ⟨e, heq⟩ | ⟨heq, hqueued⟩ | ⟨hredirecting, hqueued, heq⟩
  · have hnone : s.removes (.remove promptId) = [] := by
      have hredirecting : s.isRedirecting promptId = true := by
        unfold removeQueuedPrompt at heq
        split at heq
        · assumption
        · split at heq <;> cases heq
      simp [removes, hredirecting]
    rw [heq, hnone]
    exact ⟨hs, fun _ => rfl⟩
  · have hnone : s.removes (.remove promptId) = [] := by
      simp only [removes, queuedIds, hqueued, decide_false, Bool.and_false]
      rfl
    rw [heq, hnone]
    exact ⟨hs, fun _ => rfl⟩
  · have hsome : s.removes (.remove promptId) = [promptId] := by
      simp only [removes, queuedIds, hqueued, hredirecting]
      rfl
    obtain ⟨hsound, hcount⟩ := drain_sound (erase_sound hs (by simpa [queuedIds] using hqueued))
    rw [heq, hsome]
    exact ⟨hsound, fun x => by rw [hcount, count_erase hqueued]⟩

/-- Marking a queued prompt leaves all identities in their places. -/
theorem map_modify (queue : List QueuedPrompt) (i : Nat) :
    (queue.modify i fun p => { p with deliveryUncertain := true }).map QueuedPrompt.id =
      queue.map QueuedPrompt.id := by
  refine List.ext_getElem? fun j => ?_
  rw [List.getElem?_map, List.getElem?_map, List.getElem?_modify]
  split <;> cases queue[j]? <;> rfl

theorem samePlaces_steerQueuedPrompt (promptId steerId : String) :
    SamePlaces s (s.steerQueuedPrompt promptId steerId).2 := by
  rcases s.steerQueued_cases promptId steerId with ⟨e, heq⟩ | ⟨_, _, _, -, -, -, -, heq⟩ |
    ⟨_, active, _, -, -, hactive, -, -, heq⟩
  · rw [heq]; exact .refl s
  · rw [heq]; exact ⟨map_modify _ _, rfl, rfl, rfl, rfl, rfl, rfl, rfl⟩
  · rw [heq]; exact ⟨rfl, rfl, rfl, rfl, rfl, rfl, rfl, by simp [hactive]⟩

/-! ## Guidance and turns -/

/-- Guidance that is taken was in the queue, and leaves it. -/
theorem steerAccepted_sound (hs : s.Sound) (turnId : String) :
    (s.handleSteerAccepted turnId).2.Sound ∧ ∀ x,
      (s.handleSteerAccepted turnId).2.held.count x +
        (s.acceptedGuidance turnId).toList.count x = s.held.count x := by
  have hsame : ∀ s : DomainState, SamePlaces s { s with pendingSteer := none } := fun _ =>
    ⟨rfl, rfl, rfl, rfl, rfl, rfl, rfl, rfl⟩
  rcases s.steerAccepted_cases turnId with ⟨hnone, b, heq⟩ | ⟨promptId, hsome, hqueued, heq⟩
  · rw [heq, hnone]
    exact ⟨(hsame s).sound hs, fun _ => rfl⟩
  · rw [heq, hsome]
    have hmem : promptId ∈ s.queuedIds := by simpa [queuedIds] using hqueued
    exact ⟨(hsame _).sound (erase_sound hs hmem), fun x => count_erase hmem x⟩

/-- A turn that starts takes the prompt that was on its way. -/
theorem observeTurnStarted_sound (hs : s.Sound) (hactive : s.activeTurn = none)
    (hpending : s.pendingSessionPrompt = none) (turnId : String) :
    (s.observeTurnStarted turnId).Sound ∧
      (s.observeTurnStarted turnId).startingTurn = none ∧
      ∀ x, (s.observeTurnStarted turnId).held.count x + s.startingIds.count x = s.held.count x := by
  have hredirect : (if s.startingTurn.any fun started => s.isRedirected started.id then none
      else s.redirectStart) = none := by
    cases hr : s.redirectStart with
    | none => simp
    | some r =>
      obtain ⟨p, hp, hid⟩ : ∃ p, s.startingTurn = some p ∧ p.id = r.prompt.id := by
        simpa [pendingIds, startingIds, hpending] using hs.redirect r hr
      simp [hp, isRedirected, hr, hid]
  simp only [observeTurnStarted, hactive, hredirect]
  have hcount : ∀ x, { s with
        turnProgress := none
        startingTurn := none
        redirectStart := none
        activeTurn := some
          { id := turnId
            model := (s.startingTurn.bind (·.resolvedModel)) <|> s.selectedModel
            cancelling := false } }.held.count x + s.startingIds.count x = s.held.count x := by
    intro x
    simp only [count_held, startingIds, queuedIds, pendingIds, blockedIds, Option.map_none,
      Option.toList_none, List.count_nil]
    omega
  refine ⟨⟨?_, ?_, ?_, nodup_of_count_le hs.distinct fun x => ?_, ?_, hs.recoverable⟩, trivial,
    hcount⟩
  · simp [hpending]
  · simp [hpending]
  · simp
  · have htaken := hcount x
    omega
  · simp

/-- When a session has been created, the prompt it was created for is handed to it. -/
theorem created_sound (hs : s.Sound) (providerSessionId model : String) :
    (s.handleSessionCreated providerSessionId model).1.Sound ∧
      ∀ x, (s.handleSessionCreated providerSessionId model).1.held.count x = s.held.count x := by
  by_cases hempty : providerSessionId.isEmpty = true
  · rw [handleSessionCreated, if_pos hempty]
    exact ⟨hs, fun _ => rfl⟩
  cases hpending : s.pendingSessionPrompt with
  | none =>
    have hplaces : SamePlaces { s with creatingSession := false }
        (s.handleSessionCreated providerSessionId model).1 := by
      simp only [handleSessionCreated, hempty, hpending, Bool.false_eq_true, if_false]
      constructor <;> trivial
    have hsound : Sound { s with creatingSession := false } := by
      refine ⟨?_, ?_, hs.unstarted, hs.distinct, hs.redirect, hs.recoverable⟩
      · simp [hpending]
      · simp [hpending]
    exact ⟨hplaces.sound hsound, fun x => by rw [hplaces.held]; rfl⟩
  | some prompt =>
    obtain ⟨hstarting, hactive⟩ := hs.alone (by simp [hpending])
    obtain ⟨prompt', hid, hplaces⟩ : ∃ prompt' : OutgoingPrompt, prompt'.id = prompt.id ∧
        SamePlaces { s with
          creatingSession := false, pendingSessionPrompt := none, startingTurn := some prompt' }
          (s.handleSessionCreated providerSessionId model).1 := by
      refine ⟨{ prompt with
        resolvedModel :=
          if model.isEmpty then s.selectedModel else some (s.qualifyActiveModel model) }, rfl, ?_⟩
      simp only [handleSessionCreated, hempty, hpending, Bool.false_eq_true, if_false]
      constructor <;> rfl
    have hway : ∀ x, x ∈ s.pendingIds ++ s.startingIds ↔ x = prompt.id := by
      simp [pendingIds, startingIds, hpending, hstarting]
    have hheld : { s with
        creatingSession := false, pendingSessionPrompt := none,
        startingTurn := some prompt' }.held = s.held := by
      simp [held, queuedIds, pendingIds, startingIds, blockedIds, hpending, hstarting, hid]
    have hsound : Sound { s with
        creatingSession := false, pendingSessionPrompt := none, startingTurn := some prompt' } := by
      refine ⟨?_, ?_, fun _ => hactive, hheld ▸ hs.distinct, fun r hr => ?_, hs.recoverable⟩
      · simp
      · simp
      · have hr' := (hway _).1 (hs.redirect r hr)
        simp [pendingIds, startingIds, hr', hid]
    exact ⟨hplaces.sound hsound, fun x => by rw [hplaces.held, hheld]⟩

/-- A redirected prompt leaves the queue for its turn. -/
theorem beginPendingRedirect_sound (hs : s.Sound) (hpending : s.pendingSessionPrompt = none)
    (hstarting : s.startingTurn = none) (hactive : s.activeTurn = none)
    (pending : PendingRedirect) :
    (s.beginPendingRedirect pending).1.Sound ∧
      ∀ x, (s.beginPendingRedirect pending).1.held.count x = s.held.count x := by
  unfold beginPendingRedirect
  split
  · exact ⟨hs, fun _ => rfl⟩
  next prompt hprompt =>
    have hid : prompt.id = pending.promptId := by simpa using List.find?_some hprompt
    have hmem : pending.promptId ∈ s.queuedIds :=
      hid ▸ List.mem_map_of_mem (List.mem_of_find?_eq_some hprompt)
    have hpoised : Poised { s with
        queue := s.queue.eraseP (·.id == pending.promptId)
        redirectStart := some
          { prompt
            predecessorIds :=
              (s.queue.take (s.queue.findIdx (·.id == pending.promptId))).map QueuedPrompt.id
            successorIds :=
              (s.queue.drop (s.queue.findIdx (·.id == pending.promptId) + 1)).map
                QueuedPrompt.id } } prompt.id := by
      refine ⟨hpending, hstarting, hactive, ?_, ?_, hs.recoverable⟩
      · rw [hid]
        refine nodup_of_count_le hs.distinct fun x => ?_
        rw [count_cons_eq, ← count_erase hmem x]
        exact Nat.le_refl _
      · rintro r ⟨⟩
        rfl
    obtain ⟨hsound, hcount⟩ := begin_sound hpoised
    refine ⟨hsound, fun x => ?_⟩
    have herased := count_erase hmem x
    rw [hcount, hid, ← herased]
    rfl

/-- No prompt is on its way to a turn, and none is running. -/
structure Clear (s : DomainState) : Prop where
  pending : s.pendingSessionPrompt = none
  starting : s.startingTurn = none
  active : s.activeTurn = none

/-- After a turn the redirected prompt or the front of the queue is begun, and no prompt is lost. -/
theorem continueAfterTurn_sound (hs : s.Sound) (hclear : s.Clear) :
    s.continueAfterTurn.1.Sound ∧ ∀ x, s.continueAfterTurn.1.held.count x = s.held.count x := by
  unfold continueAfterTurn
  split
  next pending _ =>
    have hsame : SamePlaces s { s with pendingRedirect := none } :=
      ⟨rfl, rfl, rfl, rfl, rfl, rfl, rfl, rfl⟩
    exact beginPendingRedirect_sound (hsame.sound hs) hclear.pending hclear.starting hclear.active
      pending
  · exact drain_sound hs

/-- A prompt that failed to start takes the free slot of a retry. -/
theorem restoreFailedPrompt_sound (hs : s.Sound) {prompt : OutgoingPrompt}
    (hnew : prompt.id ∉ s.held) (hblocked : s.replayBlockedPrompt = none) :
    (s.restoreFailedPrompt prompt).Sound ∧
      ∀ x, (s.restoreFailedPrompt prompt).held.count x = s.held.count x + [prompt.id].count x := by
  have hcount : ∀ x, (s.restoreFailedPrompt prompt).held.count x =
      s.held.count x + [prompt.id].count x := by
    intro x
    simp [count_held, restoreFailedPrompt, queuedIds, pendingIds, startingIds, blockedIds, hblocked]
  refine ⟨⟨hs.creating, hs.alone, hs.unstarted,
    nodup_of_count_cons (List.nodup_cons.2 ⟨hnew, hs.distinct⟩) hcount, hs.redirect, ?_⟩, hcount⟩
  rintro r ⟨⟩
  exact ⟨_, rfl, rfl⟩

theorem samePlaces_retireTurn (hstarting : s.startingTurn = none) (turnId : String)
    (outcome : TurnOutcome) :
    SamePlaces { s with activeTurn := none } (s.retireTurn turnId outcome) := by
  unfold retireTurn recordTerminalOwnerTurn
  split <;> exact ⟨rfl, rfl, hstarting.symm, rfl, rfl, rfl, rfl, rfl⟩

/-- The end of the current turn. -/
theorem retireTurn_sound (hs : s.Sound) (hpending : s.pendingSessionPrompt = none)
    (hstarting : s.startingTurn = none) (turnId : String) (outcome : TurnOutcome) :
    (s.retireTurn turnId outcome).Sound ∧ (s.retireTurn turnId outcome).Clear ∧
      (s.retireTurn turnId outcome).held = s.held := by
  have hplaces := samePlaces_retireTurn hstarting turnId outcome
  have hsound : Sound { s with activeTurn := none } := by
    refine ⟨hs.creating, ?_, fun _ => rfl, hs.distinct, hs.redirect, hs.recoverable⟩
    simp [hpending]
  refine ⟨hplaces.sound hsound, ⟨?_, ?_, ?_⟩, hplaces.held⟩
  · rw [hplaces.pendingSessionPrompt]; exact hpending
  · rw [hplaces.startingTurn]; exact hstarting
  · have hactive := hplaces.activeTurn
    simpa using hactive

/-- What follows the end of a turn. A prompt that never started needs the free slot of a retry. -/
theorem settleTurn_sound (hs : s.Sound) (hclear : s.Clear) {unstarted : Option OutgoingPrompt}
    (hnew : ∀ p ∈ unstarted, p.id ∉ s.held)
    (hfree : unstarted.isSome → s.replayBlockedPrompt = none) (outcome : TurnOutcome) :
    (s.settleTurn outcome unstarted).1.Sound ∧ ∀ x,
      (s.settleTurn outcome unstarted).1.held.count x =
        s.held.count x + (unstarted.map OutgoingPrompt.id).toList.count x := by
  unfold settleTurn
  cases unstarted with
  | some prompt => exact restoreFailedPrompt_sound hs (hnew prompt rfl) (hfree rfl)
  | none =>
    dsimp only
    split
    · have hsame : SamePlaces s { s with pendingRedirect := none } :=
        ⟨rfl, rfl, rfl, rfl, rfl, rfl, rfl, rfl⟩
      exact ⟨hsame.sound hs, fun _ => rfl⟩
    · exact continueAfterTurn_sound hs hclear

/-- The prompt whose turn a completion is the first to tell of. -/
def completedStart (s : DomainState) (outcome : TurnOutcome) : List String :=
  if s.activeTurn.isNone && outcome != .failed then s.startingIds else []

theorem completeTurn_sound (hs : s.Sound) {outcome : TurnOutcome}
    (hfree : (s.failedBeforeStart outcome).isSome → s.replayBlockedPrompt = none)
    (turnId : String) :
    (s.completeTurn turnId outcome).1.Sound ∧ ∀ x,
      (s.completeTurn turnId outcome).1.held.count x + (s.completedStart outcome).count x =
        s.held.count x := by
  unfold completeTurn
  dsimp only
  cases hactive : s.activeTurn with
  | some active =>
    have hobserved : s.observeCompletion turnId = s := by simp [observeCompletion, hactive]
    have hunstarted : s.failedBeforeStart outcome = none := by simp [failedBeforeStart, hactive]
    have hnone : s.completedStart outcome = [] := by simp [completedStart, hactive]
    rw [hobserved, hunstarted, hnone]
    split
    · exact ⟨hs, fun _ => rfl⟩
    · have hstarting : s.startingTurn = none := by
        cases h : s.startingTurn with
        | none => rfl
        | some p => simpa [hactive] using hs.unstarted (by simp [h])
      have hpending : s.pendingSessionPrompt = none := by
        cases h : s.pendingSessionPrompt with
        | none => rfl
        | some p => simpa [hactive] using (hs.alone (by simp [h])).2
      obtain ⟨hretired, hclear, hheld⟩ := retireTurn_sound hs hpending hstarting turnId outcome
      have hno : ∀ p ∈ (none : Option OutgoingPrompt),
          p.id ∉ (s.retireTurn turnId outcome).held := nofun
      obtain ⟨hsound, hcount⟩ := settleTurn_sound hretired hclear hno nofun outcome
      exact ⟨hsound, fun x => by rw [hcount, hheld]; rfl⟩
  | none =>
    cases hstarting : s.startingTurn with
    | none =>
      have hobserved : s.observeCompletion turnId = s := by
        simp [observeCompletion, hactive, hstarting]
      have hnone : s.completedStart outcome = [] := by
        simp [completedStart, hactive, startingIds, hstarting]
      have hlate : s.turnIsCurrent turnId = false := by simp [turnIsCurrent, hactive]
      rw [hobserved, hnone, hlate]
      exact ⟨hs, fun _ => rfl⟩
    | some prompt =>
      have hpending : s.pendingSessionPrompt = none := by
        cases h : s.pendingSessionPrompt with
        | none => rfl
        | some p => simpa [hstarting] using (hs.alone (by simp [h])).1
      have hobserved : s.observeCompletion turnId = s.observeTurnStarted turnId := by
        simp [observeCompletion, hactive, hstarting]
      have hcurrent : (s.observeTurnStarted turnId).turnIsCurrent turnId = true := by
        simp [turnIsCurrent, observeTurnStarted, hactive]
      have hplaces : (s.observeTurnStarted turnId).pendingSessionPrompt = none ∧
          (s.observeTurnStarted turnId).queue = s.queue ∧
          (s.observeTurnStarted turnId).replayBlockedPrompt = s.replayBlockedPrompt := by
        simp [observeTurnStarted, hactive, hpending]
      obtain ⟨hstarted, hgone, htaken⟩ := observeTurnStarted_sound hs hactive hpending turnId
      obtain ⟨hretired, hclear, hheld⟩ := retireTurn_sound hstarted hplaces.1 hgone turnId outcome
      have hretiredPlaces := samePlaces_retireTurn hgone turnId outcome
      have hunstarted : ∀ p ∈ s.failedBeforeStart outcome,
          p.id ∉ ((s.observeTurnStarted turnId).retireTurn turnId outcome).held := by
        intro p hp
        obtain rfl : p = prompt := by
          have hp' : s.startingTurn = some p := by
            unfold failedBeforeStart at hp
            split at hp
            · exact hp
            · cases hp
          simpa [hstarting] using hp'.symm
        have htaken' := htaken p.id
        have hone := List.nodup_iff_count_le_one.1 hs.distinct p.id
        rw [hheld, ← List.count_eq_zero]
        simp only [startingIds, hstarting, Option.map_some, Option.toList_some,
          List.count_singleton_self] at htaken'
        omega
      obtain ⟨hsound, hcount⟩ := settleTurn_sound hretired hclear hunstarted
        (fun h => by rw [hretiredPlaces.replayBlockedPrompt]; exact hplaces.2.2.trans (hfree h))
        outcome
      rw [hobserved, hcurrent]
      refine ⟨hsound, fun x => ?_⟩
      have hsplit : ((s.failedBeforeStart outcome).map OutgoingPrompt.id).toList.count x +
          (s.completedStart outcome).count x = s.startingIds.count x := by
        cases outcome <;> simp [failedBeforeStart, completedStart, hactive, startingIds, hstarting]
      have htaken' := htaken x
      simp only [Bool.not_true, Bool.false_eq_true, if_false]
      rw [hcount, hheld]
      omega

end Nakode.Domain.DomainState
