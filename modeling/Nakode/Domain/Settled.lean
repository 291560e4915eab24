import Nakode.Domain.Checkpoints

/-!
# Finished prompts are settled in the store

The row of an owner prompt is recorded before its turn is sent, and its replay fence is lifted when
the turn is seen to start. So a turn that is seen to start and completes leaves a row that no later
resume replays. A turn whose completion is the first that is heard of it leaves the fence where it
is.
-/

namespace Nakode.Domain

open Transition Relational

/-! ## Rows -/

namespace Store

variable {store store' store'' : Store}

/-- The row of a prompt that no resume replays. -/
def Settled (store : Store) (key : String × String) : Prop :=
  ∃ row, store.prompts.find? key = some row ∧ row.dispatchPending = false

/-- Every row stays, and stays settled. -/
def Keeps (store store' : Store) : Prop :=
  ∀ key row, store.prompts.find? key = some row →
    ∃ row', store'.prompts.find? key = some row' ∧
      (row.dispatchPending = false → row'.dispatchPending = false)

theorem Keeps.refl (store : Store) : Keeps store store := fun _ row h => ⟨row, h, id⟩

theorem Keeps.of_eq (h : store'.prompts = store.prompts) : Keeps store store' :=
  fun key row hrow => ⟨row, by rw [h, hrow], id⟩

theorem Keeps.trans (h : Keeps store store') (h' : Keeps store' store'') : Keeps store store'' := by
  intro key row hrow
  obtain ⟨row', hrow', hsettled⟩ := h key row hrow
  obtain ⟨row'', hrow'', hsettled'⟩ := h' key row' hrow'
  exact ⟨row'', hrow'', hsettled' ∘ hsettled⟩

theorem Settled.keeps {key : String × String} (hkeeps : Keeps store store')
    (h : store.Settled key) : store'.Settled key := by
  obtain ⟨row, hrow, hsettled⟩ := h
  obtain ⟨row', hrow', hkept⟩ := hkeeps key row hrow
  exact ⟨row', hrow', hkept hsettled⟩

theorem Keeps.has {key : String × String} (hkeeps : Keeps store store')
    (h : (store.prompts.find? key).isSome) : (store'.prompts.find? key).isSome := by
  obtain ⟨row, hrow⟩ := Option.isSome_iff_exists.1 h
  obtain ⟨row', hrow', -⟩ := hkeeps key row hrow
  simp [hrow']

theorem recordOwnerPrompt_keeps {sessionId : String} {prompt : PersistedOwnerPrompt}
    (h : store.recordOwnerPrompt sessionId prompt = some store') :
    Keeps store store' ∧ (store'.prompts.find? (sessionId, prompt.promptId)).isSome := by
  unfold recordOwnerPrompt at h
  split at h
  next existing hexisting =>
    split at h
    · cases h
      exact ⟨.refl _, by simp [hexisting]⟩
    · cases h
  next hnone =>
    cases h
    refine ⟨fun key row hrow => ⟨row, ?_, id⟩, by simp [hnone]⟩
    have hother : key ≠ (sessionId, prompt.promptId) := by
      rintro rfl
      simp [hnone] at hrow
    simp [hrow, hother]

theorem acknowledge_keeps {sessionId promptId : String}
    (h : store.acknowledgeOwnerPromptDispatch sessionId promptId = some store') :
    Keeps store store' ∧ store'.Settled (sessionId, promptId) := by
  unfold acknowledgeOwnerPromptDispatch at h
  split at h
  next hsome =>
    cases h
    constructor
    · intro key row hrow
      rw [Table.find?_update, hrow]
      simp only [Option.map_some, Option.some.injEq, exists_eq_left']
      intro hsettled
      split
      · rfl
      · exact hsettled
    · obtain ⟨row, hrow⟩ := Option.isSome_iff_exists.1 hsome
      exact ⟨{ row with dispatchPending := false }, by simp [hrow], rfl⟩
  · cases h

theorem createSession_keeps {id provider providerSessionId title recordId : String}
    {model : Option String} {ownerPrompt : Option PersistedOwnerPrompt}
    (h : store.createSession id provider providerSessionId title model ownerPrompt =
      some (recordId, store')) :
    Keeps store store' ∧
      ∀ prompt, ownerPrompt = some prompt →
        (store'.prompts.find? (recordId, prompt.promptId)).isSome := by
  obtain ⟨⟨id', store₁⟩, hinsert, hprompt⟩ := Option.bind_eq_some_iff.1 h
  have hkeeps : Keeps store store₁ := by
    unfold insertSession at hinsert
    split at hinsert
    · cases hinsert
      exact .of_eq rfl
    · obtain ⟨sessions, -, heq⟩ := Option.map_eq_some_iff.1 hinsert
      cases heq
      exact .of_eq rfl
  dsimp only at hprompt
  split at hprompt
  next prompt =>
    obtain ⟨store₂, hrecord, heq⟩ := Option.map_eq_some_iff.1 hprompt
    cases heq
    obtain ⟨hmore, hrecorded⟩ := recordOwnerPrompt_keeps hrecord
    exact ⟨hkeeps.trans hmore, fun p hp => by cases hp; exact hrecorded⟩
  · cases hprompt
    exact ⟨hkeeps, fun _ hp => by cases hp⟩

theorem savePromptQueue_keeps {sessionId : String} {prompts : List QueuedPrompt}
    (h : store.savePromptQueue sessionId prompts = some store') : Keeps store store' := by
  unfold savePromptQueue at h
  split at h
  · cases h; exact .of_eq rfl
  · split at h
    · cases h; exact .of_eq rfl
    · cases h

theorem recordOwnerPrompts_keeps {rows : List (String × PersistedOwnerPrompt)}
    (h : rows.foldlM (fun store row => store.recordOwnerPrompt row.1 row.2) store = some store') :
    Keeps store store' ∧
      ∀ row ∈ rows, (store'.prompts.find? (row.1, row.2.promptId)).isSome := by
  induction rows generalizing store with
  | nil =>
    cases h
    exact ⟨.refl _, List.forall_mem_nil _⟩
  | cons row rows ih =>
    obtain ⟨store₁, hrecord, hrest⟩ := Option.bind_eq_some_iff.1 h
    obtain ⟨hkeeps, hrecorded⟩ := recordOwnerPrompt_keeps hrecord
    obtain ⟨hmore, hothers⟩ := ih hrest
    exact ⟨hkeeps.trans hmore, List.forall_mem_cons.2 ⟨hmore.has hrecorded, hothers⟩⟩

theorem savePromptDispatchCheckpoint_keeps {rows : List (String × PersistedOwnerPrompt)}
    {queue : Option (String × List QueuedPrompt)}
    (h : store.savePromptDispatchCheckpoint rows queue = some store') :
    Keeps store store' ∧
      ∀ row ∈ rows, (store'.prompts.find? (row.1, row.2.promptId)).isSome := by
  unfold savePromptDispatchCheckpoint at h
  obtain ⟨store₁, hrows, hqueue⟩ := Option.bind_eq_some_iff.1 h
  obtain ⟨hkeeps, hrecorded⟩ := recordOwnerPrompts_keeps hrows
  have hmore : Keeps store₁ store' := by
    split at hqueue
    · exact savePromptQueue_keeps hqueue
    · cases hqueue
      exact .refl _
  exact ⟨hkeeps.trans hmore, fun row hrow => hmore.has (hrecorded row hrow)⟩

theorem updateLastTurn_keeps {id : String} {turn : LastTurn}
    (h : store.updateLastTurn id turn = some store') : Keeps store store' := by
  unfold updateLastTurn at h
  split at h
  · cases h; exact .of_eq rfl
  · cases h

theorem transitions_keep {effects : List Effect}
    (h : effects.foldlM DomainState.persistTransition store = some store') :
    Keeps store store' := by
  induction effects generalizing store with
  | nil =>
    cases h
    exact .refl _
  | cons effect effects ih =>
    obtain ⟨store₁, htransition, hrest⟩ := Option.bind_eq_some_iff.1 h
    refine .trans ?_ (ih hrest)
    unfold DomainState.persistTransition at htransition
    split at htransition
    · unfold transitionPrimary at htransition
      split at htransition
      · cases htransition
      · cases htransition
        exact .of_eq rfl
    · cases htransition
      exact .refl _

end Store

namespace DomainState

variable {s s' : DomainState} {store store' : Store}

theorem executeEffect_keeps (x : DomainState × Store) (effect : Effect) :
    x.2.Keeps (executeEffect x effect).2 := by
  unfold executeEffect
  split
  · split
    next heq => exact (Store.acknowledge_keeps heq).1
    · exact .refl _
  next s store sessionId turn =>
    cases hupdate : store.updateLastTurn sessionId turn with
    | none => exact .refl _
    | some store' => exact Store.updateLastTurn_keeps hupdate
  · exact .refl _

theorem executeEffects_keep (effects : List Effect) (x : DomainState × Store) :
    x.2.Keeps (effects.foldl executeEffect x).2 := by
  induction effects generalizing x with
  | nil => exact .refl _
  | cons effect effects ih => exact (executeEffect_keeps x effect).trans (ih _)

/-- Executing effects touches what the engine knows of its prompts' rows, and nothing else of what
is told here. -/
theorem executeEffects_state (effects : List Effect) (x : DomainState × Store) :
    (effects.foldl executeEffect x).1.nakodeSessionId = x.1.nakodeSessionId ∧
      (effects.foldl executeEffect x).1.sessionId = x.1.sessionId ∧
      (effects.foldl executeEffect x).1.startingTurn = x.1.startingTurn := by
  induction effects generalizing x with
  | nil => exact ⟨rfl, rfl, rfl⟩
  | cons effect effects ih =>
    obtain ⟨hnakode, hsession, hstarting⟩ := ih (executeEffect x effect)
    have hone : (executeEffect x effect).1.nakodeSessionId = x.1.nakodeSessionId ∧
        (executeEffect x effect).1.sessionId = x.1.sessionId ∧
        (executeEffect x effect).1.startingTurn = x.1.startingTurn := by
      unfold executeEffect
      split
      · split
        · exact ⟨rfl, rfl, rfl⟩
        · unfold ownerPromptDispatchAcknowledgementFailed
          split <;> exact ⟨rfl, rfl, rfl⟩
      · exact ⟨rfl, rfl, rfl⟩
      · exact ⟨rfl, rfl, rfl⟩
    exact ⟨hnakode.trans hone.1, hsession.trans hone.2.1, hstarting.trans hone.2.2⟩

/-! ## Checkpoints -/

/-- The checkpoints of a step: the effects one by one, and then the accepted prompts and the
queue. -/
theorem persist_cases {effects : List Effect} {x : DomainState × Store}
    (h : s.persistOwnerPromptEffects store effects = some x) :
    ∃ c : Checkpointing,
      (effects.filter isPromptCheckpoint).foldlM
          (Checkpointing.run ((effects.filter isPromptCheckpoint).findSome? acceptedPrompt?))
          { state := s, store, ownerPrompts := [], created := false } = some c ∧
        x.1 = c.state ∧ c.store.Keeps x.2 ∧
        ∀ row ∈ c.ownerPrompts, (x.2.prompts.find? (row.1, row.2.promptId)).isSome := by
  unfold persistOwnerPromptEffects at h
  obtain ⟨c, hrun, hrest⟩ := Option.bind_eq_some_iff.1 h
  refine ⟨c, hrun, ?_⟩
  dsimp only at hrest
  split at hrest
  next hempty =>
    cases hrest
    simp only [Bool.and_eq_true, List.isEmpty_iff] at hempty
    rw [hempty.1]
    exact ⟨rfl, .refl _, List.forall_mem_nil _⟩
  · obtain ⟨store', hsave, heq⟩ := Option.bind_eq_some_iff.1 hrest
    cases heq
    exact ⟨rfl, Store.savePromptDispatchCheckpoint_keeps hsave⟩

/-- The store of an engine knows the prompt that is on its way to a turn of the engine's session. -/
structure Linked (s : DomainState) (store : Store) : Prop where
  session : ∀ id, s.sessionId = some id → id = s.nakodeSessionId
  starting : ∀ prompt, s.startingTurn = some prompt →
    (store.prompts.find? (s.nakodeSessionId, prompt.id)).isSome

theorem persistOwnerPromptEffects_linked {before : Option OutgoingPrompt} {effects : List Effect}
    {x : DomainState × Store} (hsession : ∀ id, s.sessionId = some id → id = s.nakodeSessionId)
    (hbefore : ∀ prompt, before = some prompt →
      (store.prompts.find? (s.nakodeSessionId, prompt.id)).isSome)
    (hchecked : Checkpointed before (s, effects))
    (hpersist : s.persistOwnerPromptEffects store effects = some x) :
    x.1.Linked x.2 ∧ store.Keeps x.2 := by
  obtain ⟨s', store'⟩ := x
  obtain ⟨c, hrun, rfl, hkeeps, hrecorded⟩ := persist_cases hpersist
  cases hchecked with
  | kept heffects hstarting =>
    rw [heffects] at hrun
    cases hrun
    refine ⟨⟨hsession, fun prompt hprompt => ?_⟩, hkeeps⟩
    rcases hstarting with h | h
    · exact hkeeps.has (hbefore prompt (h ▸ hprompt))
    · rw [h] at hprompt
      cases hprompt
  | @accepted _ _ sessionId prompt heffects hid hstarting =>
    rw [heffects] at hrun
    cases hrun
    refine ⟨⟨hsession, fun prompt' hprompt => ?_⟩, hkeeps⟩
    obtain rfl : sessionId = s.nakodeSessionId := hid.elim id (hsession _)
    obtain rfl : prompt = prompt' := by simpa [hstarting] using hprompt
    exact hrecorded (s.nakodeSessionId, acceptedOwnerPrompt prompt) (by simp)
  | @created _ _ provider providerSessionId title model prompt heffects hstarting =>
    have hcreation : [Effect.persistSession provider providerSessionId title model,
        .persistAcceptedOwnerPrompt s.nakodeSessionId (acceptedOwnerPrompt prompt)].findSome?
          acceptedPrompt? = some (acceptedOwnerPrompt prompt) := rfl
    rw [heffects, hcreation] at hrun
    obtain ⟨c₁, hcreate, hrest⟩ := Option.bind_eq_some_iff.1 hrun
    obtain ⟨⟨recordId, store₁⟩, hcreate', heq⟩ := Option.bind_eq_some_iff.1 hcreate
    obtain ⟨hcreated, hknown⟩ := Store.createSession_keeps hcreate'
    obtain rfl : c = ⟨s.sessionPersisted recordId, store₁, [], true⟩ := by
      cases heq
      cases hrest
      rfl
    refine ⟨⟨fun id h => ?_, fun prompt' hprompt => ?_⟩, hcreated.trans hkeeps⟩
    · cases h
      rfl
    · have hprompt' : s.startingTurn = some prompt' := hprompt
      rcases hstarting with h | h
      · obtain rfl : prompt = prompt' := by simpa [h] using hprompt'
        exact hkeeps.has (hknown _ rfl)
      · simp [h] at hprompt'

/-- After the effects of a step the prompt on its way is known to the store. -/
theorem Remains.commit {effects : List Effect} {x : DomainState × Store}
    (hlinked : s.Linked store) (hremains : s.Remains (s', effects))
    (hcommit : s'.commit store effects = some x) :
    x.1.Linked x.2 ∧ store.Keeps x.2 := by
  obtain ⟨hnakode, hsession, hchecked⟩ := hremains
  obtain ⟨store₁, htransitions, hrest⟩ := Option.bind_eq_some_iff.1 hcommit
  obtain ⟨⟨t, store₂⟩, hpersist, heq⟩ := Option.bind_eq_some_iff.1 hrest
  cases heq
  have htransition := Store.transitions_keep htransitions
  have hown : ∀ id, s'.sessionId = some id → id = s'.nakodeSessionId := by
    intro id hid
    rw [show s'.nakodeSessionId = s.nakodeSessionId from hnakode]
    rcases hsession with h | h
    · exact hlinked.session id (h ▸ hid)
    · simpa [show s'.sessionId = some s.nakodeSessionId from h] using hid.symm
  obtain ⟨hpersisted, hkeeps⟩ := persistOwnerPromptEffects_linked hown (fun prompt hprompt => by
    rw [show s'.nakodeSessionId = s.nakodeSessionId from hnakode]
    exact htransition.has (hlinked.starting prompt hprompt)) hchecked hpersist
  obtain ⟨hn, hs, ht⟩ := executeEffects_state
    (effects.filter fun effect => !isPromptCheckpoint effect) (t, store₂)
  have hexecute := executeEffects_keep
    (effects.filter fun effect => !isPromptCheckpoint effect) (t, store₂)
  refine ⟨⟨fun id hid => ?_, fun prompt hprompt => ?_⟩,
    htransition.trans (hkeeps.trans hexecute)⟩
  · rw [hn]
    exact hpersisted.session id (hs ▸ hid)
  · rw [hn]
    exact hexecute.has (hpersisted.starting prompt (ht ▸ hprompt))

/-! ## Lives of an engine -/

/-- No provider has a session of its own yet. -/
def Unused (s : DomainState) : Prop := ∀ entry ∈ s.providerContexts, entry.2.sessionId = none

theorem sessionId_activateProvider_of_unused (hunused : s.Unused) (hsession : s.sessionId = none)
    (provider : String) : (s.activateProvider provider).2.sessionId = none := by
  unfold activateProvider
  split
  · exact hsession
  split
  · exact hsession
  · dsimp only
    split
    · exact hsession
    next id context hfound =>
      have hmem := List.mem_of_find?_eq_some hfound
      unfold syncActiveProviderContext upsert at hmem
      dsimp only at hmem
      split at hmem
      · obtain ⟨entry, hentry, heq⟩ := List.mem_map.1 hmem
        split at heq
        · cases heq
          exact hsession
        · subst heq
          exact hunused _ hentry
      · rcases List.mem_append.1 hmem with hentry | hentry
        · exact hunused _ hentry
        · simp only [List.mem_singleton, Prod.mk.injEq] at hentry
          rw [hentry.2]
          exact hsession

/-- An engine that turns to a session is in that session, and checkpoints the prompt that it begins
for it. -/
theorem remains_beginResume (hfresh : s.Fresh) (hunused : s.Unused) (record : SessionRecord) :
    ∃ t : DomainState, t.startingTurn = none ∧
      (∀ id, t.sessionId = some id → id = t.nakodeSessionId) ∧
      t.Remains (s.beginResume record) := by
  have hkept : ∀ {t : DomainState} {effects : List Effect}, t.startingTurn = none →
      (∀ id, t.sessionId = some id → id = t.nakodeSessionId) →
      effects.filter isPromptCheckpoint = [] → ∃ t' : DomainState, t'.startingTurn = none ∧
        (∀ id, t'.sessionId = some id → id = t'.nakodeSessionId) ∧ t'.Remains (t, effects) :=
    fun hstarting hsession heffects =>
      ⟨_, hstarting, hsession, (Follows.kept rfl rfl (.inl rfl) heffects).remains⟩
  have hsession := sessionId_activateProvider_of_unused hunused hfresh.sessionId record.provider
  have hstarting : (s.activateProvider record.provider).2.startingTurn = none :=
    (s.switches_activateProvider record.provider).startingTurn.trans hfresh.startingTurn
  have hold : ∀ current : List String,
      (current.map fun current => Effect.backend (.unsubscribeSession current)).filter
        isPromptCheckpoint = [] := by
    intro current
    induction current with
    | nil => rfl
    | cons _ _ ih => exact ih
  unfold beginResume
  split
  · exact hkept hfresh.startingTurn (by simp [hfresh.sessionId]) rfl
  generalize s.activateProvider record.provider = activated at hsession hstarting
  obtain ⟨b, t⟩ := activated
  dsimp only at hsession hstarting ⊢
  split
  next heq =>
    cases heq
    exact hkept hstarting (by simp [hsession]) rfl
  next heq =>
    cases heq
    split
    · exact hkept hstarting (by simp [hsession]) rfl
    split
    · exact hkept hstarting (by simp [hsession]) rfl
    split
    · split
      · exact hkept hstarting (fun id hid => by cases hid; rfl) (hold _)
      next prompt _ =>
        obtain ⟨adopted, hadopted⟩ : ∃ adopted : DomainState, adopted = { t.adoptRecord record with
            sessionId := some record.id
            providerSessionId := none
            resumingSession := none
            creationTitle :=
              if (Text.trim record.title).isEmpty then none else some (Text.trim record.title) } :=
          ⟨_, rfl⟩
        have hstarting' : adopted.startingTurn = none := by rw [hadopted]; exact hstarting
        have hbegun := follows_beginPrompt adopted hstarting' (replayPrompt prompt)
        rw [← hadopted]
        generalize adopted.beginPrompt (replayPrompt prompt) = begun at hbegun ⊢
        obtain ⟨t', effects⟩ := begun
        refine ⟨adopted, hstarting', fun id hid => ?_, (hbegun.after (hold _)).remains⟩
        rw [hadopted] at hid ⊢
        cases hid
        rfl
    · refine hkept hstarting (by simp [adoptRecord, restoreRecord, hsession]) ?_
      rw [List.filter_append, hold]
      rfl

end DomainState

open DomainState

/-- How the server opens a session: an engine without work, or one that turns to a session of the
store. -/
inductive Opens (store : Store) : DomainState × Store → Prop
  | fresh {s : DomainState} : s.Fresh → s.Unused → Opens store (s, store)
  | resumed {s : DomainState} {id : String} {record : SessionRecord} {x : DomainState × Store} :
      s.Fresh → s.Unused → store.load id = some record →
      (s.beginResume record).1.commit store (s.beginResume record).2 = some x → Opens store x

/-- The owner prompt whose turn runs, and those whose turns were completed, by session and
prompt. -/
structure PromptTurns where
  running : Option (String × String)
  finished : List (String × String)

namespace PromptTurns

/-- The owner prompt that is on its way to a turn. -/
def awaited (s : DomainState) : Option (String × String) :=
  s.acknowledgedPrompt.map fun promptId => (s.nakodeSessionId, promptId)

/-- The owner prompt of the turn that an event completes. A completion can be the first that is
heard of a turn. -/
def completing (turns : PromptTurns) (s : DomainState) : Option (String × String) :=
  if s.activeTurn.isSome then turns.running else awaited s

def record (turns : PromptTurns) (s : DomainState) : Action → PromptTurns
  | .backend provider (.turnStarted turnId) =>
    if s.hears provider && !turnId.isEmpty && s.activeTurn.isNone then
      { turns with running := awaited s }
    else
      turns
  | .backend provider (.turnCompleted turnId outcome) =>
    if s.hears provider && (s.observeCompletion turnId).turnIsCurrent turnId then
      { running := none
        finished := turns.finished ++
          if outcome == .completed then (turns.completing s).toList else [] }
    else
      turns
  | _ => turns

end PromptTurns

/-- An engine beside its store, over any number of restarts of the server. -/
def lives : System ((DomainState × Store) × PromptTurns) (Option Action) where
  next x label x' :=
    match label with
    | some action => durable.next x.1 action x'.1 ∧ x'.2 = x.2.record x.1.1 action
    | none => Opens x.1.2 x'.1 ∧ x'.2 = { x.2 with running := none }

/-- An owner prompt's turn is seen to start before it is seen to complete, and no other session is
resumed than the engine's. -/
def DomainState.Observed (s : DomainState) : Option Action → Prop
  | some (.backend provider (.turnCompleted _ outcome)) =>
    s.hears provider = true → outcome = .completed → s.activeTurn = none →
      s.acknowledgedPrompt = none
  | some action => s.StaysOwn action
  | none => True

/-- The prompts that an engine hands on again when it turns to a session. -/
def SessionRecord.resent (record : SessionRecord) : List String :=
  if isPendingProviderSessionId record.providerSessionId then
    ((creationPrompt record).map (·.promptId)).toList
  else
    (record.ownerPrompts.filter (·.dispatchPending)).map (·.promptId)

namespace DomainState

variable {s s' : DomainState} {store : Store}

theorem Observed.staysOwn {action : Action} (h : s.Observed (some action)) : s.StaysOwn action := by
  cases action with
  | backend provider event => cases event <;> first | exact h | trivial
  | _ => trivial

/-- An acknowledgement settles a row that is there. -/
theorem commit_acknowledge {sessionId promptId : String} {x : DomainState × Store}
    (hrow : (store.prompts.find? (sessionId, promptId)).isSome)
    (hcommit : s.commit store [.acknowledgeOwnerPromptDispatch sessionId promptId] = some x) :
    x.2.Settled (sessionId, promptId) := by
  obtain ⟨⟨t, store₁⟩, hpersist, heq⟩ := Option.bind_eq_some_iff.1 hcommit
  obtain ⟨c, hrun, -, hkeeps, -⟩ := persist_cases hpersist
  cases hrun
  have hsome := hkeeps.has hrow
  cases hack : store₁.acknowledgeOwnerPromptDispatch sessionId promptId with
  | none => simp [Store.acknowledgeOwnerPromptDispatch, hsome] at hack
  | some store' =>
    have hexecuted : executeEffect (t, store₁) (.acknowledgeOwnerPromptDispatch sessionId promptId) =
        (t.settleOwnerPromptDispatch promptId, store') := by
      simp only [executeEffect, hack]
    obtain rfl : x = (t.settleOwnerPromptDispatch promptId, store') :=
      (Option.some.inj heq).symm.trans hexecuted
    exact (Store.acknowledge_keeps hack).2

/-- The start of a turn settles the row of its prompt. -/
theorem settled_turnStarted {provider turnId : String} {x : DomainState × Store}
    {key : String × String} (hlinked : s.Linked store) (hhears : s.hears provider = true)
    (hid : turnId.isEmpty = false) (hkey : PromptTurns.awaited s = some key)
    (hstep : durable.next (s, store) (.backend provider (.turnStarted turnId)) x) :
    x.2.Settled key := by
  obtain ⟨promptId, hprompt, rfl⟩ := Option.map_eq_some_iff.1 hkey
  obtain ⟨prompt, hstarting, rfl⟩ := Option.map_eq_some_iff.1 hprompt
  have heffects : (s.step (.backend provider (.turnStarted turnId))).2 =
      [.acknowledgeOwnerPromptDispatch s.nakodeSessionId prompt.id] := by
    simp only [hears, beq_iff_eq] at hhears
    simp [step, handleProviderBackend, observeProvider, handleBackend, handleTurnStarted, hhears,
      hid, hprompt]
  have hcommit : (s.step (.backend provider (.turnStarted turnId))).1.commit store
      (s.step (.backend provider (.turnStarted turnId))).2 = some x := hstep
  rw [heffects] at hcommit
  exact commit_acknowledge (hlinked.starting prompt (Option.filter_eq_some_iff.1 hstarting).1)
    hcommit

end DomainState

/-- Whatever is known of a turn of an owner prompt, the prompt is settled. -/
structure PromptTurns.Sound (turns : PromptTurns) (store : Store) : Prop where
  running : ∀ key, turns.running = some key → store.Settled key
  finished : ∀ key ∈ turns.finished, store.Settled key

theorem PromptTurns.Sound.keeps {turns : PromptTurns} {store store' : Store}
    (h : turns.Sound store) (hkeeps : store.Keeps store') : turns.Sound store' :=
  ⟨fun key hkey => (h.running key hkey).keeps hkeeps,
    fun key hkey => (h.finished key hkey).keeps hkeeps⟩

theorem PromptTurns.Sound.step {turns : PromptTurns} {s : DomainState} {store : Store}
    {action : Action} {x : DomainState × Store} (h : turns.Sound store) (hlinked : s.Linked store)
    (hkeeps : store.Keeps x.2) (hobserved : s.Observed (some action))
    (hstep : durable.next (s, store) action x) : (turns.record s action).Sound x.2 := by
  unfold PromptTurns.record
  split
  next provider turnId =>
    split
    next hstarted =>
      simp only [Bool.and_eq_true, Bool.not_eq_true', Option.isNone_iff_eq_none] at hstarted
      obtain ⟨⟨hhears, hid⟩, -⟩ := hstarted
      exact ⟨fun key hkey => settled_turnStarted hlinked hhears hid hkey hstep,
        (h.keeps hkeeps).finished⟩
    · exact h.keeps hkeeps
  next provider turnId outcome =>
    split
    next hended =>
      simp only [Bool.and_eq_true] at hended
      refine ⟨nofun, fun key hkey => ?_⟩
      rcases List.mem_append.1 hkey with hkey | hkey
      · exact (h.keeps hkeeps).finished key hkey
      split at hkey
      next hcompleted =>
        rw [Option.mem_toList, PromptTurns.completing] at hkey
        split at hkey
        · exact (h.keeps hkeeps).running key hkey
        next hactive =>
          have hnone := hobserved hended.1 (by simpa using hcompleted) (by simpa using hactive)
          simp [PromptTurns.awaited, hnone] at hkey
      · cases hkey
    · exact h.keeps hkeeps
  · exact h.keeps hkeeps

theorem Opens.linked {store : Store} {x : DomainState × Store} (h : Opens store x) :
    x.1.Linked x.2 ∧ store.Keeps x.2 := by
  cases h with
  | fresh hfresh _ =>
    exact ⟨⟨by simp [hfresh.sessionId], by simp [hfresh.startingTurn]⟩, .refl _⟩
  | resumed hfresh hunused _ hcommit =>
    obtain ⟨t, hstarting, hsession, hremains⟩ := remains_beginResume hfresh hunused _
    exact Remains.commit ⟨hsession, by simp [hstarting]⟩ hremains hcommit

/-- A settled prompt is no pending row of its session. -/
theorem Store.Settled.load {store : Store} {key : String × String} (h : store.Settled key)
    {record : SessionRecord} (hload : store.load key.1 = some record) :
    ∀ row ∈ record.ownerPrompts, row.promptId = key.2 → row.dispatchPending = false := by
  obtain ⟨_, -, rfl⟩ := Option.map_eq_some_iff.1 hload
  intro row hrow hid
  obtain ⟨entry, hentry, rfl⟩ := List.mem_map.1 hrow
  obtain ⟨hmem, hsession⟩ := List.mem_filter.1 hentry
  obtain ⟨settled, hfound, hsettled⟩ := h
  have hkey : entry.1 = key := Prod.ext (by simpa using hsession) hid
  rw [Table.mem_rows_iff, hkey, hfound] at hmem
  rw [← Option.some.inj hmem]
  exact hsettled

/-- A settled prompt is handed on again only by a session that was never created and has nothing
else to be created with. -/
theorem Store.Settled.resent {store : Store} {key : String × String} (h : store.Settled key)
    {record : SessionRecord} (hload : store.load key.1 = some record)
    (hresent : key.2 ∈ record.resent) :
    isPendingProviderSessionId record.providerSessionId = true ∧
      ∀ row ∈ record.ownerPrompts, row.dispatchPending = false := by
  have hsettled := h.load hload
  unfold SessionRecord.resent at hresent
  split at hresent
  next hpending =>
    refine ⟨hpending, ?_⟩
    by_contra hsome
    simp only [not_forall, Bool.not_eq_false] at hsome
    obtain ⟨row, hrow, hdispatch⟩ := hsome
    cases hfound : record.ownerPrompts.find? (·.dispatchPending) with
    | none => exact absurd hdispatch (List.find?_eq_none.1 hfound row hrow)
    | some pending =>
      simp [creationPrompt, hfound] at hresent
      have hpending := List.find?_some hfound
      rw [hsettled pending (List.mem_of_find?_eq_some hfound) hresent.symm] at hpending
      cases hpending
  · obtain ⟨row, hrow, hid⟩ := List.mem_map.1 hresent
    obtain ⟨hmem, hdispatch⟩ := List.mem_filter.1 hrow
    rw [hsettled row hmem hid] at hdispatch
    cases hdispatch

/-- The engine and its store after an action, when its checkpoints are made. -/
def committed (x : DomainState × Store) (action : Action) : DomainState × Store :=
  ((x.1.step action).1.commit x.2 (x.1.step action).2).getD x

/-- The checkpoints of all actions are made. -/
def commits (x : DomainState × Store) : List Action → Bool
  | [] => true
  | action :: actions =>
    ((x.1.step action).1.commit x.2 (x.1.step action).2).isSome &&
      commits (committed x action) actions

theorem durable_committed {x : DomainState × Store} {action : Action}
    (h : ((x.1.step action).1.commit x.2 (x.1.step action).2).isSome) :
    durable.next x action (committed x action) := by
  obtain ⟨x', hx'⟩ := Option.isSome_iff_exists.1 h
  simp [durable, committed, hx']

def livesAfter (x : (DomainState × Store) × PromptTurns) (actions : List Action) :
    (DomainState × Store) × PromptTurns :=
  actions.foldl (fun x action => (committed x.1 action, x.2.record x.1.1 action)) x

theorem lives_after {x : (DomainState × Store) × PromptTurns} {actions : List Action}
    (h : commits x.1 actions = true) : lives.Run x (actions.map some) (livesAfter x actions) := by
  induction actions generalizing x with
  | nil => exact .nil x
  | cons action actions ih =>
    simp only [commits, Bool.and_eq_true] at h
    exact .cons ⟨durable_committed h.1, rfl⟩ (ih h.2)

/-- Each action is as it has to be observed. -/
def Watched (x : DomainState × Store) : List Action → Prop
  | [] => True
  | action :: actions => x.1.Observed (some action) ∧ Watched (committed x action) actions

theorem observed_after {x : (DomainState × Store) × PromptTurns} {actions : List Action}
    (h : commits x.1 actions = true) (hwatched : Watched x.1 actions) :
    (lives.restrict fun x label => x.1.1.Observed label).Run x (actions.map some)
      (livesAfter x actions) := by
  induction actions generalizing x with
  | nil => exact .nil x
  | cons action actions ih =>
    simp only [commits, Bool.and_eq_true] at h
    exact .cons ⟨hwatched.1, durable_committed h.1, rfl⟩ (ih h.2 hwatched.2)

theorem native_opens : Opens .empty (native, .empty) :=
  .fresh native_fresh (List.forall_mem_nil _)

/-- A prompt whose completion is the first that is heard of its turn. -/
def unobservedTurn : List Action :=
  [.say "first", .native (.sessionCreated "thread" ""),
    .native (.turnCompleted "turn-1" .completed)]

end Nakode.Domain
