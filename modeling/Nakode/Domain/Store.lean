import Nakode.Lib.Table
import Nakode.Domain.Fencing

/-!
# The durable side of an engine

The store has a row for each session, each accepted owner prompt, each queue and each turn. After a
step the runtime first moves sessions to their new provider session, then checkpoints the accepted
prompts and the queue, and then executes the other effects (`commit`). A step whose checkpoints fail
is fenced or rolled back and is none of the steps here (`durable`).
-/

namespace Nakode.Domain

open Transition Relational

/-- A row of `sessions`, under its id. -/
structure StoredSession where
  provider : String
  providerSessionId : String
  title : String
  model : Option String
  lastTurn : Option LastTurn
  deriving DecidableEq, Repr

/-- A row of `accepted_owner_prompts`, under its session and its prompt. -/
structure AcceptedPrompt where
  rawText : String
  sourceTransport : Option String
  dispatchPending : Bool
  deriving DecidableEq, Repr

structure Store where
  sessions : Table String StoredSession
  prompts : Table (String × String) AcceptedPrompt
  queues : Table String (List QueuedPrompt)
  ownerTurns : Table (String × String) LastTurn

namespace Store

def empty : Store := ⟨∅, ∅, ∅, ∅⟩

variable (store : Store)

/-! ## The statements of the store -/

/-- `record_owner_prompt_on`: a row that is there already has to be of the same prompt, and keeps
its pending state. -/
def recordOwnerPrompt (sessionId : String) (prompt : PersistedOwnerPrompt) : Option Store :=
  match store.prompts.find? (sessionId, prompt.promptId) with
  | some existing =>
    if existing.rawText == prompt.rawText && existing.sourceTransport == prompt.sourceTransport then
      some store
    else
      none
  | none =>
    some { store with
      prompts := store.prompts.insertOrIgnore (sessionId, prompt.promptId)
        { rawText := prompt.rawText, sourceTransport := prompt.sourceTransport,
          dispatchPending := prompt.dispatchPending } }

def acknowledgeOwnerPromptDispatch (sessionId promptId : String) : Option Store :=
  if (store.prompts.find? (sessionId, promptId)).isSome then
    some { store with
      prompts := store.prompts.update (fun key _ => key == (sessionId, promptId)) fun row =>
        { row with dispatchPending := false } }
  else
    none

/-- The session that owns a provider session. -/
def sessionOf (provider providerSessionId : String) : Option String :=
  (store.sessions.rows.find? fun row =>
    row.2.provider == provider && row.2.providerSessionId == providerSessionId).map (·.1)

def sessionTitle (title : String) : String :=
  let title := Text.trim (Text.firstLine title)
  if title.isEmpty then "New session" else title

/-- The `INSERT` into `sessions`: the session that owns the provider session is taken over, and else
there is a new one, whose id may not be taken. Gives its id. -/
def insertSession (id provider providerSessionId title : String) (model : Option String) :
    Option (String × Store) :=
  match store.sessionOf provider providerSessionId with
  | some existing =>
    some (existing, { store with
      sessions := store.sessions.update (fun key _ => key == existing) fun row =>
        { row with model } })
  | none =>
    (store.sessions.insert? id
      { provider, providerSessionId, title := sessionTitle title, model, lastTurn := none }).map
      fun sessions => (id, { store with sessions })

/-- `create_with_account_id_and_skill_profile`. -/
def createSession (id provider providerSessionId title : String) (model : Option String)
    (ownerPrompt : Option PersistedOwnerPrompt) : Option (String × Store) :=
  (store.insertSession id provider providerSessionId title model).bind fun (recordId, store) =>
    match ownerPrompt with
    | some prompt => (store.recordOwnerPrompt recordId prompt).map fun store => (recordId, store)
    | none => some (recordId, store)

/-- `transition_primary_with_account`. No two sessions own one provider session. -/
def transitionPrimary (id provider providerSessionId : String) (model : Option String) :
    Option Store :=
  if (store.sessions.find? id).isNone || (store.sessionOf provider providerSessionId).any (· != id)
  then none
  else some { store with
    sessions := store.sessions.update (fun key _ => key == id) fun row =>
      { row with provider, providerSessionId, model } }

/-- `save_prompt_queue_on`. -/
def savePromptQueue (sessionId : String) (prompts : List QueuedPrompt) : Option Store :=
  if prompts.isEmpty then
    some { store with queues := store.queues.delete fun key _ => key == sessionId }
  else if (store.sessions.find? sessionId).isSome then
    some { store with queues := store.queues.upsert sessionId prompts fun _ => prompts }
  else
    none

/-- `save_prompt_dispatch_checkpoint`, of a session without bridges. -/
def savePromptDispatchCheckpoint (ownerPrompts : List (String × PersistedOwnerPrompt))
    (queue : Option (String × List QueuedPrompt)) : Option Store := do
  let store ← ownerPrompts.foldlM (fun store row => store.recordOwnerPrompt row.1 row.2) store
  match queue with
  | some (sessionId, prompts) => store.savePromptQueue sessionId prompts
  | none => pure store

def updateLastTurn (id : String) (turn : LastTurn) : Option Store :=
  if (store.sessions.find? id).isSome then
    some { store with
      sessions := store.sessions.update (fun key _ => key == id) fun row =>
        { row with lastTurn := some turn }
      ownerTurns := store.ownerTurns.insertOrIgnore (id, turn.id) turn }
  else
    none

/-- A session as it is loaded. -/
def load (id : String) : Option SessionRecord :=
  (store.sessions.find? id).map fun row =>
    { id
      provider := row.provider
      providerSessionId := row.providerSessionId
      title := row.title
      model := row.model
      lastTurn := row.lastTurn
      ownerTurns := (store.ownerTurns.rows.filter (·.1.1 == id)).map (·.2)
      ownerPrompts := (store.prompts.rows.filter (·.1.1 == id)).map fun row =>
        { promptId := row.1.2, rawText := row.2.rawText, sourceTransport := row.2.sourceTransport,
          dispatchPending := row.2.dispatchPending }
      queuedPrompts := (store.queues.find? id).getD [] }

end Store

namespace DomainState

variable (s : DomainState)

/-! ## What the execution of effects does with the engine -/

def settleOwnerPromptDispatch (promptId : String) : DomainState :=
  { s with
    ownerPrompts := s.ownerPrompts.modify (s.ownerPrompts.findIdx (·.promptId == promptId)) fun p =>
      { p with dispatchPending := false } }

def ownerPromptDispatchAcknowledgementFailed (promptId : String) : DomainState :=
  match s.ownerPrompts.find? fun p => p.promptId == promptId && p.dispatchPending with
  | some prompt =>
    { s with
      replayBlockedPrompt := some
        { deliveryUncertain := false, id := prompt.promptId, text := prompt.rawText,
          attachments := [], sourceTransport := prompt.sourceTransport } }
  | none => s

/-! ## Checkpoints -/

/-- The queue, when it differs from the stored one of a session that has been created. -/
def changedPromptQueue (store : Store) : Option (String × List QueuedPrompt) :=
  if (store.sessions.find? s.nakodeSessionId).isSome &&
      (store.queues.find? s.nakodeSessionId).getD [] != s.queue then
    some (s.nakodeSessionId, s.queue)
  else
    none

/-- What the checkpoints of a step have done so far. -/
structure Checkpointing where
  state : DomainState
  store : Store
  ownerPrompts : List (String × PersistedOwnerPrompt)
  /-- The prompt was recorded together with the session that was created for it. -/
  created : Bool

def Checkpointing.run (creationPrompt : Option PersistedOwnerPrompt) (c : Checkpointing) :
    Effect → Option Checkpointing
  | .persistSession provider providerSessionId title model => do
    let (recordId, store) ← c.store.createSession c.state.nakodeSessionId provider providerSessionId
      title model creationPrompt
    pure { c with
      state := c.state.sessionPersisted recordId
      store
      created := creationPrompt.isSome }
  | .persistAcceptedOwnerPrompt sessionId prompt =>
    some (if c.created then c
      else { c with ownerPrompts := c.ownerPrompts ++ [(sessionId, prompt)] })
  | _ => some c

/-- The prompt of an effect that records one. -/
def acceptedPrompt? : Effect → Option PersistedOwnerPrompt
  | .persistAcceptedOwnerPrompt _ prompt => some prompt
  | _ => none

/-- `persist_owner_prompt_effects`, when no checkpoint fails. -/
def persistOwnerPromptEffects (store : Store) (effects : List Effect) :
    Option (DomainState × Store) := do
  let queue := s.changedPromptQueue store
  let checkpoints := effects.filter isPromptCheckpoint
  let c ← checkpoints.foldlM (Checkpointing.run (checkpoints.findSome? acceptedPrompt?))
    { state := s, store, ownerPrompts := [], created := false }
  let store ← if c.ownerPrompts.isEmpty && queue.isNone then pure c.store
    else c.store.savePromptDispatchCheckpoint c.ownerPrompts queue
  pure (c.state, store)

/-- `persist_session_primary_transitions`, when none fails. -/
def persistTransition (store : Store) : Effect → Option Store
  | .transitionSessionPrimary sessionId provider providerSessionId model =>
    store.transitionPrimary sessionId provider providerSessionId model
  | _ => some store

/-- The execution of the effects that are not checkpoints. -/
def executeEffect : DomainState × Store → Effect → DomainState × Store
  | (s, store), .acknowledgeOwnerPromptDispatch sessionId promptId =>
    match store.acknowledgeOwnerPromptDispatch sessionId promptId with
    | some store => (s.settleOwnerPromptDispatch promptId, store)
    | none => (s.ownerPromptDispatchAcknowledgementFailed promptId, store)
  | (s, store), .updateSessionLastTurn sessionId turn =>
    (s, (store.updateLastTurn sessionId turn).getD store)
  | (s, store), _ => (s, store)

def commit (store : Store) (effects : List Effect) : Option (DomainState × Store) := do
  let store ← effects.foldlM persistTransition store
  let (s, store) ← s.persistOwnerPromptEffects store effects
  pure ((effects.filter fun effect => !isPromptCheckpoint effect).foldl executeEffect (s, store))

end DomainState

/-- An engine beside its store: the steps whose checkpoints are all made. -/
def durable : System (DomainState × Store) Action where
  next x action x' := (x.1.step action).1.commit x.2 (x.1.step action).2 = some x'

end Nakode.Domain
