import Nakode.Protocol
import Nakode.Lib.Table
import Nakode.Lib.Trace

/-!
# Commands under idempotency keys

A client sends each mutation with an idempotency key, the revision it expects and whether the
mutation may only be replayed. The server keeps the result of the last commands under their keys
(`ServerCore.rememberCommand`) and answers a retry from there (`ServerCore.executeIdempotent`). The
runtime refuses a steer before it reaches the core and has the refusal kept too (`ServerCore.handle`);
it takes a checkpoint before a command and restores it when the command's effects cannot be made
durable (`capture`, `restore`).

What executing a command does to the sessions and everything else of the server is a parameter
(`Handlers`).
-/

namespace Nakode.Service

open Relational Transition

/-! ## Commands -/

/-- The commands that the handling of keys, revisions and checkpoints tells apart. What else a
command carries is its `body`. -/
inductive Command (β : Type) where
  | createSession (bridge parentSessionId profileId : Option String)
      (disabledSkillIds : List String) (body : β)
  | openSession (sessionId : String) (profileId : Option String) (enabledSkillIds : List String)
      (body : β)
  | sendPrompt (sessionId : String) (body : β)
  | enqueuePrompt (sessionId : String) (body : β)
  | removeQueuedPrompt (sessionId promptId : String)
  | steerQueuedPrompt (body : β)
  | steerFollowups (sessionId : String)
  | cancelSessionWork (sessionId : String) (body : β)
  | continueSessionFromBridge (body : β)
  | deleteSession (body : β)
  | clearSelf (body : β)
  | pruneSession (body : β)
  | setSkillEnabled (body : β)
  | pruneSkill (body : β)
  | removeProviderAccount (body : β)
  | setSessionBridgeLifecycle (body : β)
  | setWorkspaceBridgeLifecycle (body : β)
  | bindSessionBridgeThread (body : β)
  | clearSessionBridgeThread (body : β)
  | prepareBridgeDelivery (body : β)
  | completeBridgeDeliveryPart (body : β)
  | finalizeBridgeDelivery (body : β)
  | setBridgeLiveMessage (body : β)
  | other (body : β)
  deriving DecidableEq

namespace Command

variable {β : Type}

/-- The command as its digest is taken: without the skill selections that the runtime resolves. -/
def cleared : Command β → Command β
  | createSession bridge parentSessionId profileId _ body =>
    createSession bridge parentSessionId profileId [] body
  | openSession sessionId profileId _ body => openSession sessionId profileId [] body
  | command => command

def appendsPrompt : Command β → Bool
  | sendPrompt .. | enqueuePrompt .. => true
  | _ => false

/-- Prompt submission and exact-ID queue removal are owner intent, not edits to a revision. -/
def authoritativeQueueIntent : Command β → Bool
  | removeQueuedPrompt .. => true
  | command => command.appendsPrompt

end Command

/-! ## Results -/

/-- The result of an accepted command. What only some commands return is its `detail`. -/
structure CommandAccepted (α : Type) where
  resourceId : Option String
  revision : Option Nat
  detail : α
  deriving DecidableEq

structure CachedCommand (δ α : Type) where
  digest : δ
  result : Except ServiceError (CommandAccepted α)

/-- What the handling of a command asks of the rest of the server: the session a command is about,
revisions, queues, the execution itself, the check of a steer against the sessions and the inbox,
and what a checkpoint of bridge state restores besides the kept results. -/
structure Handlers (γ β α ε : Type) where
  commandSession : γ → Command β → Option String
  revisionOf : γ → String → Option Nat
  defaultRevision : γ → Nat
  hasSession : γ → String → Bool
  containsQueuedPrompt : γ → String → String → Bool
  executeCommand : γ → Command β → Option String →
    Except ServiceError (CommandAccepted α) × List ε × γ
  checkSteerable : γ → String → Except ServiceError Unit
  restoreBridges : γ → γ → γ

/-! ## The core -/

/-- The server: the results kept under their keys, the keys in the order they were recorded, and
everything else. -/
structure ServerCore (γ δ α : Type) where
  core : γ
  commandCache : Table String (CachedCommand δ α)
  commandOrder : List String

/-- One command of a client. -/
structure Request (β : Type) where
  idempotencyKey : String
  expectedRevision : Option Nat
  replayOnly : Bool
  command : Command β

/-- What handling a command returns. -/
structure Reply (α ε : Type) where
  result : Except ServiceError (CommandAccepted α)
  effects : List ε
  effectSession : Option String
  changed : Bool

def idempotencyCapacity : Nat := 1024

def maxRevision : Nat := 2 ^ 64 - 1

def keyReused : ServiceError :=
  ⟨.conflict, "the idempotency key was already used for a different command", false⟩

def resultGone : ServiceError :=
  ⟨.conflict, "the command result is no longer available; the mutation was not executed", false⟩

def staleRevision : ServiceError := ⟨.conflict, "the expected revision is stale", true⟩

variable {γ β α ε δ : Type}

/-- A command that was not executed. -/
def Reply.withheld (result : Except ServiceError (CommandAccepted α)) : Reply α ε :=
  ⟨result, [], none, false⟩

namespace Handlers

variable (h : Handlers γ β α ε)

/-- The revision of a session, or that of the default session. -/
def revision (core : γ) (session : Option String) : Nat :=
  (session.bind (h.revisionOf core)).getD (h.defaultRevision core)

/-- Whether an accepted command changes anything: removing a prompt that is not queued does not. -/
def changesState (core : γ) : Command β → Bool
  | .removeQueuedPrompt sessionId promptId => h.containsQueuedPrompt core sessionId promptId
  | _ => true

end Handlers

namespace ServerCore

variable [DecidableEq δ] (h : Handlers γ β α ε) (digest : Command β → δ)

def commandCached (s : ServerCore γ δ α) (key : String) : Bool := (s.commandCache.find? key).isSome

def rememberCommand (s : ServerCore γ δ α) (key : String) (digest : δ)
    (result : Except ServiceError (CommandAccepted α)) : ServerCore γ δ α :=
  let cache := s.commandCache.upsert key ⟨digest, result⟩ fun _ => ⟨digest, result⟩
  match s.commandOrder ++ [key] with
  | expired :: order =>
    if idempotencyCapacity < (expired :: order).length then
      { s with commandCache := cache.delete fun key _ => key = expired, commandOrder := order }
    else { s with commandCache := cache, commandOrder := expired :: order }
  | [] => { s with commandCache := cache, commandOrder := [] }

/-- A refusal decided before the core ran, kept for a retry under the same key. -/
def rememberRefusal (s : ServerCore γ δ α) (key : String) (command : Command β)
    (error : ServiceError) : ServerCore γ δ α :=
  s.rememberCommand key (digest command.cleared) (.error error)

/-- The execution of a command that is neither a retry nor replayed only, behind the revision
fence. -/
def dispatch (s : ServerCore γ δ α) (r : Request β) :
    Except ServiceError (CommandAccepted α) × List ε × γ :=
  let commandRevision := h.revision s.core (h.commandSession s.core r.command)
  if !r.command.authoritativeQueueIntent
      && r.expectedRevision.any (· != commandRevision) then
    (.error staleRevision, [], s.core)
  else h.executeCommand s.core r.command (if r.command.appendsPrompt then r.idempotencyKey else none)

/-- `execute_idempotent_with_child_questions`. -/
def executeIdempotent (s : ServerCore γ δ α) (r : Request β) : Reply α ε × ServerCore γ δ α :=
  let commandDigest := digest r.command.cleared
  match s.commandCache.find? r.idempotencyKey with
  | some cached =>
    (.withheld (if cached.digest = commandDigest then cached.result else .error keyReused), s)
  | none =>
    if r.replayOnly then (.withheld (.error resultGone), s)
    else
      let (result, effects, core) := s.dispatch h r
      let named := match result with
        | .ok accepted => accepted.resourceId.filter (h.hasSession core)
        | .error _ => none
      let effectSession := (h.commandSession s.core r.command).or named
      let changed := result.toBool && h.changesState s.core r.command
      let result := result.map fun accepted =>
        { accepted with
          revision := some (min maxRevision (h.revision core effectSession + changed.toNat)) }
      (⟨result, effects, effectSession, changed⟩,
        { s with core }.rememberCommand r.idempotencyKey commandDigest result)

/-- A command as the runtime hands it on. A steer that is not a retry is checked first, in the
same turn of the actor, and its refusal is kept. -/
def handle (s : ServerCore γ δ α) (r : Request β) : Reply α ε × ServerCore γ δ α :=
  match r.command with
  | .steerFollowups sessionId =>
    if s.commandCached r.idempotencyKey then s.executeIdempotent h digest r
    else
      match h.checkSteerable s.core sessionId with
      | .ok _ => s.executeIdempotent h digest r
      | .error error =>
        (.withheld (.error error), s.rememberRefusal digest r.idempotencyKey r.command error)
  | _ => s.executeIdempotent h digest r

end ServerCore

/-! ## Checkpoints -/

/-- How much of the server a checkpoint holds. -/
inductive BridgeMutationRollback where
  | full
  | bridgeOnly
  deriving DecidableEq, Repr

/-- The checkpoint that is taken before a command, with the one a stop takes for itself. -/
def BridgeMutationRollback.capture : Command β → Option BridgeMutationRollback
  | .createSession (some _) _ _ _ _ | .createSession _ (some _) _ _ _ | .sendPrompt ..
  | .enqueuePrompt .. | .removeQueuedPrompt .. | .steerQueuedPrompt _
  | .continueSessionFromBridge _ | .deleteSession _ | .clearSelf _ | .pruneSession _
  | .openSession _ (some _) _ _ | .setSkillEnabled _ | .pruneSkill _ | .removeProviderAccount _
  | .setSessionBridgeLifecycle _ | .setWorkspaceBridgeLifecycle _ | .cancelSessionWork .. =>
    some .full
  | .bindSessionBridgeThread _ | .clearSessionBridgeThread _ | .prepareBridgeDelivery _
  | .completeBridgeDeliveryPart _ | .finalizeBridgeDelivery _ | .setBridgeLiveMessage _ =>
    some .bridgeOnly
  | _ => none

/-- The server `s'` with what the checkpoint of `s` holds. -/
def BridgeMutationRollback.restore (h : Handlers γ β α ε) (s s' : ServerCore γ δ α) :
    BridgeMutationRollback → ServerCore γ δ α
  | full => s
  | bridgeOnly => { s with core := h.restoreBridges s.core s'.core }

/-! ## The server's steps -/

/-- A command that is recorded, with the result it had. -/
structure Receipt (β α : Type) where
  key : String
  command : Command β
  result : Except ServiceError (CommandAccepted α)

/-- The server, and the commands recorded so far, the newest first. -/
structure Audited (γ β δ α : Type) where
  server : ServerCore γ δ α
  journal : List (Receipt β α)

inductive Action (γ β : Type) where
  | command (request : Request β)
  /-- The effects of a command cannot be made durable: its checkpoint is restored. -/
  | rolledBack (request : Request β)
  /-- Anything else the server does, between commands or for the effects of one. -/
  | other (core : γ)

/-- A command is recorded when a result is kept under its key afterwards and was not before. -/
def recorded (s s' : ServerCore γ δ α) (r : Request β)
    (result : Except ServiceError (CommandAccepted α)) : List (Receipt β α) :=
  if s'.commandCached r.idempotencyKey && !s.commandCached r.idempotencyKey then
    [⟨r.idempotencyKey, r.command, result⟩]
  else []

variable [DecidableEq δ]

/-- The server's steps, for given handlers and a given digest. -/
def system (h : Handlers γ β α ε) (digest : Command β → δ) :
    System (Audited γ β δ α) (Action γ β) where
  next a action a' := match action with
    | .command r =>
      a' = ⟨(a.server.handle h digest r).2,
        recorded a.server (a.server.handle h digest r).2 r (a.server.handle h digest r).1.result
          ++ a.journal⟩
    | .rolledBack r => ∃ checkpoint, BridgeMutationRollback.capture r.command = some checkpoint ∧
      a' = ⟨checkpoint.restore h a.server (a.server.handle h digest r).2, a.journal⟩
    | .other core => a' = ⟨{ a.server with core }, a.journal⟩

/-- A server as it starts: no result is kept. -/
def ServerCore.new (core : γ) : ServerCore γ δ α := ⟨core, ∅, []⟩

def Audited.new (core : γ) : Audited γ β δ α := ⟨.new core, []⟩

end Nakode.Service
