import Nakode.Service.Commands
import Nakode.Lib.Retention

/-!
# Retried commands replay their receipts

The two structures that keep results, the map and the queue of keys, are the last
`idempotencyCapacity` records of the journal of all recorded commands (`Audited.Faithful`): a
command is recorded only while no result is kept under its key (`handle_cases`), and a checkpoint
restores both structures together. So a retry finds the result of the first execution until that
many further keys have been recorded (`receipts_replay`).
-/

namespace Nakode.Service

open Relational Transition

variable {γ β α ε δ : Type}

namespace ServerCore

theorem rememberCommand_eq (s : ServerCore γ δ α) (key : String) (digest : δ)
    (result : Except ServiceError (CommandAccepted α)) :
    s.rememberCommand key digest result =
      let kept := Retention.record idempotencyCapacity s.commandCache s.commandOrder key
        ⟨digest, result⟩
      { s with commandCache := kept.1, commandOrder := kept.2 } := by
  unfold rememberCommand Retention.record
  cases s.commandOrder ++ [key] with
  | nil => rfl
  | cons expired order =>
    dsimp only
    split <;> rfl

variable [DecidableEq δ] (h : Handlers γ β α ε) (digest : Command β → δ)

/-- A retry is answered from the kept results. -/
theorem executeIdempotent_of_cached {s : ServerCore γ δ α} {r : Request β}
    {cached : CachedCommand δ α} (hcached : s.commandCache.find? r.idempotencyKey = some cached) :
    s.executeIdempotent h digest r =
      (.withheld (if cached.digest = digest r.command.cleared then cached.result
        else .error keyReused), s) := by
  simp only [executeIdempotent, hcached]

/-- A command that may only be replayed and has no result left. -/
theorem executeIdempotent_of_replayOnly {s : ServerCore γ δ α} {r : Request β}
    (hfree : s.commandCache.find? r.idempotencyKey = none) (hreplay : r.replayOnly = true) :
    s.executeIdempotent h digest r = (.withheld (.error resultGone), s) := by
  simp only [executeIdempotent, hfree, hreplay, if_true]

/-- Any other command is recorded with the result it returns. -/
theorem executeIdempotent_of_fresh {s : ServerCore γ δ α} {r : Request β}
    (hfree : s.commandCache.find? r.idempotencyKey = none) (hreplay : r.replayOnly = false) :
    ∃ (reply : Reply α ε) (core : γ), s.executeIdempotent h digest r =
      (reply, { s with core }.rememberCommand r.idempotencyKey (digest r.command.cleared)
        reply.result) := by
  simp only [executeIdempotent, hfree, hreplay, Bool.false_eq_true, if_false]
  exact ⟨_, _, rfl⟩

/-- A command is executed under its key, or is a steer that is refused and recorded. -/
theorem handle_eq (s : ServerCore γ δ α) (r : Request β) :
    s.handle h digest r = s.executeIdempotent h digest r ∨
    (s.commandCache.find? r.idempotencyKey = none ∧ ∃ session error,
      r.command = .steerFollowups session ∧ h.checkSteerable s.core session = .error error ∧
      s.handle h digest r = (.withheld (.error error),
        s.rememberCommand r.idempotencyKey (digest r.command.cleared) (.error error))) := by
  unfold handle
  split
  · next session hcommand =>
    cases hfind : s.commandCache.find? r.idempotencyKey with
    | some cached => simp [commandCached, hfind]
    | none =>
      cases hcheck : h.checkSteerable s.core session with
      | ok => simp [commandCached, hfind]
      | error error =>
        refine .inr ⟨rfl, session, error, hcommand, hcheck, ?_⟩
        simp [commandCached, hfind, rememberRefusal]
  · exact .inl rfl

/-- A command is a retry, or is not executed since it may only be replayed, or is recorded under a
key that has no result. Of the commands that may only be replayed, only a refused steer is
recorded. -/
theorem handle_cases (s : ServerCore γ δ α) (r : Request β) :
    (∃ cached, s.commandCache.find? r.idempotencyKey = some cached ∧
      s.handle h digest r = (.withheld (if cached.digest = digest r.command.cleared then
        cached.result else .error keyReused), s)) ∨
    (s.commandCache.find? r.idempotencyKey = none ∧
      s.handle h digest r = (.withheld (.error resultGone), s)) ∨
    (s.commandCache.find? r.idempotencyKey = none ∧
      ∃ (reply : Reply α ε) (core : γ), (r.replayOnly = true → core = s.core ∧
          ∃ error session, r.command = .steerFollowups session ∧
            reply = .withheld (.error error)) ∧
        s.handle h digest r =
          (reply, { s with core }.rememberCommand r.idempotencyKey (digest r.command.cleared)
            reply.result)) := by
  obtain heq | ⟨hfree, session, error, hcommand, -, heq⟩ := handle_eq h digest s r
  · rw [heq]
    cases hfind : s.commandCache.find? r.idempotencyKey with
    | some cached => exact .inl ⟨cached, rfl, executeIdempotent_of_cached h digest hfind⟩
    | none =>
      refine .inr ?_
      cases hreplay : r.replayOnly with
      | true => exact .inl ⟨rfl, executeIdempotent_of_replayOnly h digest hfind hreplay⟩
      | false =>
        obtain ⟨reply, core, hexecute⟩ := executeIdempotent_of_fresh h digest hfind hreplay
        exact .inr ⟨rfl, reply, core, nofun, hexecute⟩
  · exact .inr (.inr ⟨hfree, .withheld (.error error), s.core,
      fun _ => ⟨rfl, error, session, hcommand, rfl⟩, heq⟩)

end ServerCore

/-! ## The journal -/

/-- The record that a receipt leaves. -/
def Receipt.record (digest : Command β → δ) (receipt : Receipt β α) :
    String × CachedCommand δ α :=
  (receipt.key, ⟨digest receipt.command.cleared, receipt.result⟩)

/-- The map and the queue are the last records of the journal. -/
def Audited.Faithful (digest : Command β → δ) (a : Audited γ β δ α) : Prop :=
  Retention.Keeps idempotencyCapacity a.server.commandCache a.server.commandOrder
    (a.journal.map (Receipt.record digest))

variable [DecidableEq δ] {h : Handlers γ β α ε} {digest : Command β → δ}

theorem idempotencyCapacity_pos : 0 < idempotencyCapacity := by decide

theorem faithful_step {a a' : Audited γ β δ α} {action : Action γ β}
    (hstep : (system h digest).next a action a') (ha : a.Faithful digest) : a'.Faithful digest := by
  cases action with
  | other core => cases hstep; exact ha
  | rolledBack r =>
    obtain ⟨checkpoint, -, rfl⟩ := hstep
    cases checkpoint <;> exact ha
  | command r =>
    cases hstep
    obtain ⟨cached, -, heq⟩ | ⟨-, heq⟩ | ⟨hfree, reply, core, -, heq⟩ :=
      a.server.handle_cases h digest r
    · simpa [heq, recorded] using ha
    · simpa [heq, recorded] using ha
    · have hkept := Retention.Keeps.record ha hfree
        (⟨digest r.command.cleared, reply.result⟩ : CachedCommand δ α) idempotencyCapacity_pos
      have hcached := hkept.kept (List.nil_append _).symm idempotencyCapacity_pos
      have hrecorded : recorded a.server (a.server.handle h digest r).2 r
          (a.server.handle h digest r).1.result = [⟨r.idempotencyKey, r.command, reply.result⟩] := by
        simp [recorded, heq, ServerCore.commandCached, ServerCore.rememberCommand_eq, hcached, hfree]
      rw [hrecorded, heq, ServerCore.rememberCommand_eq]
      exact hkept

theorem faithful_run {core : γ} {actions : List (Action γ β)} {a : Audited γ β δ α}
    (hrun : (system h digest).Run (.new core) actions a) : a.Faithful digest :=
  hrun.invariant faithful_step (.empty _)

/-! ## Receipts -/

/-- A result is kept for a receipt, and whatever comes under its key now has no effects and leaves
the server as it is: the same command, but for the skill selections that the runtime resolves, is
answered with the result of the receipt, and any other command with a conflict. -/
structure Replays (h : Handlers γ β α ε) (digest : Command β → δ) (s : ServerCore γ δ α)
    (receipt : Receipt β α) : Prop where
  cached : s.commandCached receipt.key = true
  same : ∀ r, r.idempotencyKey = receipt.key → r.command.cleared = receipt.command.cleared →
    s.handle h digest r = (.withheld receipt.result, s)
  different : ∀ r, r.idempotencyKey = receipt.key → r.command.cleared ≠ receipt.command.cleared →
    s.handle h digest r = (.withheld (.error keyReused), s)

theorem replays_of_find? {s : ServerCore γ δ α} {receipt : Receipt β α}
    (hdigest : digest.Injective)
    (hfind : s.commandCache.find? receipt.key = some (receipt.record digest).2) :
    Replays h digest s receipt := by
  have hhandle : ∀ r : Request β, r.idempotencyKey = receipt.key →
      s.handle h digest r = (.withheld (if digest receipt.command.cleared = digest r.command.cleared
        then receipt.result else .error keyReused), s) := by
    intro r hkey
    rw [← hkey] at hfind
    obtain ⟨cached, hcached, heq⟩ | ⟨hfree, -⟩ | ⟨hfree, -⟩ := s.handle_cases h digest r
    · rw [hfind] at hcached
      cases hcached
      exact heq
    · simp [hfind] at hfree
    · simp [hfind] at hfree
  refine ⟨by simp [ServerCore.commandCached, hfind], fun r hkey hsame => ?_,
    fun r hkey hdifferent => ?_⟩
  · rw [hhandle r hkey, if_pos (congrArg digest hsame.symm)]
  · rw [hhandle r hkey, if_neg fun heq => hdifferent (hdigest heq).symm]

/-- In every run, with any commands, keys, revisions and checkpoints: the map and the queue of keys
hold the same keys, each once and at most `idempotencyCapacity` of them; what is kept under a key is
replayed from the last command recorded under it; a receipt is given up only when
`idempotencyCapacity` further keys have been recorded; and a command that may only be replayed
executes nothing. -/
theorem receipts_replay (hdigest : digest.Injective) {core : γ} {actions : List (Action γ β)}
    {a : Audited γ β δ α} (hrun : (system h digest).Run (.new core) actions a) :
    ((a.server.commandCache.rows.map Prod.fst).Perm a.server.commandOrder ∧
      a.server.commandOrder.Nodup ∧ a.server.commandOrder.length ≤ idempotencyCapacity) ∧
    (∀ key, a.server.commandCached key = true → ∃ newer receipt older,
      a.journal = newer ++ receipt :: older ∧ receipt.key = key ∧ (∀ r ∈ newer, r.key ≠ key) ∧
        Replays h digest a.server receipt) ∧
    (∀ newer receipt older, a.journal = newer ++ receipt :: older →
      Replays h digest a.server receipt ∨
      ∃ keys : List String, keys.length = idempotencyCapacity ∧ keys.Nodup ∧ receipt.key ∉ keys ∧
        ∀ key ∈ keys, ∃ r ∈ newer, r.key = key) ∧
    ∀ r : Request β, r.replayOnly = true →
      (a.server.handle h digest r).2.core = a.server.core ∧
      ∃ result, (a.server.handle h digest r).1 = .withheld result ∧
        (a.server.commandCached r.idempotencyKey = false →
          a.server.handle h digest r = (.withheld (.error resultGone), a.server) ∨
          ∃ error session, r.command = .steerFollowups session ∧ result = .error error) := by
  have ha := faithful_run hrun
  refine ⟨⟨?_, ?_, ha.length_le⟩, fun key hcached => ?_, fun newer receipt older hj => ?_,
    fun r hreplay => ?_⟩
  · rw [ha.order]
  · rw [ha.order]
    exact a.server.commandCache.keys
  · obtain ⟨cached, hfind⟩ := Option.isSome_iff_exists.1 hcached
    obtain ⟨newer', older', hj, hne⟩ := ha.last hfind
    obtain ⟨newer, rest, hjournal, rfl, hrest⟩ := List.map_eq_append_iff.1 hj
    obtain ⟨receipt, older, rfl, hreceipt, -⟩ := List.map_eq_cons_iff.1 hrest
    have hkey : receipt.key = key := congrArg Prod.fst hreceipt
    subst hkey
    refine ⟨newer, receipt, older, hjournal, rfl, fun r hr => hne _ (List.mem_map_of_mem hr),
      replays_of_find? hdigest ?_⟩
    rw [hfind, hreceipt]
  · have hrecords : a.journal.map (Receipt.record digest) = newer.map (Receipt.record digest)
        ++ receipt.record digest :: older.map (Receipt.record digest) := by simp [hj]
    by_cases hlen : newer.length < idempotencyCapacity
    · exact .inl (replays_of_find? hdigest (ha.kept hrecords (by simpa using hlen)))
    · have hspaced := ha.spaced
      rw [hrecords, List.map_append, List.map_cons] at hspaced
      obtain ⟨keys, hkeys, hnodup, hnotin, hnewer⟩ := hspaced.further (by simpa using hlen)
      exact .inr ⟨keys, hkeys, hnodup, hnotin, fun key hkey => by
        simpa [Receipt.record] using hnewer key hkey⟩
  · obtain ⟨cached, hcached, heq⟩ | ⟨-, heq⟩ | ⟨-, reply, core, hreplayed, heq⟩ :=
      a.server.handle_cases h digest r
    · rw [heq]
      refine ⟨rfl, _, rfl, fun hfree => ?_⟩
      simp [ServerCore.commandCached, hcached] at hfree
    · rw [heq]
      exact ⟨rfl, _, rfl, fun _ => .inl rfl⟩
    · obtain ⟨rfl, error, session, hcommand, rfl⟩ := hreplayed hreplay
      rw [heq, ServerCore.rememberCommand_eq]
      exact ⟨rfl, _, rfl, fun _ => .inr ⟨error, session, hcommand, rfl⟩⟩

/-! ## Instances -/

/-- A server that counts what it executes, for sessions that all exist and can all be steered. -/
def counting : Handlers Nat Unit Unit Unit where
  commandSession _ _ := none
  revisionOf core _ := some core
  defaultRevision core := core
  hasSession _ _ := true
  containsQueuedPrompt _ _ _ := true
  executeCommand core _ _ := (.ok ⟨none, none, ()⟩, [()], core + 1)
  checkSteerable _ _ := .ok ()
  restoreBridges _ core := core

/-- The creation of a session for a profile, with the skills that the runtime found disabled. -/
def creation (disabledSkillIds : List String) : Request Unit :=
  ⟨"create", none, false, .createSession none none (some "profile") disabledSkillIds ()⟩

/-- A session is created and the creation retried. -/
theorem receipts_replay_creation :
    let a : Audited Nat Unit (Command Unit) Unit :=
      ⟨((ServerCore.new 0).handle counting id (creation [])).2,
        [⟨"create", (creation []).command, .ok ⟨none, some 2, ()⟩⟩]⟩
    a.server.commandOrder.Nodup ∧
      (a.server.handle counting id ⟨"create", none, true, (creation []).command⟩).2.core =
        a.server.core :=
  have hrun : (system counting (id : Command Unit → Command Unit)).Run (.new 0)
      [.command (creation [])] _ := .single rfl
  have hreplay := receipts_replay Function.injective_id hrun
  ⟨hreplay.1.2.1, (hreplay.2.2.2 ⟨"create", none, true, (creation []).command⟩ rfl).1⟩

/-- A skill is disabled between a creation and its retry: the command that the core compares is a
different one, and is answered with the first result. -/
theorem resolved_skills_replay :
    (creation ["skill"]).idempotencyKey = (creation []).idempotencyKey ∧
    (creation ["skill"]).command ≠ (creation []).command ∧
    let first := (ServerCore.new 0).handle counting (id : Command Unit → Command Unit) (creation [])
    let second := first.2.handle counting id (creation ["skill"])
    first.1.result = .ok ⟨none, some 2, ()⟩ ∧ second.1.result = .ok ⟨none, some 2, ()⟩ := by
  refine ⟨rfl, by decide, rfl, rfl⟩

end Nakode.Service
