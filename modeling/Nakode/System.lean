import Nakode.Session
import Nakode.Lib.Trace

/-!
# The system

The operations that any number of store handles and the repository perform on one database, in any
order. Each is one transaction (`dispatchSession` a short series of them): it answers and commits,
or it fails and leaves the database as it was (`perform`). `machine` is the transition system of
the databases under them.
-/

namespace Nakode

open Transition

variable {δ : Type}

inductive Failure where
  | service (error : ServiceError)
  | session (error : SessionError)
  | sql (error : String)
  deriving DecidableEq, Repr

/-- The operations, each with what its caller supplies: the request, the clock where a trigger or a
hold reads it, the fresh identity of a batch, and the answers of the runtime. -/
inductive Op where
  -- the inbox
  | execute (request : InboxRequest) (runtime : Runtime)
  | admitChildEvents
  | claim (session uuid : String)
  | fenceDispatch (session batch : String)
  | observeAccepted (session batch turn : String)
  | acknowledge (session turn : String)
  | block (batch reason : String)
  | pause (session : String)
  | dispatch (session uuid : String) (prompted persisted : ClaimedBatch → Option String)
  -- reports and relationships
  | report (request : ReportRequest)
  | recordQuestion (child : String) (question : QuestionRequest) (nowMs : Int)
  | reparent (request : ReparentRequest) (authenticate : Except ServiceError Unit)
  -- the repository
  | createSession (clockMs : Int) (request : SessionCreation)
  | bindProfile (session profile : String)
  | saveBridge (session : String) (bridge : Bridge)
  | renameSession (session title : String)
  | recordRun (run parent : String)
  | updateLastTurn (session : String) (turn : LastTurn)
  | holdDeletion (nowMs : Int) (session : String) (parent : Option String)
  | releaseHold (session : String)
  | deleteGuarded (clockMs : Int) (id : String) (guard : DeletionGuard)
  | deleteSession (clockMs : Int) (session : String)
  | purgeAll
  | reopen

inductive Answer where
  | done
  | resource (id : Option String)
  | admitted (any : Bool)
  | batch (claimed : Option ClaimedBatch)
  | handed (batch : Option ClaimedBatch)
  | fresh (hold : Bool)
  deriving DecidableEq, Repr

/-- One operation: its answer and the database it commits, or its failure. -/
def perform [DecidableEq δ] (deps : Deps δ) (op : Op) (db : Db δ) :
    Except Failure (Answer × Db δ) :=
  match op with
  | .execute request runtime =>
    ((executeAuthenticated deps runtime db request).map fun (id, db) => (.resource id, db))
      |>.mapError .service
  | .admitChildEvents =>
    ((admitChildEvents deps db).map fun (any, db) => (.admitted any, db)).mapError .service
  | .claim session uuid =>
    ((claim db session uuid).map fun (batch, db) => (.batch batch, db)).mapError .service
  | .fenceDispatch session batch =>
    ((fenceDispatch db session batch).map fun db => (.done, db)).mapError .service
  | .observeAccepted session batch turn =>
    ((observeAccepted db session batch turn).map fun db => (.done, db)).mapError .service
  | .acknowledge session turn => .ok (.done, acknowledge db session turn)
  | .block batch reason => .ok (.done, block db batch reason)
  | .pause session => .ok (.done, pause db session)
  | .dispatch session uuid prompted persisted =>
    let (batch, db) := dispatchSession db session uuid prompted persisted
    .ok (.handed batch, db)
  | .report request =>
    ((executeReport deps db request).map fun db => (.done, db)).mapError .service
  | .recordQuestion child question nowMs =>
    ((recordQuestion deps db child question nowMs).map fun db => (.done, db)).mapError .service
  | .reparent request authenticate =>
    ((Nakode.reparent deps db request authenticate).map fun db => (.done, db)).mapError .service
  | .createSession clockMs request =>
    ((createSession db clockMs request).map fun db => (.done, db)).mapError .session
  | .bindProfile session profile =>
    ((bindSessionSkillProfile db.directory session profile).map fun directory =>
      (.done, { db with directory := directory })).mapError .session
  | .saveBridge session bridge =>
    ((saveSessionBridge db.directory session bridge).map fun directory =>
      (.done, { db with directory := directory })).mapError .session
  | .renameSession session title => .ok (.done, renameSession db session title)
  | .recordRun run parent => ((recordRun db run parent).map fun db => (.done, db)).mapError .sql
  | .updateLastTurn session turn =>
    ((updateLastTurn db session turn).map fun db => (.done, db)).mapError .session
  | .holdDeletion nowMs session parent =>
    ((holdChildDeletion db nowMs session parent).map fun (free, db) => (.fresh free, db))
      |>.mapError .session
  | .releaseHold session => .ok (.done, db.release session)
  | .deleteGuarded clockMs id guard =>
    ((deleteGuarded db clockMs id guard).map fun db => (.done, db)).mapError .session
  | .deleteSession clockMs session =>
    ((deleteSession db clockMs session).map fun db => (.done, db)).mapError .sql
  | .purgeAll => .ok (.done, purgeAll db)
  | .reopen => .ok (.done, reopen db)

/-- The database after an operation: what it commits, or the one before when it fails. -/
def after [DecidableEq δ] (deps : Deps δ) (op : Op) (db : Db δ) : Db δ :=
  match perform deps op db with
  | .ok (_, db') => db'
  | .error _ => db

/-- Databases under the operations, in any order. -/
def machine [DecidableEq δ] (deps : Deps δ) : System (Db δ) Op where
  next db op db' := after deps op db = db'

@[simp] theorem machine_next [DecidableEq δ] {deps : Deps δ} {db db' : Db δ} {op : Op} :
    (machine deps).next db op db' ↔ after deps op db = db' := Iff.rfl

/-- An operation commits what it answers with, or it leaves the database as it is. -/
theorem next_cases [DecidableEq δ] {deps : Deps δ} {db db' : Db δ} {op : Op}
    (h : (machine deps).next db op db') :
    db' = db ∨ ∃ answer, perform deps op db = .ok (answer, db') := by
  simp only [machine_next, after] at h
  split at h
  · next answer db₁ hperform =>
    subst h
    exact .inr ⟨answer, hperform⟩
  · exact .inl h.symm

/-- The database after operations, one after another. -/
def afterAll [DecidableEq δ] (deps : Deps δ) (ops : List Op) (db : Db δ) : Db δ :=
  ops.foldl (fun db op => after deps op db) db

/-- Operations always run, and where they lead is settled by where they start. -/
theorem machine_run_iff [DecidableEq δ] {deps : Deps δ} {db db' : Db δ} {ops : List Op} :
    (machine deps).Run db ops db' ↔ afterAll deps ops db = db' := by
  constructor
  · intro h
    induction h with
    | nil => rfl
    | cons hnext _ ih => exact (congrArg (afterAll deps _) hnext).trans ih
  · rintro rfl
    induction ops generalizing db with
    | nil => exact .nil _
    | cons op ops ih => exact .cons rfl ih

/-- Operations that meet a condition in every state are a run of the restricted system. -/
theorem restrict_run [DecidableEq δ] {deps : Deps δ} {C : Db δ → Op → Prop} {db : Db δ}
    {ops : List Op} (h : ∀ op ∈ ops, ∀ db, C db op) :
    ((machine deps).restrict C).Run db ops (afterAll deps ops db) := by
  induction ops generalizing db with
  | nil => exact .nil _
  | cons op ops ih =>
    exact .cons ⟨h op List.mem_cons_self db, rfl⟩ (ih fun o ho => h o (List.mem_cons_of_mem _ ho))

/-- The operation deletes no session. -/
def Op.keepsSessions : Op → Bool
  | .deleteGuarded .. | .deleteSession .. | .purgeAll => false
  | _ => true

/-- The operation writes to the directory of the sessions. -/
def Op.editsDirectory : Op → Bool
  | .createSession .. | .bindProfile .. | .saveBridge .. | .renameSession .. | .recordRun ..
  | .deleteGuarded .. => true
  | _ => false

/-- The operation changes the parent of no session that has one: it is no transfer and no
instruction of an owner Chat, which adopts the agent. -/
def Op.keepsParents : Op → Bool
  | .reparent request _ =>
    match request.command with
    | .reparentChildSession _ _ _ _ _ transfer => !transfer
    | _ => true
  | .execute request _ =>
    match request.command with
    | .relayAgentFollowup _ _ _ _ _ ownerChat => !ownerChat
    | _ => true
  | _ => true

end Nakode
