import Nakode.Kinship.Deletion
import Nakode.Kinship.Forest
import Nakode.Lib.Lease
import Nakode.Operations

/-!
# Deletion holds protect a child

No operation of another handle moves a child while an unexpired hold is on it (`perform_spares`),
and a command that was not rejected keeps its hold until it runs out or the child is deleted
(`Protected`), whatever other commands are rejected meanwhile.
-/

namespace Nakode

open Outcome Relational Transition

variable {δ : Type}

/-! ## Operations under a hold -/

/-- No hold changes, and the links of the held children stay. -/
structure Spares (now : Int) (k k' : Kinship δ) : Prop where
  holds : k'.holds = k.holds
  links : ∀ child, k.held child now = true → k'.links.find? child = k.links.find? child

namespace Spares

variable {now : Int} {k k' k'' : Kinship δ}

theorem refl (now : Int) (k : Kinship δ) : Spares now k k := ⟨rfl, fun _ _ => rfl⟩

theorem trans (h : Spares now k k') (h' : Spares now k' k'') : Spares now k k'' where
  holds := h'.holds.trans h.holds
  links child hheld := by
    have hheld' : k'.held child now = true := by rw [Kinship.held, h.holds]; exact hheld
    rw [h'.links child hheld', h.links child hheld]

/-- A change to the links of a child that is not held. -/
theorem of_free {child : String} (hholds : k'.holds = k.holds) (hfree : k.held child now = false)
    (hrest : ∀ c, c ≠ child → k'.links.find? c = k.links.find? c) : Spares now k k' where
  holds := hholds
  links c hheld := by
    refine hrest c ?_
    rintro rfl
    rw [hfree] at hheld
    cases hheld

end Spares

/-- The write changes neither links nor holds. -/
def Write.quiet : Write δ → Bool
  | .kin (.link ..) | .kin (.repoint ..) | .kin (.holds _) | .forget _ | .purge => false
  | _ => true

theorem Write.spares_of_quiet {w : Write δ} (h : w.quiet = true) (now : Int) (db : Db δ) :
    Spares now db.kinship (w.apply db).kinship := by
  cases w with
  | kin w =>
    cases w with
    | transition | revise => exact ⟨rfl, fun _ _ => rfl⟩
    | _ => cases h
  | forget | purge => cases h
  | _ => exact .refl now db.kinship

theorem Writes.spares {n : Nat} {db db' : Db δ} (h : Writes (fun w => w.quiet = true) n db db')
    (now : Int) : Spares now db.kinship db'.kinship :=
  h.invariant (Q := fun d => Spares now db.kinship d.kinship)
    (fun _ hquiet hd => hd.trans (Write.spares_of_quiet hquiet now _)) (.refl now db.kinship)

theorem insertLink_spares {db db' : Db δ} {now : Int} {child parent title : String}
    (h : insertLink db now child parent title = .ok db') :
    Spares now db.kinship db'.kinship := by
  simp only [insertLink, bind_eq_ok, ensure_eq_ok, need_eq_ok, pure_eq_ok, Bool.not_eq_true',
    Table.insert?_eq_some_iff] at h
  obtain ⟨_, hfree, _, ⟨-, rfl⟩, _, -, _, -, rfl⟩ := h
  refine .of_free rfl hfree fun c hc => ?_
  simp [hc]

theorem repointLink_spares {db db' : Db δ} {now : Int} {child parent : String}
    (h : repointLink db now child parent = .ok db') : Spares now db.kinship db'.kinship := by
  simp only [repointLink] at h
  split at h
  · obtain rfl := pure_eq_ok.1 h
    exact .refl now db.kinship
  split at h
  · obtain rfl := pure_eq_ok.1 h
    exact .refl now db.kinship
  · simp only [bind_eq_ok, ensure_eq_ok, pure_eq_ok, Bool.not_eq_true'] at h
    obtain ⟨_, hfree, _, -, _, -, rfl⟩ := h
    refine .of_free rfl hfree fun c hc => ?_
    simp [hc]

theorem linkInTransaction_spares {db db' : Db δ} {now : Int} {parent child : String}
    (h : linkInTransaction db now parent child = .ok db') :
    Spares now db.kinship db'.kinship := by
  simp only [linkInTransaction, bind_eq_ok] at h
  obtain ⟨_, -, _, -, title, -, h⟩ := h
  split at h
  · simp only [bind_eq_ok, pure_eq_ok] at h
    obtain ⟨_, -, rfl⟩ := h
    exact .refl now db.kinship
  · simp only [bind_eq_ok, mapError_eq_ok] at h
    obtain ⟨_, -, _, -, h⟩ := h
    exact insertLink_spares h

theorem adopt_spares {db db' : Db δ} {now : Int} {chat agent : String}
    (h : adopt db now chat agent = .ok db') : Spares now db.kinship db'.kinship := by
  simp only [adopt] at h
  repeat' split at h
  all_goals first
    | exact repointLink_spares (mapError_eq_ok.1 h)
    | exact insertLink_spares (mapError_eq_ok.1 h)
    | (obtain rfl := pure_eq_ok.1 h; exact .refl now db.kinship)

theorem applyReparent_spares {db db' : Db δ} {now : Int} {request : Reparent}
    (h : applyReparent db now request = .ok db') : Spares now db.kinship db'.kinship := by
  simp only [applyReparent, bind_eq_ok] at h
  obtain ⟨_, -, _, -, _, -, _, -, _, -, h⟩ := h
  split at h
  · exact repointLink_spares (mapError_eq_ok.1 h)
  · exact linkInTransaction_spares h

/-- Handing a batch out claims, blocks or fences it. -/
theorem dispatchSession_spares {db : Db δ} {session uuid : String}
    {prompted persisted : ClaimedBatch → Option String} (now : Int) :
    Spares now db.kinship (dispatchSession db session uuid prompted persisted).2.kinship := by
  simp only [dispatchSession]
  split
  · exact .refl _ _
  · next hclaim => exact (claim_writes (fun _ _ _ _ => rfl) hclaim).spares now
  · next batch db₁ hclaim =>
    refine ((claim_writes (fun _ _ _ _ => rfl) hclaim).spares now).trans ?_
    split
    · exact .refl _ _
    · split
      · exact .refl _ _
      · next hfence =>
        obtain ⟨-, rfl⟩ := fenceDispatch_eq_ok hfence
        exact .refl _ _

theorem reparent_spares [DecidableEq δ] {deps : Deps δ} {db db' : Db δ} {request : ReparentRequest}
    {authenticate : Except ServiceError Unit}
    (h : reparent deps db request authenticate = .ok db') :
    Spares request.clockMs db.kinship db'.kinship := by
  obtain ⟨change, -, ⟨_, -, rfl⟩ | ⟨-, db₁, row, happly, -, -, -, -, -, -, -, rfl⟩⟩ :=
    reparent_eq_ok h
  · exact .refl _ _
  · exact (applyReparent_spares happly).trans ⟨rfl, fun _ _ => rfl⟩

theorem executeReport_spares [DecidableEq δ] {deps : Deps δ} {db db' : Db δ}
    {request : ReportRequest} (h : executeReport deps db request = .ok db') :
    Spares request.clockMs db.kinship db'.kinship := by
  simp only [executeReport, bind_eq_ok] at h
  obtain ⟨_, -, h⟩ := h
  split at h
  · simp only [bind_eq_ok, pure_eq_ok] at h
    obtain ⟨_, -, rfl⟩ := h
    exact .refl _ _
  simp only [bind_eq_ok, pure_eq_ok] at h
  obtain ⟨_, -, _, -, ⟨child, db₁⟩, hcommand, _, -, rfl⟩ := h
  change Spares request.clockMs db.kinship db₁.kinship
  simp only [reportCommand] at hcommand
  split at hcommand
  · obtain ⟨db₂, hlink, hcommand⟩ := bind_eq_ok.1 hcommand
    obtain ⟨-, rfl⟩ := Prod.mk.inj (pure_eq_ok.1 hcommand)
    exact linkInTransaction_spares hlink
  · obtain ⟨db₂, hpublish, hcommand⟩ := bind_eq_ok.1 hcommand
    obtain ⟨-, rfl⟩ := Prod.mk.inj (pure_eq_ok.1 hcommand)
    obtain ⟨-, rfl | ⟨row, -, -, rfl⟩⟩ := publishInTransaction_eq_ok hpublish
    · exact .refl _ _
    · exact .refl _ _
  · cases hcommand

theorem createSession_spares {db db' : Db δ} {now : Int} {request : SessionCreation}
    (h : createSession db now request = .ok db') : Spares now db.kinship db'.kinship := by
  simp only [createSession, bind_eq_ok] at h
  obtain ⟨⟨id, directory⟩, -, h⟩ := h
  split at h
  · have hspares := linkInTransaction_spares (mapError_eq_ok.1 h)
    exact hspares
  · obtain rfl := pure_eq_ok.1 h
    exact .refl now db.kinship

theorem executeCommand_spares [DecidableEq δ] {deps : Deps δ} {runtime : Runtime} {db db' : Db δ}
    {request : InboxRequest} {digest : δ} {answer : String × Option String}
    (h : executeCommand deps runtime db request digest = .ok (answer, db')) :
    Spares runtime.clockMs db.kinship db'.kinship := by
  have hadmitted : ∀ {session messageId prompt},
      admitFollowup deps runtime db request session messageId prompt digest = .ok (answer, db') →
      (∀ s' m' f c p o, request.command = .relayAgentFollowup s' m' f c p o → s' = session) →
      Spares runtime.clockMs db.kinship db'.kinship := by
    intro session messageId prompt h hcommand
    obtain ⟨-, ⟨-, rfl⟩ | ⟨m, source, -, -, -, -, rfl | ⟨s, -, -, -, hadopt⟩⟩⟩ :=
      admitFollowup_eq_ok h hcommand
    · exact .refl _ _
    · exact .refl _ _
    · have hspares := adopt_spares hadopt
      exact hspares
  simp only [executeCommand] at h
  split at h
  · next hcmd => exact hadmitted h fun _ _ _ _ _ _ heq => by rw [hcmd] at heq; cases heq
  · next hcmd => exact hadmitted h fun _ _ _ _ _ _ heq => by rw [hcmd] at heq; cases heq; rfl
  · obtain ⟨_, _, _, _, _, _, _, -, -, ⟨-, rfl⟩ | ⟨m, source, -, -, -, -, rfl⟩⟩ :=
      admitExternalReport_eq_ok h
    · exact .refl _ _
    · exact .refl _ _
  · obtain ⟨db₁, hremove, h⟩ := bind_eq_ok.1 h
    obtain ⟨-, rfl⟩ := Prod.mk.inj (pure_eq_ok.1 h)
    obtain ⟨n, -, rfl, -⟩ := removePending_eq_ok hremove
    exact .refl _ _
  · obtain ⟨db₁, hpause, h⟩ := bind_eq_ok.1 h
    obtain ⟨-, rfl⟩ := Prod.mk.inj (pure_eq_ok.1 h)
    simp only [setFollowupPaused, bind_eq_ok, pure_eq_ok] at hpause
    obtain ⟨_, -, rfl⟩ := hpause
    exact .refl _ _
  · cases h

namespace Deletion

/-- An operation of a store handle changes no hold, and it leaves the link of a held child. -/
theorem perform_spares [DecidableEq δ] {deps : Deps δ} {op : Op} {db db' : Db δ} {answer : Answer}
    {now : Int} (hat : RunsAt now op) (h : perform deps op db = .ok (answer, db')) :
    Spares now db.kinship db'.kinship := by
  cases op with
  | execute request runtime =>
    obtain rfl : runtime.clockMs = now := hat
    obtain ⟨⟨id, db₁⟩, h, heq⟩ := of_wrapped h
    cases heq
    obtain ⟨-, ⟨_, -, -, -, rfl⟩ | ⟨-, -, session, db₂, hcommand, -, rfl⟩⟩ :=
      executeAuthenticated_eq_ok h
    · exact .refl _ _
    · have hspares := executeCommand_spares hcommand
      exact hspares
  | report request =>
    obtain rfl : request.clockMs = now := hat
    obtain ⟨db₁, h, heq⟩ := of_wrapped h
    cases heq
    exact executeReport_spares h
  | reparent request authenticate =>
    obtain rfl : request.clockMs = now := hat
    obtain ⟨db₁, h, heq⟩ := of_wrapped h
    cases heq
    exact reparent_spares h
  | createSession clockMs request =>
    obtain rfl : clockMs = now := hat
    obtain ⟨db₁, h, heq⟩ := of_wrapped h
    cases heq
    exact createSession_spares h
  | admitChildEvents =>
    obtain ⟨⟨any, db₁⟩, h, heq⟩ := of_wrapped h
    cases heq
    exact (admitEach_writes (fun _ _ _ => rfl) (fun _ he => holds_of_mem_childEvents he) h).spares
      now
  | claim session uuid =>
    obtain ⟨⟨batch, db₁⟩, h, heq⟩ := of_wrapped h
    cases heq
    exact (claim_writes (fun _ _ _ _ => rfl) h).spares now
  | fenceDispatch session batch =>
    obtain ⟨db₁, h, heq⟩ := of_wrapped h
    cases heq
    obtain ⟨-, rfl⟩ := fenceDispatch_eq_ok h
    exact .refl _ _
  | observeAccepted session batch turn =>
    obtain ⟨db₁, h, heq⟩ := of_wrapped h
    cases heq
    simp only [observeAccepted, bind_eq_ok, pure_eq_ok] at h
    obtain ⟨_, -, rfl⟩ := h
    exact .refl _ _
  | acknowledge | block =>
    cases h
    exact .refl _ _
  | pause =>
    cases h
    simp only [pause]
    split
    · exact .refl _ _
    · exact .refl _ _
  | dispatch session uuid prompted persisted =>
    cases h
    exact dispatchSession_spares now
  | recordQuestion child question nowMs =>
    obtain ⟨db₁, h, heq⟩ := of_wrapped h
    cases heq
    exact (recordQuestion_writes (fun _ => rfl) h).spares now
  | updateLastTurn session turn =>
    obtain ⟨db₁, h, heq⟩ := of_wrapped h
    cases heq
    exact (updateLastTurn_writes (fun _ => rfl) h).spares now
  | bindProfile | saveBridge =>
    obtain ⟨d, -, heq⟩ := of_wrapped h
    cases heq
    exact .refl _ _
  | renameSession =>
    cases h
    exact .refl _ _
  | recordRun run parent =>
    obtain ⟨db₁, h, heq⟩ := of_wrapped h
    cases heq
    simp only [recordRun, bind_eq_ok, pure_eq_ok] at h
    obtain ⟨_, -, rfl⟩ := h
    exact .refl _ _
  | reopen =>
    cases h
    exact ⟨rfl, fun _ _ => rfl⟩
  | holdDeletion | releaseHold | deleteGuarded | deleteSession | purgeAll => exact hat.elim

theorem after_spares [DecidableEq δ] {deps : Deps δ} {op : Op} {db : Db δ} {now : Int}
    (hat : RunsAt now op) : Spares now db.kinship (after deps op db).kinship := by
  have hnext : (Nakode.machine deps).next db op (Nakode.after deps op db) := rfl
  rcases next_cases hnext with heq | ⟨answer, hperform⟩
  · rw [heq]
    exact .refl _ _
  · exact perform_spares hat hperform

/-! ## What a deletion leaves -/

/-- Nothing refers to the session any more: it has no row, no hold, no link to a parent or from a
child, no inbound event and no owner prompt. -/
structure Gone (s : Store δ) (session : String) : Prop where
  row : s.db.directory.sessions.find? session = none
  hold : s.db.kinship.holds.find? session = none
  link : s.db.kinship.links.find? session = none
  children : ∀ child link, s.db.kinship.links.find? child = some link → link.parentId ≠ session
  inboundEvents : ∀ event, s.inboundEvents.find? (session, event) = none
  ownerPrompts : ∀ n prompt, s.ownerPrompts.find? n = some prompt → prompt.sessionId ≠ session

theorem checkGuard_child {db : Db δ} {id resolved : String} {found parent : Option String}
    (h : checkGuard db id resolved found (.child parent) = .ok ()) :
    found = some id ∧ db.kinship.parent? resolved = parent := by
  simp only [checkGuard, bind_eq_ok, ensure_eq_ok, beq_iff_eq] at h
  obtain ⟨_, hfound, hparent⟩ := h
  exact ⟨hfound, hparent⟩

/-- A deletion that commits found the parent it was given, and no child of its session; it ends the
hold and the link of its session, and no other. -/
theorem deleteGuarded_eq_ok {s s' : Store δ} {now : Int} {id session : String}
    {guard : DeletionGuard} (h : s.deleteGuarded now id (some session) guard = .ok s') :
    (∀ parent, guard = .child parent → session = id ∧ s.db.kinship.parent? id = parent) ∧
      (∀ c, c ≠ session → s'.db.kinship.holds.find? c = s.db.kinship.holds.find? c) ∧
      (∀ c, c ≠ session → s'.db.kinship.links.find? c = s.db.kinship.links.find? c) ∧
      Gone s' session := by
  simp only [Store.deleteGuarded, deleteFound, Nakode.deleteSession, bind_eq_ok, ensure_eq_ok,
    mapError_eq_ok, pure_eq_ok, Option.getD_some, Bool.not_eq_true', Table.has_eq_false_iff,
    beq_eq_false_iff_ne] at h
  obtain ⟨_, ⟨_, hchildren, _, hguard, _, -, _, -, rfl⟩, rfl⟩ := h
  have hforget : ((s.db.release session).forget session).kinship.links
      = s.db.kinship.links.delete fun child _ => s.db.kinship.severed session child := rfl
  -- Only the session itself has a link that its deletion severs.
  have hlinks : ∀ c, c ≠ session → ((s.db.release session).forget session).kinship.links.find? c
      = s.db.kinship.links.find? c := by
    intro c hc
    rw [hforget]
    refine Table.find?_delete_of_kept fun link hlink => ?_
    simp [Kinship.severed, hlink, hc, hchildren c link hlink]
  have hown : ((s.db.release session).forget session).kinship.links.find? session = none := by
    rw [hforget]
    refine Table.find?_delete_of_gone fun link hlink => ?_
    simp [Kinship.severed, hlink]
  refine ⟨?_, ?_, hlinks, ?_, ?_, hown, ?_, ?_, ?_⟩
  · rintro parent rfl
    obtain ⟨hfound, hparent⟩ := checkGuard_child hguard
    cases hfound
    exact ⟨rfl, hparent⟩
  · intro c hc
    have hkept : ∀ t : Table String Hold,
        (t.delete fun child _ => child == session).find? c = t.find? c :=
      fun t => Table.find?_delete_of_kept fun _ _ => by simpa using hc
    exact (hkept _).trans (hkept _)
  · exact Table.find?_delete_of_gone fun _ _ => by simp
  · exact Table.find?_delete_of_gone fun _ _ => by simp
  · intro child link hlink
    by_cases hc : child = session
    · rw [hc] at hlink
      exact absurd (hown.symm.trans hlink) (by simp)
    · exact hchildren child link ((hlinks child hc).symm.trans hlink)
  · intro event
    exact Table.find?_delete_of_gone fun _ _ => by simp
  · intro n prompt hprompt
    rw [Sequenced.toTable_delete, Table.find?_delete, Option.filter_eq_some_iff] at hprompt
    simpa using hprompt.2

/-! ## The holds of the commands under way -/

theorem recordOwnerPrompt_db {s s' : Store δ} {prompt : OwnerPrompt}
    (h : s.recordOwnerPrompt prompt = .ok s') : s'.db = s.db := by
  unfold Store.recordOwnerPrompt at h
  split at h
  · simp only [bind_eq_ok, pure_eq_ok] at h
    obtain ⟨_, -, rfl⟩ := h
    rfl
  · obtain rfl := pure_eq_ok.1 h
    rfl

theorem acknowledgeOwnerPromptDispatch_db {s s' : Store δ} {session prompt : String}
    (h : s.acknowledgeOwnerPromptDispatch session prompt = .ok s') : s'.db = s.db := by
  simp only [Store.acknowledgeOwnerPromptDispatch, bind_eq_ok, pure_eq_ok] at h
  obtain ⟨_, -, rfl⟩ := h
  rfl

theorem saveBridgeInboundEvent_db {s s' : Store δ} {bridges : List (String × Option String)}
    {session event : String} {row : InboundEvent}
    (h : s.saveBridgeInboundEvent bridges session event row = .ok s') : s'.db = s.db := by
  simp only [Store.saveBridgeInboundEvent, bind_eq_ok, pure_eq_ok] at h
  obtain ⟨_, -, _, -, rfl⟩ := h
  rfl

theorem Store.commit_db {s : Store δ} {result : Except LedgerError (Store δ)}
    (h : ∀ s', result = .ok s' → s'.db = s.db) : (s.commit result).db = s.db := by
  cases result with
  | ok s' => exact h s' rfl
  | error _ => rfl

namespace State

variable {s t : State δ}

/-- Until when the child is held. -/
def lease (s : State δ) (child : String) : Option Int :=
  (s.store.db.kinship.holds.find? child).map (·.expiresAtMs)

/-- The commands that rely on a hold: the one under way and those that were not rejected. -/
def claims (s : State δ) : List (String × Int) :=
  (s.turn.bind fun turn => turn.reliesUntil.map (turn.child, ·)).toList ++ s.accepted

/-- When a hold that is taken now runs out. -/
def expiry (now : Int) : Int := unixTimestampMs now + holdSeconds * 1000

theorem expiry_mono {now now' : Int} (h : now ≤ now') : expiry now ≤ expiry now' := by
  simp only [expiry, unixTimestampMs]
  omega

/-- Taking a hold fails, or it writes the hold of the child and starts a turn that relies on it. -/
theorem holdChildDeletion_cases (s : State δ) (child : String) (parent : Option String) :
    s.holdChildDeletion child parent = s ∨
      ((s.holdChildDeletion child parent).turn
          = some ⟨child, !s.store.db.kinship.held child (unixTimestampMs s.now),
              some (expiry s.now)⟩ ∧
        (s.holdChildDeletion child parent).now = s.now ∧
        (s.holdChildDeletion child parent).accepted = s.accepted ∧
        (s.holdChildDeletion child parent).store.db.kinship.links = s.store.db.kinship.links ∧
        (s.holdChildDeletion child parent).lease child = some (expiry s.now) ∧
        ∀ c, c ≠ child → (s.holdChildDeletion child parent).lease c = s.lease c) := by
  unfold holdChildDeletion
  dsimp only
  split
  · next created db hheld =>
    simp only [Nakode.holdChildDeletion, bind_eq_ok, ensure_eq_ok, pure_eq_ok] at hheld
    obtain ⟨_, -, _, -, hheld⟩ := hheld
    obtain ⟨rfl, rfl⟩ := Prod.mk.inj hheld
    refine .inr ⟨rfl, rfl, rfl, rfl, ?_, ?_⟩
    · simp only [lease, withDb, Table.find?_upsert, if_true]
      cases s.store.db.kinship.holds.find? child <;> rfl
    · intro c hc
      simp [lease, withDb, hc]
  · exact .inl rfl

/-- A deletion is refused or finds no session, and the relationships stay; or it deletes the session
that was found. -/
theorem deleteGuarded_cases (s : State δ) (id : String) (found : Option String)
    (guard : DeletionGuard) :
    (∃ store, s.deleteGuarded id found guard = { s with store := store } ∧
        store.db.kinship = s.store.db.kinship) ∨
      ∃ session store, found = some session ∧
        s.store.deleteGuarded s.now id (some session) guard = .ok store ∧
        s.deleteGuarded id found guard = s.forget session store := by
  unfold deleteGuarded
  cases hdelete : s.store.deleteGuarded s.now id found guard with
  | error _ => exact .inl ⟨s.store, rfl, rfl⟩
  | ok store =>
    cases found with
    | some session => exact .inr ⟨session, store, rfl, hdelete, rfl⟩
    | none =>
      refine .inl ⟨store, rfl, ?_⟩
      simp only [Store.deleteGuarded, deleteFound, bind_eq_ok, pure_eq_ok] at hdelete
      obtain ⟨_, ⟨_, -, _, -, rfl⟩, rfl⟩ := hdelete
      rfl

/-- Every command that relies on a hold has it, and a command that took a new hold is the only one
that relies on it. -/
structure Protected (s : State δ) : Prop where
  backed : Lease.Backed s.lease s.now s.claims
  bounded : ∀ claim ∈ s.claims, 0 < claim.2 ∧ claim.2 ≤ expiry s.now
  alone : ∀ turn, s.turn = some turn → turn.created = true →
    ∀ claim ∈ s.accepted, claim.1 = turn.child → claim.2 ≤ s.now

theorem Starts.protected (h : s.Starts) : s.Protected := by
  obtain ⟨hturn, haccepted⟩ := h
  have hclaims : s.claims = [] := by simp [claims, hturn, haccepted]
  refine ⟨?_, ?_, ?_⟩
  · rw [hclaims]
    exact fun _ h => nomatch h
  · rw [hclaims]
    exact fun _ h => nomatch h
  · intro turn h
    rw [hturn] at h
    cases h

namespace Protected

/-- An action on the store that changes no hold. -/
theorem of_store (h : s.Protected) {store : Store δ}
    (hholds : store.db.kinship.holds = s.store.db.kinship.holds) :
    ({ s with store := store } : State δ).Protected := by
  have hlease : ({ s with store := store } : State δ).lease = s.lease := by
    funext child
    simp only [lease, hholds]
  refine ⟨?_, h.bounded, h.alone⟩
  rw [hlease]
  exact h.backed

theorem tick (h : s.Protected) (ms : Nat) : ({ s with now := s.now + ms } : State δ).Protected := by
  have hle : s.now ≤ s.now + ms := by omega
  refine ⟨h.backed.tick hle, fun claim hclaim => ?_, fun turn hturn hcreated claim hclaim heq => ?_⟩
  · obtain ⟨hpos, hbound⟩ := h.bounded claim hclaim
    exact ⟨hpos, Int.le_trans hbound (expiry_mono hle)⟩
  · have := h.alone turn hturn hcreated claim hclaim heq
    exact Int.le_trans this hle

/-- Fewer claims, on the same holds. -/
theorem mono (h : s.Protected) (hlease : t.lease = s.lease) (hnow : t.now = s.now)
    (hclaims : t.claims ⊆ s.claims)
    (halone : ∀ turn, t.turn = some turn → t.accepted ⊆ s.accepted ∧ ∃ turn', s.turn = some turn' ∧
      turn'.child = turn.child ∧ turn'.created = turn.created) : t.Protected := by
  refine ⟨?_, fun claim hclaim => ?_, fun turn hturn hcreated claim hclaim heq => ?_⟩
  · rw [hlease, hnow]
    exact h.backed.mono hclaims
  · rw [hnow]
    exact h.bounded claim (hclaims hclaim)
  · obtain ⟨haccepted, turn', hturn', hchild, hcreated'⟩ := halone turn hturn
    rw [hnow]
    exact h.alone turn' hturn' (hcreated'.trans hcreated) claim (haccepted hclaim)
      (heq.trans hchild.symm)

/-- The turn ends and the store stays. -/
theorem restart (h : s.Protected) : ({ s with turn := none } : State δ).Protected :=
  h.mono rfl rfl (by simp [claims]) nofun

/-- A hold is taken or renewed: it ends no earlier than the claims on its child, and when it is new
they have all run out. -/
theorem hold (h : s.Protected) (hturn : s.turn = none) (child : String) (parent : Option String) :
    (s.holdChildDeletion child parent).Protected := by
  rcases holdChildDeletion_cases s child parent with heq |
    ⟨hturn', hnow, haccepted, -, hlease, hrest⟩
  · rw [heq]
    exact h
  have hclaims : s.claims = s.accepted := by simp [claims, hturn]
  have hclaims' : (s.holdChildDeletion child parent).claims
      = (child, expiry s.now) :: s.accepted := by
    simp [claims, hturn', haccepted]
  have hbacked := h.backed
  have hbounded := h.bounded
  rw [hclaims] at hbacked hbounded
  refine ⟨?_, ?_, ?_⟩
  · rw [hclaims', hnow]
    refine (hbacked.renew hlease hrest fun claim hclaim _ => (hbounded claim hclaim).2).cons ?_
    intro _
    exact ⟨_, hlease, Int.le_refl _⟩
  · rw [hclaims', hnow]
    intro claim hclaim
    rcases List.mem_cons.1 hclaim with rfl | hclaim
    · refine ⟨?_, Int.le_refl _⟩
      simp only [expiry, unixTimestampMs, holdSeconds]
      omega
    · exact hbounded claim hclaim
  · rw [hnow, haccepted]
    intro turn hsome hcreated claim hclaim heq
    rw [hturn'] at hsome
    obtain rfl := Option.some.inj hsome
    replace heq : claim.1 = child := heq
    -- No unexpired hold was on the child, so whoever relied on one has run out of time.
    have hfree : ∀ e, s.lease child = some e → e ≤ unixTimestampMs s.now := by
      intro e he
      simp only [lease, Option.map_eq_some_iff] at he
      obtain ⟨hold, hhold, rfl⟩ := he
      simpa [Kinship.held, hhold] using hcreated
    by_contra hruns
    obtain ⟨e, he, hle⟩ := hbacked claim hclaim (by omega)
    have hbound := hfree e (by rw [← heq]; exact he)
    have hpos := (hbounded claim hclaim).1
    simp only [unixTimestampMs] at hbound
    omega

/-- A turn ends: a rejected command gives back a hold that it took itself, on which no other
relies. -/
theorem finish {ε : Type} (h : s.Protected) {turn : Turn} (hturn : s.turn = some turn)
    (outcome : DispatchOutcome ε) : (s.finishTurn turn outcome).Protected := by
  unfold finishTurn
  split
  · cases hcreated : turn.created with
    | false => exact h.restart
    | true =>
      refine ⟨?_, fun claim hclaim => h.bounded claim (List.mem_append_right _ hclaim), nofun⟩
      refine (h.backed.mono (List.subset_append_right _ _)).release (k := turn.child) ?_ ?_
      · intro c hc
        have hkept : (s.store.db.kinship.holds.delete fun c _ => c == turn.child).find? c
            = s.store.db.kinship.holds.find? c :=
          Table.find?_delete_of_kept fun _ _ => by simpa using hc
        exact congrArg (Option.map (·.expiresAtMs)) hkept
      · exact h.alone turn hturn hcreated
  · exact h.mono rfl rfl (by simp [claims, hturn]) nofun

/-- The deletion of a session ends the claims on it. -/
theorem forget (h : s.Protected) {session : String} {store : Store δ}
    (hholds : ∀ c, c ≠ session →
      store.db.kinship.holds.find? c = s.store.db.kinship.holds.find? c) :
    (s.forget session store).Protected := by
  have haccepted : (s.forget session store).accepted ⊆ s.accepted := by
    intro claim hclaim
    exact (List.mem_filter.1 hclaim).1
  have hclaims : (s.forget session store).claims
      ⊆ s.claims.filter fun claim => claim.1 != session := by
    intro claim hclaim
    rcases List.mem_append.1 hclaim with hturn | hclaim
    · simp only [State.forget, Option.mem_toList, Option.bind_eq_some_iff,
        Option.map_eq_some_iff] at hturn
      obtain ⟨_, ⟨turn, hturn, rfl⟩, e, he, rfl⟩ := hturn
      split at he
      · cases he
      · next hne =>
        refine List.mem_filter.2 ⟨List.mem_append_left _ ?_, ?_⟩
        · simp [hturn, he, hne]
        · simp [hne]
    · obtain ⟨hmem, hne⟩ := List.mem_filter.1 hclaim
      exact List.mem_filter.2 ⟨List.mem_append_right _ hmem, hne⟩
  refine ⟨?_, fun claim hclaim => ?_, fun turn hturn hcreated claim hclaim heq => ?_⟩
  · refine (h.backed.finish fun c hc => ?_).mono hclaims
    exact congrArg (Option.map (·.expiresAtMs)) (hholds c hc)
  · exact h.bounded claim (List.mem_filter.1 (hclaims hclaim)).1
  · obtain ⟨turn', hturn', rfl⟩ := Option.map_eq_some_iff.1 hturn
    have hsame : (if turn'.child = session then { turn' with reliesUntil := none } else turn').child
        = turn'.child := by
      split <;> rfl
    refine h.alone turn' hturn' ?_ claim (haccepted hclaim) (heq.trans hsame)
    split at hcreated <;> exact hcreated

theorem purgeAll (s : State δ) : s.purgeAll.Protected := by
  have hclaims : s.purgeAll.claims = [] := by
    cases hturn : s.turn <;> simp [claims, State.purgeAll, hturn]
  refine ⟨?_, ?_, fun _ _ _ _ hclaim => nomatch hclaim⟩
  · rw [hclaims]
    exact fun _ hclaim => nomatch hclaim
  · rw [hclaims]
    exact fun _ hclaim => nomatch hclaim

/-- Every action keeps the holds of the commands under way. -/
theorem next [DecidableEq δ] {deps : Deps δ} {ε : Type} {a : Action ε} (h : s.Protected)
    (hstep : s.Next deps a t) : t.Protected := by
  cases a with
  | operation op =>
    obtain ⟨hat, rfl⟩ := hstep
    exact h.of_store (after_spares hat).holds
  | recordOwnerPrompt prompt =>
    obtain rfl := hstep
    exact h.of_store (by rw [Store.commit_db fun _ h => recordOwnerPrompt_db h])
  | acknowledgeOwnerPromptDispatch session prompt =>
    obtain rfl := hstep
    exact h.of_store (by rw [Store.commit_db fun _ h => acknowledgeOwnerPromptDispatch_db h])
  | saveBridgeInboundEvent bridges session event row =>
    obtain rfl := hstep
    exact h.of_store (by rw [Store.commit_db fun _ h => saveBridgeInboundEvent_db h])
  | deleteGuarded id found guard =>
    obtain rfl := hstep
    rcases deleteGuarded_cases s id found guard with ⟨store, heq, hkinship⟩ |
      ⟨session, store, rfl, hdelete, heq⟩
    · rw [heq]
      exact h.of_store (by rw [hkinship])
    · obtain ⟨-, hholds, -, -⟩ := deleteGuarded_eq_ok hdelete
      rw [heq]
      exact h.forget hholds
  | purgeAll =>
    obtain rfl := hstep
    exact .purgeAll s
  | hold child parent =>
    obtain ⟨hturn, rfl⟩ := hstep
    exact h.hold hturn child parent
  | finish outcome =>
    obtain ⟨turn, hturn, rfl⟩ := hstep
    exact h.finish hturn outcome
  | restart =>
    obtain rfl := hstep
    exact h.restart
  | tick ms =>
    obtain rfl := hstep
    exact h.tick ms

end Protected

/-- The action deletes the session of the child. -/
def Deletes {ε : Type} (s : State δ) (child : String) : Action ε → Prop
  | .deleteGuarded id found guard =>
    found = some child ∧ ∃ store, s.store.deleteGuarded s.now id found guard = .ok store
  | .purgeAll => True
  | _ => False

/-- The link of a held child stays through every action but its deletion. -/
theorem next_links [DecidableEq δ] {deps : Deps δ} {ε : Type} {a : Action ε}
    (hstep : s.Next deps a t) {child : String}
    (hheld : s.store.db.kinship.held child s.now = true) :
    t.store.db.kinship.links.find? child = s.store.db.kinship.links.find? child ∨
      s.Deletes child a := by
  cases a with
  | operation op =>
    obtain ⟨hat, rfl⟩ := hstep
    exact .inl ((after_spares hat).links child hheld)
  | recordOwnerPrompt prompt =>
    obtain rfl := hstep
    exact .inl (by rw [Store.commit_db fun _ h => recordOwnerPrompt_db h])
  | acknowledgeOwnerPromptDispatch session prompt =>
    obtain rfl := hstep
    exact .inl (by rw [Store.commit_db fun _ h => acknowledgeOwnerPromptDispatch_db h])
  | saveBridgeInboundEvent bridges session event row =>
    obtain rfl := hstep
    exact .inl (by rw [Store.commit_db fun _ h => saveBridgeInboundEvent_db h])
  | deleteGuarded id found guard =>
    obtain rfl := hstep
    rcases deleteGuarded_cases s id found guard with ⟨store, heq, hkinship⟩ |
      ⟨session, store, rfl, hdelete, heq⟩
    · exact .inl (by rw [heq, hkinship])
    · by_cases hc : child = session
      · exact .inr ⟨by rw [hc], store, hdelete⟩
      · obtain ⟨-, -, hlinks, -⟩ := deleteGuarded_eq_ok hdelete
        exact .inl (by rw [heq]; exact hlinks child hc)
  | purgeAll => exact .inr trivial
  | hold c parent =>
    obtain ⟨-, rfl⟩ := hstep
    rcases holdChildDeletion_cases s c parent with heq | ⟨-, -, -, hlinks, -, -⟩
    · exact .inl (by rw [heq])
    · exact .inl (by rw [hlinks])
  | finish outcome =>
    obtain ⟨turn, -, rfl⟩ := hstep
    refine .inl ?_
    unfold finishTurn
    split
    · cases turn.created <;> rfl
    · rfl
  | restart | tick =>
    obtain rfl := hstep
    exact .inl rfl

/-- What was deleted is gone. -/
theorem next_gone [DecidableEq δ] {deps : Deps δ} {ε : Type} {a : Action ε}
    (hstep : s.Next deps a t) {session : String} (hdeletes : s.Deletes session a) :
    Gone t.store session := by
  cases a with
  | deleteGuarded id found guard =>
    obtain ⟨rfl, store, hdelete⟩ := hdeletes
    obtain ⟨-, -, -, hgone⟩ := deleteGuarded_eq_ok hdelete
    obtain rfl := hstep
    simpa [deleteGuarded, hdelete, forget] using hgone
  | purgeAll =>
    obtain rfl := hstep
    refine ⟨rfl, rfl, rfl, nofun, fun _ => rfl, fun n prompt hprompt => ?_⟩
    simp [purgeAll, Store.purgeAll] at hprompt
  | _ => exact hdeletes.elim

end State

/-- A claim on a hold that has not run out is on a held child. -/
theorem State.Protected.held {s : State δ} (h : s.Protected) {claim : String × Int}
    (hclaim : claim ∈ s.accepted) (hruns : s.now < claim.2) :
    s.store.db.kinship.held claim.1 s.now = true := by
  obtain ⟨expiry, hlease, hle⟩ := h.backed claim (List.mem_append_right _ hclaim) hruns
  obtain ⟨hold, hhold, rfl⟩ := Option.map_eq_some_iff.1 hlease
  simp only [Kinship.held, hhold, Option.any_some, decide_eq_true_eq]
  omega

/-! ## Delegated deletion -/

/-- The agent is linked, and no command was given yet. -/
def linkedAgent : State Command := ⟨⟨afterAll .verbatim reportedChild ∅, ∅, ∅⟩, 0, none, []⟩

/-- Its parent stops the agent, which has work to be cancelled. -/
def stoppedAgent : State Command :=
  (linkedAgent.holdChildDeletion "agent" (some "parent")).finishTurn
    ⟨"agent", true, some 120000⟩ (⟨[()], none⟩ : DispatchOutcome Unit)

/-- A second command about the agent is rejected. -/
def refusedAgain : State Command :=
  (stoppedAgent.holdChildDeletion "agent" (some "parent")).finishTurn
    ⟨"agent", false, some 120000⟩ (⟨[], some (.error (refuse "stale"))⟩ : DispatchOutcome Unit)

end Deletion

end Nakode
