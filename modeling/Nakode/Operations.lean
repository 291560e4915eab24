import Nakode.Operations.Repository

/-!
# Operations as runs of writes

`perform_writes`: every operation that commits is a run of legal writes, it issues only the kinds
of writes that are its own (`Op.Issues`), and at most one of them changes who is whose child.
-/

namespace Nakode

open Relational Transition Outcome

variable {δ : Type}

/-- The write changes who is whose child. -/
def Write.relinks : Write δ → Bool
  | .kin (.link ..) | .kin (.repoint ..) | .forget _ | .purge => true
  | _ => false

/-- The write deletes sessions. -/
def Write.deletes : Write δ → Bool
  | .forget _ | .purge => true
  | _ => false

theorem Write.deletes_of_relinks {w : Write δ} (h : w.relinks = false) : w.deletes = false := by
  cases w with
  | forget | purge => cases h
  | _ => rfl

/-- A run of legal writes that each meet a condition, with at most so many that change who is whose
child. -/
def Writes (P : Write δ → Prop) (n : Nat) (db db' : Db δ) : Prop :=
  ∃ ws, (journal δ).Run db ws db' ∧ (∀ w ∈ ws, P w) ∧ ws.countP Write.relinks ≤ n

namespace Writes

variable {P : Write δ → Prop} {n m : Nat} {db db' db'' : Db δ}

theorem refl (P : Write δ → Prop) (n : Nat) (db : Db δ) : Writes P n db db :=
  ⟨[], .nil db, by simp, by simp⟩

theorem trans (h : Writes P n db db') (h' : Writes P m db' db'') : Writes P (n + m) db db'' := by
  obtain ⟨ws, hrun, hP, hn⟩ := h
  obtain ⟨ws', hrun', hP', hn'⟩ := h'
  refine ⟨ws ++ ws', hrun.append hrun', fun w hw => (List.mem_append.1 hw).elim (hP w) (hP' w), ?_⟩
  rw [List.countP_append]
  omega

/-- A write that leaves the relationships as they are. -/
theorem one {w : Write δ} (h : w.Legal db) (hP : P w) (hn : w.relinks = false) :
    Writes P 0 db (w.apply db) :=
  ⟨[w], journal_single h, by simpa using hP, by simp [hn]⟩

/-- A write that may change who is whose child. -/
theorem relink {w : Write δ} (h : w.Legal db) (hP : P w) : Writes P 1 db (w.apply db) :=
  ⟨[w], journal_single h, by simpa using hP, by
    rw [List.countP_singleton]; split <;> omega⟩

theorem directory {d : Directory} (h : d.Extends db.directory) (hP : P (.directory d)) :
    Writes P 0 db { db with directory := d } :=
  .one (w := .directory d) h hP rfl

theorem weaken (h : Writes P n db db') (hn : n ≤ m) : Writes P m db db' := by
  obtain ⟨ws, hrun, hP, hc⟩ := h
  exact ⟨ws, hrun, hP, Nat.le_trans hc hn⟩

/-- A property that every such legal write keeps holds after the run. -/
theorem invariant (h : Writes P n db db') {Q : Db δ → Prop}
    (hstep : ∀ {db : Db δ} {w : Write δ}, w.Legal db → P w → Q db → Q (w.apply db)) (hdb : Q db) :
    Q db' := by
  obtain ⟨ws, hrun, hP, -⟩ := h
  induction hrun with
  | nil => exact hdb
  | cons hnext _ ih =>
    obtain ⟨hlegal, rfl⟩ := hnext
    exact ih (hstep hlegal (hP _ List.mem_cons_self) hdb)
      fun w hw => hP w (List.mem_cons_of_mem _ hw)

end Writes

/-- The writes that only some operations issue, and which ones do. -/
def Op.Issues (op : Op) : Write δ → Prop
  | .directory _ => op.editsDirectory = true
  | .forget _ | .purge => op.keepsSessions = false
  | .kin (.repoint ..) => op.keepsParents = false
  | .inbox (.mark (.fence session batch)) =>
    op = .fenceDispatch session batch ∨
      ∃ uuid prompted persisted, op = .dispatch session uuid prompted persisted
  | .inbox (.mark (.accept session batch turn)) => op = .observeAccepted session batch turn
  | .inbox (.mark (.acknowledge session turn)) => op = .acknowledge session turn
  | .inbox (.receipt ..) => ∃ request runtime, op = .execute request runtime
  | .inbox (.admission _ _ (some _)) => op = .admitChildEvents
  | _ => True

/-- A command writes no receipt itself. -/
theorem executeCommand_writes [DecidableEq δ] {deps : Deps δ} {runtime : Runtime} {db db' : Db δ}
    {request : InboxRequest} {digest : δ} {answer : String × Option String} {P : Write δ → Prop}
    (hP : ∀ w, (Op.execute request runtime).Issues w → (∀ key r, w ≠ .inbox (.receipt key r)) → P w)
    (h : executeCommand deps runtime db request digest = .ok (answer, db')) :
    Writes P 1 db db' := by
  have hadmitted : ∀ {session messageId prompt},
      admitFollowup deps runtime db request session messageId prompt digest = .ok (answer, db') →
      (∀ s' m' f c p o, request.command = .relayAgentFollowup s' m' f c p o → s' = session) →
      Writes P 1 db db' := by
    intro session messageId prompt h hcommand
    obtain ⟨-, ⟨-, rfl⟩ | ⟨m, source, hlegal, -, -, -, rfl | ⟨s, -, -, ⟨m', c, p, hcmd⟩, hadopt⟩⟩⟩ :=
      admitFollowup_eq_ok h hcommand
    · exact .refl _ _ _
    · exact (Writes.one hlegal (hP _ trivial (by simp)) rfl).weaken (by omega)
    · have hown : (Op.execute request runtime).keepsParents = false := by
        simp [Op.keepsParents, hcmd]
      refine (Writes.one hlegal (hP _ trivial (by simp)) rfl).trans (m := 1) ?_
      rcases adopt_eq_ok hadopt with rfl | ⟨title, hlink, rfl⟩ | ⟨-, hrepoint, rfl⟩
      · exact .refl _ _ _
      · exact .relink hlink (hP _ trivial (by simp))
      · exact .relink hrepoint (hP _ hown (by simp))
  simp only [executeCommand] at h
  split at h
  · next hcmd => exact hadmitted h fun _ _ _ _ _ _ heq => by rw [hcmd] at heq; cases heq
  · next hcmd => exact hadmitted h fun _ _ _ _ _ _ heq => by rw [hcmd] at heq; cases heq; rfl
  · obtain ⟨_, _, _, _, _, _, _, -, -, ⟨-, rfl⟩ | ⟨m, source, hlegal, -, -, -, rfl⟩⟩ :=
      admitExternalReport_eq_ok h
    · exact .refl _ _ _
    · exact (Writes.one hlegal (hP _ trivial (by simp)) rfl).weaken (by omega)
  · obtain ⟨db₁, hremove, h⟩ := bind_eq_ok.1 h
    obtain ⟨-, rfl⟩ := Prod.mk.inj (pure_eq_ok.1 h)
    obtain ⟨n, hlegal, rfl, -⟩ := removePending_eq_ok hremove
    exact (Writes.one hlegal (hP _ trivial (by simp)) rfl).weaken (by omega)
  · next session paused _ =>
    obtain ⟨db₁, hpause, h⟩ := bind_eq_ok.1 h
    obtain ⟨-, rfl⟩ := Prod.mk.inj (pure_eq_ok.1 h)
    simp only [setFollowupPaused, bind_eq_ok, pure_eq_ok] at hpause
    obtain ⟨_, -, rfl⟩ := hpause
    have hset : Writes P 0 db
        ((Write.inbox (.setPaused session paused)).apply db) := .one trivial (hP _ trivial (by simp)) rfl
    cases paused with
    | true => exact hset.weaken (by omega)
    | false =>
      exact (hset.trans (.one (w := .inbox (.mark (.unblock session))) trivial
        (hP _ trivial (by simp)) rfl)).weaken (by omega)
  · cases h

theorem executeAuthenticated_writes [DecidableEq δ] {deps : Deps δ} {runtime : Runtime}
    {db db' : Db δ} {request : InboxRequest} {id : Option String}
    (h : executeAuthenticated deps runtime db request = .ok (id, db')) :
    Writes (Op.execute request runtime).Issues 1 db db' := by
  obtain ⟨-, ⟨_, -, -, -, rfl⟩ | ⟨-, -, session, db₁, hcommand, hfree, rfl⟩⟩ :=
    executeAuthenticated_eq_ok h
  · exact .refl _ _ _
  · exact (executeCommand_writes (fun _ hissues _ => hissues) hcommand).trans
      (.one (w := .inbox (.receipt request.key ⟨session, _, id⟩)) hfree ⟨request, runtime, rfl⟩ rfl)

/-- What the page of events rests on is not changed by admitting one of them. -/
theorem admitEach_writes {deps : Deps δ} {P : Write δ → Prop}
    (hP : ∀ m source report, P (.inbox (.admission m source (some report)))) {events : List ChildEvent}
    {now now' : Bool} {db db' : Db δ} (hholds : ∀ event ∈ events, event.Holds db)
    (h : admitEach deps events now db = .ok (now', db')) : Writes P 0 db db' := by
  induction events generalizing now db with
  | nil =>
    obtain ⟨-, rfl⟩ := Prod.mk.inj (Except.ok.inj h)
    exact .refl _ _ _
  | cons event rest ih =>
    simp only [admitEach, bind_eq_ok] at h
    obtain ⟨⟨first, db₁⟩, hfirst, h⟩ := h
    rcases admitChildEvent_eq_ok (hholds event List.mem_cons_self) hfirst with
      ⟨-, rfl⟩ | ⟨-, m, source, hlegal, -, rfl⟩
    · exact ih (fun e he => hholds e (List.mem_cons_of_mem _ he)) h
    · refine (Writes.one hlegal (hP ..) rfl).trans (ih (fun e he => ?_) h)
      obtain ⟨hreport, hevident, hlinked, howned⟩ := hholds e (List.mem_cons_of_mem _ he)
      exact ⟨hreport, hevident, hlinked, howned⟩

theorem claim_writes {P : Write δ → Prop}
    (hP : ∀ session batch cutoff display, P (.inbox (.cut session batch cutoff display)))
    {db db' : Db δ} {session uuid : String} {answer : Option ClaimedBatch}
    (h : claim db session uuid = .ok (answer, db')) : Writes P 0 db db' := by
  obtain ⟨-, -, ⟨-, rfl⟩ | ⟨_, _, _, -, -, -, -, -, -, rfl⟩ | ⟨_, _, -, -, -, -, hlegal, rfl⟩⟩ :=
    claim_eq_ok h
  · exact .refl _ _ _
  · exact .refl _ _ _
  · exact .one hlegal (hP ..) rfl

theorem fenceDispatch_eq_ok {db db' : Db δ} {session batch : String}
    (h : fenceDispatch db session batch = .ok db') :
    (Write.inbox (.mark (.fence session batch))).Legal db ∧
      db' = (Write.inbox (.mark (.fence session batch))).apply db := by
  simp only [fenceDispatch, bind_eq_ok, ensure_eq_ok, pure_eq_ok, Option.any_eq_true] at h
  obtain ⟨_, hfenceable, rfl⟩ := h
  exact ⟨hfenceable, rfl⟩

theorem dispatchSession_writes {db : Db δ} {session uuid : String}
    {prompted persisted : ClaimedBatch → Option String} :
    Writes (Op.dispatch session uuid prompted persisted).Issues 0 db
      (dispatchSession db session uuid prompted persisted).2 := by
  simp only [dispatchSession]
  split
  · exact .refl _ _ _
  · next hclaim => exact claim_writes (fun _ _ _ _ => trivial) hclaim
  · next batch db₁ hclaim =>
    refine (claim_writes (fun _ _ _ _ => trivial) hclaim).trans (m := 0) ?_
    split
    · exact .one (w := .inbox (.mark (.block batch.id _))) trivial trivial rfl
    · split
      · exact .refl _ _ _
      · next hfence =>
        obtain ⟨hlegal, rfl⟩ := fenceDispatch_eq_ok hfence
        exact .one hlegal (.inr ⟨uuid, prompted, persisted, rfl⟩) rfl

theorem executeReport_writes [DecidableEq δ] {deps : Deps δ} {P : Write δ → Prop}
    (hlink : ∀ child parent title, P (.kin (.link child parent title)))
    (hreport : ∀ row, P (.report row)) (hreceipt : ∀ key receipt, P (.reportReceipt key receipt))
    {db db' : Db δ} {request : ReportRequest} (h : executeReport deps db request = .ok db') :
    Writes P 1 db db' := by
  simp only [executeReport, bind_eq_ok, ensure_eq_ok] at h
  obtain ⟨_, -, h⟩ := h
  split at h
  · simp only [bind_eq_ok, ensure_eq_ok, pure_eq_ok] at h
    obtain ⟨_, -, rfl⟩ := h
    exact .refl _ _ _
  simp only [bind_eq_ok, ensure_eq_ok, need_eq_ok, pure_eq_ok, Table.insert?_eq_some_iff] at h
  obtain ⟨_, -, _, -, ⟨child, db₁⟩, hcommand, _, ⟨-, rfl⟩, rfl⟩ := h
  have hwrites : Writes P 1 db db₁ ∧ (db₁.kinship.links.find? child).isSome := by
    simp only [reportCommand] at hcommand
    split at hcommand
    · next parent child' _ =>
      obtain ⟨db₂, hlinked, hcommand⟩ := bind_eq_ok.1 hcommand
      obtain ⟨rfl, rfl⟩ := Prod.mk.inj (pure_eq_ok.1 hcommand)
      rcases linkInTransaction_eq_ok hlinked with ⟨hparent, rfl⟩ | ⟨title, hlegal, rfl⟩
      · obtain ⟨link, hl, -⟩ := Kinship.parent?_eq_some_iff.1 hparent
        exact ⟨.refl _ _ _, by rw [hl]; rfl⟩
      · exact ⟨.relink hlegal (hlink ..), by simp [Write.apply, KinWrite.apply]⟩
    · next child' _ _ _ _ =>
      obtain ⟨db₂, hpublish, hcommand⟩ := bind_eq_ok.1 hcommand
      obtain ⟨rfl, rfl⟩ := Prod.mk.inj (pure_eq_ok.1 hcommand)
      obtain ⟨hlinked, rfl | ⟨row, hlegal, -, rfl⟩⟩ := publishInTransaction_eq_ok hpublish
      · exact ⟨.refl _ _ _, hlinked⟩
      · exact ⟨(Writes.one hlegal (hreport _) rfl).weaken (by omega), hlinked⟩
    · cases hcommand
  exact hwrites.1.trans
    (.one (w := .reportReceipt request.key ⟨child, _⟩) hwrites.2 (hreceipt ..) rfl)

theorem recordQuestion_writes {deps : Deps δ} {P : Write δ → Prop} (hP : ∀ row, P (.report row))
    {db db' : Db δ} {child : String} {question : QuestionRequest} {nowMs : Int}
    (h : recordQuestion deps db child question nowMs = .ok db') : Writes P 0 db db' := by
  simp only [recordQuestion] at h
  split at h
  · obtain rfl := pure_eq_ok.1 h
    exact .refl _ _ _
  · next hpending =>
    simp only [Bool.or_eq_true, not_or, Option.isNone_iff_eq_none, ← Option.isSome_iff_ne_none,
      Bool.not_eq_true] at hpending
    simp only [bind_eq_ok, ensure_eq_ok, pure_eq_ok] at h
    obtain ⟨_, -, _, -, rfl⟩ := h
    exact .one (w := .report _) hpending.1 (hP _) rfl

theorem updateLastTurn_writes {P : Write δ → Prop} (hP : ∀ row, P (.report row))
    {db db' : Db δ} {session : String} {turn : LastTurn}
    (h : updateLastTurn db session turn = .ok db') : Writes P 0 db db' := by
  simp only [updateLastTurn, bind_eq_ok, ensure_eq_ok] at h
  obtain ⟨_, -, h⟩ := h
  split at h
  · obtain rfl := pure_eq_ok.1 h
    exact .refl _ _ _
  · next hpending =>
    simp only [Bool.or_eq_true, not_or, Option.isNone_iff_eq_none, ← Option.isSome_iff_ne_none,
      Bool.not_eq_true] at hpending
    obtain rfl := pure_eq_ok.1 h
    exact .one (w := .report _) hpending.1 (hP _) rfl

theorem reparent_writes [DecidableEq δ] {deps : Deps δ} {db db' : Db δ} {request : ReparentRequest}
    {authenticate : Except ServiceError Unit}
    (h : reparent deps db request authenticate = .ok db') :
    Writes (Op.reparent request authenticate).Issues 1 db db' := by
  obtain ⟨change, hchange, ⟨_, -, rfl⟩ |
    ⟨-, db₁, row, happly, -, -, -, -, -, -, hlegal, rfl⟩⟩ := reparent_eq_ok h
  · exact .refl _ _ _
  refine Writes.trans (n := 1) ?_ (.one hlegal trivial rfl)
  obtain ⟨-, -, -, ⟨-, title, hlink, rfl⟩ | ⟨htransfer, hrepoint, rfl⟩⟩ := applyReparent_eq_ok happly
  · exact .relink hlink trivial
  · refine .relink hrepoint ?_
    cases hc : request.command <;> rw [hc] at hchange <;>
      simp [Reparent.fromCommand] at hchange
    subst hchange
    simp only at htransfer
    subst htransfer
    simp [Op.Issues, Op.keepsParents, hc]

/-- The revisions that an upgrade records, one child after another. -/
theorem recordRevisions_writes {P : Write δ → Prop} (hP : ∀ child, P (.kin (.revise child)))
    {db : Db δ} {rows : List (String × Link)} (hrows : ∀ row ∈ rows, row ∈ db.kinship.links.rows)
    (revisions : Table String Nat) :
    Writes P 0 { db with kinship := { db.kinship with revisions := revisions } }
      { db with kinship := { db.kinship with revisions := recordRevisions rows revisions } } := by
  induction rows generalizing revisions with
  | nil => exact .refl _ _ _
  | cons row rest ih =>
    obtain ⟨child, link⟩ := row
    have hlink : db.kinship.links.find? child = some link :=
      Table.find?_eq_some_iff.2 (hrows _ List.mem_cons_self)
    refine Writes.trans (n := 0) ?_
      (ih (fun r hr => hrows r (List.mem_cons_of_mem _ hr)) (revisions.insertOrIgnore child 1))
    exact .one (w := .kin (.revise child)) (by simp [Write.Legal, KinWrite.Legal, hlink]) (hP _) rfl

/-- The sources that an upgrade records, one delivery after another. -/
theorem recordLegacySources_writes {P : Write δ → Prop}
    (hP : ∀ sequence source, P (.inbox (.source sequence source))) {db₀ : Db δ} (db : Db δ)
    {rows : List (Nat × Nat)} (hrows : ∀ row ∈ rows, row ∈ db.inbox.deliveries.rows)
    (sources : Table Nat Source) :
    Writes P 0 { db with inbox := { db.inbox with sources := sources } }
      { db with inbox := { db.inbox with sources := recordLegacySources db₀ rows sources } } := by
  induction rows generalizing sources with
  | nil => exact .refl _ _ _
  | cons row rest ih =>
    obtain ⟨report, message⟩ := row
    have hdelivery : db.inbox.deliveries.find? report = some message :=
      Table.find?_eq_some_iff.2 (hrows _ List.mem_cons_self)
    have hrest := ih (fun r hr => hrows r (List.mem_cons_of_mem _ hr))
    simp only [recordLegacySources]
    split
    · next source _ =>
      cases hs : sources.find? message with
      | some s =>
        rw [Table.insertOrIgnore_of_some hs]
        exact hrest sources
      | none =>
        refine Writes.trans (n := 0) ?_ (hrest _)
        exact .one (w := .inbox (.source message source)) ⟨hs, report, hdelivery⟩ (hP ..) rfl
    · exact hrest sources

theorem reopen_writes {P : Write δ → Prop} (hrevise : ∀ child, P (.kin (.revise child)))
    (hsource : ∀ sequence source, P (.inbox (.source sequence source))) (db : Db δ) :
    Writes P 0 db (reopen db) :=
  (recordRevisions_writes hrevise (fun _ h => h) db.kinship.revisions).trans
    (recordLegacySources_writes hsource { db with kinship := { db.kinship with
      revisions := recordRevisions db.kinship.links.rows db.kinship.revisions } }
      (fun _ h => h) db.inbox.sources)

/-- Reads the database off an accepted operation whose answer is wrapped. -/
theorem of_wrapped {ε ε' α β : Type} {x : Except ε α} {f : α → β} {g : ε → ε'} {b : β}
    (h : (x.map f).mapError g = .ok b) : ∃ a, x = .ok a ∧ f a = b := by
  cases x with
  | error e => simp [Except.map, Except.mapError] at h
  | ok a => exact ⟨a, rfl, by simpa [Except.map, Except.mapError] using h⟩

/-- Every operation that commits is a run of legal writes, of the kinds it may issue, and at most
one of them changes who is whose child. -/
theorem perform_writes [DecidableEq δ] {deps : Deps δ} {op : Op} {db db' : Db δ} {answer : Answer}
    (h : perform deps op db = .ok (answer, db')) : Writes op.Issues 1 db db' := by
  cases op with
  | execute request runtime =>
    obtain ⟨⟨id, db₁⟩, h, heq⟩ := of_wrapped h
    cases heq
    exact executeAuthenticated_writes h
  | admitChildEvents =>
    obtain ⟨⟨any, db₁⟩, h, heq⟩ := of_wrapped h
    cases heq
    exact (admitEach_writes (fun _ _ _ => rfl) (fun _ he => holds_of_mem_childEvents he) h).weaken
      (by omega)
  | claim session uuid =>
    obtain ⟨⟨batch, db₁⟩, h, heq⟩ := of_wrapped h
    cases heq
    exact (claim_writes (fun _ _ _ _ => trivial) h).weaken (by omega)
  | fenceDispatch session batch =>
    obtain ⟨db₁, h, heq⟩ := of_wrapped h
    cases heq
    obtain ⟨hlegal, rfl⟩ := fenceDispatch_eq_ok h
    exact (Writes.one hlegal (.inl rfl) rfl).weaken (by omega)
  | observeAccepted session batch turn =>
    obtain ⟨db₁, h, heq⟩ := of_wrapped h
    cases heq
    simp only [observeAccepted, bind_eq_ok, pure_eq_ok] at h
    obtain ⟨_, -, rfl⟩ := h
    exact (Writes.one (P := (Op.observeAccepted session batch turn).Issues)
      (w := .inbox (.mark (.accept session batch turn))) trivial rfl rfl).weaken (by omega)
  | acknowledge session turn =>
    cases h
    exact (Writes.one (P := (Op.acknowledge session turn).Issues)
      (w := .inbox (.mark (.acknowledge session turn))) trivial rfl rfl).weaken (by omega)
  | block batch reason =>
    cases h
    exact (Writes.one (w := .inbox (.mark (.block batch _))) trivial trivial rfl).weaken (by omega)
  | pause session =>
    cases h
    simp only [pause]
    split
    · exact (Writes.one (w := .inbox (.setPaused session true)) trivial trivial rfl).weaken
        (by omega)
    · exact .refl _ _ _
  | dispatch session uuid prompted persisted =>
    cases h
    exact dispatchSession_writes.weaken (by omega)
  | report request =>
    obtain ⟨db₁, h, heq⟩ := of_wrapped h
    cases heq
    exact executeReport_writes (fun _ _ _ => trivial) (fun _ => trivial) (fun _ _ => trivial) h
  | recordQuestion child question nowMs =>
    obtain ⟨db₁, h, heq⟩ := of_wrapped h
    cases heq
    exact (recordQuestion_writes (fun _ => trivial) h).weaken (by omega)
  | reparent request authenticate =>
    obtain ⟨db₁, h, heq⟩ := of_wrapped h
    cases heq
    exact reparent_writes h
  | createSession clockMs request =>
    obtain ⟨db₁, h, heq⟩ := of_wrapped h
    cases heq
    obtain ⟨id, d, hregister, rfl | ⟨parent, title, hlegal, rfl⟩⟩ := createSession_eq_ok h
    · exact (Writes.directory (registerSession_extends hregister) (by rfl)).weaken (by omega)
    · exact (Writes.directory (registerSession_extends hregister) (by rfl)).trans
        (.relink hlegal trivial)
  | bindProfile session profile =>
    obtain ⟨d, hd, heq⟩ := of_wrapped h
    cases heq
    exact (Writes.directory (bindSessionSkillProfile_extends hd) (by rfl)).weaken (by omega)
  | saveBridge session bridge =>
    obtain ⟨d, hd, heq⟩ := of_wrapped h
    cases heq
    obtain ⟨hs, hp⟩ := saveSessionBridge_eq_ok hd
    exact (Writes.directory (Directory.Extends.of_eq hs hp) (by rfl)).weaken (by omega)
  | renameSession session title =>
    cases h
    refine Writes.weaken (Writes.directory ⟨fun id row hrow => ?_, fun _ _ hp => hp⟩ rfl)
      (Nat.zero_le 1)
    refine ⟨_, by simp only [Table.find?_update, hrow, Option.map_some]; rfl, ?_⟩
    split <;> rfl
  | recordRun run parent =>
    obtain ⟨db₁, h, heq⟩ := of_wrapped h
    cases heq
    simp only [recordRun, bind_eq_ok, pure_eq_ok] at h
    obtain ⟨_, -, rfl⟩ := h
    exact Writes.weaken (Writes.directory (.of_eq rfl rfl) rfl) (Nat.zero_le 1)
  | updateLastTurn session turn =>
    obtain ⟨db₁, h, heq⟩ := of_wrapped h
    cases heq
    exact (updateLastTurn_writes (fun _ => trivial) h).weaken (by omega)
  | holdDeletion nowMs session parent =>
    obtain ⟨⟨free, db₁⟩, h, heq⟩ := of_wrapped h
    cases heq
    simp only [holdChildDeletion, bind_eq_ok, pure_eq_ok] at h
    obtain ⟨_, -, _, -, h⟩ := h
    obtain ⟨-, rfl⟩ := Prod.mk.inj h
    exact (Writes.one (w := .kin (.holds _)) trivial trivial rfl).weaken (by omega)
  | releaseHold session =>
    cases h
    exact (Writes.one (w := .kin (.holds _)) trivial trivial rfl).weaken (by omega)
  | deleteGuarded clockMs id guard =>
    obtain ⟨db₁, h, heq⟩ := of_wrapped h
    cases heq
    obtain ⟨resolved, hdelete⟩ := deleteGuarded_eq_ok h
    have harchive : Writes (Op.deleteGuarded clockMs id guard).Issues 0 db
        ((Write.directory (db.directory.archive resolved)).apply db) :=
      .one (Directory.Extends.of_eq rfl rfl) rfl rfl
    rcases hdelete with rfl | ⟨session, hlegal, rfl⟩
    · exact harchive.weaken (by omega)
    · exact (harchive.trans (.one (w := .kin (.holds _)) trivial trivial rfl)).trans
        (.relink hlegal rfl)
  | deleteSession clockMs session =>
    obtain ⟨db₁, h, heq⟩ := of_wrapped h
    cases heq
    obtain ⟨hlegal, rfl⟩ := deleteSession_eq_ok h
    exact .relink hlegal rfl
  | purgeAll =>
    cases h
    exact .relink (w := .purge) trivial rfl
  | reopen =>
    cases h
    exact (reopen_writes (fun _ => trivial) (fun _ _ => trivial) db).weaken (by omega)

/-- A step of the system is a run of legal writes. -/
theorem machine_writes [DecidableEq δ] {deps : Deps δ} {op : Op} {db db' : Db δ}
    (h : (machine deps).next db op db') : Writes op.Issues 1 db db' := by
  rcases next_cases h with rfl | ⟨answer, hperform⟩
  · exact .refl _ _ _
  · exact perform_writes hperform

/-- An operation that deletes no session issues no write that deletes one. -/
theorem Op.Issues.deletes {op : Op} {w : Write δ} (h : op.Issues w) (hkeeps : op.keepsSessions = true) :
    w.deletes = false := by
  cases w with
  | forget | purge => simp [Op.Issues, hkeeps] at h
  | _ => rfl

/-- A step of the system deletes no session, or the deletion is its last write. -/
theorem machine_cases [DecidableEq δ] {deps : Deps δ} {op : Op} {db db' : Db δ}
    (h : (machine deps).next db op db') :
    Writes (fun w => op.Issues w ∧ w.deletes = false) 1 db db' ∨
      ∃ (db₁ : Db δ) (w : Write δ), Writes (fun w => op.Issues w ∧ w.deletes = false) 0 db db₁ ∧
        w.Legal db₁ ∧ w.deletes = true ∧ db' = w.apply db₁ := by
  by_cases hkeeps : op.keepsSessions = true
  · obtain ⟨ws, hrun, hissues, hrelinks⟩ := machine_writes h
    exact .inl ⟨ws, hrun, fun w hw => ⟨hissues w hw, (hissues w hw).deletes hkeeps⟩, hrelinks⟩
  rcases next_cases h with rfl | ⟨answer, hperform⟩
  · exact .inl (.refl _ _ _)
  cases op with
  | deleteGuarded clockMs id guard =>
    obtain ⟨db₁, h, heq⟩ := of_wrapped hperform
    cases heq
    obtain ⟨resolved, hdelete⟩ := deleteGuarded_eq_ok h
    have harchive : Writes
        (fun w => (Op.deleteGuarded clockMs id guard).Issues w ∧ w.deletes = false) 0 db
        ((Write.directory (db.directory.archive resolved)).apply db) :=
      .one (Directory.Extends.of_eq rfl rfl) ⟨rfl, rfl⟩ rfl
    rcases hdelete with rfl | ⟨session, hlegal, rfl⟩
    · exact .inl (harchive.weaken (by omega))
    · exact .inr ⟨_, _, harchive.trans (.one (w := .kin (.holds _)) trivial ⟨trivial, rfl⟩ rfl),
        hlegal, rfl, rfl⟩
  | deleteSession clockMs session =>
    obtain ⟨db₁, h, heq⟩ := of_wrapped hperform
    cases heq
    obtain ⟨hlegal, rfl⟩ := deleteSession_eq_ok h
    exact .inr ⟨db, _, .refl _ _ _, hlegal, rfl, rfl⟩
  | purgeAll =>
    cases hperform
    exact .inr ⟨db, .purge, .refl _ _ _, trivial, rfl, rfl⟩
  | _ => exact absurd rfl hkeeps

end Nakode
