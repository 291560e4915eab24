import Nakode.Operations.Inbox

/-!
# What the operations of reports, relationships and sessions write

One lemma for each operation, as in `Nakode.Operations.Inbox`: `publishInTransaction_eq_ok`,
`reparent_eq_ok` with `applyReparent_eq_ok`, `createSession_eq_ok` and `deleteGuarded_eq_ok`.
-/

namespace Nakode

open Relational Transition Outcome

variable {δ : Type}

/-! ## Reports and relationships -/

theorem publishInTransaction_eq_ok {db db' : Db δ} {child reportId state body : String}
    {nowMs : Int} (h : publishInTransaction db child reportId state body nowMs = .ok db') :
    (db.kinship.links.find? child).isSome ∧
      (db' = db ∨ ∃ row, (Write.report row).Legal db ∧ row.childId = child ∧
        db' = (Write.report row).apply db) := by
  simp only [publishInTransaction, bind_eq_ok, ensure_eq_ok, need_eq_ok] at h
  obtain ⟨_, -, state, -, _, hlinked, h⟩ := h
  refine ⟨hlinked, ?_⟩
  split at h
  · simp only [bind_eq_ok, ensure_eq_ok, pure_eq_ok] at h
    obtain ⟨_, -, rfl⟩ := h
    exact .inl rfl
  · simp only [bind_eq_ok, ensure_eq_ok, pure_eq_ok] at h
    obtain ⟨_, -, rfl⟩ := h
    exact .inr ⟨⟨child, reportId, state, body, nowMs⟩, hlinked, rfl, rfl⟩

/-- A claim or transfer that commits found the expected parent and revision, and nothing unsettled;
it links the orphan or re-points the child's link. -/
theorem applyReparent_eq_ok {db db' : Db δ} {clockMs : Int} {request : Reparent}
    (h : applyReparent db clockMs request = .ok db') :
    db.kinship.parent? request.child = request.previousParent ∧
      db.kinship.revision request.child = request.revision ∧
      unsettledDelivery db request.child = false ∧
      ((request.transfer = false ∧
        ∃ title, (Write.kin (.link request.child request.parent title)).Legal db ∧
          db' = (Write.kin (.link request.child request.parent title)).apply db) ∨
      (request.transfer = true ∧ (Write.kin (.repoint request.child request.parent)).Legal db ∧
          db' = (Write.kin (.repoint request.child request.parent)).apply db)) := by
  simp only [applyReparent, bind_eq_ok, ensure_eq_ok, ensureDeliverySettled, Bool.and_eq_true,
    beq_iff_eq, bne_iff_ne, Bool.not_eq_true', Bool.or_eq_false_iff, decide_eq_false_iff_not,
    ge_iff_le, Nat.not_le] at h
  obtain ⟨_, ⟨htransfer, hdifferent⟩, _, ⟨hparent, hrevision⟩, _, ⟨⟨⟨hnested, -⟩, -⟩, hcount⟩,
    _, -, _, hsettled, h⟩ := h
  refine ⟨hparent, hrevision, hsettled, ?_⟩
  cases htr : request.transfer with
  | true =>
    rw [htr] at h htransfer
    obtain ⟨previous, hprevious⟩ := Option.isSome_iff_exists.1 htransfer.symm
    rw [hprevious] at hparent hdifferent
    obtain ⟨link, hlink, rfl⟩ := Kinship.parent?_eq_some_iff.1 hparent
    have hne : link.parentId ≠ request.parent := fun heq => hdifferent (by rw [heq])
    obtain ⟨hcp, hp, rfl⟩ := repointLink_eq_ok hlink hne (mapError_eq_ok.1 h)
    exact .inr ⟨rfl, ⟨⟨⟨link, hlink, hne⟩, hcp, hnested, hcount⟩, hp⟩, rfl⟩
  | false =>
    rw [htr] at h htransfer
    have hprevious : request.previousParent = none := by
      rw [← Option.not_isSome_iff_eq_none, ← htransfer]; simp
    rw [hprevious] at hparent
    rcases linkInTransaction_eq_ok h with ⟨hlinked, -⟩ | ⟨title, hlegal, rfl⟩
    · rw [hparent] at hlinked; cases hlinked
    · exact .inl ⟨rfl, title, hlegal, rfl⟩

/-- A request for a claim or transfer is the retry of a committed one, or it commits the change
together with the transition that records it. -/
theorem reparent_eq_ok [DecidableEq δ] {deps : Deps δ} {db db' : Db δ} {request : ReparentRequest}
    {authenticate : Except ServiceError Unit}
    (h : reparent deps db request authenticate = .ok db') :
    ∃ change, Reparent.fromCommand request.command = .ok change ∧
      ((∃ saved, db.kinship.transition? request.key change.parent change.call = some saved ∧
          db' = db) ∨
        (db.kinship.transition? request.key change.parent change.call = none ∧
          ∃ db₁ row, applyReparent db request.clockMs change = .ok db₁ ∧
            row.childId = change.child ∧ row.parentId = change.parent ∧
            row.sourceCallId = change.call ∧ row.previousParentId = change.previousParent ∧
            row.previousRevision = change.revision ∧ row.revision = change.revision + 1 ∧
            (Write.kin (.transition request.key row)).Legal db₁ ∧
            db' = (Write.kin (.transition request.key row)).apply db₁)) := by
  simp only [Nakode.reparent, bind_eq_ok, ensure_eq_ok] at h
  obtain ⟨change, hchange, _, -, _, -, _, -, h⟩ := h
  refine ⟨change, hchange, ?_⟩
  split at h
  · next saved hsaved =>
    simp only [bind_eq_ok, ensure_eq_ok, pure_eq_ok] at h
    obtain ⟨_, -, rfl⟩ := h
    exact .inl ⟨saved, hsaved, rfl⟩
  · next hsaved =>
    simp only [bind_eq_ok, ensure_eq_ok, need_eq_ok, pure_eq_ok, Table.insert?_eq_some_iff] at h
    obtain ⟨_, -, _, -, db₁, happly, _, ⟨hfree, rfl⟩, rfl⟩ := h
    exact .inr ⟨hsaved, db₁, _, happly, rfl, rfl, rfl, rfl, rfl, rfl, hfree, rfl⟩

/-! ## The directory -/

namespace Directory.Extends

theorem refl (d : Directory) : Directory.Extends d d := ⟨fun _ row h => ⟨row, h, rfl⟩, fun _ _ h => h⟩

theorem trans {d d' d'' : Directory} (h : d''.Extends d') (h' : d'.Extends d) : d''.Extends d where
  sessions id row hrow := by
    obtain ⟨row', hrow', hw'⟩ := h'.sessions id row hrow
    obtain ⟨row'', hrow'', hw''⟩ := h.sessions id row' hrow'
    exact ⟨row'', hrow'', hw''.trans hw'⟩
  profiles id profile hprofile := h.profiles id profile (h'.profiles id profile hprofile)

/-- Changes of the bridges and runs alone. -/
theorem of_eq {d d' : Directory} (hs : d'.sessions = d.sessions) (hp : d'.profiles = d.profiles) :
    d'.Extends d where
  sessions id row hrow := ⟨row, by rw [hs]; exact hrow, rfl⟩
  profiles id profile hprofile := by rw [hp]; exact hprofile

end Directory.Extends

theorem upsertSession_eq_ok {d d' : Directory} {request : SessionCreation} {id : String}
    (h : upsertSession d request = .ok (id, d')) :
    ((∃ row, d.byProvider? request.provider request.providerSessionId = some (id, row)) ∧ d' = d) ∨
      (d.sessions.find? request.id = none ∧ id = request.id ∧ ∃ row,
        d' = { d with sessions := d.sessions.insertOrIgnore request.id row }) := by
  simp only [upsertSession] at h
  split at h
  · next id' row hrow =>
    obtain ⟨rfl, rfl⟩ := Prod.mk.inj (Except.ok.inj h)
    exact .inl ⟨⟨row, hrow⟩, rfl⟩
  · simp only [bind_eq_ok, need_eq_ok, pure_eq_ok, Table.insert?_eq_some_iff] at h
    obtain ⟨_, ⟨hfree, rfl⟩, h⟩ := h
    obtain ⟨rfl, rfl⟩ := Prod.mk.inj h
    exact .inr ⟨hfree, rfl, _, rfl⟩

theorem bindSessionSkillProfile_eq_ok {d d' : Directory} {session profile : String}
    (h : bindSessionSkillProfile d session profile = .ok d') :
    (d.profiles.find? session = some profile ∧ d' = d) ∨
      (d.profiles.find? session = none ∧
        d' = { d with profiles := d.profiles.insertOrIgnore session profile }) := by
  simp only [bindSessionSkillProfile] at h
  split at h
  · next persisted hpersisted =>
    split at h
    · next heq => exact .inl ⟨by rw [hpersisted, heq], (Except.ok.inj h).symm⟩
    · cases h
  · next hnone =>
    simp only [bind_eq_ok, ensure_eq_ok, pure_eq_ok] at h
    obtain ⟨_, -, rfl⟩ := h
    exact .inr ⟨hnone, rfl⟩

theorem saveSessionBridge_eq_ok {d d' : Directory} {session : String} {bridge : Bridge}
    (h : saveSessionBridge d session bridge = .ok d') :
    d'.sessions = d.sessions ∧ d'.profiles = d.profiles := by
  simp only [saveSessionBridge, bind_eq_ok, ensure_eq_ok, pure_eq_ok] at h
  obtain ⟨_, -, rfl⟩ := h
  exact ⟨rfl, rfl⟩

theorem bindSessionSkillProfile_extends {d d' : Directory} {session profile : String}
    (h : bindSessionSkillProfile d session profile = .ok d') : d'.Extends d := by
  rcases bindSessionSkillProfile_eq_ok h with ⟨-, rfl⟩ | ⟨hnone, rfl⟩
  · exact .refl d'
  · refine ⟨fun _ row hrow => ⟨row, hrow, rfl⟩, fun id p hp => ?_⟩
    have hne : id ≠ session := fun heq => by rw [heq, hnone] at hp; cases hp
    simpa [hne] using hp

theorem upsertSession_extends {d d' : Directory} {request : SessionCreation} {id : String}
    (h : upsertSession d request = .ok (id, d')) : d'.Extends d := by
  rcases upsertSession_eq_ok h with ⟨-, rfl⟩ | ⟨hfree, -, row, rfl⟩
  · exact .refl d'
  · refine ⟨fun id row' hrow => ⟨row', ?_, rfl⟩, fun _ _ hp => hp⟩
    have hne : id ≠ request.id := fun heq => by rw [heq, hfree] at hrow; cases hrow
    simpa [hne] using hrow

theorem saveRequested_eq_ok {d d' : Directory} {bridge : Option (String × Bridge)}
    (h : saveRequested d bridge = .ok d') :
    d'.sessions = d.sessions ∧ d'.profiles = d.profiles := by
  cases bridge with
  | none => obtain rfl := Except.ok.inj h; exact ⟨rfl, rfl⟩
  | some bridge => exact saveSessionBridge_eq_ok h

theorem bindRequested_extends {d d' : Directory} {id : String} {profile : Option String}
    (h : bindRequested d id profile = .ok d') : d'.Extends d := by
  cases profile with
  | none => obtain rfl := Except.ok.inj h; exact .refl d
  | some profile => exact bindSessionSkillProfile_extends h

/-- A creation registers its session: the record first, then the profile, then the bridge. -/
theorem registerSession_eq_ok {d d' : Directory} {request : SessionCreation} {id : String}
    (h : registerSession d request = .ok (id, d')) :
    ∃ d₁ d₂, upsertSession d request = .ok (id, d₁) ∧
      bindRequested d₁ id request.profileId = .ok d₂ ∧
      d'.sessions = d₂.sessions ∧ d'.profiles = d₂.profiles := by
  simp only [registerSession, bind_eq_ok, pure_eq_ok] at h
  obtain ⟨⟨id', d₁⟩, hupsert, d₂, hprofile, d₃, hbridge, h⟩ := h
  obtain ⟨rfl, rfl⟩ := Prod.mk.inj h
  exact ⟨d₁, d₂, hupsert, hprofile, saveRequested_eq_ok hbridge⟩

theorem registerSession_extends {d d' : Directory} {request : SessionCreation} {id : String}
    (h : registerSession d request = .ok (id, d')) : d'.Extends d := by
  obtain ⟨d₁, d₂, hupsert, hprofile, hs, hp⟩ := registerSession_eq_ok h
  exact (Directory.Extends.of_eq hs hp).trans
    ((bindRequested_extends hprofile).trans (upsertSession_extends hupsert))

/-- A creation registers its session, and links it when it names a parent. -/
theorem createSession_eq_ok {db db' : Db δ} {clockMs : Int} {request : SessionCreation}
    (h : createSession db clockMs request = .ok db') :
    ∃ id d, registerSession db.directory request = .ok (id, d) ∧
      (db' = (Write.directory d).apply db ∨
        ∃ parent title,
          (Write.kin (.link id parent title)).Legal ((Write.directory d).apply db) ∧
          db' = (Write.kin (.link id parent title)).apply ((Write.directory d).apply db)) := by
  simp only [createSession, bind_eq_ok] at h
  obtain ⟨⟨id, d⟩, hregister, h⟩ := h
  refine ⟨id, d, hregister, ?_⟩
  split at h
  · rcases linkInTransaction_eq_ok (mapError_eq_ok.1 h) with ⟨-, rfl⟩ | ⟨title, hlegal, rfl⟩
    · exact .inl rfl
    · exact .inr ⟨_, title, hlegal, rfl⟩
  · exact .inl (pure_eq_ok.1 h).symm

/-- A session is deleted only when no message of another session is in one of its batches. -/
theorem deleteSession_eq_ok {db db' : Db δ} {clockMs : Int} {session : String}
    (h : deleteSession db clockMs session = .ok db') :
    (Write.forget session).Legal db ∧ db' = (Write.forget session).apply db := by
  simp only [deleteSession, bind_eq_ok, ensure_eq_ok, pure_eq_ok, Bool.not_eq_true',
    Table.has_eq_false_iff] at h
  obtain ⟨_, -, _, hforeign, rfl⟩ := h
  refine ⟨fun n m b batch hm hb hbatch hsession => ?_, rfl⟩
  have := hforeign n m hm
  simp only [hb, Option.bind_some, hbatch, Option.any_some, hsession, beq_self_eq_true,
    Bool.and_true, bne_eq_false_iff_eq] at this
  exact this

/-- The runs of statements of a guarded deletion. -/
theorem deleteGuarded_eq_ok {db db' : Db δ} {clockMs : Int} {id : String} {guard : DeletionGuard}
    (h : deleteGuarded db clockMs id guard = .ok db') :
    ∃ resolved, let db₁ := (Write.directory (db.directory.archive resolved)).apply db
      db' = db₁ ∨
        ∃ session,
          let db₂ := (Write.kin (.holds (db₁.kinship.holds.delete fun c _ => c == session))).apply db₁
          (Write.forget session).Legal db₂ ∧ db' = (Write.forget session).apply db₂ := by
  simp only [deleteGuarded, bind_eq_ok, ensure_eq_ok] at h
  obtain ⟨found, -, _, -, _, -, h⟩ := h
  refine ⟨found.getD id, ?_⟩
  split at h
  · exact .inl (pure_eq_ok.1 h).symm
  · next session =>
    obtain ⟨hlegal, rfl⟩ := deleteSession_eq_ok (mapError_eq_ok.1 h)
    exact .inr ⟨session, hlegal, rfl⟩

end Nakode
