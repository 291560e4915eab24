import Nakode.Inbox.Ledger
import Nakode.Kinship.Forest

/-!
# Coordination that a change of parents strands

A message that has not been consumed rests on the link it was admitted by: evidence on the link
from its child, an instruction that no owner Chat gives on the link from its parent. `Anchored`
says that these links are still there; every legal write keeps it but one that re-points the link
of a child with such messages (`strandable`). `ReportStore::reparent` checks for them and `adopt`
does not, so `relationships_never_strand` holds of the runs in which no owner Chat adopts an agent
that has any, and `relay_strands_evidence` is a run in which one does.
-/

namespace Nakode

open Relational Transition Outcome

variable {δ : Type}

/-! ## Unsettled messages -/

theorem Inbox.unsettled_iff {i : Inbox δ} {n : Nat} {m : Message δ} :
    i.unsettled n m = true ↔ i.removed n = false ∧ i.batchState? m ≠ some .consumed := by
  simp [unsettled]

/-- A message that is unsettled after a write was unsettled before it, in the same inbox, or it is
the message that the write admits. -/
theorem Inbox.of_unsettled_apply {i : Inbox δ} {w : InboxWrite δ} (hw : w.Legal i) {n : Nat}
    {m' : Message δ} (hm' : (w.apply i).messages.find? n = some m')
    (hu : (w.apply i).unsettled n m' = true) :
    (∃ m, i.messages.find? n = some m ∧ m.sessionId = m'.sessionId ∧ i.unsettled n m = true) ∨
      (n = i.messages.next ∧ ∃ source report, w = .admission m' source report) := by
  rw [unsettled_iff] at hu
  obtain ⟨hremoved, hstate⟩ := hu
  cases w with
  | receipt | setPaused | source =>
    exact .inl ⟨m', hm', rfl, unsettled_iff.2 ⟨hremoved, hstate⟩⟩
  | admission m source report =>
    simp only [InboxWrite.apply, admission, Sequenced.find?_append] at hm'
    split at hm'
    · next hn =>
      cases hm'
      exact .inr ⟨hn, source, report, rfl⟩
    · exact .inl ⟨m', hm', rfl, unsettled_iff.2 ⟨hremoved, hstate⟩⟩
  | remove sequence =>
    simp only [InboxWrite.apply] at hm' hremoved hstate
    rw [find?_remove, Option.map_eq_some_iff] at hm'
    obtain ⟨m, hm, rfl⟩ := hm'
    have hn : ¬ (n = sequence ∨ i.removed n = true) := by
      rw [← removed_remove, hremoved]
      simp
    rw [not_or, Bool.not_eq_true] at hn
    rw [if_neg hn.1] at hstate ⊢
    exact .inl ⟨m, hm, rfl, unsettled_iff.2 ⟨hn.2, hstate⟩⟩
  | cut session batch cutoff display =>
    simp only [InboxWrite.apply] at hm' hremoved hstate
    rw [find?_cut, Option.map_eq_some_iff] at hm'
    obtain ⟨m, hm, rfl⟩ := hm'
    by_cases htakes : i.takes session cutoff n m = true
    · -- it waited
      obtain ⟨-, hwaits, -, hr⟩ := takes_iff.1 htakes
      refine .inl ⟨m, hm, by rw [if_pos htakes]; rfl, unsettled_iff.2 ⟨hr, ?_⟩⟩
      simp [batchState?, hwaits]
    · rw [if_neg htakes] at hstate ⊢
      refine .inl ⟨m, hm, rfl, unsettled_iff.2 ⟨hremoved, ?_⟩⟩
      intro hconsumed
      refine hstate ?_
      obtain ⟨b, hb, hstate'⟩ := Option.map_eq_some_iff.1 hconsumed
      obtain ⟨id, hid, hfind⟩ := Option.bind_eq_some_iff.1 hb
      have hne : id ≠ batch := by
        intro heq
        rw [heq, hw.1] at hfind
        cases hfind
      simp [batchState?, hid, cut, hne, hfind, hstate']
  | mark m =>
    refine .inl ⟨m', hm', rfl, unsettled_iff.2 ⟨hremoved, ?_⟩⟩
    intro hconsumed
    refine hstate ?_
    obtain ⟨b, hb, hstate'⟩ := Option.map_eq_some_iff.1 hconsumed
    obtain ⟨id, hid, hfind⟩ := Option.bind_eq_some_iff.1 hb
    have hoff : ¬ m.on id b = true := fun hon => Mark.not_consumed_of_on hon hstate'
    simp [InboxWrite.apply, batchState?, hid, hfind, hoff, hstate']

/-! ## The links that messages rest on -/

/-- An unsettled message rests on the link of the child: evidence from it that was delivered, or an
instruction to it that no owner Chat gave. -/
def strandable (db : Db δ) (child : String) : Bool :=
  db.inbox.messages.has fun n m =>
    db.inbox.unsettled n m &&
    let source := db.inbox.sources.find? n
    (db.inbox.deliveries.has (fun _ message => message == n)
        && source.any (·.sessionId == child)
      || (m.sessionId == child
        && source.any fun s => s.kind == .delegatedInstruction && !s.ownerChat))

theorem strandable_iff {db : Db δ} {child : String} :
    strandable db child = true ↔ ∃ n m, db.inbox.messages.find? n = some m ∧
      db.inbox.unsettled n m = true ∧ ∃ s, db.inbox.sources.find? n = some s ∧
        (((∃ r, db.inbox.deliveries.find? r = some n) ∧ s.sessionId = child) ∨
          (m.sessionId = child ∧ s.kind = .delegatedInstruction ∧ s.ownerChat = false)) := by
  simp only [strandable, Table.has_iff, Bool.and_eq_true, Bool.or_eq_true, Option.any_eq_true,
    beq_iff_eq, Bool.not_eq_true']
  refine exists_congr fun n => exists_congr fun m => and_congr_right fun _ =>
    and_congr_right fun _ => ⟨?_, ?_⟩
  · rintro (⟨⟨r, k, hr, rfl⟩, s, hs, hchild⟩ | ⟨hm, s, hs, hkind⟩)
    · exact ⟨s, hs, .inl ⟨⟨r, hr⟩, hchild⟩⟩
    · exact ⟨s, hs, .inr ⟨hm, hkind⟩⟩
  · rintro ⟨s, hs, ⟨⟨r, hr⟩, hchild⟩ | ⟨hm, hkind⟩⟩
    · exact .inl ⟨⟨r, n, hr, rfl⟩, s, hs, hchild⟩
    · exact .inr ⟨hm, s, hs, hkind⟩

/-- Every unsettled message still has the link it rests on. -/
structure Anchored (db : Db δ) : Prop where
  named : db.directory.exists? "" = false
  /-- Nothing is recorded about a message before it is admitted. -/
  recorded : ∀ n, db.inbox.messages.next ≤ n →
    db.inbox.sources.find? n = none ∧ ∀ r, db.inbox.deliveries.find? r ≠ some n
  evidence : ∀ n m r, db.inbox.messages.find? n = some m → db.inbox.unsettled n m = true →
    db.inbox.deliveries.find? r = some n → ∃ s, db.inbox.sources.find? n = some s ∧
      s.kind = .durableChildEvidence ∧ db.kinship.parent? s.sessionId = some m.sessionId ∧
      db.directory.sharesOwnership s.sessionId m.sessionId = true
  instruction : ∀ n m s, db.inbox.messages.find? n = some m → db.inbox.unsettled n m = true →
    db.inbox.sources.find? n = some s → s.kind = .delegatedInstruction → s.ownerChat = false →
    db.kinship.parent? m.sessionId = some s.sessionId

theorem anchored_empty : Anchored (∅ : Db δ) where
  named := rfl
  recorded _ _ := ⟨rfl, fun _ h => nomatch h⟩
  evidence _ _ _ h := nomatch h
  instruction _ _ _ h := nomatch h

/-- A directory with the sessions of another, in their workspaces and with exactly their profiles. -/
structure Directory.Keeps (d' d : Directory) : Prop extends d'.Extends d where
  unbound : ∀ id, d.exists? id = true → d'.profiles.find? id = d.profiles.find? id
  named : d'.exists? "" = true → d.exists? "" = true

theorem Directory.Keeps.sharesOwnership {d d' : Directory} (h : d'.Keeps d) {a b : String}
    (hab : d.sharesOwnership a b = true) : d'.sharesOwnership a b = true := by
  obtain ⟨ha, hb⟩ := Directory.exists?_of_sharesOwnership hab
  have hpa := h.unbound a ha
  have hpb := h.unbound b hb
  obtain ⟨x, hx⟩ := Option.isSome_iff_exists.1 ha
  obtain ⟨y, hy⟩ := Option.isSome_iff_exists.1 hb
  obtain ⟨x', hx', hwx⟩ := h.sessions a x hx
  obtain ⟨y', hy', hwy⟩ := h.sessions b y hy
  simp only [Directory.sharesOwnership, hx, hy, hx', hy', hpa, hpb, hwx, hwy] at hab ⊢
  exact hab

/-- The write takes no link from a message that rests on it. -/
def Write.Steady (db : Db δ) : Write δ → Prop
  | .directory d => d.Keeps db.directory
  | .kin (.repoint child _) => strandable db child = false
  | .forget _ | .purge => False
  | _ => True

/-- Links that are not taken from the messages that rest on them. -/
theorem Anchored.relink {db : Db δ} (h : Anchored db) {k : Kinship δ}
    (hparent : ∀ child parent, db.kinship.parent? child = some parent →
      k.parent? child = some parent ∨ strandable db child = false) :
    Anchored { db with kinship := k } where
  named := h.named
  recorded := h.recorded
  evidence n m r hm hu hr := by
    obtain ⟨s, hs, hkind, hlink, howned⟩ := h.evidence n m r hm hu hr
    refine ⟨s, hs, hkind, ?_, howned⟩
    rcases hparent _ _ hlink with hkept | hfree
    · exact hkept
    · have hbusy : strandable db s.sessionId = true :=
        strandable_iff.2 ⟨n, m, hm, hu, s, hs, .inl ⟨⟨r, hr⟩, rfl⟩⟩
      rw [hfree] at hbusy
      cases hbusy
  instruction n m s hm hu hs hkind howner := by
    have hlink := h.instruction n m s hm hu hs hkind howner
    rcases hparent _ _ hlink with hkept | hfree
    · exact hkept
    · have hbusy : strandable db m.sessionId = true :=
        strandable_iff.2 ⟨n, m, hm, hu, s, hs, .inr ⟨rfl, hkind, howner⟩⟩
      rw [hfree] at hbusy
      cases hbusy

/-- Admissions rest on the links of the moment. -/
theorem Anchored.admission {db : Db δ} (h : Anchored db) {m : Message δ} {source : Option Source}
    {report : Option Nat} (hlegal : (Write.inbox (.admission m source report)).Legal db) :
    Anchored ((Write.inbox (.admission m source report)).apply db) := by
  obtain ⟨hinbox, hgrounded⟩ := hlegal
  have hnext := h.recorded db.inbox.messages.next (Nat.le_refl _)
  -- the records of the new message
  have hsource : (db.inbox.admission m source report).sources.find? db.inbox.messages.next
      = source := by
    cases source with
    | none => exact hnext.1
    | some s => simp [Inbox.admission, hnext.1]
  have hreport : ∀ r, (db.inbox.admission m source report).deliveries.find? r
      = some db.inbox.messages.next → report = some r := by
    intro r hr
    cases report with
    | none => exact absurd hr (hnext.2 r)
    | some r' =>
      simp only [Inbox.admission, Table.find?_insertOrIgnore] at hr
      split at hr
      · next heq => rw [heq]
      · exact absurd hr (hnext.2 r)
  refine ⟨h.named, ?_, ?_, ?_⟩
  · intro n hn
    have hlt : db.inbox.messages.next < n := hn
    obtain ⟨hs, hr⟩ := h.recorded n hlt.le
    obtain ⟨hsources, hdeliveries⟩ :=
      Inbox.find?_admission m source report hlt.ne'
    exact ⟨hsources.trans hs, fun r hr' => hr r (hdeliveries r hr')⟩
  · intro n m' r hm' hu hr
    rcases Inbox.of_unsettled_apply hinbox hm' hu with ⟨m₀, hm₀, hs₀, hu₀⟩ | ⟨rfl, s', r', heq⟩
    · obtain ⟨hsources, hdeliveries⟩ :=
        Inbox.find?_admission m source report (Sequenced.lt_next hm₀).ne
      obtain ⟨s, hs, hkind, hlink, howned⟩ := h.evidence n m₀ r hm₀ hu₀ (hdeliveries r hr)
      rw [hs₀] at hlink howned
      exact ⟨s, hsources.trans hs, hkind, hlink, howned⟩
    · cases heq
      obtain ⟨row, s, hrow, -, hlink, howned, rfl, hkind, hchild, -⟩ :=
        hgrounded.evidence r (hreport r hr)
      refine ⟨s, hsource, hkind, ?_, ?_⟩
      · rw [hchild]
        exact hlink
      · rw [hchild]
        exact howned
  · intro n m' s hm' hu hs hkind howner
    rcases Inbox.of_unsettled_apply hinbox hm' hu with ⟨m₀, hm₀, hs₀, hu₀⟩ | ⟨rfl, s', r', heq⟩
    · obtain ⟨hsources, -⟩ :=
        Inbox.find?_admission m source report (Sequenced.lt_next hm₀).ne
      rw [← hs₀]
      exact h.instruction n m₀ s hm₀ hu₀ (hsources.symm.trans hs) hkind howner
    · cases heq
      exact hgrounded.instruction s (hsource.symm.trans hs) hkind howner

/-- Writes to the inbox that record nothing about a message. -/
theorem Anchored.inbox {db : Db δ} (h : Anchored db) {w : InboxWrite δ} (hw : w.Legal db.inbox)
    (hnew : ∀ m source report, w ≠ .admission m source report)
    (hnext : (w.apply db.inbox).messages.next = db.inbox.messages.next)
    (hdeliveries : (w.apply db.inbox).deliveries = db.inbox.deliveries)
    (hsources : (w.apply db.inbox).sources = db.inbox.sources) :
    Anchored { db with inbox := w.apply db.inbox } := by
  refine ⟨h.named, ?_, ?_, ?_⟩
  · intro n hn
    rw [hnext] at hn
    rw [hdeliveries, hsources]
    exact h.recorded n hn
  · intro n m' r hm' hu hr
    rw [hdeliveries] at hr
    rcases Inbox.of_unsettled_apply hw hm' hu with ⟨m, hm, hs, hu₀⟩ | ⟨-, s, r', heq⟩
    · rw [hsources, ← hs]
      exact h.evidence n m r hm hu₀ hr
    · exact absurd heq (hnew m' s r')
  · intro n m' s hm' hu hs hkind howner
    rw [hsources] at hs
    rcases Inbox.of_unsettled_apply hw hm' hu with ⟨m, hm, hsession, hu₀⟩ | ⟨-, s', r', heq⟩
    · rw [← hsession]
      exact h.instruction n m s hm hu₀ hs hkind howner
    · exact absurd heq (hnew m' s' r')

/-- A legal write that takes no link from a message keeps the messages anchored. -/
theorem Anchored.apply {db : Db δ} (h : Anchored db) {w : Write δ} (hlegal : w.Legal db)
    (hsteady : w.Steady db) : Anchored (w.apply db) := by
  cases w with
  | directory d =>
    refine ⟨?_, h.recorded, ?_, h.instruction⟩
    · rw [Bool.eq_false_iff]
      intro hnamed
      have hold := hsteady.named hnamed
      rw [h.named] at hold
      cases hold
    · intro n m r hm hu hr
      obtain ⟨s, hs, hkind, hlink, howned⟩ := h.evidence n m r hm hu hr
      exact ⟨s, hs, hkind, hlink, hsteady.sharesOwnership howned⟩
  | kin w =>
    refine h.relink fun child parent hparent => ?_
    cases w with
    | link c p title =>
      obtain ⟨⟨hfree, -⟩, -⟩ := hlegal
      have hne : child ≠ c := by
        rintro rfl
        rw [Kinship.parent?_eq_none_iff.2 hfree] at hparent
        cases hparent
      exact .inl (by rw [KinWrite.parent?_link hfree, if_neg hne]; exact hparent)
    | repoint c p =>
      obtain ⟨⟨⟨link, hlink, -⟩, -⟩, -⟩ := hlegal
      by_cases hc : child = c
      · subst hc
        exact .inr hsteady
      · exact .inl (by rw [KinWrite.parent?_repoint hlink, if_neg hc]; exact hparent)
    | holds | transition | revise => exact .inl hparent
  | report row => exact ⟨h.named, h.recorded, h.evidence, h.instruction⟩
  | reportReceipt key receipt => exact ⟨h.named, h.recorded, h.evidence, h.instruction⟩
  | inbox w =>
    cases w with
    | admission m source report => exact h.admission hlegal
    | source sequence s =>
      obtain ⟨hfree, report, hreport⟩ := hlegal
      have hother : ∀ n, n ≠ sequence →
          (db.inbox.sources.insertOrIgnore sequence s).find? n = db.inbox.sources.find? n :=
        fun n hn => by simp [hn]
      refine ⟨h.named, ?_, ?_, ?_⟩
      · intro n hn
        have hne : n ≠ sequence := by
          rintro rfl
          exact (h.recorded n hn).2 report hreport
        exact ⟨(hother n hne).trans (h.recorded n hn).1, (h.recorded n hn).2⟩
      · intro n m r hm hu hr
        obtain ⟨t, ht, hrest⟩ := h.evidence n m r hm hu hr
        have hne : n ≠ sequence := by
          rintro rfl
          rw [hfree] at ht
          cases ht
        exact ⟨t, (hother n hne).trans ht, hrest⟩
      · intro n m t hm hu ht hkind howner
        have hne : n ≠ sequence := by
          -- it would be unsettled, delivered and without a source
          rintro rfl
          obtain ⟨t', ht', -⟩ := h.evidence n m report hm hu hreport
          rw [hfree] at ht'
          cases ht'
        exact h.instruction n m t hm hu ((hother n hne).symm.trans ht) hkind howner
    | receipt | remove | setPaused | cut | mark =>
      exact h.inbox hlegal (fun _ _ _ heq => by cases heq) rfl rfl rfl
  | forget session => exact hsteady.elim
  | purge => exact hsteady.elim

/-! ## Runs of steady writes -/

theorem Anchored.run {db db' : Db δ} {ws : List (Write δ)} (hrun : (journal δ).Run db ws db')
    (hsteady : ∀ w ∈ ws, ∀ db, w.Steady db) (h : Anchored db) : Anchored db' := by
  induction hrun with
  | nil => exact h
  | cons hnext _ ih =>
    obtain ⟨hlegal, rfl⟩ := hnext
    exact ih (fun w hw => hsteady w (List.mem_cons_of_mem _ hw))
      (h.apply hlegal (hsteady _ List.mem_cons_self _))

/-- An operation that neither edits the directory nor moves or deletes a session. -/
theorem Anchored.quiet [DecidableEq δ] {deps : Deps δ} {db db' : Db δ} {op : Op} (h : Anchored db)
    (hstep : (machine deps).next db op db') (hkeeps : op.keepsSessions = true)
    (hedits : op.editsDirectory = false) (hparents : op.keepsParents = true) : Anchored db' := by
  obtain ⟨ws, hrun, hissues, -⟩ := machine_writes hstep
  refine h.run hrun fun w hw db => ?_
  have hissued := hissues w hw
  cases w with
  | directory d => exact absurd (hissued.symm.trans hedits) (by simp)
  | forget session => exact absurd (hissued.symm.trans hkeeps) (by simp)
  | purge => exact absurd (hissued.symm.trans hkeeps) (by simp)
  | kin w =>
    cases w with
    | repoint child parent => exact absurd (hissued.symm.trans hparents) (by simp)
    | _ => trivial
  | _ => trivial

/-! ## Directories that keep who owns whom -/

/-- Sessions are created under identities that are not empty, and a session's profile, and whether
it has one, stay as they are. -/
def Op.keepsOwnership (db : Db δ) : Op → Prop
  | .deleteGuarded .. | .deleteSession .. | .purgeAll => False
  | .bindProfile session _ => (db.directory.profiles.find? session).isSome
  | .createSession _ request =>
    request.id ≠ "" ∧
      ∀ row, db.directory.byProvider? request.provider request.providerSessionId = some row →
        request.profileId = none ∨ (db.directory.profiles.find? row.1).isSome
  | _ => True

namespace Directory.Keeps

theorem of_eq {d d' : Directory} (hs : d'.sessions = d.sessions) (hp : d'.profiles = d.profiles) :
    d'.Keeps d where
  toExtends := .of_eq hs hp
  unbound id _ := by rw [hp]
  named h := by rw [exists?, ← hs]; exact h

theorem trans {d d' d'' : Directory} (h : d''.Keeps d') (h' : d'.Keeps d) : d''.Keeps d where
  toExtends := h.toExtends.trans h'.toExtends
  unbound id hid := by
    obtain ⟨row, hrow⟩ := Option.isSome_iff_exists.1 hid
    obtain ⟨row', hrow', -⟩ := h'.sessions id row hrow
    exact (h.unbound id (by simp [exists?, hrow'])).trans (h'.unbound id hid)
  named hnamed := h'.named (h.named hnamed)

/-- Binding a session that is bound, or that was not there. -/
theorem bind {d d₁ d₂ : Directory} {session profile : String} (h₁ : d₁.Keeps d)
    (hbound : (d₁.profiles.find? session).isSome ∨ d.exists? session = false)
    (h : bindSessionSkillProfile d₁ session profile = .ok d₂) : d₂.Keeps d where
  toExtends := (bindSessionSkillProfile_extends h).trans h₁.toExtends
  unbound id hid := by
    rcases bindSessionSkillProfile_eq_ok h with ⟨-, rfl⟩ | ⟨hnone, rfl⟩
    · exact h₁.unbound id hid
    · have hne : id ≠ session := by
        rintro rfl
        rcases hbound with hbound | hbound
        · rw [hnone] at hbound
          cases hbound
        · rw [hid] at hbound
          cases hbound
      rw [← h₁.unbound id hid]
      simp [hne]
  named hnamed := by
    rcases bindSessionSkillProfile_eq_ok h with ⟨-, rfl⟩ | ⟨-, rfl⟩ <;> exact h₁.named hnamed

theorem upsert {d d' : Directory} {request : SessionCreation} {id : String} (hid : request.id ≠ "")
    (h : upsertSession d request = .ok (id, d')) : d'.Keeps d where
  toExtends := upsertSession_extends h
  unbound _ _ := by
    rcases upsertSession_eq_ok h with ⟨-, rfl⟩ | ⟨-, -, _, rfl⟩ <;> rfl
  named hnamed := by
    rcases upsertSession_eq_ok h with ⟨-, rfl⟩ | ⟨-, -, _, rfl⟩
    · exact hnamed
    · simpa [exists?, Ne.symm hid] using hnamed

/-- Creating a session, where an existing one gets no profile. -/
theorem register {d d' : Directory} {request : SessionCreation} {id : String}
    (hid : request.id ≠ "")
    (hprofile : ∀ row, d.byProvider? request.provider request.providerSessionId = some row →
      request.profileId = none ∨ (d.profiles.find? row.1).isSome)
    (h : registerSession d request = .ok (id, d')) : d'.Keeps d := by
  obtain ⟨d₁, d₂, hupsert, hbind, hs, hp⟩ := registerSession_eq_ok h
  refine (of_eq hs hp).trans ?_
  have h₁ := upsert hid hupsert
  cases hrequested : request.profileId with
  | none =>
    rw [hrequested] at hbind
    obtain rfl := Except.ok.inj hbind
    exact h₁
  | some profile =>
    rw [hrequested] at hbind
    refine h₁.bind ?_ hbind
    rcases upsertSession_eq_ok hupsert with ⟨⟨row, hrow⟩, rfl⟩ | ⟨hfree, rfl, row, rfl⟩
    · rcases hprofile _ hrow with hnone | hbound
      · rw [hrequested] at hnone
        cases hnone
      · exact .inl hbound
    · exact .inr (by simp [exists?, hfree])

end Directory.Keeps

theorem Anchored.directory {db : Db δ} (h : Anchored db) {d : Directory}
    (hkeeps : d.Keeps db.directory) : Anchored { db with directory := d } :=
  h.apply (w := .directory d) hkeeps.toExtends hkeeps

/-! ## Runs in which no adoption strands a message -/

/-- An owner Chat's relay re-points the agent's link: the message is new, the agent is the child of
another session, neither of the two is nested, the Chat has room and the agent is not held. -/
def Readopts (db : Db δ) (op : Op) (agent : String) : Prop :=
  ∃ request runtime messageId chat call prompt, op = .execute request runtime ∧
    request.command = .relayAgentFollowup agent messageId chat call prompt true ∧
    db.inbox.receipts.find? request.key = none ∧ db.inbox.sequenceOf? agent messageId = none ∧
    (∃ parent, db.kinship.parent? agent = some parent ∧ parent ≠ chat) ∧
    db.kinship.nested chat agent = false ∧ db.kinship.childCount chat < 32 ∧
    db.kinship.held agent runtime.clockMs = false

/-- The system without deletions and changes of ownership, in which no owner Chat re-points the
link of an agent that a message rests on. -/
def coordinating [DecidableEq δ] (deps : Deps δ) : System (Db δ) Op :=
  (machine deps).restrict fun db op => op.keepsOwnership db ∧
    ∀ agent, Readopts db op agent → strandable db agent = false

/-- An owner Chat's message rests on no link. -/
theorem strandable_admission {db : Db δ} (h : Anchored db) {m : Message δ} {s : Source}
    (hlegal : (Write.inbox (.admission m (some s) none)).Legal db) (howner : s.ownerChat = true)
    {child : String} (hchild : strandable db child = false) :
    strandable ((Write.inbox (.admission m (some s) none)).apply db) child = false := by
  rw [Bool.eq_false_iff] at hchild ⊢
  intro hbusy
  refine hchild ?_
  obtain ⟨n, m', hm', hu, t, ht, hrests⟩ := strandable_iff.1 hbusy
  rcases Inbox.of_unsettled_apply hlegal.1 hm' hu with ⟨m₀, hm₀, hs₀, hu₀⟩ | ⟨rfl, s', r', heq⟩
  · obtain ⟨hsources, hdeliveries⟩ :=
      Inbox.find?_admission m (some s) none (Sequenced.lt_next hm₀).ne
    refine strandable_iff.2 ⟨n, m₀, hm₀, hu₀, t, hsources.symm.trans ht, ?_⟩
    rcases hrests with ⟨⟨r, hr⟩, hchild⟩ | ⟨hsession, hkind⟩
    · exact .inl ⟨⟨r, hdeliveries r hr⟩, hchild⟩
    · exact .inr ⟨hs₀.trans hsession, hkind⟩
  · cases heq
    have hnext := h.recorded db.inbox.messages.next (Nat.le_refl _)
    have hsource : t = s := by
      have hfind : (db.inbox.sources.insertOrIgnore db.inbox.messages.next s).find?
          db.inbox.messages.next = some t := ht
      simpa [hnext.1, eq_comm] using hfind
    rcases hrests with ⟨⟨r, hr⟩, -⟩ | ⟨-, -, hnone⟩
    · exact absurd hr (hnext.2 r)
    · rw [hsource, howner] at hnone
      cases hnone

/-- What `ReportStore::reparent` checks covers every message that rests on the child's link. -/
theorem strandable_of_settled {db : Db δ} (h : Anchored db) {child : String}
    (hsettled : unsettledDelivery db child = false) : strandable db child = false := by
  rw [Bool.eq_false_iff]
  intro hbusy
  obtain ⟨n, m, hm, hu, s, hs, hrests⟩ := strandable_iff.1 hbusy
  have hfree := (Table.has_eq_false_iff.1 hsettled) n m hm
  simp only [hu, hs, Bool.true_and, Bool.or_eq_false_iff, Option.any_some, Bool.and_eq_false_iff,
    beq_eq_false_iff_ne] at hfree
  obtain ⟨⟨-, hevidence⟩, hinstruction⟩ := hfree
  rcases hrests with ⟨⟨r, hr⟩, hchild⟩ | ⟨hsession, hkind, -⟩
  · obtain ⟨t, ht, hkind, -⟩ := h.evidence n m r hm hu hr
    rw [hs] at ht
    cases ht
    exact hevidence.elim (fun hne => hne hkind) fun hne => hne hchild
  · exact hinstruction.elim (fun hne => hne hsession) fun hne => hne hkind

/-- An owner Chat's relay. -/
theorem Anchored.relay [DecidableEq δ] {deps : Deps δ} {runtime : Runtime} {db db' : Db δ}
    {request : InboxRequest} {id : Option String} {agent messageId chat call : String}
    {prompt : PromptInput} (h : Anchored db)
    (hcommand : request.command = .relayAgentFollowup agent messageId chat call prompt true)
    (hsettled : ∀ a, Readopts db (.execute request runtime) a → strandable db a = false)
    (hexecute : executeAuthenticated deps runtime db request = .ok (id, db')) : Anchored db' := by
  obtain ⟨-, ⟨_, -, -, -, rfl⟩ | ⟨hkey, -, session, db₁, hrun, hfree, rfl⟩⟩ :=
    executeAuthenticated_eq_ok hexecute
  · exact h
  suffices hdb₁ : Anchored db₁ from hdb₁.apply (w := .inbox (.receipt request.key _)) hfree trivial
  simp only [executeCommand, hcommand] at hrun
  obtain ⟨-, ⟨-, rfl⟩ | ⟨m, source, hlegal, hsession, hid, -, rfl | ⟨s, rfl, howner, hsame, hadopt⟩⟩⟩ :=
    admitFollowup_eq_ok hrun fun _ _ _ _ _ _ heq => by rw [hcommand] at heq; cases heq; rfl
  · exact h
  · exact h.admission hlegal
  · have hadmitted := h.admission hlegal
    rcases adopt_eq_ok hadopt with rfl | ⟨title, hlink, rfl⟩ | ⟨hheld, hrepoint, rfl⟩
    · exact hadmitted
    · exact hadmitted.apply hlink trivial
    · obtain ⟨m', c, p, hsame⟩ := hsame
      rw [hcommand] at hsame
      cases hsame
      have hnew : db.inbox.sequenceOf? agent messageId = none := by
        rw [← hsession, ← hid]
        exact hlegal.1.1
      have hunlinked := hrepoint
      obtain ⟨⟨⟨link, hlink, hne⟩, -, hnested, hcount⟩, -⟩ := hunlinked
      have hagent := hsettled agent ⟨request, runtime, messageId, s.sessionId, call, prompt, rfl,
        hcommand, hkey, hnew, ⟨link.parentId, Kinship.parent?_eq_some_iff.2 ⟨link, hlink, rfl⟩, hne⟩,
        hnested, hcount, hheld⟩
      exact hadmitted.apply hrepoint (strandable_admission h hlegal howner hagent)

/-- A claim or a transfer. -/
theorem Anchored.reparent [DecidableEq δ] {deps : Deps δ} {db db' : Db δ} {request : ReparentRequest}
    {authenticate : Except ServiceError Unit} (h : Anchored db)
    (hreparent : Nakode.reparent deps db request authenticate = .ok db') : Anchored db' := by
  obtain ⟨change, -, ⟨_, -, rfl⟩ | ⟨-, db₁, row, happly, -, -, -, -, -, -, hlegal, rfl⟩⟩ :=
    reparent_eq_ok hreparent
  · exact h
  refine Anchored.apply ?_ hlegal trivial
  obtain ⟨-, -, hsettled, ⟨-, title, hlink, rfl⟩ | ⟨-, hrepoint, rfl⟩⟩ := applyReparent_eq_ok happly
  · exact h.apply hlink trivial
  · exact h.apply hrepoint (strandable_of_settled h hsettled)

/-- A step that deletes nothing, changes no ownership and adopts no agent that a message rests on. -/
theorem Anchored.step [DecidableEq δ] {deps : Deps δ} {db db' : Db δ} {op : Op} (h : Anchored db)
    (hstep : (coordinating deps).next db op db') : Anchored db' := by
  obtain ⟨⟨howns, hsettled⟩, hstep⟩ := hstep
  rcases next_cases hstep with rfl | ⟨answer, hperform⟩
  · exact h
  cases op with
  | execute request runtime =>
    by_cases hkeeps : (Op.execute request runtime).keepsParents = true
    · exact h.quiet hstep rfl rfl hkeeps
    · simp only [Op.keepsParents] at hkeeps
      split at hkeeps
      · next agent messageId chat call prompt ownerChat hcommand =>
        rw [Bool.not_eq_true', Bool.not_eq_false] at hkeeps
        subst hkeeps
        obtain ⟨⟨id, db₁⟩, hexecute, heq⟩ := of_wrapped hperform
        cases heq
        exact h.relay hcommand hsettled hexecute
      · exact absurd rfl hkeeps
  | reparent request authenticate =>
    obtain ⟨db₁, hreparent, heq⟩ := of_wrapped hperform
    cases heq
    exact h.reparent hreparent
  | createSession clockMs request =>
    obtain ⟨db₁, hcreate, heq⟩ := of_wrapped hperform
    cases heq
    obtain ⟨hid, hprofile⟩ := howns
    obtain ⟨id, d, hregister, hdb⟩ := createSession_eq_ok hcreate
    have hregistered := h.directory (Directory.Keeps.register hid hprofile hregister)
    rcases hdb with rfl | ⟨parent, title, hlegal, rfl⟩
    · exact hregistered
    · exact hregistered.apply hlegal trivial
  | bindProfile session profile =>
    obtain ⟨d, hbind, heq⟩ := of_wrapped hperform
    cases heq
    exact h.directory (Directory.Keeps.bind (.of_eq rfl rfl) (.inl howns) hbind)
  | saveBridge session bridge =>
    obtain ⟨d, hsave, heq⟩ := of_wrapped hperform
    cases heq
    obtain ⟨hs, hp⟩ := saveSessionBridge_eq_ok hsave
    exact h.directory (.of_eq hs hp)
  | renameSession session title =>
    cases hperform
    refine h.directory ⟨⟨fun id row hrow => ?_, fun _ _ hp => hp⟩, fun _ _ => rfl, fun hnamed => ?_⟩
    · refine ⟨_, by simp only [Table.find?_update, hrow, Option.map_some]; rfl, ?_⟩
      split <;> rfl
    · simpa [Directory.exists?] using hnamed
  | recordRun run parent =>
    obtain ⟨db₁, hrecord, heq⟩ := of_wrapped hperform
    cases heq
    simp only [recordRun, bind_eq_ok, pure_eq_ok] at hrecord
    obtain ⟨_, -, rfl⟩ := hrecord
    exact h.directory (.of_eq rfl rfl)
  | deleteGuarded | deleteSession | purgeAll => exact howns.elim
  | admitChildEvents | claim | fenceDispatch | observeAccepted | acknowledge | block | pause
  | dispatch | report | recordQuestion | updateLastTurn | holdDeletion | releaseHold | reopen =>
    exact h.quiet hstep rfl rfl rfl

/-- What rests on a link that is still there may be claimed. -/
theorem Anchored.authorized {db : Db δ} (h : Anchored db) (parent : String) :
    authorizedChildMessages db parent = true := by
  simp only [authorizedChildMessages, Bool.not_eq_true', Table.has_eq_false_iff,
    Bool.and_eq_false_iff, Bool.not_eq_false']
  intro n m hm
  by_cases hsession : m.sessionId = parent
  swap
  · exact .inl (.inl (.inl (.inl (by simpa using hsession))))
  by_cases hremoved : db.inbox.removed n = true
  · exact .inl (.inl (.inl (.inr hremoved)))
  by_cases hundelivered : db.inbox.undelivered m = true
  swap
  · exact .inl (.inl (.inr (by simpa using hundelivered)))
  by_cases hdelivered : ∃ r, db.inbox.deliveries.find? r = some n
  swap
  · refine .inl (.inr fun r k hk => ?_)
    rw [beq_eq_false_iff_ne]
    rintro rfl
    exact hdelivered ⟨r, hk⟩
  · refine .inr ?_
    obtain ⟨r, hr⟩ := hdelivered
    have hunsettled : db.inbox.unsettled n m = true := by
      refine Inbox.unsettled_iff.2 ⟨by simpa using hremoved, fun hconsumed => ?_⟩
      obtain ⟨b, hb, hstate⟩ := Option.map_eq_some_iff.1 hconsumed
      obtain ⟨id, hid, hfind⟩ := Option.bind_eq_some_iff.1 hb
      simp [Inbox.undelivered, hid, hfind, hstate] at hundelivered
    obtain ⟨s, hs, hkind, hlink, howned⟩ := h.evidence n m r hm hunsettled hr
    rw [hsession] at hlink howned
    have hnamed : s.sessionId.isEmpty = false := by
      rw [Bool.eq_false_iff]
      intro hempty
      have hexists := (Directory.exists?_of_sharesOwnership howned).1
      rw [String.isEmpty_iff.1 hempty, h.named] at hexists
      cases hexists
    simp [authorizedEvidence, hs, hkind, hlink, howned, hnamed]

/-- In every state that is reached from the empty database without deletions and changes of
ownership, and without an owner Chat adopting an agent that an unsettled message rests on: what
every inbox holds may be claimed, and every unsettled instruction that no owner Chat gave has the
link from its source to the session. -/
theorem relationships_never_strand [DecidableEq δ] (deps : Deps δ) {db : Db δ} {ops : List Op}
    (hrun : (coordinating deps).Run ∅ ops db) :
    (∀ parent, authorizedChildMessages db parent = true) ∧
    ∀ n m s, db.inbox.messages.find? n = some m → db.inbox.unsettled n m = true →
      db.inbox.sources.find? n = some s → s.kind = .delegatedInstruction → s.ownerChat = false →
      db.kinship.parent? m.sessionId = some s.sessionId := by
  have h : Anchored db := hrun.invariant (fun hstep h => h.step hstep) anchored_empty
  exact ⟨h.authorized, h.instruction⟩

/-- The Chat's instruction to the child. -/
def ownerRelay : Op :=
  .execute ⟨.relayAgentFollowup "agent" "task" "chat" "call" ⟨"Go on", []⟩ true, "relay", "owner",
    false, 0⟩ ⟨.ok, .ok (), 0⟩

/-- Nothing in the setup adopts an agent. -/
theorem reportedChild_coordinates : ∀ op ∈ reportedChild, ∀ db : Db Command,
    op.keepsOwnership db ∧ ∀ agent, Readopts db op agent → strandable db agent = false := by
  intro op hop db
  have hquiet : ∀ agent, ¬ Readopts db op agent := by
    rintro agent ⟨request, runtime, _, _, _, _, rfl, -⟩
    simp [reportedChild] at hop
  refine ⟨?_, fun agent hreadopts => absurd hreadopts (hquiet agent)⟩
  simp only [reportedChild, List.mem_cons, List.not_mem_nil, or_false] at hop
  rcases hop with rfl | rfl | rfl | rfl | rfl | rfl
  all_goals simp [Op.keepsOwnership]

/-- The report of the child may be claimed as long as no Chat adopts it. -/
theorem relationships_never_strand_reportedChild :
    authorizedChildMessages (afterAll .verbatim reportedChild ∅) "parent" = true :=
  (relationships_never_strand .verbatim (restrict_run reportedChild_coordinates)).1 "parent"

/-- The Chat's relay takes the child's link from the report that waits in the parent's inbox, and
the parent can no longer claim anything. -/
theorem relay_strands_evidence :
    ∃ db, ((machine .verbatim).restrict fun db op => op.keepsOwnership db).Run ∅
      (reportedChild ++ [ownerRelay]) db ∧ authorizedChildMessages db "parent" = false := by
  refine ⟨_, restrict_run fun op hop db => ?_, by decide +kernel⟩
  rcases List.mem_append.1 hop with hop | hop
  · exact (reportedChild_coordinates op hop db).1
  · rw [List.mem_singleton.1 hop]
    trivial

end Nakode
