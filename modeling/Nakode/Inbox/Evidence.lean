import Nakode.Inbox.Fifo

/-!
# Evidence is admitted once

A report of a linked child becomes a message of its parent's inbox in the transaction that records
its delivery and its source (`delivered_step`), and never becomes another one
(`evidence_at_most_once`). The delivery goes with its message when the parent is deleted; then the
report is gone too, because it goes with the link to the parent, and its sequence is not given out
again (`Settled`).
-/

namespace Nakode

open Relational Transition Outcome

variable {δ : Type}

theorem childEventMessage_injective : Function.Injective childEventMessage := by
  intro a b h
  have hdigits := congrArg String.toList ((String.append_right_inj _).1 h)
  have hvalues := congrArg (fun digits => Nat.ofDigitChars 10 digits 0) hdigits
  simpa using hvalues

theorem childEventMessage_reserved (report : Nat) :
    Text.startsWith (childEventMessage report) childEventPrefix = true := by
  simp [childEventMessage, Text.startsWith]

/-! ## One write to the inbox -/

namespace Inbox

/-- A message after a write, and the message it was. -/
theorem of_find?_apply {i : Inbox δ} {w : InboxWrite δ} {n : Nat} {m' : Message δ}
    (h : (w.apply i).messages.find? n = some m') :
    (∃ m, i.messages.find? n = some m ∧ m'.sessionId = m.sessionId ∧ m'.messageId = m.messageId) ∨
      (n = i.messages.next ∧ ∃ source report, w = .admission m' source report) := by
  cases w with
  | receipt | setPaused | mark | source => exact .inl ⟨m', h, rfl, rfl⟩
  | admission m source report =>
    simp only [InboxWrite.apply, admission, Sequenced.find?_append] at h
    split at h
    · next hn =>
      cases h
      exact .inr ⟨hn, source, report, rfl⟩
    · exact .inl ⟨m', h, rfl, rfl⟩
  | remove sequence =>
    simp only [InboxWrite.apply] at h
    rw [find?_remove, Option.map_eq_some_iff] at h
    obtain ⟨m, hm, rfl⟩ := h
    exact .inl ⟨m, hm, by split <;> rfl, by split <;> rfl⟩
  | cut session batch cutoff display =>
    simp only [InboxWrite.apply] at h
    rw [find?_cut, Option.map_eq_some_iff] at h
    obtain ⟨m, hm, rfl⟩ := h
    exact .inl ⟨m, hm, by split <;> rfl, by split <;> rfl⟩

/-- A delivery after a write was there, or it is the one that the write records. -/
theorem of_deliveries_apply {i : Inbox δ} {w : InboxWrite δ} {r n : Nat}
    (h : (w.apply i).deliveries.find? r = some n) :
    i.deliveries.find? r = some n ∨
      (n = i.messages.next ∧ ∃ m source, w = .admission m source (some r)) := by
  cases w with
  | admission m source report =>
    cases report with
    | none => exact .inl h
    | some r' =>
      simp only [InboxWrite.apply, admission, Table.find?_insertOrIgnore] at h
      split at h
      · next hr =>
        subst hr
        cases hold : i.deliveries.find? r with
        | none =>
          simp only [hold, Option.getD_none, Option.some.injEq] at h
          exact .inr ⟨h.symm, m, source, rfl⟩
        | some k =>
          simp only [hold, Option.getD_some] at h
          exact .inl h
      · exact .inl h
  | _ => exact .inl h

/-- Deliveries stay. -/
theorem deliveries_apply {i : Inbox δ} (w : InboxWrite δ) {r n : Nat}
    (h : i.deliveries.find? r = some n) : (w.apply i).deliveries.find? r = some n := by
  cases w with
  | admission m source report =>
    cases report with
    | none => exact h
    | some r' =>
      simp only [InboxWrite.apply, admission, Table.find?_insertOrIgnore]
      split
      · next hr => subst hr; simp [h]
      · exact h
  | _ => exact h

/-- Sources stay. -/
theorem sources_apply {i : Inbox δ} (w : InboxWrite δ) {n : Nat} {s : Source}
    (h : i.sources.find? n = some s) : (w.apply i).sources.find? n = some s := by
  have hinsert : ∀ k source, (i.sources.insertOrIgnore k source).find? n = some s := by
    intro k source
    rw [Table.find?_insertOrIgnore]
    split
    · next hn => subst hn; simp [h]
    · exact h
  cases w with
  | admission m source report =>
    cases source with
    | none => exact h
    | some source => exact hinsert _ source
  | source sequence source => exact hinsert sequence source
  | _ => exact h

end Inbox

/-! ## Evidence has its source -/

/-- A delivered message is there under the report's identity and with its source, and no other
message has an identity that the runtime keeps for evidence. -/
structure Sourced (db : Db δ) : Prop where
  delivered : ∀ r n, db.inbox.deliveries.find? r = some n → r < db.reports.rows.next ∧
    ∃ m s, db.inbox.messages.find? n = some m ∧ m.messageId = childEventMessage r ∧
      db.inbox.sources.find? n = some s ∧ s.kind = .durableChildEvidence
  reserved : ∀ n m, db.inbox.messages.find? n = some m →
    Text.startsWith m.messageId childEventPrefix = true → ∃ r, db.inbox.deliveries.find? r = some n

theorem sourced_empty : Sourced (∅ : Db δ) where
  delivered := by intro _ _ h; cases h
  reserved := by intro _ _ h; cases h

/-- What an admission records about its report, read back. -/
theorem find?_admission_report {i : Inbox δ} {m : Message δ} {source : Option Source} {r : Nat}
    (hw : (InboxWrite.admission m source (some r)).Legal i) :
    (i.admission m source (some r)).messages.find? i.messages.next = some m ∧
      (i.admission m source (some r)).deliveries.find? r = some i.messages.next ∧
      ∀ s, source = some s →
        (i.admission m source (some r)).sources.find? i.messages.next = some s := by
  obtain ⟨-, -, hsource, hdelivery⟩ := hw
  refine ⟨by simp [Inbox.admission], by simp [Inbox.admission, (hdelivery r rfl).1], ?_⟩
  rintro s rfl
  simp [Inbox.admission, hsource rfl]

theorem Sourced.inbox {db : Db δ} (h : Sourced db) {w : InboxWrite δ}
    (hw : (Write.inbox w).Legal db) : Sourced ((Write.inbox w).apply db) where
  delivered r n hr := by
    rcases Inbox.of_deliveries_apply hr with hr | ⟨rfl, m, source, rfl⟩
    · obtain ⟨hlt, m, s, hm, hid, hs, hkind⟩ := h.delivered r n hr
      obtain ⟨m', hm', -, hid', -⟩ := (Inbox.follows_apply (Write.inbox_legal hw)).messages n m hm
      exact ⟨hlt, m', s, hm', hid'.trans hid, Inbox.sources_apply w hs, hkind⟩
    · obtain ⟨row, s, hrow, -, -, -, hsource, hkind, -, hid⟩ := hw.2.evidence r rfl
      obtain ⟨hm, -, hs⟩ := find?_admission_report hw.1
      exact ⟨Sequenced.lt_next hrow, m, s, hm, hid, hs s hsource, hkind⟩
  reserved n m' hm' hreserved := by
    rcases Inbox.of_find?_apply hm' with ⟨m, hm, -, hid⟩ | ⟨rfl, source, report, rfl⟩
    · obtain ⟨r, hr⟩ := h.reserved n m hm (hid ▸ hreserved)
      exact ⟨r, Inbox.deliveries_apply w hr⟩
    · cases report with
      | none =>
        rw [hw.2.reserved rfl] at hreserved
        cases hreserved
      | some r => exact ⟨r, (find?_admission_report hw.1).2.1⟩

theorem Sourced.forget {db : Db δ} (h : Sourced db) (session : String) :
    Sourced (db.forget session) where
  delivered r n hr := by
    simp only [Db.forget, Inbox.forget, Table.find?_delete, Option.filter_eq_some_iff] at hr
    obtain ⟨hr, hstays⟩ := hr
    obtain ⟨hlt, m, s, hm, hid, hs, hkind⟩ := h.delivered r n hr
    refine ⟨hlt, m, s, ?_, hid, ?_, hkind⟩
    · simpa [Db.forget, Inbox.forget, hm] using hstays
    · simpa [Db.forget, Inbox.forget, hs, hm] using hstays
  reserved n m hm hreserved := by
    simp only [Db.forget, Inbox.forget, Sequenced.toTable_delete, Table.find?_delete,
      Option.filter_eq_some_iff] at hm
    obtain ⟨hm, hstays⟩ := hm
    obtain ⟨r, hr⟩ := h.reserved n m hm hreserved
    exact ⟨r, by simpa [Db.forget, Inbox.forget, hr, hm] using hstays⟩

/-- A legal write keeps the evidence sourced. -/
theorem Sourced.apply {db : Db δ} (h : Sourced db) {w : Write δ} (hw : w.Legal db) :
    Sourced (w.apply db) := by
  cases w with
  | inbox w => exact h.inbox hw
  | forget session => exact h.forget session
  | purge =>
    refine ⟨fun r n hr => (by cases hr), fun n m hm => ?_⟩
    simp [Write.apply, purgeAll] at hm
  | report row =>
    refine ⟨fun r n hr => ?_, h.reserved⟩
    obtain ⟨hlt, hrest⟩ := h.delivered r n hr
    exact ⟨Nat.lt_succ_of_lt hlt, hrest⟩
  | directory | kin | reportReceipt => exact ⟨h.delivered, h.reserved⟩

/-! ## Evidence stays where it was admitted -/

/-- A delivered report that is still there is of a child of the session that it was delivered to. -/
def Attached (db : Db δ) : Prop :=
  ∀ r n row m, db.inbox.deliveries.find? r = some n → db.reports.rows.find? r = some row →
    db.inbox.messages.find? n = some m → db.kinship.parent? row.childId = some m.sessionId

theorem attached_empty : Attached (∅ : Db δ) := by
  intro _ _ _ _ h
  cases h

/-- A legal write that gives no child another parent keeps the evidence attached. -/
theorem Attached.apply {db : Db δ} (h : Attached db) (hdb : Sourced db) {w : Write δ}
    (hw : w.Legal db) (hrepoint : ∀ child parent, w ≠ .kin (.repoint child parent)) :
    Attached (w.apply db) := by
  intro r n row m hr hrow hm
  cases w with
  | directory | reportReceipt => exact h r n row m hr hrow hm
  | kin w =>
    have hold := h r n row m hr hrow hm
    cases w with
    | link child parent title =>
      have hne : row.childId ≠ child := by
        rintro heq
        rw [heq, Kinship.parent?_eq_none_iff.2 hw.1.1] at hold
        cases hold
      rw [← hold]
      exact (KinWrite.parent?_link hw.1.1 parent title row.childId).trans (if_neg hne)
    | repoint child parent => exact absurd rfl (hrepoint child parent)
    | holds | transition | revise => exact hold
  | report row' =>
    have hne : r ≠ db.reports.rows.next := (hdb.delivered r n hr).1.ne
    refine h r n row m hr ?_ hm
    simpa [Write.apply, Reports.append, hne] using hrow
  | inbox w =>
    rcases Inbox.of_deliveries_apply hr with hr | ⟨rfl, m', source, rfl⟩
    · obtain ⟨-, m₀, -, hm₀, -⟩ := hdb.delivered r n hr
      rcases Inbox.of_find?_apply hm with ⟨m₁, hm₁, hs, -⟩ | ⟨rfl, -⟩
      · rw [hs]
        exact h r n row m₁ hr hrow hm₁
      · exact absurd (Sequenced.lt_next hm₀) (Nat.lt_irrefl _)
    · obtain ⟨row', -, hrow', -, hparent, -⟩ := hw.2.evidence r rfl
      obtain rfl := Option.some.inj (hrow'.symm.trans hrow)
      obtain rfl := Option.some.inj ((find?_admission_report hw.1).1.symm.trans hm)
      exact hparent
  | forget session =>
    simp only [Write.apply, Db.forget, Inbox.forget, Reports.forget, Sequenced.toTable_delete,
      Table.find?_delete, Option.filter_eq_some_iff, Bool.not_eq_true'] at hr hrow hm
    have hold := h r n row m hr.1 hrow.1 hm.1
    obtain ⟨link, hlink, hparent⟩ := Kinship.parent?_eq_some_iff.1 hold
    refine Kinship.parent?_eq_some_iff.2 ⟨link, ?_, hparent⟩
    simp [Write.apply, Db.forget, Kinship.forget, hlink, hrow.2]
  | purge => cases hr

/-- The report is delivered as this message of this session, or both are gone for good. -/
def Settled (r n : Nat) (session : String) (db : Db δ) : Prop :=
  (db.inbox.deliveries.find? r = some n ∧
      ∃ m, db.inbox.messages.find? n = some m ∧ m.sessionId = session) ∨
    (db.inbox.deliveries.find? r = none ∧ db.reports.rows.find? r = none ∧
      r < db.reports.rows.next)

/-- A legal write keeps a report settled; where it deletes a session, the session's evidence is
from its own children. -/
theorem Settled.apply {db : Db δ} {r n : Nat} {session : String} (h : Settled r n session db)
    (hdb : Sourced db) {w : Write δ} (hw : w.Legal db) (hforget : w.deletes = true → Attached db) :
    Settled r n session (w.apply db) := by
  cases w with
  | directory | kin | reportReceipt => exact h
  | report row =>
    refine h.imp_right fun ⟨hdelivery, hgone, hlt⟩ => ⟨hdelivery, ?_, Nat.lt_succ_of_lt hlt⟩
    simpa [Write.apply, Reports.append, hlt.ne] using hgone
  | inbox w =>
    rcases h with ⟨hr, m, hm, hs⟩ | ⟨hdelivery, hgone, hlt⟩
    · obtain ⟨m', hm', hs', -⟩ := (Inbox.follows_apply (Write.inbox_legal hw)).messages n m hm
      exact .inl ⟨Inbox.deliveries_apply w hr, m', hm', hs'.trans hs⟩
    · refine .inr ⟨?_, hgone, hlt⟩
      rw [Option.eq_none_iff_forall_ne_some]
      intro k hk
      rcases Inbox.of_deliveries_apply hk with hold | ⟨-, m, source, rfl⟩
      · rw [hdelivery] at hold
        cases hold
      · -- a report that is not there is not admitted
        obtain ⟨row, -, hrow, -⟩ := hw.2.evidence r rfl
        rw [hgone] at hrow
        cases hrow
  | forget other =>
    rcases h with ⟨hr, m, hm, hs⟩ | ⟨hdelivery, hgone, hlt⟩
    · by_cases hother : session = other
      · have hlt := (hdb.delivered r n hr).1
        subst hother
        refine .inr ⟨by simp [Write.apply, Db.forget, Inbox.forget, hr, hm, hs], ?_, hlt⟩
        cases hrow : db.reports.rows.find? r with
        | none => simp [Write.apply, Db.forget, Reports.forget, hrow]
        | some row =>
          -- the report goes with the link to the deleted session
          have hparent := hforget rfl r n row m hr hrow hm
          obtain ⟨link, hlink, hto⟩ := Kinship.parent?_eq_some_iff.1 hparent
          simp [Write.apply, Db.forget, Reports.forget, hrow, Kinship.severed, hlink, hto, hs]
      · refine .inl ⟨?_, m, ?_, hs⟩
        · simp [Write.apply, Db.forget, Inbox.forget, hr, hm, hs, hother]
        · simp [Write.apply, Db.forget, Inbox.forget, hm, hs, hother]
    · refine .inr ⟨?_, ?_, hlt⟩
      · simp [Write.apply, Db.forget, Inbox.forget, hdelivery]
      · simp [Write.apply, Db.forget, Reports.forget, hgone]
  | purge =>
    have hlt : r < db.reports.rows.next := by
      rcases h with ⟨hr, -⟩ | ⟨-, -, hlt⟩
      · exact (hdb.delivered r n hr).1
      · exact hlt
    refine .inr ⟨rfl, ?_, hlt⟩
    simp [Write.apply, purgeAll]

/-! ## Along the operations -/

/-- The system under the operations that give no child another parent. -/
def keepingParents [DecidableEq δ] (deps : Deps δ) : System (Db δ) Op :=
  (machine deps).restrict fun _ op => op.keepsParents = true

theorem sourced_step [DecidableEq δ] {deps : Deps δ} {db db' : Db δ} {op : Op}
    (h : (machine deps).next db op db') (hdb : Sourced db) : Sourced db' :=
  (machine_writes h).invariant (fun hlegal _ hdb => hdb.apply hlegal) hdb

/-- Operations that give no child another parent keep the evidence attached, and with it every
report settled. -/
theorem attached_step [DecidableEq δ] {deps : Deps δ} {db db' : Db δ} {op : Op}
    (h : (keepingParents deps).next db op db') (hdb : Sourced db ∧ Attached db) :
    (Sourced db' ∧ Attached db') ∧
      ∀ r n session, Settled r n session db → Settled r n session db' := by
  obtain ⟨hkeeps, hstep⟩ := h
  have hrepoint : ∀ {w : Write δ}, op.Issues w → ∀ child parent, w ≠ .kin (.repoint child parent) := by
    rintro w hissues child parent rfl
    simp [Op.Issues, hkeeps] at hissues
  refine (machine_writes hstep).invariant
    (Q := fun db' => (Sourced db' ∧ Attached db') ∧
      ∀ r n session, Settled r n session db → Settled r n session db')
    (fun hlegal hissues h => ?_) ⟨hdb, fun _ _ _ h => h⟩
  obtain ⟨⟨hsourced, hattached⟩, hsettled⟩ := h
  exact ⟨⟨hsourced.apply hlegal, hattached.apply hsourced hlegal (hrepoint hissues)⟩,
    fun r n session hr => (hsettled r n session hr).apply hsourced hlegal fun _ => hattached⟩

/-- Operations that delete no session keep every report settled. -/
theorem settled_step [DecidableEq δ] {deps : Deps δ} {db db' : Db δ} {op : Op}
    (h : (keeping deps).next db op db') (hdb : Sourced db) {r n : Nat} {session : String}
    (hr : Settled r n session db) : Settled r n session db' := by
  refine ((keeping_writes h).invariant (Q := fun db => Sourced db ∧ Settled r n session db)
    (fun hlegal hw h => ⟨h.1.apply hlegal, h.2.apply h.1 hlegal fun hdeletes => ?_⟩) ⟨hdb, hr⟩).2
  rw [hw.2] at hdeletes
  cases hdeletes

/-- A report that has become a message: it is a terminal or attention report, and the message is in
the inbox of the parent that the child has at that moment, with its source. -/
structure Delivered (db db' : Db δ) (r n : Nat) : Prop where
  report : ∃ row m s, db.reports.rows.find? r = some row ∧ row.state.evident = true ∧
    db.kinship.parent? row.childId = some m.sessionId ∧ db'.inbox.messages.find? n = some m ∧
    m.messageId = childEventMessage r ∧ db'.inbox.sources.find? n = some s ∧
    s.kind = .durableChildEvidence ∧ s.sessionId = row.childId
  fresh : db.inbox.messages.find? n = none

/-- One admission of a report that is not delivered yet. -/
theorem delivered_admission {db : Db δ} {m : Message δ} {source : Option Source} {r' r n : Nat}
    (hlegal : (Write.inbox (.admission m source (some r'))).Legal db)
    (hbefore : db.inbox.deliveries.find? r = none)
    (hafter : ((Write.inbox (.admission m source (some r'))).apply db).inbox.deliveries.find? r
      = some n) :
    Delivered db ((Write.inbox (.admission m source (some r'))).apply db) r n := by
  rcases Inbox.of_deliveries_apply hafter with hold | ⟨rfl, m', source', heq⟩
  · rw [hbefore] at hold
    cases hold
  cases heq
  obtain ⟨row, s, hrow, hevident, hparent, -, hsource, hkind, hchild, hid⟩ :=
    hlegal.2.evidence _ rfl
  obtain ⟨hm, -, hs⟩ := find?_admission_report hlegal.1
  exact ⟨⟨row, m, s, hrow, hevident, hparent, hm, hid, hs s hsource, hkind, hchild⟩,
    Sequenced.find?_of_next_le (Nat.le_refl _)⟩

/-- A further admission leaves what was delivered. -/
theorem Delivered.admission {db₀ db : Db δ} {r n : Nat} (h : Delivered db₀ db r n)
    {w : InboxWrite δ} (hw : (Write.inbox w).Legal db) :
    Delivered db₀ ((Write.inbox w).apply db) r n := by
  obtain ⟨⟨row, m, s, hrow, hevident, hparent, hm, hid, hs, hkind, hchild⟩, hfresh⟩ := h
  obtain ⟨m', hm', hs', hid', -⟩ := (Inbox.follows_apply (Write.inbox_legal hw)).messages n m hm
  exact ⟨⟨row, m', s, hrow, hevident, hs' ▸ hparent, hm', hid'.trans hid,
    Inbox.sources_apply w hs, hkind, hchild⟩, hfresh⟩

/-- What a page of admissions delivers rests on the reports and the relationships it starts from. -/
theorem delivered_writes {db db' : Db δ} {n : Nat}
    (h : Writes (fun w => ∃ m source report, w = .inbox (.admission m source (some report))) n
      db db') {r k : Nat} (hbefore : db.inbox.deliveries.find? r = none)
    (hafter : db'.inbox.deliveries.find? r = some k) : Delivered db db' r k := by
  have hpage : (db'.kinship = db.kinship ∧ db'.reports = db.reports ∧
      db.inbox.messages.next ≤ db'.inbox.messages.next) ∧
      ∀ r k, db.inbox.deliveries.find? r = none → db'.inbox.deliveries.find? r = some k →
        Delivered db db' r k := by
    refine h.invariant (Q := fun db' => (db'.kinship = db.kinship ∧ db'.reports = db.reports ∧
      db.inbox.messages.next ≤ db'.inbox.messages.next) ∧
      ∀ r k, db.inbox.deliveries.find? r = none → db'.inbox.deliveries.find? r = some k →
        Delivered db db' r k) (fun {db₁ w} hlegal hw hq => ?_) ⟨⟨rfl, rfl, Nat.le_refl _⟩, ?_⟩
    · obtain ⟨m, source, report, rfl⟩ := hw
      obtain ⟨⟨hkinship, hreports, hnext⟩, hdelivered⟩ := hq
      refine ⟨⟨hkinship, hreports, Nat.le_succ_of_le hnext⟩, fun r k hnone hsome => ?_⟩
      cases hold : db₁.inbox.deliveries.find? r with
      | some k' =>
        obtain rfl := Option.some.inj ((Inbox.deliveries_apply _ hold).symm.trans hsome)
        exact (hdelivered r k' hnone hold).admission hlegal
      | none =>
        obtain ⟨hreport, hfresh⟩ := delivered_admission hlegal hold hsome
        rw [hkinship, hreports] at hreport
        refine ⟨hreport, Sequenced.find?_of_next_le ?_⟩
        rcases Inbox.of_deliveries_apply hsome with h | ⟨rfl, -⟩
        · rw [hold] at h
          cases h
        · exact hnext
    · intro r k hnone hsome
      rw [hnone] at hsome
      cases hsome
  exact hpage.2 r k hbefore hafter

/-- Other writes deliver no report. -/
theorem Write.deliveries_apply {db : Db δ} {w : Write δ} {r : Nat}
    (hw : ∀ m source, w ≠ .inbox (.admission m source (some r)))
    (hnone : db.inbox.deliveries.find? r = none) :
    (w.apply db).inbox.deliveries.find? r = none := by
  rw [Option.eq_none_iff_forall_ne_some]
  intro n hn
  cases w with
  | inbox w =>
    rcases Inbox.of_deliveries_apply hn with hold | ⟨-, m, source, rfl⟩
    · rw [hnone] at hold
      cases hold
    · exact hw m source rfl
  | forget session => simp [Write.apply, Db.forget, Inbox.forget, hnone] at hn
  | purge => cases hn
  | directory | kin | report | reportReceipt =>
    cases hnone.symm.trans hn

/-- A report becomes a message in a step that admits child events. -/
theorem delivered_step [DecidableEq δ] {deps : Deps δ} {op : Op} {db db' : Db δ}
    (h : (machine deps).next db op db') {r n : Nat} (hbefore : db.inbox.deliveries.find? r = none)
    (hafter : db'.inbox.deliveries.find? r = some n) : Delivered db db' r n := by
  by_cases hop : op = .admitChildEvents
  · subst hop
    rcases next_cases h with rfl | ⟨answer, hperform⟩
    · rw [hbefore] at hafter
      cases hafter
    · obtain ⟨⟨any, db₁⟩, hpage, heq⟩ := of_wrapped hperform
      cases heq
      exact delivered_writes (admitEach_writes (fun m source report => ⟨m, source, report, rfl⟩)
        (fun _ he => holds_of_mem_childEvents he) hpage) hbefore hafter
  · have hnone := (machine_writes h).invariant
      (Q := fun db => db.inbox.deliveries.find? r = none)
      (fun _ hissues hnone => Write.deliveries_apply
        (fun m source heq => hop (by subst heq; exact hissues)) hnone) hbefore
    rw [hnone] at hafter
    cases hafter

/-- Reports become messages once. Along every run that gives no linked child another parent, and
along every run that deletes no session:

* two messages with the identity of one report's message, in whatever states of the run, are one
  message, in one inbox;
* a step that delivers a report admits the message, with its source, to the inbox of the parent
  that the report's child has at that moment, and the report is a terminal or attention one;
* a delivered message is there with its source, and every message under an identity that the
  runtime keeps for evidence is a delivered one. -/
theorem evidence_at_most_once [DecidableEq δ] {deps : Deps δ} {T : System (Db δ) Op}
    (hT : T = keepingParents deps ∨ T = keeping deps) {db₁ db₂ : Db δ} {ops later : List Op}
    (hrun : T.Run ∅ ops db₁) (hlater : T.Run db₁ later db₂) :
    (∀ r n₁ m₁ n₂ m₂, db₁.inbox.messages.find? n₁ = some m₁ → m₁.messageId = childEventMessage r →
      db₂.inbox.messages.find? n₂ = some m₂ → m₂.messageId = childEventMessage r →
      n₂ = n₁ ∧ m₂.sessionId = m₁.sessionId) ∧
    (∀ op db₃, T.next db₂ op db₃ → ∀ r n, db₂.inbox.deliveries.find? r = none →
      db₃.inbox.deliveries.find? r = some n → Delivered db₂ db₃ r n) ∧
    Sourced db₂ := by
  have hmachine : ∀ {db op db'}, T.next db op db' → (machine deps).next db op db' := by
    intro db op db' h
    rcases hT with rfl | rfl <;> exact h.2
  have hsourced₁ : Sourced db₁ :=
    hrun.invariant (fun hstep h => sourced_step (hmachine hstep) h) sourced_empty
  have hsourced₂ : Sourced db₂ :=
    hlater.invariant (fun hstep h => sourced_step (hmachine hstep) h) hsourced₁
  have hsettled : ∀ {r n session}, Settled r n session db₁ → Settled r n session db₂ := by
    intro r n session hr
    rcases hT with rfl | rfl
    · have hattached₁ : Sourced db₁ ∧ Attached db₁ := hrun.invariant
        (fun hstep h => (attached_step hstep h).1) ⟨sourced_empty, attached_empty⟩
      exact (hlater.invariant
        (Q := fun db => (Sourced db ∧ Attached db) ∧ Settled r n session db)
        (fun hstep h => ⟨(attached_step hstep h.1).1, (attached_step hstep h.1).2 r n session h.2⟩)
        ⟨hattached₁, hr⟩).2
    · exact (hlater.invariant (Q := fun db => Sourced db ∧ Settled r n session db)
        (fun hstep h => ⟨sourced_step hstep.2 h.1, settled_step hstep h.1 h.2⟩)
        ⟨hsourced₁, hr⟩).2
  have hnamed : ∀ {db : Db δ}, Sourced db → ∀ {r n m}, db.inbox.messages.find? n = some m →
      m.messageId = childEventMessage r → db.inbox.deliveries.find? r = some n := by
    intro db hdb r n m hm hid
    obtain ⟨r', hr'⟩ := hdb.reserved n m hm (hid ▸ childEventMessage_reserved r)
    obtain ⟨-, m', s, hm', hid', -⟩ := hdb.delivered r' n hr'
    obtain rfl := Option.some.inj (hm.symm.trans hm')
    rw [childEventMessage_injective (hid.symm.trans hid')]
    exact hr'
  refine ⟨?_, fun op db₃ hstep r n hbefore hafter =>
    delivered_step (hmachine hstep) hbefore hafter, hsourced₂⟩
  intro r n₁ m₁ n₂ m₂ hm₁ hid₁ hm₂ hid₂
  have hr₂ := hnamed hsourced₂ hm₂ hid₂
  rcases hsettled (.inl ⟨hnamed hsourced₁ hm₁ hid₁, m₁, hm₁, rfl⟩) with
    ⟨hr, m, hm, hs⟩ | ⟨hnone, -⟩
  · obtain rfl := Option.some.inj (hr.symm.trans hr₂)
    obtain rfl := Option.some.inj (hm.symm.trans hm₂)
    exact ⟨rfl, hs⟩
  · rw [hnone] at hr₂
    cases hr₂

/-- The first operations of a run in which a report reaches its parent. -/
def linkedChild : List Op :=
  [.createSession 0 ⟨"parent", "codex", "a", "/work", "Parent", none, none, none⟩,
    .createSession 0 ⟨"agent", "codex", "b", "/work", "Agent", none, none, some "parent"⟩,
    .report ⟨.publishChildReport "agent" "result" "completed" "Done", "report", false, none, 0, 0⟩]

/-- The child's first report becomes one message. -/
theorem evidence_at_most_once_linkedChild :
    ∃ n, Delivered (afterAll .verbatim linkedChild ∅)
      (after .verbatim .admitChildEvents (afterAll .verbatim linkedChild ∅)) 1 n := by
  have hafter : ((after .verbatim .admitChildEvents (afterAll .verbatim linkedChild ∅)).inbox
      |>.deliveries.find? 1) = some 1 := by
    decide +kernel
  exact ⟨1, (evidence_at_most_once (.inr rfl) (keeping_run (by decide)) (.nil _)).2.1
    .admitChildEvents _ ⟨rfl, rfl⟩ 1 1 (by decide +kernel) hafter⟩

end Nakode
