import Nakode.Inbox.Bounds
import Nakode.Kinship.Forest

/-!
# Draining child evidence

Evidence about a report of bounded size is never refused (`validatePrompt_evidence`), so the first
report of each parent on a page is admitted: the thresholds that select the page leave its parent
room for it. A call that succeeds therefore makes progress whenever anything is selected, and calls
that go on until one answers no leave only reports whose parents are full
(`evidence_admission_drains`).
-/

namespace Nakode

open Relational Transition Outcome

variable {δ : Type}

/-! ## Evidence is valid -/

theorem trim_isEmpty_eq_false {s : String} {c : Char} (hc : c ∈ s.toList)
    (hspace : Text.isWhitespace c = false) : (Text.trim s).isEmpty = false := by
  have hkept : ∀ {cs : List Char}, c ∈ cs → c ∈ cs.dropWhile Text.isWhitespace := by
    intro cs hmem
    rw [← List.takeWhile_append_dropWhile (p := Text.isWhitespace) (l := cs)] at hmem
    rcases List.mem_append.1 hmem with hmem | hmem
    · rw [List.mem_takeWhile_imp hmem] at hspace
      cases hspace
    · exact hmem
  have hmem : c ∈ (Text.trim s).toList := by
    rw [Text.trim, String.toList_ofList]
    exact List.mem_reverse.2 (hkept (List.mem_reverse.2 (hkept hc)))
  rw [String.isEmpty_eq_false_iff]
  intro hempty
  rw [hempty] at hmem
  cases hmem

/-- The sizes of an identity of at most 200 bytes, printed and printed again. -/
theorem identity_sizes {s : String} (h : Text.len s ≤ 200) :
    Text.len (Text.quote s) ≤ 1202 ∧ Text.escapedLen (Text.quote s) ≤ 1404 := by
  have hlen := Text.len_quote_le s
  have htwice := Text.escapedLen_quote_le s
  omega

theorem ReportState.text_sizes (state : ReportState) :
    Text.len (Text.quote state.text) ≤ 16 ∧ Text.escapedLen (Text.quote state.text) ≤ 16 := by
  cases state <;> decide +kernel

/-- Evidence about a report of at most 16 KiB between sessions with identities of at most 200 bytes
fits the inbox, also once it is escaped. -/
theorem evidencePrompt_sizes {parent child report body : String} {state : ReportState}
    (hparent : Text.len parent ≤ 200) (hchild : Text.len child ≤ 200)
    (hreport : Text.len report ≤ 200) (hbody : Text.len body ≤ 16 * 1024) :
    Text.len (evidencePrompt parent child report state.text body).text ≤ maxTextBytes ∧
    Text.len (Text.quote (evidencePrompt parent child report state.text body).text)
      ≤ 96 * 1024 := by
  have hp := identity_sizes hparent
  have hc := identity_sizes hchild
  have hr := identity_sizes hreport
  have hs := state.text_sizes
  have hkeys : (Text.len (Text.quote "body") = 6 ∧ Text.escapedLen (Text.quote "body") = 8) ∧
      (Text.len (Text.quote "body_retained_in_report_history") = 33 ∧
        Text.escapedLen (Text.quote "body_retained_in_report_history") = 35) ∧
      (Text.len (Text.quote "child_session_id") = 18 ∧
        Text.escapedLen (Text.quote "child_session_id") = 20) ∧
      (Text.len (Text.quote "parent_session_id") = 19 ∧
        Text.escapedLen (Text.quote "parent_session_id") = 21) ∧
      (Text.len (Text.quote "report_id") = 11 ∧ Text.escapedLen (Text.quote "report_id") = 13) ∧
      (Text.len (Text.quote "state") = 7 ∧ Text.escapedLen (Text.quote "state") = 9) := by
    decide +kernel
  have hmarks : (Text.len ":" = 1 ∧ Text.escapedLen ":" = 1) ∧
      (Text.len "," = 1 ∧ Text.escapedLen "," = 1) ∧
      (Text.len "\x7b" = 1 ∧ Text.escapedLen "\x7b" = 1) ∧
      (Text.len "\x7d" = 1 ∧ Text.escapedLen "\x7d" = 1) ∧
      (Text.len "null" = 4 ∧ Text.escapedLen "null" = 4) ∧
      (Text.len "true" = 4 ∧ Text.escapedLen "true" = 4) := by
    decide +kernel
  have hb := Text.escapedLen_quote_le body
  unfold evidencePrompt
  extract_lets text
  split
  · -- the body stays behind, and only identities are printed
    rw [Text.len_quote]
    simp only [Text.Json.render, Text.Json.renderFields, Text.len_append, Text.escapedLen_append,
      if_true, hkeys, hmarks, maxTextBytes]
    omega
  · next hfits =>
    have hlen : Text.len (Text.quote body) ≤ Text.len text := by
      simp only [text, Text.Json.render, Text.Json.renderFields, Text.len_append]
      omega
    show Text.len text ≤ maxTextBytes ∧ Text.len (Text.quote text) ≤ 96 * 1024
    refine ⟨Nat.le_of_not_lt hfits, ?_⟩
    rw [Text.len_quote]
    unfold maxTextBytes at hfits
    have hescaped : Text.escapedLen text ≤ Text.escapedLen (Text.quote body) + 4500 := by
      simp only [text, Text.Json.render, Text.Json.renderFields, Text.escapedLen_append, hkeys,
        hmarks]
      omega
    omega

/-- Such evidence is never refused as a prompt. -/
theorem validatePrompt_evidence (deps : Deps δ) {parent child report body : String}
    {state : ReportState} (hparent : Text.len parent ≤ 200) (hchild : Text.len child ≤ 200)
    (hreport : Text.len report ≤ 200) (hbody : Text.len body ≤ 16 * 1024) :
    ∃ bytes, bytes ≤ maxTextBytes ∧
      validatePrompt deps (evidencePrompt parent child report state.text body) = .ok bytes := by
  obtain ⟨htext, hquote⟩ := @evidencePrompt_sizes _ _ _ _ state hparent hchild hreport hbody
  have hattachments :
      (evidencePrompt parent child report state.text body).attachments = [] := by
    unfold evidencePrompt
    extract_lets text
    split <;> rfl
  have hbrace : '\x7b' ∈ (evidencePrompt parent child report state.text body).text.toList := by
    unfold evidencePrompt
    extract_lets text
    split <;> simp [text, Text.Json.render]
  have hcontent := trim_isEmpty_eq_false hbrace (by decide)
  refine ⟨_, htext, ?_⟩
  simp only [validatePrompt, hattachments, validateAttachments, bind_eq_ok, ensure_eq_ok,
    pure_eq_ok, hcontent, Bool.false_and, Bool.or_false, Bool.not_eq_true', decide_eq_false_iff_not,
    Nat.not_lt, decide_eq_true_eq]
  exact ⟨(), htext, (), hquote, (), Nat.zero_le _, _, rfl, (), by omega, rfl⟩

/-! ## One report -/

/-- The parent has room for evidence: below the thresholds that select a page. -/
def Inbox.Room (i : Inbox δ) (parent : String) : Prop :=
  i.load parent < 256 ∧ i.loadBytes parent ≤ maxPendingBytes - maxTextBytes

theorem Inbox.Room.of_admission {i : Inbox δ} {m : Message δ} {source : Option Source}
    {report : Option Nat} {parent : String} (h : i.Room parent) (hm : m.sessionId ≠ parent) :
    (i.admission m source report).Room parent := by
  have hb : (m.sessionId == parent) = false := by simpa using hm
  have hload : (i.admission m source report).load parent = i.load parent := by
    simp only [load, Table.count, admission, Sequenced.rows_append, List.countP_append,
      List.countP_singleton, hb, Bool.false_and]
    rfl
  have hbytes : (i.admission m source report).loadBytes parent = i.loadBytes parent := by
    simp only [loadBytes, admission, Sequenced.rows_append, List.filter_append, List.filter_singleton,
      hb, Bool.false_and]
    simp
    rfl
  exact ⟨hload ▸ h.1, hbytes ▸ h.2⟩

/-- The sizes that the stores keep the reports and links of children within. -/
structure Db.Sized (db : Db δ) : Prop where
  body : ∀ n r, db.reports.rows.find? n = some r → Text.len r.body ≤ 16 * 1024
  report : ∀ n r, db.reports.rows.find? n = some r →
    Text.len r.reportId ≤ 200 ∧ Text.len r.childId ≤ 200
  parent : ∀ child link, db.kinship.links.find? child = some link → Text.len link.parentId ≤ 200

theorem Db.Sized.of_admission {db : Db δ} (h : db.Sized) (m : Message δ) (source : Option Source)
    (report : Option Nat) : Db.Sized ((Write.inbox (.admission m source report)).apply db) :=
  ⟨h.body, h.report, h.parent⟩

/-- A report whose parent has room is admitted. -/
theorem admitChildEvent_of_room {deps : Deps δ} {db db' : Db δ} {event : ChildEvent} {now : Bool}
    (hsized : db.Sized) (hholds : event.Holds db) (hroom : db.inbox.Room event.parent)
    (h : admitChildEvent deps db event = .ok (now, db')) : now = true := by
  obtain ⟨link, hlink, hparent⟩ := Kinship.parent?_eq_some_iff.1 hholds.linked
  obtain ⟨hreport, hchild⟩ := hsized.report _ _ hholds.report
  obtain ⟨bytes, hbytes, hvalid⟩ := @validatePrompt_evidence _ deps _ _ _ _ event.report.state
    (hparent ▸ hsized.parent _ _ hlink) hchild hreport (hsized.body _ _ hholds.report)
  have hload := hroom.1
  have hloadBytes := hroom.2
  unfold admitChildEvent at h
  extract_lets message prompt at h
  split at h
  · next error herror =>
    -- the room leaves only the identity to fail, and that is no conflict
    simp only [admitMessage, bind_eq_error, prompt, hvalid, ensure_eq_error, pure_eq_error] at herror
    rcases herror with herror | ⟨b, hb, herror⟩
    · cases herror
    cases hb
    rcases herror with ⟨hfull, -⟩ | ⟨_, -, ⟨-, rfl⟩ | ⟨_, -, herror⟩⟩
    · simp only [Bool.not_eq_false', Bool.or_eq_true, decide_eq_true_eq] at hfull
      unfold maxPendingBytes maxTextBytes at *
      omega
    · simp [failure] at h
    · exact herror.elim
  · simp only [bind_eq_ok, pure_eq_ok] at h
    obtain ⟨_, -, _, -, h⟩ := h
    exact (Prod.mk.inj h).1.symm

/-! ## A page -/

/-- What is known of the rest of a page while it is admitted: its reports hold, and a parent that
none of the reports before belonged to has the room it was selected with. -/
structure OnPage (done : List ChildEvent) (rest : List ChildEvent) (db : Db δ) : Prop where
  sized : db.Sized
  holds : ∀ event ∈ rest, event.Holds db
  room : ∀ event ∈ rest, (∀ e ∈ done, e.parent ≠ event.parent) → db.inbox.Room event.parent

theorem onPage_childEvents {db : Db δ} (hsized : db.Sized) : OnPage [] (childEvents db) db := by
  refine ⟨hsized, fun event hevent => holds_of_mem_childEvents hevent, fun event hevent _ => ?_⟩
  obtain ⟨⟨sequence, report⟩, -, h⟩ := List.mem_filterMap.1 (List.mem_of_mem_take hevent)
  dsimp only at h
  split at h
  · next link hlink =>
    split at h
    · next hadmissible =>
      cases h
      simp only [admissible, Bool.and_eq_true, decide_eq_true_eq] at hadmissible
      obtain ⟨⟨⟨⟨⟨-, -⟩, hload⟩, hbytes⟩, -⟩, -⟩ := hadmissible
      exact ⟨hload, hbytes⟩
    · cases h
  · cases h

/-- The report of an event is delivered by a message in the inbox of its parent. -/
def ChildEvent.Delivered (event : ChildEvent) (db : Db δ) : Prop :=
  ∃ n m, db.inbox.deliveries.find? event.sequence = some n ∧ db.inbox.messages.find? n = some m ∧
    m.sessionId = event.parent ∧ m.messageId = childEventMessage event.sequence

/-- What was delivered stays so. -/
structure Keeps (db db' : Db δ) : Prop where
  reports : db'.reports = db.reports
  delivered : ∀ e : ChildEvent, e.Delivered db → e.Delivered db'
  deliveries : ∀ report, (db'.inbox.deliveries.find? report).isNone = true →
    (db.inbox.deliveries.find? report).isNone = true

theorem Keeps.refl (db : Db δ) : Keeps db db := ⟨rfl, fun _ h => h, fun _ h => h⟩

theorem Keeps.trans {db db' db'' : Db δ} (h : Keeps db db') (h' : Keeps db' db'') : Keeps db db'' :=
  ⟨h'.reports.trans h.reports, fun e he => h'.delivered e (h.delivered e he),
    fun report hreport => h.deliveries report (h'.deliveries report hreport)⟩

/-- One report of a page: it is admitted if its parent has had none on the page, and what is admitted
is delivered. -/
theorem OnPage.step {deps : Deps δ} {done rest : List ChildEvent} {db db' : Db δ}
    {event : ChildEvent} {now : Bool} (h : OnPage done (event :: rest) db)
    (hadmits : admitChildEvent deps db event = .ok (now, db')) :
    OnPage (done ++ [event]) rest db' ∧ Keeps db db' ∧
      ((∀ e ∈ done, e.parent ≠ event.parent) → now = true) ∧
      (now = true → event.Delivered db') := by
  have hholds := h.holds event List.mem_cons_self
  have hfirst := fun hfirst => admitChildEvent_of_room h.sized hholds
    (h.room event List.mem_cons_self hfirst) hadmits
  rcases admitChildEvent_eq_ok hholds hadmits with ⟨rfl, rfl⟩ | ⟨rfl, m, source, hlegal, hm, rfl⟩
  · refine ⟨⟨h.sized, fun e he => h.holds e (List.mem_cons_of_mem _ he), fun e he hdone => ?_⟩,
      .refl _, hfirst, fun hnow => absurd hnow (by simp)⟩
    exact h.room e (List.mem_cons_of_mem _ he) fun d hd => hdone d (List.mem_append_left _ hd)
  · obtain ⟨⟨-, -, -, hdeliveries⟩, hgrounded⟩ := hlegal
    obtain ⟨hfree, -⟩ := hdeliveries _ rfl
    obtain ⟨-, -, -, -, -, -, -, -, -, hid⟩ := hgrounded.evidence _ rfl
    have hfind : ∀ report, (db.inbox.admission m source (some event.sequence)).deliveries.find?
        report = if report = event.sequence then some db.inbox.messages.next
          else db.inbox.deliveries.find? report := by
      intro report
      simp [Inbox.admission, hfree]
    have hmessage : ∀ n, (db.inbox.admission m source (some event.sequence)).messages.find? n
        = if n = db.inbox.messages.next then some m else db.inbox.messages.find? n :=
      fun n => Sequenced.find?_append _ _ _
    refine ⟨⟨h.sized.of_admission m source _, fun e he => ?_, fun e he hdone => ?_⟩,
      ⟨rfl, fun e hdelivered => ?_, fun report hreport => ?_⟩, hfirst, fun _ => ?_⟩
    · obtain ⟨hreport, hevident, hlinked, howned⟩ := h.holds e (List.mem_cons_of_mem _ he)
      exact ⟨hreport, hevident, hlinked, howned⟩
    · have hne := hdone event (List.mem_append_right _ List.mem_cons_self)
      exact (h.room e (List.mem_cons_of_mem _ he) fun d hd =>
        hdone d (List.mem_append_left _ hd)).of_admission (hm ▸ hne)
    · obtain ⟨n, m', hn, hm', hs, hi⟩ := hdelivered
      have hother : e.sequence ≠ event.sequence := by
        intro heq
        rw [heq, hfree] at hn
        cases hn
      have hold : n ≠ db.inbox.messages.next := Nat.ne_of_lt (Sequenced.lt_next hm')
      exact ⟨n, m', (hfind _).trans ((if_neg hother).trans hn),
        (hmessage _).trans ((if_neg hold).trans hm'), hs, hi⟩
    · have hnone : (db.inbox.admission m source (some event.sequence)).deliveries.find? report
          = none := Option.isNone_iff_eq_none.1 hreport
      rw [hfind] at hnone
      split at hnone
      · cases hnone
      · exact Option.isNone_iff_eq_none.2 hnone
    · exact ⟨db.inbox.messages.next, m, (hfind _).trans (if_pos rfl), (hmessage _).trans (if_pos rfl),
        hm, hid⟩

/-- The rest of a page. -/
theorem OnPage.admitEach {deps : Deps δ} {done rest : List ChildEvent} {db db' : Db δ}
    {now now' : Bool} (h : OnPage done rest db)
    (hadmits : admitEach deps rest now db = .ok (now', db')) :
    (db'.Sized ∧ Keeps db db') ∧
      (∀ before event after, rest = before ++ event :: after →
        (∀ e ∈ done ++ before, e.parent ≠ event.parent) → event.Delivered db' ∧ now' = true) ∧
      (now = true → now' = true) ∧ (rest = [] → now' = now ∧ db' = db) := by
  induction rest generalizing done db now with
  | nil =>
    obtain ⟨rfl, rfl⟩ := Prod.mk.inj (Except.ok.inj hadmits)
    exact ⟨⟨h.sized, .refl _⟩, fun before event after hsplit => by simp at hsplit, id,
      fun _ => ⟨rfl, rfl⟩⟩
  | cons event rest ih =>
    simp only [Nakode.admitEach, bind_eq_ok] at hadmits
    obtain ⟨⟨first, db₁⟩, hevent, hadmits⟩ := hadmits
    obtain ⟨hpage, hkept, hfirst, hnow⟩ := h.step hevent
    obtain ⟨⟨hsized, hkept'⟩, hrest, hstays, -⟩ := ih hpage hadmits
    refine ⟨⟨hsized, hkept.trans hkept'⟩, fun before e after hsplit hdone => ?_,
      fun htrue => hstays (by rw [htrue, Bool.true_or]),
      fun hnil => absurd hnil (List.cons_ne_nil _ _)⟩
    cases before with
    | nil =>
      obtain ⟨rfl, rfl⟩ := List.cons.inj hsplit
      have htrue := hfirst fun d hd => hdone d (List.mem_append_left _ hd)
      exact ⟨hkept'.delivered _ (hnow htrue), hstays (by rw [htrue, Bool.or_true])⟩
    | cons b before =>
      obtain ⟨rfl, rfl⟩ := List.cons.inj hsplit
      refine hrest before e after rfl fun d hd => hdone d ?_
      simpa using hd

/-! ## Whole calls -/

/-- The reports that no message delivers. -/
def Db.undelivered (db : Db δ) : Nat :=
  db.reports.rows.count fun sequence _ => (db.inbox.deliveries.find? sequence).isNone

/-- A count drops when an element stops to meet the condition and none starts to. -/
theorem countP_lt_countP {α : Type} {p q : α → Bool} {l : List α} {a : α} (hmem : a ∈ l)
    (hp : p a = true) (hq : q a = false) (hle : ∀ b ∈ l, q b = true → p b = true) :
    l.countP q < l.countP p := by
  obtain ⟨s, t, rfl⟩ := List.append_of_mem hmem
  have hs := List.countP_mono_left (l := s) fun b hb =>
    hle b (List.mem_append_left _ hb)
  have ht := List.countP_mono_left (l := t) fun b hb =>
    hle b (List.mem_append_right _ (List.mem_cons_of_mem _ hb))
  rw [List.countP_append, List.countP_append, List.countP_cons_of_pos hp,
    List.countP_cons_of_neg (by simp [hq])]
  omega

/-- A report that would be selected if its parent had room. -/
structure Waits (db : Db δ) (sequence : Nat) (report : Report) (link : Link) : Prop where
  reported : db.reports.rows.find? sequence = some report
  linked : db.kinship.links.find? report.childId = some link
  evident : report.state.evident = true
  undelivered : db.inbox.deliveries.find? sequence = none
  opened : db.directory.closed link.parentId = false
  owned : db.directory.sharesOwnership report.childId link.parentId = true

/-- A page is empty exactly when every report that waits has a full parent. -/
theorem childEvents_eq_nil_iff {db : Db δ} :
    childEvents db = [] ↔
      ∀ sequence report link, Waits db sequence report link → ¬db.inbox.Room link.parentId := by
  have hiff : ∀ sequence report link, admissible db sequence report link = true ↔
      report.state.evident = true ∧ db.inbox.deliveries.find? sequence = none ∧
        db.inbox.Room link.parentId ∧ db.directory.closed link.parentId = false ∧
        db.directory.sharesOwnership report.childId link.parentId = true := by
    intro sequence report link
    simp [admissible, Inbox.Room, and_assoc]
  simp only [childEvents, List.take_eq_nil_iff, List.filterMap_eq_nil_iff, Nat.reduceEqDiff,
    false_or]
  constructor
  · intro h sequence report link hwaits hroom
    have := h (sequence, report) (Table.mem_rows_iff.2 hwaits.reported)
    simp only [hwaits.linked] at this
    rw [if_pos ((hiff _ _ _).2 ⟨hwaits.evident, hwaits.undelivered, hroom, hwaits.opened,
      hwaits.owned⟩)] at this
    cases this
  · intro h row hrow
    split
    · next link hlink =>
      rw [if_neg]
      intro hadmissible
      obtain ⟨hevident, hundelivered, hroom, hopened, howned⟩ := (hiff _ _ _).1 hadmissible
      exact h row.1 row.2 link ⟨Table.mem_rows_iff.1 hrow, hlink, hevident, hundelivered, hopened,
        howned⟩ hroom
    · rfl

/-- What one call does that succeeds. -/
theorem admitChildEvents_eq_ok {deps : Deps δ} {db db' : Db δ} {any : Bool} (hsized : db.Sized)
    (h : admitChildEvents deps db = .ok (any, db')) :
    (db'.Sized ∧ Keeps db db') ∧
      (∀ before event after, childEvents db = before ++ event :: after →
        (∀ e ∈ before, e.parent ≠ event.parent) → event.Delivered db') ∧
      (any = true ↔ childEvents db ≠ []) ∧ (any = false → db' = db) := by
  obtain ⟨hframe, hfirst, -, hnil⟩ := (onPage_childEvents hsized).admitEach h
  have hany : childEvents db ≠ [] → any = true := by
    intro hne
    obtain ⟨event, rest, hpage⟩ := List.exists_cons_of_ne_nil hne
    exact (hfirst [] event rest hpage (by simp)).2
  refine ⟨hframe, fun before event after hsplit hbefore =>
    (hfirst before event after hsplit (by simpa using hbefore)).1, ⟨fun htrue hempty => ?_, hany⟩, fun hfalse => ?_⟩
  · rw [(hnil hempty).1] at htrue
    cases htrue
  · by_cases hempty : childEvents db = []
    · exact (hnil hempty).2
    · rw [hany hempty] at hfalse
      cases hfalse

/-- Calls one after another that each admit something. -/
inductive Admissions (deps : Deps δ) : Nat → Db δ → Db δ → Prop
  | none (db : Db δ) : Admissions deps 0 db db
  | more {n : Nat} {db db' later : Db δ} : admitChildEvents deps db = .ok (true, db') →
    Admissions deps n db' later → Admissions deps (n + 1) db later

/-- Calls that each admit something are as many as there were reports to deliver. -/
theorem Admissions.count_le {deps : Deps δ} {n : Nat} {db later : Db δ}
    (h : Admissions deps n db later) (hsized : db.Sized) :
    later.Sized ∧ n + later.undelivered ≤ db.undelivered := by
  induction h with
  | none => exact ⟨hsized, by omega⟩
  | @more n db db' later hcall hrest ih =>
    obtain ⟨⟨hsized', hkept⟩, hfirst, hany, -⟩ := admitChildEvents_eq_ok hsized hcall
    obtain ⟨hsized'', hcount⟩ := ih hsized'
    refine ⟨hsized'', ?_⟩
    obtain ⟨event, rest, hpage⟩ := List.exists_cons_of_ne_nil (hany.1 rfl)
    have hmem : event ∈ childEvents db := hpage ▸ List.mem_cons_self
    have hholds := holds_of_mem_childEvents hmem
    obtain ⟨_, _, hdelivered, -⟩ := hfirst [] event rest hpage (by simp)
    have hwaited : (db.inbox.deliveries.find? event.sequence).isNone = true := by
      obtain ⟨⟨sequence, report⟩, -, hselected⟩ :=
        List.mem_filterMap.1 (List.mem_of_mem_take hmem)
      dsimp only at hselected
      split at hselected
      · split at hselected
        · next hadmissible =>
          cases hselected
          simp only [admissible, Bool.and_eq_true] at hadmissible
          exact hadmissible.1.1.1.1.2
        · cases hselected
      · cases hselected
    have hlt : db'.undelivered < db.undelivered := by
      unfold Db.undelivered Table.count
      rw [hkept.reports]
      exact countP_lt_countP (a := (event.sequence, event.report))
        (Table.find?_eq_some_iff.1 hholds.report) hwaited (by simp [hdelivered])
        fun row _ => hkept.deliveries row.1
    omega

/-- A call that succeeds admits the first report of each parent on its page, and it answers yes
whenever its page has a report; a full parent has none on a page. Calls that admit something are no
more than there were reports to deliver, and a call after them that answers no leaves only reports
whose parents are full. -/
theorem evidence_admission_drains {deps : Deps δ} {db db' : Db δ} {any : Bool}
    (hsized : db.Sized) (h : admitChildEvents deps db = .ok (any, db')) :
    (∀ before event after, childEvents db = before ++ event :: after →
      (∀ e ∈ before, e.parent ≠ event.parent) → event.Delivered db') ∧
    (any = true ↔ childEvents db ≠ []) ∧
    (∀ event ∈ childEvents db, db.inbox.Room event.parent) ∧
    ∀ n later, Admissions deps n db later → n ≤ db.undelivered ∧
      ∀ last, admitChildEvents deps later = .ok (false, last) → last = later ∧
        ∀ sequence report link, Waits later sequence report link →
          ¬later.inbox.Room link.parentId := by
  obtain ⟨-, hfirst, hany, -⟩ := admitChildEvents_eq_ok hsized h
  refine ⟨hfirst, hany, fun event hevent =>
    (onPage_childEvents hsized).room event hevent (by simp), fun n later hcalls => ?_⟩
  obtain ⟨hlater, hcount⟩ := hcalls.count_le hsized
  refine ⟨by omega, fun last hlast => ?_⟩
  obtain ⟨-, -, hanswer, hsame⟩ := admitChildEvents_eq_ok hlater hlast
  refine ⟨hsame rfl, childEvents_eq_nil_iff.1 ?_⟩
  by_contra hne
  cases hanswer.2 hne

/-- A child has reported, and its report waits. -/
def waitingReport : Db Command := afterAll .verbatim (reportedChild.take 5) ∅

/-- The call answers yes, and a report was on its page. -/
theorem evidence_admission_drains_waiting :
    (result? (admitChildEvents .verbatim waitingReport)).map Prod.fst = some true ∧
      childEvents waitingReport ≠ [] := by
  have hreports : ∀ row ∈ waitingReport.reports.rows.rows, Text.len row.2.body ≤ 16 * 1024 ∧
      Text.len row.2.reportId ≤ 200 ∧ Text.len row.2.childId ≤ 200 := by
    decide +kernel
  have hlinks : ∀ row ∈ waitingReport.kinship.links.rows, Text.len row.2.parentId ≤ 200 := by
    decide +kernel
  have hsized : waitingReport.Sized :=
    ⟨fun n r h => (hreports (n, r) (Table.mem_rows_iff.2 h)).1,
      fun n r h => (hreports (n, r) (Table.mem_rows_iff.2 h)).2,
      fun child link h => hlinks (child, link) (Table.mem_rows_iff.2 h)⟩
  have hcall : (result? (admitChildEvents .verbatim waitingReport)).map Prod.fst = some true := by
    decide +kernel
  obtain ⟨⟨any, db'⟩, hresult, hany⟩ := Option.map_eq_some_iff.1 hcall
  obtain rfl : any = true := hany
  exact ⟨hcall, (evidence_admission_drains hsized (result?_eq_some.1 hresult)).2.1.1 rfl⟩

end Nakode
