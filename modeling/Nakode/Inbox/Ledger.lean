import Nakode.Operations
import Nakode.Lib.Ledger

/-!
# The inbox as a ledger

For each session the inbox is a first-in-first-out ledger (`Inbox.ledger`): the sequences that
wait, the batches in the order they were cut, and the removed sequences. Every write is a move of
every session's ledger or leaves it as it is (`ledger_step`), so the order and the fate of the
messages come from `Fifo.Ledger.Sound`. What the ledger does not see is kept beside it
(`Consistent`): one open batch a session, and the cutoffs.
-/

namespace Nakode

open Relational Transition Fifo

variable {δ : Type}

/-! ## Runs of inbox writes -/

/-- Inboxes under legal writes. -/
def inboxJournal (δ : Type) : System (Inbox δ) (InboxWrite δ) where
  next i w i' := w.Legal i ∧ w.apply i = i'

/-- A legal write to the inbox is legal for the inbox itself. -/
theorem Write.inbox_legal {w : InboxWrite δ} {db : Db δ} (h : (Write.inbox w).Legal db) :
    w.Legal db.inbox := by
  cases w with
  | admission => exact h.1
  | _ => exact h

/-- Only writes to the inbox change it, as long as no session is deleted. -/
theorem Write.inbox_apply {w : Write δ} {db : Db δ} (h : w.Legal db)
    (hkeep : w.deletes = false) :
    (w.apply db).inbox = db.inbox ∨
      ∃ iw, w = .inbox iw ∧ iw.Legal db.inbox ∧ (w.apply db).inbox = iw.apply db.inbox := by
  cases w with
  | inbox iw => exact .inr ⟨iw, rfl, inbox_legal h, rfl⟩
  | forget | purge => cases hkeep
  | _ => exact .inl rfl

/-- The writes to the inbox in a run of writes that deletes no session. -/
theorem inbox_run_of_journal {db db' : Db δ} {ws : List (Write δ)}
    (h : (journal δ).Run db ws db') (hkeep : ∀ w ∈ ws, w.deletes = false) :
    ∃ is, (inboxJournal δ).Run db.inbox is db'.inbox ∧ ∀ iw ∈ is, .inbox iw ∈ ws := by
  induction h with
  | nil => exact ⟨[], .nil _, by simp⟩
  | @cons db db₁ db' w ws hstep _ ih =>
    obtain ⟨hlegal, rfl⟩ := hstep
    obtain ⟨is, hrun, his⟩ := ih fun w' hw' => hkeep w' (List.mem_cons_of_mem _ hw')
    rcases Write.inbox_apply hlegal (hkeep w List.mem_cons_self) with heq | ⟨iw, rfl, hl, heq⟩
    · exact ⟨is, heq ▸ hrun, fun iw hiw => List.mem_cons_of_mem _ (his iw hiw)⟩
    · refine ⟨iw :: is, .cons ⟨hl, rfl⟩ (heq ▸ hrun), fun iw' hiw' => ?_⟩
      rcases List.mem_cons.1 hiw' with rfl | hiw'
      · exact List.mem_cons_self
      · exact List.mem_cons_of_mem _ (his iw' hiw')

/-- The system under the operations that delete no session. -/
def keeping [DecidableEq δ] (deps : Deps δ) : System (Db δ) Op :=
  (machine deps).restrict fun _ op => op.keepsSessions = true

/-- Operations that delete no session run under it. -/
theorem keeping_run [DecidableEq δ] {deps : Deps δ} {db : Db δ} {ops : List Op}
    (h : ∀ op ∈ ops, op.keepsSessions = true) : (keeping deps).Run db ops (afterAll deps ops db) :=
  restrict_run fun op hop _ => h op hop

/-- A step that deletes no session is a run of writes that delete none. -/
theorem keeping_writes [DecidableEq δ] {deps : Deps δ} {op : Op} {db db' : Db δ}
    (h : (keeping deps).next db op db') :
    Writes (fun w => op.Issues w ∧ w.deletes = false) 1 db db' := by
  obtain ⟨hkeep, hstep⟩ := h
  obtain ⟨ws, hrun, hissues, hrelinks⟩ := machine_writes hstep
  exact ⟨ws, hrun, fun w hw => ⟨hissues w hw, (hissues w hw).deletes hkeep⟩, hrelinks⟩

/-- A step that deletes no session is a run of inbox writes, each of a kind that the operation may
issue. -/
theorem inbox_run_of_step [DecidableEq δ] {deps : Deps δ} {op : Op} {db db' : Db δ}
    (h : (keeping deps).next db op db') :
    ∃ is, (inboxJournal δ).Run db.inbox is db'.inbox ∧ ∀ iw ∈ is, op.Issues (.inbox iw) := by
  obtain ⟨ws, hrun, hws, -⟩ := keeping_writes h
  obtain ⟨is, his, hmem⟩ := inbox_run_of_journal hrun fun w hw => (hws w hw).2
  exact ⟨is, his, fun iw hiw => (hws _ (hmem iw hiw)).1⟩

/-- A property of inboxes that legal writes keep is kept by every operation that deletes no
session. -/
theorem inbox_invariant [DecidableEq δ] {deps : Deps δ} {Q : Inbox δ → Prop}
    (hQ : ∀ {i : Inbox δ} {w : InboxWrite δ}, w.Legal i → Q i → Q (w.apply i)) {db db' : Db δ}
    {ops : List Op} (h : (keeping deps).Run db ops db') (hdb : Q db.inbox) : Q db'.inbox := by
  refine h.invariant (Q := fun db => Q db.inbox) (fun hstep hq => ?_) hdb
  obtain ⟨is, hrun, -⟩ := inbox_run_of_step hstep
  exact hrun.invariant (fun hnext hq => hnext.2 ▸ hQ hnext.1 hq) hq

/-! ## What marks do -/

namespace Mark

/-- A mark is set on batches that are not consumed. -/
theorem not_consumed_of_on {m : Mark} {id : String} {b : Batch} (h : m.on id b = true) :
    b.state ≠ .consumed := by
  cases m <;> simp [on, Batch.fenceable] at h <;> simp [h]

/-- The state that a mark sets, unless it leaves the state. -/
theorem state_set {m : Mark} {id : String} {b : Batch} (h : m.on id b = true) :
    (m.set b).state = b.state ∨
      ((∃ s k, m = .fence s k) ∧ b.state = .claimed ∧ (m.set b).state = .dispatching) ∨
      ((∃ s t, m = .acknowledge s t) ∧ b.state = .dispatching ∧ (m.set b).state = .consumed) := by
  cases m with
  | fence s k =>
    simp [on, Batch.fenceable] at h
    exact .inr (.inl ⟨⟨s, k, rfl⟩, by simp [h], rfl⟩)
  | acknowledge s t =>
    simp [on] at h
    exact .inr (.inr ⟨⟨s, t, rfl⟩, by simp [h], rfl⟩)
  | accept | block | unblock => exact .inl rfl

end Mark

@[simp] theorem Inbox.find?_mark (i : Inbox δ) (m : Mark) (id : String) :
    (i.mark m).batches.find? id
      = (i.batches.find? id).map fun b => if m.on id b then m.set b else b :=
  Table.find?_update ..

/-- A batch after a mark, and the batch it was. -/
theorem Inbox.of_find?_mark {i : Inbox δ} {m : Mark} {id : String} {b : Batch}
    (h : (i.mark m).batches.find? id = some b) :
    ∃ b₀, i.batches.find? id = some b₀ ∧ b.sessionId = b₀.sessionId ∧ b.cutoff = b₀.cutoff ∧
      (b.state ≠ .consumed → b₀.state ≠ .consumed) := by
  rw [find?_mark, Option.map_eq_some_iff] at h
  obtain ⟨b₀, hb₀, rfl⟩ := h
  refine ⟨b₀, hb₀, ?_⟩
  split
  · next hon => exact ⟨by simp, by simp, fun _ => Mark.not_consumed_of_on hon⟩
  · exact ⟨rfl, rfl, fun h => h⟩

/-- What every mark on a batch respects, a run of writes respects, when the relation is a
preorder. -/
theorem Inbox.batch_rel {R : Batch → Batch → Prop} (hrefl : ∀ b, R b b)
    (htrans : ∀ {a b c}, R a b → R b c → R a c) {i i' : Inbox δ} {is : List (InboxWrite δ)}
    (h : (inboxJournal δ).Run i is i') {id : String}
    (hmark : ∀ m, .mark m ∈ is → ∀ b, m.on id b = true → R b (m.set b)) {b : Batch}
    (hb : i.batches.find? id = some b) : ∃ b', i'.batches.find? id = some b' ∧ R b b' := by
  induction h generalizing b with
  | nil => exact ⟨b, hb, hrefl b⟩
  | @cons i₀ i₁ i₂ w is hnext _ ih =>
    obtain ⟨hlegal, rfl⟩ := hnext
    have hrest : ∀ m, .mark m ∈ is → ∀ b, m.on id b = true → R b (m.set b) :=
      fun m hm => hmark m (List.mem_cons_of_mem _ hm)
    cases w with
    | mark m =>
      by_cases hon : m.on id b = true
      · have hset : (i₀.mark m).batches.find? id = some (m.set b) := by simp [hb, hon]
        obtain ⟨b', hb', hR⟩ := ih hrest hset
        exact ⟨b', hb', htrans (hmark m List.mem_cons_self b hon) hR⟩
      · have hkeep : (i₀.mark m).batches.find? id = some b := by simp [hb, hon]
        exact ih hrest hkeep
    | cut session batch cutoff display =>
      have hne : id ≠ batch := by
        intro heq
        rw [heq, hlegal.1] at hb
        cases hb
      have hkeep : (i₀.cut session batch cutoff display).batches.find? id = some b := by
        simpa [cut, hne] using hb
      exact ih hrest hkeep
    | admission | receipt | remove | setPaused | source => exact ih hrest hb

/-! ## What is kept beside the ledger -/

namespace Inbox

/-- The constraints of the schema that the writes rely on, and what the cutoffs mean. -/
structure Consistent (i : Inbox δ) : Prop where
  /-- A message is in a batch of its own session, at or below its cutoff. -/
  batched : ∀ n m b, i.messages.find? n = some m → m.batchId = some b →
    ∃ batch, i.batches.find? b = some batch ∧ batch.sessionId = m.sessionId ∧ n ≤ batch.cutoff
  /-- A message that waits is above every cutoff of its session. -/
  waits : ∀ n m b batch, i.messages.find? n = some m → m.batchId = none → i.removed n = false →
    i.batches.find? b = some batch → batch.sessionId = m.sessionId → batch.cutoff < n
  cutoffs : ∀ b batch, i.batches.find? b = some batch → batch.cutoff < i.messages.next
  /-- A removed message is in no batch. -/
  removals : ∀ n, i.removed n = true → ∃ m, i.messages.find? n = some m ∧ m.batchId = none
  oneOpen : ∀ a b x y, i.batches.find? a = some x → i.batches.find? b = some y →
    x.sessionId = y.sessionId → x.state ≠ .consumed → y.state ≠ .consumed → a = b

theorem consistent_empty : (∅ : Inbox δ).Consistent where
  batched := by intro _ _ _ h; cases h
  waits := by intro _ _ _ _ h; cases h
  cutoffs := by intro _ _ h; cases h
  removals := by intro _ h; cases h
  oneOpen := by intro _ _ _ _ h; cases h

theorem openBatch?_eq_none_iff {i : Inbox δ} {session : String} :
    i.openBatch? session = none ↔
      ∀ b batch, i.batches.find? b = some batch → batch.sessionId = session →
        batch.state = .consumed := by
  simp [openBatch?, Table.find?_eq_some_iff]

theorem takes_iff {i : Inbox δ} {session : String} {cutoff n : Nat} {m : Message δ} :
    i.takes session cutoff n m = true ↔
      m.sessionId = session ∧ m.batchId = none ∧ n ≤ cutoff ∧ i.removed n = false := by
  simp [takes, and_assoc]

/-- What is recorded about the messages before an admission is recorded after it. -/
theorem find?_admission {i : Inbox δ} (m : Message δ) (source : Option Source)
    (report : Option Nat) {n : Nat} (hn : n ≠ i.messages.next) :
    (i.admission m source report).sources.find? n = i.sources.find? n ∧
      ∀ r, (i.admission m source report).deliveries.find? r = some n →
        i.deliveries.find? r = some n := by
  constructor
  · cases source with
    | none => rfl
    | some s => simp [admission, hn]
  · intro r hr
    cases report with
    | none => exact hr
    | some r' =>
      simp only [admission, Table.find?_insertOrIgnore] at hr
      split at hr
      · next heq =>
        cases hfind : i.deliveries.find? r' with
        | none => simp [hfind, Ne.symm hn] at hr
        | some k =>
          rw [hfind] at hr
          rw [heq, hfind]
          exact hr
      · exact hr

/-- The rows of the messages after a cut. -/
theorem find?_cut (i : Inbox δ) (session batch : String) (cutoff : Nat) (display : String)
    (n : Nat) :
    (i.cut session batch cutoff display).messages.find? n
      = (i.messages.find? n).map fun m =>
        if i.takes session cutoff n m then m.joined batch else m := by
  simp only [cut, Sequenced.toTable_update, Table.find?_update]

theorem removed_remove (i : Inbox δ) (sequence n : Nat) :
    (i.remove sequence).removed n = true ↔ n = sequence ∨ i.removed n = true := by
  simp only [removed, remove, Table.find?_insertOrIgnore]
  split <;> simp_all

theorem find?_remove (i : Inbox δ) (sequence n : Nat) :
    (i.remove sequence).messages.find? n
      = (i.messages.find? n).map fun m => if n = sequence then m.blank else m := by
  simp [remove]

end Inbox

@[simp] theorem Message.joined_sessionId (m : Message δ) (b : String) :
    (m.joined b).sessionId = m.sessionId := rfl

@[simp] theorem Message.joined_batchId (m : Message δ) (b : String) :
    (m.joined b).batchId = some b := rfl

@[simp] theorem Message.blank_batchId (m : Message δ) : m.blank.batchId = m.batchId := rfl

@[simp] theorem Message.blank_sessionId (m : Message δ) : m.blank.sessionId = m.sessionId := rfl

namespace Inbox

/-- A message in no batch, once its batch is known to be there. -/
theorem Consistent.batchId_eq_none {i : Inbox δ} (hi : i.Consistent) {n : Nat} {m : Message δ}
    (hm : i.messages.find? n = some m) (hstate : i.batchState? m = none) : m.batchId = none := by
  cases hb : m.batchId with
  | none => rfl
  | some b =>
    obtain ⟨batch, hbatch, -, -⟩ := hi.batched n m b hm hb
    simp [batchState?, hb, hbatch] at hstate

/-- A legal write to the inbox keeps it consistent. -/
theorem Consistent.apply {i : Inbox δ} {w : InboxWrite δ} (hi : i.Consistent) (hw : w.Legal i) :
    (w.apply i).Consistent := by
  obtain ⟨hbatched, hwaits, hcutoffs, hremovals, hopen⟩ := hi
  cases w with
  | receipt | setPaused | source => exact ⟨hbatched, hwaits, hcutoffs, hremovals, hopen⟩
  | admission m s r =>
    obtain ⟨-, hnone, -, -⟩ := hw
    have hfind : ∀ n m', (i.admission m s r).messages.find? n = some m' →
        (n = i.messages.next ∧ m' = m) ∨ i.messages.find? n = some m' := by
      intro n m' h
      simp only [admission, Sequenced.find?_append] at h
      split at h
      · next hn => exact .inl ⟨hn, (Option.some.inj h).symm⟩
      · exact .inr h
    refine ⟨fun n m' b hm hb => ?_, fun n m' b batch hm hb hr hbatch hs => ?_, fun b batch h => ?_,
      fun n hr => ?_, hopen⟩
    · rcases hfind n m' hm with ⟨-, rfl⟩ | hm
      · rw [hnone] at hb; cases hb
      · exact hbatched n m' b hm hb
    · rcases hfind n m' hm with ⟨rfl, -⟩ | hm
      · exact hcutoffs b batch hbatch
      · exact hwaits n m' b batch hm hb hr hbatch hs
    · exact Nat.lt_succ_of_lt (hcutoffs b batch h)
    · obtain ⟨m', hm', hb'⟩ := hremovals n hr
      refine ⟨m', ?_, hb'⟩
      have : n ≠ i.messages.next := (Sequenced.lt_next hm').ne
      simpa [InboxWrite.apply, admission, this] using hm'
  | remove sequence =>
    obtain ⟨m, hm, hstate⟩ := hw
    have hmb := Consistent.batchId_eq_none ⟨hbatched, hwaits, hcutoffs, hremovals, hopen⟩ hm hstate
    have hfind : ∀ n m', (i.remove sequence).messages.find? n = some m' →
        ∃ m₀, i.messages.find? n = some m₀ ∧ m'.batchId = m₀.batchId ∧
          m'.sessionId = m₀.sessionId := by
      intro n m' h
      rw [find?_remove, Option.map_eq_some_iff] at h
      obtain ⟨m₀, hm₀, rfl⟩ := h
      exact ⟨m₀, hm₀, by split <;> rfl, by split <;> rfl⟩
    refine ⟨fun n m' b hm' hb => ?_, fun n m' b batch hm' hb hr hbatch hs => ?_, hcutoffs,
      fun n hr => ?_, hopen⟩
    · obtain ⟨m₀, hm₀, hb₀, hs₀⟩ := hfind n m' hm'
      rw [hs₀]
      exact hbatched n m₀ b hm₀ (hb₀ ▸ hb)
    · obtain ⟨m₀, hm₀, hb₀, hs₀⟩ := hfind n m' hm'
      refine hwaits n m₀ b batch hm₀ (hb₀ ▸ hb) ?_ hbatch (hs₀ ▸ hs)
      by_contra hne
      exact Bool.false_ne_true
        (hr.symm.trans ((removed_remove i sequence n).2 (.inr (by simpa using hne))))
    · rcases (removed_remove i sequence n).1 hr with rfl | hr
      · exact ⟨m.blank, by
          show (i.remove n).messages.find? n = _
          rw [find?_remove, hm]; simp, hmb⟩
      · obtain ⟨m', hm', hb'⟩ := hremovals n hr
        refine ⟨if n = sequence then m'.blank else m', ?_, by split <;> exact hb'⟩
        show (i.remove sequence).messages.find? n = _
        rw [find?_remove, hm', Option.map_some]
  | cut session batch cutoff display =>
    obtain ⟨hfree, -, hnone, m₀, hm₀, hs₀, hb₀, hr₀⟩ := hw
    have hconsumed := openBatch?_eq_none_iff.1 hnone
    have hbatches : ∀ b x, (i.cut session batch cutoff display).batches.find? b = some x →
        (b = batch ∧ x = ⟨session, cutoff, .claimed, none, none⟩) ∨
          (b ≠ batch ∧ i.batches.find? b = some x) := by
      intro b x h
      simp only [cut, Table.find?_insertOrIgnore, hfree, Option.getD_none] at h
      split at h
      · next hb => exact .inl ⟨hb, (Option.some.inj h).symm⟩
      · next hb => exact .inr ⟨hb, h⟩
    refine ⟨fun n m b hm hb => ?_, fun n m b x hm hb hr hx hs => ?_, fun b x hx => ?_,
      fun n hr => ?_, fun a b x y hx hy hs hxc hyc => ?_⟩
    · change (i.cut session batch cutoff display).messages.find? n = some m at hm
      change ∃ x, (i.cut session batch cutoff display).batches.find? b = some x ∧ _
      rw [find?_cut, Option.map_eq_some_iff] at hm
      obtain ⟨m', hm', rfl⟩ := hm
      split at hb
      · next hc =>
        obtain rfl := Option.some.inj hb
        rw [if_pos hc]
        obtain ⟨hs, -, hn, -⟩ := takes_iff.1 hc
        exact ⟨⟨session, cutoff, .claimed, none, none⟩, by simp [cut, hfree], hs.symm, hn⟩
      · next hc =>
        rw [if_neg hc]
        obtain ⟨x, hx, hxs, hxn⟩ := hbatched n m' b hm' hb
        have hne : b ≠ batch := fun heq => by rw [heq, hfree] at hx; cases hx
        exact ⟨x, by simpa [cut, hne] using hx, hxs, hxn⟩
    · change (i.cut session batch cutoff display).messages.find? n = some m at hm
      rw [find?_cut, Option.map_eq_some_iff] at hm
      obtain ⟨m', hm', rfl⟩ := hm
      split at hb
      · cases hb
      · next hc =>
        rw [if_neg hc] at hs
        rcases hbatches b x hx with ⟨rfl, rfl⟩ | ⟨-, hx⟩
        · -- it waits in the session that was cut, so it is above the cutoff
          by_contra hle
          exact hc (takes_iff.2 ⟨hs.symm, hb, Nat.not_lt.1 hle, hr⟩)
        · exact hwaits n m' b x hm' hb hr hx hs
    · rcases hbatches b x hx with ⟨rfl, rfl⟩ | ⟨-, hx⟩
      · show cutoff < i.messages.next
        exact Sequenced.lt_next hm₀
      · exact hcutoffs b x hx
    · obtain ⟨m, hm, hb⟩ := hremovals n hr
      refine ⟨m, ?_, hb⟩
      change (i.cut session batch cutoff display).messages.find? n = some m
      have hr' : i.removed n = true := hr
      rw [find?_cut, hm, Option.map_some, if_neg (by simp [takes, hr'])]
    · rcases hbatches a x hx with ⟨rfl, rfl⟩ | ⟨-, hx'⟩ <;>
        rcases hbatches b y hy with ⟨rfl, rfl⟩ | ⟨-, hy'⟩
      · rfl
      · exact absurd (hconsumed b y hy' hs.symm) hyc
      · exact absurd (hconsumed a x hx' hs) hxc
      · exact hopen a b x y hx' hy' hs hxc hyc
  | mark m =>
    refine ⟨fun n msg b hm hb => ?_, fun n msg b x hm hb hr hx hs => ?_, fun b x hx => ?_,
      hremovals, fun a b x y hx hy hs hxc hyc => ?_⟩
    · obtain ⟨x, hx, hxs, hxn⟩ := hbatched n msg b hm hb
      refine ⟨if m.on b x then m.set x else x, ?_, ?_, ?_⟩
      · exact (i.find?_mark m b).trans (by rw [hx, Option.map_some])
      · split <;> simpa using hxs
      · split <;> simpa using hxn
    · obtain ⟨x₀, hx₀, hs₀, hc₀, -⟩ := of_find?_mark hx
      rw [hc₀]
      exact hwaits n msg b x₀ hm hb hr hx₀ (hs₀ ▸ hs)
    · obtain ⟨x₀, hx₀, -, hc₀, -⟩ := of_find?_mark hx
      rw [hc₀]
      exact hcutoffs b x₀ hx₀
    · obtain ⟨x₀, hx₀, hs₀, -, hxc₀⟩ := of_find?_mark hx
      obtain ⟨y₀, hy₀, hs₁, -, hyc₀⟩ := of_find?_mark hy
      exact hopen a b x₀ y₀ hx₀ hy₀ (by rw [← hs₀, ← hs₁, hs]) (hxc₀ hxc) (hyc₀ hyc)

end Inbox

end Nakode
