import Nakode.Inbox.Ledger

/-!
# First in, first out

`ledger_step`: a legal write to the inbox is a move of each session's ledger, or leaves it as it
is. `inbox_ledger` draws the conclusion for every run of operations that deletes no session: what
holds in each state (`Inbox.InOrder`), what an operation does to a batch (`Batch.Advances`) and
what a run leaves as it is (`Inbox.Follows`).
-/

namespace Nakode

open Relational Transition Fifo

variable {δ : Type}

namespace Inbox

/-- A session's inbox as a ledger of message sequences. -/
def ledger (i : Inbox δ) (session : String) : Ledger Nat String where
  pending := (i.pending session).map Prod.fst
  batches := (i.batches.rows.filter fun b => b.2.sessionId == session).map fun b =>
    (b.1, (i.members session b.1).map Prod.fst)
  removed := {n | i.removed n = true ∧ ∃ m, i.messages.find? n = some m ∧ m.sessionId = session}

theorem mem_ledger_pending {i : Inbox δ} {session : String} {n : Nat} :
    n ∈ (i.ledger session).pending ↔ ∃ m, i.messages.find? n = some m ∧ m.sessionId = session ∧
      m.batchId = none ∧ i.removed n = false := by
  simp [ledger, mem_pending_iff]

theorem mem_members_iff {i : Inbox δ} {session batch : String} {row : Nat × Message δ} :
    row ∈ i.members session batch ↔ i.messages.find? row.1 = some row.2 ∧
      row.2.sessionId = session ∧ row.2.batchId = some batch ∧ i.removed row.1 = false := by
  simp [members, Table.mem_rows_iff, and_assoc]

theorem mem_ledger_batches {i : Inbox δ} {session b : String} {ns : List Nat} :
    (b, ns) ∈ (i.ledger session).batches ↔
      (∃ batch, i.batches.find? b = some batch ∧ batch.sessionId = session) ∧
        ns = (i.members session b).map Prod.fst := by
  simp only [ledger, List.mem_map, List.mem_filter, beq_iff_eq, Prod.mk.injEq, Prod.exists,
    Table.mem_rows_iff]
  constructor
  · rintro ⟨b, batch, ⟨hb, hs⟩, rfl, rfl⟩
    exact ⟨⟨batch, hb, hs⟩, rfl⟩
  · rintro ⟨⟨batch, hb, hs⟩, rfl⟩
    exact ⟨b, batch, ⟨hb, hs⟩, rfl, rfl⟩

/-- Whatever is in a session's line is a message of the session. -/
theorem find?_of_mem_line {i : Inbox δ} {session : String} {n : Nat}
    (h : n ∈ (i.ledger session).line) :
    ∃ m, i.messages.find? n = some m ∧ m.sessionId = session := by
  rcases List.mem_append.1 h with h | h
  · obtain ⟨⟨b, ns⟩, hb, hn⟩ := List.mem_flatMap.1 h
    obtain ⟨-, rfl⟩ := mem_ledger_batches.1 hb
    obtain ⟨row, hrow, rfl⟩ := List.mem_map.1 hn
    obtain ⟨hfind, hs, -, -⟩ := mem_members_iff.1 hrow
    exact ⟨row.2, hfind, hs⟩
  · obtain ⟨m, hm, hs, -, -⟩ := mem_ledger_pending.1 h
    exact ⟨m, hm, hs⟩

/-! ## The ledger after a write -/

theorem ledger_mark (i : Inbox δ) (m : Mark) (session : String) :
    (i.mark m).ledger session = i.ledger session := by
  have hrows : ((i.mark m).batches.rows.filter fun b => b.2.sessionId == session).map
        (fun b => (b.1, (i.members session b.1).map Prod.fst))
      = (i.batches.rows.filter fun b => b.2.sessionId == session).map
        fun b => (b.1, (i.members session b.1).map Prod.fst) := by
    have hkeep : ∀ b : String × Batch,
        (if m.on b.1 b.2 then m.set b.2 else b.2).sessionId = b.2.sessionId := fun b => by
      split <;> simp
    simp only [mark, updateBatches, Table.update, List.filter_map, Function.comp_def, hkeep,
      List.map_map]
  simp only [ledger]
  exact congrArg (fun batches => (⟨_, batches, _⟩ : Ledger Nat String)) hrows

theorem pending_admission {i : Inbox δ} (hi : i.Consistent) {m : Message δ} (hm : m.batchId = none)
    (source : Option Source) (report : Option Nat) (session : String) :
    (i.admission m source report).pending session
      = i.pending session ++ if m.sessionId = session then [(i.messages.next, m)] else [] := by
  have hnew : i.removed i.messages.next = false := by
    by_contra hr
    obtain ⟨m', hm', -⟩ := hi.removals i.messages.next (by simpa using hr)
    exact absurd (Sequenced.lt_next hm') (Nat.lt_irrefl _)
  have hnew' : (i.admission m source report).removed i.messages.next = false := hnew
  simp only [pending, admission, Sequenced.rows_append, List.filter_append, List.filter_cons, hm,
    List.filter_nil]
  by_cases hs : m.sessionId = session
  · simp [hs, removed, show (i.removals.find? i.messages.next).isSome = false from hnew]
  · simp [hs, removed]

theorem members_admission {i : Inbox δ} {m : Message δ} (hm : m.batchId = none)
    (source : Option Source) (report : Option Nat) (session batch : String) :
    (i.admission m source report).members session batch = i.members session batch := by
  simp [members, admission, hm, removed]

theorem keys_pending_remove (i : Inbox δ) (sequence : Nat) (session : String) :
    ((i.remove sequence).pending session).map Prod.fst
      = ((i.pending session).map Prod.fst).filter (· ≠ sequence) := by
  have hremoved : ∀ n, (i.remove sequence).removed n
      = (decide (n = sequence) || i.removed n) := fun n => by
    rw [Bool.eq_iff_iff, removed_remove]; simp
  simp only [pending, hremoved]
  rw [show (i.remove sequence).messages.rows
    = (i.messages.toTable.update (fun n _ => n == sequence) Message.blank).rows from rfl,
    Table.keys_filter_update, List.filter_map, List.filter_filter]
  congr 1
  refine List.filter_congr fun row _ => ?_
  by_cases h : row.1 = sequence <;> simp [h]

theorem keys_members_remove {i : Inbox δ} {sequence : Nat} {m : Message δ}
    (hm : i.messages.find? sequence = some m) (hb : m.batchId = none) (session batch : String) :
    ((i.remove sequence).members session batch).map Prod.fst
      = (i.members session batch).map Prod.fst := by
  have hremoved : ∀ n, (i.remove sequence).removed n
      = (decide (n = sequence) || i.removed n) := fun n => by
    rw [Bool.eq_iff_iff, removed_remove]; simp
  simp only [members, hremoved]
  rw [show (i.remove sequence).messages.rows
    = (i.messages.toTable.update (fun n _ => n == sequence) Message.blank).rows from rfl,
    Table.keys_filter_update]
  congr 1
  refine List.filter_congr fun row hrow => ?_
  by_cases h : row.1 = sequence
  · -- the removed message is in no batch
    have : row.2 = m := Option.some.inj ((Table.mem_rows_iff.1 hrow).symm.trans (h ▸ hm))
    simp [h, this, hb]
  · simp [h]

theorem ledger_remove {i : Inbox δ} {sequence : Nat} {m : Message δ}
    (hm : i.messages.find? sequence = some m) (hb : m.batchId = none) (session : String) :
    (i.remove sequence).ledger session =
      { i.ledger session with
        pending := (i.ledger session).pending.filter (· ≠ sequence)
        removed := if m.sessionId = session then insert sequence (i.ledger session).removed
          else (i.ledger session).removed } := by
  simp only [ledger, keys_pending_remove, keys_members_remove hm hb]
  congr 1
  ext n
  have hfind : ∀ m', (i.remove sequence).messages.find? n = some m' ↔
      ∃ m₀, i.messages.find? n = some m₀ ∧ (if n = sequence then m₀.blank else m₀) = m' :=
    fun m' => by rw [find?_remove, Option.map_eq_some_iff]
  simp only [Set.mem_ofPred_eq, removed_remove, hfind]
  by_cases h : n = sequence
  · subst h
    by_cases hs : m.sessionId = session <;> simp [hm, hs]
  · by_cases hs : m.sessionId = session <;> simp [h, hs]

/-- The batch of a row after a cut: the new one where the cut takes the row. -/
theorem batchId_cut (i : Inbox δ) (session batch : String) (cutoff : Nat) (row : Nat × Message δ) :
    (if i.takes session cutoff row.1 row.2 then row.2.joined batch else row.2).batchId
      = if i.takes session cutoff row.1 row.2 then some batch else row.2.batchId := by
  split <;> rfl

theorem sessionId_cut (i : Inbox δ) (session batch : String) (cutoff : Nat)
    (row : Nat × Message δ) :
    (if i.takes session cutoff row.1 row.2 then row.2.joined batch else row.2).sessionId
      = row.2.sessionId := by
  split <;> rfl

theorem keys_pending_cut (i : Inbox δ) (session batch : String) (cutoff : Nat) (display : String)
    (s : String) :
    ((i.cut session batch cutoff display).pending s).map Prod.fst
      = if session = s then ((i.pending s).map Prod.fst).filter (cutoff < ·)
        else (i.pending s).map Prod.fst := by
  simp only [pending, cut, Sequenced.toTable_update]
  rw [Table.keys_filter_update]
  simp only [sessionId_cut, batchId_cut]
  split
  · next heq =>
    subst heq
    rw [List.filter_map, List.filter_filter]
    congr 1
    refine List.filter_congr fun row _ => ?_
    by_cases ht : i.takes session cutoff row.1 row.2 = true
    · obtain ⟨-, -, hn, -⟩ := takes_iff.1 ht
      simp [ht, hn]
    · -- a row of the session that waits and is not taken is above the cutoff
      have hn : row.2.sessionId = session → row.2.batchId = none → i.removed row.1 = false →
          cutoff < row.1 := fun h1 h2 h3 =>
        Nat.lt_of_not_le fun hle => ht (takes_iff.2 ⟨h1, h2, hle, h3⟩)
      rw [if_neg ht, Bool.eq_iff_iff]
      simp only [Bool.and_eq_true, beq_iff_eq, Bool.not_eq_true', Function.comp_apply,
        decide_eq_true_eq]
      exact ⟨fun h => ⟨hn h.1.1 h.1.2 h.2, h⟩, And.right⟩
  · next hne =>
    congr 1
    refine List.filter_congr fun row _ => ?_
    by_cases ht : i.takes session cutoff row.1 row.2 = true
    · obtain ⟨hs, -⟩ := takes_iff.1 ht
      have hother : (session == s) = false := by simpa using hne
      simp [hs, hother]
    · rw [if_neg ht]
      rfl

theorem keys_members_cut {i : Inbox δ} (hi : i.Consistent) {session batch : String} {cutoff : Nat}
    (hfree : i.batches.find? batch = none) (display : String) (s b : String) :
    ((i.cut session batch cutoff display).members s b).map Prod.fst
      = if b = batch then
          if session = s then ((i.pending s).map Prod.fst).filter (· ≤ cutoff) else []
        else (i.members s b).map Prod.fst := by
  -- no message is in the batch before it is cut
  have hnew : ∀ row ∈ i.messages.rows, row.2.batchId ≠ some batch := fun row hrow hb => by
    obtain ⟨x, hx, -⟩ := hi.batched row.1 row.2 batch (Table.mem_rows_iff.1 hrow) hb
    rw [hfree] at hx
    cases hx
  simp only [members, cut, Sequenced.toTable_update]
  rw [Table.keys_filter_update]
  simp only [sessionId_cut, batchId_cut]
  split
  · next hb =>
    subst hb
    split
    · next heq =>
      subst heq
      simp only [pending, List.filter_map, List.filter_filter]
      congr 1
      refine List.filter_congr fun row hrow => ?_
      by_cases ht : i.takes session cutoff row.1 row.2 = true
      · obtain ⟨h1, h2, h3, h4⟩ := takes_iff.1 ht
        simp [h1, h2, h3, ht, removed, show (i.removals.find? row.1).isSome = false from h4]
      · rw [if_neg ht, Bool.eq_iff_iff]
        simp only [Bool.and_eq_true, beq_iff_eq, Bool.not_eq_true', Function.comp_apply,
          decide_eq_true_eq]
        exact ⟨fun h => absurd h.1.2 (hnew row hrow),
          fun h => absurd (takes_iff.2 ⟨h.2.1.1, h.2.1.2, h.1, h.2.2⟩) ht⟩
    · next hne =>
      rw [List.map_eq_nil_iff, List.filter_eq_nil_iff]
      intro row hrow
      by_cases ht : i.takes session cutoff row.1 row.2 = true
      · obtain ⟨hs, -⟩ := takes_iff.1 ht
        simp [hs, hne]
      · simp [ht, hnew row hrow]
  · next hb =>
    congr 1
    refine List.filter_congr fun row hrow => ?_
    by_cases ht : i.takes session cutoff row.1 row.2 = true
    · obtain ⟨-, h2, -⟩ := takes_iff.1 ht
      simp [ht, h2, Ne.symm hb]
    · rw [if_neg ht]
      rfl

/-! ## Every write is a move of each ledger -/

/-- A legal write moves a session's ledger, or leaves it as it is. -/
theorem ledger_step {i : Inbox δ} {w : InboxWrite δ} (hi : i.Consistent) (hw : w.Legal i)
    (session : String) :
    (w.apply i).ledger session = i.ledger session ∨
      ∃ move, (Ledger.system Nat String).next (i.ledger session) move
        ((w.apply i).ledger session) := by
  cases w with
  | receipt | setPaused | source => exact .inl rfl
  | mark m => exact .inl (ledger_mark i m session)
  | admission m s r =>
    obtain ⟨-, hnone, -, -⟩ := hw
    have hledger : (i.admission m s r).ledger session = { i.ledger session with
        pending := (i.ledger session).pending
          ++ if m.sessionId = session then [i.messages.next] else [] } := by
      have hremoved : {n | (i.admission m s r).removed n = true ∧
            ∃ m', (i.admission m s r).messages.find? n = some m' ∧ m'.sessionId = session}
          = (i.ledger session).removed := by
        ext n
        simp only [ledger, Set.mem_ofPred_eq]
        refine and_congr_right fun hr => ?_
        obtain ⟨m', hm', -⟩ := hi.removals n hr
        have : n ≠ i.messages.next := (Sequenced.lt_next hm').ne
        simp [admission, this]
      simp only [ledger, pending_admission hi hnone, members_admission hnone, List.map_append]
      refine congrArg₂ (fun p q => (⟨p, _, q⟩ : Ledger Nat String)) ?_ hremoved
      split <;> rfl
    by_cases hs : m.sessionId = session
    · refine .inr ⟨.admission i.messages.next, fun n hn => ?_, fun hr => ?_, ?_⟩
      · obtain ⟨m', hm', -⟩ := find?_of_mem_line hn
        exact Sequenced.lt_next hm'
      · obtain ⟨-, m', hm', -⟩ := hr
        exact absurd (Sequenced.lt_next hm') (Nat.lt_irrefl _)
      · show (i.admission m s r).ledger session = _
        rw [hledger, if_pos hs]
    · refine .inl ?_
      show (i.admission m s r).ledger session = _
      rw [hledger, if_neg hs, List.append_nil]
  | remove sequence =>
    obtain ⟨m, hm, hstate⟩ := hw
    have hb := hi.batchId_eq_none hm hstate
    have hledger := ledger_remove hm hb session
    by_cases hmem : sequence ∈ (i.ledger session).pending
    · obtain ⟨m', hm', hs, -, -⟩ := mem_ledger_pending.1 hmem
      cases hm.symm.trans hm'
      rw [if_pos hs] at hledger
      exact .inr ⟨.remove sequence, hmem, hledger⟩
    · -- it waits in another session, or it was removed before
      refine .inl (hledger.trans ?_)
      have hpending : (i.ledger session).pending.filter (· ≠ sequence)
          = (i.ledger session).pending :=
        List.filter_eq_self.2 fun n hn => by
          simpa using fun heq : n = sequence => hmem (heq ▸ hn)
      rw [hpending]
      by_cases hs : m.sessionId = session
      · have hr : i.removed sequence = true := by
          by_contra hr
          exact hmem (mem_ledger_pending.2 ⟨m, hm, hs, hb, by simpa using hr⟩)
        rw [if_pos hs, Set.insert_eq_of_mem (show sequence ∈ (i.ledger session).removed from
          ⟨hr, m, hm, hs⟩)]
      · rw [if_neg hs]
  | cut s batch cutoff display =>
    obtain ⟨hfree, -, -, -⟩ := hw
    have hremoved : ((i.cut s batch cutoff display).ledger session).removed
        = (i.ledger session).removed := by
      ext n
      simp only [ledger, Set.mem_ofPred_eq]
      refine and_congr_right fun _ => ?_
      simp only [find?_cut, Option.map_eq_some_iff]
      constructor
      · rintro ⟨_, ⟨m, hm, rfl⟩, hs⟩
        exact ⟨m, hm, by rw [← hs]; split <;> rfl⟩
      · rintro ⟨m, hm, hs⟩
        exact ⟨_, ⟨m, hm, rfl⟩, by rw [← hs]; split <;> rfl⟩
    have hbatches : ((i.cut s batch cutoff display).ledger session).batches
        = (i.ledger session).batches ++ if s = session then
          [(batch, (i.ledger session).pending.filter (· ≤ cutoff))] else [] := by
      have hold : ∀ b ∈ i.batches.rows, b.1 ≠ batch := fun b hb heq => by
        have := Table.mem_rows_iff.1 hb
        rw [heq, hfree] at this
        cases this
      simp only [ledger, keys_members_cut hi hfree]
      rw [show (i.cut s batch cutoff display).batches.rows = i.batches.rows ++
        [(batch, ⟨s, cutoff, .claimed, none, none⟩)] from Table.rows_insertOrIgnore hfree _,
        List.filter_append, List.map_append]
      congr 1
      · refine List.map_congr_left fun b hb => ?_
        rw [if_neg (hold b (List.mem_filter.1 hb).1)]
      · by_cases hs : s = session <;> simp [hs]
    have hpending : ((i.cut s batch cutoff display).ledger session).pending
        = if s = session then (i.ledger session).pending.filter (cutoff < ·)
          else (i.ledger session).pending :=
      keys_pending_cut i s batch cutoff display session
    have hledger : (i.cut s batch cutoff display).ledger session = ⟨_, _, _⟩ :=
      congr (congr (congrArg Ledger.mk hpending) hbatches) hremoved
    by_cases hs : s = session
    · refine .inr ⟨.cut batch cutoff, ?_, ?_⟩
      · rw [List.mem_map]
        rintro ⟨⟨b, ns⟩, hb, rfl⟩
        obtain ⟨⟨x, hx, -⟩, -⟩ := mem_ledger_batches.1 hb
        rw [hfree] at hx
        cases hx
      · rw [if_pos hs, if_pos hs] at hledger
        exact hledger
    · rw [if_neg hs, if_neg hs, List.append_nil] at hledger
      exact .inl hledger

theorem ledger_empty (session : String) : (∅ : Inbox δ).ledger session = ⟨[], [], ∅⟩ := by
  simp only [ledger]
  refine congrArg₂ (fun p q => (⟨p, [], q⟩ : Ledger Nat String)) rfl ?_
  ext n
  simp [removed, show (∅ : Inbox δ).removals = ∅ from rfl]

end Inbox

/-- A run of operations that deletes no session is a run of each session's ledger. -/
theorem ledger_run [DecidableEq δ] {deps : Deps δ} {db db' : Db δ} {ops : List Op}
    (h : (keeping deps).Run db ops db') (hdb : db.inbox.Consistent) (session : String) :
    ∃ moves, (Ledger.system Nat String).Run (db.inbox.ledger session) moves
      (db'.inbox.ledger session) := by
  have hinbox : ∀ {i i' : Inbox δ} {is : List (InboxWrite δ)}, (inboxJournal δ).Run i is i' →
      i.Consistent → ∃ moves, (Ledger.system Nat String).Run (i.ledger session) moves
        (i'.ledger session) := by
    intro i i' is hrun
    induction hrun with
    | nil => exact fun _ => ⟨[], .nil _⟩
    | cons hnext _ ih =>
      obtain ⟨hlegal, rfl⟩ := hnext
      intro hi
      obtain ⟨moves, hmoves⟩ := ih (hi.apply hlegal)
      rcases Inbox.ledger_step hi hlegal session with heq | ⟨move, hmove⟩
      · exact ⟨moves, heq ▸ hmoves⟩
      · exact ⟨move :: moves, .cons hmove hmoves⟩
  induction h with
  | nil => exact ⟨[], .nil _⟩
  | cons hnext _ ih =>
    obtain ⟨is, hrun, -⟩ := inbox_run_of_step hnext
    obtain ⟨moves, hmoves⟩ := hinbox hrun hdb
    obtain ⟨moves', hmoves'⟩ := ih (hrun.invariant (fun hstep hi => hstep.2 ▸ hi.apply hstep.1) hdb)
    exact ⟨moves ++ moves', hmoves.append hmoves'⟩

/-! ## What a run leaves as it is -/

namespace Inbox

/-- What later writes keep of an inbox: every message under its identity and in its batch, the
batches in the order they were created, and the removals. -/
structure Follows (i' i : Inbox δ) : Prop where
  messages : ∀ n m, i.messages.find? n = some m → ∃ m', i'.messages.find? n = some m' ∧
    m'.sessionId = m.sessionId ∧ m'.messageId = m.messageId ∧
    (∀ b, m.batchId = some b → m'.batchId = some b)
  batches : i.batches.rows.map Prod.fst <+: i'.batches.rows.map Prod.fst
  removals : ∀ n, i.removed n = true → i'.removed n = true

theorem Follows.refl (i : Inbox δ) : i.Follows i :=
  ⟨fun _ m h => ⟨m, h, rfl, rfl, fun _ h => h⟩, List.prefix_rfl, fun _ h => h⟩

theorem Follows.trans {i i' i'' : Inbox δ} (h : i''.Follows i') (h' : i'.Follows i) :
    i''.Follows i where
  messages n m hm := by
    obtain ⟨m', hm', hs', hid', hb'⟩ := h'.messages n m hm
    obtain ⟨m'', hm'', hs'', hid'', hb''⟩ := h.messages n m' hm'
    exact ⟨m'', hm'', hs''.trans hs', hid''.trans hid', fun b hb => hb'' b (hb' b hb)⟩
  batches := h'.batches.trans h.batches
  removals n hn := h.removals n (h'.removals n hn)

theorem follows_apply {i : Inbox δ} {w : InboxWrite δ} (hw : w.Legal i) :
    (w.apply i).Follows i := by
  cases w with
  | receipt | setPaused | source =>
    exact ⟨fun _ m h => ⟨m, h, rfl, rfl, fun _ h => h⟩, List.prefix_rfl, fun _ h => h⟩
  | admission m s r =>
    refine ⟨fun n m' hm => ⟨m', ?_, rfl, rfl, fun _ h => h⟩, List.prefix_rfl, fun _ h => h⟩
    have : n ≠ i.messages.next := (Sequenced.lt_next hm).ne
    simpa [InboxWrite.apply, admission, this] using hm
  | remove sequence =>
    refine ⟨fun n m hm => ⟨if n = sequence then m.blank else m, ?_, ?_, ?_, ?_⟩, List.prefix_rfl,
      fun n hn => (removed_remove i sequence n).2 (.inr hn)⟩
    · exact (find?_remove i sequence n).trans (by rw [hm, Option.map_some])
    all_goals split <;> first | rfl | exact fun _ h => h
  | cut session batch cutoff display =>
    obtain ⟨hfree, -⟩ := hw
    refine ⟨fun n m hm => ⟨if i.takes session cutoff n m then m.joined batch else m, ?_, ?_, ?_,
      fun b hb => ?_⟩, ?_, fun _ h => h⟩
    · exact (find?_cut i session batch cutoff display n).trans (by rw [hm, Option.map_some])
    · split <;> rfl
    · split <;> rfl
    · rw [if_neg (fun ht => by rw [(takes_iff.1 ht).2.1] at hb; cases hb)]
      exact hb
    · show _ <+: ((i.batches.insertOrIgnore batch _).rows.map Prod.fst)
      rw [Table.rows_insertOrIgnore hfree, List.map_append]
      exact List.prefix_append _ _
  | mark m =>
    refine ⟨fun _ m hm => ⟨m, hm, rfl, rfl, fun _ h => h⟩, ?_, fun _ h => h⟩
    show _ <+: ((i.batches.update m.on m.set).rows.map Prod.fst)
    simp [Table.update, List.map_map, Function.comp_def]

end Inbox

/-- A run of operations that deletes no session, as a relation on the inbox. -/
theorem follows_run [DecidableEq δ] {deps : Deps δ} {db db' : Db δ} {ops : List Op}
    (h : (keeping deps).Run db ops db') : db'.inbox.Follows db.inbox :=
  h.rel (Q := fun _ => True) (R := fun a b : Db δ => b.inbox.Follows a.inbox)
    (fun db => .refl db.inbox) (fun hab hbc => hbc.trans hab)
    (fun hstep _ => by
      obtain ⟨is, hrun, -⟩ := inbox_run_of_step hstep
      exact ⟨trivial, hrun.rel (Q := fun _ => True) (R := fun a b => b.Follows a) Inbox.Follows.refl
        (fun hab hbc => hbc.trans hab)
        (fun hnext _ => ⟨trivial, hnext.2 ▸ Inbox.follows_apply hnext.1⟩) trivial⟩)
    trivial

/-! ## How a batch advances -/

/-- A batch stays in its state, or it goes from claimed to dispatching, or from there to
consumed. -/
def Batch.Advances (b' b : Batch) : Prop :=
  b'.sessionId = b.sessionId ∧ b'.cutoff = b.cutoff ∧
    (b'.state = b.state ∨ (b.state = .claimed ∧ b'.state = .dispatching) ∨
      (b.state = .dispatching ∧ b'.state = .consumed))

/-- An operation advances a batch by one state at most. -/
theorem advances_step [DecidableEq δ] {deps : Deps δ} {db db' : Db δ} {op : Op}
    (h : (keeping deps).next db op db') {id : String} {b : Batch}
    (hb : db.inbox.batches.find? id = some b) :
    ∃ b', db'.inbox.batches.find? id = some b' ∧ b'.Advances b := by
  obtain ⟨is, hrun, hissues⟩ := inbox_run_of_step h
  by_cases hop : ∃ s t, op = .acknowledge s t
  · -- nothing is fenced
    obtain ⟨s, t, rfl⟩ := hop
    obtain ⟨b', hb', hs, hc, hstate⟩ := Inbox.batch_rel (R := fun b b' => b'.sessionId = b.sessionId ∧
        b'.cutoff = b.cutoff ∧
        (b'.state = b.state ∨ (b.state = .dispatching ∧ b'.state = .consumed)))
      (fun _ => ⟨rfl, rfl, .inl rfl⟩) (fun hab hbc => by grind) hrun (fun m hm b hon => by
        refine ⟨m.set_sessionId b, m.set_cutoff b, ?_⟩
        rcases Mark.state_set hon with h | ⟨⟨s', k, rfl⟩, -⟩ | ⟨-, h⟩
        · exact .inl h
        · simpa [Op.Issues] using hissues _ hm
        · exact .inr h) hb
    exact ⟨b', hb', hs, hc, hstate.imp_right .inr⟩
  · -- nothing is acknowledged
    obtain ⟨b', hb', hs, hc, hstate⟩ := Inbox.batch_rel (R := fun b b' => b'.sessionId = b.sessionId ∧
        b'.cutoff = b.cutoff ∧
        (b'.state = b.state ∨ (b.state = .claimed ∧ b'.state = .dispatching)))
      (fun _ => ⟨rfl, rfl, .inl rfl⟩) (fun hab hbc => by grind) hrun (fun m hm b hon => by
        refine ⟨m.set_sessionId b, m.set_cutoff b, ?_⟩
        rcases Mark.state_set hon with h | ⟨-, h⟩ | ⟨⟨s, t, rfl⟩, -⟩
        · exact .inl h
        · exact .inr h
        · exact absurd ⟨s, t, hissues _ hm⟩ hop) hb
    exact ⟨b', hb', hs, hc, hstate.imp_right .inl⟩

/-! ## The order of an inbox -/

namespace Inbox

/-- The order of the messages of an inbox, and the fate of each of them. -/
structure InOrder (i : Inbox δ) : Prop where
  /-- A session has one batch at most that is not consumed. -/
  oneOpen : ∀ a b x y, i.batches.find? a = some x → i.batches.find? b = some y →
    x.sessionId = y.sessionId → x.state ≠ .consumed → y.state ≠ .consumed → a = b
  /-- Of two batches of a session, every message of the one created first comes first. -/
  batches : i.batches.rows.Pairwise fun a b => a.2.sessionId = b.2.sessionId →
    ∀ n m n' m', i.messages.find? n = some m → m.batchId = some a.1 →
      i.messages.find? n' = some m' → m'.batchId = some b.1 → n < n'
  /-- A message that waits is above the cutoff of every batch of its session. -/
  waits : ∀ n m b batch, i.messages.find? n = some m → m.batchId = none → i.removed n = false →
    i.batches.find? b = some batch → batch.sessionId = m.sessionId → batch.cutoff < n
  /-- A message is removed and in no batch, or it waits, or it is in one batch of its session, at
  or below its cutoff. -/
  fate : ∀ n m, i.messages.find? n = some m →
    (i.removed n = true ∧ m.batchId = none) ∨ (i.removed n = false ∧ m.batchId = none) ∨
      (i.removed n = false ∧ ∃ b batch, m.batchId = some b ∧ i.batches.find? b = some batch ∧
        batch.sessionId = m.sessionId ∧ n ≤ batch.cutoff)

theorem Consistent.removed_eq_false {i : Inbox δ} (hi : i.Consistent) {n : Nat} {m : Message δ}
    {b : String} (hm : i.messages.find? n = some m) (hb : m.batchId = some b) :
    i.removed n = false := by
  by_contra hr
  obtain ⟨m', hm', hb'⟩ := hi.removals n (by simpa using hr)
  cases hm.symm.trans hm'
  rw [hb] at hb'
  cases hb'

theorem Consistent.inOrder {i : Inbox δ} (hi : i.Consistent)
    (hsound : ∀ session, (i.ledger session).Sound) : i.InOrder where
  oneOpen := hi.oneOpen
  batches := by
    rw [List.pairwise_iff_forall_sublist]
    rintro ⟨a, x⟩ ⟨b, y⟩ hsub hs n m n' m' hm hma hm' hmb
    -- both batches are in the ledger of their session, in this order
    have hfilter : [(a, x), (b, y)].Sublist
        (i.batches.rows.filter fun row => row.2.sessionId == x.sessionId) := by
      have hs' : (y.sessionId == x.sessionId) = true := by simpa using Eq.symm hs
      simpa [List.filter_cons, hs'] using hsub.filter fun row => row.2.sessionId == x.sessionId
    have hledger : [(a, (i.members x.sessionId a).map Prod.fst),
        (b, (i.members x.sessionId b).map Prod.fst)].Sublist (i.ledger x.sessionId).batches :=
      hfilter.map fun row : String × Batch =>
        (row.1, (i.members x.sessionId row.1).map Prod.fst)
    have hpair := List.pairwise_iff_forall_sublist.1 (hsound x.sessionId).batches_pairwise hledger
    have hmember : ∀ {n m b}, i.messages.find? n = some m → m.batchId = some b →
        (∃ z, i.batches.find? b = some z ∧ z.sessionId = x.sessionId) →
        n ∈ (i.members x.sessionId b).map Prod.fst := by
      rintro n m b hm hb ⟨z, hz, hzs⟩
      obtain ⟨z', hz', hzs', -⟩ := hi.batched n m b hm hb
      cases hz.symm.trans hz'
      exact List.mem_map.2 ⟨(n, m), mem_members_iff.2
        ⟨hm, hzs'.symm.trans hzs, hb, hi.removed_eq_false hm hb⟩, rfl⟩
    refine hpair n (hmember hm hma ⟨x, ?_, rfl⟩) n' (hmember hm' hmb ⟨y, ?_, hs.symm⟩)
    · exact Table.find?_eq_some_iff.2 (hsub.subset (by simp))
    · exact Table.find?_eq_some_iff.2 (hsub.subset (by simp))
  waits := hi.waits
  fate n m hm := by
    cases hb : m.batchId with
    | none =>
      cases hr : i.removed n with
      | true => exact .inl ⟨rfl, rfl⟩
      | false => exact .inr (.inl ⟨rfl, rfl⟩)
    | some b =>
      obtain ⟨batch, hbatch, hs, hn⟩ := hi.batched n m b hm hb
      exact .inr (.inr ⟨hi.removed_eq_false hm hb, b, batch, rfl, hbatch, hs, hn⟩)

end Inbox

/-- A session, its first message and the claim of it. -/
def firstClaim : List Op :=
  [.createSession 0 ⟨"agent", "codex", "native", "/work", "Agent", none, none, none⟩,
    .execute ⟨.enqueueFollowup "agent" "hello" ⟨"Hello", []⟩, "key", "owner", false, 0⟩
      ⟨.ok, .ok (), 0⟩,
    .claim "agent" "0"]

/-- In every state that operations on an empty inbox reach, the messages of each session are in
order and each has one fate; every further operation advances a batch by one state at most; and
along every further run messages keep their batches, batches are only created behind the others,
removals stay, and no message of a batch is removed. -/
theorem inbox_ledger [DecidableEq δ] (deps : Deps δ) {db₀ db : Db δ} {ops : List Op}
    (hempty : db₀.inbox = ∅) (hrun : (keeping deps).Run db₀ ops db) :
    db.inbox.InOrder ∧
    (∀ op db', (keeping deps).next db op db' → ∀ id b, db.inbox.batches.find? id = some b →
      ∃ b', db'.inbox.batches.find? id = some b' ∧ b'.Advances b) ∧
    (∀ later db', (keeping deps).Run db later db' →
      db'.inbox.Follows db.inbox ∧
      ∀ n m b, db.inbox.messages.find? n = some m → m.batchId = some b →
        db'.inbox.removed n = false) := by
  have hconsistent : db.inbox.Consistent :=
    inbox_invariant (fun hlegal hi => hi.apply hlegal) hrun (hempty ▸ Inbox.consistent_empty)
  have hsound : ∀ session, (db.inbox.ledger session).Sound := fun session => by
    obtain ⟨moves, hmoves⟩ := ledger_run hrun (hempty ▸ Inbox.consistent_empty) session
    refine Ledger.sound_run hmoves ?_
    rw [hempty, Inbox.ledger_empty]
    exact Ledger.sound_empty
  refine ⟨hconsistent.inOrder hsound, fun op db' hstep id b hb => advances_step hstep hb,
    fun later db' hlater => ?_⟩
  have hfollows := follows_run hlater
  refine ⟨hfollows, fun n m b hm hb => ?_⟩
  obtain ⟨m', hm', -, -, hb'⟩ := hfollows.messages n m hm
  exact (inbox_invariant (fun hlegal hi => hi.apply hlegal) hlater hconsistent).removed_eq_false hm'
    (hb' b hb)

/-- A session is created, gets a message and claims it. -/
theorem inbox_ledger_firstClaim : (afterAll .verbatim firstClaim ∅).inbox.InOrder :=
  (inbox_ledger .verbatim rfl (keeping_run (by decide))).1

end Nakode
