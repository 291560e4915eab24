import Nakode.Inbox.Dispatch

/-!
# A claim read again

What a batch holds is not stored: each claim composes it from the rows of its messages and of their
sources. As long as the batch does not pass the fence, nothing that goes into the composition
changes (`Frozen`), whatever else happens, so the next claim that answers answers the same
(`claim_reconstructs`).
-/

namespace Nakode

open Relational Transition Outcome Fifo

variable {δ : Type}

/-! ## Operations that leave a batch unfenced -/

/-- A session's turn fences no batch but the one it hands over. -/
theorem dispatchSession_fences (db : Db δ) (session uuid : String)
    (prompted persisted : ClaimedBatch → Option String) :
    Writes (fun w => ∀ s k, w = .inbox (.mark (.fence s k)) →
        ((dispatchSession db session uuid prompted persisted).1).map (·.id) = some k) 0 db
      (dispatchSession db session uuid prompted persisted).2 := by
  simp only [dispatchSession]
  split
  · exact .refl _ _ _
  · next hclaim => exact claim_writes (fun _ _ _ _ _ _ heq => by cases heq) hclaim
  · next batch db₁ hclaim =>
    refine (claim_writes (fun _ _ _ _ _ _ heq => by cases heq) hclaim).trans (m := 0) ?_
    split
    · exact .one (w := .inbox (.mark (.block batch.id _))) trivial (fun _ _ heq => by cases heq) rfl
    · split
      · exact .refl _ _ _
      · next hfence =>
        obtain ⟨hlegal, rfl⟩ := fenceDispatch_eq_ok hfence
        exact .one hlegal (fun _ _ heq => by cases heq; rfl) rfl

/-- The writes of an operation that does not commit a batch to its dispatch. -/
theorem inbox_run_unfenced [DecidableEq δ] {deps : Deps δ} {db db' : Db δ} {op : Op}
    {batch : String} (h : (keeping deps).next db op db')
    (hunfenced : fencedBatch deps op db ≠ some batch) :
    ∃ is, (inboxJournal δ).Run db.inbox is db'.inbox ∧
      ∀ s, .mark (.fence s batch) ∉ is := by
  rcases next_cases h.2 with rfl | ⟨answer, hperform⟩
  · exact ⟨[], .nil _, fun _ => List.not_mem_nil⟩
  obtain ⟨is, hrun, hissues⟩ := inbox_run_of_step h
  cases op with
  | fenceDispatch session k =>
    refine ⟨is, hrun, fun s hmem => ?_⟩
    rcases hissues _ hmem with heq | ⟨_, _, _, heq⟩ <;> cases heq
    simp [fencedBatch, hperform] at hunfenced
  | dispatch session uuid prompted persisted =>
    -- the writes again, with the one batch that they may fence
    obtain ⟨ws, hws, hfences, hcount⟩ := dispatchSession_fences db session uuid prompted persisted
    have hkeep : ∀ w ∈ ws, w.deletes = false := by
      intro w hw
      have hstays := (List.countP_eq_zero.1 (Nat.le_zero.1 hcount)) w hw
      exact Write.deletes_of_relinks (by simpa using hstays)
    simp only [fencedBatch, perform] at hunfenced
    cases hperform
    obtain ⟨js, hjs, hmem⟩ := inbox_run_of_journal hws hkeep
    exact ⟨js, hjs, fun s hs => hunfenced (hfences _ (hmem _ hs) s batch rfl)⟩
  | _ =>
    refine ⟨is, hrun, fun s hmem => ?_⟩
    rcases hissues _ hmem with heq | ⟨_, _, _, heq⟩ <;> cases heq

/-! ## What a claimed batch is composed from -/

/-- The batch is the open one of its session, still claimed; its messages are the given rows, with
the given sources; and its display record is the given one. -/
structure Frozen (i : Inbox δ) (session batch display : String) (rows : List (Nat × Message δ))
    (source : Nat → Option Source) : Prop where
  claimed : ∃ b, i.batches.find? batch = some b ∧ b.sessionId = session ∧ b.state = .claimed
  only : ∀ id b, i.batches.find? id = some b → b.sessionId = session → b.state ≠ .consumed →
    id = batch
  members : i.members session batch = rows
  display : i.display.find? batch = some display
  /-- A message without a source was not delivered, and never gets one. -/
  sources : ∀ row ∈ rows, i.sources.find? row.1 = source row.1 ∧
    (source row.1 = none → ∀ r, i.deliveries.find? r ≠ some row.1)

/-- A batch that is claimed is the batch that is open. -/
theorem Frozen.openBatch?_ne_none {i : Inbox δ} {session batch display : String}
    {rows : List (Nat × Message δ)} {source : Nat → Option Source}
    (h : Frozen i session batch display rows source) : i.openBatch? session ≠ none := by
  intro hnone
  obtain ⟨b, hb, hs, hstate⟩ := h.claimed
  have hconsumed := Inbox.openBatch?_eq_none_iff.1 hnone batch b hb hs
  rw [hstate] at hconsumed
  cases hconsumed

/-- Every write but the fence of the batch leaves what the batch is composed from. -/
theorem Frozen.apply {i : Inbox δ} {session batch display : String}
    {rows : List (Nat × Message δ)} {source : Nat → Option Source} {w : InboxWrite δ}
    (h : Frozen i session batch display rows source) (hw : w.Legal i)
    (hfence : ∀ s, w ≠ .mark (.fence s batch)) :
    Frozen (w.apply i) session batch display rows source := by
  obtain ⟨hclaimed, honly, hmembers, hdisplay, hsources⟩ := id h
  have hrow : ∀ row ∈ rows, i.messages.find? row.1 = some row.2 ∧ row.2.sessionId = session ∧
      row.2.batchId = some batch ∧ i.removed row.1 = false := fun row hrow =>
    Inbox.mem_members_iff.1 (hmembers ▸ hrow)
  cases w with
  | receipt | setPaused => exact ⟨hclaimed, honly, hmembers, hdisplay, hsources⟩
  | admission m s report =>
    obtain ⟨-, hnone, -, -⟩ := hw
    refine ⟨hclaimed, honly, ?_, hdisplay, ?_⟩
    · exact (Inbox.members_admission hnone s report session batch).trans hmembers
    · intro row hmem
      have hlt := Sequenced.lt_next (hrow row hmem).1
      obtain ⟨hs, hr⟩ := Inbox.find?_admission m s report hlt.ne
      obtain ⟨hkept, hundelivered⟩ := hsources row hmem
      exact ⟨hs.trans hkept, fun hnosource r hr' => hundelivered hnosource r (hr r hr')⟩
  | remove sequence =>
    refine ⟨hclaimed, honly, ?_, hdisplay, hsources⟩
    obtain ⟨m, hm, hstate⟩ := hw
    -- the removed message is in no batch that is there
    have hother : m.batchId ≠ some batch := by
      intro hbatch
      obtain ⟨b, hb, -⟩ := hclaimed
      simp [Inbox.batchState?, hbatch, hb] at hstate
    refine Eq.trans ?_ hmembers
    refine (Table.filter_update_eq fun n r _ hn => ?_).trans (List.filter_congr fun row hrow => ?_)
    · rw [beq_iff_eq] at hn
      have hremoved := (Inbox.removed_remove i sequence n).2 (.inl hn)
      simp [InboxWrite.apply, hremoved]
    · by_cases hn : row.1 = sequence
      · have hm' : row.2 = m :=
          Option.some.inj ((Table.mem_rows_iff.1 hrow).symm.trans (hn ▸ hm))
        have hbatch : (m.batchId == some batch) = false := by simpa using hother
        simp [hm', hbatch]
      · have hremoved : (i.remove sequence).removed row.1 = i.removed row.1 := by
          rw [Bool.eq_iff_iff, Inbox.removed_remove]
          simp [hn]
        simp only [InboxWrite.apply, hremoved]
  | cut s b cutoff d =>
    obtain ⟨hfree, -, hnone, -⟩ := hw
    -- no other batch of the session can be cut while this one is open
    have hs : s ≠ session := by
      rintro rfl
      exact h.openBatch?_ne_none hnone
    have hb : batch ≠ b := by
      rintro rfl
      obtain ⟨x, hx, -⟩ := hclaimed
      rw [hfree] at hx
      cases hx
    refine ⟨?_, ?_, ?_, ?_, hsources⟩
    · obtain ⟨x, hx, hrest⟩ := hclaimed
      exact ⟨x, by simpa [InboxWrite.apply, Inbox.cut, hb] using hx, hrest⟩
    · intro id x hx hxs hstate
      have hx : (i.batches.insertOrIgnore b _).find? id = some x := hx
      rw [Table.find?_insertOrIgnore, hfree] at hx
      split at hx
      · cases hx
        exact absurd hxs hs
      · exact honly id x hx hxs hstate
    · refine (Table.filter_update_eq fun n r _ htakes => ?_).trans hmembers
      obtain ⟨hr, -⟩ := Inbox.takes_iff.1 htakes
      have hother : (r.sessionId == session) = false := by simpa [hr] using hs
      simp [hother]
    · simpa [InboxWrite.apply, Inbox.cut, hb] using hdisplay
  | mark m =>
    refine ⟨?_, ?_, hmembers, hdisplay, hsources⟩
    · obtain ⟨x, hx, hxs, hstate⟩ := hclaimed
      refine ⟨if m.on batch x then m.set x else x, ?_, ?_, ?_⟩
      · exact (i.find?_mark m batch).trans (by rw [hx, Option.map_some])
      · split <;> simp [hxs]
      · split
        · next hon =>
          rcases Mark.state_set hon with hkept | ⟨⟨s, k, rfl⟩, -⟩ | ⟨-, hdispatching, -⟩
          · exact hkept.trans hstate
          · have hk : batch = k := by
              simp only [Mark.on, Bool.and_eq_true, beq_iff_eq] at hon
              exact hon.1
            exact absurd (by rw [hk]) (hfence s)
          · rw [hstate] at hdispatching
            cases hdispatching
        · exact hstate
    · intro id x hx hxs hstate
      obtain ⟨x₀, hx₀, hs₀, -, hopen⟩ := Inbox.of_find?_mark hx
      exact honly id x₀ hx₀ (hs₀.symm.trans hxs) (hopen hstate)
  | source sequence s =>
    obtain ⟨hfree, report, hreport⟩ := hw
    refine ⟨hclaimed, honly, hmembers, hdisplay, fun row hmem => ?_⟩
    obtain ⟨hkept, hundelivered⟩ := hsources row hmem
    have hne : row.1 ≠ sequence := by
      intro heq
      rw [heq] at hkept hundelivered
      exact hundelivered (hkept.symm.trans hfree) report hreport
    refine ⟨?_, hundelivered⟩
    rw [← hkept]
    simp [InboxWrite.apply, hne]

theorem Frozen.writes {i i' : Inbox δ} {is : List (InboxWrite δ)} {session batch display : String}
    {rows : List (Nat × Message δ)} {source : Nat → Option Source}
    (hrun : (inboxJournal δ).Run i is i') (hmarks : ∀ s, .mark (.fence s batch) ∉ is)
    (h : Frozen i session batch display rows source) :
    Frozen i' session batch display rows source := by
  induction hrun with
  | nil => exact h
  | cons hnext _ ih =>
    obtain ⟨hlegal, rfl⟩ := hnext
    refine ih (fun s hmem => hmarks s (List.mem_cons_of_mem _ hmem)) (h.apply hlegal fun s heq => ?_)
    exact hmarks s (heq ▸ List.mem_cons_self)

/-- Along a run in which the batch does not pass the fence it stays what it is. -/
theorem Frozen.run [DecidableEq δ] {deps : Deps δ} {db db' : Db δ} {ops : List Op}
    {session batch display : String} {rows : List (Nat × Message δ)}
    {source : Nat → Option Source} (hrun : (keeping deps).Run db ops db')
    (hunfenced : batch ∉ fences deps ops db)
    (h : Frozen db.inbox session batch display rows source) :
    Frozen db'.inbox session batch display rows source := by
  induction hrun with
  | nil => exact h
  | @cons db _ _ op ops hnext hrest ih =>
    have hfenced : fencedBatch deps op db ≠ some batch := by
      intro heq
      exact hunfenced (by simp [fences, heq])
    obtain ⟨is, his, hmarks⟩ := inbox_run_unfenced hnext hfenced
    obtain ⟨-, rfl⟩ := hnext
    exact ih (fun hmem => hunfenced (List.mem_append_right _ hmem)) (h.writes his hmarks)

/-! ## The batch that is cut -/

/-- A batch that no message is in yet takes the waiting messages up to the cutoff, in their order. -/
theorem Inbox.members_cut {i : Inbox δ} {session batch : String} {cutoff : Nat} (display : String)
    (hnew : ∀ n m, i.messages.find? n = some m → m.batchId ≠ some batch) :
    (i.cut session batch cutoff display).members session batch
      = ((i.pending session).filter (·.1 ≤ cutoff)).map fun row => (row.1, row.2.joined batch) := by
  have htaken : (i.cut session batch cutoff display).members session batch
      = (i.messages.rows.filter fun row => i.takes session cutoff row.1 row.2).map
        fun row => (row.1, row.2.joined batch) := by
    refine Table.filter_update_eq_map fun n m hm => ?_
    by_cases htakes : i.takes session cutoff n m = true
    · obtain ⟨h1, -, -, h4⟩ := takes_iff.1 htakes
      have hkept : (i.cut session batch cutoff display).removed n = false := h4
      simp [htakes, h1, hkept]
    · have hother : (m.batchId == some batch) = false := by simpa using hnew n m hm
      simp [htakes, hother]
  rw [htaken, pending, List.filter_filter]
  congr 1
  refine List.filter_congr fun row _ => ?_
  rw [Bool.eq_iff_iff, takes_iff]
  simp only [Bool.and_eq_true, decide_eq_true_eq, beq_iff_eq, Bool.not_eq_true']
  constructor
  · rintro ⟨hs, hb, hn, hr⟩
    exact ⟨hn, ⟨hs, hb⟩, hr⟩
  · rintro ⟨hn, ⟨hs, hb⟩, hr⟩
    exact ⟨hs, hb, hn, hr⟩

/-- Two readings of the same rows answer the same, when the sources are the same. -/
theorem readEach_joined {db db' : Db δ} {session batch : String} {rows : List (Nat × Message δ)}
    {messages messages' : List StoredMessage}
    (h : List.Forall₂ (fun row m => readMessage db session row = .ok m) rows messages)
    (h' : readEach db' session (rows.map fun row => (row.1, row.2.joined batch)) = .ok messages')
    (hsources : ∀ row ∈ rows, db'.inbox.sources.find? row.1 = db.inbox.sources.find? row.1) :
    messages' = messages := by
  induction h generalizing messages' with
  | nil => exact (Except.ok.inj h').symm
  | @cons row m rows messages hrow _ ih =>
    simp only [List.map_cons, readEach, bind_eq_ok, pure_eq_ok] at h'
    obtain ⟨m', hm', ms', hms', rfl⟩ := h'
    have hrest := ih hms' fun r hr => hsources r (List.mem_cons_of_mem _ hr)
    have hsource := hsources row List.mem_cons_self
    obtain ⟨-, input, hinput, rfl⟩ := readMessage_eq_ok hrow
    obtain ⟨-, input', hinput', rfl⟩ := readMessage_eq_ok hm'
    have hinput' : row.2.prompt = some input' := hinput'
    rw [hinput] at hinput'
    cases hinput'
    rw [hrest]
    simp [hsource, Message.joined]

/-- A message that waits without a source was not delivered, where the evidence may be claimed. -/
theorem undelivered_of_authorized {db : Db δ} {session : String} {row : Nat × Message δ}
    (h : authorizedChildMessages db session = true) (hrow : row ∈ db.inbox.pending session)
    (hsource : db.inbox.sources.find? row.1 = none) (r : Nat) :
    db.inbox.deliveries.find? r ≠ some row.1 := by
  intro hr
  obtain ⟨hfind, hs, hb, hremoved⟩ := Inbox.mem_pending_iff.1 hrow
  simp only [authorizedChildMessages, Bool.not_eq_true', Table.has_eq_false_iff] at h
  have hdelivered : db.inbox.deliveries.has (fun _ n => n == row.1) = true :=
    Table.has_iff.2 ⟨r, row.1, hr, by simp⟩
  have hrefused := h row.1 row.2 hfind
  simp [hs, hremoved, Inbox.undelivered, hb, hdelivered, hsource, authorizedEvidence] at hrefused

/-- What a new claim freezes: the rows that it read, now in the batch, with their sources. -/
theorem frozen_of_claim {db db₁ : Db δ} {session uuid : String} {batch : ClaimedBatch}
    (hforeign : ∀ n m b, db.inbox.messages.find? n = some m → m.batchId = some b →
      (db.inbox.batches.find? b).isSome)
    (hnew : db.inbox.openBatch? session = none)
    (hclaim : claim db session uuid = .ok (some batch, db₁)) :
    ∃ rows messages, rows.length ≤ batchLimit ∧
      List.Forall₂ (fun row m => readMessage db session row = .ok m) rows messages ∧
      batch.prompt = combine messages ∧ batch.coordinationJson = displayJson messages ∧
      Frozen db₁.inbox session batch.id batch.coordinationJson
        (rows.map fun row => (row.1, row.2.joined batch.id)) db.inbox.sources.find? := by
  obtain ⟨-, hevidence, ⟨hnone, -⟩ | ⟨id, b, messages, -, hopen, -⟩ |
    ⟨messages, last, -, hread, hlast, hanswer, hlegal, rfl⟩⟩ := claim_eq_ok hclaim
  · cases hnone
  · rw [hnew] at hopen
    cases hopen
  cases hanswer
  obtain ⟨hfree, hfreeDisplay, -, -⟩ := hlegal
  -- the batch takes a prefix of the waiting rows
  have hselected : messages.take (boundedPrefix messages).length = boundedPrefix messages :=
    (List.prefix_iff_eq_take.1 (boundedPrefix_isPrefix messages)).symm
  have hforall := List.forall₂_take (boundedPrefix messages).length (readEach_eq_ok.1 hread)
  rw [hselected] at hforall
  generalize hrows : ((db.inbox.pending session).take batchLimit).take
    (boundedPrefix messages).length = rows at hforall
  have hinitial : rows <+: db.inbox.pending session := by
    rw [← hrows]
    exact (List.take_prefix ..).trans (List.take_prefix ..)
  have hsequences : (boundedPrefix messages).map (·.sequence) = rows.map (·.1) :=
    readEach_sequences (readEach_eq_ok.2 hforall)
  obtain ⟨row, hrow, hcutoff⟩ : ∃ row, rows.getLast? = some row ∧ row.1 = last.sequence := by
    have hlast' : (rows.map (·.1)).getLast? = some last.sequence := by
      rw [← hsequences, List.getLast?_map, hlast, Option.map_some]
    rw [List.getLast?_map, Option.map_eq_some_iff] at hlast'
    exact hlast'
  have hsorted : (db.inbox.pending session).Pairwise fun x y => x.1 < y.1 :=
    db.inbox.messages.ordered.sublist List.filter_sublist
  have htaken : (db.inbox.pending session).filter (fun r => r.1 ≤ last.sequence) = rows := by
    rw [← hcutoff]
    exact Ledger.filter_le_getLast hsorted hinitial hrow
  have hnone : ∀ n m, db.inbox.messages.find? n = some m →
      m.batchId ≠ some ("followup-" ++ uuid) := by
    intro n m hm hb
    have hsome := hforeign n m _ hm hb
    rw [hfree] at hsome
    cases hsome
  have hundelivered : ∀ r ∈ rows, db.inbox.sources.find? r.1 = none →
      ∀ k, db.inbox.deliveries.find? k ≠ some r.1 := fun r hr =>
    undelivered_of_authorized hevidence (hinitial.subset hr)
  refine ⟨rows, boundedPrefix messages, ?_, hforall, rfl, rfl, ?_, ?_, ?_, ?_, ?_⟩
  · rw [← hrows, List.take_take, List.length_take]
    omega
  · exact ⟨⟨session, last.sequence, .claimed, none, none⟩,
      by simp [Write.apply, InboxWrite.apply, Inbox.cut, hfree], rfl, rfl⟩
  · intro id b hb hs hstate
    have hb : (db.inbox.batches.insertOrIgnore ("followup-" ++ uuid) _).find? id = some b := hb
    rw [Table.find?_insertOrIgnore] at hb
    split at hb
    · next hid => exact hid
    · exact absurd (Inbox.openBatch?_eq_none_iff.1 hnew id b hb hs) hstate
  · exact (Inbox.members_cut _ hnone).trans (by rw [htaken])
  · simp [Write.apply, InboxWrite.apply, Inbox.cut, hfreeDisplay]
  · intro row' hmem
    obtain ⟨r, hr, rfl⟩ := List.mem_map.1 hmem
    exact ⟨rfl, hundelivered r hr⟩

/-! ## The claim again -/

/-- A claim that commits a new batch is answered again by every later claim that answers, as long
as the batch does not pass the fence: under the same identity, with the same prompt and the same
display record, which is the stored one, and from messages that were there at the first claim. -/
theorem claim_reconstructs [DecidableEq δ] (deps : Deps δ) {db db₁ db₂ db₃ : Db δ}
    {session uuid uuid' : String} {batch batch' : ClaimedBatch} {ops : List Op}
    (hforeign : ∀ n m b, db.inbox.messages.find? n = some m → m.batchId = some b →
      (db.inbox.batches.find? b).isSome)
    (hnew : db.inbox.openBatch? session = none)
    (hclaim : claim db session uuid = .ok (some batch, db₁))
    (hrun : (keeping deps).Run db₁ ops db₂) (hunfenced : batch.id ∉ fences deps ops db₁)
    (hagain : claim db₂ session uuid' = .ok (some batch', db₃)) :
    batch' = batch ∧
      db₁.inbox.display.find? batch.id = some batch.coordinationJson ∧
      db₂.inbox.display.find? batch.id = some batch.coordinationJson ∧
      ∀ row ∈ db₂.inbox.members session batch.id, row.1 < db₁.inbox.messages.next := by
  obtain ⟨rows, messages, hlength, hread, hprompt, hjson, hfrozen⟩ :=
    frozen_of_claim hforeign hnew hclaim
  have hlater := hfrozen.run hrun hunfenced
  refine ⟨?_, hfrozen.display, hlater.display, ?_⟩
  · obtain ⟨-, -, ⟨hnone, -⟩ | ⟨id, b, messages', -, hopen, -, -, hread', hanswer, -⟩ |
      ⟨_, _, -, -, -, -, hlegal, -⟩⟩ := claim_eq_ok hagain
    · cases hnone
    · cases hanswer
      -- the open batch is the one that was claimed
      have hopen' := List.find?_some hopen
      simp only [Bool.and_eq_true, beq_iff_eq, bne_iff_ne, ne_eq] at hopen'
      have hid : id = batch.id := hlater.only id b
        (Table.find?_eq_some_iff.2 (List.mem_of_find?_eq_some hopen)) hopen'.1 hopen'.2
      subst hid
      have hall : (db₂.inbox.members session batch.id).take batchLimit
          = rows.map fun row => (row.1, row.2.joined batch.id) := by
        rw [hlater.members, List.take_of_length_le (by simpa using hlength)]
      have hread' : readEach db₂ session ((db₂.inbox.members session batch.id).take batchLimit)
          = .ok messages' := hread'
      rw [hall] at hread'
      have hsources : ∀ row ∈ rows,
          db₂.inbox.sources.find? row.1 = db.inbox.sources.find? row.1 := fun row hrow =>
        (hlater.sources _ (List.mem_map_of_mem hrow)).1
      obtain rfl := readEach_joined hread hread' hsources
      rw [← hprompt, ← hjson]
    · exact absurd hlegal.2.2.1 hlater.openBatch?_ne_none
  · intro row hrow
    rw [hlater.members, ← hfrozen.members] at hrow
    exact Sequenced.lt_next (Inbox.mem_members_iff.1 hrow).1

/-- Two claims of a session, one after the other, both give a batch. -/
def claimedTwice (db : Db δ) : Bool :=
  match claim db "agent" "0" with
  | .ok (some _, db₁) =>
    match claim db₁ "agent" "1" with
    | .ok (some _, _) => true
    | _ => false
  | _ => false

/-- The claim of a first message, and the claim after it. -/
theorem claim_reconstructs_firstClaim :
    ∃ batch db₁ db₃, claim (afterAll .verbatim (firstClaim.take 2) ∅) "agent" "0"
        = .ok (some batch, db₁) ∧ claim db₁ "agent" "1" = .ok (some batch, db₃) := by
  generalize hdb : afterAll .verbatim (firstClaim.take 2) ∅ = db
  have hwaits : (db.inbox.messages.rows.all (·.2.batchId.isNone)) = true := by
    rw [← hdb]
    decide +kernel
  have hnew : db.inbox.openBatch? "agent" = none := by
    rw [← hdb]
    decide +kernel
  have hclaims : claimedTwice db = true := by
    rw [← hdb]
    decide +kernel
  rw [claimedTwice] at hclaims
  split at hclaims
  · next batch db₁ hclaim =>
    split at hclaims
    · next batch' db₃ hagain =>
      have hforeign : ∀ n m b, db.inbox.messages.find? n = some m → m.batchId = some b →
          (db.inbox.batches.find? b).isSome := by
        intro n m b hm hb
        have hnone := List.all_eq_true.1 hwaits (n, m) (Table.find?_eq_some_iff.1 hm)
        simp [hb] at hnone
      obtain ⟨rfl, -⟩ := claim_reconstructs .verbatim hforeign hnew hclaim (.nil db₁)
        (by simp [fences]) hagain
      exact ⟨batch', db₁, db₃, hclaim, hagain⟩
    · cases hclaims
  · cases hclaims

end Nakode
