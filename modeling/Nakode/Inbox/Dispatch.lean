import Nakode.Inbox.Fifo

/-!
# At-most-once dispatch

A batch that has passed the fence is spent (`Inbox.Spent`): it has left the claimed state and no
operation brings it back. `fences` lists the batches that pass the fence along a run and `handed`
the messages that go to a provider with them; `dispatch_at_most_once` shows that neither list
repeats anything, and which turn a batch is consumed by.
-/

namespace Nakode

open Relational Transition Outcome

variable {δ : Type}

/-! ## What passes the fence -/

/-- The batch that an operation commits to its dispatch. -/
def fencedBatch [DecidableEq δ] (deps : Deps δ) (op : Op) (db : Db δ) : Option String :=
  match op, perform deps op db with
  | .fenceDispatch _ batch, .ok _ => some batch
  | .dispatch .., .ok (.handed batch, _) => batch.map (·.id)
  | _, _ => none

/-- The batches that operations commit to their dispatch, in order. -/
def fences [DecidableEq δ] (deps : Deps δ) : List Op → Db δ → List String
  | [], _ => []
  | op :: ops, db => (fencedBatch deps op db).toList ++ fences deps ops (after deps op db)

/-- The messages of a batch. -/
def Inbox.sequencesOf (i : Inbox δ) (batch : String) : List Nat :=
  (i.messages.rows.filter fun row => row.2.batchId == some batch).map Prod.fst

/-- The messages that operations hand to a provider, in order: those of each batch that passes the
fence. -/
def handed [DecidableEq δ] (deps : Deps δ) : List Op → Db δ → List Nat
  | [], _ => []
  | op :: ops, db =>
    (fencedBatch deps op db).elim [] (after deps op db).inbox.sequencesOf
      ++ handed deps ops (after deps op db)

theorem Inbox.mem_sequencesOf {i : Inbox δ} {batch : String} {n : Nat} :
    n ∈ i.sequencesOf batch ↔ ∃ m, i.messages.find? n = some m ∧ m.batchId = some batch := by
  simp [sequencesOf, Table.find?_eq_some_iff]

theorem Inbox.nodup_sequencesOf (i : Inbox δ) (batch : String) : (i.sequencesOf batch).Nodup :=
  i.messages.keys.sublist (List.filter_sublist.map _)

/-! ## Spent batches -/

/-- The batch has left the claimed state. -/
def Inbox.Spent (i : Inbox δ) (batch : String) : Prop :=
  ∃ b, i.batches.find? batch = some b ∧ b.state ≠ .claimed

/-- A spent batch stays spent. -/
theorem Inbox.Spent.step [DecidableEq δ] {deps : Deps δ} {db db' : Db δ} {op : Op} {batch : String}
    (h : db.inbox.Spent batch) (hstep : (keeping deps).next db op db') :
    db'.inbox.Spent batch := by
  obtain ⟨b, hb, hstate⟩ := h
  obtain ⟨b', hb', -, -, hadvances⟩ := advances_step hstep hb
  refine ⟨b', hb', ?_⟩
  rcases hadvances with h | ⟨h, -⟩ | ⟨-, h⟩
  · rwa [h]
  · exact absurd h hstate
  · simp [h]

/-- No claim answers a spent batch. -/
theorem claim_not_spent {db db' : Db δ} {session uuid : String} {batch : ClaimedBatch}
    (h : claim db session uuid = .ok (some batch, db')) : ¬ db.inbox.Spent batch.id := by
  rintro ⟨b, hb, hstate⟩
  obtain ⟨-, -, ⟨hnone, -⟩ | ⟨id, open', messages, -, hopen, hclaimed, -, -, hanswer, -⟩ |
    ⟨pending, last, -, -, -, hanswer, hlegal, -⟩⟩ := claim_eq_ok h
  · cases hnone
  · cases hanswer
    have hfind : db.inbox.batches.find? id = some open' :=
      Table.find?_eq_some_iff.2 (List.mem_of_find?_eq_some hopen)
    rw [hfind] at hb
    cases hb
    exact hstate hclaimed
  · cases hanswer
    have hfree := hlegal.1
    rw [hb] at hfree
    cases hfree

/-- A batch passes the fence while it is claimed, and is spent then. -/
theorem fence_spends {db db' : Db δ} {session batch : String}
    (h : fenceDispatch db session batch = .ok db') :
    ¬ db.inbox.Spent batch ∧ db'.inbox.Spent batch := by
  obtain ⟨⟨b, hb, hfenceable⟩, rfl⟩ := fenceDispatch_eq_ok h
  have hclaimed : b.state = .claimed := by
    simp only [Batch.fenceable, Bool.and_eq_true, beq_iff_eq] at hfenceable
    exact hfenceable.1.2
  constructor
  · rintro ⟨b', hb', hstate⟩
    rw [hb] at hb'
    cases hb'
    exact hstate hclaimed
  · refine ⟨{ b with state := .dispatching }, ?_, by simp⟩
    have hon : (Mark.fence session batch).on batch b = true := by simp [Mark.on, hfenceable]
    show (db.inbox.mark (.fence session batch)).batches.find? batch = _
    simp only [Inbox.find?_mark, hb, Option.map_some, hon, if_true, Mark.set]

/-- What a session's turn hands over was claimed and has passed the fence. -/
theorem dispatchSession_eq_some {db db' : Db δ} {session uuid : String}
    {prompted persisted : ClaimedBatch → Option String} {batch : ClaimedBatch}
    (h : dispatchSession db session uuid prompted persisted = (some batch, db')) :
    ∃ db₁, claim db session uuid = .ok (some batch, db₁) ∧
      fenceDispatch db₁ session batch.id = .ok db' := by
  simp only [dispatchSession] at h
  split at h
  · cases h
  · cases h
  · next claimed db₁ hclaim =>
    split at h
    · cases h
    · split at h
      · cases h
      · next hfence =>
        cases h
        exact ⟨db₁, hclaim, hfence⟩

/-- Whatever batch an operation commits to its dispatch was not spent, and is spent then. -/
theorem fencedBatch_spends [DecidableEq δ] {deps : Deps δ} {op : Op} {db : Db δ} {batch : String}
    (h : fencedBatch deps op db = some batch) :
    ¬ db.inbox.Spent batch ∧ (after deps op db).inbox.Spent batch := by
  simp only [fencedBatch] at h
  split at h
  · next session b answer hperform =>
    cases h
    obtain ⟨answer, db'⟩ := answer
    have hfence : fenceDispatch db session batch = .ok db' := by
      simp only [perform] at hperform
      cases hf : fenceDispatch db session batch with
      | error e => rw [hf] at hperform; cases hperform
      | ok db₁ => rw [hf] at hperform; cases hperform; rfl
    simp only [after, hperform]
    exact fence_spends hfence
  · next session uuid prompted persisted answer db' hperform =>
    obtain ⟨claimed, rfl, rfl⟩ := Option.map_eq_some_iff.1 h
    have hdispatch : dispatchSession db session uuid prompted persisted = (some claimed, db') := by
      simp only [perform] at hperform
      cases hd : dispatchSession db session uuid prompted persisted with
      | mk a b => rw [hd] at hperform; cases hperform; rfl
    obtain ⟨db₁, hclaim, hfence⟩ := dispatchSession_eq_some hdispatch
    simp only [after, hperform]
    exact ⟨claim_not_spent hclaim, (fence_spends hfence).2⟩
  · cases h

/-- A spent batch passes the fence no more. -/
theorem Inbox.Spent.notMem_fences [DecidableEq δ] {deps : Deps δ} {db db' : Db δ} {ops : List Op}
    {batch : String} (hrun : (keeping deps).Run db ops db') (h : db.inbox.Spent batch) :
    batch ∉ fences deps ops db := by
  induction hrun with
  | nil => simp [fences]
  | cons hnext _ ih =>
    have hspent := h.step hnext
    obtain ⟨-, rfl⟩ := hnext
    intro hmem
    rcases List.mem_append.1 hmem with hfirst | hrest
    · exact (fencedBatch_spends (by simpa using hfirst)).1 h
    · exact ih hspent hrest

/-- No batch passes the fence twice. -/
theorem nodup_fences [DecidableEq δ] {deps : Deps δ} {db db' : Db δ} {ops : List Op}
    (hrun : (keeping deps).Run db ops db') : (fences deps ops db).Nodup := by
  induction hrun with
  | nil => exact .nil
  | @cons db _ _ op _ hnext hrest ih =>
    obtain ⟨-, rfl⟩ := hnext
    rw [fences]
    cases hfenced : fencedBatch deps op db with
    | none => simpa using ih
    | some batch =>
      have hspent := (fencedBatch_spends hfenced).2
      exact List.nodup_cons.2 ⟨hspent.notMem_fences hrest, ih⟩

/-- A batch that has passed the fence is spent from then on. -/
theorem spent_of_mem_fences [DecidableEq δ] {deps : Deps δ} {db db' : Db δ} {ops : List Op}
    {batch : String} (hrun : (keeping deps).Run db ops db') (h : batch ∈ fences deps ops db) :
    db'.inbox.Spent batch := by
  induction hrun with
  | nil => simp [fences] at h
  | cons hnext hrest ih =>
    obtain ⟨-, rfl⟩ := hnext
    rcases List.mem_append.1 h with hfirst | hlater
    · have hspent := (fencedBatch_spends (by simpa using hfirst)).2
      exact hrest.invariant (Q := fun db => db.inbox.Spent batch) (fun hstep hs => hs.step hstep) hspent
    · exact ih hlater

/-! ## What is handed over -/

/-- A message that is handed over stays in the batch that it was handed over with. -/
theorem of_mem_handed [DecidableEq δ] {deps : Deps δ} {db db' : Db δ} {ops : List Op} {n : Nat}
    (hrun : (keeping deps).Run db ops db') (h : n ∈ handed deps ops db) :
    ∃ batch ∈ fences deps ops db, ∃ m, db'.inbox.messages.find? n = some m ∧
      m.batchId = some batch := by
  induction hrun with
  | nil => simp [handed] at h
  | @cons db _ _ op _ hnext hrest ih =>
    obtain ⟨-, rfl⟩ := hnext
    rcases List.mem_append.1 h with hfirst | hlater
    · cases hfenced : fencedBatch deps op db with
      | none => simp [hfenced] at hfirst
      | some batch =>
        rw [hfenced] at hfirst
        obtain ⟨m, hm, hbatch⟩ := Inbox.mem_sequencesOf.1 hfirst
        obtain ⟨m', hm', -, -, hkept⟩ := (follows_run hrest).messages n m hm
        exact ⟨batch, by simp [fences, hfenced], m', hm', hkept batch hbatch⟩
    · obtain ⟨batch, hbatch, hm⟩ := ih hlater
      exact ⟨batch, List.mem_append_right _ hbatch, hm⟩

/-- No message is handed to a provider twice. -/
theorem nodup_handed [DecidableEq δ] {deps : Deps δ} {db db' : Db δ} {ops : List Op}
    (hrun : (keeping deps).Run db ops db') : (handed deps ops db).Nodup := by
  induction hrun with
  | nil => exact .nil
  | @cons db _ _ op _ hnext hrest ih =>
    obtain ⟨-, rfl⟩ := hnext
    rw [handed]
    cases hfenced : fencedBatch deps op db with
    | none => simpa using ih
    | some batch =>
      have hspent := (fencedBatch_spends hfenced).2
      refine (Inbox.nodup_sequencesOf _ batch).append ih ?_
      intro n hfirst hlater
      -- the message would be in the batch it is handed over with now, and in the later one
      obtain ⟨m, hm, hbatch⟩ := Inbox.mem_sequencesOf.1 hfirst
      obtain ⟨m', hm', -, -, hkept⟩ := (follows_run hrest).messages n m hm
      obtain ⟨later, hfences, m'', hm'', hbatch'⟩ := of_mem_handed hrest hlater
      rw [hm'] at hm''
      cases hm''
      rw [hkept batch hbatch] at hbatch'
      cases hbatch'
      exact hspent.notMem_fences hrest hfences

/-! ## The turn of a batch -/

/-- What a mark leaves of a recorded turn: only an acknowledgement replaces it. -/
theorem Mark.providerTurnId_set {m : Mark} {id turn : String} {b : Batch} (hon : m.on id b = true)
    (hack : ∀ s t, m ≠ .acknowledge s t) (hturn : b.providerTurnId = some turn) :
    (m.set b).providerTurnId = some turn := by
  cases m with
  | accept s batch t =>
    simp only [on, hturn, Option.isNone_some, Bool.false_or, Bool.and_eq_true, beq_iff_eq,
      Option.some.injEq] at hon
    exact congrArg some hon.2.symm
  | acknowledge s t => exact absurd rfl (hack s t)
  | fence | block | unblock => exact hturn

/-- A recorded turn stays until the batch is acknowledged. -/
theorem turn_step [DecidableEq δ] {deps : Deps δ} {db db' : Db δ} {op : Op}
    (h : (keeping deps).next db op db') {id turn : String} {b : Batch}
    (hb : db.inbox.batches.find? id = some b) (hturn : b.providerTurnId = some turn)
    (hack : ∀ s t, op ≠ .acknowledge s t) :
    ∃ b', db'.inbox.batches.find? id = some b' ∧ b'.providerTurnId = some turn := by
  obtain ⟨is, hrun, hissues⟩ := inbox_run_of_step h
  obtain ⟨b', hb', hkept⟩ := Inbox.batch_rel
    (R := fun b b' => b.providerTurnId = some turn → b'.providerTurnId = some turn)
    (fun _ h => h) (fun hab hbc h => hbc (hab h)) hrun
    (fun m hm b hon => Mark.providerTurnId_set hon (by
      rintro s t rfl
      exact hack s t (hissues _ hm)))
    hb
  exact ⟨b', hb', hkept hturn⟩

/-- Only an acknowledgement consumes a batch, by the batch's own identity or by its recorded
turn. -/
theorem consumed_step [DecidableEq δ] {deps : Deps δ} {db db' : Db δ} {op : Op}
    (h : (keeping deps).next db op db') {id : String} {b b' : Batch}
    (hb : db.inbox.batches.find? id = some b) (hb' : db'.inbox.batches.find? id = some b')
    (hopen : b.state ≠ .consumed) (hconsumed : b'.state = .consumed) :
    ∃ turn, op = .acknowledge b.sessionId turn ∧ b.state = .dispatching ∧
      (turn = id ∨ b.providerTurnId = some turn) := by
  by_cases hop : ∃ s t, op = .acknowledge s t
  · obtain ⟨s, turn, rfl⟩ := hop
    obtain ⟨-, rfl⟩ := h
    have hmark : (db.inbox.mark (.acknowledge s turn)).batches.find? id = some b' := hb'
    rw [Inbox.find?_mark, hb, Option.map_some] at hmark
    by_cases hon : (Mark.acknowledge s turn).on id b = true
    · simp only [Mark.on, Bool.and_eq_true, Bool.or_eq_true, beq_iff_eq] at hon
      obtain ⟨⟨rfl, hstate⟩, hturn⟩ := hon
      exact ⟨turn, rfl, hstate, hturn.imp_left Eq.symm⟩
    · rw [if_neg hon] at hmark
      cases hmark
      exact absurd hconsumed hopen
  · obtain ⟨is, hrun, hissues⟩ := inbox_run_of_step h
    obtain ⟨b'', hb'', hkept⟩ := Inbox.batch_rel
      (R := fun b b' => b'.state = .consumed → b.state = .consumed) (fun _ h => h)
      (fun hab hbc h => hab (hbc h)) hrun
      (fun m hm b hon hset => by
        rcases Mark.state_set hon with h | ⟨-, -, h⟩ | ⟨⟨s, t, rfl⟩, -⟩
        · exact h ▸ hset
        · rw [h] at hset
          cases hset
        · exact absurd ⟨s, t, hissues _ hm⟩ hop)
      hb
    rw [hb'] at hb''
    cases hb''
    exact absurd (hkept hconsumed) hopen

/-- The turn recorded for a batch that is not consumed has been accepted. -/
def Inbox.Turns (i : Inbox δ) (id : String) (accepted : String → String → Prop) : Prop :=
  ∀ b turn, i.batches.find? id = some b → b.state ≠ .consumed → b.providerTurnId = some turn →
    accepted b.sessionId turn

theorem Inbox.Turns.apply {i : Inbox δ} {id : String} {accepted : String → String → Prop}
    {w : InboxWrite δ} (hw : w.Legal i)
    (haccept : ∀ s t, w = .mark (.accept s id t) → accepted s t) (hi : i.Turns id accepted) :
    (w.apply i).Turns id accepted := by
  cases w with
  | admission | receipt | remove | setPaused | source => exact hi
  | cut session batch cutoff display =>
    intro b turn hb hstate hturn
    have hb : (i.cut session batch cutoff display).batches.find? id = some b := hb
    simp only [cut, Table.find?_insertOrIgnore, hw.1, Option.getD_none] at hb
    split at hb
    · cases hb
      cases hturn
    · exact hi b turn hb hstate hturn
  | mark m =>
    intro b turn hb hstate hturn
    have hb : (i.mark m).batches.find? id = some b := hb
    rw [find?_mark, Option.map_eq_some_iff] at hb
    obtain ⟨b₀, hb₀, rfl⟩ := hb
    split at hstate
    · next hon =>
      rw [if_pos hon] at hturn ⊢
      have hopen := Mark.not_consumed_of_on hon
      rw [Mark.set_sessionId]
      cases m with
      | accept s batch t =>
        simp only [Mark.on, Bool.and_eq_true, beq_iff_eq] at hon
        obtain ⟨⟨⟨rfl, rfl⟩, -⟩, -⟩ := hon
        cases hturn
        exact haccept _ _ rfl
      | acknowledge s t => exact absurd rfl hstate
      | fence | block | unblock => exact hi b₀ turn hb₀ hopen hturn
    · next hon =>
      rw [if_neg hon] at hturn ⊢
      exact hi b₀ turn hb₀ hstate hturn

/-- Along a run every recorded turn was recorded by an accepted observation of it. -/
theorem turns_run [DecidableEq δ] {deps : Deps δ} {db db' : Db δ} {ops : List Op} {id : String}
    {accepted : String → String → Prop} (hrun : (keeping deps).Run db ops db')
    (haccept : ∀ s t, .observeAccepted s id t ∈ ops → accepted s t)
    (h : db.inbox.Turns id accepted) : db'.inbox.Turns id accepted := by
  have hwrites : ∀ {i i' : Inbox δ} {is : List (InboxWrite δ)}, (inboxJournal δ).Run i is i' →
      (∀ s t, .mark (.accept s id t) ∈ is → accepted s t) → i.Turns id accepted →
      i'.Turns id accepted := by
    intro i i' is hrun
    induction hrun with
    | nil => exact fun _ h => h
    | cons hnext _ ih =>
      obtain ⟨hlegal, rfl⟩ := hnext
      intro hmarks hi
      exact ih (fun s t hm => hmarks s t (List.mem_cons_of_mem _ hm))
        (hi.apply hlegal fun s t heq => hmarks s t (heq ▸ List.mem_cons_self))
  induction hrun with
  | nil => exact h
  | cons hnext _ ih =>
    obtain ⟨is, his, hissues⟩ := inbox_run_of_step hnext
    refine ih (fun s t hm => haccept s t (List.mem_cons_of_mem _ hm)) (hwrites his ?_ h)
    intro s t hm
    have hop := hissues _ hm
    exact haccept s t (hop ▸ List.mem_cons_self)

/-! ## At most once -/

/-- Along every run of operations that deletes no session, no batch passes the fence twice and no
message is handed to a provider twice. After a batch has passed the fence no claim answers it and
no fence lets it pass. A batch is consumed by an acknowledgement alone, of its own identity or of
the turn recorded for it; only accepted turns are recorded, and no operation but an acknowledgement
replaces one. -/
theorem dispatch_at_most_once [DecidableEq δ] (deps : Deps δ) {db₀ db : Db δ} {ops : List Op}
    (hrun : (keeping deps).Run db₀ ops db) :
    (fences deps ops db₀).Nodup ∧ (handed deps ops db₀).Nodup ∧
    (∀ batch ∈ fences deps ops db₀,
      (∀ session db', fenceDispatch db session batch ≠ .ok db') ∧
      ∀ session uuid claimed db', claim db session uuid = .ok (some claimed, db') →
        claimed.id ≠ batch) ∧
    (∀ op db', (keeping deps).next db op db' → ∀ id b b',
      db.inbox.batches.find? id = some b → db'.inbox.batches.find? id = some b' →
      (b.state ≠ .consumed → b'.state = .consumed →
        ∃ turn, op = .acknowledge b.sessionId turn ∧ b.state = .dispatching ∧
          (turn = id ∨ b.providerTurnId = some turn)) ∧
      ∀ turn, b.providerTurnId = some turn → (∀ s t, op ≠ .acknowledge s t) →
        b'.providerTurnId = some turn) ∧
    (∀ id b turn, db₀.inbox.batches.find? id = none → db.inbox.batches.find? id = some b →
      b.state ≠ .consumed → b.providerTurnId = some turn →
      .observeAccepted b.sessionId id turn ∈ ops) := by
  refine ⟨nodup_fences hrun, nodup_handed hrun, fun batch hbatch => ⟨?_, ?_⟩, ?_, ?_⟩
  · intro session db' hfence
    exact (fence_spends hfence).1 (spent_of_mem_fences hrun hbatch)
  · rintro session uuid claimed db' hclaim rfl
    exact claim_not_spent hclaim (spent_of_mem_fences hrun hbatch)
  · intro op db' hstep id b b' hb hb'
    refine ⟨consumed_step hstep hb hb', fun turn hturn hack => ?_⟩
    obtain ⟨b'', hb'', hkept⟩ := turn_step hstep hb hturn hack
    rw [hb'] at hb''
    cases hb''
    exact hkept
  · intro id b turn hnew hb hstate hturn
    refine turns_run hrun (fun _ _ h => h) ?_ b turn hb hstate hturn
    intro b₀ turn₀ hb₀
    rw [hnew] at hb₀
    cases hb₀

/-- The claim of a first message passes the fence once. -/
theorem dispatch_at_most_once_firstClaim :
    (fences .verbatim (firstClaim ++ [.fenceDispatch "agent" "followup-0", .acknowledge "agent"
      "followup-0"]) ∅).Nodup :=
  (dispatch_at_most_once .verbatim (keeping_run (by decide))).1

end Nakode
