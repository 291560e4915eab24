import Nakode.Sync.Histories
import Nakode.Lib.Spans
import Nakode.Lib.Trace

/-!
# Replay from a cursor

A server keeps, beside its histories, the log of every publication that a history took up and the
incarnations that were ever given out (`Server`). Whatever is done to the histories (`Op`), each of
them tracks the log (`Server.Tracks`): what it retains is an end of the log of its incarnation, and
that log is contiguous up to the cursor. Expiry and the limits only drop batches from the front of a
history or a history as a whole (`SessionHistories.Trims`), which keeps that. So a cursor that is
answered with batches receives the log from its revision on, and any other cursor starts over
(`history_replay`).
-/

namespace Nakode.Sync

open Relational Transition

variable {ε : Type}

/-- A publication that a history took up. -/
structure Publication (ε : Type) where
  incarnation : String
  base : Nat
  next : Nat
  events : List ε

/-- The batch in which a client with the cursor reads the publication. -/
def Publication.batch (cursor : SessionSyncCursor) (p : Publication ε) : SessionChangeBatch ε :=
  ⟨{ cursor with revision := p.base }, { cursor with revision := p.next }, p.events⟩

/-- The publication that `record` appends to a history, when it does. -/
def SessionHistories.taken? (h : SessionHistories) (codec : Codec ε) (session : String)
    (base : Option Nat) (next : Nat) (events : List ε) : Option (Publication ε) :=
  ((h.sessions.find? session).filter fun history =>
    base == some history.cursor.revision && history.cursor.revision < next
      && (h.encodeBounded codec events).isSome).map
    fun history => ⟨history.cursor.incarnation, history.cursor.revision, next, events⟩

structure Server (ε : Type) where
  histories : SessionHistories
  log : List (Publication ε)
  used : List String

inductive Op (ε : Type) where
  | establish (session : String) (revision : Nat) (uuid : String)
  | record (session : String) (base : Option Nat) (next : Nat) (events : List ε) (nowMs : Nat)
  | remove (session : String)
  | changes (cursor : SessionSyncCursor) (nowMs : Nat)

namespace Server

/-- The cursor of a session's history. -/
def current (s : Server ε) (session : String) : Option SessionSyncCursor :=
  (s.histories.sessions.find? session).map (·.cursor)

/-- The log of one incarnation. -/
def published (s : Server ε) (incarnation : String) : List (Publication ε) :=
  s.log.filter (·.incarnation == incarnation)

/-- The batches of a cursor's incarnation from the cursor's revision on. -/
def since (s : Server ε) (cursor : SessionSyncCursor) : List (SessionChangeBatch ε) :=
  ((s.published cursor.incarnation).filter (cursor.revision ≤ ·.base)).map (·.batch cursor)

def apply (codec : Codec ε) (s : Server ε) : Op ε → Server ε
  | .establish session revision uuid =>
    { s with
      histories := (s.histories.establish session revision uuid).2
      used := uuid :: s.used }
  | .record session base next events nowMs =>
    { s with
      histories := s.histories.record codec session base next events nowMs
      log := s.log ++ (s.histories.taken? codec session base next events).toList }
  | .remove session => { s with histories := s.histories.remove session }
  | .changes cursor nowMs =>
    { s with histories := (s.histories.changes codec cursor nowMs).2 }

/-- An incarnation is a fresh UUID. -/
def Fresh (s : Server ε) : Op ε → Prop
  | .establish _ _ uuid => uuid ∉ s.used
  | _ => True

def system (codec : Codec ε) : System (Server ε) (Op ε) where
  next s op s' := s.Fresh op ∧ s' = s.apply codec op

/-- A server without histories, under any limits. -/
def start (maxBytes maxBatches maxSessions maxAgeMs : Nat) : Server ε :=
  ⟨⟨∅, [], maxBytes, maxBatches, maxSessions, maxAgeMs⟩, [], []⟩

end Server

/-! ## Trimmed histories -/

namespace SessionHistories

/-- Every history is one of the others with batches missing at the front. -/
def Trims (h' h : SessionHistories) : Prop :=
  ∀ session history', h'.sessions.find? session = some history' →
    ∃ history, h.sessions.find? session = some history ∧ history'.cursor = history.cursor
      ∧ history'.batches <:+ history.batches

theorem Trims.refl (h : SessionHistories) : Trims h h :=
  fun _ history' hfind => ⟨history', hfind, rfl, List.suffix_refl _⟩

theorem Trims.trans {h₁ h₂ h₃ : SessionHistories} (h : Trims h₁ h₂) (h' : Trims h₂ h₃) :
    Trims h₁ h₃ := by
  intro session history₁ hfind
  obtain ⟨history₂, hfind₂, hcursor, hsuffix⟩ := h session history₁ hfind
  obtain ⟨history₃, hfind₃, hcursor', hsuffix'⟩ := h' session history₂ hfind₂
  exact ⟨history₃, hfind₃, hcursor.trans hcursor', hsuffix.trans hsuffix'⟩

/-- Deleting histories trims. -/
theorem Trims.delete {h h' : SessionHistories} {p : String → History → Bool}
    (hsessions : h'.sessions = h.sessions.delete p) : Trims h' h := by
  intro session history' hfind
  rw [hsessions, Table.find?_delete] at hfind
  exact ⟨history', (Option.filter_eq_some_iff.1 hfind).1, rfl, List.suffix_refl _⟩

theorem remove_trims (h : SessionHistories) (session : String) : Trims (h.remove session) h :=
  Trims.delete (p := fun id _ => id == session) rfl

theorem expire_trims (h : SessionHistories) (nowMs : Nat) : Trims (h.expire nowMs) h := by
  intro session history' hfind
  simp only [expire, Table.find?_update, if_true, Option.map_eq_some_iff] at hfind
  obtain ⟨history, hfind, rfl⟩ := hfind
  exact ⟨history, hfind, rfl, List.dropWhile_suffix _⟩

theorem enforceFrom_trims (h : SessionHistories) (order : List String) :
    Trims (h.enforceFrom order) h := by
  induction order generalizing h with
  | nil => exact Trims.refl h
  | cons oldest order ih =>
    rw [enforceFrom]
    split
    · exact Trims.refl h
    · exact (ih _).trans (Trims.delete (p := fun id _ => id == oldest) rfl)

theorem enforceLimits_trims (h : SessionHistories) : Trims h.enforceLimits h :=
  h.enforceFrom_trims h.order

/-- A removed session has no history. -/
theorem find?_remove (h : SessionHistories) (session : String) :
    (h.remove session).sessions.find? session = none := by
  simp [remove]

/-- Expiry keeps the cursor of every history. -/
theorem find?_expire (h : SessionHistories) (session : String) (nowMs : Nat) :
    ((h.expire nowMs).sessions.find? session).map (·.cursor)
      = (h.sessions.find? session).map (·.cursor) := by
  simp [expire, Option.map_map, Function.comp_def]

/-- Expiry does not change what a history takes up. -/
theorem taken?_expire (h : SessionHistories) (codec : Codec ε) (session : String)
    (base : Option Nat) (next : Nat) (events : List ε) (nowMs : Nat) :
    (h.expire nowMs).taken? codec session base next events
      = h.taken? codec session base next events := by
  simp only [taken?, expire, encodeBounded, Table.find?_update, if_true, Option.filter_map,
    Option.map_map, Function.comp_def]
  rfl

/-- Reading only lets batches expire. -/
theorem changes_snd (h : SessionHistories) (codec : Codec ε) (cursor : SessionSyncCursor)
    (nowMs : Nat) : (h.changes codec cursor nowMs).2 = h.expire nowMs := by
  simp only [changes]
  repeat' split
  all_goals rfl

/-- What `record` does to the histories after expiry: a history that takes the publication up has
it appended, and every other one of the session ends. -/
theorem record_cases (h : SessionHistories) (codec : Codec ε) (session : String)
    (base : Option Nat) (next : Nat) (events : List ε) (nowMs : Nat) :
    (h.taken? codec session base next events = none
      ∧ (h.record codec session base next events nowMs).sessions.find? session = none
      ∧ (h.record codec session base next events nowMs).Trims (h.expire nowMs)) ∨
    ∃ history encoded order,
      (h.expire nowMs).sessions.find? session = some history
      ∧ history.cursor.revision < next ∧ codec.encode events = some encoded
      ∧ h.taken? codec session base next events
          = some ⟨history.cursor.incarnation, history.cursor.revision, next, events⟩
      ∧ h.record codec session base next events nowMs
          = enforceLimits { h.expire nowMs with
              sessions := (h.expire nowMs).sessions.update (fun id _ => id == session)
                fun row =>
                  { cursor := { row.cursor with revision := next }
                    batches := row.batches ++ [⟨history.cursor.revision, next, nowMs, encoded⟩] }
              order := order } := by
  rw [← h.taken?_expire codec session base next events nowMs]
  simp only [record, taken?]
  generalize h.expire nowMs = h
  cases hfind : h.sessions.find? session with
  | none => exact .inl ⟨rfl, hfind, Trims.refl h⟩
  | some history =>
    by_cases hcontinues : base = some history.cursor.revision ∧ history.cursor.revision < next
    · obtain ⟨rfl, hnext⟩ := hcontinues
      cases hencoded : h.encodeBounded codec events with
      | none => exact .inl (by simp [h.find?_remove, h.remove_trims])
      | some encoded =>
        have hencode := (Option.filter_eq_some_iff.1 hencoded).1
        refine .inr ⟨history, encoded, h.order.filter (· != session) ++ [session], rfl, hnext,
          hencode, by simp [hnext], ?_⟩
        simp only [bne_self_eq_false, Bool.false_or, decide_eq_true_eq, if_neg (not_le_of_gt hnext)]
    · refine .inl ?_
      have hrefused : (base != some history.cursor.revision || next ≤ history.cursor.revision)
          = true := by
        rw [Bool.or_eq_true, bne_iff_ne, decide_eq_true_eq, ← not_lt, ← not_and_or]
        exact hcontinues
      simp only [if_pos hrefused]
      refine ⟨?_, h.find?_remove session, h.remove_trims session⟩
      simp only [Option.map_eq_none_iff, Option.filter_eq_none_iff, Option.some.injEq]
      grind

end SessionHistories

/-! ## Histories track the log -/

/-- A batch stores a publication. -/
structure StoredBatch.Stores (codec : Codec ε) (b : StoredBatch) (p : Publication ε) : Prop where
  base : b.base = p.base
  next : b.next = p.next
  events : codec.decode b.encoded = some p.events

theorem StoredBatch.Stores.bases {codec : Codec ε} {batches : List StoredBatch}
    {kept : List (Publication ε)} (h : List.Forall₂ (StoredBatch.Stores codec) batches kept) :
    batches.map (·.base) = kept.map (·.base) := by
  induction h with
  | nil => rfl
  | cons hstores _ ih => rw [List.map_cons, List.map_cons, hstores.base, ih]

/-- What a history retains is an end of a log that is contiguous up to its cursor. -/
def History.Tracks (codec : Codec ε) (history : History) (log : List (Publication ε)) : Prop :=
  ∃ dropped kept, log = dropped ++ kept
    ∧ (∃ first, Spans Publication.base Publication.next first log history.cursor.revision)
    ∧ List.Forall₂ (StoredBatch.Stores codec) history.batches kept

theorem History.Tracks.trim {codec : Codec ε} {history history' : History}
    {log : List (Publication ε)} (h : history.Tracks codec log)
    (hcursor : history'.cursor = history.cursor) (hsuffix : history'.batches <:+ history.batches) :
    history'.Tracks codec log := by
  obtain ⟨dropped, kept, hlog, hspans, hstores⟩ := h
  rw [List.suffix_iff_eq_drop] at hsuffix
  generalize history.batches.length - history'.batches.length = n at hsuffix
  refine ⟨dropped ++ kept.take n, kept.drop n, ?_, hcursor ▸ hspans, ?_⟩
  · rw [hlog, List.append_assoc, List.take_append_drop]
  · rw [hsuffix]
    exact List.forall₂_drop n hstores

namespace Server

structure Tracked (codec : Codec ε) (s : Server ε) : Prop where
  history : ∀ session history, s.histories.sessions.find? session = some history →
    history.cursor.sessionId = session ∧ history.cursor.incarnation ∈ s.used
      ∧ history.Tracks codec (s.published history.cursor.incarnation)
  distinct : ∀ session session' history history',
    s.histories.sessions.find? session = some history →
    s.histories.sessions.find? session' = some history' →
    history.cursor.incarnation = history'.cursor.incarnation → session = session'
  known : ∀ p ∈ s.log, p.incarnation ∈ s.used

namespace Tracked

variable {codec : Codec ε} {s : Server ε}

theorem start (maxBytes maxBatches maxSessions maxAgeMs : Nat) :
    Tracked codec (start maxBytes maxBatches maxSessions maxAgeMs : Server ε) where
  history _ _ hfind := by simp [Server.start] at hfind
  distinct _ _ _ _ hfind := by simp [Server.start] at hfind
  known _ hp := by simp [Server.start] at hp

theorem trim {h : SessionHistories} (hs : s.Tracked codec) (htrims : h.Trims s.histories) :
    ({ s with histories := h } : Server ε).Tracked codec where
  history session history' hfind := by
    obtain ⟨history, hfind, hcursor, hsuffix⟩ := htrims session history' hfind
    obtain ⟨hsession, hused, htracks⟩ := hs.history session history hfind
    rw [← hcursor] at hsession hused htracks
    exact ⟨hsession, hused, htracks.trim hcursor hsuffix⟩
  distinct session session' history history' hfind hfind' heq := by
    obtain ⟨_, hfind, hcursor, -⟩ := htrims session history hfind
    obtain ⟨_, hfind', hcursor', -⟩ := htrims session' history' hfind'
    exact hs.distinct _ _ _ _ hfind hfind' (by rw [← hcursor, ← hcursor', heq])
  known := hs.known

/-- An incarnation that was not given out has no log. -/
theorem published_fresh (hs : s.Tracked codec) {uuid : String} (hfresh : uuid ∉ s.used) :
    s.published uuid = [] := by
  refine List.filter_eq_nil_iff.2 fun p hp heq => hfresh ?_
  exact beq_iff_eq.1 heq ▸ hs.known p hp

/-- An incarnation can be marked as given out. -/
theorem use (hs : s.Tracked codec) (uuid : String) :
    ({ s with used := uuid :: s.used } : Server ε).Tracked codec where
  history session history hfind := by
    obtain ⟨hsession, hused, htracks⟩ := hs.history session history hfind
    exact ⟨hsession, List.mem_cons_of_mem _ hused, htracks⟩
  distinct := hs.distinct
  known p hp := List.mem_cons_of_mem _ (hs.known p hp)

/-- A session without a history gets an empty one under a fresh incarnation. -/
theorem insert (hs : s.Tracked codec) {session uuid : String} (revision : Nat)
    (order : List String) (hnone : s.histories.sessions.find? session = none)
    (hfresh : uuid ∉ s.used) :
    ({ s with
        histories := { s.histories with
          sessions := s.histories.sessions.insertOrIgnore session ⟨⟨session, uuid, revision⟩, []⟩
          order := order }
        used := uuid :: s.used } : Server ε).Tracked codec := by
  have hcases : ∀ {session' history},
      (s.histories.sessions.insertOrIgnore session ⟨⟨session, uuid, revision⟩, []⟩).find? session'
        = some history →
      session' = session ∧ history = ⟨⟨session, uuid, revision⟩, []⟩
        ∨ session' ≠ session ∧ s.histories.sessions.find? session' = some history := by
    intro session' history hfind
    rw [Table.find?_insertOrIgnore] at hfind
    grind
  constructor
  · intro session' history hfind
    rcases hcases hfind with ⟨rfl, rfl⟩ | ⟨-, hfind⟩
    · refine ⟨rfl, List.mem_cons_self, [], [], ?_, ⟨revision, ?_⟩, .nil⟩
      · exact hs.published_fresh hfresh
      · have hpublished := hs.published_fresh hfresh
        unfold published at hpublished ⊢
        rw [hpublished]
        rfl
    · exact (hs.use uuid).history session' history hfind
  · intro session₁ session₂ history₁ history₂ hfind₁ hfind₂ heq
    rcases hcases hfind₁ with ⟨rfl, rfl⟩ | ⟨-, hold₁⟩ <;>
      rcases hcases hfind₂ with ⟨rfl, rfl⟩ | ⟨-, hold₂⟩
    · rfl
    · have hused := (hs.history _ _ hold₂).2.1
      rw [← heq] at hused
      exact absurd hused hfresh
    · have hused := (hs.history _ _ hold₁).2.1
      rw [heq] at hused
      exact absurd hused hfresh
    · exact hs.distinct _ _ _ _ hold₁ hold₂ heq
  · exact (hs.use uuid).known

/-- A publication is appended to the history that it continues and to the log. -/
theorem append (hs : s.Tracked codec) {session : String} {history : History} {next nowMs : Nat}
    {events : List ε} {encoded : List UInt8} (order : List String)
    (hfind : s.histories.sessions.find? session = some history)
    (hnext : history.cursor.revision < next) (hdecode : codec.decode encoded = some events) :
    ({ s with
        histories := { s.histories with
          sessions := s.histories.sessions.update (fun id _ => id == session) fun row =>
            { cursor := { row.cursor with revision := next }
              batches := row.batches ++ [⟨history.cursor.revision, next, nowMs, encoded⟩] }
          order := order }
        log := s.log ++ [⟨history.cursor.incarnation, history.cursor.revision, next, events⟩] } :
      Server ε).Tracked codec := by
  obtain ⟨hsession, hused, dropped, kept, hlog, ⟨first, hspans⟩, hstores⟩ :=
    hs.history session history hfind
  constructor
  · intro session' history' hfind'
    simp only [Table.find?_update, beq_iff_eq, Option.map_eq_some_iff] at hfind'
    obtain ⟨history₀, hfind₀, rfl⟩ := hfind'
    by_cases heq : session' = session
    · subst heq
      cases hfind.symm.trans hfind₀
      rw [if_pos rfl]
      refine ⟨hsession, hused, dropped,
        kept ++ [⟨history.cursor.incarnation, history.cursor.revision, next, events⟩], ?_,
        ⟨first, ?_⟩, ?_⟩
      · simp only [published, List.filter_append] at hlog ⊢
        rw [hlog, List.append_assoc]
        simp
      · simp only [published, List.filter_append] at hspans ⊢
        have happended : Spans Publication.base Publication.next history.cursor.revision
            [⟨history.cursor.incarnation, history.cursor.revision, next, events⟩] next :=
          Spans.singleton hnext
        simpa using hspans.append happended
      · exact List.rel_append hstores (.cons ⟨rfl, rfl, hdecode⟩ .nil)
    · rw [if_neg heq]
      obtain ⟨hsession', hused', htracks'⟩ := hs.history session' history₀ hfind₀
      have hne : history.cursor.incarnation ≠ history₀.cursor.incarnation := fun h =>
        heq (hs.distinct _ _ _ _ hfind hfind₀ h).symm
      refine ⟨hsession', hused', ?_⟩
      simpa [published, hne] using htracks'
  · intro session₁ session₂ history₁ history₂ hfind₁ hfind₂ hincarnation
    simp only [Table.find?_update, Option.map_eq_some_iff] at hfind₁ hfind₂
    obtain ⟨_, hfind₁, rfl⟩ := hfind₁
    obtain ⟨_, hfind₂, rfl⟩ := hfind₂
    refine hs.distinct _ _ _ _ hfind₁ hfind₂ ?_
    split at hincarnation <;> split at hincarnation <;> exact hincarnation
  · intro p hp
    rcases List.mem_append.1 hp with hp | hp
    · exact hs.known p hp
    · cases List.mem_singleton.1 hp
      exact hused

theorem step {op : Op ε} (hcodec : ∀ events encoded, codec.encode events = some encoded →
      codec.decode encoded = some events)
    (hs : s.Tracked codec) (hfresh : s.Fresh op) : (s.apply codec op).Tracked codec := by
  cases op with
  | establish session revision uuid =>
    simp only [apply, SessionHistories.establish]
    split
    · exact hs.use uuid
    · have hremoved := hs.trim (s.histories.remove_trims session)
      exact (hremoved.insert revision _ (s.histories.find?_remove session) hfresh).trim
        (SessionHistories.enforceLimits_trims _)
  | record session base next events nowMs =>
    have hexpired := hs.trim (s.histories.expire_trims nowMs)
    simp only [apply]
    rcases s.histories.record_cases codec session base next events nowMs with
      ⟨htaken, -, htrims⟩ | ⟨history, encoded, order, hfind, hnext, hencode, htaken, hrecord⟩
    · rw [htaken, Option.toList_none, List.append_nil]
      exact hexpired.trim htrims
    · rw [htaken, hrecord]
      exact (hexpired.append order hfind hnext (hcodec _ _ hencode)).trim
        (SessionHistories.enforceLimits_trims _)
  | remove session => exact hs.trim (s.histories.remove_trims session)
  | changes cursor nowMs =>
    simp only [apply, SessionHistories.changes_snd]
    exact hs.trim (s.histories.expire_trims nowMs)

/-- A run from no histories leaves every history tracked. -/
theorem run {ops : List (Op ε)} {maxBytes maxBatches maxSessions maxAgeMs : Nat}
    (hcodec : ∀ events encoded, codec.encode events = some encoded →
      codec.decode encoded = some events)
    (h : (system codec).Run (Server.start maxBytes maxBatches maxSessions maxAgeMs) ops s) :
    s.Tracked codec := by
  refine h.invariant (Q := Tracked codec) ?_ (start maxBytes maxBatches maxSessions maxAgeMs)
  rintro s op s' ⟨hfresh, rfl⟩ hs
  exact hs.step hcodec hfresh

end Tracked

end Server

/-! ## Reading from a cursor -/

/-- The stored batches are read back exactly when the publications they store lead from the
revision on. -/
theorem SessionHistories.collect_eq_some_iff {codec : Codec ε} {cursor : SessionSyncCursor}
    {batches : List StoredBatch} {kept : List (Publication ε)}
    (h : List.Forall₂ (StoredBatch.Stores codec) batches kept)
    (hlt : ∀ p ∈ kept, p.base < p.next) {revision last : Nat}
    {out : List (SessionChangeBatch ε)} :
    collect codec cursor revision batches = some (out, last) ↔
      Spans Publication.base Publication.next revision kept last
        ∧ out = kept.map (·.batch cursor) := by
  induction h generalizing revision out with
  | nil => simp [collect, Spans, and_comm, eq_comm]
  | @cons b p batches kept hstores _ ih =>
    obtain ⟨hbase, hnext, hevents⟩ := hstores
    have hp := hlt p List.mem_cons_self
    have ih := @ih fun q hq => hlt q (List.mem_cons_of_mem _ hq)
    rw [collect, hbase, hnext, hevents, Spans]
    by_cases hrevision : p.base = revision
    · simp only [hrevision, bne_self_eq_false, Bool.false_eq_true, if_false, Option.bind_eq_bind,
        Option.bind_eq_some_iff, Prod.exists, Option.pure_def, Option.some.injEq, Prod.mk.injEq,
        List.map_cons]
      constructor
      · rintro ⟨rest, _, hrest, rfl, rfl⟩
        obtain ⟨hspans, rfl⟩ := ih.1 hrest
        exact ⟨⟨trivial, hrevision ▸ hp, hspans⟩, by rw [Publication.batch, hrevision]⟩
      · rintro ⟨⟨-, -, hspans⟩, rfl⟩
        exact ⟨_, _, ih.2 ⟨hspans, rfl⟩, by rw [Publication.batch, hrevision], rfl⟩
    · simp [hrevision]

namespace Server

/-- A history resumes a cursor of its incarnation that is at its revision, or where a batch that it
retains begins. -/
def Resumes (history : History) (c : SessionSyncCursor) : Prop :=
  c.incarnation = history.cursor.incarnation
    ∧ (c.revision = history.cursor.revision ∨ ∃ b ∈ history.batches, b.base = c.revision)

instance (history : History) (c : SessionSyncCursor) : Decidable (Resumes history c) :=
  inferInstanceAs (Decidable (_ ∧ _))

/-- A tracked history answers a cursor that it resumes with the log from the cursor on, and any
other cursor with a reset. -/
theorem changes_eq {codec : Codec ε} {s : Server ε} {c : SessionSyncCursor} {nowMs : Nat}
    {history : History} (hfind : (s.histories.expire nowMs).sessions.find? c.sessionId
      = some history) (htracks : history.Tracks codec (s.published history.cursor.incarnation)) :
    (s.histories.changes codec c nowMs).1
        = (if Resumes history c then .changes history.cursor (s.since c) else .resetRequired)
      ∧ (Resumes history c →
          Spans (·.base.revision) (·.next.revision) c.revision (s.since c)
            history.cursor.revision) := by
  obtain ⟨dropped, kept, hlog, ⟨first, hspans⟩, hstores⟩ := htracks
  rw [hlog] at hspans
  obtain ⟨m, -, hkept⟩ := Spans.append_iff.1 hspans
  have hlt : ∀ p ∈ kept.filter (c.revision < ·.next), p.base < p.next := fun p hp =>
    (hkept.bounds (List.mem_of_mem_filter hp)).2.1
  -- the stored batches after the cursor store the publications after it
  have hafter : List.Forall₂ (StoredBatch.Stores codec)
      (history.batches.filter (·.next > c.revision)) (kept.filter (c.revision < ·.next)) := by
    refine List.rel_filter (fun b p hstored => ?_) hstores
    simp [hstored.next]
  have hresumes : Resumes history c ↔ c.incarnation = history.cursor.incarnation
      ∧ Spans Publication.base Publication.next c.revision (kept.filter (c.revision < ·.next))
        history.cursor.revision := by
    have hmem := congrArg (c.revision ∈ ·) (StoredBatch.Stores.bases hstores)
    simp only [List.mem_map, eq_iff_iff] at hmem
    rw [Resumes, hkept.resumes_iff, hmem]
  have hsince : Resumes history c →
      s.since c = (kept.filter (c.revision < ·.next)).map (·.batch c) := by
    intro h
    obtain ⟨hincarnation, hread⟩ := hresumes.1 h
    rw [since, hincarnation, hlog, Spans.filter_eq hspans hread]
  constructor
  · simp only [SessionHistories.changes, hfind]
    by_cases h : Resumes history c
    · obtain ⟨hincarnation, hread⟩ := hresumes.1 h
      rw [if_pos h, hsince h, hincarnation,
        (SessionHistories.collect_eq_some_iff hafter hlt).2 ⟨hread, rfl⟩]
      simp [not_lt_of_ge hread.le]
    · rw [if_neg h]
      split
      · rfl
      · next hguard =>
        split
        · rfl
        · next batches last hcollect =>
          obtain ⟨hread, -⟩ := (SessionHistories.collect_eq_some_iff hafter hlt).1 hcollect
          have hlast : last ≠ history.cursor.revision := by
            rintro rfl
            rw [Bool.or_eq_true, not_or, bne_iff_ne, not_not] at hguard
            exact h (hresumes.2 ⟨hguard.1, hread⟩)
          simp [hlast]
  · intro h
    obtain ⟨-, hread⟩ := hresumes.1 h
    rw [hsince h]
    exact Spans.map_iff.2 hread

/-! ## Cursors that have ended -/

/-- The cursor's incarnation was given out, and its session has another history now, or none. -/
def Ended (s : Server ε) (c : SessionSyncCursor) : Prop :=
  c.incarnation ∈ s.used
    ∧ ∀ cursor, s.current c.sessionId = some cursor → cursor.incarnation ≠ c.incarnation

/-- A history after a step continues one before it, or its incarnation is fresh. -/
theorem incarnation_cases {codec : Codec ε} {s : Server ε} {op : Op ε} {session : String}
    {cursor : SessionSyncCursor} (hfresh : s.Fresh op)
    (hcurrent : (s.apply codec op).current session = some cursor) :
    (∃ cursor', s.current session = some cursor' ∧ cursor'.incarnation = cursor.incarnation)
      ∨ cursor.incarnation ∉ s.used := by
  -- a trimmed history continues the same incarnation
  have htrim : ∀ {h h' : SessionHistories}, h'.Trims h →
      (h'.sessions.find? session).map (·.cursor) = some cursor →
      (h.sessions.find? session).map (·.cursor) = some cursor := by
    intro h h' htrims hcursor
    obtain ⟨history', hfind', rfl⟩ := Option.map_eq_some_iff.1 hcursor
    obtain ⟨history, hfind, hcursor, -⟩ := htrims session history' hfind'
    rw [hfind, hcursor]
    rfl
  cases op with
  | establish session' revision uuid =>
    simp only [current, apply, SessionHistories.establish] at hcurrent
    split at hcurrent
    · exact .inl ⟨cursor, hcurrent, rfl⟩
    · have hinserted := htrim (SessionHistories.enforceLimits_trims _) hcurrent
      simp only [Table.find?_insertOrIgnore] at hinserted
      split at hinserted
      · rw [s.histories.find?_remove session'] at hinserted
        cases hinserted
        exact .inr hfresh
      · exact .inl ⟨cursor, htrim (s.histories.remove_trims session') hinserted, rfl⟩
  | record session' base next events nowMs =>
    have hexpired := s.histories.find?_expire session nowMs
    refine .inl ?_
    simp only [current, ← hexpired]
    rcases s.histories.record_cases codec session' base next events nowMs with
      ⟨-, -, htrims⟩ | ⟨history, encoded, order, -, -, -, -, hrecord⟩
    · exact ⟨cursor, htrim htrims hcurrent, rfl⟩
    · simp only [current, apply, hrecord] at hcurrent
      have happended := htrim (SessionHistories.enforceLimits_trims _) hcurrent
      simp only [Table.find?_update, Option.map_map, Option.map_eq_some_iff] at happended
      obtain ⟨history', hfind, rfl⟩ := happended
      refine ⟨history'.cursor, by rw [hfind]; rfl, ?_⟩
      simp only [Function.comp]
      split <;> rfl
  | remove session' =>
    exact .inl ⟨cursor, htrim (s.histories.remove_trims session') hcurrent, rfl⟩
  | changes cursor' nowMs =>
    simp only [current, apply, SessionHistories.changes_snd] at hcurrent
    exact .inl ⟨cursor, htrim (s.histories.expire_trims nowMs) hcurrent, rfl⟩

theorem Ended.run {codec : Codec ε} {s t : Server ε} {ops : List (Op ε)} {c : SessionSyncCursor}
    (hended : s.Ended c) (h : (system codec).Run s ops t) : t.Ended c := by
  refine h.invariant (Q := (Ended · c)) ?_ hended
  rintro s op s' ⟨hfresh, rfl⟩ ⟨hused, hother⟩
  constructor
  · cases op <;> simp [apply, hused]
  · intro cursor hcurrent heq
    rcases incarnation_cases hfresh hcurrent with ⟨cursor', hcurrent', heq'⟩ | hnot
    · exact hother cursor' hcurrent' (heq'.trans heq)
    · exact hnot (heq ▸ hused)

/-- A cursor that has ended is answered with a reset. -/
theorem Ended.changes {codec : Codec ε} {s : Server ε} {c : SessionSyncCursor}
    (hended : s.Ended c) (nowMs : Nat) :
    (s.histories.changes codec c nowMs).1 = .resetRequired := by
  have hother := hended.2
  simp only [current, ← s.histories.find?_expire c.sessionId nowMs] at hother
  simp only [SessionHistories.changes]
  cases hfind : (s.histories.expire nowMs).sessions.find? c.sessionId with
  | none => rfl
  | some history =>
    have hne := hother history.cursor (by rw [hfind]; rfl)
    simp [Ne.symm hne]

end Server

/-! ## Incremental replay -/

/-- Whatever was done to the histories, a cursor is answered with the publications of its own
incarnation from its revision on, all of them up to the session's current cursor and none twice, and
without any exactly when it is the current cursor; every other cursor starts over: one that no
history resumes, and for good one whose history has ended, as it does with a removal and with a
publication that does not continue it. -/
theorem history_replay {codec : Codec ε}
    (hcodec : ∀ events encoded, codec.encode events = some encoded →
      codec.decode encoded = some events)
    {maxBytes maxBatches maxSessions maxAgeMs : Nat} {ops : List (Op ε)} {s : Server ε}
    (h : (Server.system codec).Run (.start maxBytes maxBatches maxSessions maxAgeMs) ops s)
    (c : SessionSyncCursor) (nowMs : Nat) :
    (∀ cursor batches, (s.histories.changes codec c nowMs).1 = .changes cursor batches →
      s.current c.sessionId = some cursor ∧ cursor.sessionId = c.sessionId
        ∧ cursor.incarnation = c.incarnation ∧ batches = s.since c
        ∧ Spans (·.base.revision) (·.next.revision) c.revision batches cursor.revision
        ∧ (batches = [] ↔ c = cursor))
    ∧ ((s.histories.changes codec c nowMs).1 = .resetRequired ↔
        ∀ history, (s.histories.expire nowMs).sessions.find? c.sessionId = some history →
          ¬ Server.Resumes history c)
    ∧ (s.Ended c → ∀ ops' t nowMs', (Server.system codec).Run s ops' t →
        (t.histories.changes codec c nowMs').1 = .resetRequired)
    ∧ (∀ session, (s.apply codec (.remove session)).current session = none)
    ∧ ∀ session base next events nowMs', s.histories.taken? codec session base next events = none →
        (s.apply codec (.record session base next events nowMs')).current session = none := by
  have htracked := (Server.Tracked.run hcodec h).trim (s.histories.expire_trims nowMs)
  refine ⟨?_, ?_, fun hended ops' t nowMs' hrun => (hended.run hrun).changes nowMs', ?_, ?_⟩
  · intro cursor batches hchanges
    cases hfind : (s.histories.expire nowMs).sessions.find? c.sessionId with
    | none => simp [SessionHistories.changes, hfind] at hchanges
    | some history =>
      obtain ⟨hsession, -, htracks⟩ := htracked.history _ _ hfind
      obtain ⟨hanswer, hspans⟩ := Server.changes_eq hfind htracks
      rw [hchanges] at hanswer
      split at hanswer
      · next hresumes =>
        cases hanswer
        have hspans := hspans hresumes
        have hcurrent : s.current c.sessionId = some history.cursor := by
          rw [Server.current, ← s.histories.find?_expire c.sessionId nowMs, hfind]
          rfl
        refine ⟨hcurrent, hsession, hresumes.1.symm, rfl, hspans, ?_, ?_⟩
        · intro hempty
          rw [hempty] at hspans
          cases c
          cases hcursor : history.cursor
          simp_all [Server.Resumes, Spans]
        · intro hcursor
          rw [← hcursor] at hspans
          exact hspans.eq_nil
      · cases hanswer
  · cases hfind : (s.histories.expire nowMs).sessions.find? c.sessionId with
    | none => simp [SessionHistories.changes, hfind]
    | some history =>
      obtain ⟨-, -, htracks⟩ := htracked.history _ _ hfind
      rw [(Server.changes_eq hfind htracks).1]
      split <;> simp_all
  · intro session
    simp [Server.current, Server.apply, s.histories.find?_remove session]
  · intro session base next events nowMs' htaken
    rcases s.histories.record_cases codec session base next events nowMs' with
      ⟨-, hfind, -⟩ | ⟨_, _, _, -, -, -, hsome, -⟩
    · simp [Server.current, Server.apply, hfind]
    · rw [htaken] at hsome
      cases hsome

/-- Events that are bytes are their own encoding. -/
def bytesCodec : Codec UInt8 := ⟨some, some⟩

/-- A session that published twice since a client established a cursor. -/
def publishedTwice : Server UInt8 :=
  [Op.establish "session" 3 "first", .record "session" (some 3) 5 [1, 2] 10,
    .record "session" (some 5) 6 [3] 20].foldl (Server.apply bytesCodec) (.start 8 4 2 120)

theorem history_replay_publishedTwice :
    (publishedTwice.histories.changes bytesCodec ⟨"session", "first", 3⟩ 30).1
        = .changes ⟨"session", "first", 6⟩ (publishedTwice.since ⟨"session", "first", 3⟩)
      ∧ (publishedTwice.since ⟨"session", "first", 3⟩).map (·.events) = [[1, 2], [3]] := by
  have hrun : (Server.system bytesCodec).Run (.start 8 4 2 120)
      [.establish "session" 3 "first", .record "session" (some 3) 5 [1, 2] 10,
        .record "session" (some 5) 6 [3] 20] publishedTwice :=
    .cons ⟨List.not_mem_nil, rfl⟩ (.cons ⟨trivial, rfl⟩ (.cons ⟨trivial, rfl⟩ (.nil _)))
  have hchanges : ∃ batches,
      (publishedTwice.histories.changes bytesCodec ⟨"session", "first", 3⟩ 30).1
        = .changes ⟨"session", "first", 6⟩ batches :=
    ⟨[⟨⟨"session", "first", 3⟩, ⟨"session", "first", 5⟩, [1, 2]⟩,
      ⟨⟨"session", "first", 5⟩, ⟨"session", "first", 6⟩, [3]⟩], by decide +kernel⟩
  obtain ⟨batches, hchanges⟩ := hchanges
  obtain ⟨-, -, -, hbatches, -⟩ := (history_replay (fun events encoded h => by
    cases h; rfl) hrun ⟨"session", "first", 3⟩ 30).1 _ _ hchanges
  exact ⟨hbatches ▸ hchanges, by decide +kernel⟩

end Nakode.Sync
