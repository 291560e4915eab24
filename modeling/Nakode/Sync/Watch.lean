import Nakode.Sync.Changes
import Nakode.Lib.Trace

/-!
# A changes-since watch reads the full view

The server's publications of all sessions are kept in a log beside it (`Watched`). The generations
that a session's published view notes for its entries bound what a client may lack: an entry that
last changed in a generation the client has already seen is one the client holds
(`PublishedSessionProjection.Covers`). That is kept by every publication
(`trackChanges_covers`), whatever happened to the window, since an entry that is not among those of
the view published before, or differs from it, is the subject of an event (`changed_of_event`).
-/

namespace Nakode.Sync

open Relational Transition
open Keyed (rposition?)

variable {μ ν : Type}

/-! ## Marked entries -/

theorem length_markChanged (entries : List TranscriptEntryView) (generation : Nat)
    (generations : List Nat) (event : ViewEvent μ ν) :
    (markChanged entries generation generations event).length = generations.length := by
  unfold markChanged
  repeat' split
  all_goals simp

theorem length_foldl_markChanged (entries : List TranscriptEntryView) (generation : Nat)
    (generations : List Nat) (events : List (ViewEvent μ ν)) :
    (events.foldl (markChanged entries generation) generations).length = generations.length := by
  induction events generalizing generations with
  | nil => rfl
  | cons event events ih => rw [List.foldl_cons, ih, length_markChanged]

/-- An entry keeps its generation only when the event does not say it has changed. -/
theorem mem_zip_markChanged {entries : List TranscriptEntryView} {generation : Nat}
    {generations : List Nat} {event : ViewEvent μ ν} (hnodup : (entries.map (·.id)).Nodup)
    {entry : TranscriptEntryView} {n : Nat}
    (h : (entry, n) ∈ entries.zip (markChanged entries generation generations event)) :
    n = generation
      ∨ (entry, n) ∈ entries.zip generations ∧ event.changedId? ≠ some entry.id := by
  obtain ⟨i, hentry, hgeneration⟩ := Keyed.mem_zip_iff.1 h
  simp only [markChanged] at hgeneration
  split at hgeneration
  · next hchanged => exact .inr ⟨Keyed.mem_zip_iff.2 ⟨i, hentry, hgeneration⟩, by simp [hchanged]⟩
  · next changed hchanged =>
    obtain ⟨hi, rfl⟩ := List.getElem?_eq_some_iff.1 hentry
    split at hgeneration
    · next hnone =>
      refine .inr ⟨Keyed.mem_zip_iff.2 ⟨i, hentry, hgeneration⟩, fun heq => ?_⟩
      cases hchanged.symm.trans heq
      cases hnone.symm.trans (Keyed.rposition?_eq_some hnodup hi)
    · next index hindex =>
      by_cases heq : index = i
      · subst heq
        obtain ⟨_, hset⟩ := List.getElem?_eq_some_iff.1 hgeneration
        rw [List.getElem_set_self] at hset
        exact .inl hset.symm
      · rw [List.getElem?_set_ne heq] at hgeneration
        refine .inr ⟨Keyed.mem_zip_iff.2 ⟨i, hentry, hgeneration⟩, fun hsame => heq ?_⟩
        cases hchanged.symm.trans hsame
        exact Option.some.inj (hindex.symm.trans (Keyed.rposition?_eq_some hnodup hi))

/-- An entry keeps its generation only when no event says it has changed. -/
theorem mem_zip_foldl_markChanged {entries : List TranscriptEntryView} {generation : Nat}
    {generations : List Nat} {events : List (ViewEvent μ ν)}
    (hnodup : (entries.map (·.id)).Nodup) {entry : TranscriptEntryView} {n : Nat}
    (h : (entry, n) ∈ entries.zip (events.foldl (markChanged entries generation) generations)) :
    n = generation
      ∨ (entry, n) ∈ entries.zip generations ∧ some entry.id ∉ events.map (·.changedId?) := by
  induction events generalizing generations with
  | nil => exact .inr ⟨h, List.not_mem_nil⟩
  | cons event events ih =>
    rcases ih h with hn | ⟨hmem, hnot⟩
    · exact .inl hn
    · rcases mem_zip_markChanged hnodup hmem with hn | ⟨hmem, hne⟩
      · exact .inl hn
      · refine .inr ⟨hmem, ?_⟩
        rw [List.map_cons, List.mem_cons, not_or]
        exact ⟨Ne.symm hne, hnot⟩

/-! ## Events of changed entries -/

theorem deltaEvents_changed (view : SessionView μ) (entry : TranscriptEntryView) (appendAtByte : Nat)
    {chunks : List String} (h : chunks ≠ []) :
    some entry.id
      ∈ (deltaEvents view entry appendAtByte chunks : List (ViewEvent μ ν)).map
          (·.changedId?) := by
  cases chunks with
  | nil => exact absurd rfl h
  | cons chunk chunks => simp [deltaEvents, ViewEvent.changedId?]

/-- An entry that is not on the previous page as it is now has an event. -/
theorem entryEvents_changed (engine : ServiceEngine μ) (view : SessionView μ)
    {previous : TranscriptPage} (previousLengths currentLengths : Table String Nat)
    {entry : TranscriptEntryView}
    (h : previous.entries.find? (·.id == entry.id) ≠ some entry) :
    some entry.id
      ∈ (entryEvents engine view previous previousLengths currentLengths entry :
          List (ViewEvent μ ν)).map (·.changedId?) := by
  unfold entryEvents
  split
  · exact List.mem_singleton.2 rfl
  · next previousEntry hfind =>
    have hne : previousEntry ≠ entry := fun heq => h (heq ▸ hfind)
    rw [if_neg hne]
    dsimp only
    split
    · next delta hdelta =>
      have hdelta := (Option.filter_eq_some_iff.1 hdelta).2
      simp only [Bool.and_eq_true, bne_iff_ne, ne_eq] at hdelta
      exact deltaEvents_changed view entry _ (Text.utf8Chunks_ne_nil hdelta.2 _)
    · exact List.mem_singleton.2 rfl

/-- The events of the transcript are among the publications. -/
theorem mem_sessionPublications {R : RestEvents μ ν} {engine : ServiceEngine μ}
    {previous current : PublishedSessionProjection μ} {event : ViewEvent μ ν}
    (h : event ∈ transcriptEvents engine current.view previous.view.transcript
      previous.transcriptLengths current.view.transcript current.transcriptLengths) :
    event ∈ sessionPublications R (some engine) (some previous) current := by
  simp only [sessionPublications]
  split
  · next hempty =>
    simp only [List.isEmpty_iff, List.append_eq_nil_iff] at hempty
    rw [hempty.1.2] at h
    cases h
  · exact List.mem_append_left _ (List.mem_append_right _ h)

/-- An entry that no publication says has changed was published before as it is now. -/
theorem find?_of_not_changed {R : RestEvents μ ν} {engine : ServiceEngine μ}
    {previous current : PublishedSessionProjection μ} {entry : TranscriptEntryView}
    (hentry : entry ∈ current.view.transcript.entries)
    (h : some entry.id ∉ (sessionPublications R (some engine) (some previous) current).map
      (·.changedId?)) :
    previous.view.transcript.entries.find? (·.id == entry.id) = some entry := by
  by_contra hfind
  obtain ⟨event, hevent, hchanged⟩ := List.mem_map.1 (entryEvents_changed (ν := ν) engine
    current.view previous.transcriptLengths current.transcriptLengths hfind)
  refine h (List.mem_map.2 ⟨event, mem_sessionPublications ?_, hchanged⟩)
  exact List.mem_append_left _ (List.mem_flatMap.2 ⟨entry, hentry, hevent⟩)

/-- Without a window event the order is the one published before. -/
theorem order_of_not_window {R : RestEvents μ ν} {engine : ServiceEngine μ}
    {previous current : PublishedSessionProjection μ}
    (h : (sessionPublications R (some engine) (some previous) current).any (·.isWindow) = false) :
    previous.view.transcript.entries.map (·.id) = current.view.transcript.entries.map (·.id) := by
  by_contra horder
  have hne : transcriptWindow previous.view.transcript ≠ transcriptWindow current.view.transcript :=
    fun heq => horder (congrArg (·.entryIds) heq)
  rw [List.any_eq_false] at h
  refine h (.transcriptWindowChanged current.view.id current.view.revision
    (transcriptWindow current.view.transcript)) (mem_sessionPublications ?_) rfl
  exact List.mem_append_right _ (by simp [hne])

/-! ## Carried generations -/

theorem length_carriedGenerations {previous : PublishedSessionProjection μ}
    (entries : List TranscriptEntryView) (generation : Nat)
    (hlength : previous.entryGenerations.length = previous.view.transcript.entries.length) :
    (carriedGenerations previous entries generation).length = entries.length := by
  unfold carriedGenerations
  split
  · exact List.length_replicate
  · dsimp only
    split
    · exact List.length_replicate
    · split
      · next hkept =>
        simp only [Bool.and_eq_true, decide_eq_true_eq] at hkept
        simp only [List.length_append, List.length_drop, List.length_replicate, hlength]
        omega
      · exact List.length_replicate

/-- Each entry has the new generation, or that of an entry published before under its id. -/
theorem mem_zip_carriedGenerations {previous : PublishedSessionProjection μ}
    {entries : List TranscriptEntryView} {generation : Nat} {entry : TranscriptEntryView} {n : Nat}
    (hlength : previous.entryGenerations.length = previous.view.transcript.entries.length)
    (h : (entry, n) ∈ entries.zip (carriedGenerations previous entries generation)) :
    n = generation ∨ ∃ before,
      (before, n) ∈ previous.view.transcript.entries.zip previous.entryGenerations
        ∧ before.id = entry.id := by
  have hreplicate : ∀ {m}, n ∈ (List.replicate entries.length generation).drop m →
      n = generation := fun hn => List.eq_of_mem_replicate (List.mem_of_mem_drop hn)
  unfold carriedGenerations at h
  split at h
  · exact .inl (List.eq_of_mem_replicate (List.of_mem_zip h).2)
  · dsimp only at h
    split at h
    · exact .inl (List.eq_of_mem_replicate (List.of_mem_zip h).2)
    · next offset _ =>
      split at h
      · next hkept =>
        rw [Bool.and_eq_true, List.all_eq_true] at hkept
        obtain ⟨i, hentry, hgeneration⟩ := Keyed.mem_zip_iff.1 h
        rw [List.getElem?_append] at hgeneration
        split at hgeneration
        · next hi =>
          rw [List.getElem?_drop] at hgeneration
          rw [List.length_drop, hlength] at hi
          have hi' : offset + i < previous.view.transcript.entries.length := by omega
          have hbefore : previous.view.transcript.entries[offset + i]?
              = some previous.view.transcript.entries[offset + i] := List.getElem?_eq_getElem hi'
          refine .inr ⟨_, Keyed.mem_zip_iff.2 ⟨offset + i, hbefore, hgeneration⟩, ?_⟩
          have hids := hkept.2 (previous.view.transcript.entries[offset + i], entry)
            (Keyed.mem_zip_iff.2 ⟨i, by rw [List.getElem?_drop, hbefore], hentry⟩)
          exact beq_iff_eq.1 hids
        · exact .inl (hreplicate (List.mem_of_getElem? hgeneration))
      · exact .inl (List.eq_of_mem_replicate (List.of_mem_zip h).2)

/-! ## Tracked views -/

/-- The published view is that of a tracked publication. -/
structure PublishedSessionProjection.Aligned (published : PublishedSessionProjection μ) : Prop where
  nodup : (published.view.transcript.entries.map (·.id)).Nodup
  length : published.entryGenerations.length = published.view.transcript.entries.length

/-- What a client that holds a list from a generation lacks is noted: the order when it has changed
since, and every entry that the list does not have as it is now. -/
structure PublishedSessionProjection.Covers (published : PublishedSessionProjection μ)
    (generation : Nat) (held : List TranscriptEntryView) : Prop where
  order : published.orderGeneration ≤ generation →
    held.map (·.id) = published.view.transcript.entries.map (·.id)
  entries : ∀ entry n,
    (entry, n) ∈ published.view.transcript.entries.zip published.entryGenerations →
    n ≤ generation → entry ∈ held

section

variable {R : RestEvents μ ν} {engine : ServiceEngine μ}
  {previous current : PublishedSessionProjection μ} {generation : Nat}

/-- A publication notes as many generations as there are entries. -/
theorem trackChanges_aligned {publications : List (ViewEvent μ ν)}
    {previous : Option (PublishedSessionProjection μ)}
    (hnodup : (current.view.transcript.entries.map (·.id)).Nodup)
    (hprevious : ∀ p ∈ previous, p.generation ≠ 0 → p.Aligned) :
    (trackChanges current previous publications generation).Aligned := by
  unfold trackChanges
  dsimp only
  split
  · exact ⟨hnodup, List.length_replicate⟩
  · next p hp =>
    obtain ⟨hp, hgeneration⟩ := Option.filter_eq_some_iff.1 hp
    have haligned := hprevious p hp (by simpa using hgeneration)
    refine ⟨hnodup, ?_⟩
    dsimp only
    rw [length_foldl_markChanged]
    split
    · exact length_carriedGenerations _ _ haligned.length
    · next hsame =>
      simp only [Bool.or_eq_true, bne_iff_ne, not_or, not_not] at hsame
      exact hsame.2

theorem trackChanges_view {publications : List (ViewEvent μ ν)}
    {previous : Option (PublishedSessionProjection μ)} :
    (trackChanges current previous publications generation).view = current.view := by
  unfold trackChanges
  dsimp only
  split <;> rfl

theorem trackChanges_generation {publications : List (ViewEvent μ ν)}
    {previous : Option (PublishedSessionProjection μ)} :
    (trackChanges current previous publications generation).generation = generation := by
  unfold trackChanges
  dsimp only
  split <;> rfl

/-- A publication that is after one since when the session is tracked follows a tracked view. -/
theorem trackChanges_trackedSince {publications : List (ViewEvent μ ν)}
    {previous : Option (PublishedSessionProjection μ)}
    (h : (trackChanges current previous publications generation).trackedSince < generation) :
    ∃ p, previous = some p ∧ p.generation ≠ 0
      ∧ (trackChanges current previous publications generation).trackedSince = p.trackedSince := by
  unfold trackChanges at h ⊢
  dsimp only at h ⊢
  split at h
  · exact absurd h (lt_irrefl _)
  · next p hp =>
    obtain ⟨hp, hgeneration⟩ := Option.filter_eq_some_iff.1 hp
    exact ⟨p, hp, by simpa using hgeneration, rfl⟩

/-- Every view covers its own list. -/
theorem covers_self (published : PublishedSessionProjection μ) (generation : Nat) :
    published.Covers generation published.view.transcript.entries :=
  ⟨fun _ => rfl, fun _ _ h _ => (List.of_mem_zip h).1⟩

/-- What the view published before covers, the next publication covers. -/
theorem trackChanges_covers (hnodup : (current.view.transcript.entries.map (·.id)).Nodup)
    (haligned : previous.Aligned) (htracked : previous.generation ≠ 0) {since : Nat}
    {held : List TranscriptEntryView} (hcovers : previous.Covers since held)
    (hsince : since < generation) :
    (trackChanges current (some previous)
      (sessionPublications R (some engine) (some previous) current) generation).Covers since
      held := by
  generalize hpublications : sessionPublications R (some engine) (some previous) current
    = publications
  have hfilter : (some previous).filter (·.generation != 0) = some previous := by
    simp [htracked]
  simp only [trackChanges, hfilter]
  constructor
  · intro horder
    dsimp only at horder
    split at horder
    · omega
    · next hsame =>
      rw [Bool.or_eq_true, not_or, Bool.not_eq_true] at hsame
      exact (hcovers.order horder).trans (order_of_not_window (hpublications ▸ hsame.1))
  · intro entry n hmem hn
    rcases mem_zip_foldl_markChanged hnodup hmem with rfl | ⟨hmem, hnot⟩
    · omega
    · have hfind := find?_of_not_changed (List.of_mem_zip hmem).1 (hpublications ▸ hnot)
      have hprevious := List.mem_of_find?_eq_some hfind
      have hbefore : n = generation ∨ ∃ before,
          (before, n) ∈ previous.view.transcript.entries.zip previous.entryGenerations
            ∧ before.id = entry.id := by
        split at hmem
        · exact mem_zip_carriedGenerations haligned.length hmem
        · next hsame =>
          rw [Bool.or_eq_true, not_or, Bool.not_eq_true] at hsame
          have horder := order_of_not_window (hpublications ▸ hsame.1)
          obtain ⟨i, hentry, hgeneration⟩ := Keyed.mem_zip_iff.1 hmem
          obtain ⟨hi, rfl⟩ := List.getElem?_eq_some_iff.1 hentry
          have hi' : i < previous.view.transcript.entries.length := by
            have := congrArg List.length horder
            simp only [List.length_map] at this
            omega
          exact .inr ⟨_, Keyed.mem_zip_iff.2 ⟨i, List.getElem?_eq_getElem hi', hgeneration⟩,
            Keyed.key_getElem horder hi' hi⟩
      rcases hbefore with rfl | ⟨before, hbefore, hid⟩
      · omega
      · have heq := Keyed.eq_of_mem haligned.nodup (List.of_mem_zip hbefore).1 hprevious hid
        exact hcovers.entries entry n (heq ▸ hbefore) hn

end

/-- A projection that is not tracked yet shows the session as it is. -/
theorem ServerCore.publishedSession_eq {s : ServerCore μ} {sessionId : String}
    {published : PublishedSessionProjection μ}
    (h : s.publishedSession sessionId = some published) :
    published.generation = 0 ∧ ∃ engine, s.sessionsById.find? sessionId = some engine
      ∧ published.view = engine.sessionView sessionId := by
  simp only [publishedSession, Option.bind_eq_bind, Option.bind_eq_some_iff, Option.pure_def,
    Option.some.injEq] at h
  obtain ⟨engine, hengine, rfl⟩ := h
  exact ⟨rfl, engine, hengine, rfl⟩

/-- A publication of a session that is there: its view is published under the next generation, and
no other session's. -/
theorem ServerCore.publishSessionState_eq [DecidableEq μ] (R : RestEvents μ ν)
    (codec : Codec (ViewEvent μ ν)) {s : ServerCore μ} {sessionId : String} (nowMs : Nat)
    {engine : ServiceEngine μ} (hengine : s.sessionsById.find? sessionId = some engine) :
    (s.publishSessionState R codec sessionId nowMs).2.publicationGeneration
        = s.publicationGeneration + 1
      ∧ ∃ current, current.view = engine.sessionView sessionId
        ∧ ∀ sessionId',
          (s.publishSessionState R codec sessionId nowMs).2.publishedSessions.find? sessionId'
            = if sessionId' = sessionId then some (trackChanges current
                (s.publishedSessions.find? sessionId)
                (sessionPublications R (some engine) (s.publishedSessions.find? sessionId) current)
                (s.publicationGeneration + 1))
              else s.publishedSessions.find? sessionId' := by
  obtain ⟨current, hpublished, hview⟩ : ∃ current, s.publishedSession sessionId = some current
      ∧ current.view = engine.sessionView sessionId :=
    ⟨_, by simp only [publishedSession, hengine]; rfl, rfl⟩
  simp only [publishSessionState, hpublished, hengine]
  refine ⟨trivial, current, hview, fun sessionId' => ?_⟩
  rw [Table.find?_upsert]
  split
  · cases s.publishedSessions.find? sessionId <;> rfl
  · rfl

/-! ## Watched servers -/

/-- The transcript entries of one publication of a session. -/
structure PublishedWindow where
  sessionId : String
  generation : Nat
  entries : List TranscriptEntryView
  deriving DecidableEq

/-- A server with the log of its publications. -/
structure Watched (μ : Type) where
  server : ServerCore μ
  log : List PublishedWindow

/-- A session is created or changes, is published, or is released. -/
inductive WatchedOp (μ : Type) where
  | engine (sessionId : String) (engine : ServiceEngine μ)
  | publish (sessionId : String) (nowMs : Nat)
  | release (sessionId : String)

namespace Watched

def apply [DecidableEq μ] (R : RestEvents μ ν) (codec : Codec (ViewEvent μ ν)) (w : Watched μ) :
    WatchedOp μ → Watched μ
  | .engine sessionId engine =>
    { w with server := { w.server with
        sessionsById := w.server.sessionsById.upsert sessionId engine fun _ => engine } }
  | .publish sessionId nowMs =>
    { server := (w.server.publishSessionState R codec sessionId nowMs).2
      log := w.log ++ ((w.server.sessionsById.find? sessionId).map fun engine =>
        ⟨sessionId, w.server.publicationGeneration + 1, engine.transcript.entries⟩).toList }
  | .release sessionId => { w with server := w.server.releaseSession sessionId }

/-- The entries of a published window have distinct ids. -/
def Distinct (w : Watched μ) : WatchedOp μ → Prop
  | .publish sessionId _ => ∀ engine ∈ w.server.sessionsById.find? sessionId,
      (engine.transcript.entries.map (·.id)).Nodup
  | _ => True

def system [DecidableEq μ] (R : RestEvents μ ν) (codec : Codec (ViewEvent μ ν)) :
    System (Watched μ) (WatchedOp μ) where
  next w op w' := w.Distinct op ∧ w' = w.apply R codec op

def start (core : ServerCore μ) : Watched μ := ⟨core, []⟩

/-- Every tracked view is the publication of its generation, and covers every list that was
published for its session since it is tracked. -/
structure Tracked (w : Watched μ) : Prop where
  counted : ∀ p ∈ w.log, p.generation ≤ w.server.publicationGeneration
  unique : ∀ p ∈ w.log, ∀ q ∈ w.log, p.generation = q.generation → p = q
  nodup : ∀ p ∈ w.log, (p.entries.map (·.id)).Nodup
  aligned : ∀ sessionId published,
    w.server.publishedSessions.find? sessionId = some published → published.generation ≠ 0 →
    published.Aligned
  logged : ∀ sessionId published,
    w.server.publishedSessions.find? sessionId = some published → published.generation ≠ 0 →
    ⟨sessionId, published.generation, published.view.transcript.entries⟩ ∈ w.log
  covers : ∀ sessionId published,
    w.server.publishedSessions.find? sessionId = some published → published.generation ≠ 0 →
    ∀ p ∈ w.log, p.sessionId = sessionId → published.trackedSince ≤ p.generation →
    published.Covers p.generation p.entries

namespace Tracked

theorem new (sessionId : String) (engine : ServiceEngine μ) (histories : SessionHistories)
    (inventoryComplete : Bool) :
    (start (.new sessionId engine histories inventoryComplete)).Tracked := by
  have hzero : ∀ sessionId' published,
      (ServerCore.new sessionId engine histories inventoryComplete).publishedSessions.find?
        sessionId' = some published → published.generation = 0 := by
    intro sessionId' published hfind
    simp only [ServerCore.new] at hfind
    split at hfind
    · cases hfind
    · next projection hprojection =>
      rw [Table.find?_insertOrIgnore] at hfind
      split at hfind
      · cases hfind
        exact (ServerCore.publishedSession_eq hprojection).1
      · cases hfind
  exact {
    counted := fun _ hp => absurd hp List.not_mem_nil
    unique := fun _ hp => absurd hp List.not_mem_nil
    nodup := fun _ hp => absurd hp List.not_mem_nil
    aligned := fun _ _ hfind hne => absurd (hzero _ _ hfind) hne
    logged := fun _ _ hfind hne => absurd (hzero _ _ hfind) hne
    covers := fun _ _ hfind hne => absurd (hzero _ _ hfind) hne }

variable {w : Watched μ}

/-- What is published only shrinks or stays. -/
theorem mono {server : ServerCore μ} (hw : w.Tracked)
    (hgeneration : server.publicationGeneration = w.server.publicationGeneration)
    (hpublished : ∀ sessionId published,
      server.publishedSessions.find? sessionId = some published →
      w.server.publishedSessions.find? sessionId = some published) :
    (⟨server, w.log⟩ : Watched μ).Tracked where
  counted p hp := hgeneration ▸ hw.counted p hp
  unique := hw.unique
  nodup := hw.nodup
  aligned _ _ hfind := hw.aligned _ _ (hpublished _ _ hfind)
  logged _ _ hfind := hw.logged _ _ (hpublished _ _ hfind)
  covers _ _ hfind := hw.covers _ _ (hpublished _ _ hfind)

theorem step [DecidableEq μ] {R : RestEvents μ ν} {codec : Codec (ViewEvent μ ν)} {op : WatchedOp μ}
    (hw : w.Tracked) (hdistinct : w.Distinct op) : (w.apply R codec op).Tracked := by
  cases op with
  | engine sessionId engine => exact hw.mono rfl fun _ _ hfind => hfind
  | release sessionId =>
    refine hw.mono rfl fun sessionId' published hfind => ?_
    simp only [ServerCore.releaseSession, Table.find?_delete] at hfind
    exact (Option.filter_eq_some_iff.1 hfind).1
  | publish sessionId nowMs =>
    cases hengine : w.server.sessionsById.find? sessionId with
    | none =>
      simp only [apply, ServerCore.publishSessionState, ServerCore.publishedSession, hengine]
      simpa using hw
    | some engine =>
      have hnodup := hdistinct engine hengine
      obtain ⟨hcount, current, hview, hfind⟩ :=
        ServerCore.publishSessionState_eq R codec nowMs hengine
      have hentries : current.view.transcript.entries = engine.transcript.entries := by
        rw [hview]
        rfl
      rw [← hentries] at hnodup
      have hlog : (w.apply R codec (.publish sessionId nowMs)).log = w.log
          ++ [⟨sessionId, w.server.publicationGeneration + 1,
            current.view.transcript.entries⟩] := by
        simp [apply, hengine, hentries]
      have hold : ∀ p ∈ w.log, p.generation < w.server.publicationGeneration + 1 := fun p hp =>
        Nat.lt_succ_of_le (hw.counted p hp)
      constructor
      · intro p hp
        simp only [apply, hcount]
        rw [hlog, List.mem_append, List.mem_singleton] at hp
        rcases hp with hp | rfl
        · exact le_of_lt (hold p hp)
        · exact le_refl _
      · intro p hp q hq heq
        rw [hlog, List.mem_append, List.mem_singleton] at hp hq
        rcases hp with hp | rfl <;> rcases hq with hq | rfl
        · exact hw.unique p hp q hq heq
        · exact absurd heq (ne_of_lt (hold p hp))
        · exact absurd heq.symm (ne_of_lt (hold q hq))
        · rfl
      · intro p hp
        rw [hlog, List.mem_append, List.mem_singleton] at hp
        rcases hp with hp | rfl
        · exact hw.nodup p hp
        · exact hnodup
      · intro sessionId' published hpublished hne
        simp only [apply, hfind] at hpublished
        split at hpublished
        · cases hpublished
          exact trackChanges_aligned hnodup fun p hp => hw.aligned sessionId p hp
        · exact hw.aligned sessionId' published hpublished hne
      · intro sessionId' published hpublished hne
        rw [hlog]
        simp only [apply, hfind] at hpublished
        split at hpublished
        · next heq =>
          cases hpublished
          rw [trackChanges_generation, trackChanges_view, heq]
          exact List.mem_append_right _ (List.mem_singleton.2 rfl)
        · exact List.mem_append_left _ (hw.logged sessionId' published hpublished hne)
      · intro sessionId' published hpublished hne p hp hsession hsince
        rw [hlog, List.mem_append, List.mem_singleton] at hp
        simp only [apply, hfind] at hpublished
        split at hpublished
        · next heq =>
          cases hpublished
          rcases hp with hp | rfl
          · have hlt := hold p hp
            obtain ⟨previous, hprevious, htracked, heq'⟩ :=
              trackChanges_trackedSince (lt_of_le_of_lt hsince hlt)
            rw [heq'] at hsince
            have hcovers := hw.covers sessionId previous hprevious htracked p hp
              (hsession.trans heq) hsince
            rw [hprevious]
            exact trackChanges_covers hnodup (hw.aligned sessionId previous hprevious htracked)
              htracked hcovers hlt
          · have hself := covers_self (trackChanges current
              (w.server.publishedSessions.find? sessionId) (sessionPublications R (some engine)
              (w.server.publishedSessions.find? sessionId) current)
              (w.server.publicationGeneration + 1)) (w.server.publicationGeneration + 1)
            rwa [trackChanges_view] at hself
        · next hne' =>
          rcases hp with hp | rfl
          · exact hw.covers sessionId' published hpublished hne p hp hsession hsince
          · exact absurd hsession.symm hne'

theorem run [DecidableEq μ] {R : RestEvents μ ν} {codec : Codec (ViewEvent μ ν)}
    {sessionId : String} {engine : ServiceEngine μ} {histories : SessionHistories}
    {inventoryComplete : Bool} {ops : List (WatchedOp μ)}
    (h : (system R codec).Run (.start (.new sessionId engine histories inventoryComplete)) ops w) :
    w.Tracked := by
  refine h.invariant (Q := Tracked) ?_ (new sessionId engine histories inventoryComplete)
  rintro w op w' ⟨hdistinct, rfl⟩ hw
  exact hw.step hdistinct

end Tracked

end Watched

/-! ## Reading since a generation -/

namespace PublishedSessionProjection

/-- The entries that changed after a generation. -/
def changedSince (published : PublishedSessionProjection μ) (since : Nat) :
    List TranscriptEntryView :=
  ((published.view.transcript.entries.zip published.entryGenerations).filter (·.2 > since)).map
    (·.1)

/-- The order of the entries, when it changed after a generation. -/
def orderSince (published : PublishedSessionProjection μ) (since : Nat) : Option (List String) :=
  if published.orderGeneration > since then some (published.view.transcript.entries.map (·.id))
  else none

variable {published : PublishedSessionProjection μ} {since : Nat} {held : List TranscriptEntryView}

theorem Aligned.changedSince_sublist (haligned : published.Aligned) (since : Nat) :
    (published.changedSince since).Sublist published.view.transcript.entries := by
  have hzip : (published.view.transcript.entries.zip published.entryGenerations).map (·.1)
      = published.view.transcript.entries :=
    List.map_fst_zip (le_of_eq haligned.length.symm)
  have hsublist := (List.filter_sublist (p := fun e : TranscriptEntryView × Nat => e.2 > since)
    (l := published.view.transcript.entries.zip published.entryGenerations)).map (·.1)
  rwa [hzip] at hsublist

/-- A client that holds a list that the published view covers has every entry of the view, or is
sent it. -/
theorem Covers.sent (hcovers : published.Covers since held) (haligned : published.Aligned)
    {entry : TranscriptEntryView} (hentry : entry ∈ published.view.transcript.entries) :
    entry ∈ published.changedSince since ∨ entry ∈ held := by
  obtain ⟨i, hi, rfl⟩ := List.mem_iff_getElem.1 hentry
  have hi' : i < published.entryGenerations.length := haligned.length ▸ hi
  have hmem := Keyed.mem_zip_iff.2 ⟨i, List.getElem?_eq_getElem hi, List.getElem?_eq_getElem hi'⟩
  by_cases hn : published.entryGenerations[i] ≤ since
  · exact .inr (hcovers.entries _ _ hmem hn)
  · exact .inl (List.mem_map.2 ⟨_, List.mem_filter.2 ⟨hmem, by simpa using hn⟩, rfl⟩)

/-- The order that the client is sent, or else the one it holds, is that of the view. -/
theorem Covers.getD_orderSince (hcovers : published.Covers since held) :
    (published.orderSince since).getD (held.map (·.id))
      = published.view.transcript.entries.map (·.id) := by
  unfold orderSince
  split
  · rfl
  · next hle => exact hcovers.order (Nat.le_of_not_lt hle)

/-- Each entry of the view is found in what is sent, or else in what is held. -/
theorem Covers.find? (hcovers : published.Covers since held) (haligned : published.Aligned)
    (hheld : (held.map (·.id)).Nodup) {entry : TranscriptEntryView}
    (hentry : entry ∈ published.view.transcript.entries) :
    ((published.changedSince since).find? (·.id == entry.id)).or (held.find? (·.id == entry.id))
      = some entry := by
  have hsublist := haligned.changedSince_sublist since
  cases hfind : (published.changedSince since).find? (·.id == entry.id) with
  | some found =>
    have hid : found.id = entry.id := by simpa using List.find?_some hfind
    have hfound := hsublist.subset (List.mem_of_find?_eq_some hfind)
    rw [Keyed.eq_of_mem haligned.nodup hfound hentry hid]
    rfl
  | none =>
    have hnot : entry ∉ published.changedSince since := fun hmem => by
      simpa using List.find?_eq_none.1 hfind entry hmem
    exact Keyed.find?_eq_some hheld ((hcovers.sent haligned hentry).resolve_left hnot)

/-- The SDK puts what is sent into a list that the view covers, and has the list of the view. -/
theorem Covers.apply (hcovers : published.Covers since held) (haligned : published.Aligned)
    (hheld : (held.map (·.id)).Nodup) :
    (match published.orderSince since with
      | none => Keyed.replace? (·.id) held (published.changedSince since)
      | some order => Keyed.arrange? (·.id) held (published.changedSince since) order)
    = some published.view.transcript.entries := by
  have hsublist := haligned.changedSince_sublist since
  have horder := hcovers.getD_orderSince
  have hall : ∀ entry ∈ published.view.transcript.entries,
      entry ∈ published.changedSince since ∨ entry ∈ held :=
    fun entry hentry => hcovers.sent haligned hentry
  split
  · next hnone =>
    rw [hnone] at horder
    exact Keyed.replace?_eq haligned.nodup horder (fun _ hx => hsublist.subset hx) hall
  · next order hsome =>
    rw [hsome] at horder
    rw [show order = published.view.transcript.entries.map (·.id) from horder]
    refine Keyed.arrange?_eq haligned.nodup hheld (haligned.nodup.sublist (hsublist.map _)) ?_ hall
    exact fun x hx y hy hid => Keyed.eq_of_mem haligned.nodup (hsublist.subset hy) hx hid

end PublishedSessionProjection

/-- The answer to a read: the session as it is now when it has no tracked view of its revision, its
published view when the generation is older than the tracking, and otherwise the entries and the
order that changed since. -/
theorem ServerCore.sessionChangesView_cases {s : ServerCore μ} {sessionId : String} {since : Nat}
    {answer : SessionChangesView μ} (h : s.sessionChangesView sessionId since = .ok answer) :
    (answer.generation = 0 ∧ answer.changes = none ∧ s.sessionView sessionId = .ok answer.session
      ∧ ∀ published, s.publishedSessions.find? sessionId = some published →
        published.generation = 0
          ∨ some published.view.revision
            ≠ (s.sessionsById.find? sessionId).map (·.revision)) ∨
    ∃ published, s.publishedSessions.find? sessionId = some published
      ∧ published.generation ≠ 0 ∧ answer.generation = published.generation
      ∧ (answer.changes = none ∧ answer.session = published.view
        ∨ published.trackedSince ≤ since
          ∧ answer.changes = some ⟨published.orderSince since⟩
          ∧ answer.session = { published.view with transcript :=
              { published.view.transcript with entries := published.changedSince since } }) := by
  unfold sessionChangesView at h
  dsimp only at h
  split at h
  · next hnone =>
    refine .inl ?_
    cases hview : s.sessionView sessionId with
    | error e =>
      rw [hview] at h
      cases h
    | ok session =>
      rw [hview] at h
      cases h
      refine ⟨rfl, rfl, rfl, fun published hfind => ?_⟩
      rw [hfind] at hnone
      simpa [or_iff_not_imp_left] using hnone
  · next published hpublished =>
    obtain ⟨hfind, htracked⟩ := Option.filter_eq_some_iff.1 hpublished
    rw [Bool.and_eq_true, bne_iff_ne] at htracked
    refine .inr ⟨published, hfind, htracked.1, ?_⟩
    split at h
    · cases h
      exact ⟨rfl, .inl ⟨rfl, rfl⟩⟩
    · next hsince =>
      cases h
      simp only [Bool.not_eq_true', Bool.not_eq_false, Bool.and_eq_true, decide_eq_true_eq]
        at hsince
      exact ⟨rfl, .inr ⟨hsince.2, rfl, rfl⟩⟩

/-- The order of the response, or that of the held list, and for each id the entry from the response
if it is there and else the held one. -/
def SessionChangesView.merged (answer : SessionChangesView μ) (changes : TranscriptChanges)
    (held : List TranscriptEntryView) : List (Option TranscriptEntryView) :=
  (changes.entryIds.getD (held.map (·.id))).map fun id =>
    (answer.session.transcript.entries.find? (·.id == id)).or (held.find? (·.id == id))

/-- A client that holds the list published in a generation is answered with what leads to the list
of the answer's generation: its own entries and those of the answer, in the answer's order or its
own, are that list, and the SDK computes it. An answer without changes is the complete list
published in its generation, or, in generation zero, the session as it is now. -/
theorem changes_since [DecidableEq μ] {R : RestEvents μ ν} {codec : Codec (ViewEvent μ ν)}
    {sessionId : String} {engine : ServiceEngine μ} {histories : SessionHistories}
    {inventoryComplete : Bool} {ops : List (WatchedOp μ)} {w : Watched μ}
    (h : (Watched.system R codec).Run
      (.start (.new sessionId engine histories inventoryComplete)) ops w)
    {p : PublishedWindow} (hp : p ∈ w.log) {answer : SessionChangesView μ}
    (hanswer : w.server.sessionChangesView p.sessionId p.generation = .ok answer)
    {previous : SessionState μ} {page : TranscriptPage}
    (hprevious : previous.transcript = some page) (hheld : page.entries = p.entries) :
    (∀ changes, answer.changes = some changes →
      ∃ q ∈ w.log, q.sessionId = p.sessionId ∧ q.generation = answer.generation
        ∧ (∀ r ∈ w.log, r.generation = q.generation → r = q)
        ∧ answer.merged changes p.entries = q.entries.map some
        ∧ applyTranscriptChanges (some previous) answer.session.state (some changes)
          = some { answer.session.state with
              transcript := some { answer.session.transcript with entries := q.entries } })
    ∧ (answer.changes = none → answer.generation ≠ 0 →
      ∃ q ∈ w.log, q.sessionId = p.sessionId ∧ q.generation = answer.generation
        ∧ answer.session.transcript.entries = q.entries)
    ∧ (answer.changes = none → answer.generation = 0 →
      w.server.sessionView p.sessionId = .ok answer.session
        ∧ ∀ published, w.server.publishedSessions.find? p.sessionId = some published →
          published.generation = 0
            ∨ some published.view.revision
              ≠ (w.server.sessionsById.find? p.sessionId).map (·.revision)) := by
  have hw := Watched.Tracked.run h
  rcases ServerCore.sessionChangesView_cases hanswer with
    ⟨hzero, hnone, hview, hwhy⟩ | ⟨published, hfind, htracked, hgeneration, hcases⟩
  · exact ⟨fun _ hsome => absurd (hnone.symm.trans hsome) (by simp),
      fun _ hne => absurd hzero hne, fun _ _ => ⟨hview, hwhy⟩⟩
  · have hlogged := hw.logged _ _ hfind htracked
    have haligned := hw.aligned _ _ hfind htracked
    refine ⟨?_, ?_, fun _ hzero => absurd (hgeneration.symm.trans hzero) htracked⟩
    · intro changes hchanges
      rcases hcases with ⟨hnone, -⟩ | ⟨hsince, hsome, hsession⟩
      · exact absurd (hnone.symm.trans hchanges) (by simp)
      · cases hsome.symm.trans hchanges
        have hcovers := hw.covers _ _ hfind htracked p hp rfl hsince
        refine ⟨_, hlogged, rfl, hgeneration.symm, fun r hr heq => hw.unique r hr _ hlogged heq,
          ?_, ?_⟩
        · simp only [SessionChangesView.merged, hsession, hcovers.getD_orderSince, List.map_map]
          exact List.map_congr_left fun entry hentry =>
            hcovers.find? haligned (hw.nodup p hp) hentry
        · have happly := hcovers.apply haligned (hw.nodup p hp)
          rw [← hheld] at happly
          cases horder : published.orderSince p.generation with
          | none =>
            simp only [horder] at happly
            simp [applyTranscriptChanges, SessionView.state, hprevious, hsession, happly]
          | some order =>
            simp only [horder] at happly
            simp [applyTranscriptChanges, SessionView.state, hprevious, hsession, happly]
    · intro hnone _
      rcases hcases with ⟨-, hsession⟩ | ⟨-, hsome, -⟩
      · exact ⟨_, hlogged, rfl, hgeneration.symm, by rw [hsession]⟩
      · exact absurd (hnone.symm.trans hsome) (by simp)

/-! ## Two views of a session -/

def noted (id body : String) : TranscriptEntryView where
  id := id
  kind := .assistant
  title := "Nakode"
  body := body
  bodyTotalBytes := Text.len body
  status := .running

/-- A session of which only the transcript is shown. -/
def showing (revision : Nat) (entries : List TranscriptEntryView) : ServiceEngine Unit :=
  ⟨revision, ⟨"", "", none, entries, false, true, "", none, 0⟩,
    entries.map fun entry => (entry.id, entry.body), ()⟩

/-- Nothing is published of what a session shows beside its transcript. -/
def quiet : RestEvents Unit Unit := ⟨fun _ _ => [], fun _ _ => [], fun _ => ()⟩

/-- No session is observed incrementally, and nothing is encoded. -/
def unobserved : SessionHistories := ⟨∅, [], 0, 0, 0, 0⟩

def silent : Codec (ViewEvent Unit Unit) := ⟨fun _ => none, fun _ => none⟩

def shownFirst : Watched Unit :=
  .start (.new "session" (showing 1 [noted "a" "one"]) unobserved true)

/-- A session is published, released and created again. -/
def createdAgain : List (WatchedOp Unit) :=
  [.publish "session" 0, .release "session", .engine "session" (showing 1 [noted "b" "two"])]

/-- A client that holds the published list of a session that was created again is answered with a
list that was never published. -/
theorem changes_since_createdAgain :
    ∃ w, (Watched.system quiet silent).Run shownFirst createdAgain w
      ∧ ∃ p ∈ w.log, ∃ answer,
        w.server.sessionChangesView p.sessionId p.generation = .ok answer
          ∧ answer.changes = none
          ∧ ∀ q ∈ w.log, answer.session.transcript.entries ≠ q.entries := by
  have hlog : (createdAgain.foldl (Watched.apply quiet silent) shownFirst).log
      = [⟨"session", 1, [noted "a" "one"]⟩] := by decide +kernel
  refine ⟨createdAgain.foldl (Watched.apply quiet silent) shownFirst,
    .cons ⟨?_, rfl⟩ (.cons ⟨trivial, rfl⟩ (.cons ⟨trivial, rfl⟩ (.nil _))),
    ⟨"session", 1, [noted "a" "one"]⟩, by simp [hlog],
    ⟨0, none, (showing 1 [noted "b" "two"]).sessionView "session"⟩, by decide +kernel, rfl, ?_⟩
  · intro engine hengine
    cases hengine
    decide +kernel
  · intro q hq
    rw [hlog, List.mem_singleton] at hq
    subst hq
    decide +kernel

/-- A session is published, goes on and is published again. -/
def goingOn : List (WatchedOp Unit) :=
  [.publish "session" 0, .engine "session" (showing 2 [noted "a" "one", noted "b" "two"]),
    .publish "session" 1]

/-- A client of the first publication is sent the new entry and the order. -/
theorem changes_since_goingOn :
    ∃ w, (Watched.system quiet silent).Run shownFirst goingOn w
      ∧ ∃ answer, w.server.sessionChangesView "session" 1 = .ok answer
        ∧ ∃ q ∈ w.log, q.entries = [noted "a" "one", noted "b" "two"]
          ∧ answer.merged ⟨some ["a", "b"]⟩ [noted "a" "one"] = q.entries.map some := by
  have hrun : (Watched.system quiet silent).Run shownFirst goingOn
      (goingOn.foldl (Watched.apply quiet silent) shownFirst) := by
    refine .cons ⟨?_, rfl⟩ (.cons ⟨trivial, rfl⟩ (.cons ⟨?_, rfl⟩ (.nil _)))
    all_goals
      intro engine hengine
      cases hengine
      decide +kernel
  have hlog : (goingOn.foldl (Watched.apply quiet silent) shownFirst).log
      = [⟨"session", 1, [noted "a" "one"]⟩,
        ⟨"session", 2, [noted "a" "one", noted "b" "two"]⟩] := by decide +kernel
  have hanswer : (goingOn.foldl (Watched.apply quiet silent) shownFirst).server.sessionChangesView
      "session" 1 = .ok ⟨2, some ⟨some ["a", "b"]⟩,
        (showing 2 [noted "b" "two"]).sessionView "session"⟩ := by decide +kernel
  have hprevious : ((showing 1 [noted "a" "one"]).sessionView "session").state.transcript
      = some (showing 1 [noted "a" "one"]).transcript := rfl
  obtain ⟨q, hq, -, hgeneration, -, hmerged, -⟩ := (changes_since hrun
    (p := ⟨"session", 1, [noted "a" "one"]⟩) (by simp [hlog]) hanswer hprevious rfl).1 _ rfl
  refine ⟨_, hrun, _, hanswer, q, hq, ?_, hmerged⟩
  rw [hlog] at hq
  simp only [List.mem_cons, List.not_mem_nil, or_false] at hq
  rcases hq with rfl | rfl
  · cases hgeneration
  · rfl

end Nakode.Sync
