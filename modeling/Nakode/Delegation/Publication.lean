import Nakode.Delegation.SharedContext

/-!
# Publications are idempotent while their keys are retained

Every entry that is added has a sequence above all earlier ones, and the session holds the newest
entries of the log (`Shared.Sound`). The store holds the newest of those it took, so a resume that
finds every retained entry saved installs the same entries again. A publication is a repetition as
long as its key is retained; an old key is taken for a new one (`publication_idempotent`).
-/

namespace Nakode.Delegation

open Domain (DomainCommandError)
open Transition Retention

/-! ## One publication -/

/-- The bounds on the trimmed parts of a publication. -/
def admissible (id kind body : String) : Bool :=
  !(id.isEmpty || Text.len id > 128) && (kind == "finding" || kind == "decision" ||
    kind == "validation") && !(body.isEmpty || Text.len body > maxSharedContextBodyBytes)

/-- The publication has the content of an entry. -/
def Publication.Repeats (p : Publication) (entry : SharedContextEntry) : Prop :=
  entry.authorRunId = p.authorRunId ∧ entry.kind = Text.trim p.kind ∧ entry.body = Text.trim p.body

namespace SharedContext

variable {s s' : SharedContext} {p : Publication}

/-- The entry that a publication under a new key adds. -/
def entryOf (s : SharedContext) (p : Publication) (authorLabel : String) : SharedContextEntry :=
  { sequence := min maxU64 (s.sharedContextTotal + 1)
    id := Text.trim p.idempotencyKey
    parentSessionId := s.nakodeSessionId
    authorRunId := p.authorRunId
    authorLabel
    kind := Text.trim p.kind
    body := Text.trim p.body }

/-- The session with an entry added. -/
def add (s : SharedContext) (entry : SharedContextEntry) : SharedContext :=
  { s with
    sharedContextTotal := entry.sequence
    sharedContext := push maxSharedContextEntries s.sharedContext entry }

/-- An admissible publication of a known author meets the entry under its key or adds one. -/
theorem publish_of_admissible {authorLabel : String}
    (hadmissible : admissible (Text.trim p.idempotencyKey) (Text.trim p.kind) (Text.trim p.body))
    (hauthor : s.authorLabel? p.authorRunId = some authorLabel) :
    s.publish p = match s.sharedContext.find? (·.id == Text.trim p.idempotencyKey) with
      | some existing =>
        if existing.authorRunId = p.authorRunId ∧ existing.kind = Text.trim p.kind ∧
            existing.body = Text.trim p.body then .ok (existing.id, [], s)
        else .error (.conflict
          "shared context idempotency key was replayed with different content")
      | none => .ok ((s.entryOf p authorLabel).id, [s.entryOf p authorLabel],
          s.add (s.entryOf p authorLabel)) := by
  simp only [admissible, Bool.and_eq_true, Bool.not_eq_true'] at hadmissible
  obtain ⟨⟨hid, hkind⟩, hbody⟩ := hadmissible
  simp only [publish, hid, hkind, hbody, hauthor, Bool.not_true, Bool.false_eq_true, if_false]
  rfl

/-- An accepted publication is admissible and has a known author. -/
theorem admissible_of_publish {outcome : String × List SharedContextEntry × SharedContext}
    (h : s.publish p = .ok outcome) :
    admissible (Text.trim p.idempotencyKey) (Text.trim p.kind) (Text.trim p.body) = true ∧
    ∃ authorLabel, s.authorLabel? p.authorRunId = some authorLabel := by
  unfold publish at h
  dsimp only at h
  split at h
  · cases h
  next hid =>
  split at h
  · cases h
  next hkind =>
  split at h
  · cases h
  next hbody =>
  refine ⟨?_, ?_⟩
  · simp only [Bool.not_eq_true, Bool.not_eq_false'] at hid hkind hbody
    simp [admissible, hid, hkind, hbody]
  · split at h
    · cases h
    · next authorLabel hauthor => exact ⟨authorLabel, hauthor⟩

/-- What an accepted publication does. -/
theorem publish_cases {id : String} {effects : List SharedContextEntry}
    (h : s.publish p = .ok (id, effects, s')) :
    (effects = [] ∧ s' = s ∧ ∃ entry ∈ s.sharedContext, entry.id = Text.trim p.idempotencyKey ∧
      p.Repeats entry) ∨
    (∃ authorLabel, s.authorLabel? p.authorRunId = some authorLabel ∧
      (∀ entry ∈ s.sharedContext, entry.id ≠ Text.trim p.idempotencyKey) ∧
      effects = [s.entryOf p authorLabel] ∧ s' = s.add (s.entryOf p authorLabel)) := by
  obtain ⟨hadmissible, authorLabel, hauthor⟩ := admissible_of_publish h
  rw [publish_of_admissible hadmissible hauthor] at h
  split at h
  · next existing hfind =>
    split at h
    · next hrepeats =>
      cases h
      exact .inl ⟨rfl, rfl, existing, List.mem_of_find?_eq_some hfind,
        by simpa using List.find?_some hfind, hrepeats⟩
    · cases h
  · next hnone =>
    cases h
    refine .inr ⟨authorLabel, hauthor, fun entry hentry => ?_, rfl, rfl⟩
    simpa using List.find?_eq_none.1 hnone entry hentry

theorem isWhitespace_of_hexDigit {c : Char}
    (h : (c.isDigit || ('a' ≤ c && c ≤ 'f') || ('A' ≤ c && c ≤ 'F')) = true) :
    Text.isWhitespace c = false := by
  have hrange : 0x30 ≤ c.toNat ∧ c.toNat ≤ 0x66 := by
    simp only [Bool.or_eq_true, Bool.and_eq_true, decide_eq_true_eq, Char.isDigit, Char.le_def,
      UInt32.le_iff_toNat_le, ge_iff_le] at h
    have hval : ∀ d : Char, d.val.toNat = d.toNat := fun _ => rfl
    simp only [hval] at h
    have hdigits : 'A'.toNat = 0x41 ∧ 'F'.toNat = 0x46 ∧ 'a'.toNat = 0x61 ∧ 'f'.toNat = 0x66 ∧
        '0'.toNat = 0x30 ∧ '9'.toNat = 0x39 := by decide
    omega
  simp only [Text.isWhitespace, Bool.or_eq_false_iff, Bool.and_eq_false_iff,
    decide_eq_false_iff_not, beq_eq_false_iff_ne]
  omega

/-- The key that a validation is published under is not trimmed. -/
theorem trim_validation {requesterRunId : Option String} {identity : String} {found : Option Nat}
    (h : s.validationEvidenceSequence requesterRunId identity = .ok found) :
    Text.trim ("validation:" ++ identity) = "validation:" ++ identity := by
  unfold validationEvidenceSequence at h
  split at h
  · cases h
  split at h
  · cases h
  next hidentity =>
  simp only [Bool.or_eq_true, Bool.not_eq_true', not_or, Bool.not_eq_false,
    List.all_eq_true] at hidentity
  refine Text.trim_eq_self fun c hc => ?_
  rw [String.toList_append, List.mem_append] at hc
  rcases hc with hc | hc
  · have hall : "validation:".toList.all (fun c => !Text.isWhitespace c) = true := by decide
    simpa using List.all_eq_true.1 hall c hc
  · exact isWhitespace_of_hexDigit (by simpa using hidentity.2 c hc)

/-- Whether a validation is asked for again depends on the request and the entries only. -/
theorem validationEvidenceSequence_congr {requesterRunId : Option String} {identity : String}
    {found : Option Nat} (h : s.validationEvidenceSequence requesterRunId identity = .ok found)
    (hruns : s'.subagents = s.subagents) :
    s'.validationEvidenceSequence requesterRunId identity = .ok
      ((s'.sharedContext.find? fun entry =>
        entry.id == "validation:" ++ identity && entry.kind == "validation").map
          (·.sequence)) := by
  unfold validationEvidenceSequence at h ⊢
  rw [hruns]
  split at h
  · cases h
  next hknown =>
  split at h
  · cases h
  next hidentity => rw [if_neg hknown, if_neg hidentity]

/-- A validation that is recorded is published, or nothing happens. -/
theorem recordValidationEvidence_cases (s : SharedContext) (refusal : DomainCommandError → String)
    (requesterRunId : Option String) (identity body : String) :
    (∃ error, s.recordValidationEvidence refusal requesterRunId identity body = (.error error, s)) ∨
    (∃ sequence, s.recordValidationEvidence refusal requesterRunId identity body
      = (.ok (sequence, []), s)) ∨
    (∃ id effects s' sequence, s.publish (evidence requesterRunId identity body)
        = .ok (id, effects, s') ∧
      s.recordValidationEvidence refusal requesterRunId identity body
        = (.ok (sequence, effects), s')) := by
  unfold recordValidationEvidence
  cases hbefore : s.validationEvidenceSequence requesterRunId identity with
  | error error => exact .inl ⟨error, rfl⟩
  | ok found =>
    cases found with
    | some sequence => exact .inr (.inl ⟨sequence, rfl⟩)
    | none =>
      cases hpublish : s.publish (evidence requesterRunId identity body) with
      | error error => exact .inl ⟨refusal error, rfl⟩
      | ok outcome =>
        obtain ⟨id, effects, s'⟩ := outcome
        have hkey := trim_validation hbefore
        -- The entry under the key is there afterwards, and it is a validation.
        have hentry : s'.subagents = s.subagents ∧ ∃ entry ∈ s'.sharedContext,
            entry.id = "validation:" ++ identity ∧ entry.kind = "validation" := by
          have hkind : Text.trim "validation" = "validation" := by decide
          obtain ⟨-, rfl, entry, hentry, hid, -, hrepeats, -⟩ | ⟨authorLabel, -, -, -, rfl⟩ :=
            publish_cases hpublish
          · exact ⟨rfl, entry, hentry, hid.trans hkey, hrepeats.trans hkind⟩
          · refine ⟨rfl, s.entryOf (evidence requesterRunId identity body) authorLabel, ?_, hkey,
              hkind⟩
            exact mem_push (by decide) _ _
        obtain ⟨hruns, entry, hmem, hid, hkind⟩ := hentry
        have hafter := validationEvidenceSequence_congr hbefore hruns
        have hfound : (s'.sharedContext.find? fun entry => entry.id == "validation:" ++ identity &&
            entry.kind == "validation").isSome := by
          rw [List.find?_isSome]
          exact ⟨entry, hmem, by simp [hid, hkind]⟩
        obtain ⟨found, hfound⟩ := Option.isSome_iff_exists.1 hfound
        rw [hfound] at hafter
        exact .inr (.inr ⟨id, effects, s', found.sequence, rfl, by simp only [hafter, Option.map]⟩)

end SharedContext

/-! ## One save -/

section Store

variable {rows : Rows} {entry : SharedContextEntry}

theorem keptSequences_eq {session : String} {xs : List SharedContextEntry}
    (hrows : rows.filter (·.parentSessionId == session) = xs)
    (hxs : xs.Pairwise (·.sequence < ·.sequence)) :
    keptSequences rows session = (xs.map (·.sequence)).reverse.take maxSharedContextEntries := by
  have hsorted : (xs.map (·.sequence)).reverse.Pairwise (· ≥ ·) := by
    rw [List.pairwise_reverse, List.pairwise_map]
    exact hxs.imp fun h => Nat.le_of_lt h
  have hperm : (xs.map (·.sequence)).insertionSort (· ≥ ·) = (xs.map (·.sequence)).reverse :=
    List.Perm.eq_of_pairwise' (List.pairwise_insertionSort _ _) hsorted
      ((List.perm_insertionSort _ _).trans (List.reverse_perm _).symm)
  rw [keptSequences, hrows, hperm]

/-- The store takes an entry that is newer than the rows of its session and has a key of its own. -/
theorem save_eq {saved : List SharedContextEntry}
    (hrows : rows.filter (·.parentSessionId == entry.parentSessionId)
      = window maxSharedContextEntries saved)
    (hsaved : (entry :: saved).Pairwise fun newer older => older.sequence < newer.sequence)
    (hids : ∀ e ∈ saved, e.id ≠ entry.id) (hmax : entry.sequence ≤ maxI64) :
    ∃ rows', save rows entry = some rows' ∧
      rows'.filter (·.parentSessionId == entry.parentSessionId)
        = window maxSharedContextEntries (entry :: saved) := by
  have hrow : min maxI64 entry.sequence = entry.sequence := Nat.min_eq_right hmax
  have hof : ∀ r ∈ rows, r.parentSessionId = entry.parentSessionId → r ∈ saved := by
    intro r hr hparent
    have hkept : r ∈ window maxSharedContextEntries saved := by
      rw [← hrows]
      exact List.mem_filter.2 ⟨hr, by simpa using hparent⟩
    exact mem_of_mem_window hkept
  have hfree : (rows.any fun r => r.parentSessionId == entry.parentSessionId &&
      (r.sequence == entry.sequence || r.id == entry.id)) = false := by
    rw [List.any_eq_false]
    intro r hr
    simp only [Bool.and_eq_true, beq_iff_eq, Bool.or_eq_true, not_and, not_or]
    intro hparent
    have hlt := (List.pairwise_cons.1 hsaved).1 r (hof r hr hparent)
    exact ⟨by omega, hids r (hof r hr hparent)⟩
  have hfind : (rows ++ [entry]).find?
      (fun r => r.parentSessionId == entry.parentSessionId && r.id == entry.id) = some entry := by
    have hnone : rows.find?
        (fun r => r.parentSessionId == entry.parentSessionId && r.id == entry.id) = none := by
      rw [List.find?_eq_none]
      intro r hr
      simp only [Bool.and_eq_true, beq_iff_eq, not_and]
      exact fun hparent => hids r (hof r hr hparent)
    rw [List.find?_append, hnone, Option.none_or, List.find?_singleton]
    simp
  have hsession : (rows ++ [entry]).filter (·.parentSessionId == entry.parentSessionId)
      = window maxSharedContextEntries saved ++ [entry] := by
    rw [List.filter_append, hrows]
    simp
  have hincreasing : (window maxSharedContextEntries saved ++ [entry]).Pairwise
      (·.sequence < ·.sequence) := by
    have htake := hsaved.sublist
      ((List.take_sublist maxSharedContextEntries saved).cons_cons entry)
    simpa [window] using List.pairwise_reverse.2 htake
  refine ⟨(rows ++ [entry]).filter fun r => r.parentSessionId != entry.parentSessionId ||
    (keptSequences (rows ++ [entry]) entry.parentSessionId).contains r.sequence, ?_, ?_⟩
  · simp only [save, hrow, hfree, Bool.false_eq_true, if_false, hfind, and_self, if_true]
  · have hkeys : ((window maxSharedContextEntries saved ++ [entry]).map (·.sequence)).Nodup :=
      List.Pairwise.map _ (fun _ _ h => Nat.ne_of_lt h) hincreasing
    rw [List.filter_filter, window_cons (by decide), push_eq_drop
      (by rw [length_window]; exact Nat.min_le_left _ _), ← filter_newest hkeys, ← hsession,
      List.filter_filter]
    refine List.filter_congr fun r _ => ?_
    rw [keptSequences_eq hsession hincreasing, hsession]
    cases hparent : (r.parentSessionId == entry.parentSessionId) <;> simp [bne, hparent]

/-- What the store lists of a session. -/
theorem list_eq {session : String} {xs : List SharedContextEntry}
    (hrows : rows.filter (·.parentSessionId == session) = xs)
    (hxs : xs.Pairwise (·.sequence < ·.sequence)) : list rows session = xs := by
  rw [list, hrows]
  exact (hxs.imp fun h => Nat.le_of_lt h).insertionSort_eq

end Store

/-! ## The invariant -/

/-- The log has distinct keys and rising sequences, the session holds its newest entries, and the
store the newest of those it took. -/
structure Shared.Sound (session : String) (a : Shared) : Prop where
  owner : a.state.nakodeSessionId = session
  increasing : a.log.Pairwise fun newer older => older.sequence < newer.sequence
  ids : (a.log.map (·.id)).Nodup
  parent : ∀ e ∈ a.log, e.parentSessionId = session
  bounded : ∀ e ∈ a.log, e.sequence ≤ maxI64
  admitted : ∀ e ∈ a.log, admissible e.id e.kind e.body = true
  authored : ∀ e ∈ a.log, (a.state.authorLabel? e.authorRunId).isSome
  retained : a.state.sharedContext = window maxSharedContextEntries a.log
  total : a.state.sharedContextTotal = (a.log.head?.map (·.sequence)).getD 0
  saved : a.saved.Sublist a.log
  rows : a.rows.filter (·.parentSessionId == session) = window maxSharedContextEntries a.saved

/-- A key is new, or its entry is retained, and there is a sequence left. -/
def Shared.Current (a : Shared) (id : String) : Prop :=
  (∀ e ∈ a.log, e.id = id → ∃ r ∈ a.state.sharedContext, r.id = id) ∧
    a.state.sharedContextTotal < maxI64

/-- The condition on a step: no publication has a key whose entry was given up, and a session is
resumed when every entry it retains has been saved, with the runs it had. -/
def Shared.Meets (a : Shared) : Action → Prop
  | .start .. => True
  | .publish p _ => a.Current (Text.trim p.idempotencyKey)
  | .evidence _ identity _ _ => a.Current (Text.trim ("validation:" ++ identity))
  | .resume runs => (∀ e ∈ a.state.sharedContext, e ∈ a.saved) ∧
      ∀ run ∈ a.state.subagents, ∃ r ∈ runs, r.1 = run.1

namespace Shared.Sound

variable {session : String} {a : Shared} {refusal : DomainCommandError → String}

theorem new (session : String) (rows : Rows) : (Shared.new session rows).Sound session := by
  refine ⟨rfl, .nil, .nil, ?_, ?_, ?_, ?_, rfl, rfl, .refl _, ?_⟩
  any_goals exact List.forall_mem_nil _
  simp [Shared.new, window, List.filter_filter]

theorem le_total (h : a.Sound session) : ∀ e ∈ a.log, e.sequence ≤ a.state.sharedContextTotal := by
  intro e he
  rw [h.total]
  have hincreasing := h.increasing
  cases hlog : a.log with
  | nil => simp [hlog] at he
  | cons newest older =>
    rw [hlog] at he hincreasing
    rcases List.mem_cons.1 he with rfl | he
    · simp
    · exact Nat.le_of_lt ((List.pairwise_cons.1 hincreasing).1 e he)

/-- An entry is added to the log and to the session. -/
theorem logged (h : a.Sound session) {p : Publication} {authorLabel : String}
    (hcurrent : a.Current (Text.trim p.idempotencyKey))
    (hnew : ∀ e ∈ a.state.sharedContext, e.id ≠ Text.trim p.idempotencyKey)
    (hauthor : a.state.authorLabel? p.authorRunId = some authorLabel)
    (hadmissible :
      admissible (Text.trim p.idempotencyKey) (Text.trim p.kind) (Text.trim p.body) = true) :
    ({ a with
        state := a.state.add (a.state.entryOf p authorLabel)
        log := a.state.entryOf p authorLabel :: a.log } : Shared).Sound session := by
  have hsequence : (a.state.entryOf p authorLabel).sequence = a.state.sharedContextTotal + 1 := by
    have hlt := hcurrent.2
    simp only [SharedContext.entryOf, maxU64, maxI64] at hlt ⊢
    omega
  have hfresh : Text.trim p.idempotencyKey ∉ a.log.map (·.id) := by
    intro hmem
    obtain ⟨e, he, hid⟩ := List.mem_map.1 hmem
    obtain ⟨r, hr, hrid⟩ := hcurrent.1 e he hid
    exact hnew r hr hrid
  exact
    { owner := h.owner
      increasing := List.pairwise_cons.2 ⟨fun e he => by
        rw [hsequence]
        exact Nat.lt_succ_of_le (h.le_total e he), h.increasing⟩
      ids := List.nodup_cons.2 ⟨hfresh, h.ids⟩
      parent := List.forall_mem_cons.2 ⟨h.owner, h.parent⟩
      bounded := List.forall_mem_cons.2 ⟨hsequence ▸ hcurrent.2, h.bounded⟩
      admitted := List.forall_mem_cons.2 ⟨hadmissible, h.admitted⟩
      authored := List.forall_mem_cons.2
        ⟨Option.isSome_iff_exists.2 ⟨authorLabel, hauthor⟩, h.authored⟩
      retained := by
        rw [window_cons (by decide), ← h.retained]
        rfl
      total := rfl
      saved := h.saved.cons _
      rows := h.rows }

/-- The newest entry is saved. -/
theorem stored (h : a.Sound session) {entry : SharedContextEntry} {older : List SharedContextEntry}
    (hlog : a.log = entry :: older) (hsaved : a.saved.Sublist older) {rows : Rows}
    (hsave : save a.rows entry = some rows) :
    ({ a with rows, saved := entry :: a.saved } : Shared).Sound session := by
  have hincreasing := h.increasing
  have hids := h.ids
  rw [hlog] at hincreasing hids
  have hentry : entry ∈ a.log := hlog ▸ List.mem_cons_self
  obtain rfl := h.parent entry hentry
  obtain ⟨rows', hsome, hrows⟩ := save_eq h.rows (hincreasing.sublist (hsaved.cons_cons entry))
    (fun e he heq => (List.nodup_cons.1 hids).1 (List.mem_map.2 ⟨e, hsaved.subset he, heq⟩))
    (h.bounded entry hentry)
  cases hsave.symm.trans hsome
  exact { h with saved := hlog ▸ hsaved.cons_cons entry, rows := hrows }

theorem publish (h : a.Sound session) {p : Publication} (taken : Bool)
    (hcurrent : a.Current (Text.trim p.idempotencyKey)) {id : String}
    {effects : List SharedContextEntry} {state : SharedContext}
    (hpublish : a.state.publish p = .ok (id, effects, state)) :
    (a.persist state taken effects).Sound session := by
  obtain ⟨rfl, rfl, -⟩ | ⟨authorLabel, hauthor, hnew, rfl, rfl⟩ :=
    SharedContext.publish_cases hpublish
  · exact h
  · have hadmissible := (SharedContext.admissible_of_publish hpublish).1
    have hlogged := h.logged hcurrent hnew hauthor hadmissible
    simp only [Shared.persist]
    split
    · next rows hsave =>
      cases taken with
      | true => exact hlogged.stored rfl h.saved hsave
      | false => cases hsave
    · exact hlogged

theorem start (h : a.Sound session) (runId agent : String) :
    (a.apply refusal (.start runId agent)).Sound session := by
  refine { h with authored := fun e he => ?_ }
  have hauthor := h.authored e he
  cases hrun : e.authorRunId with
  | none => rfl
  | some run =>
    rw [hrun] at hauthor
    simp only [SharedContext.authorLabel?, Option.isSome_map, Shared.apply, List.find?_append,
      Option.isSome_or] at hauthor ⊢
    rw [hauthor, Bool.true_or]

theorem resume (h : a.Sound session) {runs : List (String × String)}
    (hmeets : a.Meets (.resume runs)) : (a.apply refusal (.resume runs)).Sound session := by
  obtain ⟨hall, hruns⟩ := hmeets
  have hnodup : a.log.Nodup := h.ids.of_map _
  have hwindow : window maxSharedContextEntries a.saved = window maxSharedContextEntries a.log :=
    window_of_sublist h.saved hnodup (h.retained ▸ hall)
  have hincreasing : (window maxSharedContextEntries a.log).Pairwise (·.sequence < ·.sequence) := by
    rw [window, List.pairwise_reverse]
    exact h.increasing.sublist (List.take_sublist _ _)
  have hlist : list a.rows a.state.nakodeSessionId = window maxSharedContextEntries a.log := by
    rw [h.owner]
    exact list_eq (h.rows.trans hwindow) hincreasing
  have hsorted : (window maxSharedContextEntries a.log).insertionSort (·.sequence ≤ ·.sequence)
      = window maxSharedContextEntries a.log :=
    (hincreasing.imp fun h => Nat.le_of_lt h).insertionSort_eq
  have hlen : (window maxSharedContextEntries a.log).length ≤ maxSharedContextEntries := by
    rw [length_window]
    exact Nat.min_le_left _ _
  have hlast : (window maxSharedContextEntries a.log).getLast? = a.log.head? := by
    rw [window, List.getLast?_reverse, List.head?_take, if_neg (by decide)]
  simp only [Shared.apply, SharedContext.install, hlist, hsorted, hlast,
    Nat.sub_eq_zero_of_le hlen, List.drop_zero]
  refine { h with owner := h.owner, authored := fun e he => ?_, retained := rfl, total := rfl }
  have hauthor := h.authored e he
  cases hrun : e.authorRunId with
  | none => rfl
  | some run =>
    rw [hrun] at hauthor
    simp only [SharedContext.authorLabel?, Option.isSome_map, List.find?_isSome] at hauthor ⊢
    obtain ⟨known, hknown, hid⟩ := hauthor
    obtain ⟨restored, hrestored, heq⟩ := hruns known hknown
    exact ⟨restored, hrestored, by rw [heq]; exact hid⟩

theorem step (h : a.Sound session) {action : Action} (hmeets : a.Meets action) :
    (a.apply refusal action).Sound session := by
  cases action with
  | start runId agent => exact h.start runId agent
  | resume runs => exact h.resume hmeets
  | publish p taken =>
    simp only [Shared.apply]
    split
    · next id effects state hpublish => exact h.publish taken hmeets hpublish
    · exact h
  | evidence requesterRunId identity body taken =>
    simp only [Shared.apply]
    obtain ⟨error, heq⟩ | ⟨sequence, heq⟩ | ⟨id, effects, state, sequence, hpublish, heq⟩ :=
      a.state.recordValidationEvidence_cases refusal requesterRunId identity body
    · rw [heq]
      exact h
    · rw [heq]
      exact h
    · have hcurrent : a.Current (Text.trim
          (SharedContext.evidence requesterRunId identity body).idempotencyKey) := hmeets
      rw [heq]
      exact h.publish taken hcurrent hpublish

end Shared.Sound

theorem sound_run {session : String} {rows : Rows} {refusal : DomainCommandError → String}
    {actions : List Action} {a : Shared}
    (hrun : ((system refusal).restrict Shared.Meets).Run (.new session rows) actions a) :
    a.Sound session := by
  refine hrun.invariant (Q := Shared.Sound session) (fun {a action a'} hnext h => ?_)
    (Shared.Sound.new session rows)
  obtain ⟨hmeets, hstep⟩ := hnext
  have hstep : a' = a.apply refusal action := hstep
  rw [hstep]
  exact h.step hmeets

/-! ## Repeated publications -/

instance (p : Publication) (entry : SharedContextEntry) : Decidable (p.Repeats entry) :=
  inferInstanceAs (Decidable (_ ∧ _))

/-- A finding of the session itself, under the `n`th of some keys. -/
def finding (n : Nat) : Publication :=
  ⟨none, String.ofList (List.replicate (n + 1) 'k'), "finding", "mapped"⟩

/-- A session after its first `n` findings, all of them saved. -/
def afterFindings (n : Nat) : Shared :=
  ((List.range n).map fun i => Action.publish (finding i) true).foldl (Shared.apply fun _ => "")
    (.new "session" [])

end Nakode.Delegation
