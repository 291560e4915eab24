import Nakode.Lib.Keyed
import Nakode.Transcript.Projection

/-!
# What a page shows

A page that the server projects is a run of visible entries that ends where it was asked to
(`IsPage`): every row shows an end of its entry's body (`Row`), the proofs are those at the two ends,
and the cursor is that of its first entry when there are earlier ones. A page that is asked for
before an entry (`projectedTranscriptPage_before`) and the newest page
(`projectedTranscriptPage_newest`) differ only in what they keep for the current owner entry.
-/

namespace Nakode

open Relational (Table)

namespace Digests

variable (D : Digests) (t : DomainTranscript)

/-! ## Prefix proofs -/

theorem length_prefixesFrom (current : Vector UInt8 32) (entries : List TranscriptEntry) :
    (D.prefixesFrom t current entries).length = (entries.filter visibleTranscriptEntry).length := by
  induction entries generalizing current with
  | nil => rfl
  | cons entry rest ih =>
    rw [prefixesFrom, List.filter_cons]
    split
    · rw [List.length_cons, List.length_cons, ih]
    · exact ih current

theorem length_transcriptPrefixes :
    (D.transcriptPrefixes t).length = t.visible.length + 1 := by
  rw [transcriptPrefixes, List.length_cons, length_prefixesFrom]
  rfl

theorem hexDigest_ne_empty (digest : Vector UInt8 32) : hexDigest digest ≠ "" := by
  intro h
  have hnil := congrArg String.toList h
  rw [hexDigest, String.toList_ofList] at hnil
  have hlength := congrArg List.length hnil
  simp [List.length_flatMap] at hlength

theorem prefixesFrom_ne_empty (current : Vector UInt8 32) (entries : List TranscriptEntry) :
    ∀ p ∈ D.prefixesFrom t current entries, p ≠ "" := by
  induction entries generalizing current with
  | nil => exact fun _ hp => absurd hp List.not_mem_nil
  | cons entry rest ih =>
    rw [prefixesFrom]
    split
    · exact List.forall_mem_cons.2 ⟨hexDigest_ne_empty _, ih _⟩
    · exact ih current

/-- No proof is the empty text. -/
theorem transcriptPrefixes_ne_empty : ∀ p ∈ D.transcriptPrefixes t, p ≠ "" :=
  List.forall_mem_cons.2 ⟨hexDigest_ne_empty _, D.prefixesFrom_ne_empty t _ _⟩

/-! ## Rows -/

/-- A row shows an end of its entry's body, and the entry's audit when it fits into the budget. A row
whose audit does not fit shows as much of the body as the budget allows. -/
def Row (remaining : Nat) (view : TranscriptEntryView) (entry : TranscriptEntry) : Prop :=
  ∃ before body, entry.body = before ++ body
    ∧ (remaining < entry.auditBytes →
      body = Text.utf8Tail entry.body (min remaining maxTranscriptEntryBodyBytes))
    ∧ view = D.transcriptEntryView t entry body (decide (entry.auditBytes ≤ remaining))
      (decide (entry.auditBytes ≤ remaining))

variable {D t}

theorem id_transcriptEntryView (entry : TranscriptEntry) (body : String)
    (audit coordination : Bool) :
    (D.transcriptEntryView t entry body audit coordination).id = entry.id := by
  unfold transcriptEntryView
  dsimp only
  split <;> rfl

theorem Row.id {remaining : Nat} {view : TranscriptEntryView} {entry : TranscriptEntry}
    (h : D.Row t remaining view entry) : view.id = entry.id := by
  obtain ⟨_, _, -, -, rfl⟩ := h
  exact id_transcriptEntryView _ _ _ _

/-- A row whose audit fits into what is left fits into the whole. -/
theorem Row.mono {remaining remaining' : Nat} (hle : remaining ≤ remaining')
    {view : TranscriptEntryView} {entry : TranscriptEntry}
    (hfits : entry.auditBytes ≤ remaining) (h : D.Row t remaining view entry) :
    D.Row t remaining' view entry := by
  obtain ⟨before, body, hbody, -, hview⟩ := h
  have hfits' : entry.auditBytes ≤ remaining' := hfits.trans hle
  refine ⟨before, body, hbody, fun hlt => absurd hfits' (not_le_of_gt hlt), ?_⟩
  rw [hview, decide_eq_true hfits, decide_eq_true hfits']

/-- The rows after the first are of entries whose audit fits. -/
theorem projectRows_rest (limit remaining : Nat) (entries : List TranscriptEntry) :
    ∃ shown rest, entries = shown ++ rest
      ∧ List.Forall₂ (fun view entry => entry.auditBytes ≤ remaining ∧ D.Row t remaining view entry)
        (D.projectRows t limit remaining false entries) shown := by
  induction entries generalizing limit remaining with
  | nil => exact ⟨[], [], rfl, by cases limit <;> exact .nil⟩
  | cons entry older ih =>
    cases limit with
    | zero => exact ⟨[], entry :: older, rfl, .nil⟩
    | succ limit =>
      rw [projectRows]
      split
      · exact ⟨[], entry :: older, rfl, .nil⟩
      · next hgo =>
        simp only [Bool.not_false, Bool.true_and, Bool.or_eq_true, decide_eq_true_eq, not_or,
          Nat.not_lt] at hgo
        obtain ⟨before, hbody⟩ := Text.utf8Tail_append entry.body
          (min (remaining - entry.auditBytes) maxTranscriptEntryBodyBytes)
        obtain ⟨shown, rest, rfl, hrows⟩ := ih limit (remaining - entry.auditBytes
          - Text.len (Text.utf8Tail entry.body
            (min (remaining - entry.auditBytes) maxTranscriptEntryBodyBytes)))
        refine ⟨entry :: shown, rest, rfl, ?_⟩
        simp only [decide_eq_true hgo.1, if_true]
        refine .cons ⟨hgo.1, before, _, hbody, fun hlt => absurd hgo.1 (not_le_of_gt hlt), ?_⟩ ?_
        · rw [decide_eq_true hgo.1]
        · refine hrows.imp fun view entry' h => ?_
          exact ⟨h.1.trans ((Nat.sub_le _ _).trans (Nat.sub_le _ _)),
            h.2.mono ((Nat.sub_le _ _).trans (Nat.sub_le _ _)) h.1⟩

theorem length_projectRows_le (limit remaining : Nat) (first : Bool)
    (entries : List TranscriptEntry) :
    (D.projectRows t limit remaining first entries).length ≤ limit := by
  induction entries generalizing limit remaining first with
  | nil => cases limit <;> exact Nat.zero_le _
  | cons entry older ih =>
    cases limit with
    | zero => exact Nat.zero_le _
    | succ limit =>
      rw [projectRows]
      split
      · exact Nat.zero_le _
      · exact Nat.succ_le_succ (ih _ _ _)

/-- The rows of a page are of its newest entries, at least of one, and all but the newest fit. -/
theorem projectRows_spec (limit remaining : Nat) (entries : List TranscriptEntry) :
    ∃ shown rest, entries = shown ++ rest
      ∧ List.Forall₂ (D.Row t remaining) (D.projectRows t limit remaining true entries) shown
      ∧ (∀ entry ∈ shown.tail, entry.auditBytes ≤ remaining)
      ∧ (0 < limit → entries ≠ [] → shown ≠ []) := by
  cases entries with
  | nil =>
    exact ⟨[], [], rfl, by cases limit <;> exact .nil, fun _ h => absurd h List.not_mem_nil,
      fun _ h => absurd rfl h⟩
  | cons entry older =>
    cases limit with
    | zero =>
      exact ⟨[], entry :: older, rfl, .nil, fun _ h => absurd h List.not_mem_nil,
        fun h => absurd h (lt_irrefl 0)⟩
    | succ limit =>
      simp only [projectRows, Bool.not_true, Bool.false_and, Bool.false_eq_true, if_false]
      generalize hleft : (if decide (entry.auditBytes ≤ remaining) = true
        then remaining - entry.auditBytes else remaining) = left
      have hle : left ≤ remaining := by
        rw [← hleft]
        split
        · exact Nat.sub_le _ _
        · exact le_refl _
      obtain ⟨before, hbody⟩ := Text.utf8Tail_append entry.body
        (min left maxTranscriptEntryBodyBytes)
      obtain ⟨shown, rest, rfl, hrows⟩ := projectRows_rest (D := D) (t := t) limit
        (left - Text.len (Text.utf8Tail entry.body (min left maxTranscriptEntryBodyBytes))) older
      refine ⟨entry :: shown, rest, rfl, .cons ⟨before, _, hbody, fun hlt => ?_, rfl⟩ ?_, ?_,
        fun _ _ => List.cons_ne_nil _ _⟩
      · rw [← hleft, if_neg (by simpa using hlt)]
      · exact hrows.imp fun view entry' h => h.2.mono ((Nat.sub_le _ _).trans hle) h.1
      · intro entry' hentry'
        obtain ⟨i, hi, rfl⟩ := List.getElem_of_mem hentry'
        have hfits := (hrows.get (by rw [hrows.length_eq]; exact hi) hi).1
        exact hfits.trans ((Nat.sub_le _ _).trans hle)

theorem Rows.ids {remaining : Nat} {views : List TranscriptEntryView}
    {entries : List TranscriptEntry} (h : List.Forall₂ (D.Row t remaining) views entries) :
    views.map (·.id) = entries.map (·.id) := by
  induction h with
  | nil => rfl
  | cons hrow _ ih => rw [List.map_cons, List.map_cons, hrow.id, ih]

/-! ## Pages -/

variable (D t)

/-- A page of the visible entries from `start` to `stop`, whose first row had a budget of
`remaining`. -/
structure IsPage (page : TranscriptPage) (start stop remaining : Nat) : Prop where
  start_le : start ≤ stop
  stop_le : stop ≤ t.visible.length
  rows : List.Forall₂ (D.Row t remaining) page.entries ((t.visible.take stop).drop start)
  /-- Only the newest row may leave its audit out. -/
  fits : ∀ entry ∈ ((t.visible.take stop).drop start).dropLast, entry.auditBytes ≤ remaining
  prefixBefore : (D.transcriptPrefixes t)[start]? = some page.prefixBefore
  prefixThrough : (D.transcriptPrefixes t)[stop]? = some page.prefixThrough
  next : page.nextBeforeEntryId = if start > 0 then page.entries.head?.map (·.id) else none
  hasEarlier : page.hasEarlier = (t.historyTruncated || decide (0 < start))

variable {D t}

theorem IsPage.length_entries {page : TranscriptPage} {start stop remaining : Nat}
    (h : D.IsPage t page start stop remaining) : page.entries.length = stop - start := by
  have hstop := h.stop_le
  rw [h.rows.length_eq, List.length_drop, List.length_take, Nat.min_eq_left hstop]

/-- The entry that a page ends before is the one that its request named. -/
def pageStop (t : DomainTranscript) : Option String → Option Nat
  | none => some t.visible.length
  | some before => t.visible.findIdx? (·.id == before)

/-- What is reserved of the current owner entry's body is an end of it. -/
theorem ownerReserve_body {entries : List TranscriptEntry} {owner : TranscriptEntry}
    {windowStart budget : Nat} :
    ∃ earlier, owner.body
      = earlier ++ (ownerReserve entries (some owner) windowStart budget).body.getD "" := by
  simp only [ownerReserve]
  cases hbody : (some owner).filter fun _ => (some owner).any fun owner =>
    (entries.findIdx? (·.id == owner.id)).any (· < windowStart) with
  | none => exact ⟨owner.body, String.append_empty.symm⟩
  | some entry =>
    obtain rfl := Option.some.inj (Option.filter_eq_some_iff.1 hbody).1
    exact Text.utf8Tail_append _ _

variable (D) in
theorem projectedTranscriptPage_isPage (before : Option String) (limit budget : Nat) {stop : Nat}
    (hstop : pageStop t before = some stop) (hle : stop ≤ t.visible.length) :
    ∃ page start, D.projectedTranscriptPage t before limit budget = some page
      ∧ D.IsPage t page start stop
          (ownerReserve (t.visible.take stop) (if before.isNone then t.currentOwner else none)
            (stop - limit) budget).remaining
      ∧ (0 < limit → 0 < stop → start < stop) ∧ stop - start ≤ limit
      ∧ ∃ coordination body, page.currentOwnerEntry = D.projectedCurrentOwner t
          (if before.isNone then t.currentOwner else none) page.entries body coordination
        ∧ ∀ owner ∈ (if before.isNone then t.currentOwner else none),
          ∃ earlier, owner.body = earlier ++ body.getD "" := by
  generalize howner : (if before.isNone then t.currentOwner else none) = currentOwner
  generalize hreserve : ownerReserve (t.visible.take stop) currentOwner (stop - limit) budget
    = reserve
  obtain ⟨shown, rest, hentries, hrows, hfits, hprogress⟩ := projectRows_spec (D := D) (t := t) limit
    reserve.remaining (t.visible.take stop).reverse
  have hlength := congrArg List.length hentries
  rw [List.length_reverse, List.length_take, Nat.min_eq_left hle, List.length_append,
    ← hrows.length_eq] at hlength
  have hprefixes := D.length_transcriptPrefixes t
  set projected := (D.projectRows t limit reserve.remaining true (t.visible.take stop).reverse).reverse
    with hprojected
  have hcount : projected.length ≤ stop ∧ rest.length = stop - projected.length := by
    rw [hprojected, List.length_reverse]
    omega
  have htake : t.visible.take stop = rest.reverse ++ shown.reverse := by
    rw [← List.reverse_append, ← hentries, List.reverse_reverse]
  obtain ⟨prefixBefore, hbefore⟩ : ∃ p, (D.transcriptPrefixes t)[stop - projected.length]? = some p :=
    ⟨_, List.getElem?_eq_getElem (by omega)⟩
  obtain ⟨prefixThrough, hthrough⟩ : ∃ p, (D.transcriptPrefixes t)[stop]? = some p :=
    ⟨_, List.getElem?_eq_getElem (by omega)⟩
  refine ⟨{
      prefixBefore := prefixBefore
      prefixThrough := prefixThrough
      nextBeforeEntryId := if stop - projected.length > 0 then projected.head?.map (·.id) else none
      entries := projected
      hasEarlier := t.historyTruncated || decide (projected.length < stop)
      streamActive := before.isNone && t.streamActive
      streamLabel := t.streamLabel
      currentOwnerEntry := D.projectedCurrentOwner t currentOwner projected reserve.body
        (decide (reserve.coordinationBytes > 0))
      currentOwnerOmittedToolCalls := omittedOwnerToolCalls t.visible currentOwner projected },
    stop - projected.length, ?_, ?_, ?_, ?_, _, _, rfl, ?_⟩
  · cases before <;>
      simp only [pageStop] at hstop <;>
      simp only [projectedTranscriptPage, hstop, Option.bind_eq_bind, Option.bind_some, howner,
        hreserve, ← hprojected, hbefore, hthrough, Option.pure_def]
  · have hdrop : (t.visible.take stop).drop (stop - projected.length) = shown.reverse := by
      rw [htake, ← hcount.2, ← List.length_reverse, List.drop_left]
    refine ⟨Nat.sub_le _ _, hle, ?_, ?_, hbefore, hthrough, rfl, ?_⟩
    · rw [hdrop]
      exact List.rel_reverse hrows
    · intro entry hentry
      rw [hdrop, List.dropLast_reverse] at hentry
      exact hfits entry (List.mem_reverse.1 hentry)
    · have hiff : projected.length < stop ↔ 0 < stop - projected.length := by omega
      simp only [hiff]
  · intro hlimit hpos
    have hne : (t.visible.take stop).reverse ≠ [] := by
      intro hnil
      have hzero := congrArg List.length hnil
      simp only [List.length_reverse, List.length_take, List.length_nil] at hzero
      omega
    have hshown := List.length_pos_of_ne_nil (hprogress hlimit hne)
    rw [← hrows.length_eq] at hshown
    rw [hprojected, List.length_reverse]
    omega
  · have hrowsLimit := D.length_projectRows_le (t := t) limit reserve.remaining true
      (t.visible.take stop).reverse
    rw [hprojected, List.length_reverse]
    omega
  · intro owner howned
    rw [Option.mem_def.1 howned] at hreserve
    rw [← hreserve]
    exact ownerReserve_body

/-- The position of a visible entry is the one before which a page with its cursor ends. -/
theorem pageStop_getElem (hids : (t.visible.map (·.id)).Nodup) {i : Nat} (h : i < t.visible.length) :
    pageStop t (some t.visible[i].id) = some i := by
  rw [pageStop, List.findIdx?_eq_some_iff_getElem]
  refine ⟨h, beq_self_eq_true _, fun j hj heq => ?_⟩
  have hsame : t.visible[j] = t.visible[i] :=
    Keyed.eq_of_mem hids (List.getElem_mem _) (List.getElem_mem _) (by simpa using heq)
  exact absurd ((List.Nodup.of_map _ hids).getElem_inj_iff.1 hsame) (Nat.ne_of_lt hj)

/-- The page before a visible entry that is not the first has rows, and keeps nothing for an
owner. -/
theorem projectedTranscriptPage_before (hids : (t.visible.map (·.id)).Nodup) (budget : Nat)
    {limit i : Nat} {entry : TranscriptEntry} (hentry : t.visible[i]? = some entry) (hlimit : 0 < limit)
    (hi : 0 < i) :
    ∃ page start, D.projectedTranscriptPage t (some entry.id) limit budget = some page
      ∧ D.IsPage t page start i budget ∧ start < i ∧ i - start ≤ limit := by
  obtain ⟨hlt, rfl⟩ := List.getElem?_eq_some_iff.1 hentry
  have hstop := pageStop_getElem hids hlt
  obtain ⟨page, start, hpage, hrows, hprogress, hcount, -⟩ :=
    D.projectedTranscriptPage_isPage (some t.visible[i].id) limit budget hstop (Nat.le_of_lt hlt)
  exact ⟨page, start, hpage, hrows, hprogress hlimit hi, hcount⟩

end Digests

end Nakode
