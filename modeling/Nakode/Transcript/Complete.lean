import Nakode.Transcript.Hydration
import Nakode.Transcript.Pages

/-!
# Hydration of a transcript that does not change

The SDK completes the newest page of a transcript against the server that projects it
(`Digests.service`). Each window that it asks for ends where the body that it holds begins, so a row
is completed to its entry's body (`hydrateTranscriptEntry_eq`); each page that it asks for ends where
the rows that it holds begin, so the rows reach back as far as they were asked to
(`hydratePages_eq`). The current owner entry is completed as well, and there the two sides disagree
in one case (`OwnerSlip`): the server clears the body of a row without its coordination record, but
leaves the length and digest of the stub beside it, so no window of the entry's body can follow.
-/

namespace Nakode

/-- The server's answers for one transcript. -/
def Digests.service (D : Digests) (t : DomainTranscript) : TranscriptService where
  getTranscriptPage before limit := D.queryTranscriptPage t before limit
  getTranscriptBodyWindow := D.queryTranscriptBodyWindow t

variable {D : Digests} {t : DomainTranscript}

/-! ## Bodies -/

theorem transcriptBodyDigest_ne_empty (body : String) : D.transcriptBodyDigest body ≠ "" :=
  Digests.hexDigest_ne_empty _

theorem transcriptEntryBody_eq (hids : (t.entries.map (·.id)).Nodup) {entry : TranscriptEntry}
    (hentry : entry ∈ t.entries) : t.transcriptEntryBody entry.id = some entry.body := by
  rw [DomainTranscript.transcriptEntryBody, Keyed.find?_eq_some hids hentry]
  rfl

/-- A window that ends inside a body, before its last part. -/
theorem transcriptBodyWindow_eq (hids : (t.entries.map (·.id)).Nodup) {entry : TranscriptEntry}
    (hentry : entry ∈ t.entries) {before body : String} (hbody : entry.body = before ++ body)
    (hbefore : before ≠ "") :
    ∃ earlier window, before = earlier ++ window ∧ window ≠ ""
      ∧ D.queryTranscriptBodyWindow t entry.id (some (Text.len before)) bodyWindowLimit = .ok
        { bodySha256 := D.transcriptBodyDigest entry.body
          entryId := entry.id
          body := window
          startByte := Text.len earlier
          totalBytes := Text.len entry.body
          hasEarlier := decide (Text.len earlier > 0) } := by
  obtain ⟨earlier, hearlier⟩ := Text.utf8Tail_append before bodyWindowLimit
  have hwindow : Text.utf8Tail before bodyWindowLimit ≠ "" :=
    Text.utf8Tail_ne_empty hbefore (by decide)
  refine ⟨earlier, _, hearlier, hwindow, ?_⟩
  have hsplit : Text.splitAt? entry.body (Text.len before) = some (before, body) :=
    Text.splitAt?_eq_some_iff.2 ⟨hbody, rfl⟩
  have htotal : ¬ Text.len before > Text.len entry.body := by
    rw [hbody, Text.len_append]
    omega
  have hstart : Text.len before - Text.len (Text.utf8Tail before bodyWindowLimit)
      = Text.len earlier := by
    have hlen := congrArg Text.len hearlier
    rw [Text.len_append] at hlen
    omega
  have hprogress : ¬ (Text.len earlier = Text.len before ∧ Text.len before > 0) := by
    have hlen := congrArg Text.len hearlier
    rw [Text.len_append] at hlen
    have hpos := mt Text.len_eq_zero.1 hwindow
    omega
  have hlimit : (bodyWindowLimit == 0 || decide (bodyWindowLimit > maxTranscriptEntryBodyBytes))
      = false := by decide
  simp only [Digests.queryTranscriptBodyWindow, Digests.transcriptBodyWindow, hlimit, Bool.false_eq_true, if_false,
    transcriptEntryBody_eq hids hentry, Option.getD_some, if_neg htotal, hsplit, hstart,
    if_neg hprogress]

/-- A row of an entry is completed to the whole of its body. -/
theorem hydrateTranscriptEntry_eq (hids : (t.entries.map (·.id)).Nodup) {entry : TranscriptEntry}
    (hentry : entry ∈ t.entries) (before : String) {view : TranscriptEntryView}
    (hid : view.id = entry.id) (hsha : view.bodySha256 = D.transcriptBodyDigest entry.body)
    (htotal : view.bodyTotalBytes = Text.len entry.body) (hbody : entry.body = before ++ view.body)
    (hstart : view.bodyStartByte = Text.len before) :
    hydrateTranscriptEntry (D.service t) view
      = .ok { view with body := entry.body, bodyStartByte := 0 } := by
  induction hn : Text.len before using Nat.strong_induction_on generalizing before view with
  | _ n ih =>
  obtain rfl | hne := eq_or_ne before ""
  · have hwhole : view.body = entry.body := by rw [hbody, String.empty_append]
    have hzero : view.bodyStartByte = 0 := hstart
    rw [hydrateTranscriptEntry_whole hzero (by rw [hwhole, htotal]), ← hwhole, ← hzero]
  · obtain ⟨earlier, window, rfl, hwindow, hanswer⟩ :=
      transcriptBodyWindow_eq (D := D) hids hentry hbody hne
    have hlength := hstart
    rw [Text.len_append] at hlength
    have hpos := mt Text.len_eq_zero.1 hwindow
    rw [← hid, ← hstart] at hanswer
    rw [hydrateTranscriptEntry_window (S := D.service t) (by omega) hanswer ?_ rfl]
    · exact ih (Text.len earlier) (by rw [← hn, Text.len_append]; omega) earlier hid hsha htotal
        (by rw [hbody, String.append_assoc]) rfl rfl
    · simp only [contiguous, hid, hsha, htotal, bne_self_eq_false, Bool.and_false, Bool.false_or,
        Bool.not_eq_true', Bool.or_eq_false_iff, bne_eq_false_iff_eq, decide_eq_false_iff_not]
      omega

/-! ## Rows -/

/-- The coordination record of an entry does not fit, and its row is a stub. -/
def TranscriptEntry.stubbed (entry : TranscriptEntry) (remaining : Nat) : Prop :=
  entry.coordinationJson.isSome ∧ remaining < entry.auditBytes

instance (entry : TranscriptEntry) (remaining : Nat) : Decidable (entry.stubbed remaining) :=
  inferInstanceAs (Decidable (_ ∧ _))

/-- The stub of an entry when its page has so many bytes left. -/
def TranscriptEntry.stub (entry : TranscriptEntry) (remaining : Nat) : String :=
  Digests.coordinationStub (Text.utf8Tail entry.body (min remaining maxTranscriptEntryBodyBytes))

/-- What a client can read of an entry's body. -/
def TranscriptEntry.shownBody (entry : TranscriptEntry) (remaining : Nat) : String :=
  if entry.stubbed remaining then entry.stub remaining else entry.body

/-- The view of an entry that keeps its coordination record, if it has one. -/
theorem hydrateTranscriptEntry_view (hids : (t.entries.map (·.id)).Nodup) {entry : TranscriptEntry}
    (hentry : entry ∈ t.entries) {before body : String} (hbody : entry.body = before ++ body)
    {audit coordination : Bool} (hkept : entry.coordinationJson.isSome → coordination = true) :
    ∃ result, hydrateTranscriptEntry (D.service t)
        (D.transcriptEntryView t entry body audit coordination) = .ok result
      ∧ result.id = entry.id ∧ result.body = entry.body := by
  have hstart : Text.len entry.body - Text.len body = Text.len before := by
    rw [hbody, Text.len_append, Nat.add_sub_cancel]
  have hkept' : (entry.coordinationJson.isSome && !coordination) = false := by
    cases hsome : entry.coordinationJson.isSome with
    | false => rfl
    | true => rw [hkept hsome]; rfl
  refine ⟨_, hydrateTranscriptEntry_eq hids hentry before ?_ ?_ ?_ ?_ ?_, ?_, rfl⟩ <;>
    simp only [Digests.transcriptEntryView, hkept', Bool.false_eq_true, if_false]
  · rfl
  · exact hbody
  · exact hstart

/-- The view of an entry without its coordination record is a stub, which is complete. -/
theorem hydrateTranscriptEntry_stub {S : TranscriptService} {entry : TranscriptEntry} {body : String}
    {audit : Bool} (hsome : entry.coordinationJson.isSome) :
    ∃ result, hydrateTranscriptEntry S (D.transcriptEntryView t entry body audit false) = .ok result
      ∧ result.id = entry.id ∧ result.body = Digests.coordinationStub body := by
  refine ⟨_, hydrateTranscriptEntry_whole ?_ ?_, Digests.id_transcriptEntryView _ _ _ _, ?_⟩ <;>
    simp [Digests.transcriptEntryView, hsome]

/-- Every row is completed. -/
theorem hydrateTranscriptEntry_row (hids : (t.entries.map (·.id)).Nodup) {entry : TranscriptEntry}
    (hentry : entry ∈ t.entries) {remaining : Nat} {view : TranscriptEntryView}
    (hrow : D.Row t remaining view entry) :
    ∃ result, hydrateTranscriptEntry (D.service t) view = .ok result
      ∧ result.id = entry.id ∧ result.body = entry.shownBody remaining := by
  obtain ⟨before, body, hbody, hrest, rfl⟩ := hrow
  rw [TranscriptEntry.shownBody]
  split
  · next hstubbed =>
    have hunfit : decide (entry.auditBytes ≤ remaining) = false := by simpa using hstubbed.2
    rw [hunfit, TranscriptEntry.stub, ← hrest hstubbed.2]
    exact hydrateTranscriptEntry_stub hstubbed.1
  · next hkept =>
    refine hydrateTranscriptEntry_view hids hentry hbody fun hsome => ?_
    have hfits : ¬ remaining < entry.auditBytes := fun hlt => hkept ⟨hsome, hlt⟩
    simpa using hfits

/-! ## Pages -/

/-- Rows whose ids are not there yet are put behind the older ones. -/
theorem prependEntries_eq {current older : List TranscriptEntryView} {limit : Nat}
    (hids : ((older ++ current).map (·.id)).Nodup) (hlimit : (older ++ current).length ≤ limit) :
    prependEntries current older limit = older ++ current := by
  have happend : current.foldl putEntry older = older ++ current := by
    clear hlimit
    induction current generalizing older with
    | nil => exact (List.append_nil older).symm
    | cons entry current ih =>
      have hnew : older.findIdx? (·.id == entry.id) = none := by
        refine List.findIdx?_eq_none_iff.2 fun row hrow => beq_eq_false_iff_ne.2 fun heq => ?_
        rw [List.map_append, List.map_cons] at hids
        exact (List.nodup_append.1 hids).2.2 row.id (List.mem_map_of_mem hrow) entry.id
          List.mem_cons_self heq
      rw [List.append_cons] at hids ⊢
      rw [List.foldl_cons, putEntry, hnew]
      exact ih hids
  rw [prependEntries, happend, Nat.sub_eq_zero_of_le hlimit, List.drop_zero]

/-- A list from an index on, up to a later index and from there. -/
theorem drop_split {α : Type} {xs : List α} {i j : Nat} (h : i ≤ j) :
    xs.drop i = (xs.take j).drop i ++ xs.drop j := by
  rw [← List.take_append_drop (j - i) (xs.drop i), List.drop_drop, Nat.add_sub_cancel' h,
    List.drop_take]

variable (D t) in
/-- What the SDK holds after it read pages: the rows of the first page, behind older ones that had
the budget of a page each. -/
structure Held (page : TranscriptPage) (first : Nat) (transcript : TranscriptPage) (start : Nat) :
    Prop where
  start_le : start ≤ first
  rows : ∃ older, transcript.entries = older ++ page.entries
    ∧ List.Forall₂ (D.Row t maxTranscriptPageBodyBytes) older ((t.visible.take first).drop start)
  prefixBefore : (D.transcriptPrefixes t)[start]? = some transcript.prefixBefore
  next : transcript.nextBeforeEntryId
    = if start > 0 then transcript.entries.head?.map (·.id) else none
  hasEarlier : transcript.hasEarlier = (t.historyTruncated || decide (0 < start))
  currentOwnerEntry : transcript.currentOwnerEntry = page.currentOwnerEntry

/-- The first page is held. -/
theorem Digests.IsPage.held {page : TranscriptPage} {start stop remaining : Nat}
    (h : D.IsPage t page start stop remaining) : Held D t page start page start where
  start_le := le_refl _
  rows := ⟨[], rfl, by rw [List.drop_take_self]; exact .nil⟩
  prefixBefore := h.prefixBefore
  next := h.next
  hasEarlier := h.hasEarlier
  currentOwnerEntry := rfl

theorem Held.ids {page transcript : TranscriptPage} {first start remaining : Nat}
    (hpage : D.IsPage t page first t.visible.length remaining)
    (h : Held D t page first transcript start) :
    transcript.entries.map (·.id) = (t.visible.drop start).map (·.id) := by
  obtain ⟨older, hentries, hrows⟩ := h.rows
  have hnewest := hpage.rows
  rw [List.take_length] at hnewest
  rw [hentries, List.map_append, Digests.Rows.ids hrows, Digests.Rows.ids hnewest,
    ← List.map_append, ← drop_split h.start_le]

theorem Held.length_entries {page transcript : TranscriptPage} {first start remaining : Nat}
    (hpage : D.IsPage t page first t.visible.length remaining)
    (h : Held D t page first transcript start) :
    transcript.entries.length = t.visible.length - start := by
  have hlength := congrArg List.length (h.ids hpage)
  simpa using hlength

section
variable {page transcript older : TranscriptPage} {first start start' remaining : Nat}
  (hids : (t.visible.map (·.id)).Nodup)
  (hpage : D.IsPage t page first t.visible.length remaining)
  (h : Held D t page first transcript start)
  (holder : D.IsPage t older start' start maxTranscriptPageBodyBytes)

include hpage h holder

theorem Held.ids_append : (older.entries ++ transcript.entries).map (·.id)
    = (t.visible.drop start').map (·.id) := by
  have hstart := holder.start_le
  rw [List.map_append, Digests.Rows.ids holder.rows, h.ids hpage, ← List.map_append]
  rw [← drop_split hstart]

include hids

/-- The page before the rows that are held is accepted. -/
theorem Held.validate (hlt : start' < start) : validateTranscriptPage transcript older = .ok () := by
  have hnodup : ((older.entries ++ transcript.entries).map (·.id)).Nodup := by
    rw [h.ids_append hpage holder, List.map_drop]
    exact hids.drop
  rw [List.map_append] at hnodup
  have hthrough : older.prefixThrough = transcript.prefixBefore :=
    Option.some.inj (holder.prefixThrough.symm.trans h.prefixBefore)
  have hrows : older.entries ≠ [] := by
    have hcount := holder.length_entries
    exact List.ne_nil_of_length_pos (by omega)
  have hapart : ∀ row ∈ older.entries, ∀ held ∈ transcript.entries, ¬ held.id = row.id := by
    intro row hrow held hheld heq
    exact (List.nodup_append.1 hnodup).2.2 _ (List.mem_map_of_mem hrow) _
      (List.mem_map_of_mem hheld) heq.symm
  have hcursor : (older.nextBeforeEntryId.any fun id => older.entries.head?.all (·.id != id))
      = false := by
    rw [holder.next]
    split
    · cases older.entries.head? <;> simp
    · rfl
  rw [validateTranscriptPage, if_neg]
  simpa [hthrough, hrows, (List.nodup_append.1 hnodup).1, hcursor] using hapart

/-- The rows of the page before are put behind those that are held. -/
theorem Held.prepend {limit : Nat} (hlt : start' < start) (hlimit : t.visible.length - start' ≤ limit) :
    prependEntries transcript.entries older.entries limit = older.entries ++ transcript.entries
      ∧ Held D t page first { transcript with
          prefixBefore := older.prefixBefore
          nextBeforeEntryId := older.nextBeforeEntryId
          entries := older.entries ++ transcript.entries
          hasEarlier := older.hasEarlier } start' := by
  have hmap := h.ids_append hpage holder
  have hnodup : ((older.entries ++ transcript.entries).map (·.id)).Nodup := by
    rw [hmap, List.map_drop]
    exact hids.drop
  have hcount : (older.entries ++ transcript.entries).length = t.visible.length - start' := by
    have hlength := congrArg List.length hmap
    simpa using hlength
  have hstart := holder.start_le
  obtain ⟨rows, hrows, hforall⟩ := h.rows
  refine ⟨prependEntries_eq hnodup (by omega), hstart.trans h.start_le, ?_, holder.prefixBefore, ?_,
    holder.hasEarlier, h.currentOwnerEntry⟩
  · refine ⟨older.entries ++ rows, by rw [hrows, List.append_assoc], ?_⟩
    have hsplit : (t.visible.take first).drop start'
        = (t.visible.take start).drop start' ++ (t.visible.take first).drop start := by
      rw [drop_split hstart, List.take_take, Nat.min_eq_left h.start_le]
    rw [hsplit]
    exact List.rel_append holder.rows hforall
  · have hrows := holder.length_entries
    rw [holder.next, List.head?_append_of_ne_nil _ (List.ne_nil_of_length_pos (by omega))]

end

/-- There is no cursor exactly when the rows begin with the first entry. -/
theorem Held.ended_iff {page transcript : TranscriptPage} {first start remaining : Nat}
    (hpage : D.IsPage t page first t.visible.length remaining)
    (h : Held D t page first transcript start) (hprogress : 0 < start → start < t.visible.length) :
    (transcript.prefixBefore != "" && transcript.nextBeforeEntryId.isNone) = true ↔ start = 0 := by
  have hproof : transcript.prefixBefore ≠ "" :=
    D.transcriptPrefixes_ne_empty t _ (List.mem_of_getElem? h.prefixBefore)
  have hcount := h.length_entries hpage
  rw [h.next]
  cases start with
  | zero => simp [hproof]
  | succ start =>
    have hlt := hprogress (Nat.succ_pos start)
    have hrows := List.ne_nil_of_length_pos (l := transcript.entries) (by omega)
    simp [hrows]

/-- The row that a page is asked for before is that of the entry the rows begin with. -/
theorem Held.head {page transcript : TranscriptPage} {first start remaining : Nat}
    (hpage : D.IsPage t page first t.visible.length remaining)
    (h : Held D t page first transcript start) (hlt : start < t.visible.length) :
    ∃ row, transcript.entries.head? = some row ∧ row.id = t.visible[start].id := by
  have hhead := congrArg List.head? (h.ids hpage)
  rw [List.head?_map, List.head?_map, List.head?_drop, List.getElem?_eq_getElem hlt] at hhead
  exact Option.map_eq_some_iff.1 hhead

/-- Once the rows are as many as they were asked to be, or all there are, no page is read. -/
theorem Held.done {page transcript : TranscriptPage} {first remaining limit : Nat}
    (hpage : D.IsPage t page first t.visible.length remaining)
    (h : Held D t page first transcript (t.visible.length - limit))
    (hprogress : 0 < t.visible.length - limit → t.visible.length - limit < t.visible.length)
    {S : TranscriptService} {fuel : Nat} :
    hydratePages S limit fuel transcript = some (.ok transcript) := by
  have hcount := h.length_entries hpage
  obtain hzero | hpos := Nat.eq_zero_or_pos (t.visible.length - limit)
  · exact hydratePages_done (.inr ((h.ended_iff hpage hprogress).2 hzero))
  · have hfull : ¬ transcript.entries.length < limit := by omega
    exact hydratePages_done (.inl (by simp [hfull]))

/-- Pages are read until the rows are as many as they were asked to be, or all there are. -/
theorem hydratePages_eq (hids : (t.visible.map (·.id)).Nodup) {page : TranscriptPage}
    {first remaining : Nat} (hpage : D.IsPage t page first t.visible.length remaining)
    {limit fuel start : Nat} {transcript : TranscriptPage}
    (h : Held D t page first transcript start) (hprogress : 0 < start → start < t.visible.length)
    (hlimit : t.visible.length - start ≤ limit)
    (hfuel : limit ≤ fuel + (t.visible.length - start)) :
    ∃ result, hydratePages (D.service t) limit fuel transcript = some (.ok result)
      ∧ Held D t page first result (t.visible.length - limit) := by
  induction fuel generalizing transcript start with
  | zero =>
    have hstart : start = t.visible.length - limit := by omega
    subst hstart
    exact ⟨transcript, h.done hpage hprogress, h⟩
  | succ fuel ih =>
    obtain rfl | hlt := Nat.eq_or_lt_of_le (show t.visible.length - limit ≤ start by omega)
    · exact ⟨transcript, h.done hpage hprogress, h⟩
    have hpos : 0 < start := by omega
    have hcount := h.length_entries hpage
    have hstart := hprogress hpos
    obtain ⟨row, hrow, hid⟩ := h.head hpage hstart
    have hrequest : 0 < min (boundedLimit (limit - transcript.entries.length))
        maxTranscriptPageEntries := by
      rw [boundedLimit, maxTranscriptPageEntries]
      omega
    obtain ⟨older, start', holder, hisPage, hback, hrows⟩ :=
      Digests.projectedTranscriptPage_before (D := D) hids maxTranscriptPageBodyBytes
        (List.getElem?_eq_getElem hstart) hrequest hpos
    have hbounded : start - start' ≤ limit - transcript.entries.length := by
      rw [boundedLimit] at hrows
      omega
    have hanswer : (D.service t).getTranscriptPage (some row.id)
        (boundedLimit (limit - transcript.entries.length)) = .ok older := by
      simp only [Digests.service, Digests.queryTranscriptPage, Digests.sessionTranscriptPage, hid,
        holder]
    obtain ⟨hprepend, hheld⟩ := h.prepend hids hpage hisPage hback (show _ ≤ limit by omega)
    have hended : (transcript.prefixBefore != "" && transcript.nextBeforeEntryId.isNone) = false :=
      Bool.eq_false_iff.2 fun hended => absurd ((h.ended_iff hpage hprogress).1 hended) hpos.ne'
    have hmore : (transcript.hasEarlier && decide (transcript.entries.length < limit)) = true := by
      have hless : transcript.entries.length < limit := by omega
      simp [h.hasEarlier, hpos, hless]
    rw [hydratePages_next hmore hended hrow hanswer (h.validate hids hpage hisPage hback) ?_, hprepend]
    · exact ih hheld (fun _ => by omega) (by omega) (by omega)
    · have hgrown := hisPage.length_entries
      rw [hprepend, List.length_append]
      omega

/-! ## The current owner entry -/

/-- A window describes the whole body that it is of. -/
theorem queryTranscriptBodyWindow_ok (hids : (t.entries.map (·.id)).Nodup) {entry : TranscriptEntry}
    (hentry : entry ∈ t.entries) {stop : Option Nat} {limit : Nat} {window : TranscriptBodyWindow}
    (h : D.queryTranscriptBodyWindow t entry.id stop limit = .ok window) :
    window.bodySha256 = D.transcriptBodyDigest entry.body
      ∧ window.totalBytes = Text.len entry.body := by
  rw [Digests.queryTranscriptBodyWindow] at h
  split at h
  · next window' hwindow =>
    cases h
    simp only [Digests.transcriptBodyWindow, transcriptEntryBody_eq hids hentry] at hwindow
    repeat' split at hwindow
    all_goals cases hwindow
    exact ⟨rfl, rfl⟩
  · cases h

/-- A stub that is sent without its text is completed exactly when the entry's body has the length
and the digest of the stub. -/
theorem hydrateTranscriptEntry_cleared (hids : (t.entries.map (·.id)).Nodup)
    {entry : TranscriptEntry} (hentry : entry ∈ t.entries) (stub : String)
    {view : TranscriptEntryView} (hid : view.id = entry.id)
    (hsha : view.bodySha256 = D.transcriptBodyDigest stub)
    (htotal : view.bodyTotalBytes = Text.len stub) :
    (∃ result, hydrateTranscriptEntry (D.service t)
        { view with body := "", bodyStartByte := view.bodyTotalBytes } = .ok result)
      ↔ stub = "" ∨ (Text.len entry.body = Text.len stub
        ∧ D.transcriptBodyDigest entry.body = D.transcriptBodyDigest stub) := by
  constructor
  · rintro ⟨result, hresult⟩
    refine (eq_or_ne stub "").imp id fun hne => ?_
    have hpos : 0 < view.bodyTotalBytes :=
      htotal ▸ Nat.pos_of_ne_zero (mt Text.len_eq_zero.1 hne)
    obtain ⟨window, hwindow, hfits⟩ := hydrateTranscriptEntry_ok hpos hresult
    obtain ⟨hwsha, hwtotal⟩ := queryTranscriptBodyWindow_ok hids hentry (hid ▸ hwindow)
    have hproof := transcriptBodyDigest_ne_empty (D := D) stub
    simp only [contiguous, hsha, htotal, hwsha, hwtotal, Bool.not_eq_true', Bool.or_eq_false_iff,
      Bool.and_eq_false_iff, bne_eq_false_iff_eq, hproof, false_or] at hfits
    exact ⟨hfits.1.1.2, hfits.1.1.1.2⟩
  · rintro (rfl | ⟨hlen, hdigest⟩)
    · exact ⟨_, hydrateTranscriptEntry_whole htotal (by rw [htotal])⟩
    · exact ⟨_, hydrateTranscriptEntry_eq hids hentry entry.body hid
        (hsha.trans hdigest.symm) (htotal.trans hlen.symm) String.append_empty.symm
        (htotal.trans hlen.symm)⟩

/-- The view of an entry with an end of its body is completed, whether it is a stub or not. -/
theorem hydrateTranscriptEntry_total (hids : (t.entries.map (·.id)).Nodup) {entry : TranscriptEntry}
    (hentry : entry ∈ t.entries) {before body : String} (hbody : entry.body = before ++ body)
    (audit coordination : Bool) :
    ∃ result, hydrateTranscriptEntry (D.service t)
      (D.transcriptEntryView t entry body audit coordination) = .ok result := by
  cases hstub : entry.coordinationJson.isSome && !coordination with
  | true =>
    obtain ⟨hsome, hout⟩ := (Bool.and_eq_true _ _).mp hstub
    obtain rfl : coordination = false := by simpa using hout
    obtain ⟨result, hresult, -⟩ := hydrateTranscriptEntry_stub (D := D) (t := t)
      (S := D.service t) hsome
    exact ⟨result, hresult⟩
  | false =>
    obtain ⟨result, hresult, -⟩ := hydrateTranscriptEntry_view (D := D) hids hentry hbody
      fun hsome => by simpa [hsome] using hstub
    exact ⟨result, hresult⟩

/-- A row that is sent without its body is completed, unless it is a stub. -/
theorem hydrateTranscriptEntry_emptied (hids : (t.entries.map (·.id)).Nodup)
    {entry : TranscriptEntry} (hentry : entry ∈ t.entries) {remaining : Nat}
    {row : TranscriptEntryView} (hrow : D.Row t remaining row entry)
    (hkept : ¬ entry.stubbed remaining) :
    ∃ result, hydrateTranscriptEntry (D.service t)
      { row with body := "", bodyStartByte := row.bodyTotalBytes } = .ok result := by
  obtain ⟨before, body, -, -, rfl⟩ := hrow
  have hfull : (entry.coordinationJson.isSome && !decide (entry.auditBytes ≤ remaining))
      = false := by
    refine Bool.eq_false_iff.2 fun hboth => hkept ?_
    simpa [TranscriptEntry.stubbed] using hboth
  refine ⟨_, hydrateTranscriptEntry_eq hids hentry entry.body ?_ ?_ ?_ String.append_empty.symm ?_⟩
    <;> simp only [Digests.transcriptEntryView, hfull, Bool.false_eq_true, if_false]
  rfl

variable (D t) in
/-- The newest entry is the current owner's and its row is a stub that is not empty, which the
entry's body cannot be taken for. -/
def OwnerSlip (remaining : Nat) : Prop :=
  ∃ owner, t.visible.getLast? = some owner ∧ owner.kind = .user ∧ owner.stubbed remaining
    ∧ owner.stub remaining ≠ ""
    ∧ ¬ (Text.len owner.body = Text.len (owner.stub remaining)
      ∧ D.transcriptBodyDigest owner.body = D.transcriptBodyDigest (owner.stub remaining))

theorem currentOwner_eq_getLast {owner : TranscriptEntry} (hlast : t.visible.getLast? = some owner)
    (hkind : owner.kind = .user) : t.currentOwner = some owner := by
  obtain ⟨earlier, hvisible⟩ := List.getLast?_eq_some_iff.1 hlast
  simp [DomainTranscript.currentOwner, hvisible, hkind]

theorem visible_sublist : t.visible.Sublist t.entries := List.filter_sublist

/-- The row with the id of an entry is the entry's. -/
theorem row_of_find {page : TranscriptPage} {first remaining : Nat}
    (hids : (t.visible.map (·.id)).Nodup)
    (hpage : D.IsPage t page first t.visible.length remaining) {entry : TranscriptEntry}
    (hentry : entry ∈ t.visible) {row : TranscriptEntryView}
    (hrow : page.entries.find? (·.id == entry.id) = some row) :
    D.Row t remaining row entry ∧ entry ∈ t.visible.drop first := by
  have hid : row.id = entry.id := by simpa using List.find?_some hrow
  have hrows := hpage.rows
  rw [List.take_length] at hrows
  obtain ⟨i, hi, hget⟩ := List.getElem_of_mem (List.mem_of_find?_eq_some hrow)
  have hi' : i < (t.visible.drop first).length := hrows.length_eq ▸ hi
  have hshown := hrows.get hi hi'
  have hsame : (t.visible.drop first)[i] = entry := by
    refine Keyed.eq_of_mem hids (List.mem_of_mem_drop (List.getElem_mem hi')) hentry ?_
    rw [← hid, ← hget]
    exact hshown.id.symm
  rw [← hsame, ← hget]
  exact ⟨hshown, List.getElem_mem hi'⟩

/-- Only the newest entry of the page can be a stub. -/
theorem getLast_of_stubbed {page : TranscriptPage} {first remaining : Nat}
    (hpage : D.IsPage t page first t.visible.length remaining) {entry : TranscriptEntry}
    (hentry : entry ∈ t.visible.drop first) (hstubbed : entry.stubbed remaining) :
    t.visible.getLast? = some entry := by
  have hfits := hpage.fits
  rw [List.take_length] at hfits
  have hnew : entry ∉ (t.visible.drop first).dropLast := fun hmem =>
    absurd (hfits entry hmem) (not_le_of_gt hstubbed.2)
  have hne := List.ne_nil_of_mem hentry
  rw [← List.dropLast_append_getLast hne, List.mem_append] at hentry
  have hlast := List.mem_singleton.1 (hentry.resolve_left hnew)
  have hget := List.getLast?_eq_some_getLast hne
  rw [List.getLast?_drop, if_neg fun hle => hne (List.drop_of_length_le hle), ← hlast] at hget
  exact hget

/-- The current owner entry of the newest page is completed but for the slip. -/
theorem hydrate_currentOwner (hids : (t.entries.map (·.id)).Nodup) {page : TranscriptPage}
    {first remaining : Nat} (hpage : D.IsPage t page first t.visible.length remaining)
    (hprogress : 0 < t.visible.length → first < t.visible.length) {owner : TranscriptEntry}
    (howner : t.currentOwner = some owner) {body : Option String} {coordination : Bool}
    (hbody : ∃ earlier, owner.body = earlier ++ body.getD "") {view : TranscriptEntryView}
    (hview : D.projectedCurrentOwner t (some owner) page.entries body coordination = some view) :
    (∃ result, hydrateTranscriptEntry (D.service t) view = .ok result)
      ↔ ¬ OwnerSlip D t remaining := by
  have hvisible : owner ∈ t.visible :=
    List.mem_reverse.1 (List.mem_of_find?_eq_some howner)
  have hentry : owner ∈ t.entries := visible_sublist.subset hvisible
  have hvids : (t.visible.map (·.id)).Nodup := hids.sublist (visible_sublist.map _)
  have hslip : OwnerSlip D t remaining → t.visible.getLast? = some owner
      ∧ owner.stubbed remaining ∧ owner.stub remaining ≠ ""
      ∧ ¬ (Text.len owner.body = Text.len (owner.stub remaining)
        ∧ D.transcriptBodyDigest owner.body = D.transcriptBodyDigest (owner.stub remaining)) := by
    rintro ⟨newest, hlast, hkind, hnewest⟩
    obtain rfl := Option.some.inj (howner.symm.trans (currentOwner_eq_getLast hlast hkind))
    exact ⟨hlast, hnewest⟩
  have hkind : owner.kind = .user := by simpa using List.find?_some howner
  cases hrow : page.entries.find? (·.id == owner.id) with
  | none =>
    obtain ⟨earlier, hbody⟩ := hbody
    simp only [Digests.projectedCurrentOwner, Option.map_some, hrow, Option.some.injEq] at hview
    subst hview
    refine iff_of_true (hydrateTranscriptEntry_total hids hentry hbody _ _) fun hslipped => ?_
    have hmem : owner ∈ t.visible.drop first := by
      have hlt := hprogress (List.length_pos_of_mem hvisible)
      refine List.mem_of_getLast? ?_
      rw [List.getLast?_drop, if_neg (by omega)]
      exact (hslip hslipped).1
    have hheld := hpage.held.ids hpage
    have hid : owner.id ∈ page.entries.map (·.id) := hheld ▸ List.mem_map_of_mem hmem
    obtain ⟨row, hrowMem, hrowId⟩ := List.mem_map.1 hid
    exact absurd hrowId (by simpa using List.find?_eq_none.1 hrow row hrowMem)
  | some row =>
    obtain ⟨hshown, hmem⟩ := row_of_find hvids hpage hvisible hrow
    simp only [Digests.projectedCurrentOwner, Option.map_some, hrow, Option.some.injEq] at hview
    subst hview
    by_cases hstubbed : owner.stubbed remaining
    · obtain ⟨hsome, hover⟩ := hstubbed
      have hlast := getLast_of_stubbed hpage hmem ⟨hsome, hover⟩
      obtain ⟨-, shown, -, hrest, rfl⟩ := hshown
      have hunfit : decide (owner.auditBytes ≤ remaining) = false := by simpa using hover
      rw [hydrateTranscriptEntry_cleared hids hentry (owner.stub remaining)
        (Digests.id_transcriptEntryView _ _ _ _)]
      · constructor
        · rintro hfits hslipped
          exact hfits.elim (hslip hslipped).2.2.1 (hslip hslipped).2.2.2
        · intro hfits
          by_contra hcleared
          obtain ⟨hne, hbody⟩ := not_or.1 hcleared
          exact hfits ⟨owner, hlast, hkind, ⟨hsome, hover⟩, hne, hbody⟩
      · simp [Digests.transcriptEntryView, hunfit, hsome, TranscriptEntry.stub, ← hrest hover]
      · simp [Digests.transcriptEntryView, hunfit, hsome, TranscriptEntry.stub, ← hrest hover]
    · exact iff_of_true (hydrateTranscriptEntry_emptied hids hentry hshown hstubbed)
        fun hslipped => hstubbed (hslip hslipped).2.1

/-! ## The whole transcript -/

/-- The rows of a list of entries are completed one after the other. -/
theorem mapM_hydrateTranscriptEntry (hids : (t.entries.map (·.id)).Nodup) {remaining : Nat}
    {rows : List TranscriptEntryView} {entries : List TranscriptEntry}
    (hentries : ∀ entry ∈ entries, entry ∈ t.entries)
    (hrows : List.Forall₂ (D.Row t remaining) rows entries) :
    ∃ results, rows.mapM (hydrateTranscriptEntry (D.service t)) = .ok results
      ∧ results.map (fun result => (result.id, result.body))
        = entries.map fun entry => (entry.id, entry.shownBody remaining) := by
  induction hrows with
  | nil => exact ⟨[], rfl, rfl⟩
  | cons hrow _ ih =>
    obtain ⟨hentry, hentries⟩ := List.forall_mem_cons.1 hentries
    obtain ⟨result, hresult, hid, hbody⟩ := hydrateTranscriptEntry_row hids hentry hrow
    obtain ⟨results, hresults, hmap⟩ := ih hentries
    refine ⟨result :: results, ?_, ?_⟩
    · rw [List.mapM_cons, hresult, hresults]
      rfl
    · rw [List.map_cons, List.map_cons, hmap, hid, hbody]

variable (D t) in
/-- The rows to complete: those before the newest page, and those of it. -/
def Assembled (first remaining start : Nat) (rows : List TranscriptEntryView) : Prop :=
  ∃ older newest, rows = older ++ newest
    ∧ List.Forall₂ (D.Row t maxTranscriptPageBodyBytes) older ((t.visible.take first).drop start)
    ∧ List.Forall₂ (D.Row t remaining) newest (t.visible.drop (max first start))

/-- The pages that are read for a limit, from the newest one. -/
theorem hydratePages_assembled (hids : (t.visible.map (·.id)).Nodup) {page : TranscriptPage}
    {first remaining : Nat} (hpage : D.IsPage t page first t.visible.length remaining)
    (hprogress : 0 < t.visible.length → first < t.visible.length) {limit fuel : Nat}
    (hlimit : 1 ≤ limit) (hfuel : limit ≤ fuel) :
    ∃ paged, hydratePages (D.service t) limit fuel (trimPage page limit) = some (.ok paged)
      ∧ paged.currentOwnerEntry = page.currentOwnerEntry
      ∧ Assembled D t first remaining (t.visible.length - limit) paged.entries := by
  have hcount := hpage.length_entries
  have hfirst := hpage.start_le
  have hrows := hpage.rows
  rw [List.take_length] at hrows
  obtain hshort | hlong := Nat.lt_or_ge limit page.entries.length |>.symm
  · obtain ⟨paged, hpaged, hheld⟩ := hydratePages_eq hids hpage hpage.held
      (fun _ => hprogress (by omega)) (show _ ≤ limit by omega) (show _ ≤ fuel + _ by omega)
    obtain ⟨older, hentries, holder⟩ := hheld.rows
    rw [trimPage, if_neg (by omega)]
    refine ⟨paged, hpaged, hheld.currentOwnerEntry, older, page.entries, hentries, holder, ?_⟩
    rwa [Nat.max_eq_left (by omega)]
  · have hdrop : (page.entries.drop (page.entries.length - limit)).length = limit := by
      rw [List.length_drop]
      omega
    rw [trimPage, if_pos hlong]
    refine ⟨_, hydratePages_done (.inl ?_), rfl, [],
      page.entries.drop (page.entries.length - limit), rfl, ?_, ?_⟩
    · simp [hdrop]
    · rw [List.drop_of_length_le]
      · exact .nil
      · rw [List.length_take]
        omega
    · have hwindow : t.visible.drop (max first (t.visible.length - limit))
          = (t.visible.drop first).drop (page.entries.length - limit) := by
        rw [List.drop_drop]
        congr 1
        omega
      rw [hwindow]
      exact List.forall₂_drop _ hrows

variable (t) in
/-- Every coordination record fits into the budget of its page, or its stub is all of the body. -/
def RecordsFit (first remaining start : Nat) : Prop :=
  (∀ entry ∈ (t.visible.take first).drop start, entry.stubbed maxTranscriptPageBodyBytes →
      entry.stub maxTranscriptPageBodyBytes = entry.body)
    ∧ ∀ entry ∈ t.visible.drop (max first start), entry.stubbed remaining →
      entry.stub remaining = entry.body

/-- A record that fits, or a stub that is all of the body, is no slip. -/
theorem RecordsFit.notSlip {first remaining limit : Nat}
    (hprogress : 0 < t.visible.length → first < t.visible.length) (hlimit : 1 ≤ limit)
    (h : RecordsFit t first remaining (t.visible.length - limit)) : ¬ OwnerSlip D t remaining := by
  rintro ⟨owner, hlast, -, hstubbed, -, hother⟩
  have hpos := List.length_pos_of_mem (List.mem_of_getLast? hlast)
  have hfirst := hprogress hpos
  have hmem : owner ∈ t.visible.drop (max first (t.visible.length - limit)) := by
    refine List.mem_of_getLast? ?_
    rw [List.getLast?_drop, if_neg (by omega), hlast]
  have hstub := h.2 owner hmem hstubbed
  exact hother ⟨by rw [hstub], by rw [hstub]⟩

theorem shownBody_eq_iff {entries : List TranscriptEntry} {remaining : Nat} :
    (entries.map (fun entry => (entry.id, entry.shownBody remaining))
        = entries.map fun entry => (entry.id, entry.body))
      ↔ ∀ entry ∈ entries, entry.stubbed remaining → entry.stub remaining = entry.body := by
  rw [List.map_inj_left]
  refine forall₂_congr fun entry _ => ?_
  rw [Prod.mk.injEq, TranscriptEntry.shownBody]
  split
  · next hstubbed => simp [hstubbed]
  · next hkept => simp [hkept]

/-- The rows are completed, to the entries' bodies exactly when every record fits. -/
theorem Assembled.hydrate (hids : (t.entries.map (·.id)).Nodup) {first remaining start : Nat}
    {rows : List TranscriptEntryView} (h : Assembled D t first remaining start rows) :
    ∃ results, rows.mapM (hydrateTranscriptEntry (D.service t)) = .ok results
      ∧ ((results.map (fun result => (result.id, result.body))
          = (t.visible.drop start).map fun entry => (entry.id, entry.body))
        ↔ RecordsFit t first remaining start) := by
  obtain ⟨older, newest, rfl, holder, hnewest⟩ := h
  obtain ⟨older', hhydrated, hmap⟩ := mapM_hydrateTranscriptEntry hids
    (fun _ h => visible_sublist.subset (List.mem_of_mem_take (List.mem_of_mem_drop h))) holder
  obtain ⟨newest', hhydrated', hmap'⟩ := mapM_hydrateTranscriptEntry hids
    (fun _ h => visible_sublist.subset (List.mem_of_mem_drop h)) hnewest
  have hsplit : t.visible.drop start
      = (t.visible.take first).drop start ++ t.visible.drop (max first start) := by
    obtain hle | hlt := Nat.le_total start first
    · rw [Nat.max_eq_left hle]
      exact drop_split hle
    · have hnone : (t.visible.take first).drop start = [] :=
        List.drop_of_length_le ((List.length_take_le _ _).trans hlt)
      rw [Nat.max_eq_right hlt, hnone, List.nil_append]
  refine ⟨older' ++ newest', ?_, ?_⟩
  · rw [List.mapM_append, hhydrated, hhydrated']
    rfl
  · rw [List.map_append, hmap, hmap', hsplit, List.map_append]
    constructor
    · intro hsame
      obtain ⟨holder, hnewest⟩ := List.append_inj hsame (by rw [List.length_map, List.length_map])
      exact ⟨shownBody_eq_iff.1 holder, shownBody_eq_iff.1 hnewest⟩
    · rintro ⟨holder, hnewest⟩
      rw [shownBody_eq_iff.2 holder, shownBody_eq_iff.2 hnewest]

/-- What the rows of the newest page of a session have for their bodies and records. -/
def newestPageBudget (t : DomainTranscript) : Nat :=
  (Digests.ownerReserve t.visible t.currentOwner
    (t.visible.length - alignedNewestWindow t.visible.length maxTranscriptSnapshotEntries)
    maxTranscriptSnapshotBodyBytes).remaining

theorem transcriptPage_isPage :
    ∃ page first, D.transcriptPage t = some page
      ∧ D.IsPage t page first t.visible.length (newestPageBudget t)
      ∧ (0 < t.visible.length → first < t.visible.length)
      ∧ ∃ coordination body, page.currentOwnerEntry
          = D.projectedCurrentOwner t t.currentOwner page.entries body coordination
        ∧ ∀ owner ∈ t.currentOwner, ∃ earlier, owner.body = earlier ++ body.getD "" := by
  have hwindow : 0 < alignedNewestWindow t.visible.length maxTranscriptSnapshotEntries := by
    rw [alignedNewestWindow]
    split
    · decide
    · next hlong =>
      have hlen : maxTranscriptSnapshotEntries < t.visible.length := by
        simpa using (not_or.1 (mt (Bool.or_eq_true _ _).mpr hlong)).1
      simp only [maxTranscriptSnapshotEntries, transcriptWindowAlignment] at hlen ⊢
      omega
  obtain ⟨page, first, hpage, hisPage, hprogress, -, howner⟩ :=
    D.projectedTranscriptPage_isPage (t := t) none _ maxTranscriptSnapshotBodyBytes rfl (le_refl _)
  rw [List.take_length] at hisPage
  exact ⟨page, first, hpage, hisPage, hprogress hwindow, howner⟩

/-- The completion of a transcript is the newest entries with all of their bodies. -/
def CompletedTo (t : DomainTranscript) (limit : Nat)
    (answer : Option (Except SdkError TranscriptPage)) : Prop :=
  ∃ result, answer = some (.ok result)
    ∧ result.entries.map (fun entry => (entry.id, entry.body))
      = (t.visible.drop (t.visible.length - limit)).map fun entry => (entry.id, entry.body)

/-- The rows that are completed from the newest page, and whether the current owner entry is. -/
theorem hydrateTranscript_transcriptPage (D : Digests) (hids : (t.entries.map (·.id)).Nodup)
    {limit fuel : Nat} (hlimit : 1 ≤ limit) (hfuel : limit ≤ fuel) :
    ∃ page rows, D.transcriptPage t = some page
      ∧ (0 < t.visible.length → t.visible.length - page.entries.length < t.visible.length)
      ∧ (∀ result, hydrateTranscript (D.service t) fuel page limit = some (.ok result) →
        result.entries = rows)
      ∧ (rows.map (fun entry => (entry.id, entry.body))
          = (t.visible.drop (t.visible.length - limit)).map (fun entry => (entry.id, entry.body))
        ↔ RecordsFit t (t.visible.length - page.entries.length) (newestPageBudget t)
          (t.visible.length - limit))
      ∧ ((∃ result, hydrateTranscript (D.service t) fuel page limit = some (.ok result))
        ↔ ¬ OwnerSlip D t (newestPageBudget t)) := by
  have hvids : (t.visible.map (·.id)).Nodup := hids.sublist (visible_sublist.map _)
  obtain ⟨page, first, hpage, hisPage, hprogress, coordination, body, howner, hbody⟩ :=
    transcriptPage_isPage (D := D) (t := t)
  have hcount := hisPage.length_entries
  have hle := hisPage.start_le
  have hfirst : t.visible.length - page.entries.length = first := by omega
  obtain ⟨paged, hpaged, hpagedOwner, hassembled⟩ :=
    hydratePages_assembled hvids hisPage hprogress hlimit hfuel
  obtain ⟨rows, hrows, hfits⟩ := hassembled.hydrate hids
  rw [← hfirst] at hfits hprogress
  refine ⟨page, rows, hpage, hprogress, fun _ => hydrateTranscript_entries hpaged hrows, hfits,
    (hydrateTranscript_ok_iff hpaged hrows).trans ?_⟩
  rw [hpagedOwner, howner]
  cases hcurrent : t.currentOwner with
  | none =>
    refine iff_of_true (fun _ h => absurd h (Option.not_mem_none _)) ?_
    rintro ⟨owner, hlast, hkind, -⟩
    cases hcurrent.symm.trans (currentOwner_eq_getLast hlast hkind)
  | some owner =>
    have hview : D.projectedCurrentOwner t (some owner) page.entries body coordination
        = some _ := rfl
    rw [hview]
    simp only [Option.mem_some_iff, forall_eq']
    rw [hfirst] at hprogress
    exact hydrate_currentOwner hids hisPage hprogress hcurrent (hbody owner hcurrent) hview

/-- Hydration succeeds but for the slip, and then has the whole of every body exactly when every
coordination record fits. -/
theorem hydration_complete (D : Digests) (t : DomainTranscript)
    (hids : (t.entries.map (·.id)).Nodup) {limit fuel : Nat} (hlimit : 1 ≤ limit)
    (hfuel : limit ≤ fuel) :
    ∃ page, D.transcriptPage t = some page
      ∧ (CompletedTo t limit (hydrateTranscript (D.service t) fuel page limit)
        ↔ RecordsFit t (t.visible.length - page.entries.length) (newestPageBudget t)
          (t.visible.length - limit))
      ∧ ((∃ result, hydrateTranscript (D.service t) fuel page limit = some (.ok result))
        ↔ ¬ OwnerSlip D t (newestPageBudget t)) := by
  obtain ⟨page, rows, hpage, hprogress, hentries, hfits, hslip⟩ :=
    hydrateTranscript_transcriptPage D hids hlimit hfuel
  refine ⟨page, hpage, ⟨?_, fun hrecords => ?_⟩, hslip⟩
  · rintro ⟨result, hresult, hrows⟩
    rw [hentries result hresult] at hrows
    exact hfits.1 hrows
  · obtain ⟨result, hresult⟩ := hslip.2 (hrecords.notSlip hprogress hlimit)
    refine ⟨result, hresult, ?_⟩
    rw [hentries result hresult]
    exact hfits.2 hrecords

/-! ## A record that does not fit -/

/-- A record of a number of bytes. -/
def recordOf (size : Nat) : String := String.ofList (List.replicate size 'x')

theorem len_recordOf (size : Nat) : Text.len (recordOf size) = size := by
  rw [recordOf, Text.len_ofList]
  induction size with
  | zero => rfl
  | succ size ih => rw [List.replicate_succ, String.utf8Len, ih]; rfl

def requestText : String :=
  "Please review the pull request, run the whole test suite and report what is left to do."

/-- A request of the user, delivered with the record of the messages that it is made of. -/
def relayedRequest (size : Nat) : TranscriptEntry where
  coordinationJson := some (recordOf size)
  id := "entry-1"
  key := some "user:prompt-1"
  kind := .user
  title := "You"
  body := requestText
  status := .complete

def relayedTranscript (size : Nat) : DomainTranscript where
  entries := [relayedRequest size]
  images := ∅
  streamActive := false
  streamLabel := ""
  historyTruncated := false

/-- The record is reserved once for the current owner entry, and is not to be found in what is left
for its row. -/
theorem newestPageBudget_relayed {size : Nat} (h : size ≤ maxTranscriptSnapshotBodyBytes) :
    newestPageBudget (relayedTranscript size) = maxTranscriptSnapshotBodyBytes - size := by
  have hvisible : (relayedTranscript size).visible = [relayedRequest size] := rfl
  have howner : (relayedTranscript size).currentOwner = some (relayedRequest size) := rfl
  have hrecord : (relayedRequest size).coordinationJson = some (recordOf size) := rfl
  have hwindow : ¬ 0 < 1 - alignedNewestWindow 1 maxTranscriptSnapshotEntries := by decide
  rw [newestPageBudget, hvisible, howner]
  simp [Digests.ownerReserve, hrecord, len_recordOf, h, Option.filter, hwindow]

theorem auditBytes_relayedRequest (size : Nat) : (relayedRequest size).auditBytes = size := by
  show 0 + Text.len (recordOf size) = size
  rw [len_recordOf, Nat.zero_add]

theorem ownerSlip_relayed (D : Digests) {size : Nat} (h : size ≤ maxTranscriptSnapshotBodyBytes)
    (hhalf : maxTranscriptSnapshotBodyBytes - size < size)
    (hbody : 128 ≤ maxTranscriptSnapshotBodyBytes - size) :
    OwnerSlip D (relayedTranscript size) (newestPageBudget (relayedTranscript size)) := by
  rw [newestPageBudget_relayed h]
  generalize hremaining : maxTranscriptSnapshotBodyBytes - size = remaining at hhalf hbody ⊢
  have hwhole : Text.utf8Tail (relayedRequest size).body
      (min remaining maxTranscriptEntryBodyBytes) = (relayedRequest size).body := by
    refine Text.utf8Tail_eq_self (le_min (le_trans ?_ hbody) ?_)
    · show Text.len requestText ≤ 128
      decide +kernel
    · show Text.len requestText ≤ maxTranscriptEntryBodyBytes
      decide +kernel
  have hstub : (relayedRequest size).stub remaining = Digests.coordinationNotice := by
    rw [TranscriptEntry.stub, hwhole]
    show Digests.coordinationStub requestText = _
    decide +kernel
  refine ⟨relayedRequest size, rfl, rfl, ⟨rfl, ?_⟩, ?_, ?_⟩
  · rwa [auditBytes_relayedRequest]
  · rw [hstub]
    decide +kernel
  · rw [hstub]
    refine fun hsame => absurd hsame.1 ?_
    show Text.len requestText ≠ Text.len Digests.coordinationNotice
    decide +kernel

/-- A session of one request cannot be read, since its record is larger than half of the budget of
the newest page. -/
theorem hydration_slips : ((relayedTranscript (600 * 1024)).entries.map (·.id)).Nodup
    ∧ ∀ (D : Digests) (fuel : Nat), 1 ≤ fuel →
      ∃ page, D.transcriptPage (relayedTranscript (600 * 1024)) = some page
        ∧ ¬ ∃ result, hydrateTranscript (D.service (relayedTranscript (600 * 1024))) fuel page 1
          = some (.ok result) := by
  have hids : ((relayedTranscript (600 * 1024)).entries.map (·.id)).Nodup := List.nodup_singleton _
  refine ⟨hids, fun D fuel hfuel => ?_⟩
  obtain ⟨page, -, hpage, -, -, -, hslip⟩ :=
    hydrateTranscript_transcriptPage D hids (le_refl 1) hfuel
  exact ⟨page, hpage, fun hok =>
    hslip.1 hok (ownerSlip_relayed D (by decide) (by decide) (by decide))⟩

/-- With a record of 16 KiB the session is read. -/
theorem hydration_complete_relayed :
    ((relayedTranscript (16 * 1024)).entries.map (·.id)).Nodup
    ∧ ∀ D : Digests, ∃ page, D.transcriptPage (relayedTranscript (16 * 1024)) = some page
      ∧ CompletedTo (relayedTranscript (16 * 1024)) 1
        (hydrateTranscript (D.service (relayedTranscript (16 * 1024))) 1 page 1) := by
  have hids : ((relayedTranscript (16 * 1024)).entries.map (·.id)).Nodup := List.nodup_singleton _
  refine ⟨hids, fun D => ?_⟩
  obtain ⟨page, hpage, hcompleted, -⟩ := hydration_complete D _ hids (le_refl 1) (le_refl 1)
  refine ⟨page, hpage, hcompleted.2 ?_⟩
  rw [newestPageBudget_relayed (by decide)]
  have hrequest : ∀ entry ∈ (relayedTranscript (16 * 1024)).visible,
      entry = relayedRequest (16 * 1024) := fun _ h => List.mem_singleton.1 h
  refine ⟨fun entry hentry hstubbed => ?_, fun entry hentry hstubbed => ?_⟩
  · have hlarge := hstubbed.2
    rw [hrequest entry (List.mem_of_mem_take (List.mem_of_mem_drop hentry)),
      auditBytes_relayedRequest] at hlarge
    exact absurd hlarge (by decide)
  · have hlarge := hstubbed.2
    rw [hrequest entry (List.mem_of_mem_drop hentry), auditBytes_relayedRequest] at hlarge
    exact absurd hlarge (by decide)

end Nakode
