import Nakode.Transcript.Complete

/-!
# Paging through a transcript

A client reads the newest page and then the page before the first row of each, until a page names no
cursor (`readBack`). A row shows an end of its entry's body, or of a notice when its coordination
record is left out (`Shows`); the rows and the current owner entry together fit into the budget of
their page (`bytes_projectedTranscriptPage_le`). Each page begins before the one that was read
before it, so the read ends, and the pages are the visible entries (`paging_lossless`).
-/

namespace Nakode

/-! ## Budgets -/

/-- The bytes of a view that count towards the budget of its page. -/
def TranscriptEntryView.bytes (view : TranscriptEntryView) : Nat :=
  Text.len view.body + view.toolAuditJson.elim 0 Text.len + view.coordinationJson.elim 0 Text.len

/-- The bytes of a page: those of its rows, and the body and the coordination record of the current
owner entry. -/
def TranscriptPage.bytes (page : TranscriptPage) : Nat :=
  (page.entries.map (·.bytes)).sum + page.currentOwnerEntry.elim 0 fun owner =>
    Text.len owner.body + owner.coordinationJson.elim 0 Text.len

namespace Digests

variable {D : Digests} {t : DomainTranscript}

theorem coordinationJson_transcriptEntryView (entry : TranscriptEntry) (body : String)
    (audit coordination : Bool) :
    (D.transcriptEntryView t entry body audit coordination).coordinationJson
      = if coordination then entry.coordinationJson else none := by
  unfold transcriptEntryView
  dsimp only
  split <;> rfl

theorem toolAuditJson_transcriptEntryView (entry : TranscriptEntry) (body : String)
    (audit coordination : Bool) :
    (D.transcriptEntryView t entry body audit coordination).toolAuditJson
      = if audit then entry.toolAuditJson else none := by
  unfold transcriptEntryView
  dsimp only
  split <;> rfl

theorem coordinationNotice_append (body : String) :
    ∃ rest, coordinationNotice = coordinationStub body ++ rest :=
  ⟨String.ofList (coordinationNotice.toList.drop (Text.len body)), by
    rw [coordinationStub, ← String.ofList_append, List.take_append_drop, String.ofList_toList]⟩

theorem len_coordinationStub_le (body : String) : Text.len (coordinationStub body) ≤ Text.len body := by
  have hall : coordinationNotice.toList.all (fun c => c.utf8Size == 1) = true := by decide
  have hascii : ∀ c ∈ coordinationNotice.toList, c.utf8Size = 1 := by
    intro c hc
    simpa using List.all_eq_true.1 hall c hc
  have hlist : ∀ cs : List Char, (∀ c ∈ cs, c.utf8Size = 1) → String.utf8Len cs = cs.length := by
    intro cs hcs
    induction cs with
    | nil => rfl
    | cons c cs ih =>
      rw [String.utf8Len_cons, hcs c List.mem_cons_self,
        ih fun c hc => hcs c (List.mem_cons_of_mem _ hc), List.length_cons]
  rw [coordinationStub, Text.len_ofList, hlist _ fun c hc => hascii c (List.mem_of_mem_take hc),
    List.length_take]
  exact Nat.min_le_left _ _

theorem len_body_transcriptEntryView_le (entry : TranscriptEntry) (body : String)
    (audit coordination : Bool) :
    Text.len (D.transcriptEntryView t entry body audit coordination).body ≤ Text.len body := by
  unfold transcriptEntryView
  dsimp only
  split
  · exact len_coordinationStub_le body
  · exact Nat.le_refl _

theorem bytes_transcriptEntryView_le (entry : TranscriptEntry) (body : String) (included : Bool) :
    (D.transcriptEntryView t entry body included included).bytes
      ≤ Text.len body + if included then entry.auditBytes else 0 := by
  have hbody := len_body_transcriptEntryView_le (D := D) (t := t) entry body included included
  rw [TranscriptEntryView.bytes, coordinationJson_transcriptEntryView,
    toolAuditJson_transcriptEntryView]
  cases included with
  | true =>
    simp only [if_true, TranscriptEntry.auditBytes]
    omega
  | false =>
    simp only [Bool.false_eq_true, if_false, Option.elim_none]
    omega

/-- The rows of a page fit into what is left of its budget. -/
theorem bytes_projectRows_le (limit remaining : Nat) (first : Bool) (entries : List TranscriptEntry) :
    ((D.projectRows t limit remaining first entries).map (·.bytes)).sum ≤ remaining := by
  induction entries generalizing limit remaining first with
  | nil => cases limit <;> exact Nat.zero_le _
  | cons entry older ih =>
    cases limit with
    | zero => exact Nat.zero_le _
    | succ limit =>
      rw [projectRows]
      split
      · exact Nat.zero_le _
      · dsimp only
        rw [List.map_cons, List.sum_cons]
        generalize hleft : (if decide (entry.auditBytes ≤ remaining) = true
          then remaining - entry.auditBytes else remaining) = left
        have hbody := Text.len_utf8Tail_le entry.body (min left maxTranscriptEntryBodyBytes)
        have hrow := bytes_transcriptEntryView_le (D := D) (t := t) entry
          (Text.utf8Tail entry.body (min left maxTranscriptEntryBodyBytes))
          (decide (entry.auditBytes ≤ remaining))
        have hrest := ih limit
          (left - Text.len (Text.utf8Tail entry.body (min left maxTranscriptEntryBodyBytes))) false
        simp only [decide_eq_true_eq] at hleft hrow
        split at hleft
        · next hfits =>
          rw [if_pos hfits] at hrow
          omega
        · next hfits =>
          rw [if_neg hfits] at hrow
          omega

/-! ## What a view shows -/

/-- A view shows an end of a text, at its offsets. -/
def ShowsEnd (view : TranscriptEntryView) (text : String) : Prop :=
  ∃ before, text = before ++ view.body ∧ view.bodyStartByte = Text.len before
    ∧ view.bodyTotalBytes = Text.len text

/-- A view shows an end of its entry's body, or, without the coordination record of the entry, as
much of the notice as the body would have taken. -/
def Shows (view : TranscriptEntryView) (entry : TranscriptEntry) : Prop :=
  view.id = entry.id
    ∧ ((view.coordinationJson = entry.coordinationJson ∧ ShowsEnd view entry.body)
      ∨ (entry.coordinationJson.isSome = true ∧ view.coordinationJson = none
        ∧ ∃ stub rest, coordinationNotice = stub ++ rest ∧ ShowsEnd view stub))

theorem showsEnd_transcriptEntryView {entry : TranscriptEntry} {before body : String}
    (hbody : entry.body = before ++ body) (audit coordination : Bool) :
    ShowsEnd (D.transcriptEntryView t entry body audit coordination)
      (if entry.coordinationJson.isSome && !coordination then coordinationStub body
        else entry.body) := by
  unfold transcriptEntryView
  dsimp only
  split
  · exact ⟨"", String.empty_append.symm, rfl, rfl⟩
  · refine ⟨before, hbody, ?_, rfl⟩
    rw [hbody, Text.len_append, Nat.add_sub_cancel]

theorem shows_transcriptEntryView {entry : TranscriptEntry} {before body : String}
    (hbody : entry.body = before ++ body) (audit coordination : Bool) :
    Shows (D.transcriptEntryView t entry body audit coordination) entry := by
  have hend := showsEnd_transcriptEntryView (D := D) (t := t) hbody audit coordination
  refine ⟨id_transcriptEntryView entry body audit coordination, ?_⟩
  rw [coordinationJson_transcriptEntryView]
  cases hrecord : entry.coordinationJson with
  | none =>
    rw [hrecord] at hend
    exact .inl ⟨ite_self _, hend⟩
  | some json =>
    rw [hrecord] at hend
    cases coordination with
    | true => exact .inl ⟨rfl, hend⟩
    | false =>
      obtain ⟨rest, hnotice⟩ := coordinationNotice_append body
      exact .inr ⟨rfl, rfl, _, rest, hnotice, hend⟩

theorem Row.shows {remaining : Nat} {view : TranscriptEntryView} {entry : TranscriptEntry}
    (h : D.Row t remaining view entry) : Shows view entry := by
  obtain ⟨before, body, hbody, -, rfl⟩ := h
  exact shows_transcriptEntryView hbody _ _

/-- A row that is shown again as the current owner entry has its body cleared. -/
theorem Shows.cleared {view : TranscriptEntryView} {entry : TranscriptEntry} (h : Shows view entry) :
    Shows { view with body := "", bodyStartByte := view.bodyTotalBytes } entry := by
  have hclear : ∀ {text : String}, ShowsEnd view text →
      ShowsEnd { view with body := "", bodyStartByte := view.bodyTotalBytes } text := by
    rintro text ⟨-, -, -, htotal⟩
    exact ⟨text, String.append_empty.symm, htotal, htotal⟩
  obtain ⟨hid, ⟨hrecord, hend⟩ | ⟨hsome, hnone, stub, rest, hnotice, hend⟩⟩ := h
  · exact ⟨hid, .inl ⟨hrecord, hclear hend⟩⟩
  · exact ⟨hid, .inr ⟨hsome, hnone, stub, rest, hnotice, hclear hend⟩⟩

/-! ## The current owner entry -/

/-- What is kept of a page's budget for its current owner entry and its rows is at most the budget. -/
theorem ownerReserve_le (entries : List TranscriptEntry) (currentOwner : Option TranscriptEntry)
    (windowStart budget : Nat) :
    (ownerReserve entries currentOwner windowStart budget).remaining
      + (ownerReserve entries currentOwner windowStart budget).body.elim 0 Text.len
      + (ownerReserve entries currentOwner windowStart budget).coordinationBytes ≤ budget := by
  simp only [ownerReserve]
  generalize hrecord : ((currentOwner.bind (·.coordinationJson)).filter (Text.len · ≤ budget)) = record
  have hrecordLe : record.elim 0 Text.len ≤ budget := by
    cases record with
    | none => exact Nat.zero_le _
    | some json => simpa using (Option.filter_eq_some_iff.1 hrecord).2
  generalize (currentOwner.filter fun _ => currentOwner.any fun owner =>
    (entries.findIdx? (·.id == owner.id)).any (· < windowStart)) = outside
  have hbodyLe : (outside.map fun entry => Text.utf8Tail entry.body
      (min (budget - record.elim 0 Text.len) maxTranscriptEntryBodyBytes)).elim 0 Text.len
      ≤ budget - record.elim 0 Text.len := by
    cases outside with
    | none => exact Nat.zero_le _
    | some owner => exact (Text.len_utf8Tail_le _ _).trans (Nat.min_le_left _ _)
  omega

/-- The record of the current owner entry is reserved when it fits. -/
theorem ownerReserve_coordination {owner : TranscriptEntry} {json : String}
    (hjson : owner.coordinationJson = some json) (entries : List TranscriptEntry)
    (windowStart budget : Nat) :
    (ownerReserve entries (some owner) windowStart budget).coordinationBytes
      = if Text.len json ≤ budget then Text.len json else 0 := by
  simp only [ownerReserve, Option.bind_some, hjson, Option.filter_some, decide_eq_true_eq]
  split <;> rfl

/-- What a page is made of. -/
theorem projectedTranscriptPage_eq_some {before : Option String} {limit budget : Nat}
    {page : TranscriptPage} (h : D.projectedTranscriptPage t before limit budget = some page) :
    ∃ stop reserve, pageStop t before = some stop
      ∧ reserve = ownerReserve (t.visible.take stop)
          (if before.isNone then t.currentOwner else none) (stop - limit) budget
      ∧ page.entries = (D.projectRows t limit reserve.remaining true
          (t.visible.take stop).reverse).reverse
      ∧ page.currentOwnerEntry = D.projectedCurrentOwner t
          (if before.isNone then t.currentOwner else none) page.entries reserve.body
          (decide (reserve.coordinationBytes > 0)) := by
  unfold projectedTranscriptPage at h
  cases before
  all_goals
    obtain ⟨stop, hstop, hproofs⟩ := Option.bind_eq_some_iff.1 h
    obtain ⟨_, -, hthrough⟩ := Option.bind_eq_some_iff.1 hproofs
    obtain ⟨_, -, hpage⟩ := Option.bind_eq_some_iff.1 hthrough
    obtain rfl := Option.some.inj hpage
    exact ⟨stop, _, hstop, rfl, rfl, rfl⟩

/-- The rows of a page are of visible entries. -/
theorem mem_projectRows {limit remaining stop : Nat} {view : TranscriptEntryView}
    (h : view ∈ D.projectRows t limit remaining true (t.visible.take stop).reverse) :
    ∃ entry ∈ t.visible, D.Row t remaining view entry := by
  obtain ⟨shown, rest, hentries, hrows, -⟩ := projectRows_spec (D := D) (t := t) limit remaining
    (t.visible.take stop).reverse
  obtain ⟨i, hi, rfl⟩ := List.getElem_of_mem h
  have hi' : i < shown.length := hrows.length_eq ▸ hi
  have hmem : shown[i] ∈ (t.visible.take stop).reverse :=
    hentries ▸ List.mem_append_left rest (List.getElem_mem hi')
  exact ⟨shown[i], List.mem_of_mem_take (List.mem_reverse.1 hmem), hrows.get hi hi'⟩

theorem mem_visible_of_currentOwner {owner : TranscriptEntry} (h : t.currentOwner = some owner) :
    owner ∈ t.visible :=
  List.mem_reverse.1 (List.mem_of_find?_eq_some h)

/-- The current owner entry shows its entry, fits into what is kept for it, and has no tool audit but
that of its row. -/
theorem projectedCurrentOwner_spec (hids : (t.visible.map (·.id)).Nodup) {owner : TranscriptEntry}
    (howner : owner ∈ t.visible) {entries : List TranscriptEntry} {windowStart budget : Nat}
    {projected : List TranscriptEntryView}
    (hrows : ∀ view ∈ projected, ∃ entry ∈ t.visible,
      D.Row t (ownerReserve entries (some owner) windowStart budget).remaining view entry)
    {view : TranscriptEntryView}
    (hview : D.projectedCurrentOwner t (some owner) projected
      (ownerReserve entries (some owner) windowStart budget).body
      (decide ((ownerReserve entries (some owner) windowStart budget).coordinationBytes > 0))
        = some view) :
    Shows view owner
      ∧ Text.len view.body + view.coordinationJson.elim 0 Text.len
          ≤ (ownerReserve entries (some owner) windowStart budget).body.elim 0 Text.len
            + (ownerReserve entries (some owner) windowStart budget).coordinationBytes
      ∧ (view.toolAuditJson = none
        ∨ ∃ row ∈ projected, row.id = view.id ∧ row.toolAuditJson = view.toolAuditJson) := by
  have hreserve := ownerReserve_le entries (some owner) windowStart budget
  have hrecord := fun json (hjson : owner.coordinationJson = some json) =>
    ownerReserve_coordination hjson entries windowStart budget
  have hend := @ownerReserve_body entries owner windowStart budget
  obtain ⟨earlier, hbody⟩ := hend
  generalize ownerReserve entries (some owner) windowStart budget = reserve at *
  rw [projectedCurrentOwner, Option.map_some, Option.some.injEq] at hview
  split at hview
  · -- the entry is one of the rows, whose coordination record came out of what was left
    next row hfound =>
    obtain ⟨entry, hentry, hrow⟩ := hrows row (List.mem_of_find?_eq_some hfound)
    have hid : row.id = owner.id := by simpa using List.find?_some hfound
    obtain rfl := Keyed.eq_of_mem hids hentry howner (hrow.id.symm.trans hid)
    have hshows := hrow.shows.cleared
    rw [hview] at hshows
    obtain ⟨before, body, -, -, rfl⟩ := hrow
    subst hview
    refine ⟨hshows, ?_, .inr ⟨_, List.mem_of_find?_eq_some hfound, rfl, rfl⟩⟩
    dsimp only
    rw [coordinationJson_transcriptEntryView, Text.len_empty]
    split
    · next hfits =>
      cases hjson : entry.coordinationJson with
      | none => exact Nat.zero_le _
      | some json =>
        have hfits' : entry.auditBytes ≤ reserve.remaining := of_decide_eq_true hfits
        have hle : Text.len json ≤ entry.auditBytes := by
          rw [TranscriptEntry.auditBytes, hjson]
          exact Nat.le_add_left _ _
        rw [hrecord json hjson, if_pos (by omega), Option.elim_some]
        omega
    · exact Nat.zero_le _
  · -- the entry is older than the rows, or they leave no room for it
    subst hview
    refine ⟨shows_transcriptEntryView hbody _ _, ?_, .inl (toolAuditJson_transcriptEntryView ..)⟩
    have hlen := len_body_transcriptEntryView_le (D := D) (t := t) owner (reserve.body.getD "") false
      (decide (reserve.coordinationBytes > 0))
    have helim : Text.len (reserve.body.getD "") = reserve.body.elim 0 Text.len := by
      cases reserve.body <;> rfl
    rw [coordinationJson_transcriptEntryView]
    split
    · next hkept =>
      cases hjson : owner.coordinationJson with
      | none => exact (Nat.add_le_add_right (hlen.trans_eq helim) _).trans (Nat.add_le_add_left
          (Nat.zero_le _) _)
      | some json =>
        have hpos := of_decide_eq_true hkept
        have hbytes := hrecord json hjson
        rw [Option.elim_some]
        split at hbytes
        · omega
        · omega
    · rw [Option.elim_none]
      omega

/-- A page fits into its budget. -/
theorem bytes_projectedTranscriptPage_le (hids : (t.visible.map (·.id)).Nodup)
    {before : Option String} {limit budget : Nat} {page : TranscriptPage}
    (h : D.projectedTranscriptPage t before limit budget = some page) : page.bytes ≤ budget := by
  obtain ⟨stop, reserve, -, rfl, hentries, howner⟩ := projectedTranscriptPage_eq_some h
  generalize hcurrent : (if before.isNone then t.currentOwner else none) = currentOwner at *
  have hreserve := ownerReserve_le (t.visible.take stop) currentOwner (stop - limit) budget
  have hrows := bytes_projectRows_le (D := D) (t := t) limit
    (ownerReserve (t.visible.take stop) currentOwner (stop - limit) budget).remaining true
    (t.visible.take stop).reverse
  have hsum : (page.entries.map (·.bytes)).sum
      ≤ (ownerReserve (t.visible.take stop) currentOwner (stop - limit) budget).remaining := by
    rw [hentries, List.map_reverse, List.sum_reverse]
    exact hrows
  rw [TranscriptPage.bytes]
  cases hview : page.currentOwnerEntry with
  | none =>
    rw [Option.elim_none]
    omega
  | some view =>
    rw [hview] at howner
    cases currentOwner with
    | none => cases howner
    | some owner =>
      have hvisible : owner ∈ t.visible := by
        split at hcurrent
        · exact mem_visible_of_currentOwner hcurrent
        · cases hcurrent
      obtain ⟨-, hfits, -⟩ := projectedCurrentOwner_spec hids hvisible
        (fun row hrow => mem_projectRows (List.mem_reverse.1 (hentries ▸ hrow))) howner.symm
      rw [Option.elim_some]
      omega

theorem currentOwnerEntry_spec (hids : (t.visible.map (·.id)).Nodup) {before : Option String}
    {limit budget : Nat} {page : TranscriptPage}
    (h : D.projectedTranscriptPage t before limit budget = some page) {view : TranscriptEntryView}
    (hview : page.currentOwnerEntry = some view) :
    ∃ owner, t.currentOwner = some owner ∧ Shows view owner ∧ (view.toolAuditJson = none
      ∨ ∃ row ∈ page.entries, row.id = view.id ∧ row.toolAuditJson = view.toolAuditJson) := by
  obtain ⟨stop, reserve, -, rfl, hentries, howner⟩ := projectedTranscriptPage_eq_some h
  generalize hcurrent : (if before.isNone then t.currentOwner else none) = currentOwner at *
  rw [hview] at howner
  cases currentOwner with
  | none => cases howner
  | some owner =>
    have howned : t.currentOwner = some owner := by
      split at hcurrent
      · exact hcurrent
      · cases hcurrent
    obtain ⟨hshows, -, haudit⟩ := projectedCurrentOwner_spec hids
      (mem_visible_of_currentOwner howned)
      (fun row hrow => mem_projectRows (List.mem_reverse.1 (hentries ▸ hrow))) howner.symm
    exact ⟨owner, howned, hshows, haudit⟩

/-! ## Reading back -/

/-- What a page is asked for with. -/
structure PageBounds where
  limit : Nat
  budget : Nat

variable (D t) in
/-- The newest page and the ones before it, as long as there is a cursor, in the order of reading. -/
def readBack : Nat → (Nat → PageBounds) → Option String → Option (List TranscriptPage)
  | 0, _, _ => none
  | fuel + 1, bounds, before => do
    let page ← D.projectedTranscriptPage t before (bounds 0).limit (bounds 0).budget
    match page.nextBeforeEntryId with
    | none => return [page]
    | some next => return page :: (← readBack fuel (fun n => bounds (n + 1)) (some next))

variable (D t) in
/-- A page of the entries between two positions that was asked for with some bounds. -/
structure PageAt (bounds : PageBounds) (start stop : Nat) (page : TranscriptPage) : Prop where
  isPage : ∃ remaining, D.IsPage t page start stop remaining
  progress : start < stop ∨ t.visible = []
  bytes_le : page.bytes ≤ bounds.budget
  owner : ∀ view, page.currentOwnerEntry = some view →
    ∃ owner, t.currentOwner = some owner ∧ Shows view owner ∧ (view.toolAuditJson = none
      ∨ ∃ row ∈ page.entries, row.id = view.id ∧ row.toolAuditJson = view.toolAuditJson)

variable (D t) in
/-- The pages of a read that ends before a position. -/
inductive Walk : (Nat → PageBounds) → Nat → List TranscriptPage → Prop
  | last {bounds : Nat → PageBounds} {stop : Nat} {page : TranscriptPage}
      (h : PageAt D t (bounds 0) 0 stop page) : Walk bounds stop [page]
  | older {bounds : Nat → PageBounds} {start stop : Nat} {page : TranscriptPage}
      {pages : List TranscriptPage} (h : PageAt D t (bounds 0) start stop page) (hstart : 0 < start)
      (rest : Walk (fun n => bounds (n + 1)) start pages) : Walk bounds stop (page :: pages)

theorem exists_pageAt (hids : (t.visible.map (·.id)).Nodup) {before : Option String} {stop : Nat}
    (hstop : pageStop t before = some stop) (hle : stop ≤ t.visible.length)
    (hpos : 0 < stop ∨ t.visible = []) {bounds : PageBounds} (hlimit : 0 < bounds.limit) :
    ∃ page start, D.projectedTranscriptPage t before bounds.limit bounds.budget = some page
      ∧ PageAt D t bounds start stop page := by
  obtain ⟨page, start, hpage, hrows, hprogress, -⟩ :=
    D.projectedTranscriptPage_isPage before bounds.limit bounds.budget hstop hle
  refine ⟨page, start, hpage, ⟨⟨_, hrows⟩, hpos.imp_left (hprogress hlimit),
    bytes_projectedTranscriptPage_le hids hpage, ?_⟩⟩
  intro view hview
  exact currentOwnerEntry_spec hids hpage hview

/-- The first row of a page is of the entry at its start. -/
theorem PageAt.head {bounds : PageBounds} {start stop : Nat} {page : TranscriptPage}
    (h : PageAt D t bounds start stop page) (hlt : start < stop) :
    ∃ hstart : start < t.visible.length,
      page.entries.head?.map (·.id) = some t.visible[start].id := by
  obtain ⟨remaining, hpage⟩ := h.isPage
  have hstart : start < t.visible.length := hlt.trans_le hpage.stop_le
  refine ⟨hstart, ?_⟩
  have hids := congrArg List.head? (Rows.ids hpage.rows)
  rw [List.head?_map, List.head?_map, List.head?_drop, List.getElem?_take_of_lt hlt,
    List.getElem?_eq_getElem hstart] at hids
  exact hids

theorem exists_walk (hids : (t.visible.map (·.id)).Nodup) {bounds : Nat → PageBounds}
    (hlimit : ∀ n, 0 < (bounds n).limit) {before : Option String} {stop : Nat}
    (hstop : pageStop t before = some stop) (hle : stop ≤ t.visible.length)
    (hpos : 0 < stop ∨ t.visible = []) :
    ∃ pages, (∀ fuel, stop < fuel → D.readBack t fuel bounds before = some pages)
      ∧ Walk D t bounds stop pages := by
  induction stop using Nat.strong_induction_on generalizing before bounds with
  | h stop ih =>
    obtain ⟨page, start, hpage, hat⟩ := exists_pageAt (D := D) hids hstop hle hpos (hlimit 0)
    obtain ⟨remaining, hrows⟩ := hat.isPage
    have hnext := hrows.next
    by_cases hstart : 0 < start
    · have hlt : start < stop := by
        obtain hlt | hnil := hat.progress
        · exact hlt
        · have hzero := hrows.start_le.trans hle
          rw [hnil, List.length_nil] at hzero
          omega
      obtain ⟨hin, hhead⟩ := hat.head hlt
      rw [if_pos hstart, hhead] at hnext
      obtain ⟨pages, hread, hwalk⟩ := ih start hlt (fun n => hlimit (n + 1))
        (pageStop_getElem hids hin) (Nat.le_of_lt hin) (.inl hstart)
      refine ⟨page :: pages, ?_, .older hat hstart hwalk⟩
      intro fuel hfuel
      cases fuel with
      | zero => omega
      | succ fuel =>
        rw [readBack, hpage, Option.bind_eq_bind, Option.bind_some, hnext]
        dsimp only
        rw [hread fuel (by omega)]
        rfl
    · obtain rfl : start = 0 := by omega
      rw [if_neg hstart] at hnext
      refine ⟨[page], ?_, .last hat⟩
      intro fuel hfuel
      cases fuel with
      | zero => omega
      | succ fuel =>
        rw [readBack, hpage, Option.bind_eq_bind, Option.bind_some, hnext]
        rfl

namespace Walk

variable {bounds : Nat → PageBounds} {stop : Nat} {pages : List TranscriptPage}

/-- The pages, oldest first, are the entries up to where the read ends. -/
theorem rows (h : Walk D t bounds stop pages) :
    List.Forall₂ (fun view entry => Shows view entry
        ∧ ∃ body included, view = D.transcriptEntryView t entry body included included)
      (pages.reverse.flatMap (·.entries)) (t.visible.take stop) := by
  have hview : ∀ {remaining start stop : Nat} {page : TranscriptPage},
      D.IsPage t page start stop remaining → List.Forall₂ (fun view entry => Shows view entry
        ∧ ∃ body included, view = D.transcriptEntryView t entry body included included)
        page.entries ((t.visible.take stop).drop start) := by
    intro remaining start stop page hpage
    refine hpage.rows.imp fun view entry hrow => ⟨hrow.shows, ?_⟩
    obtain ⟨_, body, -, -, hrow⟩ := hrow
    exact ⟨body, _, hrow⟩
  induction h with
  | last hat =>
    obtain ⟨remaining, hpage⟩ := hat.isPage
    simpa using hview hpage
  | @older bounds start stop page pages hat _ _ ih =>
    obtain ⟨remaining, hpage⟩ := hat.isPage
    rw [List.reverse_cons, List.flatMap_append, List.flatMap_singleton]
    have hsplit : t.visible.take stop = t.visible.take start ++ (t.visible.take stop).drop start := by
      have htake : (t.visible.take stop).take start = t.visible.take start := by
        rw [List.take_take, Nat.min_eq_left hpage.start_le]
      rw [← htake, List.take_append_drop]
    rw [hsplit]
    exact List.rel_append ih (hview hpage)

theorem pageAt (h : Walk D t bounds stop pages) :
    ∀ n page, pages[n]? = some page → ∃ start stop, PageAt D t (bounds n) start stop page := by
  induction h with
  | last hat =>
    intro n page hpage
    cases n with
    | zero =>
      obtain rfl := Option.some.inj hpage
      exact ⟨_, _, hat⟩
    | succ n => cases hpage
  | older hat _ _ ih =>
    intro n page hpage
    cases n with
    | zero =>
      obtain rfl := Option.some.inj hpage
      exact ⟨_, _, hat⟩
    | succ n => exact ih n page hpage

/-- The proof through a page is the one that the page read before it begins with. -/
theorem chained (h : Walk D t bounds stop pages) :
    pages.IsChain (fun newer older => older.prefixThrough = newer.prefixBefore)
      ∧ ∀ page ∈ pages.head?, (D.transcriptPrefixes t)[stop]? = some page.prefixThrough := by
  induction h with
  | last hat =>
    obtain ⟨remaining, hpage⟩ := hat.isPage
    refine ⟨.singleton _, ?_⟩
    intro page hhead
    obtain rfl := Option.some.inj hhead
    exact hpage.prefixThrough
  | @older bounds start stop page pages hat _ hrest ih =>
    obtain ⟨remaining, hpage⟩ := hat.isPage
    refine ⟨?_, ?_⟩
    · cases pages with
      | nil => exact .singleton _
      | cons older pages =>
        have holder := ih.2 older rfl
        exact List.isChain_cons_cons.2
          ⟨Option.some.inj (holder.symm.trans hpage.prefixBefore), ih.1⟩
    · intro newest hhead
      obtain rfl := Option.some.inj hhead
      exact hpage.prefixThrough

end Walk

/-- Only the page that begins with the first entry names no cursor. -/
theorem PageAt.cursor_iff (hids : (t.visible.map (·.id)).Nodup) {bounds : PageBounds}
    {start stop : Nat} {page : TranscriptPage} (h : PageAt D t bounds start stop page) :
    page.nextBeforeEntryId = none
      ↔ page.entries.head?.map (·.id) = t.visible.head?.map (·.id) := by
  obtain ⟨remaining, hpage⟩ := h.isPage
  obtain hlt | hnil := h.progress
  · obtain ⟨hin, hhead⟩ := h.head hlt
    rw [hpage.next, hhead, List.head?_eq_getElem?, List.getElem?_eq_getElem (by omega),
      Option.map_some, Option.some.injEq]
    constructor
    · intro hnone
      split at hnone
      · cases hnone
      · obtain rfl : start = 0 := by omega
        rfl
    · intro hid
      have hsame : t.visible[start] = t.visible[0] :=
        Keyed.eq_of_mem hids (List.getElem_mem _) (List.getElem_mem _) hid
      have hzero : start = 0 := (List.Nodup.of_map _ hids).getElem_inj_iff.1 hsame
      exact if_neg (by omega)
  · have hstop := hpage.start_le.trans hpage.stop_le
    rw [hnil, List.length_nil] at hstop
    have hrows := hpage.length_entries
    have hstopLe := hpage.stop_le
    rw [hnil, List.length_nil] at hstopLe
    have hempty : page.entries = [] := List.length_eq_zero_iff.1 (by omega)
    rw [hpage.next, if_neg (by omega), hempty, hnil]
    exact iff_of_true rfl rfl

theorem PageAt.entries_ne_nil {bounds : PageBounds} {start stop : Nat} {page : TranscriptPage}
    (h : PageAt D t bounds start stop page) (hne : t.visible ≠ []) : page.entries ≠ [] := by
  obtain ⟨remaining, hpage⟩ := h.isPage
  have hlength := hpage.length_entries
  have hlt := h.progress.resolve_right hne
  exact List.ne_nil_of_length_pos (by omega)

variable (D t) in
/-- The pages of a read, in its order, from the newest on. -/
structure Paged (bounds : Nat → PageBounds) (pages : List TranscriptPage) : Prop where
  /-- Only the page of an empty transcript has no rows. -/
  nonempty : t.visible ≠ [] → ∀ page ∈ pages, page.entries ≠ []
  /-- Oldest page first, the rows are of the visible entries, each once and in order. -/
  rows : List.Forall₂ (fun view entry => Shows view entry
      ∧ ∃ body included, view = D.transcriptEntryView t entry body included included)
    (pages.reverse.flatMap (·.entries)) t.visible
  cursor : ∀ page ∈ pages, page.nextBeforeEntryId = none
    ↔ page.entries.head?.map (·.id) = t.visible.head?.map (·.id)
  chained : pages.IsChain fun newer older => older.prefixThrough = newer.prefixBefore
  budget : ∀ n page, pages[n]? = some page → page.bytes ≤ (bounds n).budget
  /-- The tool audit of the current owner entry repeats that of its row. -/
  owner : ∀ page ∈ pages, ∀ view, page.currentOwnerEntry = some view →
    ∃ owner, t.currentOwner = some owner ∧ Shows view owner ∧ (view.toolAuditJson = none
      ∨ ∃ row ∈ page.entries, row.id = view.id ∧ row.toolAuditJson = view.toolAuditJson)

theorem Walk.paged (hids : (t.visible.map (·.id)).Nodup) {bounds : Nat → PageBounds}
    {pages : List TranscriptPage} (h : Walk D t bounds t.visible.length pages) :
    Paged D t bounds pages := by
  have hat : ∀ page ∈ pages, ∃ n start stop, PageAt D t (bounds n) start stop page := by
    intro page hpage
    obtain ⟨n, hn, rfl⟩ := List.getElem_of_mem hpage
    exact ⟨n, h.pageAt n _ (List.getElem?_eq_getElem hn)⟩
  refine ⟨?_, ?_, ?_, h.chained.1, ?_, ?_⟩
  · intro hne page hpage
    obtain ⟨n, start, stop, hpage⟩ := hat page hpage
    exact hpage.entries_ne_nil hne
  · have hrows := h.rows
    rwa [List.take_length] at hrows
  · intro page hpage
    obtain ⟨n, start, stop, hpage⟩ := hat page hpage
    exact hpage.cursor_iff hids
  · intro n page hpage
    obtain ⟨start, stop, hpage⟩ := h.pageAt n page hpage
    exact hpage.bytes_le
  · intro page hpage
    obtain ⟨n, start, stop, hpage⟩ := hat page hpage
    exact hpage.owner

/-- The aligned window holds at most its limit, and begins at a multiple of the alignment when it
leaves entries out. -/
theorem alignedNewestWindow_spec (len limit : Nat) :
    alignedNewestWindow len limit ≤ limit
      ∧ (transcriptWindowAlignment < limit → alignedNewestWindow len limit < len →
        transcriptWindowAlignment ∣ len - alignedNewestWindow len limit) := by
  rw [alignedNewestWindow]
  split
  · next hwhole =>
    refine ⟨Nat.le_refl _, ?_⟩
    intro hlimit hlt
    simp only [Bool.or_eq_true, decide_eq_true_eq] at hwhole
    omega
  · next hlong =>
    simp only [Bool.or_eq_true, decide_eq_true_eq, not_or, Nat.not_le,
      transcriptWindowAlignment] at hlong
    generalize hblocks : (len - limit + (transcriptWindowAlignment - 1)) / transcriptWindowAlignment
      = blocks
    simp only [transcriptWindowAlignment] at hblocks ⊢
    refine ⟨by omega, ?_⟩
    intro _ _
    exact ⟨blocks, by omega⟩

/-- Reading back from the newest page ends with the pages of the whole transcript, whatever each page
is asked for with. -/
theorem paging_lossless (D : Digests) (t : DomainTranscript) (hids : (t.visible.map (·.id)).Nodup)
    (bounds : Nat → PageBounds) (hlimit : ∀ n, 0 < (bounds n).limit) :
    (∃ pages, (∀ fuel, t.visible.length < fuel → D.readBack t fuel bounds none = some pages)
        ∧ Paged D t bounds pages)
      ∧ ∀ len limit, alignedNewestWindow len limit ≤ limit
        ∧ (transcriptWindowAlignment < limit → alignedNewestWindow len limit < len →
          transcriptWindowAlignment ∣ len - alignedNewestWindow len limit) := by
  have hpos : 0 < t.visible.length ∨ t.visible = [] :=
    (Nat.eq_zero_or_pos _).symm.imp_right List.length_eq_zero_iff.1
  have hstop : pageStop t none = some t.visible.length := rfl
  obtain ⟨pages, hread, hwalk⟩ := exists_walk (D := D) hids hlimit hstop (Nat.le_refl _) hpos
  exact ⟨⟨pages, hread, hwalk.paged hids⟩, alignedNewestWindow_spec⟩

/-- The page of a request whose record does not fit has a notice in place of its body. A window of as
many entries as the alignment begins anywhere. -/
theorem paging_notice : ((relayedTranscript (600 * 1024)).visible.map (·.id)).Nodup
    ∧ (∀ D : Digests, ∃ page view,
      D.sessionTranscriptPage (relayedTranscript (600 * 1024)) none 1 = some page
        ∧ page.entries = [view] ∧ view.id = (relayedRequest (600 * 1024)).id
        ∧ ¬ ∃ before, (relayedRequest (600 * 1024)).body = before ++ view.body)
    ∧ alignedNewestWindow 66 64 < 66 ∧ ¬ transcriptWindowAlignment ∣ 66 - alignedNewestWindow 66 64 := by
  refine ⟨List.nodup_singleton _, ?_, by decide, by decide⟩
  intro D
  have hstop : pageStop (relayedTranscript (600 * 1024)) none = some 1 := rfl
  obtain ⟨page, start, hpage, hrows, hprogress, -⟩ :=
    D.projectedTranscriptPage_isPage none 1 maxTranscriptPageBodyBytes hstop (Nat.le_refl 1)
  obtain rfl : start = 0 := by
    have hlt := hprogress Nat.one_pos Nat.one_pos
    omega
  have hreserve : (ownerReserve ((relayedTranscript (600 * 1024)).visible.take 1)
      (if (none : Option String).isNone then (relayedTranscript (600 * 1024)).currentOwner else none)
      (1 - 1) maxTranscriptPageBodyBytes).remaining = maxTranscriptPageBodyBytes := by
    have hlarge : ¬ Text.len (recordOf (600 * 1024)) ≤ maxTranscriptPageBodyBytes := by
      rw [len_recordOf]
      decide
    have howner : (relayedTranscript (600 * 1024)).currentOwner
      = some (relayedRequest (600 * 1024)) := rfl
    have hrecord : (relayedRequest (600 * 1024)).coordinationJson
      = some (recordOf (600 * 1024)) := rfl
    simp [ownerReserve, howner, hrecord, hlarge, Option.filter]
  rw [hreserve] at hrows
  have hrequest : ((relayedTranscript (600 * 1024)).visible.take 1).drop 0
      = [relayedRequest (600 * 1024)] := rfl
  have hremaining := hrows.rows
  rw [hrequest] at hremaining
  cases hentries : page.entries with
  | nil =>
    rw [hentries] at hremaining
    cases hremaining
  | cons view rest =>
    rw [hentries] at hremaining
    obtain ⟨hrow, hnil⟩ := List.forall₂_cons.1 hremaining
    obtain rfl := List.forall₂_nil_right_iff.1 hnil
    refine ⟨page, view, hpage, hentries, hrow.id, ?_⟩
    obtain ⟨_, body, -, hstub, hview⟩ := hrow
    have hlarge : maxTranscriptPageBodyBytes < (relayedRequest (600 * 1024)).auditBytes := by
      rw [auditBytes_relayedRequest]
      decide
    have hwhole : body = requestText := by
      rw [hstub hlarge]
      refine Text.utf8Tail_eq_self ?_
      show Text.len requestText ≤ _
      decide +kernel
    rw [decide_eq_false (Nat.not_le_of_lt hlarge), hwhole] at hview
    have hnotice : (D.transcriptEntryView (relayedTranscript (600 * 1024))
        (relayedRequest (600 * 1024)) requestText false false).body
        = coordinationStub requestText := rfl
    rintro ⟨before, hsuffix⟩
    rw [hview, hnotice] at hsuffix
    have hnone : ¬ (coordinationStub requestText).toList <:+ requestText.toList := by decide +kernel
    exact hnone ⟨before.toList, by rw [← String.toList_append, ← hsuffix]; rfl⟩

/-- A digest of the first bytes. -/
def firstBytes : Digests where
  sha256 bytes := Vector.ofFn fun i => bytes.getD i 0
  auditField _ _ := none
  uuidV5 := id

theorem paging_lossless_relayed :
    (∃ pages, (∀ fuel, (relayedTranscript 16).visible.length < fuel →
        firstBytes.readBack (relayedTranscript 16) fuel
          (fun _ => ⟨1, maxTranscriptPageBodyBytes⟩) none = some pages)
        ∧ Paged firstBytes (relayedTranscript 16) (fun _ => ⟨1, maxTranscriptPageBodyBytes⟩) pages)
      ∧ ∀ len limit, alignedNewestWindow len limit ≤ limit
        ∧ (transcriptWindowAlignment < limit → alignedNewestWindow len limit < len →
          transcriptWindowAlignment ∣ len - alignedNewestWindow len limit) :=
  paging_lossless firstBytes (relayedTranscript 16) (List.nodup_singleton _) _ fun _ => Nat.one_pos

end Digests

end Nakode
