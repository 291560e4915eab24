import Nakode.Followups.Listing
import Nakode.Lib.Escaping
import Nakode.Inbox.Bounds
import Nakode.Operations

/-!
# Paging through an inbox

The rows of a view lie in one order, and a cursor leaves the rows behind it (`filter_beyond_last`).
A page is the next rows up to its two limits (`listView_eq_ok`); what is shown of a message always
fits an empty page (`Readable`), so a page with more behind it is not empty and a client that
follows the last sequences reads the whole view (`inbox_paging_lossless`).
-/

namespace Nakode

open Relational Transition Outcome

variable {δ : Type}

/-! ## Cursors -/

/-- A sequence comes before another in the order of a view. -/
def precedes (view : String) (a b : Nat) : Prop := if view = "consumed" then b < a else a < b

theorem precedes_trans {view : String} {a b c : Nat} (h : precedes view a b)
    (h' : precedes view b c) : precedes view a c := by
  unfold precedes at *
  split at h <;> simp_all <;> omega

theorem precedes_irrefl (view : String) (a : Nat) : ¬precedes view a a := by
  unfold precedes
  split <;> omega

/-- A cursor is the start of a view or leaves what comes after it. -/
theorem beyond_iff {view : String} {after sequence : Nat} :
    beyond view after sequence = true ↔
      (view = "consumed" ∧ after = 0) ∨ precedes view after sequence := by
  unfold beyond precedes
  by_cases hview : view = "consumed"
  · simp [hview]
  · simp [hview]

theorem viewed_pairwise (i : Inbox δ) (session view : String) :
    (i.viewed session view).Pairwise fun a b => precedes view a.1 b.1 := by
  have hrows : (i.messages.rows.filter fun row => i.shows session view row.1 row.2).Pairwise
      fun a b => a.1 < b.1 := i.messages.ordered.sublist List.filter_sublist
  unfold Inbox.viewed
  by_cases hview : view = "consumed"
  · simpa [hview, precedes, List.pairwise_reverse] using hrows
  · simpa [hview, precedes] using hrows

theorem mem_viewed_iff {i : Inbox δ} {session view : String} {row : Nat × Message δ} :
    row ∈ i.viewed session view ↔
      i.messages.find? row.1 = some row.2 ∧ i.shows session view row.1 row.2 = true := by
  unfold Inbox.viewed
  split <;> simp [Table.mem_rows_iff]

/-- The rows that a cursor leaves, split anywhere: the last row before the split leaves the rest. -/
theorem filter_beyond_last {view : String} {after : Nat} {l p q : List (Nat × Message δ)}
    {last : Nat × Message δ} (hl : l.Pairwise fun a b => precedes view a.1 b.1)
    (hpos : 0 < last.1) (hsplit : (l.filter fun row => beyond view after row.1) = p ++ q)
    (hlast : p.getLast? = some last) : (l.filter fun row => beyond view last.1 row.1) = q := by
  have hbeyond : ∀ row : Nat × Message δ,
      beyond view last.1 row.1 = true ↔ precedes view last.1 row.1 := by
    intro row
    rw [beyond_iff]
    exact or_iff_right fun h => Nat.ne_of_gt hpos h.2
  have hmem : last ∈ p ++ q := List.mem_append_left _ (List.mem_of_getLast? hlast)
  have hafter : beyond view after last.1 = true := by
    rw [← hsplit] at hmem
    exact (List.mem_filter.1 hmem).2
  -- what the new cursor leaves, the old one leaves as well
  have hsame : (l.filter fun row => beyond view last.1 row.1)
      = (p ++ q).filter fun row => beyond view last.1 row.1 := by
    rw [← hsplit, List.filter_filter]
    refine List.filter_congr fun row _ => ?_
    rw [Bool.eq_iff_iff, Bool.and_eq_true]
    refine ⟨fun h => ⟨h, ?_⟩, And.left⟩
    rw [beyond_iff]
    rcases beyond_iff.1 hafter with hstart | hprec
    · exact .inl hstart
    · exact .inr (precedes_trans hprec ((hbeyond row).1 h))
  have hordered : (p ++ q).Pairwise fun a b => precedes view a.1 b.1 := by
    rw [← hsplit]
    exact hl.sublist List.filter_sublist
  obtain ⟨hp, -, hpq⟩ := List.pairwise_append.1 hordered
  obtain ⟨p', rfl⟩ : ∃ p', p = p' ++ [last] := by
    obtain ⟨hne, rfl⟩ := List.getLast?_eq_some_iff.1 hlast
    exact ⟨_, rfl⟩
  have hnone : (p' ++ [last]).filter (fun row => beyond view last.1 row.1) = [] := by
    refine List.filter_eq_nil_iff.2 fun row hrow hbey => ?_
    have hprec := (hbeyond row).1 hbey
    rcases List.mem_append.1 hrow with hrow | hrow
    · exact precedes_irrefl view _
        (precedes_trans hprec ((List.pairwise_append.1 hp).2.2 row hrow last List.mem_cons_self))
    · rw [List.mem_singleton.1 hrow] at hprec
      exact precedes_irrefl view _ hprec
  have hall : q.filter (fun row => beyond view last.1 row.1) = q :=
    List.filter_eq_self.2 fun row hrow =>
      (hbeyond row).2 (hpq last (List.mem_of_getLast? hlast) row hrow)
  rw [hsame, List.filter_append, hnone, hall, List.nil_append]

/-! ## A page -/

/-- What the loop adds to a page: the next rows that fit, and none only when the first does not. -/
theorem listItems_eq (i : Inbox δ) {limit : Nat} (rows : List (Nat × Message δ))
    {items : List FollowupItem} {textBytes : Nat} (hitems : items.length ≤ limit)
    (htext : textBytes ≤ maxPageTextBytes) :
    ∃ n, i.listItems limit rows items textBytes
        = (items ++ (rows.take n).map i.listItem, decide (n < rows.length)) ∧
      items.length + n ≤ limit ∧
      textBytes + ((rows.take n).map fun row => Text.len row.2.displayText).sum
        ≤ maxPageTextBytes ∧
      (n = 0 → ∀ row, rows.head? = some row →
        limit ≤ items.length ∨ maxPageTextBytes < textBytes + Text.len row.2.displayText) := by
  induction rows generalizing items textBytes with
  | nil => exact ⟨0, by simp [Inbox.listItems], hitems, by simpa using htext, by simp⟩
  | cons row rest ih =>
    rw [Inbox.listItems]
    by_cases hfull : (items.length ≥ limit ∨
        textBytes + Text.len row.2.displayText > maxPageTextBytes)
    · rw [if_pos (by simpa using hfull)]
      refine ⟨0, by simp, by omega, by simpa using htext, fun _ r hr => ?_⟩
      obtain rfl : row = r := by simpa using hr
      exact hfull
    · rw [if_neg (by simpa using hfull)]
      have hroom : (items ++ [i.listItem row]).length ≤ limit := by
        rw [List.length_append, List.length_singleton]
        omega
      have hfit : textBytes + Text.len row.2.displayText ≤ maxPageTextBytes := by omega
      obtain ⟨n, heq, hcount, hsum, -⟩ := ih hroom hfit
      refine ⟨n + 1, ?_, ?_, ?_, fun h => absurd h (Nat.succ_ne_zero n)⟩
      · rw [heq]
        simp
      · rw [List.length_append, List.length_singleton] at hcount
        omega
      · rw [List.take_succ_cons, List.map_cons, List.sum_cons]
        omega

theorem validatePage_eq_ok {after limit : Nat} {view : String} :
    validatePage after limit view = .ok () ↔ (1 ≤ limit ∧ limit ≤ 64 ∧ after < 2 ^ 63) ∧
      (view = "" ∨ view = "all" ∨ view = "active" ∨ view = "consumed") := by
  simp [validatePage, and_assoc, or_assoc]

/-- The rows a page leaves to read. -/
def Inbox.left (i : Inbox δ) (session view : String) (after : Nat) : List (Nat × Message δ) :=
  (i.viewed session view).filter fun row => beyond view after row.1

/-- A page is the next rows of the view, within both limits; it is empty only when nothing is left,
or when its first text exceeds a page. -/
theorem listView_eq {db : Db δ} {session view : String} {after limit : Nat}
    (hsession : authorize db session false = .ok ())
    (hpage : validatePage after limit view = .ok ()) :
    ∃ n page, listView db session after limit view = .ok page ∧
      page.items = ((db.inbox.left session view after).take n).map db.inbox.listItem ∧
      page.hasMore = decide (n < (db.inbox.left session view after).length) ∧ n ≤ limit ∧
      (((db.inbox.left session view after).take n).map fun row =>
        Text.len row.2.displayText).sum ≤ maxPageTextBytes ∧
      (n = 0 → ∀ row, (db.inbox.left session view after).head? = some row →
        maxPageTextBytes < Text.len row.2.displayText) := by
  obtain ⟨⟨hlow, -, -⟩, -⟩ := validatePage_eq_ok.1 hpage
  obtain ⟨n, heq, hcount, hsum, hempty⟩ := @listItems_eq _ db.inbox limit
    ((db.inbox.left session view after).take (limit + 1)) [] 0 (Nat.zero_le _) (Nat.zero_le _)
  have hcount : n ≤ limit := by simpa using hcount
  have htake : ((db.inbox.left session view after).take (limit + 1)).take n
      = (db.inbox.left session view after).take n := by
    rw [List.take_take, Nat.min_eq_left (by omega)]
  have hmore : decide (n < ((db.inbox.left session view after).take (limit + 1)).length)
      = decide (n < (db.inbox.left session view after).length) := by
    rw [List.length_take]
    exact decide_eq_decide.2 (by omega)
  rw [htake, hmore, List.nil_append] at heq
  rw [htake, Nat.zero_add] at hsum
  have heq' := heq
  rw [Inbox.left] at heq'
  refine ⟨n, _, by simp only [listView, hsession, hpage, ok_bind, heq']; rfl, rfl, rfl, hcount,
    hsum, fun hzero row hrow => ?_⟩
  rcases hempty hzero row (by rw [List.head?_take, if_neg (Nat.succ_ne_zero limit)]; exact hrow)
    with h | h
  · simp at h
    omega
  · simpa using h

/-! ## All pages -/

/-- Pages that hold rows of an inbox, in their order: every page but the last has more behind it and
is not empty, and every page is within both limits. -/
structure Inbox.Listed (i : Inbox δ) (limit : Nat) (rows : List (Nat × Message δ))
    (pages : List FollowupInbox) : Prop where
  items : pages.flatMap (·.items) = rows.map i.listItem
  more : ∀ page ∈ pages.dropLast, page.hasMore = true ∧ page.items ≠ []
  last : ∃ page, pages.getLast? = some page ∧ page.hasMore = false
  bounds : ∀ page ∈ pages, page.items.length ≤ limit ∧
    (page.items.map fun item => Text.len item.text).sum ≤ 256 * 1024

namespace Inbox.Listed

variable {i : Inbox δ} {limit : Nat} {page : FollowupInbox}

theorem single {rows : List (Nat × Message δ)} (hitems : page.items = rows.map i.listItem)
    (hmore : page.hasMore = false) (hbounds : page.items.length ≤ limit ∧
      (page.items.map fun item => Text.len item.text).sum ≤ 256 * 1024) :
    i.Listed limit rows [page] :=
  ⟨by simpa using hitems, by simp, ⟨page, rfl, hmore⟩, by simpa using hbounds⟩

theorem cons {rows rest : List (Nat × Message δ)} {pages : List FollowupInbox}
    (h : i.Listed limit rest pages) (hitems : page.items = rows.map i.listItem)
    (hmore : page.hasMore = true ∧ page.items ≠ []) (hbounds : page.items.length ≤ limit ∧
      (page.items.map fun item => Text.len item.text).sum ≤ 256 * 1024) :
    i.Listed limit (rows ++ rest) (page :: pages) := by
  obtain ⟨last, hlast, hend⟩ := h.last
  obtain ⟨first, others, rfl⟩ : ∃ first others, pages = first :: others :=
    List.exists_cons_of_ne_nil fun hnil => by rw [hnil] at hlast; cases hlast
  refine ⟨by rw [List.flatMap_cons, h.items, hitems, List.map_append], fun p hp => ?_,
    ⟨last, by rw [List.getLast?_cons_cons, hlast], hend⟩, fun p hp => ?_⟩
  · rw [List.dropLast_cons_cons] at hp
    rcases List.mem_cons.1 hp with rfl | hp
    · exact hmore
    · exact h.more p hp
  · rcases List.mem_cons.1 hp with rfl | hp
    · exact hbounds
    · exact h.bounds p hp

end Inbox.Listed

/-- A client that follows the pages from a cursor reads the rows that it leaves. -/
theorem readView_eq {db : Db δ} {session view : String} {limit : Nat}
    (hsession : authorize db session false = .ok ()) (hlimit : 1 ≤ limit ∧ limit ≤ 64)
    (hview : view = "" ∨ view = "all" ∨ view = "active" ∨ view = "consumed")
    (hrows : ∀ n m, db.inbox.messages.find? n = some m →
      0 < n ∧ n < 2 ^ 63 ∧ Text.len m.displayText ≤ maxPageTextBytes)
    {after : Nat} (hafter : after < 2 ^ 63) :
    ∃ pages, (∀ fuel, (db.inbox.left session view after).length < fuel →
        readView db session limit view fuel after = .ok (some pages)) ∧
      db.inbox.Listed limit (db.inbox.left session view after) pages := by
  -- each page leaves fewer rows than the page before it
  induction hlength : (db.inbox.left session view after).length using Nat.strong_induction_on
    generalizing after with
  | h length ih =>
    obtain ⟨n, page, hpage, hitems, hmore, hcount, htext, hempty⟩ :=
      listView_eq hsession (validatePage_eq_ok.2 ⟨⟨hlimit.1, hlimit.2, hafter⟩, hview⟩)
    generalize hleft : db.inbox.left session view after = left at *
    have hbounds : page.items.length ≤ limit ∧
        (page.items.map fun item => Text.len item.text).sum ≤ 256 * 1024 := by
      refine ⟨by rw [hitems, List.length_map, List.length_take]; omega, ?_⟩
      rw [hitems, List.map_map]
      exact htext
    by_cases hlast : n < left.length
    · have hrow : ∀ row ∈ left, 0 < row.1 ∧ row.1 < 2 ^ 63 ∧
          Text.len row.2.displayText ≤ maxPageTextBytes := by
        intro row hmem
        rw [← hleft] at hmem
        exact hrows row.1 row.2 (mem_viewed_iff.1 (List.mem_filter.1 hmem).1).1
      have hpos : 0 < n := by
        rcases Nat.eq_zero_or_pos n with rfl | hpos
        · cases left with
          | nil => simp at hlast
          | cons row rest =>
            have := hempty rfl row rfl
            have := (hrow row List.mem_cons_self).2.2
            omega
        · exact hpos
      obtain ⟨last, hlastrow⟩ : ∃ last, (left.take n).getLast? = some last := by
        refine Option.ne_none_iff_exists'.1 fun hnone => ?_
        have hlength := congrArg List.length (List.getLast?_eq_none_iff.1 hnone)
        rw [List.length_take, List.length_nil] at hlength
        omega
      have hmem := hrow last (List.mem_of_mem_take (List.mem_of_getLast? hlastrow))
      have hrest : db.inbox.left session view last.1 = left.drop n :=
        filter_beyond_last (viewed_pairwise db.inbox session view) hmem.1
          (by rw [List.take_append_drop]; exact hleft) hlastrow
      obtain ⟨pages, hread, hlisted⟩ := ih (left.drop n).length
        (by rw [List.length_drop, ← hlength]; omega) hmem.2.1 (by rw [hrest])
      have hgetLast : page.items.getLast? = some (db.inbox.listItem last) := by
        rw [hitems, List.getLast?_map, hlastrow]
        rfl
      have hhas : page.hasMore = true := by rw [hmore]; simpa using hlast
      refine ⟨page :: pages, fun fuel hfuel => ?_, ?_⟩
      · cases fuel with
        | zero => omega
        | succ fuel =>
          have hnext := hread fuel (by rw [List.length_drop]; omega)
          simp only [readView, hpage, ok_bind, hhas, if_true, hgetLast, Inbox.listItem, hnext]
          rfl
      · rw [hrest] at hlisted
        have hne : page.items ≠ [] := by
          intro hnil
          rw [hnil] at hgetLast
          cases hgetLast
        have hcons := hlisted.cons hitems ⟨hhas, hne⟩ hbounds
        rwa [List.take_append_drop] at hcons
    · have hhas : page.hasMore = false := by rw [hmore]; simpa using hlast
      rw [List.take_of_length_le (Nat.le_of_not_lt hlast)] at hitems
      refine ⟨[page], fun fuel hfuel => ?_, .single hitems hhas hbounds⟩
      cases fuel with
      | zero => omega
      | succ fuel =>
        simp only [readView, hpage, ok_bind, hhas, Bool.false_eq_true, if_false]
        rfl

/-! ## What is shown fits a page -/

/-- The reader of completions finds no answer longer than the text it reads. -/
def Deps.Shortens (deps : Deps δ) : Prop :=
  ∀ body completion text, deps.parseCompletion body = some completion →
    completion.finalText = some text → Text.len text ≤ Text.len body

/-- The report of a turn was captured from its last answer, and its reader reads it back. -/
def Op.Captured (deps : Deps δ) : Op → Prop
  | .updateLastTurn _ turn => ∃ text,
    turn.completion.getD (.capture turn.id none) = .capture turn.id text ∧
      deps.parseCompletion (Completion.capture turn.id text).encode
        = some (.capture turn.id text)
  | _ => True

/-- Sequences start at 1, and what is shown of a message or of a report fits a page. -/
structure Readable (deps : Deps δ) (db : Db δ) : Prop where
  next : 0 < db.inbox.messages.next
  message : ∀ n m, db.inbox.messages.find? n = some m →
    0 < n ∧ Text.len m.displayText ≤ maxTextBytes
  report : ∀ n r, db.reports.rows.find? n = some r →
    Text.len (reportDisplay deps r.reportId r.body) ≤ maxTextBytes

namespace Completion

theorem encodedPrefix_length_le (budget : Nat) (cs : List Char) :
    (encodedPrefix budget cs).length ≤ budget := by
  induction cs generalizing budget with
  | nil => exact Nat.zero_le _
  | cons c cs ih =>
    rw [encodedPrefix]
    split
    · exact Nat.zero_le _
    · next hfits =>
      have hpos : 0 < Text.len (String.ofList (Text.escapeChar c)) := by
        rw [Text.len_ofList]
        exact Text.utf8Len_escapeChar_pos c
      have := ih (budget - Text.len (String.ofList (Text.escapeChar c)))
      rw [List.length_cons]
      omega

/-- What is shown of a report whose reader finds a short answer. -/
theorem len_display_le {deps : Deps δ} {body : String} {n : Nat} (hn : 4096 ≤ n)
    (hbody : deps.parseCompletion body = none → Text.len body ≤ n)
    (htext : ∀ completion text, deps.parseCompletion body = some completion →
      completion.finalText = some text → Text.len text ≤ n) :
    Text.len (display deps body) ≤ n + 4096 := by
  unfold display
  split
  · next hnone =>
    have := hbody hnone
    omega
  · next completion hsome =>
    have hfinal : Text.len (completion.finalText.getD
        ("No final assistant response was captured for this turn. Inspect the child transcript " ++
          "for activity and failure details.")) ≤ n := by
      cases hcase : completion.finalText with
      | none =>
        have : Text.len ("No final assistant response was captured for this turn. Inspect the " ++
            "child transcript for activity and failure details.") ≤ 4096 := by decide +kernel
        exact Nat.le_trans this hn
      | some text => exact htext completion text hsome hcase
    have hmark : Text.len (if completion.truncated then
        "\n\n[Response truncated; the complete response remains in the child transcript.]"
        else "") ≤ 4096 := by
      split <;> decide +kernel
    rw [Text.len_append]
    exact Nat.add_le_add hfinal hmark

end Completion

/-- What is shown of a report of at most 16 KiB. -/
theorem len_reportDisplay_le {deps : Deps δ} (hdeps : deps.Shortens) {report body : String}
    (hbody : Text.len body ≤ 16 * 1024) :
    Text.len (reportDisplay deps report body) ≤ maxTextBytes := by
  unfold reportDisplay maxTextBytes
  split
  · have := Completion.len_display_le (n := 16 * 1024) (by omega) (fun _ => hbody)
      fun completion text hparse htext =>
        Nat.le_trans (hdeps body completion text hparse htext) hbody
    omega
  · omega

/-- What is shown of the report of a turn that was captured. -/
theorem len_display_captured_le {deps : Deps δ} {turn : String} {text : Option String}
    (hread : deps.parseCompletion (Completion.capture turn text).encode
      = some (.capture turn text)) :
    Text.len (Completion.display deps (Completion.capture turn text).encode) ≤ maxTextBytes := by
  have := Completion.len_display_le (n := 4 * (12 * 1024)) (by omega)
    (fun hnone => by rw [hread] at hnone; cases hnone) fun completion final hparse hfinal => by
      rw [hread] at hparse
      obtain rfl := Option.some.inj hparse
      simp only [Completion.capture, Option.map_eq_some_iff] at hfinal
      obtain ⟨whole, -, rfl⟩ := hfinal
      have hlength := Completion.encodedPrefix_length_le Completion.finalBytes whole.toList
      have hbytes := Text.utf8Len_le (Completion.encodedPrefix Completion.finalBytes whole.toList)
      rw [Text.len_ofList]
      exact Nat.le_trans hbytes (Nat.mul_le_mul_left 4 hlength)
  unfold maxTextBytes
  omega

namespace Readable

variable {deps : Deps δ} {db db' : Db δ}

theorem empty : Readable deps (∅ : Db δ) :=
  ⟨Nat.one_pos, nofun, nofun⟩

/-- A database with the same messages and reports. -/
theorem of_eq (h : Readable deps db) (hmessages : db'.inbox.messages = db.inbox.messages)
    (hreports : db'.reports.rows = db.reports.rows) : Readable deps db' :=
  ⟨hmessages ▸ h.next, hmessages ▸ h.message, hreports ▸ h.report⟩

/-- A message that is shown within the bound. -/
theorem append (h : Readable deps db) {m : Message δ}
    (hmessages : db'.inbox.messages = db.inbox.messages.append m)
    (hreports : db'.reports.rows = db.reports.rows) (hm : Text.len m.displayText ≤ maxTextBytes) :
    Readable deps db' := by
  refine ⟨by rw [hmessages]; exact Nat.succ_pos _, fun n m' hfind => ?_, hreports ▸ h.report⟩
  rw [hmessages, Sequenced.find?_append] at hfind
  split at hfind
  · next hn =>
    cases hfind
    exact ⟨hn ▸ h.next, hm⟩
  · exact h.message n m' hfind

/-- A report that is shown within the bound. -/
theorem publish (h : Readable deps db) {row : Report}
    (hrow : Text.len (reportDisplay deps row.reportId row.body) ≤ maxTextBytes) :
    Readable deps { db with reports := db.reports.append row } := by
  refine ⟨h.next, h.message, fun n r hfind => ?_⟩
  simp only [Reports.append, Sequenced.find?_append] at hfind
  split at hfind
  · cases hfind
    exact hrow
  · exact h.report n r hfind

/-- Messages that are changed in place, each shown with no more than before or with a new text
within the bound. -/
theorem update (h : Readable deps db) {p : Nat → Message δ → Bool} {f : Message δ → Message δ}
    (hmessages : db'.inbox.messages = db.inbox.messages.update p f)
    (hreports : db'.reports.rows = db.reports.rows)
    (hf : ∀ m, Text.len m.displayText ≤ maxTextBytes → Text.len (f m).displayText ≤ maxTextBytes) :
    Readable deps db' := by
  refine ⟨hmessages ▸ h.next, fun n m' hfind => ?_, hreports ▸ h.report⟩
  rw [hmessages, Sequenced.toTable_update, Table.find?_update, Option.map_eq_some_iff] at hfind
  obtain ⟨m, hm, rfl⟩ := hfind
  obtain ⟨hpos, hlen⟩ := h.message n m hm
  refine ⟨hpos, ?_⟩
  split
  · exact hf m hlen
  · exact hlen

/-- Messages and reports that are deleted. -/
theorem delete (h : Readable deps db) {p : Nat → Message δ → Bool} {q : Nat → Report → Bool}
    (hmessages : db'.inbox.messages = db.inbox.messages.delete p)
    (hreports : db'.reports.rows = db.reports.rows.delete q) : Readable deps db' := by
  refine ⟨hmessages ▸ h.next, fun n m hfind => ?_, fun n r hfind => ?_⟩
  · rw [hmessages, Sequenced.toTable_delete, Table.find?_delete,
      Option.filter_eq_some_iff] at hfind
    exact h.message n m hfind.1
  · rw [hreports, Sequenced.toTable_delete, Table.find?_delete, Option.filter_eq_some_iff] at hfind
    exact h.report n r hfind.1

end Readable

/-- The write adds no message and no report. -/
def Write.textless : Write δ → Bool
  | .inbox (.admission ..) | .report _ => false
  | _ => true

theorem Readable.write {deps : Deps δ} {db : Db δ} {w : Write δ} (h : Readable deps db)
    (hw : w.textless = true) : Readable deps (w.apply db) := by
  cases w with
  | directory | kin | reportReceipt => exact h.of_eq rfl rfl
  | report => cases hw
  | forget | purge => exact h.delete rfl rfl
  | inbox w =>
    cases w with
    | admission => cases hw
    | receipt | setPaused | mark | source => exact h.of_eq rfl rfl
    | remove sequence => exact h.update rfl rfl fun m _ => Nat.zero_le _
    | cut => exact h.update rfl rfl fun m hm => hm

theorem Readable.writes {deps : Deps δ} {db db' : Db δ} {n : Nat} (h : Readable deps db)
    (hw : Writes (fun w => w.textless = true) n db db') : Readable deps db' :=
  hw.invariant (fun _ htextless hdb => hdb.write htextless) h

/-! ## Every operation keeps it -/

section
variable {deps : Deps δ} {db db' : Db δ}

theorem Readable.admitMessage (h : Readable deps db) {session messageId sender : String}
    {prompt : PromptInput} {nowMs : Int} {digest : δ}
    (hadmits : admitMessage deps db session messageId prompt sender nowMs digest = .ok db') :
    Readable deps db' := by
  simp only [Nakode.admitMessage, bind_eq_ok, ensure_eq_ok, pure_eq_ok] at hadmits
  obtain ⟨bytes, hprompt, _, -, _, -, rfl⟩ := hadmits
  exact h.append rfl rfl (validatePrompt_eq_ok hprompt).1

theorem Readable.saveSource (h : Readable deps db) {session messageId : String} {source : Source}
    (hsave : saveSource db session messageId source = .ok db') : Readable deps db' := by
  unfold Nakode.saveSource at hsave
  split at hsave
  · obtain rfl := pure_eq_ok.1 hsave
    exact h
  · simp only [bind_eq_ok, pure_eq_ok] at hsave
    obtain ⟨_, -, _, -, rfl⟩ := hsave
    exact h.of_eq rfl rfl

theorem Readable.recordDelivery (h : Readable deps db) {report : Nat} {session messageId : String}
    (hrecord : recordDelivery db report session messageId = .ok db') : Readable deps db' := by
  unfold Nakode.recordDelivery at hrecord
  split at hrecord
  · obtain rfl := pure_eq_ok.1 hrecord
    exact h
  · simp only [bind_eq_ok, pure_eq_ok] at hrecord
    obtain ⟨_, -, _, -, rfl⟩ := hrecord
    exact h.of_eq rfl rfl

theorem Readable.setDisplayText (h : Readable deps db) (session messageId : String) {text : String}
    (htext : Text.len text ≤ maxTextBytes) :
    Readable deps (setDisplayText db session messageId text) :=
  h.update rfl rfl fun _ _ => htext

theorem Readable.linkInTransaction (h : Readable deps db) {clockMs : Int} {parent child : String}
    (hlink : linkInTransaction db clockMs parent child = .ok db') : Readable deps db' := by
  rcases linkInTransaction_eq_ok hlink with ⟨-, rfl⟩ | ⟨title, -, rfl⟩
  · exact h
  · exact h.write rfl

theorem Readable.adopt (h : Readable deps db) {clockMs : Int} {chat agent : String}
    (hadopt : adopt db clockMs chat agent = .ok db') : Readable deps db' := by
  rcases adopt_eq_ok hadopt with rfl | ⟨title, -, rfl⟩ | ⟨-, -, rfl⟩
  · exact h
  · exact h.write rfl
  · exact h.write rfl

theorem Readable.admitFollowup [DecidableEq δ] (h : Readable deps db) {runtime : Runtime}
    {request : InboxRequest} {session messageId : String} {prompt : PromptInput} {digest : δ}
    {answer : String × Option String}
    (hadmits : admitFollowup deps runtime db request session messageId prompt digest
      = .ok (answer, db')) : Readable deps db' := by
  simp only [Nakode.admitFollowup, bind_eq_ok] at hadmits
  obtain ⟨_, -, _, -, known, -, hadmits⟩ := hadmits
  split at hadmits
  · obtain ⟨-, rfl⟩ := Prod.mk.inj (pure_eq_ok.1 hadmits)
    exact h
  simp only [bind_eq_ok] at hadmits
  obtain ⟨source, -, content, -, db₁, hmessage, hadmits⟩ := hadmits
  have h₁ := h.admitMessage hmessage
  split at hadmits
  · obtain ⟨-, rfl⟩ := Prod.mk.inj (pure_eq_ok.1 hadmits)
    exact h₁
  · obtain ⟨db₂, hsave, hadmits⟩ := bind_eq_ok.1 hadmits
    have h₂ := h₁.saveSource hsave
    split at hadmits
    · obtain ⟨db₃, hadopt, hadmits⟩ := bind_eq_ok.1 hadmits
      obtain ⟨-, rfl⟩ := Prod.mk.inj (pure_eq_ok.1 hadmits)
      exact h₂.adopt hadopt
    · obtain ⟨-, rfl⟩ := Prod.mk.inj (pure_eq_ok.1 hadmits)
      exact h₂

theorem Readable.admitExternalReport [DecidableEq δ] (h : Readable deps db)
    (hdeps : deps.Shortens) {request : InboxRequest} {digest : δ} {answer : String × Option String}
    (hadmits : admitExternalReport deps db request digest = .ok (answer, db')) :
    Readable deps db' := by
  unfold Nakode.admitExternalReport at hadmits
  split at hadmits
  · simp only [bind_eq_ok] at hadmits
    obtain ⟨_, -, _, -, ⟨prompt, source, display⟩, hreport, known, -, hadmits⟩ := hadmits
    split at hadmits
    · obtain ⟨-, rfl⟩ := Prod.mk.inj (pure_eq_ok.1 hadmits)
      exact h
    simp only [bind_eq_ok, pure_eq_ok] at hadmits
    obtain ⟨db₁, hmessage, db₂, hsave, hadmits⟩ := hadmits
    obtain ⟨-, rfl⟩ := Prod.mk.inj hadmits
    simp only [externalReport, bind_eq_ok, ensure_eq_ok, pure_eq_ok, decide_eq_true_eq] at hreport
    obtain ⟨_, -, status, -, _, hbody, hreport⟩ := hreport
    obtain ⟨-, hrest⟩ := Prod.mk.inj hreport
    obtain ⟨-, rfl⟩ := Prod.mk.inj hrest
    exact ((h.admitMessage hmessage).saveSource hsave).setDisplayText _ _
      (len_reportDisplay_le hdeps hbody)
  · cases hadmits

theorem Readable.execute [DecidableEq δ] (h : Readable deps db) (hdeps : deps.Shortens)
    {runtime : Runtime} {request : InboxRequest} {id : Option String}
    (hexecute : executeAuthenticated deps runtime db request = .ok (id, db')) :
    Readable deps db' := by
  obtain ⟨-, ⟨_, -, -, -, rfl⟩ | ⟨-, -, session, db₁, hcommand, -, rfl⟩⟩ :=
    executeAuthenticated_eq_ok hexecute
  · exact h
  refine Readable.write ?_ rfl
  unfold executeCommand at hcommand
  split at hcommand
  · exact h.admitFollowup hcommand
  · exact h.admitFollowup hcommand
  · exact h.admitExternalReport hdeps hcommand
  · obtain ⟨db₂, hremove, hcommand⟩ := bind_eq_ok.1 hcommand
    obtain ⟨-, rfl⟩ := Prod.mk.inj (pure_eq_ok.1 hcommand)
    obtain ⟨n, -, rfl, -⟩ := removePending_eq_ok hremove
    exact h.write rfl
  · obtain ⟨db₂, hpause, hcommand⟩ := bind_eq_ok.1 hcommand
    obtain ⟨-, rfl⟩ := Prod.mk.inj (pure_eq_ok.1 hcommand)
    simp only [setFollowupPaused, bind_eq_ok, pure_eq_ok] at hpause
    obtain ⟨_, -, rfl⟩ := hpause
    refine h.of_eq ?_ rfl
    dsimp only
    split <;> rfl
  · cases hcommand

/-- Admitting a report shows what is shown of the report. -/
theorem Readable.admitChildEvent (h : Readable deps db) {event : ChildEvent} {now : Bool}
    (hshown : Text.len (reportDisplay deps event.report.reportId event.report.body) ≤ maxTextBytes)
    (hadmits : admitChildEvent deps db event = .ok (now, db')) : Readable deps db' := by
  unfold Nakode.admitChildEvent at hadmits
  extract_lets message prompt at hadmits
  split at hadmits
  · split at hadmits
    · obtain ⟨-, rfl⟩ := Prod.mk.inj (Except.ok.inj hadmits)
      exact h
    · cases hadmits
  · next db₁ hmessage =>
    simp only [bind_eq_ok, pure_eq_ok] at hadmits
    obtain ⟨db₂, hsave, db₃, hrecord, hadmits⟩ := hadmits
    obtain ⟨-, rfl⟩ := Prod.mk.inj hadmits
    exact (((h.admitMessage hmessage).saveSource hsave).setDisplayText _ _ hshown).recordDelivery
      hrecord

theorem Readable.admitEach (h : Readable deps db) {events : List ChildEvent} {now now' : Bool}
    (hshown : ∀ event ∈ events,
      Text.len (reportDisplay deps event.report.reportId event.report.body) ≤ maxTextBytes)
    (hadmits : admitEach deps events now db = .ok (now', db')) : Readable deps db' := by
  induction events generalizing now db with
  | nil =>
    obtain ⟨-, rfl⟩ := Prod.mk.inj (Except.ok.inj hadmits)
    exact h
  | cons event rest ih =>
    simp only [Nakode.admitEach, bind_eq_ok] at hadmits
    obtain ⟨⟨first, db₁⟩, hfirst, hadmits⟩ := hadmits
    exact ih (h.admitChildEvent (hshown event List.mem_cons_self) hfirst)
      (fun e he => hshown e (List.mem_cons_of_mem _ he)) hadmits

theorem Readable.publishInTransaction (h : Readable deps db)
    {child reportId state body : String} {nowMs : Int}
    (hpublish : publishInTransaction db child reportId state body nowMs = .ok db') :
    Readable deps db' := by
  simp only [Nakode.publishInTransaction, bind_eq_ok, ensure_eq_ok, need_eq_ok, Bool.not_eq_true',
    Bool.or_eq_false_iff, decide_eq_false_iff_not, Nat.not_lt] at hpublish
  obtain ⟨_, ⟨⟨⟨⟨⟨-, hturn⟩, -⟩, -⟩, -⟩, hbody⟩, status, -, _, -, hpublish⟩ := hpublish
  split at hpublish
  · simp only [bind_eq_ok, pure_eq_ok] at hpublish
    obtain ⟨_, -, rfl⟩ := hpublish
    exact h
  · simp only [bind_eq_ok, pure_eq_ok] at hpublish
    obtain ⟨_, -, rfl⟩ := hpublish
    refine h.publish ?_
    simp only [reportDisplay, hturn, Bool.false_eq_true, if_false]
    exact Nat.le_trans hbody (by decide)

theorem Readable.executeReport [DecidableEq δ] (h : Readable deps db) {request : ReportRequest}
    (hexecute : executeReport deps db request = .ok db') : Readable deps db' := by
  simp only [Nakode.executeReport, bind_eq_ok] at hexecute
  obtain ⟨_, -, hexecute⟩ := hexecute
  split at hexecute
  · simp only [bind_eq_ok, pure_eq_ok] at hexecute
    obtain ⟨_, -, rfl⟩ := hexecute
    exact h
  simp only [bind_eq_ok, pure_eq_ok] at hexecute
  obtain ⟨_, -, _, -, ⟨child, db₁⟩, hcommand, _, -, rfl⟩ := hexecute
  suffices hread : Readable deps db₁ from hread.of_eq rfl rfl
  unfold reportCommand at hcommand
  split at hcommand
  · obtain ⟨db₂, hlink, hcommand⟩ := bind_eq_ok.1 hcommand
    obtain ⟨-, rfl⟩ := Prod.mk.inj (pure_eq_ok.1 hcommand)
    exact h.linkInTransaction hlink
  · obtain ⟨db₂, hpublish, hcommand⟩ := bind_eq_ok.1 hcommand
    obtain ⟨-, rfl⟩ := Prod.mk.inj (pure_eq_ok.1 hcommand)
    exact h.publishInTransaction hpublish
  · cases hcommand

theorem Readable.recordQuestion (h : Readable deps db) {child : String}
    {question : QuestionRequest} {nowMs : Int}
    (hrecord : recordQuestion deps db child question nowMs = .ok db') : Readable deps db' := by
  unfold Nakode.recordQuestion at hrecord
  extract_lets reportId at hrecord
  split at hrecord
  · obtain rfl := pure_eq_ok.1 hrecord
    exact h
  · simp only [bind_eq_ok, ensure_eq_ok, pure_eq_ok, decide_eq_true_eq] at hrecord
    obtain ⟨_, hbody, _, -, rfl⟩ := hrecord
    refine h.publish ?_
    have hquestion : Text.startsWith reportId "turn:" = false := by
      simp [reportId, Text.startsWith, List.isPrefixOf]
    simp only [reportDisplay, hquestion, Bool.false_eq_true, if_false]
    exact Nat.le_trans hbody (by decide)

theorem Readable.updateLastTurn (h : Readable deps db) {session : String} {turn : LastTurn}
    (hcaptured : (Op.updateLastTurn session turn).Captured deps)
    (hupdate : updateLastTurn db session turn = .ok db') : Readable deps db' := by
  unfold Nakode.updateLastTurn at hupdate
  simp only [bind_eq_ok] at hupdate
  obtain ⟨_, -, hupdate⟩ := hupdate
  split at hupdate
  · obtain rfl := pure_eq_ok.1 hupdate
    exact h
  · obtain rfl := pure_eq_ok.1 hupdate
    obtain ⟨text, hcapture, hread⟩ := hcaptured
    refine h.publish ?_
    have hturn : Text.startsWith ("turn:" ++ turn.id) "turn:" = true := by
      simp [Text.startsWith]
    simp only [reportDisplay, hturn, if_true, hcapture]
    exact len_display_captured_le hread

theorem Readable.applyReparent (h : Readable deps db) {clockMs : Int} {request : Reparent}
    (happly : applyReparent db clockMs request = .ok db') : Readable deps db' := by
  obtain ⟨-, -, -, ⟨-, title, -, rfl⟩ | ⟨-, -, rfl⟩⟩ := applyReparent_eq_ok happly
  · exact h.write rfl
  · exact h.write rfl

theorem Readable.deleteGuarded (h : Readable deps db) {clockMs : Int} {id : String}
    {guard : DeletionGuard} (hdelete : deleteGuarded db clockMs id guard = .ok db') :
    Readable deps db' := by
  obtain ⟨resolved, hdelete⟩ := deleteGuarded_eq_ok hdelete
  rcases hdelete with rfl | ⟨session, -, rfl⟩
  · exact h.write rfl
  · exact ((h.write (w := .directory _) rfl).write (w := .kin (.holds _)) rfl).write rfl

/-- Every operation keeps what is shown within the bounds of a page. -/
theorem Readable.perform [DecidableEq δ] (h : Readable deps db) (hdeps : deps.Shortens) {op : Op}
    (hcaptured : op.Captured deps) {answer : Answer}
    (hperform : perform deps op db = .ok (answer, db')) : Readable deps db' := by
  cases op with
  | execute request runtime =>
    obtain ⟨⟨id, db₁⟩, hop, heq⟩ := of_wrapped hperform
    cases heq
    exact h.execute hdeps hop
  | admitChildEvents =>
    obtain ⟨⟨any, db₁⟩, hop, heq⟩ := of_wrapped hperform
    cases heq
    exact h.admitEach (fun event hevent =>
      h.report _ _ (holds_of_mem_childEvents hevent).report) hop
  | claim session uuid =>
    obtain ⟨⟨batch, db₁⟩, hop, heq⟩ := of_wrapped hperform
    cases heq
    exact h.writes (claim_writes (fun _ _ _ _ => rfl) hop)
  | fenceDispatch session batch =>
    obtain ⟨db₁, hop, heq⟩ := of_wrapped hperform
    cases heq
    obtain ⟨-, rfl⟩ := fenceDispatch_eq_ok hop
    exact h.write rfl
  | observeAccepted session batch turn =>
    obtain ⟨db₁, hop, heq⟩ := of_wrapped hperform
    cases heq
    simp only [observeAccepted, bind_eq_ok, pure_eq_ok] at hop
    obtain ⟨_, -, rfl⟩ := hop
    exact h.of_eq rfl rfl
  | acknowledge | block | releaseHold | renameSession =>
    cases hperform
    exact h.of_eq rfl rfl
  | pause session =>
    cases hperform
    unfold pause
    split
    · exact h.of_eq rfl rfl
    · exact h
  | dispatch session uuid prompted persisted =>
    cases hperform
    split
    · exact h
    · next hclaim => exact h.writes (claim_writes (fun _ _ _ _ => rfl) hclaim)
    · next hclaim =>
      have h₁ := h.writes (claim_writes (fun _ _ _ _ => rfl) hclaim)
      split
      · exact h₁.of_eq rfl rfl
      · split
        · exact h₁
        · next hfence =>
          obtain ⟨-, rfl⟩ := fenceDispatch_eq_ok hfence
          exact h₁.of_eq rfl rfl
  | report request =>
    obtain ⟨db₁, hop, heq⟩ := of_wrapped hperform
    cases heq
    exact h.executeReport hop
  | recordQuestion child question nowMs =>
    obtain ⟨db₁, hop, heq⟩ := of_wrapped hperform
    cases heq
    exact h.recordQuestion hop
  | reparent request authenticate =>
    obtain ⟨db₁, hop, heq⟩ := of_wrapped hperform
    cases heq
    obtain ⟨change, -, ⟨_, -, rfl⟩ | ⟨-, db₂, row, happly, -, -, -, -, -, -, -, rfl⟩⟩ :=
      reparent_eq_ok hop
    · exact h
    · exact (h.applyReparent happly).write rfl
  | createSession clockMs request =>
    obtain ⟨db₁, hop, heq⟩ := of_wrapped hperform
    cases heq
    obtain ⟨id, d, -, rfl | ⟨parent, title, -, rfl⟩⟩ := createSession_eq_ok hop
    · exact h.write rfl
    · exact (h.write (w := .directory d) rfl).write rfl
  | bindProfile | saveBridge =>
    obtain ⟨d, -, heq⟩ := of_wrapped hperform
    cases heq
    exact h.of_eq rfl rfl
  | recordRun run parent =>
    obtain ⟨db₁, hop, heq⟩ := of_wrapped hperform
    cases heq
    simp only [recordRun, bind_eq_ok, pure_eq_ok] at hop
    obtain ⟨_, -, rfl⟩ := hop
    exact h.of_eq rfl rfl
  | updateLastTurn session turn =>
    obtain ⟨db₁, hop, heq⟩ := of_wrapped hperform
    cases heq
    exact h.updateLastTurn hcaptured hop
  | holdDeletion nowMs session parent =>
    obtain ⟨⟨free, db₁⟩, hop, heq⟩ := of_wrapped hperform
    cases heq
    simp only [holdChildDeletion, bind_eq_ok, pure_eq_ok] at hop
    obtain ⟨_, -, _, -, hop⟩ := hop
    obtain ⟨-, rfl⟩ := Prod.mk.inj hop
    exact h.of_eq rfl rfl
  | deleteGuarded clockMs id guard =>
    obtain ⟨db₁, hop, heq⟩ := of_wrapped hperform
    cases heq
    exact h.deleteGuarded hop
  | deleteSession clockMs session =>
    obtain ⟨db₁, hop, heq⟩ := of_wrapped hperform
    cases heq
    obtain ⟨-, rfl⟩ := deleteSession_eq_ok hop
    exact h.write rfl
  | purgeAll =>
    cases hperform
    exact h.write (w := .purge) rfl
  | reopen =>
    cases hperform
    exact h.writes (reopen_writes (fun _ => rfl) (fun _ _ => rfl) db)

end

/-- What is shown of a message fits a page after every run of operations. -/
theorem readable_of_run [DecidableEq δ] {deps : Deps δ} (hdeps : deps.Shortens) {ops : List Op}
    (hcaptured : ∀ op ∈ ops, op.Captured deps) {db : Db δ}
    (hrun : (machine deps).Run ∅ ops db) : Readable deps db := by
  have hkeeps : ∀ {before after : Db δ} {ops : List Op}, (machine deps).Run before ops after →
      (∀ op ∈ ops, op.Captured deps) → Readable deps before → Readable deps after := by
    intro before after ops hrun hcaptured h
    induction hrun with
    | nil => exact h
    | cons hnext _ ih =>
      refine ih (fun op hop => hcaptured op (List.mem_cons_of_mem _ hop)) ?_
      rcases next_cases hnext with rfl | ⟨answer, hperform⟩
      · exact h
      · exact h.perform hdeps (hcaptured _ List.mem_cons_self) hperform
  exact hkeeps hrun hcaptured .empty

/-- A client that reads a view from its start and follows the last sequence of each page reads the
messages of the view, each once and in the order of the view; every page but the last is not empty,
and every page is within its two limits. -/
theorem inbox_paging_lossless [DecidableEq δ] {deps : Deps δ} (hdeps : deps.Shortens)
    {ops : List Op} (hcaptured : ∀ op ∈ ops, op.Captured deps) {db : Db δ}
    (hrun : (machine deps).Run ∅ ops db) (hkeys : db.inbox.messages.next ≤ 2 ^ 63)
    {session : String} (hsession : authorize db session false = .ok ()) {view : String}
    (hview : view ∈ ["all", "active", "consumed"]) {limit : Nat}
    (hlimit : 1 ≤ limit ∧ limit ≤ 64) :
    let rows := db.inbox.viewed session view
    (rows.Pairwise fun a b => if view = "consumed" then b.1 < a.1 else a.1 < b.1) ∧
    (∀ row, row ∈ rows ↔ db.inbox.messages.find? row.1 = some row.2 ∧ row.2.sessionId = session ∧
      db.inbox.removed row.1 = false ∧
      (view = "consumed" → db.inbox.batchState? row.2 = some .consumed) ∧
      (view = "active" → db.inbox.batchState? row.2 ≠ some .consumed)) ∧
    ∃ pages, (∀ fuel, rows.length < fuel →
        readView db session limit view fuel 0 = .ok (some pages)) ∧
      db.inbox.Listed limit rows pages := by
  have hreadable := readable_of_run hdeps hcaptured hrun
  have hrows : ∀ n m, db.inbox.messages.find? n = some m →
      0 < n ∧ n < 2 ^ 63 ∧ Text.len m.displayText ≤ maxPageTextBytes := by
    intro n m hm
    obtain ⟨hpos, hlen⟩ := hreadable.message n m hm
    exact ⟨hpos, Nat.lt_of_lt_of_le (Sequenced.lt_next hm) hkeys,
      Nat.le_trans hlen (by decide)⟩
  have hstart : db.inbox.left session view 0 = db.inbox.viewed session view := by
    refine List.filter_eq_self.2 fun row hrow => ?_
    have := (hrows row.1 row.2 (mem_viewed_iff.1 hrow).1).1
    unfold beyond
    split <;> simp [this]
  refine ⟨viewed_pairwise db.inbox session view, fun row => ?_, ?_⟩
  · rw [mem_viewed_iff]
    simp [Inbox.shows, and_assoc, imp_iff_not_or]
  · rw [← hstart]
    exact readView_eq hsession hlimit (.inr (by simpa using hview)) hrows (by decide)

/-- Two messages wait for an agent. -/
def twoMessages : List Op :=
  [.createSession 0 ⟨"agent", "codex", "native", "/work", "Agent", none, none, none⟩,
    .execute ⟨.enqueueFollowup "agent" "first" ⟨"Hello", []⟩, "key", "owner", false, 0⟩
      ⟨.ok, .ok (), 0⟩,
    .execute ⟨.enqueueFollowup "agent" "second" ⟨"Again", []⟩, "next", "owner", false, 1⟩
      ⟨.ok, .ok (), 1⟩]

/-- They are read back in two pages of one message each. -/
theorem inbox_paging_lossless_two :
    ((afterAll .verbatim twoMessages ∅).inbox.viewed "agent" "all").length = 2 ∧
    ∃ pages, (∀ fuel, 2 < fuel →
        readView (afterAll .verbatim twoMessages ∅) "agent" 1 "all" fuel 0 = .ok (some pages)) ∧
      (afterAll .verbatim twoMessages ∅).inbox.Listed 1
        ((afterAll .verbatim twoMessages ∅).inbox.viewed "agent" "all") pages := by
  have hlength : ((afterAll .verbatim twoMessages ∅).inbox.viewed "agent" "all").length = 2 := by
    decide +kernel
  have hcaptured : ∀ op ∈ twoMessages, op.Captured .verbatim := by
    intro op hop
    simp only [twoMessages, List.mem_cons, List.not_mem_nil, or_false] at hop
    rcases hop with rfl | rfl | rfl <;> trivial
  have hdeps : Deps.verbatim.Shortens := by
    intro body completion text hparse
    cases hparse
  have hsession : authorize (afterAll .verbatim twoMessages ∅) "agent" false = .ok () := by
    decide +kernel
  have hview : "all" ∈ ["all", "active", "consumed"] := by decide
  obtain ⟨-, -, pages, hread, hlisted⟩ := inbox_paging_lossless hdeps hcaptured
    (machine_run_iff.2 rfl) (by decide +kernel) hsession hview ⟨Nat.le_refl 1, by omega⟩
  exact ⟨hlength, pages, hlength ▸ hread, hlisted⟩

end Nakode
