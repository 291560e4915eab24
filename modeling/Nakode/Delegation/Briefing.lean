import Nakode.Delegation.SharedContext
import Nakode.Lib.Boundary

/-!
# The briefing on shared context

A delegated run starts with a briefing on what the other runs of its session found
(`sharedContextBriefing`). The entries that share words with its task are ranked, and the best of
them, or the newest three when none does, are delivered in the order of their sequences until 12 KiB
are full (`deliver`). `none` stands for a slice that is not on character boundaries, where the
server would panic; there is none.
-/

namespace Nakode.Delegation

open Text

def maxSharedContextBriefingEntries : Nat := 8

def maxSharedContextBriefingBytes : Nat := 12 * 1024

def maxU32 : Nat := 2 ^ 32 - 1

/-- The tables of Unicode: `char::is_alphanumeric` and `str::to_lowercase`. -/
structure Unicode where
  isAlphanumeric : Char → Bool
  toLowercase : String → String

structure SharedContextBriefingEntry where
  sourceSequence : Nat
  sourceId : String
  sourceAuthorRunId : Option String
  sourceAuthorLabel : String
  kind : String
  deliveredBody : String
  sourceBodyBytes : Nat
  deliveredBodyBytes : Nat
  truncated : Bool
  fallback : Bool
  deriving DecidableEq, Repr

structure SharedContextBriefing where
  text : String
  entries : List SharedContextBriefingEntry
  fallback : Bool
  deriving DecidableEq, Repr

/-! ## The ranking -/

namespace Unicode

variable (U : Unicode)

/-- The words of a task of three characters or more, in lower case and each once. -/
def terms (task : String) : List String :=
  ((((task.toList.splitOnP fun c =>
    !U.isAlphanumeric c && !(c == '_' || c == '-' || c == '/' || c == '.')).filter
      fun term => 3 ≤ term.length).map fun term => U.toLowercase (String.ofList term))).dedup

/-- How many of the task's words an entry contains. -/
def score (task : String) (entry : SharedContextEntry) : Nat :=
  let searchable := U.toLowercase (entry.kind ++ " " ++ entry.authorLabel ++ " " ++ entry.body)
  ((U.terms task).filter fun term => decide (term.toList <:+: searchable.toList)).length

/-- The entries by score, and by recency where the scores are equal. -/
def ranked (entries : List SharedContextEntry) (task : String) : List (Nat × SharedContextEntry) :=
  (entries.map fun entry => (U.score task entry, entry)).insertionSort fun left right =>
    right.1 < left.1 ∨ right.1 = left.1 ∧ right.2.sequence ≤ left.2.sequence

/-- The entries to deliver, and whether they only are the newest ones. -/
def selection (entries : List SharedContextEntry) (task : String) :
    List SharedContextEntry × Bool :=
  let selected := (((U.ranked entries task).filter fun row => row.1 > 0).take
    maxSharedContextBriefingEntries).map (·.2)
  let fallback := selected.isEmpty
  let selected := if fallback then
    selected ++ entries.reverse.take (min 3 maxSharedContextBriefingEntries) else selected
  (selected.insertionSort (·.sequence ≤ ·.sequence), fallback)

end Unicode

/-! ## The delivery -/

/-- What stands before the body of an entry. -/
def SharedContextEntry.lead (entry : SharedContextEntry) : String :=
  "- #" ++ toString entry.sequence ++ " [" ++ entry.kind ++ " · " ++ entry.authorLabel ++ "] "

/-- The entry as it is delivered, up to a part of its body. -/
def SharedContextEntry.delivered (entry : SharedContextEntry) (fallback : Bool) (body : String) :
    SharedContextBriefingEntry :=
  { sourceSequence := entry.sequence
    sourceId := entry.id
    sourceAuthorRunId := entry.authorRunId
    sourceAuthorLabel := entry.authorLabel
    kind := entry.kind
    deliveredBody := body
    sourceBodyBytes := min maxU32 (len entry.body)
    deliveredBodyBytes := min maxU32 (len body)
    truncated := len body < len entry.body
    fallback }

/-- The loop over the selected entries: the output, and the entries in it. -/
def deliver (fallback : Bool) (output : String) :
    List SharedContextEntry → Option (String × List SharedContextBriefingEntry)
  | [] => some (output, [])
  | entry :: rest =>
    let remaining := maxSharedContextBriefingBytes - len output
    if remaining ≤ len entry.lead + 1 then some (output, [])
    else
      let bodyEnd := previousBoundary entry.body
        (min (len entry.body) (remaining - len entry.lead - 1))
      if bodyEnd == 0 then deliver fallback output rest
      else do
        let body ← get? entry.body 0 bodyEnd
        let output := output ++ entry.lead ++ body ++ "\n"
        if len output ≥ maxSharedContextBriefingBytes then
          return (output, [entry.delivered fallback body])
        let (output, entries) ← deliver fallback output rest
        return (output, entry.delivered fallback body :: entries)

def sharedContextBriefing (U : Unicode) (entries : List SharedContextEntry) (task : String) :
    Option SharedContextBriefing :=
  if entries.isEmpty then some ⟨"- none yet", [], false⟩
  else do
    let (selected, fallback) := U.selection entries task
    let (output, delivered) ← deliver fallback "" selected
    return ⟨String.ofList output.toList.dropLast, delivered, fallback⟩

/-! ## What is delivered -/

/-- The line of an entry in the text. -/
def SharedContextBriefingEntry.line (d : SharedContextBriefingEntry) : String :=
  "- #" ++ toString d.sourceSequence ++ " [" ++ d.kind ++ " · " ++ d.sourceAuthorLabel ++ "] "
    ++ d.deliveredBody

theorem SharedContextEntry.line_delivered (entry : SharedContextEntry) (fallback : Bool)
    (body : String) : (entry.delivered fallback body).line = entry.lead ++ body := rfl

/-- A briefing entry describes the part of an entry's body that it delivers. -/
def SharedContextEntry.Delivers (fallback : Bool) (entry : SharedContextEntry)
    (d : SharedContextBriefingEntry) : Prop :=
  ∃ body after, entry.body = body ++ after ∧ body ≠ "" ∧ d = entry.delivered fallback body

/-- The bytes of an entry's whole line, with its line break. -/
def SharedContextEntry.bytes (entry : SharedContextEntry) : Nat :=
  len entry.lead + len entry.body + 1

/-- What a delivery of selected entries behind an output makes of them. -/
structure Delivery (fallback : Bool) (output : String) (selected : List SharedContextEntry)
    (out : String) (ds : List SharedContextBriefingEntry) : Prop where
  bytes_le : len out ≤ maxSharedContextBriefingBytes
  text : out = output ++ String.join (ds.map fun d => d.line ++ "\n")
  sources : ∃ sources, sources.Sublist selected ∧
    List.Forall₂ (SharedContextEntry.Delivers fallback) sources ds
  /-- The entries before the one whose line does not fit are delivered whole. -/
  whole : ∃ whole rest cut, selected = whole ++ rest ∧
    ds = whole.map (fun entry => entry.delivered fallback entry.body) ++ cut ∧
    ∀ entry more, rest = entry :: more →
      maxSharedContextBriefingBytes
        < len output + (whole.map SharedContextEntry.bytes).sum + entry.bytes

/-- The part of a body up to the last boundary that the budget allows. -/
theorem exists_part (body : String) (left : Nat) :
    ∃ part after, get? body 0 (previousBoundary body (min (len body) left)) = some part ∧
      body = part ++ after ∧ len part = previousBoundary body (min (len body) left) ∧
      len part ≤ left ∧ (len body ≤ left → part = body) := by
  obtain ⟨hle, hboundary⟩ := previousBoundary_spec body (min (len body) left)
  obtain ⟨part, after, hbody, hlen⟩ := isCharBoundary_iff.1 hboundary
  refine ⟨part, after, ?_, hbody, hlen, by omega, ?_⟩
  · exact get?_eq_some_iff.2 ⟨"", after, by rw [String.empty_append, ← hbody], rfl, by
      rw [len_empty, Nat.zero_add, hlen]⟩
  · intro hfits
    have hwhole : previousBoundary body (len body) = len body := by
      cases hsize : len body with
      | zero => rfl
      | succ n => rw [previousBoundary, if_pos (hsize ▸ isCharBoundary_len body)]
    rw [Nat.min_eq_left hfits, hwhole] at hlen
    have htotal := congrArg len hbody
    rw [len_append] at htotal
    rw [hbody, len_eq_zero.1 (show len after = 0 by omega), String.append_empty]

/-- An entry whose line does not fit ends what is delivered whole. -/
theorem Delivery.cut {fallback : Bool} {output : String} {entry : SharedContextEntry}
    {ds : List SharedContextBriefingEntry} {selected : List SharedContextEntry}
    (h : maxSharedContextBriefingBytes < len output + entry.bytes) :
    ∃ whole rest cut, entry :: selected = whole ++ rest ∧
      ds = whole.map (fun entry => entry.delivered fallback entry.body) ++ cut ∧
      ∀ entry more, rest = entry :: more → maxSharedContextBriefingBytes
        < len output + (whole.map SharedContextEntry.bytes).sum + entry.bytes := by
  refine ⟨[], entry :: selected, ds, rfl, rfl, ?_⟩
  rintro _ _ ⟨⟩
  exact h

theorem deliver_spec (fallback : Bool) (output : String) {selected : List SharedContextEntry}
    (hbody : ∀ entry ∈ selected, entry.body ≠ "")
    (hbytes : len output ≤ maxSharedContextBriefingBytes) :
    ∃ out ds, deliver fallback output selected = some (out, ds) ∧
      Delivery fallback output selected out ds := by
  induction selected generalizing output with
  | nil =>
    exact ⟨output, [], rfl, hbytes, by simp, ⟨[], .slnil, .nil⟩, [], [], [], rfl, rfl, nofun⟩
  | cons entry rest ih =>
    have hrest : ∀ entry ∈ rest, entry.body ≠ "" := fun e he => hbody e (List.mem_cons_of_mem _ he)
    have hpos : 0 < len entry.body :=
      Nat.pos_of_ne_zero (mt len_eq_zero.1 (hbody entry List.mem_cons_self))
    have hentry : entry.bytes = len entry.lead + len entry.body + 1 := rfl
    have hnewline : len "\n" = 1 := by decide
    rw [deliver]
    dsimp only
    by_cases hfull : maxSharedContextBriefingBytes - len output ≤ len entry.lead + 1
    · rw [if_pos hfull]
      exact ⟨output, [], rfl, hbytes, by simp, ⟨[], List.nil_sublist _, .nil⟩,
        Delivery.cut (by omega)⟩
    rw [if_neg hfull]
    generalize hleft : maxSharedContextBriefingBytes - len output - len entry.lead - 1 = left
    obtain ⟨part, after, hpart, hsplit, hlen, hle, hwhole⟩ := exists_part entry.body left
    generalize previousBoundary entry.body (min (len entry.body) left) = bodyEnd at *
    have hcut : part ≠ entry.body →
        maxSharedContextBriefingBytes < len output + entry.bytes := by
      intro hne
      have := mt hwhole hne
      omega
    by_cases hzero : bodyEnd = 0
    · -- Not a character of the body fits: the entry is left out.
      rw [if_pos (by simpa using hzero)]
      obtain ⟨out, ds, hout, hdelivery⟩ := ih _ hrest hbytes
      obtain ⟨sources, hsub, hsources⟩ := hdelivery.sources
      refine ⟨out, ds, hout, hdelivery.bytes_le, hdelivery.text,
        ⟨sources, hsub.cons _, hsources⟩, Delivery.cut (hcut ?_)⟩
      rintro rfl
      omega
    rw [if_neg (by simpa using hzero), hpart, Option.bind_eq_bind, Option.bind_some]
    have hdelivers : entry.Delivers fallback (entry.delivered fallback part) := by
      refine ⟨part, after, hsplit, ?_, rfl⟩
      rintro rfl
      exact hzero hlen.symm
    have houtput : len (output ++ entry.lead ++ part ++ "\n") ≤ maxSharedContextBriefingBytes := by
      simp only [len_append, hnewline]
      omega
    have hnext : len (output ++ entry.lead ++ part ++ "\n")
        = len output + len entry.lead + len part + 1 := by
      simp only [len_append, hnewline]
    by_cases hends : len (output ++ entry.lead ++ part ++ "\n") ≥ maxSharedContextBriefingBytes
    · rw [if_pos hends]
      refine ⟨_, _, rfl, houtput, by simp [SharedContextEntry.line_delivered, String.append_assoc],
        ⟨[entry], List.singleton_sublist.2 List.mem_cons_self, .cons hdelivers .nil⟩, ?_⟩
      by_cases hall : part = entry.body
      · refine ⟨[entry], rest, [], rfl, by simp [hall], ?_⟩
        rintro next more rfl
        have := congrArg len hall
        simp only [List.map_cons, List.map_nil, List.sum_cons, List.sum_nil]
        have hnextEntry : next.bytes = len next.lead + len next.body + 1 := rfl
        omega
      · exact Delivery.cut (hcut hall)
    rw [if_neg hends]
    obtain ⟨out, ds, hout, hdelivery⟩ := ih _ hrest houtput
    obtain ⟨sources, hsub, hsources⟩ := hdelivery.sources
    rw [hout]
    refine ⟨out, _, rfl, hdelivery.bytes_le, ?_,
      ⟨entry :: sources, hsub.cons_cons _, .cons hdelivers hsources⟩, ?_⟩
    · rw [hdelivery.text, List.map_cons, String.join_cons, SharedContextEntry.line_delivered]
      simp only [String.append_assoc]
    · by_cases hall : part = entry.body
      · obtain ⟨whole, others, cut, hselected, hds, hbudget⟩ := hdelivery.whole
        refine ⟨entry :: whole, others, cut, by rw [hselected]; rfl, by rw [hds, hall]; rfl, ?_⟩
        intro next more hmore
        have := hbudget next more hmore
        have := congrArg len hall
        rw [List.map_cons, List.sum_cons]
        omega
      · exact Delivery.cut (hcut hall)

/-! ## What is selected -/

namespace Unicode

variable (U : Unicode) {entries : List SharedContextEntry} {task : String}

/-- Of two entries, the first goes before the second in the ranking. -/
def Outranks (task : String) (first second : SharedContextEntry) : Prop :=
  U.score task second < U.score task first ∨
    U.score task second = U.score task first ∧ second.sequence < first.sequence

theorem perm_ranked (entries : List SharedContextEntry) (task : String) :
    (U.ranked entries task).Perm (entries.map fun entry => (U.score task entry, entry)) :=
  List.perm_insertionSort _ _

theorem mem_ranked {row : Nat × SharedContextEntry} :
    row ∈ U.ranked entries task ↔ row.2 ∈ entries ∧ row.1 = U.score task row.2 := by
  rw [(U.perm_ranked entries task).mem_iff, List.mem_map]
  constructor
  · rintro ⟨entry, hentry, rfl⟩
    exact ⟨hentry, rfl⟩
  · rintro ⟨hentry, hscore⟩
    exact ⟨row.2, hentry, by rw [← hscore]⟩

theorem pairwise_ranked (entries : List SharedContextEntry) (task : String) :
    (U.ranked entries task).Pairwise fun left right =>
      right.1 < left.1 ∨ right.1 = left.1 ∧ right.2.sequence ≤ left.2.sequence := by
  have htotal : Std.Total fun left right : Nat × SharedContextEntry =>
      right.1 < left.1 ∨ right.1 = left.1 ∧ right.2.sequence ≤ left.2.sequence :=
    ⟨fun a b => by omega⟩
  have htrans : IsTrans (Nat × SharedContextEntry) fun left right =>
      right.1 < left.1 ∨ right.1 = left.1 ∧ right.2.sequence ≤ left.2.sequence :=
    ⟨fun a b c hab hbc => by omega⟩
  exact List.pairwise_insertionSort _ _

/-- The entries that share a word with the task, the best eight of them. -/
def best (entries : List SharedContextEntry) (task : String) : List SharedContextEntry :=
  (((U.ranked entries task).filter fun row => row.1 > 0).take
    maxSharedContextBriefingEntries).map (·.2)

theorem selection_eq (entries : List SharedContextEntry) (task : String) :
    U.selection entries task =
      if (U.best entries task).isEmpty then
        ((entries.reverse.take 3).insertionSort (·.sequence ≤ ·.sequence), true)
      else ((U.best entries task).insertionSort (·.sequence ≤ ·.sequence), false) := by
  unfold selection
  rw [← best]
  dsimp only
  cases hbest : (U.best entries task).isEmpty with
  | false => rfl
  | true =>
    rw [List.isEmpty_iff.1 hbest]
    rfl

theorem best_eq_nil : U.best entries task = [] ↔ ∀ entry ∈ entries, U.score task entry = 0 := by
  rw [best, List.map_eq_nil_iff, List.take_eq_nil_iff, List.filter_eq_nil_iff]
  constructor
  · rintro (h | h)
    · cases h
    · intro entry hentry
      have := h (U.score task entry, entry) (U.mem_ranked.2 ⟨hentry, rfl⟩)
      simpa using this
  · intro h
    refine .inr fun row hrow => ?_
    obtain ⟨hentry, hscore⟩ := U.mem_ranked.1 hrow
    simp [hscore, h _ hentry]

theorem best_subperm (entries : List SharedContextEntry) (task : String) :
    (U.best entries task).Subperm entries := by
  have hsub : (U.best entries task).Sublist ((U.ranked entries task).map (·.2)) :=
    ((List.take_sublist _ _).trans List.filter_sublist).map _
  have hperm := (U.perm_ranked entries task).map (·.2)
  rw [List.map_map, show (fun row : Nat × SharedContextEntry => row.2) ∘
    (fun entry => (U.score task entry, entry)) = id from rfl, List.map_id] at hperm
  exact hsub.subperm.trans hperm.subperm

/-- What is left out is outranked by what is kept. -/
theorem outranks_of_notMem_best (hsequences : (entries.map (·.sequence)).Nodup)
    {kept left : SharedContextEntry} (hkept : kept ∈ U.best entries task)
    (hleft : left ∈ entries) (hnot : left ∉ U.best entries task) : U.Outranks task kept left := by
  obtain ⟨row, hrow, rfl⟩ := List.mem_map.1 hkept
  have hmatches := List.mem_filter.1 (List.mem_of_mem_take hrow)
  obtain ⟨hentry, hscore⟩ := U.mem_ranked.1 hmatches.1
  have hpos : 0 < row.1 := by simpa using hmatches.2
  by_cases hzero : U.score task left = 0
  · exact .inl (by omega)
  have hrest : (U.score task left, left) ∈
      ((U.ranked entries task).filter fun row => row.1 > 0).drop maxSharedContextBriefingEntries := by
    have hmem : (U.score task left, left) ∈
        (U.ranked entries task).filter fun row => row.1 > 0 :=
      List.mem_filter.2 ⟨U.mem_ranked.2 ⟨hleft, rfl⟩, by simpa using Nat.pos_of_ne_zero hzero⟩
    rw [← List.take_append_drop maxSharedContextBriefingEntries
      ((U.ranked entries task).filter fun row => row.1 > 0)] at hmem
    refine (List.mem_append.1 hmem).resolve_left fun htaken => hnot ?_
    exact List.mem_map.2 ⟨_, htaken, rfl⟩
  have hsorted := (U.pairwise_ranked entries task).filter fun row => row.1 > 0
  rw [← List.take_append_drop maxSharedContextBriefingEntries
    ((U.ranked entries task).filter fun row => row.1 > 0), List.pairwise_append] at hsorted
  have hne : left.sequence ≠ row.2.sequence := by
    intro heq
    rw [List.inj_on_of_nodup_map hsequences hleft hentry heq] at hnot
    exact hnot hkept
  have horder := hsorted.2.2 _ hrow _ hrest
  dsimp only at horder
  unfold Outranks
  omega

/-- The newest entries are the last ones. -/
theorem newest_eq (hsorted : entries.Pairwise (·.sequence < ·.sequence)) :
    (entries.reverse.take 3).insertionSort (·.sequence ≤ ·.sequence)
      = entries.drop (entries.length - 3) := by
  have hlast : (entries.reverse.take 3).Perm (entries.drop (entries.length - 3)) := by
    rw [List.take_reverse]
    exact List.reverse_perm _
  have hdrop := hsorted.sublist (List.drop_sublist (entries.length - 3) entries)
  refine ((List.perm_insertionSort _ _).trans hlast).eq_of_pairwise ?_
    (List.pairwise_insertionSort _ _) (hdrop.imp Nat.le_of_lt)
  intro a b ha hb hab hba
  have hnodup : ((entries.drop (entries.length - 3)).map (·.sequence)).Nodup := by
    rw [List.Nodup, List.pairwise_map]
    exact hdrop.imp Nat.ne_of_lt
  have ha := ((List.perm_insertionSort _ _).trans hlast).mem_iff.1 ha
  exact List.inj_on_of_nodup_map hnodup ha hb (Nat.le_antisymm hab hba)

end Unicode

/-! ## The briefing -/

/-- Lines with their breaks, less the last break, are the lines with breaks between them. -/
theorem dropLast_lines (lines : List String) :
    String.ofList (String.join (lines.map (· ++ "\n"))).toList.dropLast
      = "\n".intercalate lines := by
  have hjoin : ∀ (line : String) (rest : List String),
      String.join ((line :: rest).map (· ++ "\n")) = "\n".intercalate (line :: rest) ++ "\n" := by
    intro line rest
    induction rest generalizing line with
    | nil => simp
    | cons next rest ih =>
      rw [List.map_cons, String.join_cons, ih, String.intercalate_cons_cons]
      simp only [String.append_assoc]
  cases lines with
  | nil => rfl
  | cons line rest =>
    rw [hjoin, String.toList_append, show ("\n" : String).toList = ['\n'] from rfl,
      List.dropLast_concat, String.ofList_toList]

namespace Unicode

variable (U : Unicode) {entries : List SharedContextEntry} {task : String}

/-- What the selection of a list of entries has. -/
structure Selects (entries : List SharedContextEntry) (task : String)
    (selected : List SharedContextEntry) (fallback : Bool) : Prop where
  mem : ∀ entry ∈ selected, entry ∈ entries
  sorted : selected.Pairwise (·.sequence < ·.sequence)
  length_le : selected.length ≤ maxSharedContextBriefingEntries
  outranks : ∀ kept ∈ selected, ∀ left ∈ entries, left ∉ selected → U.Outranks task kept left
  fallback_iff : fallback = true ↔ ∀ entry ∈ entries, U.score task entry = 0
  newest : fallback = true → selected = entries.drop (entries.length - 3)

theorem selects_selection (task : String) (hsorted : entries.Pairwise (·.sequence < ·.sequence)) :
    U.Selects entries task (U.selection entries task).1 (U.selection entries task).2 := by
  have hsequences : (entries.map (·.sequence)).Nodup := by
    rw [List.Nodup, List.pairwise_map]
    exact hsorted.imp Nat.ne_of_lt
  rw [selection_eq]
  by_cases hbest : U.best entries task = []
  · have hzero := U.best_eq_nil.1 hbest
    rw [if_pos (List.isEmpty_iff.2 hbest), newest_eq hsorted]
    have hdrop := List.drop_sublist (entries.length - 3) entries
    refine ⟨fun entry hentry => hdrop.subset hentry, hsorted.sublist hdrop, ?_, ?_,
      ⟨fun _ => hzero, fun _ => rfl⟩, fun _ => rfl⟩
    · rw [List.length_drop]
      unfold maxSharedContextBriefingEntries
      omega
    · intro kept hkept left hleft hnot
      have hsplit := List.take_append_drop (entries.length - 3) entries
      rw [← hsplit] at hleft hsorted
      have holder := (List.mem_append.1 hleft).resolve_right hnot
      have horder := (List.pairwise_append.1 hsorted).2.2 left holder kept hkept
      rw [hsplit] at hleft
      exact .inr ⟨by rw [hzero left hleft, hzero kept (hdrop.subset hkept)], horder⟩
  · rw [if_neg (mt List.isEmpty_iff.1 hbest)]
    have hperm := List.perm_insertionSort (fun a b : SharedContextEntry => a.sequence ≤ b.sequence)
      (U.best entries task)
    have hsub := U.best_subperm entries task
    have hnodup : (((U.best entries task).insertionSort (·.sequence ≤ ·.sequence)).map
        (·.sequence)).Nodup := by
      rw [(hperm.map _).nodup_iff]
      obtain ⟨mid, hmid, hsublist⟩ := hsub
      exact (hmid.map _).nodup_iff.1 (hsequences.sublist (hsublist.map _))
    rw [List.Nodup, List.pairwise_map] at hnodup
    refine ⟨fun entry hentry => hsub.subset (hperm.mem_iff.1 hentry), ?_, ?_, ?_, ?_, nofun⟩
    · exact ((List.pairwise_insertionSort _ _).and hnodup).imp fun h => Nat.lt_of_le_of_ne h.1 h.2
    · rw [hperm.length_eq, best, List.length_map]
      exact List.length_take_le _ _
    · intro kept hkept left hleft hnot
      exact U.outranks_of_notMem_best hsequences (hperm.mem_iff.1 hkept) hleft
        (mt hperm.mem_iff.2 hnot)
    · exact ⟨nofun, fun hzero => absurd (U.best_eq_nil.2 hzero) hbest⟩

end Unicode

/-- The sizes in a briefing are exact for bodies of at most the entry limit. -/
theorem exact_of_delivers {fallback : Bool} {sources : List SharedContextEntry}
    {ds : List SharedContextBriefingEntry}
    (h : List.Forall₂ (SharedContextEntry.Delivers fallback) sources ds)
    (hbodies : ∀ entry ∈ sources, len entry.body ≤ maxSharedContextBodyBytes) :
    ds.map (·.sourceSequence) = sources.map (·.sequence) ∧ List.Forall₂
      (fun entry d => entry.Delivers fallback d ∧ d.sourceBodyBytes = len entry.body ∧
        d.deliveredBodyBytes = len d.deliveredBody) sources ds := by
  induction h with
  | nil => exact ⟨rfl, .nil⟩
  | @cons entry d sources ds hdelivers _ ih =>
    obtain ⟨hsequences, hexact⟩ := ih fun e he => hbodies e (List.mem_cons_of_mem _ he)
    have hfits := hbodies entry List.mem_cons_self
    obtain ⟨body, after, hsplit, hne, rfl⟩ := hdelivers
    have hlen := congrArg len hsplit
    rw [len_append] at hlen
    unfold maxSharedContextBodyBytes at hfits
    have hsource : min maxU32 (len entry.body) = len entry.body := by
      unfold maxU32
      omega
    have hdelivered : min maxU32 (len body) = len body := by
      unfold maxU32
      omega
    exact ⟨by rw [List.map_cons, List.map_cons, hsequences]; rfl,
      .cons ⟨⟨body, after, hsplit, hne, rfl⟩, hsource, hdelivered⟩ hexact⟩

/-- The briefing on nothing says so. Else it delivers what it selects, in order and up to 12 KiB,
each entry before the one that does not fit whole. -/
theorem shared_context_briefing_delivers (U : Unicode) (entries : List SharedContextEntry)
    (task : String) (hsorted : entries.Pairwise (·.sequence < ·.sequence))
    (hbodies : ∀ entry ∈ entries, entry.body ≠ "" ∧ len entry.body ≤ maxSharedContextBodyBytes) :
    ∃ briefing, sharedContextBriefing U entries task = some briefing ∧
      len briefing.text ≤ maxSharedContextBriefingBytes ∧
      briefing.entries.length ≤ maxSharedContextBriefingEntries ∧
      briefing.entries.Pairwise (·.sourceSequence < ·.sourceSequence) ∧
      (entries = [] → briefing = ⟨"- none yet", [], false⟩) ∧
      (entries ≠ [] → briefing.text = "\n".intercalate (briefing.entries.map (·.line)) ∧
        ∃ selected, U.Selects entries task selected briefing.fallback ∧
          (∃ sources, sources.Sublist selected ∧ List.Forall₂
            (fun entry d => entry.Delivers briefing.fallback d ∧
              d.sourceBodyBytes = len entry.body ∧ d.deliveredBodyBytes = len d.deliveredBody)
            sources briefing.entries) ∧
          ∃ whole rest cut, selected = whole ++ rest ∧
            briefing.entries
              = whole.map (fun entry => entry.delivered briefing.fallback entry.body) ++ cut ∧
            ∀ entry more, rest = entry :: more → maxSharedContextBriefingBytes
              < (whole.map SharedContextEntry.bytes).sum + entry.bytes) := by
  by_cases hempty : entries = []
  · subst hempty
    exact ⟨⟨"- none yet", [], false⟩, rfl, by decide, by decide, .nil, fun _ => rfl,
      fun h => absurd rfl h⟩
  have hselects := U.selects_selection task hsorted
  obtain ⟨output, ds, hdeliver, hdelivery⟩ := deliver_spec
    (U.selection entries task).2 ""
    (fun entry hentry => (hbodies entry (hselects.mem entry hentry)).1) (by decide)
  obtain ⟨sources, hsub, hsources⟩ := hdelivery.sources
  obtain ⟨hsequences, hexact⟩ := exact_of_delivers hsources fun entry hentry =>
    (hbodies entry (hselects.mem entry (hsub.subset hentry))).2
  have hbriefing : sharedContextBriefing U entries task =
      some ⟨String.ofList output.toList.dropLast, ds, (U.selection entries task).2⟩ := by
    rw [sharedContextBriefing, if_neg (mt List.isEmpty_iff.1 hempty)]
    dsimp only
    rw [hdeliver]
    rfl
  have htext := hdelivery.text
  rw [String.empty_append] at htext
  refine ⟨_, hbriefing, ?_, ?_, ?_, fun h => absurd h hempty, fun _ => ⟨?_, _, hselects,
    ⟨sources, hsub, ?_⟩, ?_⟩⟩
  · have hle := hdelivery.bytes_le
    have hlen : String.utf8Len output.toList.dropLast ≤ len output := by
      have hcut := output.toList.dropLast_prefix
      obtain ⟨last, hlast⟩ := hcut
      rw [len_eq, ← hlast, String.utf8Len_append, hlast]
      exact Nat.le_add_right _ _
    dsimp only
    rw [len_ofList]
    omega
  · have := hsources.length_eq
    have := hsub.length_le
    have := hselects.length_le
    dsimp only
    omega
  · have hpairwise := (hselects.sorted.sublist hsub)
    rw [← List.pairwise_map, ← hsequences, List.pairwise_map] at hpairwise
    exact hpairwise
  · dsimp only
    rw [htext, ← dropLast_lines, List.map_map]
    rfl
  · exact hexact
  · simpa using hdelivery.whole

/-- A finding that is newer than an older one about the task. -/
theorem shared_context_briefing_delivers_two :
    ∃ briefing, sharedContextBriefing ⟨Char.isAlphanum, id⟩
        [⟨1, "a", "s", none, "parent", "finding", "the parser is slow"⟩,
          ⟨2, "b", "s", none, "parent", "finding", "tests pass"⟩] "fix the parser" = some briefing ∧
      len briefing.text ≤ maxSharedContextBriefingBytes := by
  obtain ⟨briefing, hbriefing, hbytes, -⟩ := shared_context_briefing_delivers
    ⟨Char.isAlphanum, id⟩ [⟨1, "a", "s", none, "parent", "finding", "the parser is slow"⟩,
      ⟨2, "b", "s", none, "parent", "finding", "tests pass"⟩] "fix the parser" (by simp)
    (by
      intro entry hentry
      simp only [List.mem_cons, List.not_mem_nil, or_false] at hentry
      obtain rfl | rfl := hentry <;> decide)
  exact ⟨briefing, hbriefing, hbytes⟩

/-- The text on nothing is no line of an entry, and an entry without a body is selected and left
out, though its line would fit. -/
theorem briefing_leaves_out_empty :
    (∃ briefing, sharedContextBriefing ⟨Char.isAlphanum, id⟩ [] "task" = some briefing ∧
      briefing.text ≠ "\n".intercalate (briefing.entries.map (·.line))) ∧
    ∃ entry briefing, len entry.body ≤ maxSharedContextBodyBytes ∧
      entry.bytes ≤ maxSharedContextBriefingBytes ∧
      (Unicode.selection ⟨Char.isAlphanum, id⟩ [entry] "task").1 = [entry] ∧
      sharedContextBriefing ⟨Char.isAlphanum, id⟩ [entry] "task" = some briefing ∧
      briefing.entries = [] :=
  ⟨⟨_, rfl, by decide⟩, ⟨1, "a", "s", none, "parent", "finding", ""⟩,
    ⟨"", [], true⟩, by decide, by decide, by decide +kernel, by decide +kernel, rfl⟩

end Nakode.Delegation
