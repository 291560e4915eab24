import Nakode.Lib.Boundary
import Nakode.Sync.Changes

/-!
# Applying the events of a transcript

A client that follows a session holds the window of its transcript and applies what is published
(`Window.apply`): an entry that is created or patched takes the place of the one with its id, a
delta goes where the text ends, and the window event sets the order. From the window of the previous
projection, the events lead to the window of the current one (`transcript_events_reproduce`).
-/

namespace Nakode.Sync

open Relational (Table)
open Text (len get? utf8Chunks get?_eq_some_iff)

/-! ## The window of a client -/

/-- The part of a transcript that a client holds. -/
structure Window where
  entries : List TranscriptEntryView
  hasEarlier : Bool
  streamActive : Bool
  streamLabel : String
  deriving DecidableEq

namespace Window

def ofPage (page : TranscriptPage) : Window :=
  ⟨page.entries, page.hasEarlier, page.streamActive, page.streamLabel⟩

def ids (w : Window) : List String := w.entries.map (·.id)

def find? (w : Window) (id : String) : Option TranscriptEntryView := w.entries.find? (·.id == id)

/-- The whole entry in the place of the one with its id. -/
def put (w : Window) (entry : TranscriptEntryView) : Window :=
  { w with
    entries := if w.entries.any (·.id == entry.id) then
        w.entries.map fun e => if e.id = entry.id then entry else e
      else w.entries ++ [entry] }

/-- The entry with a delta behind its text. -/
def extend (entry : TranscriptEntryView) (delta : String) (status : TranscriptEntryStatus) :
    TranscriptEntryView :=
  { entry with
    body := entry.body ++ delta
    bodyTotalBytes := entry.bodyTotalBytes + len delta
    status := status }

/-- A delta is appended where the text that is held ends, and nowhere else. -/
def append (w : Window) (entryId : String) (appendAtByte : Nat) (delta : String)
    (status : TranscriptEntryStatus) : Option Window := do
  let entry ← w.find? entryId
  if entry.bodyStartByte + len entry.body = appendAtByte then
    some (w.put (extend entry delta status))
  else none

/-- The entries of an order, all of which are held. -/
def arrange (w : Window) (window : TranscriptWindowView) : Option Window := do
  let entries ← window.entryIds.mapM w.find?
  return ⟨entries, window.hasEarlier, window.streamActive, window.streamLabel⟩

variable {μ ν : Type}

def apply (w : Window) : ViewEvent μ ν → Option Window
  | .transcriptEntryCreated _ _ entry => some (w.put entry)
  | .transcriptEntryPatched _ _ entry => some (w.put entry)
  | .transcriptEntryDelta _ _ entryId appendAtByte delta status =>
    w.append entryId appendAtByte delta status
  | .transcriptWindowChanged _ _ window => w.arrange window
  | .sessionChanged _ | .other _ => some w

/-! ## Entries that are put -/

theorem ids_put_of_mem {w : Window} {entry : TranscriptEntryView} (h : entry.id ∈ w.ids) :
    (w.put entry).ids = w.ids := by
  obtain ⟨e, he, hid⟩ := List.mem_map.1 h
  have hany : w.entries.any (·.id == entry.id) = true :=
    List.any_eq_true.2 ⟨e, he, beq_iff_eq.2 hid⟩
  rw [put, ids, ids, if_pos hany, List.map_map]
  refine List.map_congr_left fun e _ => ?_
  rw [Function.comp_apply]
  split
  · next heq => exact heq.symm
  · rfl

theorem ids_put_of_not_mem {w : Window} {entry : TranscriptEntryView} (h : entry.id ∉ w.ids) :
    (w.put entry).ids = w.ids ++ [entry.id] := by
  have hany : ¬w.entries.any (·.id == entry.id) = true := by
    rw [List.any_eq_true]
    rintro ⟨e, he, hid⟩
    exact h (List.mem_map.2 ⟨e, he, beq_iff_eq.1 hid⟩)
  rw [put, ids, ids, if_neg hany, List.map_append]
  rfl

theorem find?_isSome_iff {w : Window} {id : String} : (w.find? id).isSome ↔ id ∈ w.ids := by
  rw [find?, List.find?_isSome, ids, List.mem_map]
  simp

theorem id_of_find? {w : Window} {id : String} {entry : TranscriptEntryView}
    (h : w.find? id = some entry) : entry.id = id := by
  simpa using List.find?_some h

theorem find?_replace (entry : TranscriptEntryView) (entries : List TranscriptEntryView)
    (id : String) : (entries.map fun e => if e.id = entry.id then entry else e).find? (·.id == id) =
      if id = entry.id then (entries.find? (·.id == id)).map fun _ => entry
      else entries.find? (·.id == id) := by
  induction entries with
  | nil => simp
  | cons e entries ih =>
    rw [List.map_cons, List.find?_cons, List.find?_cons, ih]
    by_cases hid : id = entry.id
    · subst hid
      by_cases he : e.id = entry.id
      · simp [he]
      · simp [he, beq_eq_false_iff_ne.2 he]
    · by_cases he : e.id = entry.id
      · simp [he, hid, beq_eq_false_iff_ne.2 (Ne.symm hid)]
      · simp [he, hid]

theorem find?_put (w : Window) (entry : TranscriptEntryView) (id : String) :
    (w.put entry).find? id = if id = entry.id then some entry else w.find? id := by
  unfold put find?
  by_cases hany : w.entries.any (·.id == entry.id) = true
  · obtain ⟨e, he, hid⟩ := List.any_eq_true.1 hany
    rw [if_pos hany, find?_replace]
    split
    · next heq =>
      subst heq
      obtain ⟨found, hfound⟩ := Option.isSome_iff_exists.1
        (List.find?_isSome.2 ⟨e, he, hid⟩ : (w.entries.find? (·.id == entry.id)).isSome)
      rw [hfound, Option.map_some]
    · rfl
  · have hnone : w.entries.find? (·.id == entry.id) = none :=
      List.find?_eq_none.2 fun e he hid => hany (List.any_eq_true.2 ⟨e, he, hid⟩)
    rw [if_neg hany, List.find?_append, List.find?_singleton]
    by_cases hid : id = entry.id
    · subst hid
      rw [hnone, if_pos (beq_self_eq_true _), if_pos rfl, Option.none_or]
    · rw [if_neg (by simpa using Ne.symm hid), if_neg hid, Option.or_none]

/-- A window after the events of one entry. -/
structure Moved (w : Window) (id : String) (w' : Window) : Prop where
  others : ∀ i, i ≠ id → w'.find? i = w.find? i
  ids : w'.ids = if id ∈ w.ids then w.ids else w.ids ++ [id]
  hasEarlier : w'.hasEarlier = w.hasEarlier
  streamActive : w'.streamActive = w.streamActive
  streamLabel : w'.streamLabel = w.streamLabel

theorem moved_put (w : Window) (entry : TranscriptEntryView) : w.Moved entry.id (w.put entry) := by
  refine ⟨fun i hi => by rw [find?_put, if_neg hi], ?_, rfl, rfl, rfl⟩
  split
  · next h => exact ids_put_of_mem h
  · next h => exact ids_put_of_not_mem h

theorem Moved.refl {w : Window} {id : String} (h : id ∈ w.ids) : w.Moved id w :=
  ⟨fun _ _ => rfl, by rw [if_pos h], rfl, rfl, rfl⟩

theorem Moved.mem {w w' : Window} {id : String} (h : w.Moved id w') : id ∈ w'.ids := by
  rw [h.ids]
  split
  · assumption
  · exact List.mem_append_right _ (List.mem_singleton_self id)

theorem Moved.trans {w w' w'' : Window} {id : String} (h : w.Moved id w') (h' : w'.Moved id w'') :
    w.Moved id w'' := by
  refine ⟨fun i hi => (h'.others i hi).trans (h.others i hi), ?_,
    h'.hasEarlier.trans h.hasEarlier, h'.streamActive.trans h.streamActive,
    h'.streamLabel.trans h.streamLabel⟩
  rw [h'.ids, if_pos h.mem, h.ids]

/-- What an entry has kept, and what was appended to it. -/
structure Extended (entry : TranscriptEntryView) (delta : String) (held : TranscriptEntryView) :
    Prop where
  kind : held.kind = entry.kind
  title : held.title = entry.title
  artifacts : held.artifacts = entry.artifacts
  bodyStartByte : held.bodyStartByte = entry.bodyStartByte
  body : held.body = entry.body ++ delta
  bodyTotalBytes : held.bodyTotalBytes = entry.bodyTotalBytes + len delta

theorem extended_extend (entry : TranscriptEntryView) (delta : String)
    (status : TranscriptEntryStatus) : Extended entry delta (extend entry delta status) :=
  ⟨rfl, rfl, rfl, rfl, rfl, rfl⟩

theorem Extended.trans {entry held held' : TranscriptEntryView} {delta delta' : String}
    (h : Extended entry delta held) (h' : Extended held delta' held') :
    Extended entry (delta ++ delta') held' where
  kind := h'.kind.trans h.kind
  title := h'.title.trans h.title
  artifacts := h'.artifacts.trans h.artifacts
  bodyStartByte := h'.bodyStartByte.trans h.bodyStartByte
  body := by rw [h'.body, h.body, String.append_assoc]
  bodyTotalBytes := by rw [h'.bodyTotalBytes, h.bodyTotalBytes, Text.len_append, Nat.add_assoc]

/-- A run of deltas that begins where the text ends is appended to it. -/
theorem apply_deltaEvents (view : SessionView μ) (entry : TranscriptEntryView)
    {chunks : List String} (hchunks : chunks ≠ []) {w : Window} {held : TranscriptEntryView}
    (hheld : w.find? entry.id = some held) :
    ∃ w' held', (deltaEvents view entry (held.bodyStartByte + len held.body) chunks :
        List (ViewEvent μ ν)).foldlM apply w = some w' ∧ w.Moved entry.id w' ∧
      w'.find? entry.id = some held' ∧ Extended held (String.join chunks) held' ∧
      held'.status = entry.status := by
  induction chunks generalizing w held with
  | nil => exact absurd rfl hchunks
  | cons chunk chunks ih =>
    have hid : held.id = entry.id := id_of_find? hheld
    have happend : w.append entry.id (held.bodyStartByte + len held.body) chunk entry.status =
        some (w.put (extend held chunk entry.status)) := by
      rw [append, hheld]
      exact if_pos rfl
    have hmoved : w.Moved entry.id (w.put (extend held chunk entry.status)) :=
      hid ▸ w.moved_put (extend held chunk entry.status)
    have hfind : (w.put (extend held chunk entry.status)).find? entry.id =
        some (extend held chunk entry.status) := by
      rw [find?_put]
      exact if_pos hid.symm
    have hstep : (deltaEvents view entry (held.bodyStartByte + len held.body) (chunk :: chunks) :
        List (ViewEvent μ ν)).foldlM apply w =
          (deltaEvents view entry (held.bodyStartByte + len held.body + len chunk) chunks :
            List (ViewEvent μ ν)).foldlM apply (w.put (extend held chunk entry.status)) := by
      rw [deltaEvents, List.foldlM_cons]
      show (w.append _ _ _ _).bind _ = _
      rw [happend]
      rfl
    have hextended := extended_extend held chunk entry.status
    rw [hstep, String.join_cons]
    cases chunks with
    | nil =>
      refine ⟨_, _, rfl, hmoved, hfind, ?_, rfl⟩
      simpa using hextended
    | cons next chunks =>
      have hend : held.bodyStartByte + len held.body + len chunk =
          (extend held chunk entry.status).bodyStartByte +
            len (extend held chunk entry.status).body := by
        rw [hextended.bodyStartByte, hextended.body, Text.len_append, Nat.add_assoc]
      rw [hend]
      obtain ⟨w', held', hrun, hmoves, hfind', hextends, hstatus⟩ :=
        ih (List.cons_ne_nil next chunks) hfind
      exact ⟨w', held', hrun, hmoved.trans hmoves, hfind', hextended.trans hextends, hstatus⟩

end Window

/-! ## Two projections -/

variable {μ ν : Type}

/-- The body of an entry is the end of the text from where it says. -/
def IsEndOf (full : String) (entry : TranscriptEntryView) : Prop :=
  entry.bodyTotalBytes = len full ∧
    ∃ hidden, full = hidden ++ entry.body ∧ len hidden = entry.bodyStartByte

/-- Two projections of one transcript: the texts of its entries before and now, what each page shows
of them, and their lengths. -/
structure Consecutive (engine : ServiceEngine μ) (before now : String → String)
    (previous : TranscriptPage) (previousLengths : Table String Nat) (current : TranscriptPage)
    (currentLengths : Table String Nat) : Prop where
  previousIds : (previous.entries.map (·.id)).Nodup
  currentIds : (current.entries.map (·.id)).Nodup
  previousBodies : ∀ e ∈ previous.entries, IsEndOf (before e.id) e
  currentBodies : ∀ e ∈ current.entries, IsEndOf (now e.id) e
  previousLengths : ∀ e ∈ previous.entries, previousLengths.find? e.id = some (len (before e.id))
  currentLengths : ∀ e ∈ current.entries, currentLengths.find? e.id = some (len (now e.id))
  bodies : ∀ e ∈ current.entries, engine.transcriptEntryBody e.id = some (now e.id)

/-- What is sent for an entry that was shown before or not. A run of deltas begins at the full
length, and brings what stands in the text behind the part that was shown. -/
inductive Sent (view : SessionView μ) (before now : String) (entry : TranscriptEntryView) :
    Option TranscriptEntryView → List (ViewEvent μ ν) → Prop
  | created : Sent view before now entry none
      [.transcriptEntryCreated view.id view.revision entry]
  | unchanged : Sent view before now entry (some entry) []
  | patched {shown : TranscriptEntryView} : Sent view before now entry (some shown)
      [.transcriptEntryPatched view.id view.revision entry]
  | appended {shown : TranscriptEntryView} {hidden appended : String} {chunks : List String}
      (hkind : shown.kind = entry.kind) (htitle : shown.title = entry.title)
      (hartifacts : shown.artifacts = entry.artifacts)
      (hnow : now = hidden ++ shown.body ++ appended) (hhidden : len hidden = shown.bodyStartByte)
      (hsome : chunks ≠ []) (hchunks : ∀ chunk ∈ chunks, chunk ≠ "")
      (hjoin : String.join chunks = appended) :
      Sent view before now entry (some shown) (deltaEvents view entry (len before) chunks)

/-- A held entry shows the current one, from wherever its text begins. -/
structure Shows (now : String) (held entry : TranscriptEntryView) : Prop where
  id : held.id = entry.id
  kind : held.kind = entry.kind
  title : held.title = entry.title
  artifacts : held.artifacts = entry.artifacts
  status : held.status = entry.status
  body : IsEndOf now held

/-- The part of a text that was shown does not stand there any more. -/
def Mismatch (before now : String) (shown : TranscriptEntryView) : Prop :=
  len now < len before ∨ get? now shown.bodyStartByte (len before) ≠ some shown.body

section
variable {engine : ServiceEngine μ} {before now : String → String}
  {previous current : TranscriptPage} {previousLengths currentLengths : Table String Nat}

theorem IsEndOf.length {full : String} {entry : TranscriptEntryView} (h : IsEndOf full entry) :
    entry.bodyStartByte + len entry.body = len full := by
  obtain ⟨-, hidden, rfl, hhidden⟩ := h
  rw [Text.len_append, hhidden]

/-- The appended part of a text, by what the guards compare. -/
theorem appendedTranscriptDelta_eq {shown : TranscriptEntryView} {full before : String}
    (hbody : engine.transcriptEntryBody shown.id = some full) (hshown : IsEndOf before shown) :
    appendedTranscriptDelta engine shown (some (len before)) (some (len full)) =
      if len full < len before ∨ get? full shown.bodyStartByte (len before) ≠ some shown.body then
        none
      else get? full (len before) (len full) := by
  have hlength := hshown.length
  have hstart : len before - len shown.body = shown.bodyStartByte := by omega
  have hfits : ¬len shown.body > len before := by omega
  simp only [appendedTranscriptDelta, Option.bind_eq_bind, Option.bind_some, hbody, hstart]
  by_cases hshrunk : len full < len before
  · simp [hshrunk]
  · by_cases hvisible : get? full shown.bodyStartByte (len before) = some shown.body
    · simp [hshrunk, hfits, hvisible]
    · simp [hshrunk, hfits, hvisible]

/-- What was appended to a text: the part that was shown stands in front of it. -/
theorem appendedTranscriptDelta_eq_some {shown : TranscriptEntryView} {delta full before : String}
    (hbody : engine.transcriptEntryBody shown.id = some full) (hshown : IsEndOf before shown)
    (h : appendedTranscriptDelta engine shown (some (len before)) (some (len full)) = some delta) :
    ¬Mismatch before full shown ∧
      ∃ hidden, full = hidden ++ shown.body ++ delta ∧ len hidden = shown.bodyStartByte := by
  rw [appendedTranscriptDelta_eq hbody hshown] at h
  split at h
  · cases h
  · next hmatch =>
    refine ⟨hmatch, ?_⟩
    obtain ⟨-, hvisible⟩ := not_or.1 hmatch
    obtain ⟨hidden, after, hfull, hhidden, hend⟩ := get?_eq_some_iff.1 (not_not.1 hvisible)
    obtain ⟨front, back, hsplit, hfront, hback⟩ := get?_eq_some_iff.1 h
    have hlen := congrArg len hsplit
    rw [Text.len_append, Text.len_append] at hlen
    obtain rfl : back = "" := Text.len_eq_zero.1 (by omega)
    rw [String.append_empty] at hsplit
    have hsame : front ++ delta = (hidden ++ shown.body) ++ after := hsplit.symm.trans hfull
    obtain ⟨mid, hmid, hdelta⟩ := Text.exists_between hsame (by rw [Text.len_append]; omega)
    have hnone := congrArg len hmid
    rw [Text.len_append, Text.len_append] at hnone
    obtain rfl : mid = "" := Text.len_eq_zero.1 (by omega)
    rw [String.empty_append] at hdelta
    exact ⟨hidden, by rw [hdelta, hfull], hhidden⟩

/-- An entry that shows both texts has not changed its place. -/
theorem not_mismatch_of_isEndOf {before now : String} {entry : TranscriptEntryView}
    (hbefore : IsEndOf before entry) (hnow : IsEndOf now entry) : ¬Mismatch before now entry := by
  have hlength := hbefore.length
  have hlength' := hnow.length
  rintro (hshrunk | hvisible)
  · omega
  · obtain ⟨-, hidden, rfl, hhidden⟩ := hnow
    exact hvisible (get?_eq_some_iff.2 ⟨hidden, "", by rw [String.append_empty], hhidden, by omega⟩)

variable {view : SessionView μ}

variable (view) in
/-- What is sent for an entry of the current page. A text that shrank, or whose part that was shown
changed, is sent as a patch. -/
theorem sent_entryEvents
    (h : Consecutive engine before now previous previousLengths current currentLengths)
    {entry : TranscriptEntryView} (hentry : entry ∈ current.entries) :
    Sent (ν := ν) view (before entry.id) (now entry.id) entry
      (previous.entries.find? (·.id == entry.id))
      (entryEvents engine view previous previousLengths currentLengths entry) ∧
    ∀ shown, previous.entries.find? (·.id == entry.id) = some shown →
      Mismatch (before entry.id) (now entry.id) shown →
      (entryEvents engine view previous previousLengths currentLengths entry :
        List (ViewEvent μ ν)) = [.transcriptEntryPatched view.id view.revision entry] := by
  unfold entryEvents
  cases hfind : previous.entries.find? (·.id == entry.id) with
  | none => exact ⟨.created, fun shown hshown => by cases hshown⟩
  | some shown =>
    have hmem := List.mem_of_find?_eq_some hfind
    have hid : shown.id = entry.id := by simpa using List.find?_some hfind
    have hshown : IsEndOf (before entry.id) shown := hid ▸ h.previousBodies shown hmem
    have hlength : previousLengths.find? entry.id = some (len (before entry.id)) :=
      hid ▸ h.previousLengths shown hmem
    have hbody : engine.transcriptEntryBody shown.id = some (now entry.id) :=
      hid ▸ h.bodies entry hentry
    dsimp only
    by_cases hsame : shown = entry
    · subst hsame
      rw [if_pos rfl]
      refine ⟨.unchanged, ?_⟩
      rintro _ ⟨⟩ hmismatch
      exact absurd hmismatch (not_mismatch_of_isEndOf hshown (h.currentBodies _ hentry))
    · rw [if_neg hsame, hlength, h.currentLengths entry hentry]
      cases hdelta : (appendedTranscriptDelta engine shown (some (len (before entry.id)))
          (some (len (now entry.id)))).filter fun delta => shown.kind == entry.kind &&
            shown.title == entry.title && shown.artifacts == entry.artifacts && delta != "" with
      | none => exact ⟨.patched, fun _ _ _ => rfl⟩
      | some delta =>
        obtain ⟨hdelta, hguard⟩ := Option.filter_eq_some_iff.1 hdelta
        obtain ⟨hmatch, hidden, hnow, hhidden⟩ := appendedTranscriptDelta_eq_some hbody hshown hdelta
        simp only [Bool.and_eq_true, beq_iff_eq, bne_iff_ne] at hguard
        obtain ⟨⟨⟨hkind, htitle⟩, hartifacts⟩, hsome⟩ := hguard
        refine ⟨.appended hkind htitle hartifacts hnow hhidden
          (Text.utf8Chunks_ne_nil hsome _) (fun _ => Text.ne_empty_of_mem_utf8Chunks)
          (Text.join_utf8Chunks _ _), ?_⟩
        rintro _ ⟨⟩ hmismatch
        exact absurd hmismatch hmatch

variable (view) in
/-- The events of one entry bring it up to date and leave the others. -/
theorem apply_entryEvents
    (h : Consecutive engine before now previous previousLengths current currentLengths)
    {entry : TranscriptEntryView} (hentry : entry ∈ current.entries) {w : Window}
    (hw : w.find? entry.id = previous.entries.find? (·.id == entry.id)) :
    ∃ w' held, (entryEvents engine view previous previousLengths currentLengths entry :
        List (ViewEvent μ ν)).foldlM Window.apply w = some w' ∧ w.Moved entry.id w' ∧
      w'.find? entry.id = some held ∧ Shows (now entry.id) held entry := by
  have hcurrent := h.currentBodies entry hentry
  have hput : ∃ w' held, some (w.put entry) = some w' ∧ w.Moved entry.id w' ∧
      w'.find? entry.id = some held ∧ Shows (now entry.id) held entry :=
    ⟨_, entry, rfl, w.moved_put entry, by rw [Window.find?_put, if_pos rfl],
      ⟨rfl, rfl, rfl, rfl, rfl, hcurrent⟩⟩
  obtain ⟨hsent, -⟩ := sent_entryEvents (ν := ν) view h hentry
  generalize hshown : previous.entries.find? (·.id == entry.id) = shown at hsent hw
  generalize entryEvents engine view previous previousLengths currentLengths entry = events
    at hsent
  cases hsent with
  | created => exact hput
  | patched => exact hput
  | unchanged =>
    exact ⟨w, entry, rfl, .refl (Window.find?_isSome_iff.1 (by rw [hw]; rfl)), hw,
      ⟨rfl, rfl, rfl, rfl, rfl, hcurrent⟩⟩
  | @appended shown hidden appended chunks hkind htitle hartifacts hnow hhidden hsome _ hjoin =>
    have hid : shown.id = entry.id := by simpa using List.find?_some hshown
    have hbefore : IsEndOf (before entry.id) shown :=
      hid ▸ h.previousBodies shown (List.mem_of_find?_eq_some hshown)
    rw [← hbefore.length]
    obtain ⟨w', held, hrun, hmoved, hheld, hextends, hstatus⟩ :=
      Window.apply_deltaEvents (ν := ν) view entry hsome hw
    refine ⟨w', held, hrun, hmoved, hheld, Window.id_of_find? hheld,
      hextends.kind.trans hkind, hextends.title.trans htitle,
      hextends.artifacts.trans hartifacts, hstatus, ?_, hidden, ?_, ?_⟩
    · have hlength := congrArg len hnow
      have hlength' := hbefore.length
      have htotal := hbefore.1
      rw [hextends.bodyTotalBytes, hjoin]
      simp only [Text.len_append] at hlength
      omega
    · rw [hextends.body, hjoin, hnow, String.append_assoc]
    · rw [hextends.bodyStartByte, hhidden]

/-- A window after the events of some entries. -/
structure Updated (now : String → String) (entries : List TranscriptEntryView) (w w' : Window) :
    Prop where
  shows : ∀ e ∈ entries, ∃ held, w'.find? e.id = some held ∧ Shows (now e.id) held e
  others : ∀ i, i ∉ entries.map (·.id) → w'.find? i = w.find? i
  ids : (∀ e ∈ entries, e.id ∈ w.ids) → w'.ids = w.ids
  hasEarlier : w'.hasEarlier = w.hasEarlier
  streamActive : w'.streamActive = w.streamActive
  streamLabel : w'.streamLabel = w.streamLabel

variable (view) in
/-- The events of the entries bring all of them up to date. -/
theorem apply_entries
    (h : Consecutive engine before now previous previousLengths current currentLengths)
    {entries : List TranscriptEntryView} (hentries : ∀ e ∈ entries, e ∈ current.entries)
    (hnodup : (entries.map (·.id)).Nodup) {w : Window}
    (hw : ∀ e ∈ entries, w.find? e.id = previous.entries.find? (·.id == e.id)) :
    ∃ w', (entries.flatMap (entryEvents engine view previous previousLengths currentLengths) :
        List (ViewEvent μ ν)).foldlM Window.apply w = some w' ∧ Updated now entries w w' := by
  induction entries generalizing w with
  | nil => exact ⟨w, rfl, List.forall_mem_nil _, fun _ _ => rfl, fun _ => rfl, rfl, rfl, rfl⟩
  | cons entry entries ih =>
    obtain ⟨hentry, hrest⟩ := List.forall_mem_cons.1 hentries
    obtain ⟨hw, hws⟩ := List.forall_mem_cons.1 hw
    rw [List.map_cons, List.nodup_cons] at hnodup
    obtain ⟨hfresh, hnodup⟩ := hnodup
    obtain ⟨w₁, held, hrun, hmoved, hheld, hshows⟩ :=
      apply_entryEvents (ν := ν) view h hentry hw
    obtain ⟨w₂, hruns, hupdated⟩ := ih hrest hnodup (w := w₁) (by
      intro e he
      have hne : e.id ≠ entry.id := fun heq => hfresh (List.mem_map.2 ⟨e, he, heq⟩)
      rw [hmoved.others e.id hne]
      exact hws e he)
    refine ⟨w₂, ?_, ?_, ?_, ?_, hupdated.hasEarlier.trans hmoved.hasEarlier,
      hupdated.streamActive.trans hmoved.streamActive,
      hupdated.streamLabel.trans hmoved.streamLabel⟩
    · rw [List.flatMap_cons, List.foldlM_append, hrun]
      exact hruns
    · refine List.forall_mem_cons.2 ⟨⟨held, ?_, hshows⟩, hupdated.shows⟩
      rw [hupdated.others entry.id hfresh, hheld]
    · intro i hi
      rw [List.map_cons, List.mem_cons, not_or] at hi
      rw [hupdated.others i hi.2, hmoved.others i hi.1]
    · intro hmem
      obtain ⟨hin, hmem⟩ := List.forall_mem_cons.1 hmem
      have hsame : w₁.ids = w.ids := by rw [hmoved.ids, if_pos hin]
      rw [hupdated.ids (hsame ▸ hmem), hsame]

/-! ## The events of a window -/

theorem forall₂_of_ids {R : TranscriptEntryView → TranscriptEntryView → Prop} {w : Window}
    {entries : List TranscriptEntryView} (hids : w.ids = entries.map (·.id))
    (hnodup : (entries.map (·.id)).Nodup)
    (h : ∀ e ∈ entries, ∃ held, w.find? e.id = some held ∧ R held e) :
    List.Forall₂ R w.entries entries := by
  have hlength : w.entries.length = entries.length := by
    simpa [Window.ids] using congrArg List.length hids
  refine List.forall₂_iff_get.2 ⟨hlength, fun i hi hj => ?_⟩
  obtain ⟨held, hheld, hR⟩ := h entries[i] (List.getElem_mem hj)
  have hkey : w.entries[i].id = entries[i].id := Keyed.key_getElem hids hi hj
  have hnodup' : (w.entries.map (·.id)).Nodup := by
    rw [← hids] at hnodup
    exact hnodup
  have hfind := Keyed.find?_eq_some hnodup' (List.getElem_mem hi)
  rw [hkey] at hfind
  obtain rfl : held = w.entries[i] := Option.some.inj (hheld.symm.trans hfind)
  exact hR

theorem exists_arrange {R : TranscriptEntryView → TranscriptEntryView → Prop} {w : Window}
    {entries : List TranscriptEntryView}
    (h : ∀ e ∈ entries, ∃ held, w.find? e.id = some held ∧ R held e) :
    ∃ helds, (entries.map (·.id)).mapM w.find? = some helds ∧ List.Forall₂ R helds entries := by
  induction entries with
  | nil => exact ⟨[], rfl, .nil⟩
  | cons e entries ih =>
    obtain ⟨⟨held, hheld, hR⟩, hrest⟩ := List.forall_mem_cons.1 h
    obtain ⟨helds, hmapM, hall⟩ := ih hrest
    exact ⟨held :: helds, by rw [List.map_cons, List.mapM_cons, hheld, hmapM]; rfl, .cons hR hall⟩

theorem map_id_of_forall₂ {helds entries : List TranscriptEntryView}
    (h : List.Forall₂ (fun held entry => Shows (now entry.id) held entry) helds entries) :
    helds.map (·.id) = entries.map (·.id) := by
  induction h with
  | nil => rfl
  | cons hshows _ ih => rw [List.map_cons, List.map_cons, hshows.id, ih]

theorem changedId?_of_mem_deltaEvents {entry : TranscriptEntryView} {start : Nat}
    {chunks : List String} {event : ViewEvent μ ν}
    (h : event ∈ (deltaEvents view entry start chunks : List (ViewEvent μ ν))) :
    event.changedId? = some entry.id := by
  induction chunks generalizing start with
  | nil => cases h
  | cons chunk chunks ih =>
    rcases List.mem_cons.1 h with rfl | h
    · rfl
    · exact ih h

theorem changedId?_of_mem_entryEvents {entry : TranscriptEntryView} {event : ViewEvent μ ν}
    (h : event ∈ entryEvents engine view previous previousLengths currentLengths entry) :
    event.changedId? = some entry.id := by
  unfold entryEvents at h
  split at h
  · rw [List.mem_singleton.1 h]
    rfl
  · split at h
    · cases h
    · dsimp only at h
      split at h
      · exact changedId?_of_mem_deltaEvents h
      · rw [List.mem_singleton.1 h]
        rfl

/-- The events on an entry are those that were made for it. -/
theorem filter_changedId? (hnodup : (current.entries.map (·.id)).Nodup)
    {entry : TranscriptEntryView} (hentry : entry ∈ current.entries) :
    (transcriptEvents engine view previous previousLengths current currentLengths :
        List (ViewEvent μ ν)).filter (fun event => event.changedId? == some entry.id) =
      entryEvents engine view previous previousLengths currentLengths entry := by
  have hself : (entryEvents engine view previous previousLengths currentLengths entry :
      List (ViewEvent μ ν)).filter (fun event => event.changedId? == some entry.id) =
        entryEvents engine view previous previousLengths currentLengths entry :=
    List.filter_eq_self.2 fun event hevent => beq_iff_eq.2 (changedId?_of_mem_entryEvents hevent)
  have hother : ∀ e : TranscriptEntryView, e.id ≠ entry.id →
      (entryEvents engine view previous previousLengths currentLengths e :
        List (ViewEvent μ ν)).filter (fun event => event.changedId? == some entry.id) = [] := by
    intro e hne
    refine List.filter_eq_nil_iff.2 fun event hevent => ?_
    rw [changedId?_of_mem_entryEvents hevent]
    simpa using hne
  have hwindow : (if transcriptWindow previous = transcriptWindow current then []
      else [.transcriptWindowChanged view.id view.revision (transcriptWindow current)] :
        List (ViewEvent μ ν)).filter (fun event => event.changedId? == some entry.id) = [] := by
    split
    · rfl
    · rfl
  obtain ⟨front, back, hsplit⟩ := List.append_of_mem hentry
  rw [hsplit, List.map_append, List.map_cons, List.nodup_append, List.nodup_cons] at hnodup
  obtain ⟨-, ⟨hback, -⟩, hfront⟩ := hnodup
  have hfronts : (front.flatMap (entryEvents engine view previous previousLengths currentLengths) :
      List (ViewEvent μ ν)).filter (fun event => event.changedId? == some entry.id) = [] := by
    rw [List.filter_flatMap, List.flatMap_eq_nil_iff]
    exact fun e he => hother e (hfront e.id (List.mem_map_of_mem he) entry.id List.mem_cons_self)
  have hbacks : (back.flatMap (entryEvents engine view previous previousLengths currentLengths) :
      List (ViewEvent μ ν)).filter (fun event => event.changedId? == some entry.id) = [] := by
    rw [List.filter_flatMap, List.flatMap_eq_nil_iff]
    exact fun e he => hother e fun heq => hback (List.mem_map.2 ⟨e, he, heq⟩)
  rw [transcriptEvents, List.filter_append, hwindow, List.append_nil, hsplit, List.flatMap_append,
    List.flatMap_cons, List.filter_append, List.filter_append, hfronts, hbacks, hself,
    List.nil_append, List.append_nil]

/-- The events lead from the window of one projection to the window of the next, and each entry is
sent as it has to be. -/
theorem transcript_events_reproduce (view : SessionView μ)
    (h : Consecutive engine before now previous previousLengths current currentLengths) :
    (∃ held, (transcriptEvents engine view previous previousLengths current currentLengths :
        List (ViewEvent μ ν)).foldlM Window.apply (Window.ofPage previous) = some held ∧
      held.ids = current.entries.map (·.id) ∧ held.hasEarlier = current.hasEarlier ∧
      held.streamActive = current.streamActive ∧ held.streamLabel = current.streamLabel ∧
      List.Forall₂ (fun held entry => Shows (now entry.id) held entry) held.entries
        current.entries) ∧
    ∀ entry ∈ current.entries, ∃ events : List (ViewEvent μ ν),
      (transcriptEvents engine view previous previousLengths current currentLengths).filter
        (fun event => event.changedId? == some entry.id) = events ∧
      Sent view (before entry.id) (now entry.id) entry
        (previous.entries.find? (·.id == entry.id)) events ∧
      ∀ shown, previous.entries.find? (·.id == entry.id) = some shown →
        Mismatch (before entry.id) (now entry.id) shown →
        events = [.transcriptEntryPatched view.id view.revision entry] := by
  constructor
  · obtain ⟨w, hrun, hupdated⟩ := apply_entries (ν := ν) view h (fun _ he => he)
      h.currentIds (w := Window.ofPage previous) fun _ _ => rfl
    rw [transcriptEvents, List.foldlM_append, hrun]
    by_cases hsame : transcriptWindow previous = transcriptWindow current
    · rw [if_pos hsame]
      have horder : previous.entries.map (·.id) = current.entries.map (·.id) :=
        congrArg TranscriptWindowView.entryIds hsame
      have hids : w.ids = current.entries.map (·.id) := by
        rw [hupdated.ids fun e he => ?_]
        · exact horder
        · show e.id ∈ previous.entries.map (·.id)
          rw [horder]
          exact List.mem_map_of_mem he
      exact ⟨w, rfl, hids,
        hupdated.hasEarlier.trans (congrArg TranscriptWindowView.hasEarlier hsame),
        hupdated.streamActive.trans (congrArg TranscriptWindowView.streamActive hsame),
        hupdated.streamLabel.trans (congrArg TranscriptWindowView.streamLabel hsame),
        forall₂_of_ids hids h.currentIds hupdated.shows⟩
    · rw [if_neg hsame]
      obtain ⟨helds, hmapM, hall⟩ := exists_arrange hupdated.shows
      have harrange : w.arrange (transcriptWindow current) = some ⟨helds, current.hasEarlier,
          current.streamActive, current.streamLabel⟩ := by
        rw [Window.arrange, transcriptWindow]
        dsimp only
        rw [hmapM]
        rfl
      have hevent : ([.transcriptWindowChanged view.id view.revision (transcriptWindow current)] :
          List (ViewEvent μ ν)).foldlM Window.apply w = some ⟨helds, current.hasEarlier,
            current.streamActive, current.streamLabel⟩ := by
        rw [List.foldlM_cons]
        show (w.arrange _).bind _ = _
        rw [harrange]
        rfl
      exact ⟨_, hevent, map_id_of_forall₂ hall, rfl, rfl, rfl, hall⟩
  · intro entry hentry
    refine ⟨_, rfl, ?_⟩
    rw [filter_changedId? h.currentIds hentry]
    exact sent_entryEvents view h hentry

end

/-- An entry of which only the end is shown. -/
def shownEnd : TranscriptEntryView :=
  { id := "e", kind := .assistant, title := "A", body := "b", bodyStartByte := 2
    bodyTotalBytes := 3, status := .running }

/-- The entry after its text was rewritten in front of that end, and grew. -/
def shownRewritten : TranscriptEntryView :=
  { id := "e", kind := .assistant, title := "A", body := "ccbd", bodyStartByte := 0
    bodyTotalBytes := 4, status := .running }

def pageOf (entry : TranscriptEntryView) : TranscriptPage :=
  { entries := [entry], hasEarlier := false, streamActive := true, streamLabel := "" }

def lengthOf (length : Nat) : Table String Nat :=
  (∅ : Table String Nat).insertOrIgnore "e" length

def rewrittenEngine : ServiceEngine Unit := ⟨1, pageOf shownRewritten, [("e", "ccbd")], ()⟩

theorem rewritten_consecutive : Consecutive rewrittenEngine (fun _ => "aab") (fun _ => "ccbd")
    (pageOf shownEnd) (lengthOf 3) (pageOf shownRewritten) (lengthOf 4) where
  previousIds := List.nodup_singleton _
  currentIds := List.nodup_singleton _
  previousBodies := List.forall_mem_singleton.2 ⟨rfl, "aa", rfl, rfl⟩
  currentBodies := List.forall_mem_singleton.2 ⟨rfl, "", rfl, rfl⟩
  previousLengths := List.forall_mem_singleton.2 rfl
  currentLengths := List.forall_mem_singleton.2 rfl
  bodies := List.forall_mem_singleton.2 rfl

theorem transcript_events_reproduce_rewritten :
    ∃ held, (transcriptEvents (ν := Unit) rewrittenEngine (rewrittenEngine.sessionView "s")
        (pageOf shownEnd) (lengthOf 3) (pageOf shownRewritten) (lengthOf 4)).foldlM Window.apply
          (Window.ofPage (pageOf shownEnd)) = some held ∧
      held.ids = ["e"] := by
  obtain ⟨held, hrun, hids, -⟩ := (transcript_events_reproduce (ν := Unit)
    (rewrittenEngine.sessionView "s") rewritten_consecutive).1
  exact ⟨held, hrun, hids⟩

/-- A text that was rewritten outside of what is shown, and grew, is not sent as a patch. -/
theorem rewritten_sent_as_delta :
    Consecutive rewrittenEngine (fun _ => "aab") (fun _ => "ccbd") (pageOf shownEnd) (lengthOf 3)
      (pageOf shownRewritten) (lengthOf 4) ∧
    Text.startsWith "ccbd" "aab" = false ∧
    transcriptEvents rewrittenEngine (rewrittenEngine.sessionView "s") (pageOf shownEnd)
      (lengthOf 3) (pageOf shownRewritten) (lengthOf 4) =
      ([.transcriptEntryDelta "s" 1 "e" 3 "d" .running] : List (ViewEvent Unit Unit)) :=
  ⟨rewritten_consecutive, rfl, rfl⟩

end Nakode.Sync
