import Nakode.Lib.Positions
import Nakode.Transcript.Mutation

/-!
# Transcripts that are stored and restored

A run's transcript is stored as its entries and their images, and is restored from them into an
empty transcript (`restored`). What is stored of a restored transcript restores it again
(`shows_restored`), since no two of its entries have one key.
-/

namespace Nakode

open Positions (Indexes)
open Relational (Table)

namespace LiveTranscript

variable {t t' : LiveTranscript} {label : String} {entries : List TranscriptEntry}
  {images : List StoredTranscriptImage}

/-- The images of an entry, under its key. -/
def entryImages (t : LiveTranscript) (entry : TranscriptEntry) : List StoredTranscriptImage :=
  (t.imageArtifacts entry).filterMap fun artifact =>
    entry.key.map fun key => ⟨key, artifact.label, artifact.data⟩

/-- `stored_images` -/
def storedImages (t : LiveTranscript) : List StoredTranscriptImage :=
  t.entries.flatMap t.entryImages

/-- A transcript of what was stored, and whether its history was truncated. -/
def restored (label : String) (entries : List TranscriptEntry) (images : List StoredTranscriptImage)
    (hasEarlier : Bool) : LiveTranscript :=
  let t := (entries.foldl restore (new.setStreamLabel label)).restoreImages images
  if hasEarlier then t.markHistoryTruncated else t

/-- Two transcripts show the same. -/
structure Shows (t t' : LiveTranscript) : Prop where
  entries : t.entries = t'.entries
  storedImages : t.storedImages = t'.storedImages
  streamActive : t.streamActive = t'.streamActive
  streamLabel : t.streamLabel = t'.streamLabel
  historyTruncated : t.historyTruncated = t'.historyTruncated

theorem Shows.refl (t : LiveTranscript) : Shows t t := ⟨rfl, rfl, rfl, rfl, rfl⟩

/-- The index of a transcript is that of its entries. -/
def Indexed (t : LiveTranscript) : Prop := Indexes TranscriptEntry.key t.itemIndices t.entries

/-! ## Entries that are restored -/

theorem indexed_restore (h : t.Indexed) (entry : TranscriptEntry) : (t.restore entry).Indexed := by
  unfold restore
  cases hkey : entry.key with
  | none => exact Indexes.concat_none h hkey
  | some key =>
    show (t.editOrPush key _ entry).Indexed
    unfold editOrPush changedAtKey pushKeyed
    dsimp only [changedFrom]
    cases hat : t.itemIndices.find? key with
    | none => exact Indexes.concat h hkey hat
    | some i =>
      refine Indexes.modify h fun e he => ?_
      obtain ⟨e', he', hk⟩ := (h key i).1 hat
      obtain rfl := Option.some.inj (he.symm.trans he')
      exact hkey.trans hk.symm

/-- What a restored entry leaves as it is. -/
structure Beside (t t' : LiveTranscript) : Prop where
  images : t.images = t'.images
  streamActive : t.streamActive = t'.streamActive
  streamLabel : t.streamLabel = t'.streamLabel
  historyTruncated : t.historyTruncated = t'.historyTruncated

theorem beside_restore (t : LiveTranscript) (entry : TranscriptEntry) : Beside (t.restore entry) t := by
  unfold restore
  cases entry.key with
  | none => exact ⟨rfl, rfl, rfl, rfl⟩
  | some key =>
    show Beside (t.editOrPush key _ entry) t
    unfold editOrPush changedAtKey pushKeyed
    dsimp only [changedFrom]
    cases t.itemIndices.find? key with
    | none => exact ⟨rfl, rfl, rfl, rfl⟩
    | some _ => exact ⟨rfl, rfl, rfl, rfl⟩

theorem foldl_restore (h : t.Indexed) (entries : List TranscriptEntry) :
    (entries.foldl restore t).Indexed ∧ Beside (entries.foldl restore t) t := by
  induction entries generalizing t with
  | nil => exact ⟨h, rfl, rfl, rfl, rfl⟩
  | cons entry entries ih =>
    obtain ⟨hindexed, himages, hactive, hlabel, htruncated⟩ := ih (indexed_restore h entry)
    obtain ⟨himages', hactive', hlabel', htruncated'⟩ := beside_restore t entry
    exact ⟨hindexed, himages.trans himages', hactive.trans hactive', hlabel.trans hlabel',
      htruncated.trans htruncated'⟩

/-- An entry whose key is new is added at the end. -/
theorem entries_restore (h : t.Indexed) {entry : TranscriptEntry}
    (hnew : ((t.entries ++ [entry]).filterMap TranscriptEntry.key).Nodup) :
    (t.restore entry).entries = t.entries ++ [entry] := by
  unfold restore
  cases hkey : entry.key with
  | none => rfl
  | some key =>
    show (t.editOrPush key _ entry).entries = _
    unfold editOrPush changedAtKey pushKeyed
    dsimp only [changedFrom]
    cases hat : t.itemIndices.find? key with
    | none => rfl
    | some i =>
      obtain ⟨e, he, hk⟩ := (h key i).1 hat
      rw [List.filterMap_append, List.nodup_append] at hnew
      refine absurd rfl (hnew.2.2 key (List.mem_filterMap.2 ⟨e, List.mem_of_getElem? he, hk⟩) key ?_)
      exact List.mem_filterMap.2 ⟨entry, List.mem_singleton.2 rfl, hkey⟩

theorem entries_foldl_restore (h : t.Indexed)
    (hnew : ((t.entries ++ entries).filterMap TranscriptEntry.key).Nodup) :
    (entries.foldl restore t).entries = t.entries ++ entries := by
  induction entries generalizing t with
  | nil => exact (List.append_nil _).symm
  | cons entry entries ih =>
    have hsplit : t.entries ++ entry :: entries = t.entries ++ [entry] ++ entries :=
      List.append_cons ..
    rw [hsplit] at hnew ⊢
    have hentry : (t.restore entry).entries = t.entries ++ [entry] := by
      refine entries_restore h ?_
      rw [List.filterMap_append, List.nodup_append] at hnew
      exact hnew.1
    rw [← hentry] at hnew ⊢
    exact ih (indexed_restore h entry) hnew

/-! ## Images that are restored -/

/-- The images of a key after stored ones joined them. -/
theorem find?_addImages (images : List StoredTranscriptImage)
    (table : Table String (List TranscriptImageArtifact)) (key : String) :
    ((addImages images table).find? key).getD [] = (table.find? key).getD []
      ++ (images.filter (·.entryKey = key)).map fun image => ⟨image.label, image.data⟩ := by
  induction images generalizing table with
  | nil => exact (List.append_nil _).symm
  | cons image images ih =>
    rw [addImages, ih, Table.find?_upsert]
    by_cases hkey : key = image.entryKey
    · subst hkey
      rw [if_pos rfl, List.filter_cons_of_pos (by simp), List.map_cons]
      cases table.find? image.entryKey with
      | none => rfl
      | some artifacts =>
        show artifacts ++ [_] ++ _ = artifacts ++ _
        rw [List.append_assoc, List.singleton_append]
    · rw [if_neg hkey, List.filter_cons_of_neg (by simpa using Ne.symm hkey)]

theorem entryImages_of_key {entry : TranscriptEntry} {key : String} (hkey : entry.key = some key) :
    t.entryImages entry
      = (t.imageArtifacts entry).map fun artifact => ⟨key, artifact.label, artifact.data⟩ := by
  rw [entryImages, hkey]
  induction t.imageArtifacts entry with
  | nil => rfl
  | cons artifact artifacts ih => exact congrArg (_ :: ·) ih

theorem key_of_mem_entryImages {entry : TranscriptEntry} {image : StoredTranscriptImage}
    (h : image ∈ t.entryImages entry) : entry.key = some image.entryKey := by
  obtain ⟨artifact, -, hartifact⟩ := List.mem_filterMap.1 h
  obtain ⟨key, hkey, rfl⟩ := Option.map_eq_some_iff.1 hartifact
  exact hkey

/-- The stored images of an entry are its images. -/
theorem filter_storedImages (h : (t.entries.filterMap TranscriptEntry.key).Nodup)
    {entry : TranscriptEntry} (hentry : entry ∈ t.entries) {key : String}
    (hkey : entry.key = some key) :
    (t.storedImages.filter (·.entryKey = key)).map (fun image => ⟨image.label, image.data⟩)
      = t.imageArtifacts entry := by
  obtain ⟨before, after, hsplit⟩ := List.append_of_mem hentry
  -- No other entry has the key, so no other image is kept.
  have hnone : ∀ others : List TranscriptEntry, (∀ other ∈ others, other ∈ before ++ after) →
      (others.flatMap t.entryImages).filter (·.entryKey = key) = [] := by
    intro others hothers
    rw [List.filter_eq_nil_iff]
    intro image himage hsame
    obtain ⟨other, hother, himage⟩ := List.mem_flatMap.1 himage
    have hother' : other.key = some key := by
      rw [key_of_mem_entryImages himage, of_decide_eq_true hsame]
    rw [hsplit, List.filterMap_append, List.filterMap_cons_some hkey, List.nodup_middle,
      ← List.filterMap_append, List.nodup_cons] at h
    exact h.1 (List.mem_filterMap.2 ⟨other, hothers other hother, hother'⟩)
  have hkept : (t.entryImages entry).filter (·.entryKey = key) = t.entryImages entry := by
    refine List.filter_eq_self.2 fun image himage => decide_eq_true ?_
    exact Option.some.inj ((key_of_mem_entryImages himage).symm.trans hkey)
  rw [storedImages, hsplit, List.flatMap_append, List.flatMap_cons, List.filter_append,
    List.filter_append, hnone before fun _ => List.mem_append_left _,
    hnone after fun _ => List.mem_append_right _, List.nil_append, List.append_nil, hkept,
    entryImages_of_key hkey, List.map_map]
  exact List.map_id _

/-! ## Restoring again -/

variable (label) in
theorem indexed_new : Indexed (new.setStreamLabel label) := Indexes.nil

/-- A restored transcript is indexed, and beside its entries and images it is as it was made. -/
theorem restored_spec (label : String) (entries : List TranscriptEntry)
    (images : List StoredTranscriptImage) (hasEarlier : Bool) :
    (restored label entries images hasEarlier).Indexed ∧
      (restored label entries images hasEarlier).streamActive = false ∧
      (restored label entries images hasEarlier).streamLabel = label ∧
      (restored label entries images hasEarlier).historyTruncated = hasEarlier := by
  obtain ⟨hindexed, -, hactive, hlabel, htruncated⟩ := foldl_restore (indexed_new label) entries
  unfold restored
  dsimp only
  split
  · next h => exact ⟨hindexed, hactive, hlabel, h.symm⟩
  · next h => exact ⟨hindexed, hactive, hlabel, htruncated.trans (Bool.eq_false_of_not_eq_true h).symm⟩

variable (label) in
theorem entries_restored (images : List StoredTranscriptImage) (hasEarlier : Bool)
    (h : (entries.filterMap TranscriptEntry.key).Nodup) :
    (restored label entries images hasEarlier).entries = entries := by
  have hentries : (entries.foldl restore (new.setStreamLabel label)).entries = entries :=
    entries_foldl_restore (indexed_new label) h
  unfold restored
  dsimp only
  split <;> exact hentries

theorem images_restored (label : String) (entries : List TranscriptEntry)
    (images : List StoredTranscriptImage) (hasEarlier : Bool) :
    (restored label entries images hasEarlier).images = addImages images ∅ := by
  obtain ⟨-, himages, -⟩ := foldl_restore (indexed_new label) entries
  have hadded : ((entries.foldl restore (new.setStreamLabel label)).restoreImages images).images
      = addImages images ∅ := congrArg (addImages images) himages
  unfold restored
  dsimp only
  split <;> exact hadded

/-- Equal entries with equal images store equal images. -/
theorem storedImages_congr (hentries : t.entries = t'.entries)
    (himages : ∀ entry ∈ t.entries, ∀ key, entry.key = some key →
      t.imageArtifacts entry = t'.imageArtifacts entry) : t.storedImages = t'.storedImages := by
  rw [storedImages, storedImages, ← hentries]
  refine List.flatMap_congr fun entry hentry => ?_
  cases hkey : entry.key with
  | none => rw [entryImages, entryImages, DomainTranscript.imageArtifacts,
      DomainTranscript.imageArtifacts, hkey, Option.bind_none, Option.bind_none]
  | some key => rw [entryImages, entryImages, himages entry hentry key hkey]

/-- What is stored of a transcript restores it. -/
theorem shows_restored (h : t.Indexed) (hactive : t.streamActive = false) :
    Shows (restored t.streamLabel t.entries t.storedImages t.historyTruncated) t := by
  have hnodup := h.nodup
  have hentries := entries_restored t.streamLabel t.storedImages t.historyTruncated hnodup
  obtain ⟨-, hactive', hlabel, htruncated⟩ :=
    restored_spec t.streamLabel t.entries t.storedImages t.historyTruncated
  refine ⟨hentries, storedImages_congr hentries fun entry hentry key hkey => ?_,
    hactive'.trans hactive.symm, hlabel, htruncated⟩
  rw [hentries] at hentry
  rw [← filter_storedImages hnodup hentry hkey, DomainTranscript.imageArtifacts, images_restored, hkey]
  exact find?_addImages t.storedImages ∅ key

end LiveTranscript

end Nakode
