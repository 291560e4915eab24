import Nakode.Transcript.Mutation

/-!
# Incremental proofs are those from scratch

What a transcript keeps of its proofs is right for its first entries, up to where a mutator may have
changed something (`Sound`). Every mutator keeps that (`Sound.of_changed`), so the proofs of a read
are those that a fresh transcript would compute, and the key index is that of the entries
(`proofs_from_scratch`).
-/

namespace Nakode

open Relational (Table)
open Transition Positions

/-- The steps that a read reuses. -/
def LiveTranscript.reusable (t : LiveTranscript) : Nat :=
  min (min t.proven.unchanged t.proven.steps.length) t.entries.length

namespace Digests

variable {D : Digests} {t t' : LiveTranscript}

/-- The steps of entries from the start of the chain. -/
def scratch (D : Digests) (t : DomainTranscript) (tools : Finset String)
    (entries : List TranscriptEntry) : List ProvenStep :=
  Scan.run (D.proveStep t tools) ProvenStep.chain (D.prefixStart t)
    (entries.map fun entry => (entry, D.entryDigest entry))

/-! ## The chain from scratch -/

theorem digest_proveStep (t : DomainTranscript) (tools : Finset String)
    (current : Vector UInt8 32) (entry : TranscriptEntry × EntryDigest) :
    (D.proveStep t tools current entry).digest = entry.2 := by
  unfold proveStep
  dsimp only
  split <;> rfl

theorem map_digest_run (t : DomainTranscript) (tools : Finset String) (current : Vector UInt8 32)
    (entries : List (TranscriptEntry × EntryDigest)) :
    (Scan.run (D.proveStep t tools) ProvenStep.chain current entries).map (·.digest)
      = entries.map (·.2) := by
  induction entries generalizing current with
  | nil => rfl
  | cons entry rest ih =>
    rw [Scan.run_cons, List.map_cons, List.map_cons, ih, digest_proveStep]

theorem map_digest_scratch (t : DomainTranscript) (tools : Finset String)
    (entries : List TranscriptEntry) :
    (D.scratch t tools entries).map (·.digest) = entries.map D.entryDigest := by
  rw [scratch, map_digest_run, List.map_map]
  rfl

theorem take_scratch (t : DomainTranscript) (tools : Finset String)
    (entries : List TranscriptEntry) (n : Nat) :
    (D.scratch t tools entries).take n = D.scratch t tools (entries.take n) := by
  rw [scratch, Scan.take_run, ← List.map_take]
  rfl

/-- The chain depends on the images of its entries and on whether older history was kept. -/
theorem scratch_congr {t t' : DomainTranscript} (tools : Finset String)
    {entries : List TranscriptEntry} (hhistory : t'.historyTruncated = t.historyTruncated)
    (himages : ∀ entry ∈ entries,
      (t'.imageArtifacts entry).length = (t.imageArtifacts entry).length) :
    D.scratch t' tools entries = D.scratch t tools entries := by
  rw [scratch, scratch, prefixStart, prefixStart, hhistory]
  refine Scan.run_congr _ ?_ _
  intro current row hrow
  obtain ⟨entry, hentry, rfl⟩ := List.mem_map.1 hrow
  simp only [proveStep, himages entry hentry]

/-- The proofs of a chain against the code-mode tools of the transcript are its prefix proofs. -/
theorem filterMap_run (t : DomainTranscript) {tools : Finset String}
    (htools : tools = (D.codemodeTools t).toFinset) (current : Vector UInt8 32)
    (entries : List TranscriptEntry) :
    (Scan.run (D.proveStep t tools) ProvenStep.chain current
        (entries.map fun entry => (entry, D.entryDigest entry))).filterMap (·.proof)
      = D.prefixesFrom t current entries := by
  have hmem : (fun id => decide (id ∈ tools)) = (D.codemodeTools t).contains := by
    funext id
    simp [htools, List.contains_eq_mem]
  induction entries generalizing current with
  | nil => rfl
  | cons entry rest ih =>
    rw [List.map_cons, Scan.run_cons, prefixesFrom]
    split
    · next hvisible =>
      have hstep : D.proveStep t tools current (entry, D.entryDigest entry)
          = ⟨D.entryDigest entry, D.chainStep t current entry,
              some (hexDigest (D.chainStep t current entry))⟩ := by
        rw [proveStep, if_pos hvisible, hmem]
        rfl
      rw [hstep, List.filterMap_cons, ih]
    · next hhidden =>
      have hstep : D.proveStep t tools current (entry, D.entryDigest entry)
          = ⟨D.entryDigest entry, current, none⟩ := by
        simp only [proveStep, hhidden, Bool.false_eq_true, if_false]
      rw [hstep, List.filterMap_cons, ih]

/-! ## What is kept -/

/-- Every digest of the store is that of the entry beside it. -/
def Computed (D : Digests) (cache : EntryDigests) : Prop :=
  ∀ id row, cache.find? id = some row → row.2 = D.entryDigest row.1

theorem computed_empty : D.Computed ∅ := by
  intro id row h
  cases h

theorem Computed.get {cache : EntryDigests} (h : D.Computed cache) (entry : TranscriptEntry) :
    (cache.get D entry).1 = D.entryDigest entry ∧ D.Computed (cache.get D entry).2 := by
  have hcomputed : D.Computed (cache.upsert entry.id (entry, D.entryDigest entry)
      fun _ => (entry, D.entryDigest entry)) := by
    intro id row hrow
    rw [Table.find?_upsert] at hrow
    split at hrow
    · obtain rfl := Option.some.inj hrow
      cases cache.find? entry.id <;> rfl
    · exact h id row hrow
  unfold EntryDigests.get
  dsimp only
  split
  · next cached digest hfound =>
    split
    · next heq =>
      subst heq
      exact ⟨h _ _ hfound, h⟩
    · exact ⟨rfl, hcomputed⟩
  · exact ⟨rfl, hcomputed⟩

theorem Computed.getAll {cache : EntryDigests} (h : D.Computed cache)
    (entries : List TranscriptEntry) :
    (cache.getAll D entries).1 = entries.map D.entryDigest ∧
      D.Computed (cache.getAll D entries).2 := by
  induction entries generalizing cache with
  | nil => exact ⟨rfl, h⟩
  | cons entry rest ih =>
    obtain ⟨hdigest, hcache⟩ := h.get entry
    obtain ⟨hdigests, hcache'⟩ := ih hcache
    exact ⟨by rw [EntryDigests.getAll, List.map_cons, ← hdigest, ← hdigests], hcache'⟩

theorem Computed.retain {cache : EntryDigests} (h : D.Computed cache)
    (entries : List TranscriptEntry) : D.Computed (cache.retain entries) := by
  unfold EntryDigests.retain
  split
  · exact h
  · intro id row hrow
    rw [Table.find?_delete, Option.filter_eq_some_iff] at hrow
    exact h id row hrow.1

/-- The index is that of the entries, and what is kept of the last read is right as far as it is
still used. -/
structure Sound (D : Digests) (t : LiveTranscript) : Prop where
  index : Indexes TranscriptEntry.key t.itemIndices t.entries
  digests : D.Computed t.entryDigests
  steps : t.proven.steps.take t.reusable
    = D.scratch t.toDomainTranscript t.proven.codemodeTools (t.entries.take t.reusable)
  fingerprints : ∀ prefixes, t.prefixFingerprints = some prefixes →
    prefixes = D.transcriptPrefixes t.toDomainTranscript

theorem sound_new : D.Sound .new :=
  ⟨.nil, computed_empty, rfl, nofun⟩

namespace Sound

/-- A mutation that changes nothing before a position it reports. -/
theorem of_changed (h : D.Sound t) (position : Nat)
    (hindex : Indexes TranscriptEntry.key t'.itemIndices t'.entries)
    (hdigests : t'.entryDigests = t.entryDigests) (hread : t'.prefixFingerprints = none)
    (hproven : t'.proven = { t.proven with unchanged := min t.proven.unchanged position })
    (hentries : t'.entries.take position = t.entries.take position)
    (hsame : 0 < position → t'.historyTruncated = t.historyTruncated ∧
      ∀ entry ∈ t.entries.take position,
        (t'.imageArtifacts entry).length = (t.imageArtifacts entry).length) : D.Sound t' := by
  refine ⟨hindex, hdigests ▸ h.digests, ?_, fun _ hp => by rw [hread] at hp; cases hp⟩
  have hlengths := congrArg List.length hentries
  rw [List.length_take, List.length_take] at hlengths
  have hle : t'.reusable ≤ t.reusable := by
    simp only [LiveTranscript.reusable, hproven]
    omega
  have hlt : t'.reusable ≤ position := by
    simp only [LiveTranscript.reusable, hproven]
    omega
  -- The steps up to there are those of the entries up to there, which are the same.
  have hkept : t.proven.steps.take t'.reusable = D.scratch t.toDomainTranscript
      t.proven.codemodeTools (t.entries.take t'.reusable) := by
    have := congrArg (List.take t'.reusable) h.steps
    rwa [List.take_take, take_scratch, List.take_take, Nat.min_eq_left hle] at this
  have hfirst : t'.entries.take t'.reusable = t.entries.take t'.reusable := by
    have := congrArg (List.take t'.reusable) hentries
    rwa [List.take_take, List.take_take, Nat.min_eq_left hlt] at this
  rw [hfirst]
  have hsteps : t'.proven.steps = t.proven.steps ∧
      t'.proven.codemodeTools = t.proven.codemodeTools := by
    rw [hproven]
    exact ⟨rfl, rfl⟩
  rw [hsteps.1, hsteps.2, hkept]
  rcases Nat.eq_zero_or_pos position with hzero | hpos
  · have hnone : t'.reusable = 0 := by omega
    rw [hnone]
    rfl
  · obtain ⟨hhistory, himages⟩ := hsame hpos
    refine (scratch_congr _ hhistory fun entry hentry => himages entry ?_).symm
    exact List.take_subset_take_left _ hlt hentry

/-- A mutation that reports the first position. -/
theorem of_changed_zero (h : D.Sound t)
    (hindex : Indexes TranscriptEntry.key t'.itemIndices t'.entries)
    (hdigests : t'.entryDigests = t.entryDigests) (hread : t'.prefixFingerprints = none)
    (hproven : t'.proven = { t.proven with unchanged := min t.proven.unchanged 0 }) : D.Sound t' :=
  h.of_changed 0 hindex hdigests hread hproven rfl fun hlt => absurd hlt (Nat.lt_irrefl 0)

/-! ### Changes in place and at the end -/

/-- A change at one position leaves what is before it. -/
theorem take_modify {α : Type} (l : List α) (i : Nat) (f : α → α) :
    (l.modify i f).take i = l.take i := by
  refine List.ext_getElem? fun j => ?_
  rw [List.getElem?_take, List.getElem?_take, List.getElem?_modify]
  split
  · next hlt => simp [Nat.ne_of_gt hlt]
  · rfl

/-- The entry at a position is replaced by one with its key. -/
theorem modify (h : D.Sound t) {i : Nat} {f : TranscriptEntry → TranscriptEntry}
    (hkey : ∀ entry, t.entries[i]? = some entry → (f entry).key = entry.key) :
    D.Sound { t.changedFrom i with entries := t.entries.modify i f } :=
  h.of_changed i (h.index.modify hkey) rfl rfl rfl (take_modify _ _ _) fun _ => ⟨rfl, fun _ _ => rfl⟩

/-- Nothing changes but what the last read answered. -/
theorem unchanged (h : D.Sound t) : D.Sound (t.changedFrom t.entries.length) :=
  h.of_changed t.entries.length h.index rfl rfl rfl rfl fun _ => ⟨rfl, fun _ _ => rfl⟩

theorem edit (h : D.Sound t) (key : String) {f : TranscriptEntry → TranscriptEntry}
    (hkey : ∀ entry, (f entry).key = entry.key) : D.Sound (t.edit key f) := by
  unfold LiveTranscript.edit LiveTranscript.changedAtKey
  dsimp only [LiveTranscript.changedFrom]
  cases hat : t.itemIndices.find? key with
  | some i => exact h.modify fun entry _ => hkey entry
  | none => exact h.unchanged

/-- A new entry at the end. -/
theorem concat (h : D.Sound t) {entry : TranscriptEntry} {indices : Table String Nat}
    (hindex : Indexes TranscriptEntry.key indices (t.entries ++ [entry])) :
    D.Sound { t.changedFrom t.entries.length with
      entries := t.entries ++ [entry], itemIndices := indices } :=
  h.of_changed t.entries.length hindex rfl rfl rfl (by simp) fun _ => ⟨rfl, fun _ _ => rfl⟩

theorem editOrPush (h : D.Sound t) {key : String} {f : TranscriptEntry → TranscriptEntry}
    {entry : TranscriptEntry} (hentry : entry.key = some key)
    (hkey : ∀ e, e.key = some key → (f e).key = some key) :
    D.Sound (t.editOrPush key f entry) := by
  unfold LiveTranscript.editOrPush LiveTranscript.changedAtKey LiveTranscript.pushKeyed
  dsimp only [LiveTranscript.changedFrom]
  cases hat : t.itemIndices.find? key with
  | some i =>
    refine h.modify fun e he => ?_
    obtain ⟨e', he', hk⟩ := (h.index key i).1 hat
    obtain rfl := Option.some.inj (he.symm.trans he')
    rw [hk, hkey e hk]
  | none => exact h.concat (h.index.concat hentry hat)

/-! ### Entries that move -/

/-- The images of the entries that are left stay. -/
theorem imageArtifacts_reindex (hnodup : (t.entries.filterMap TranscriptEntry.key).Nodup)
    {entry : TranscriptEntry} (hentry : entry ∈ t.entries) :
    t.reindex.imageArtifacts entry = t.imageArtifacts entry := by
  unfold DomainTranscript.imageArtifacts
  cases hkey : entry.key with
  | none => rfl
  | some key =>
    obtain ⟨i, hi⟩ := List.mem_iff_getElem?.1 hentry
    have hat := (rebuild_indexes hnodup key i).2 ⟨entry, hi, hkey⟩
    have hkept : t.reindex.images.find? key = t.images.find? key :=
      Table.find?_delete_of_kept fun _ _ => by rw [hat]; rfl
    exact congrArg (Option.getD · []) hkept

/-- Entries are taken out or moved behind a position, and the index is built again. -/
theorem rearrange (h : D.Sound t) {i : Nat} {entries : List TranscriptEntry}
    (hnodup : (entries.filterMap TranscriptEntry.key).Nodup)
    (htake : entries.take i = t.entries.take i) :
    D.Sound ({ t.changedFrom i with entries := entries }).reindex := by
  refine h.of_changed i (rebuild_indexes hnodup) rfl rfl rfl htake fun _ => ⟨rfl, ?_⟩
  intro entry hentry
  rw [imageArtifacts_reindex hnodup]
  · rfl
  · exact List.mem_of_mem_take (htake ▸ hentry)

theorem remove (h : D.Sound t) (key : String) : D.Sound (t.remove key) := by
  unfold LiveTranscript.remove LiveTranscript.changedAtKey
  dsimp only [LiveTranscript.changedFrom]
  cases hat : t.itemIndices.find? key with
  | some i =>
    refine h.rearrange (h.index.nodup.sublist ((List.eraseIdx_sublist _ _).filterMap _)) ?_
    refine List.ext_getElem? fun j => ?_
    rw [List.getElem?_take, List.getElem?_take]
    split
    · next hlt =>
      replace hlt : j < i := hlt
      rw [List.getElem?_eraseIdx_of_lt hlt]
    · rfl
  | none => exact h.unchanged

theorem moveBefore (h : D.Sound t) (key anchor : String) : D.Sound (t.moveBefore key anchor) := by
  unfold LiveTranscript.moveBefore LiveTranscript.changedAtKey
  dsimp only [LiveTranscript.changedFrom]
  cases hanchor : t.itemIndices.find? anchor with
  | none =>
    cases t.itemIndices.find? key with
    | none => exact h.unchanged
    | some i => exact h.unchanged
  | some i =>
    have hsame : D.Sound (t.changedFrom i) :=
      h.of_changed i h.index rfl rfl rfl rfl fun _ => ⟨rfl, fun _ _ => rfl⟩
    cases hkey : t.itemIndices.find? key with
    | none => exact hsame
    | some j =>
      dsimp only
      split
      · exact hsame
      next hge =>
      obtain ⟨entry, hentry, -⟩ := (h.index key j).1 hkey
      rw [hentry]
      have hj : j < t.entries.length := h.index.lt_length hkey
      have hlen : (t.entries.eraseIdx j).length = t.entries.length - 1 := List.length_eraseIdx_of_lt hj
      refine h.rearrange ?_ ?_
      · -- The same entries in another order.
        have hperm : ((t.entries.eraseIdx j).insertIdx i entry).Perm t.entries := by
          refine (List.perm_insertIdx entry _ (by omega)).trans ?_
          obtain ⟨hlt, rfl⟩ := List.getElem?_eq_some_iff.1 hentry
          exact List.getElem_cons_eraseIdx_perm hlt
        exact (hperm.filterMap _).nodup_iff.2 h.index.nodup
      · refine List.ext_getElem? fun n => ?_
        rw [List.getElem?_take, List.getElem?_take]
        split
        · next hlt =>
          replace hlt : n < i := hlt
          rw [List.getElem?_insertIdx_of_lt hlt, List.getElem?_eraseIdx_of_lt (by omega)]
        · rfl

/-! ### Every mutator -/

/-- The entry of a setter keeps its key. -/
theorem restore (h : D.Sound t) (entry : TranscriptEntry) : D.Sound (t.restore entry) := by
  unfold LiveTranscript.restore
  cases hkey : entry.key with
  | some key => exact h.editOrPush hkey fun _ _ => hkey
  | none => exact h.concat (h.index.concat_none hkey)

theorem setImages (h : D.Sound t) (key : String) (images : List (List UInt8)) :
    D.Sound (t.setImages key images) :=
  have hchanged : D.Sound (t.changedFrom 0) := h.of_changed_zero h.index rfl rfl rfl
  hchanged.of_changed_zero h.index rfl rfl rfl

theorem retainEntryIds (h : D.Sound t) (sessionId : String) :
    D.Sound (t.retainEntryIds sessionId) :=
  h.of_changed_zero (h.index.mapIdx fun _ _ => rfl) rfl rfl rfl

end Sound

/-! ## Reads -/

/-- The code-mode tools, from the entries and their digests. -/
theorem codemodeTools_eq (t : DomainTranscript) :
    (((t.entries.map fun entry => (entry, D.entryDigest entry)).filter (·.2.codemodeTool)).map
      (·.1.id)) = D.codemodeTools t := by
  rw [List.filter_map, List.map_map]
  rfl

/-- A read answers with the proofs from scratch, and it keeps the whole chain. -/
theorem provePrefixes_eq (h : D.Sound t) :
    D.provePrefixes t = (D.transcriptPrefixes t.toDomainTranscript,
      { t with
        entryDigests := (EntryDigests.getAll D t.entryDigests
          (t.entries.drop t.reusable)).2.retain t.entries
        proven := ⟨t.entries.length,
          D.scratch t.toDomainTranscript (D.codemodeTools t.toDomainTranscript).toFinset t.entries,
          (D.codemodeTools t.toDomainTranscript).toFinset⟩ }) := by
  obtain ⟨hchanged, -⟩ := h.digests.getAll (t.entries.drop t.reusable)
  -- Reused and new digests are those of the entries.
  have hdigests : (t.proven.steps.take t.reusable).map (·.digest)
      ++ (EntryDigests.getAll D t.entryDigests (t.entries.drop t.reusable)).1
      = t.entries.map D.entryDigest := by
    rw [h.steps, map_digest_scratch, hchanged, ← List.map_append, List.take_append_drop]
  have hentries : t.entries.zip (t.entries.map D.entryDigest)
      = t.entries.map fun entry => (entry, D.entryDigest entry) := by
    have := List.zip_map' (l := t.entries) (f := id) (g := D.entryDigest)
    rwa [List.map_id] at this
  have hreusable : min (min t.proven.unchanged t.proven.steps.length) t.entries.length
      = t.reusable := rfl
  simp only [provePrefixes, hreusable, hdigests, hentries, codemodeTools_eq]
  generalize htools : (D.codemodeTools t.toDomainTranscript).toFinset = tools
  -- The chain is resumed behind what is kept, or it starts again.
  have hresumed : ∀ n kept, kept = (D.scratch t.toDomainTranscript tools t.entries).take n →
      kept ++ Scan.run (D.proveStep t.toDomainTranscript tools) ProvenStep.chain
        (Scan.last ProvenStep.chain (D.prefixStart t.toDomainTranscript) kept)
        ((t.entries.map fun entry => (entry, D.entryDigest entry)).drop n)
      = D.scratch t.toDomainTranscript tools t.entries := by
    rintro n kept rfl
    exact Scan.run_resume _ _ _ _ n
  have hsteps : ∀ b : Bool, (b = true → tools = t.proven.codemodeTools) →
      (if b then (t.reusable, t.proven.steps.take t.reusable) else (0, [])).2
        ++ Scan.run (D.proveStep t.toDomainTranscript tools) ProvenStep.chain
          (Scan.last ProvenStep.chain (D.prefixStart t.toDomainTranscript)
            (if b then (t.reusable, t.proven.steps.take t.reusable) else (0, [])).2)
          ((t.entries.map fun entry => (entry, D.entryDigest entry)).drop
            (if b then (t.reusable, t.proven.steps.take t.reusable) else (0, [])).1)
      = D.scratch t.toDomainTranscript tools t.entries := by
    intro b hb
    cases b with
    | true =>
      refine hresumed t.reusable _ ?_
      rw [take_scratch, hb rfl]
      exact h.steps
    | false => exact hresumed 0 [] List.take_zero.symm
  have hall := hsteps (decide (tools = t.proven.codemodeTools)) of_decide_eq_true
  simp only [decide_eq_true_eq] at hall
  rw [hall]
  refine Prod.ext ?_ rfl
  exact congrArg (hexDigest (D.prefixStart t.toDomainTranscript) :: ·)
    (filterMap_run t.toDomainTranscript htools.symm _ t.entries)

theorem Sound.provePrefixes (h : D.Sound t) : D.Sound (D.provePrefixes t).2 := by
  obtain ⟨-, hcache⟩ := h.digests.getAll (t.entries.drop t.reusable)
  rw [provePrefixes_eq h]
  refine ⟨h.index, hcache.retain _, ?_, h.fingerprints⟩
  have hreusable : ∀ n, D.scratch t.toDomainTranscript
      (D.codemodeTools t.toDomainTranscript).toFinset (t.entries.take n)
      = (D.scratch t.toDomainTranscript (D.codemodeTools t.toDomainTranscript).toFinset
          t.entries).take n :=
    fun n => (take_scratch _ _ _ n).symm
  exact (hreusable _).symm

/-- A read answers with the proofs from scratch. -/
theorem cachedPrefixes_eq (h : D.Sound t) :
    (D.cachedPrefixes t).1 = D.transcriptPrefixes t.toDomainTranscript ∧
      D.Sound (D.cachedPrefixes t).2 := by
  unfold cachedPrefixes
  cases hread : t.prefixFingerprints with
  | some prefixes => exact ⟨h.fingerprints prefixes hread, h⟩
  | none =>
    have hsound := h.provePrefixes
    have heq := provePrefixes_eq h
    dsimp only
    refine ⟨by rw [heq], ⟨hsound.index, hsound.digests, hsound.steps, ?_⟩⟩
    intro prefixes hprefixes
    obtain rfl := Option.some.inj hprefixes
    rw [heq]

theorem map_filter_zip {α β γ : Type} {f : α → γ} {g : β → γ} (p : α → Bool) {l : List α}
    {bs : List β} (h : bs.map g = l.map f) :
    ((l.zip bs).filter fun row => p row.1).map (fun row => g row.2) = (l.filter p).map f := by
  induction l generalizing bs with
  | nil => rfl
  | cons a l ih =>
    cases bs with
    | nil => cases h
    | cons b bs =>
      obtain ⟨hb, hbs⟩ := List.cons.inj h
      rw [List.zip_cons_cons, List.filter_cons, List.filter_cons]
      split
      · rw [List.map_cons, List.map_cons, hb, ih hbs]
      · exact ih hbs

/-- The digests that are read from a chain that covers every entry are those of the entries. -/
theorem visibleEntryDigests_eq (h : D.Sound t) {digests : List EntryDigest}
    (hread : t.visibleEntryDigests = some digests) :
    digests = t.toDomainTranscript.visible.map D.entryDigest := by
  unfold LiveTranscript.visibleEntryDigests at hread
  split at hread
  · next hall =>
    obtain rfl := Option.some.inj hread
    have hreusable : t.reusable = t.entries.length := by
      simp only [LiveTranscript.reusable, hall.1, hall.2, Nat.min_self]
    have hsteps := h.steps
    rw [hreusable, List.take_length, ← hall.2, List.take_length] at hsteps
    have hdigests : t.proven.steps.map (·.digest) = t.entries.map D.entryDigest := by
      rw [hsteps, map_digest_scratch]
    exact map_filter_zip _ hdigests
  · cases hread

/-! ## Every action -/

theorem Sound.apply (h : D.Sound t) (a : TranscriptAction) : D.Sound (a.apply D t) := by
  cases a with
  | push id nowMs kind title body status => exact h.concat (h.index.concat_none rfl)
  | upsert | appendDelta => exact h.editOrPush rfl fun _ hk => hk
  | restore entry => exact h.restore entry
  | remove key => exact h.remove key
  | moveBefore key anchor => exact h.moveBefore key anchor
  | clear => exact h.of_changed_zero .nil rfl rfl rfl
  | setImages key images => exact h.setImages key images
  | retainEntryIds sessionId => exact h.retainEntryIds sessionId
  | restoreImages | setLabeledImages | setLocalFiles | setStreamActive | setStreamLabel
  | markHistoryTruncated => exact h.of_changed_zero h.index rfl rfl rfl
  | finishRunning | setSourceTransportForUserTurn =>
    refine h.of_changed_zero (h.index.map fun entry _ => ?_) rfl rfl rfl
    split <;> rfl
  | setStatus | setCoordination | setCreatedAtMs | setOrigin | setModelOptions | setSourceTransport
  | replaceBody => exact h.edit _ fun _ => rfl
  | setTurnAttribution | setToolAudit | finishRunningEntry =>
    refine h.edit _ fun entry => ?_
    split <;> rfl
  | read => exact (cachedPrefixes_eq h).2
  | clone => exact ⟨h.index, h.digests, rfl, h.fingerprints⟩
  | shareEntryDigests others =>
    exact ⟨h.index, (computed_empty.getAll others).2, h.steps, h.fingerprints⟩
  | otherRead entries => exact ⟨h.index, (h.digests.getAll entries).2, h.steps, h.fingerprints⟩
  | otherPrune entries => exact ⟨h.index, h.digests.retain entries, h.steps, h.fingerprints⟩

theorem sound_run {actions : List TranscriptAction} (hrun : (transcripts D).Run .new actions t) :
    D.Sound t :=
  hrun.invariant (Q := D.Sound) (fun hnext h => hnext ▸ h.apply _) sound_new

/-- After any mutators and reads: a read obtains the proofs that a transcript with the same entries
and side tables computes of which nothing was read; the digests that are read from the chain are
those of the visible entries; and the index has exactly the keys of the entries, each with the
position of its entry. -/
theorem proofs_from_scratch (D : Digests) {t : LiveTranscript} {actions : List TranscriptAction}
    (hrun : (transcripts D).Run .new actions t) :
    (D.cachedPrefixes t).1 = (D.cachedPrefixes t.fresh).1 ∧
      (∀ digests, t.visibleEntryDigests = some digests →
        digests = t.toDomainTranscript.visible.map D.entryDigest) ∧
      ∀ key i, t.itemIndices.find? key = some i ↔
        ∃ entry, t.entries[i]? = some entry ∧ entry.key = some key := by
  have h : D.Sound t := sound_run hrun
  have hfresh : D.Sound t.fresh := ⟨h.index, computed_empty, rfl, nofun⟩
  refine ⟨?_, fun digests hread => visibleEntryDigests_eq h hread, h.index⟩
  rw [(cachedPrefixes_eq h).1, (cachedPrefixes_eq hfresh).1]
  rfl

/-- Digests that keep the first bytes, for texts without audit fields. -/
def leading : Digests where
  sha256 bytes := Vector.ofFn fun i => bytes.getD i 0
  auditField _ _ := none
  uuidV5 := id

/-- An answer that is read while it is streamed. -/
def streamedAnswer : LiveTranscript :=
  ((leading.cachedPrefixes (LiveTranscript.new.upsert "entry" 0 "item" .assistant "Nakode" "Hel"
    .running)).2).appendDelta "other" 0 "item" .assistant "Nakode" "lo"

theorem proofs_from_scratch_streamedAnswer :
    (leading.cachedPrefixes streamedAnswer).1 = (leading.cachedPrefixes streamedAnswer.fresh).1 :=
  (@proofs_from_scratch leading streamedAnswer
    [.upsert "entry" 0 "item" .assistant "Nakode" "Hel" .running, .read,
      .appendDelta "other" 0 "item" .assistant "Nakode" "lo"]
    (.cons rfl (.cons rfl (.cons rfl (.nil _))))).1

end Digests

end Nakode
