import Nakode.Lib.Positions
import Nakode.Lib.Scan
import Nakode.Lib.Trace
import Nakode.Transcript.Projection

/-!
# Transcripts that change

The server's transcript with all it keeps beside the entries: the position of each key, the local
files, and the prefix proofs of the last read. A read proves the entries that changed since, behind
the proofs of the others (`transcriptPrefixes`); every mutator says from which position on it may
have changed something (`changedFrom`). `machine` lets the mutators and the reads follow one another
in any order, while other transcripts use the same store of digests.
-/

namespace Nakode

open Relational (Table)
open Transition

/-! ## What is kept -/

/-- A step of the chain: the digest of its entry, the chain after it, and the proof after it when
the entry is visible. -/
structure ProvenStep where
  digest : EntryDigest
  chain : Vector UInt8 32
  proof : Option String

/-- The chain as last computed, and how many of the first entries no mutation has touched since. -/
structure ProvenChain where
  unchanged : Nat
  steps : List ProvenStep
  codemodeTools : Finset String

def ProvenChain.fresh : ProvenChain := ⟨0, [], ∅⟩

/-- Each entry's digest beside the entry that it was computed from, by the entry's id. -/
abbrev EntryDigests := Table String (TranscriptEntry × EntryDigest)

namespace EntryDigests

/-- `EntryDigests::get`: a digest is reused when its entry is the same. -/
def get (D : Digests) (cache : EntryDigests) (entry : TranscriptEntry) :
    EntryDigest × EntryDigests :=
  let computed := (entry, D.entryDigest entry)
  match cache.find? entry.id with
  | some (cached, digest) =>
    if cached = entry then (digest, cache)
    else (computed.2, cache.upsert entry.id computed fun _ => computed)
  | none => (computed.2, cache.upsert entry.id computed fun _ => computed)

/-- The digests of entries, one after another. -/
def getAll (D : Digests) : EntryDigests → List TranscriptEntry → List EntryDigest × EntryDigests
  | cache, [] => ([], cache)
  | cache, entry :: rest =>
    let (digest, cache) := get D cache entry
    let (digests, cache) := getAll D cache rest
    (digest :: digests, cache)

/-- `EntryDigests::retain`: a cache that is larger than the transcript forgets other entries. -/
def retain (cache : EntryDigests) (entries : List TranscriptEntry) : EntryDigests :=
  if cache.rows.length ≤ entries.length then cache
  else cache.delete fun id _ => !entries.any (·.id == id)

end EntryDigests

/-- `DomainTranscript` with its index, its side tables and what its reads keep. -/
structure LiveTranscript extends DomainTranscript where
  itemIndices : Table String Nat
  localFiles : Table String (List (String × String))
  prefixFingerprints : Option (List String)
  entryDigests : EntryDigests
  proven : ProvenChain

structure StoredTranscriptImage where
  entryKey : String
  label : String
  data : List UInt8

namespace LiveTranscript

def new : LiveTranscript where
  entries := []
  images := ∅
  streamActive := false
  streamLabel := "Nakode"
  historyTruncated := false
  itemIndices := ∅
  localFiles := ∅
  prefixFingerprints := none
  entryDigests := ∅
  proven := .fresh

/-- The same entries and side tables, of which nothing was read yet. -/
def fresh (t : LiveTranscript) : LiveTranscript :=
  { t with prefixFingerprints := none, entryDigests := ∅, proven := .fresh }

variable (t : LiveTranscript)

/-! ## Mutators -/

/-- Proofs for entries before `index` still hold. -/
def changedFrom (index : Nat) : LiveTranscript :=
  { t with
    prefixFingerprints := none
    proven := { t.proven with unchanged := min t.proven.unchanged index } }

/-- An unknown key changes no existing entry. -/
def changedAtKey (key : String) : LiveTranscript :=
  t.changedFrom ((t.itemIndices.find? key).getD t.entries.length)

/-- What the setters of one entry share. -/
def edit (key : String) (f : TranscriptEntry → TranscriptEntry) : LiveTranscript :=
  let t := t.changedAtKey key
  match t.itemIndices.find? key with
  | some index => { t with entries := t.entries.modify index f }
  | none => t

/-- A new entry at the end under its key. -/
def pushKeyed (key : String) (entry : TranscriptEntry) : LiveTranscript :=
  { t with
    entries := t.entries ++ [entry]
    itemIndices := t.itemIndices.upsert key t.entries.length fun _ => t.entries.length }

/-- What the mutators share that change the entry of a key or add it. -/
def editOrPush (key : String) (f : TranscriptEntry → TranscriptEntry) (entry : TranscriptEntry) :
    LiveTranscript :=
  let t := t.changedAtKey key
  match t.itemIndices.find? key with
  | some index => { t with entries := t.entries.modify index f }
  | none => t.pushKeyed key entry

/-- The positions of the keys, and the side tables without the keys that are gone. -/
def reindex : LiveTranscript :=
  let indices := Positions.rebuild TranscriptEntry.key 0 t.entries ∅
  { t with
    prefixFingerprints := none
    itemIndices := indices
    images := t.images.delete fun key _ => (indices.find? key).isNone
    localFiles := t.localFiles.delete fun key _ => (indices.find? key).isNone }

def newEntry (id : String) (nowMs : Nat) (key : Option String) (kind : EntryKind)
    (title body : String) (status : EntryStatus) : TranscriptEntry :=
  { id, key, kind, title, body, status, createdAtMs := some nowMs }

def markHistoryTruncated : LiveTranscript := { t.changedFrom 0 with historyTruncated := true }

def setLabeledImages (key : String) (images : List TranscriptImageArtifact) : LiveTranscript :=
  let t := t.changedFrom 0
  { t with images :=
      if images.isEmpty then t.images.delete fun k _ => k == key
      else t.images.upsert key images fun _ => images }

/-- The label of one of the images of an entry. -/
def imageLabel (multiple : Bool) (index : Nat) : String :=
  if multiple then "Image " ++ toString (index + 1) else "Image"

def setImages (key : String) (images : List (List UInt8)) : LiveTranscript :=
  (t.changedFrom 0).setLabeledImages key
    (images.mapIdx fun index data => ⟨imageLabel (images.length > 1) index, data⟩)

def setLocalFiles (key : String) (files : List (String × String)) : LiveTranscript :=
  let t := t.changedFrom 0
  { t with localFiles :=
      if files.isEmpty then t.localFiles.delete fun k _ => k == key
      else t.localFiles.upsert key files fun _ => files }

/-- Stored images join those of their entries, one after another. -/
def addImages : List StoredTranscriptImage → Table String (List TranscriptImageArtifact) →
    Table String (List TranscriptImageArtifact)
  | [], images => images
  | image :: rest, images =>
    let artifact : TranscriptImageArtifact := ⟨image.label, image.data⟩
    addImages rest (images.upsert image.entryKey [artifact] (· ++ [artifact]))

def restoreImages (images : List StoredTranscriptImage) : LiveTranscript :=
  let t := t.changedFrom 0
  { t with images := addImages images t.images }

def clear : LiveTranscript :=
  { t.changedFrom 0 with
    entries := []
    itemIndices := ∅
    images := ∅
    localFiles := ∅
    streamActive := false
    historyTruncated := false }

def setStreamActive (active : Bool) : LiveTranscript :=
  { t.changedFrom 0 with streamActive := active }

def setStreamLabel (label : String) : LiveTranscript :=
  { t.changedFrom 0 with streamLabel := label }

/-- A durable entry replaces the one that has its key. -/
def restore (entry : TranscriptEntry) : LiveTranscript :=
  match entry.key with
  | some key => t.editOrPush key (fun _ => entry) entry
  | none =>
    let t := t.changedFrom t.entries.length
    { t with entries := t.entries ++ [entry] }

def setCoordination (promptId : String) (json : Option String) : LiveTranscript :=
  t.edit ("user:" ++ promptId) fun entry => { entry with coordinationJson := json }

def push (id : String) (nowMs : Nat) (kind : EntryKind) (title body : String)
    (status : EntryStatus) : LiveTranscript :=
  let t := t.changedFrom t.entries.length
  { t with entries := t.entries ++ [newEntry id nowMs none kind title body status] }

def retainEntryIds (sessionId : String) : LiveTranscript :=
  let t := t.changedFrom 0
  { t with entries := t.entries.mapIdx fun index entry =>
      { entry with id := "retained:" ++ sessionId ++ ":" ++ entry.key.getD (toString index) } }

def upsert (id : String) (nowMs : Nat) (key : String) (kind : EntryKind) (title body : String)
    (status : EntryStatus) : LiveTranscript :=
  t.editOrPush key (fun entry => { entry with kind, title, body, status })
    (newEntry id nowMs (some key) kind title body status)

def appendDelta (id : String) (nowMs : Nat) (key : String) (kind : EntryKind)
    (title delta : String) : LiveTranscript :=
  t.editOrPush key (fun entry => { entry with body := entry.body ++ delta, status := .running })
    (newEntry id nowMs (some key) kind title delta .running)

def setCreatedAtMs (key : String) (createdAtMs : Option Nat) : LiveTranscript :=
  t.edit key fun entry => { entry with createdAtMs }

def setOrigin (key : String) (providerId modelId : Option String) : LiveTranscript :=
  t.edit key fun entry => { entry with
    providerId := entry.providerId <|> providerId
    modelId := entry.modelId <|> modelId }

def setModelOptions (key : String) (reasoningEffort : Option String) (fastMode : Bool) :
    LiveTranscript :=
  t.edit key fun entry => { entry with reasoningEffort, fastMode := some fastMode }

def setTurnAttribution (key turnId : String) (reasoningEffort : Option String) (fastMode : Bool) :
    LiveTranscript :=
  t.edit key fun entry =>
    if entry.ownerTurnId.isNone then
      { entry with ownerTurnId := some turnId, reasoningEffort, fastMode := some fastMode }
    else entry

def setSourceTransport (key : String) (sourceTransport : Option String) : LiveTranscript :=
  t.edit key fun entry => { entry with sourceTransport := entry.sourceTransport <|> sourceTransport }

def setSourceTransportForUserTurn (turnId sourceTransport : String) : LiveTranscript :=
  let t := t.changedFrom 0
  { t with entries := t.entries.map fun entry =>
      if entry.kind = .user ∧ entry.ownerTurnId = some turnId ∧ entry.sourceTransport = none then
        { entry with sourceTransport := some sourceTransport }
      else entry }

/-- An update without audit data leaves the payload that is there. -/
def setToolAudit (key : String) (auditJson : Option String) : LiveTranscript :=
  t.edit key fun entry =>
    if auditJson.isSome then { entry with toolAuditJson := auditJson } else entry

def setStatus (key : String) (status : EntryStatus) : LiveTranscript :=
  t.edit key fun entry => { entry with status }

def finishRunningEntry (key : String) (status : EntryStatus) : LiveTranscript :=
  t.edit key fun entry => if entry.status = .running then { entry with status } else entry

def replaceBody (key body : String) (status : EntryStatus) : LiveTranscript :=
  t.edit key fun entry => { entry with body, status }

/-- The entry moves up to its anchor, the first position this changes. -/
def moveBefore (key anchor : String) : LiveTranscript :=
  let t := t.changedAtKey anchor
  match t.itemIndices.find? key, t.itemIndices.find? anchor with
  | some index, some anchorIndex =>
    if index < anchorIndex then t
    else match t.entries[index]? with
      | some entry =>
        { t with entries := (t.entries.eraseIdx index).insertIdx anchorIndex entry }.reindex
      | none => t
  | _, _ => t

def remove (key : String) : LiveTranscript :=
  let t := t.changedAtKey key
  match t.itemIndices.find? key with
  | some index => { t with entries := t.entries.eraseIdx index }.reindex
  | none => t

def finishRunning (status : EntryStatus) : LiveTranscript :=
  let t := t.changedFrom 0
  { t with
    entries := t.entries.map fun entry =>
      if entry.status = .running then { entry with status } else entry
    streamActive := false }

end LiveTranscript

/-! ## Reads -/

namespace Digests

variable (D : Digests)

/-- The step of an entry, chained against the code-mode tools. -/
def proveStep (t : DomainTranscript) (tools : Finset String) (current : Vector UInt8 32)
    (entry : TranscriptEntry × EntryDigest) : ProvenStep :=
  let (entry, digest) := entry
  if visibleTranscriptEntry entry then
    let next := D.sha256 (current.toList ++ digest.content.toList
      ++ leBytes (t.imageArtifacts entry).length
      ++ match digest.parentItemId.filter (· ∈ tools) with
        | some parent => 1 :: leBytes (Text.len parent) ++ bytes parent
        | none => [0])
    ⟨digest, next, some (hexDigest next)⟩
  else ⟨digest, current, none⟩

/-- `transcript_prefixes`: the steps of unchanged entries are kept, unless the code-mode tools are
others; the rest is proven behind them. -/
def provePrefixes (t : LiveTranscript) : List String × LiveTranscript :=
  let reusable := min (min t.proven.unchanged t.proven.steps.length) t.entries.length
  let kept := t.proven.steps.take reusable
  let (changed, cache) := EntryDigests.getAll D t.entryDigests (t.entries.drop reusable)
  let digests := kept.map (·.digest) ++ changed
  let entries := t.entries.zip digests
  let tools := ((entries.filter (·.2.codemodeTool)).map (·.1.id)).toFinset
  let (reusable, kept) := if tools = t.proven.codemodeTools then (reusable, kept) else (0, [])
  let start := D.prefixStart t.toDomainTranscript
  let steps := kept ++ Scan.run (D.proveStep t.toDomainTranscript tools) ProvenStep.chain
    (Scan.last ProvenStep.chain start kept) (entries.drop reusable)
  (hexDigest start :: steps.filterMap (·.proof),
    { t with
      entryDigests := cache.retain t.entries
      proven := ⟨t.entries.length, steps, tools⟩ })

/-- `cached_prefixes`: the proofs of the last read when nothing was recorded since. -/
def cachedPrefixes (t : LiveTranscript) : List String × LiveTranscript :=
  match t.prefixFingerprints with
  | some prefixes => (prefixes, t)
  | none =>
    let (prefixes, t) := D.provePrefixes t
    (prefixes, { t with prefixFingerprints := some prefixes })

end Digests

/-- `visible_entry_digests`: the digests of the visible entries, from a chain that covers every
entry. -/
def LiveTranscript.visibleEntryDigests (t : LiveTranscript) : Option (List EntryDigest) :=
  if t.proven.unchanged = t.entries.length ∧ t.proven.steps.length = t.entries.length then
    some (((t.entries.zip t.proven.steps).filter fun row => visibleTranscriptEntry row.1).map
      (·.2.digest))
  else none

/-! ## Mutators and reads in any order -/

inductive TranscriptAction where
  | push (id : String) (nowMs : Nat) (kind : EntryKind) (title body : String) (status : EntryStatus)
  | upsert (id : String) (nowMs : Nat) (key : String) (kind : EntryKind) (title body : String)
      (status : EntryStatus)
  | appendDelta (id : String) (nowMs : Nat) (key : String) (kind : EntryKind) (title delta : String)
  | restore (entry : TranscriptEntry)
  | restoreImages (images : List StoredTranscriptImage)
  | remove (key : String)
  | moveBefore (key anchor : String)
  | clear
  | setStatus (key : String) (status : EntryStatus)
  | finishRunning (status : EntryStatus)
  | finishRunningEntry (key : String) (status : EntryStatus)
  | replaceBody (key body : String) (status : EntryStatus)
  | setImages (key : String) (images : List (List UInt8))
  | setLabeledImages (key : String) (images : List TranscriptImageArtifact)
  | setLocalFiles (key : String) (files : List (String × String))
  | setCreatedAtMs (key : String) (createdAtMs : Option Nat)
  | setOrigin (key : String) (providerId modelId : Option String)
  | setModelOptions (key : String) (reasoningEffort : Option String) (fastMode : Bool)
  | setTurnAttribution (key turnId : String) (reasoningEffort : Option String) (fastMode : Bool)
  | setSourceTransport (key : String) (sourceTransport : Option String)
  | setSourceTransportForUserTurn (turnId sourceTransport : String)
  | setToolAudit (key : String) (auditJson : Option String)
  | setCoordination (promptId : String) (json : Option String)
  | setStreamActive (active : Bool)
  | setStreamLabel (label : String)
  | markHistoryTruncated
  | retainEntryIds (sessionId : String)
  -- what uses the proofs
  | read
  | clone
  /-- The store of digests becomes one in which digests of these entries were computed. -/
  | shareEntryDigests (others : List TranscriptEntry)
  /-- Another transcript computes digests in the same store. -/
  | otherRead (entries : List TranscriptEntry)
  /-- Another transcript forgets digests in the same store. -/
  | otherPrune (entries : List TranscriptEntry)

open LiveTranscript in
def TranscriptAction.apply (D : Digests) (t : LiveTranscript) : TranscriptAction → LiveTranscript
  | .push id nowMs kind title body status => t.push id nowMs kind title body status
  | .upsert id nowMs key kind title body status => t.upsert id nowMs key kind title body status
  | .appendDelta id nowMs key kind title delta => t.appendDelta id nowMs key kind title delta
  | .restore entry => t.restore entry
  | .restoreImages images => t.restoreImages images
  | .remove key => t.remove key
  | .moveBefore key anchor => t.moveBefore key anchor
  | .clear => t.clear
  | .setStatus key status => t.setStatus key status
  | .finishRunning status => t.finishRunning status
  | .finishRunningEntry key status => t.finishRunningEntry key status
  | .replaceBody key body status => t.replaceBody key body status
  | .setImages key images => t.setImages key images
  | .setLabeledImages key images => t.setLabeledImages key images
  | .setLocalFiles key files => t.setLocalFiles key files
  | .setCreatedAtMs key createdAtMs => t.setCreatedAtMs key createdAtMs
  | .setOrigin key providerId modelId => t.setOrigin key providerId modelId
  | .setModelOptions key reasoningEffort fastMode => t.setModelOptions key reasoningEffort fastMode
  | .setTurnAttribution key turnId reasoningEffort fastMode =>
    t.setTurnAttribution key turnId reasoningEffort fastMode
  | .setSourceTransport key sourceTransport => t.setSourceTransport key sourceTransport
  | .setSourceTransportForUserTurn turnId sourceTransport =>
    t.setSourceTransportForUserTurn turnId sourceTransport
  | .setToolAudit key auditJson => t.setToolAudit key auditJson
  | .setCoordination promptId json => t.setCoordination promptId json
  | .setStreamActive active => t.setStreamActive active
  | .setStreamLabel label => t.setStreamLabel label
  | .markHistoryTruncated => t.markHistoryTruncated
  | .retainEntryIds sessionId => t.retainEntryIds sessionId
  | .read => (D.cachedPrefixes t).2
  | .clone => { t with proven := .fresh }
  | .shareEntryDigests others => { t with entryDigests := (EntryDigests.getAll D ∅ others).2 }
  | .otherRead entries => { t with entryDigests := (EntryDigests.getAll D t.entryDigests entries).2 }
  | .otherPrune entries => { t with entryDigests := t.entryDigests.retain entries }

/-- Mutators and reads of one transcript, in any order. -/
def transcripts (D : Digests) : System LiveTranscript TranscriptAction where
  next t a t' := t' = a.apply D t

end Nakode
