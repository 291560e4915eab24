import Nakode.Lib.Greedy
import Nakode.Lib.Outcome
import Nakode.Lib.Table
import Nakode.Lib.Trace

/-!
# Returned images

A turn returns images in two ways: the model names files (`ReturnImageTool::execute`), and a
client's external tool answers with images (`retain_external_tool_images`). Both bound what a turn
returns by what the session retains of it, send one event for the images of a call, and retain them
under the call's id. Where no call uses the id of retained images again, what is retained of the
turn is what was sent, so the bounds hold of what was sent and later history shows it
(`returned_images_faithful`). A call with such an id takes the place of what is retained under it.
-/

namespace Nakode.Tools

open Outcome Relational Transition

/-! ## Images -/

structure PromptImage where
  mimeType : String
  data : List UInt8
  deriving DecidableEq

structure PromptAttachment where
  label : String
  path : Option String
  image : Option PromptImage
  deriving DecidableEq

structure ReturnedImage where
  id : String
  turnId : String
  providerId : String
  modelId : String
  attachment : PromptAttachment
  moreAttachments : List PromptAttachment
  historyIndex : Nat
  sequence : Nat
  deriving DecidableEq

namespace ReturnedImage

def attachments (image : ReturnedImage) : List PromptAttachment :=
  image.attachment :: image.moreAttachments

def imageCount (image : ReturnedImage) : Nat := 1 + image.moreAttachments.length

/-- The images of the attachments, in order. -/
def images (image : ReturnedImage) : List PromptImage := image.attachments.filterMap (·.image)

def imageBytes (image : ReturnedImage) : Nat := (image.images.map (·.data.length)).sum

end ReturnedImage

def maxImageBytes : Nat := 5 * 1024 * 1024
def maxImagesPerTurn : Nat := 8
def maxBytesPerTurn : Nat := 20 * 1024 * 1024

/-! ## The images that a call names -/

/-- The arguments: a path if it is a string, and the entries of paths if it is an array, each if it
is a string. -/
structure ImageArguments where
  path : Option String
  paths : Option (List (Option String))

def requestedImagePaths (arguments : ImageArguments) : Except String (List String) := do
  let paths ← match arguments.path, arguments.paths with
    | some path, none => .ok [path]
    | none, some paths => paths.mapM fun path => need path "paths must be strings"
    | _, _ => .error "give either path or paths"
  ensure (paths ≠ [] ∧ "" ∉ paths) "give at least one non-empty image path"
  ensure (paths.length ≤ maxImagesPerTurn) "at most eight images may be returned per turn"
  ensure paths.Nodup "each image may be named once"
  return paths

/-- A file that was opened: its metadata and its bytes. -/
structure OpenedImage where
  isFile : Bool
  len : Nat
  bytes : Except String (List UInt8)

/-- What the file system answers: the canonical workspace, the canonical path of a path that is
relative to it or absolute, by its components, and the file at a canonical path. -/
structure ImageFiles where
  root : Except String (List String)
  canonicalize : List String → String → Except String (List String)
  openImage : List String → Except String OpenedImage

structure LoadedImage where
  label : String
  mimeType : String
  data : List UInt8
  deriving DecidableEq

def imageMediaType (data : List UInt8) : Option String :=
  if [0x89, 0x50, 0x4e, 0x47, 0x0d, 0x0a, 0x1a, 0x0a].isPrefixOf data then some "image/png"
  else if [0xff, 0xd8, 0xff].isPrefixOf data then some "image/jpeg"
  else if [0x47, 0x49, 0x46, 0x38, 0x37, 0x61].isPrefixOf data ||
    [0x47, 0x49, 0x46, 0x38, 0x39, 0x61].isPrefixOf data then some "image/gif"
  else if [0x52, 0x49, 0x46, 0x46].isPrefixOf data &&
    [0x57, 0x45, 0x42, 0x50].isPrefixOf (data.drop 8) then some "image/webp"
  else none

def loadReturnableImage (files : ImageFiles) (supplied : String) : Except String LoadedImage := do
  let root ← files.root
  let path ← files.canonicalize root supplied
  let inGallery := path.dropLast.contains ".tmp-gallery"
  ensure (root.isPrefixOf path || inGallery)
    "image must be inside the session workspace or a .tmp-gallery directory"
  let file ← files.openImage path
  ensure (file.isFile && file.len ≤ maxImageBytes)
    "image must be a regular file of at most 5 MiB"
  let bytes ← file.bytes
  let data := bytes.take (maxImageBytes + 1)
  ensure (data.length ≤ maxImageBytes) "image exceeds 5 MiB"
  let mimeType ← need (imageMediaType data) "unsupported image; use PNG, JPEG, GIF or WebP"
  return ⟨path.getLast?.getD "Image", mimeType, data⟩

def loadReturnableImages (files : ImageFiles) (paths : List String) :
    Except String (List LoadedImage) :=
  paths.mapM fun path => (loadReturnableImage files path).mapError fun error => s!"{path}: {error}"

def returnedImagesOutput (count : Nat) : String :=
  if count = 1 then "Image attached to the assistant transcript."
  else s!"{count} images attached to the assistant transcript."

/-! ## The calls -/

/-- What a session keeps of its images. -/
structure ImageSession where
  providerId : String
  model : String
  returnedImages : Table String ReturnedImage

/-- What a call meets: the length of the history, the files, whether the receiver of the session's
events is there, and whether the call is cancelled before it sends its event. Between the event and
what is retained nothing is awaited. -/
structure ImageSurroundings where
  historyPosition : Nat
  files : ImageFiles
  receiving : Bool
  cancelled : Bool

/-- The images of a turn that the session retains. -/
def ImageSession.turnImages (session : ImageSession) (turnId : String) : List ReturnedImage :=
  (session.returnedImages.rows.map Prod.snd).filter (·.turnId = turnId)

/-- The session after a call retained its images. -/
def ImageSession.retain (session : ImageSession) (callId : String) (image : ReturnedImage) :
    ImageSession :=
  { session with returnedImages := session.returnedImages.upsert callId image fun _ => image }

def LoadedImage.attachment (image : LoadedImage) : PromptAttachment :=
  ⟨image.label, none, some ⟨image.mimeType, image.data⟩⟩

/-- One reply for the images of a call. -/
def reply (session : ImageSession) (historyPosition : Nat) (turnId callId : String)
    (attachments : List PromptAttachment) : Except String ReturnedImage :=
  match attachments with
  | [] => .error "no image to return"
  | first :: more => .ok {
      id := s!"{turnId}:image:{callId}"
      turnId
      providerId := session.providerId
      modelId := session.model
      historyIndex := historyPosition
      sequence := session.returnedImages.rows.length
      attachment := first
      moreAttachments := more }

/-- The call up to the event: the output, and the reply that is sent. -/
def attachImages (session : ImageSession) (turnId callId : String) (arguments : ImageArguments)
    (S : ImageSurroundings) : Except String (String × ReturnedImage) := do
  let paths ← requestedImagePaths arguments
  let turnImages := session.turnImages turnId
  let returned := (turnImages.map (·.imageCount)).sum
  ensure (returned + paths.length ≤ maxImagesPerTurn)
    "at most eight images may be returned per turn"
  let retainedBytes := (turnImages.map (·.imageBytes)).sum
  let loaded ← loadReturnableImages S.files paths
  let added := (loaded.map (·.data.length)).sum
  ensure (retainedBytes + added ≤ maxBytesPerTurn) "returned images exceed 20 MiB per turn"
  let image ← reply session S.historyPosition turnId callId (loaded.map (·.attachment))
  ensure S.receiving "session event receiver closed"
  return (returnedImagesOutput loaded.length, image)

/-- `ReturnImageTool::execute`: its result, the session afterwards, and the events sent. -/
def execute (session : ImageSession) (turnId callId : String) (arguments : ImageArguments)
    (S : ImageSurroundings) : Except String String × ImageSession × List ReturnedImage :=
  if S.cancelled then (.error "image attachment cancelled", session, [])
  else match attachImages session turnId callId arguments S with
    | .error error => (.error error, session, [])
    | .ok (output, image) => (.ok output, session.retain callId image, [image])

/-- Whether an image fits the turn's bounds behind a number of images and of bytes. -/
def imageFits (used : Nat × Nat) (image : PromptImage) : Bool :=
  used.1 < maxImagesPerTurn && used.2 + image.data.length ≤ maxBytesPerTurn

def useImage (used : Nat × Nat) (image : PromptImage) : Nat × Nat :=
  (used.1 + 1, used.2 + image.data.length)

/-- The images of an external tool that are kept: in order, while they fit. -/
def keptImages (session : ImageSession) (turnId : String) (images : List PromptImage) :
    List PromptImage :=
  let turnImages := session.turnImages turnId
  Greedy.greedy imageFits useImage
    ((turnImages.map (·.imageCount)).sum, (turnImages.map (·.imageBytes)).sum) images

/-- The kept images with their labels. -/
def toolAttachments (images : List PromptImage) : List PromptAttachment :=
  images.zipIdx.map fun (image, index) => ⟨s!"Tool image {index + 1}", none, some image⟩

/-- `retain_external_tool_images`: the number of images kept, the session afterwards, and the events
sent. A call that is cancelled before its event sends none. -/
def retainExternalToolImages (session : ImageSession) (turnId callId : String)
    (images : List PromptImage) (S : ImageSurroundings) :
    Except String Nat × ImageSession × List ReturnedImage :=
  let kept := keptImages session turnId images
  if S.cancelled then (.error "codemode execution interrupted", session, [])
  else if kept = [] then (.ok 0, session, [])
  else match reply session S.historyPosition turnId callId (toolAttachments kept) with
    | .error error => (.error error, session, [])
    | .ok image =>
      if S.receiving then (.ok kept.length, session.retain callId image, [image])
      else (.error "session event receiver closed", session, [])

/-! ## A turn -/

/-- A session in a turn, and the events that the turn sent. -/
structure ImageTurn where
  session : ImageSession
  events : List ReturnedImage

inductive ImageCall where
  | returnImage (callId : String) (arguments : ImageArguments) (S : ImageSurroundings)
  | external (callId : String) (images : List PromptImage) (S : ImageSurroundings)

def ImageCall.callId : ImageCall → String
  | returnImage callId _ _ => callId
  | external callId _ _ => callId

/-- What a call answers: the output of the tool, or the number of images kept. -/
inductive ImageAnswer where
  | output (result : Except String String)
  | kept (result : Except String Nat)

/-- A call's answer, the session afterwards, and the events sent. -/
def performImageCall (session : ImageSession) (turnId : String) :
    ImageCall → ImageAnswer × ImageSession × List ReturnedImage
  | .returnImage callId arguments S =>
    let (result, session, sent) := execute session turnId callId arguments S
    (.output result, session, sent)
  | .external callId images S =>
    let (result, session, sent) := retainExternalToolImages session turnId callId images S
    (.kept result, session, sent)

def ImageTurn.after (turn : ImageTurn) (turnId : String) (call : ImageCall) : ImageTurn :=
  let (_, session, sent) := performImageCall turn.session turnId call
  ⟨session, turn.events ++ sent⟩

/-- The calls of a turn, in any order. -/
def imageTurn (turnId : String) : System ImageTurn ImageCall where
  next turn call turn' := turn.after turnId call = turn'

/-- The calls of a turn whose ids are those of no retained images. -/
def freshImageTurn (turnId : String) : System ImageTurn ImageCall :=
  (imageTurn turnId).restrict fun turn call =>
    turn.session.returnedImages.find? call.callId = none

/-! ## Later history -/

structure InterruptedTurn where
  id : String
  historyPosition : Nat

inductive HistoryEntry (E : Type) where
  | interruption (id : String)
  | image (image : ReturnedImage)
  | item (entry : E)

/-- The loop of `normalized_history` over the items: before each of them what belongs there, and
behind the last one the rest. -/
def historyEntries {Item E : Type} (normalizeItem : Nat → Item → List E) :
    Nat → List InterruptedTurn → List ReturnedImage → List Item → List (HistoryEntry E)
  | _, interruptions, images, [] =>
    images.map .image ++ interruptions.map fun turn => .interruption turn.id
  | index, interruptions, images, item :: items =>
    (interruptions.takeWhile (·.historyPosition ≤ index)).map (fun turn => .interruption turn.id) ++
      (images.takeWhile (·.historyIndex ≤ index)).map .image ++
      (normalizeItem index item).map .item ++
      historyEntries normalizeItem (index + 1)
        (interruptions.dropWhile (·.historyPosition ≤ index))
        (images.dropWhile (·.historyIndex ≤ index)) items

/-- The order in which history shows the images. -/
def shownBefore (image other : ReturnedImage) : Prop :=
  image.historyIndex < other.historyIndex ∨
    image.historyIndex = other.historyIndex ∧ image.sequence ≤ other.sequence

instance : DecidableRel shownBefore := fun image other =>
  inferInstanceAs (Decidable (image.historyIndex < other.historyIndex ∨
    image.historyIndex = other.historyIndex ∧ image.sequence ≤ other.sequence))

/-- `normalized_history` of a session, over the items of its history and its interrupted turns. -/
def normalizedHistory {Item E : Type} (session : ImageSession)
    (normalizeItem : Nat → Item → List E) (interruptions : List InterruptedTurn)
    (items : List Item) : List (HistoryEntry E) :=
  historyEntries normalizeItem 0 interruptions
    ((session.returnedImages.rows.map Prod.snd).insertionSort shownBefore) items

/-! ## What is promised -/

/-- The bounds of a turn. -/
def WithinBounds (images : List PromptImage) : Prop :=
  images.length ≤ maxImagesPerTurn ∧ (images.map (·.data.length)).sum ≤ maxBytesPerTurn

/-- The images of events, in order. -/
def sentImages (events : List ReturnedImage) : List PromptImage := events.flatMap (·.images)

/-- The longest prefix of images that fits the bounds behind the images sent. -/
structure LongestFitting (sent images kept : List PromptImage) : Prop where
  isPrefix : kept <+: images
  fits : kept ≠ [] → WithinBounds (sent ++ kept)
  longest : ∀ other, other <+: images → WithinBounds (sent ++ other) → other <+: kept

/-- What a call's answer says of the events that it sent: a successful call one event with its
images, a refused one none. -/
def Reports (sentBefore : List PromptImage) : ImageCall → ImageAnswer → List ReturnedImage → Prop
  | .returnImage _ arguments S, .output (.ok _), sent =>
    ∃ paths loaded image, requestedImagePaths arguments = .ok paths ∧
      loadReturnableImages S.files paths = .ok loaded ∧ sent = [image] ∧
      image.images = loaded.map fun loaded => ⟨loaded.mimeType, loaded.data⟩
  | .external _ images _, .kept (.ok count), sent =>
    ∃ kept, LongestFitting sentBefore images kept ∧ count = kept.length ∧
      if kept = [] then sent = [] else ∃ image, sent = [image] ∧ image.images = kept
  | .returnImage .., .output (.error _), sent => sent = []
  | .external .., .kept (.error _), sent => sent = []
  | _, _, _ => False

/-- What holds between the calls of a turn that began in a session. -/
structure ImagesFaithful (turnId : String) (start : ImageSession) (turn : ImageTurn) : Prop where
  bounded : WithinBounds (sentImages turn.events)
  retained : (turn.session.turnImages turnId).Perm turn.events
  others : ∀ id image, image.turnId ≠ turnId →
    (turn.session.returnedImages.find? id = some image ↔ start.returnedImages.find? id = some image)
  shown : ∀ {Item E : Type} (normalizeItem : Nat → Item → List E) interruptions items,
    ∀ image ∈ turn.events,
      .image image ∈ normalizedHistory turn.session normalizeItem interruptions items

/-! ## What is kept of an external tool's images -/

theorem foldl_useImage (used : Nat × Nat) (images : List PromptImage) :
    images.foldl useImage used =
      (used.1 + images.length, used.2 + (images.map (·.data.length)).sum) := by
  induction images generalizing used with
  | nil => rfl
  | cons image images ih =>
    rw [List.foldl_cons, ih, useImage, List.length_cons, List.map_cons, List.sum_cons]
    ext
    · show used.1 + 1 + images.length = _
      omega
    · show used.2 + image.data.length + _ = _
      omega

/-- Each image of a prefix fits behind those before it exactly if the prefix is empty or fits. -/
theorem forall_imageFits_iff {count bytes : Nat} {images : List PromptImage} :
    (∀ before image, before ++ [image] <+: images →
      imageFits (before.foldl useImage (count, bytes)) image = true) ↔
    images = [] ∨ count + images.length ≤ maxImagesPerTurn ∧
      bytes + (images.map (·.data.length)).sum ≤ maxBytesPerTurn := by
  constructor
  · intro h
    obtain rfl | ⟨before, image, rfl⟩ := List.eq_nil_or_concat' images
    · exact .inl rfl
    · have hfits := h before image List.prefix_rfl
      rw [foldl_useImage, imageFits, Bool.and_eq_true, decide_eq_true_eq,
        decide_eq_true_eq] at hfits
      obtain ⟨hcount, hbytes⟩ := hfits
      dsimp only at hcount hbytes
      refine .inr ⟨?_, ?_⟩
      · rw [List.length_append, List.length_singleton]
        omega
      · rw [List.map_append, List.sum_append, List.map_singleton, List.sum_singleton]
        omega
  · rintro h before image ⟨rest, rfl⟩
    obtain h | ⟨hcount, hbytes⟩ := h
    · simp at h
    · rw [List.append_assoc, List.length_append, List.length_append,
        List.length_singleton] at hcount
      rw [List.append_assoc, List.map_append, List.sum_append, List.map_append, List.sum_append,
        List.map_singleton, List.sum_singleton] at hbytes
      rw [foldl_useImage, imageFits, Bool.and_eq_true, decide_eq_true_eq, decide_eq_true_eq]
      exact ⟨by dsimp only; omega, by dsimp only; omega⟩

theorem withinBounds_append {sent images : List PromptImage} :
    WithinBounds (sent ++ images) ↔ sent.length + images.length ≤ maxImagesPerTurn ∧
      (sent.map (·.data.length)).sum + (images.map (·.data.length)).sum ≤ maxBytesPerTurn := by
  rw [WithinBounds, List.length_append, List.map_append, List.sum_append]

theorem keptImages_longest {session : ImageSession} {turnId : String} {sent : List PromptImage}
    (hcount : ((session.turnImages turnId).map (·.imageCount)).sum = sent.length)
    (hbytes : ((session.turnImages turnId).map (·.imageBytes)).sum =
      (sent.map (·.data.length)).sum) (images : List PromptImage) :
    LongestFitting sent images (keptImages session turnId images) := by
  have hkept : ∀ other, other <+: keptImages session turnId images ↔
      other <+: images ∧ (other = [] ∨ WithinBounds (sent ++ other)) := by
    intro other
    rw [keptImages, hcount, hbytes, Greedy.isPrefix_greedy_iff, forall_imageFits_iff,
      withinBounds_append]
  obtain ⟨hself, hfits⟩ := (hkept _).1 List.prefix_rfl
  exact ⟨hself, fun hne => hfits.resolve_left hne, fun other hother hbounds =>
    (hkept other).2 ⟨hother, .inr hbounds⟩⟩

theorem filterMap_toolAttachments (images : List PromptImage) :
    (toolAttachments images).filterMap (·.image) = images := by
  rw [toolAttachments, List.filterMap_map]
  show images.zipIdx.filterMap (fun x => some x.1) = images
  rw [List.filterMap_eq_map']
  exact List.zipIdx_map_fst 0 images

/-! ## What a call does -/

/-- All attachments are images. -/
def ReturnedImage.Whole (image : ReturnedImage) : Prop := image.imageCount = image.images.length

theorem imageCount_eq (image : ReturnedImage) : image.imageCount = image.attachments.length := by
  rw [ReturnedImage.imageCount, ReturnedImage.attachments, List.length_cons, Nat.add_comm]

theorem reply_eq_ok {session : ImageSession} {position : Nat} {turnId callId : String}
    {attachments : List PromptAttachment} {image : ReturnedImage}
    (h : reply session position turnId callId attachments = .ok image) :
    image.turnId = turnId ∧ image.attachments = attachments := by
  cases attachments with
  | nil => cases h
  | cons first more =>
    cases h
    exact ⟨rfl, rfl⟩

theorem filterMap_attachment (loaded : List LoadedImage) :
    (loaded.map (·.attachment)).filterMap (·.image) =
      loaded.map fun image => ⟨image.mimeType, image.data⟩ := by
  rw [List.filterMap_map]
  exact congrFun List.filterMap_eq_map' loaded

theorem length_loaded {files : ImageFiles} {paths : List String} {loaded : List LoadedImage}
    (h : loadReturnableImages files paths = .ok loaded) : loaded.length = paths.length :=
  (mapM_eq_ok_iff.1 h).length_eq.symm

variable {session : ImageSession} {turnId callId : String} {S : ImageSurroundings}
  {sent : List PromptImage}

/-- What a reply of a turn adds, within the bounds. -/
structure Replies (turnId : String) (sent : List PromptImage) (image : ReturnedImage)
    (images : List PromptImage) : Prop where
  turn : image.turnId = turnId
  shows : image.images = images
  whole : image.Whole
  bounded : WithinBounds (sent ++ images)

theorem attachImages_eq_ok {arguments : ImageArguments} {output : String} {image : ReturnedImage}
    (hcount : ((session.turnImages turnId).map (·.imageCount)).sum = sent.length)
    (hbytes : ((session.turnImages turnId).map (·.imageBytes)).sum =
      (sent.map (·.data.length)).sum)
    (h : attachImages session turnId callId arguments S = .ok (output, image)) :
    ∃ paths loaded, requestedImagePaths arguments = .ok paths ∧
      loadReturnableImages S.files paths = .ok loaded ∧
      Replies turnId sent image (loaded.map fun loaded => ⟨loaded.mimeType, loaded.data⟩) := by
  simp only [attachImages, bind_eq_ok, ensure_eq_ok, pure_eq_ok, decide_eq_true_eq, Prod.mk.injEq,
    exists_const] at h
  obtain ⟨paths, hpaths, hfew, loaded, hloaded, hsmall, image', hreply, -, -, rfl⟩ := h
  obtain ⟨hturn, hattachments⟩ := reply_eq_ok hreply
  have himages : image'.images = loaded.map fun image => ⟨image.mimeType, image.data⟩ := by
    rw [ReturnedImage.images, hattachments, filterMap_attachment]
  refine ⟨paths, loaded, hpaths, hloaded, hturn, himages, ?_, withinBounds_append.2 ⟨?_, ?_⟩⟩
  · rw [ReturnedImage.Whole, imageCount_eq, himages, hattachments, List.length_map, List.length_map]
  · rw [List.length_map, length_loaded hloaded, ← hcount]
    exact hfew
  · rw [List.map_map, ← hbytes]
    exact hsmall

theorem execute_cases (session : ImageSession) (turnId callId : String)
    (arguments : ImageArguments) (S : ImageSurroundings) :
    (∃ error, execute session turnId callId arguments S = (.error error, session, [])) ∨
      ∃ output image, attachImages session turnId callId arguments S = .ok (output, image) ∧
        execute session turnId callId arguments S =
          (.ok output, session.retain callId image, [image]) := by
  rw [execute]
  split
  · exact .inl ⟨_, rfl⟩
  · cases attachImages session turnId callId arguments S with
    | error error => exact .inl ⟨error, rfl⟩
    | ok result => exact .inr ⟨result.1, result.2, rfl, rfl⟩

theorem retainExternalToolImages_cases (session : ImageSession) (turnId callId : String)
    (images : List PromptImage) (S : ImageSurroundings) :
    (∃ error, retainExternalToolImages session turnId callId images S =
        (.error error, session, [])) ∨
      keptImages session turnId images = [] ∧
        retainExternalToolImages session turnId callId images S = (.ok 0, session, []) ∨
      keptImages session turnId images ≠ [] ∧ ∃ image,
        reply session S.historyPosition turnId callId
          (toolAttachments (keptImages session turnId images)) = .ok image ∧
        retainExternalToolImages session turnId callId images S =
          (.ok (keptImages session turnId images).length, session.retain callId image,
            [image]) := by
  rw [retainExternalToolImages]
  split
  · exact .inl ⟨_, rfl⟩
  split
  · next hnone => exact .inr (.inl ⟨hnone, rfl⟩)
  · next hsome =>
    cases hreply : reply session S.historyPosition turnId callId
        (toolAttachments (keptImages session turnId images)) with
    | error error => exact .inl ⟨error, rfl⟩
    | ok image =>
      dsimp only
      split
      · exact .inr (.inr ⟨hsome, image, rfl, rfl⟩)
      · exact .inl ⟨_, rfl⟩

/-- A call reports what it sent, and either it sent nothing and leaves the session as it was, or it
retains the reply that it sent. -/
theorem performImageCall_cases (call : ImageCall)
    (hcount : ((session.turnImages turnId).map (·.imageCount)).sum = sent.length)
    (hbytes : ((session.turnImages turnId).map (·.imageBytes)).sum =
      (sent.map (·.data.length)).sum) :
    ∃ answer session' events, performImageCall session turnId call = (answer, session', events) ∧
      Reports sent call answer events ∧
      (session' = session ∧ events = [] ∨ ∃ image images,
        session' = session.retain call.callId image ∧ events = [image] ∧
          Replies turnId sent image images) := by
  cases call with
  | returnImage callId arguments S =>
    rw [performImageCall]
    obtain ⟨error, hexecute⟩ | ⟨output, image, hattach, hexecute⟩ :=
      execute_cases session turnId callId arguments S
    · rw [hexecute]
      exact ⟨_, _, _, rfl, rfl, .inl ⟨rfl, rfl⟩⟩
    · obtain ⟨paths, loaded, hpaths, hloaded, hreplies⟩ := attachImages_eq_ok hcount hbytes hattach
      rw [hexecute]
      exact ⟨_, _, _, rfl, ⟨paths, loaded, image, hpaths, hloaded, rfl, hreplies.shows⟩,
        .inr ⟨image, _, rfl, rfl, hreplies⟩⟩
  | external callId images S =>
    have hlongest := keptImages_longest hcount hbytes images
    rw [performImageCall]
    obtain ⟨error, hretain⟩ | ⟨hnone, hretain⟩ | ⟨hsome, image, hreply, hretain⟩ :=
      retainExternalToolImages_cases session turnId callId images S
    · rw [hretain]
      exact ⟨_, _, _, rfl, rfl, .inl ⟨rfl, rfl⟩⟩
    · rw [hretain]
      refine ⟨_, _, _, rfl, ⟨_, hlongest, ?_, ?_⟩, .inl ⟨rfl, rfl⟩⟩
      · rw [hnone]
        rfl
      · rw [if_pos hnone]
    · obtain ⟨hturn, hattachments⟩ := reply_eq_ok hreply
      have himages : image.images = keptImages session turnId images := by
        rw [ReturnedImage.images, hattachments, filterMap_toolAttachments]
      have hwhole : image.Whole := by
        rw [ReturnedImage.Whole, imageCount_eq, himages, hattachments, toolAttachments,
          List.length_map, List.length_zipIdx]
      rw [hretain]
      refine ⟨_, _, _, rfl, ⟨_, hlongest, rfl, ?_⟩,
        .inr ⟨image, _, rfl, rfl, hturn, himages, hwhole, hlongest.fits hsome⟩⟩
      rw [if_neg hsome]
      exact ⟨image, rfl, himages⟩

/-! ## Runs -/

/-- What carries the promises from call to call. -/
structure ImagesInv (turnId : String) (start : ImageSession) (turn : ImageTurn) : Prop where
  bounded : WithinBounds (sentImages turn.events)
  retained : (turn.session.turnImages turnId).Perm turn.events
  others : ∀ id image, image.turnId ≠ turnId →
    (turn.session.returnedImages.find? id = some image ↔ start.returnedImages.find? id = some image)
  whole : ∀ image ∈ turn.events, image.Whole

theorem length_sentImages {events : List ReturnedImage} (hwhole : ∀ image ∈ events, image.Whole) :
    (events.map (·.imageCount)).sum = (sentImages events).length := by
  rw [sentImages, List.length_flatMap]
  exact congrArg List.sum (List.map_congr_left hwhole)

theorem sentImages_append (events later : List ReturnedImage) :
    sentImages (events ++ later) = sentImages events ++ sentImages later := List.flatMap_append

theorem bytes_sentImages (events : List ReturnedImage) :
    (events.map (·.imageBytes)).sum = ((sentImages events).map (·.data.length)).sum := by
  induction events with
  | nil => rfl
  | cons image events ih =>
    have hsent : sentImages (image :: events) = image.images ++ sentImages events := rfl
    rw [List.map_cons, List.sum_cons, ih, hsent, List.map_append, List.sum_append]
    rfl

theorem rows_retain {image : ReturnedImage}
    (hfresh : session.returnedImages.find? callId = none) :
    (session.retain callId image).returnedImages.rows =
      session.returnedImages.rows ++ [(callId, image)] := by
  rw [ImageSession.retain, Table.upsert, hfresh]
  exact Table.rows_insertOrIgnore hfresh image

theorem turnImages_retain {image : ReturnedImage}
    (hfresh : session.returnedImages.find? callId = none) (hturn : image.turnId = turnId) :
    (session.retain callId image).turnImages turnId = session.turnImages turnId ++ [image] := by
  rw [ImageSession.turnImages, rows_retain hfresh, List.map_append, List.filter_append]
  exact congrArg _ (List.filter_cons_of_pos (decide_eq_true hturn))

theorem find?_retain (session : ImageSession) (callId : String) (image : ReturnedImage)
    (id : String) : (session.retain callId image).returnedImages.find? id =
      if id = callId then some image else session.returnedImages.find? id := by
  rw [ImageSession.retain, Table.find?_upsert]
  cases session.returnedImages.find? callId with
  | none => rfl
  | some old => rfl

/-- The bounds are checked on as much as was sent. -/
theorem ImagesInv.used {start : ImageSession} {turn : ImageTurn} (h : ImagesInv turnId start turn) :
    ((turn.session.turnImages turnId).map (·.imageCount)).sum = (sentImages turn.events).length ∧
      ((turn.session.turnImages turnId).map (·.imageBytes)).sum =
        ((sentImages turn.events).map (·.data.length)).sum := by
  constructor
  · rw [(h.retained.map _).sum_eq, length_sentImages h.whole]
  · rw [(h.retained.map _).sum_eq, bytes_sentImages]

/-- A call with the id of no retained images keeps the promises. -/
theorem ImagesInv.step {start : ImageSession} {turn : ImageTurn} {call : ImageCall}
    (h : ImagesInv turnId start turn)
    (hfresh : turn.session.returnedImages.find? call.callId = none) :
    ImagesInv turnId start (turn.after turnId call) := by
  obtain ⟨hcount, hbytes⟩ := h.used
  obtain ⟨answer, session', events, hperform, -, hcases⟩ :=
    performImageCall_cases call hcount hbytes
  have hafter : turn.after turnId call = ⟨session', turn.events ++ events⟩ := by
    rw [ImageTurn.after, hperform]
  rw [hafter]
  obtain ⟨rfl, rfl⟩ | ⟨image, images, rfl, rfl, hreplies⟩ := hcases
  · rw [List.append_nil]
    exact h
  · refine ⟨?_, ?_, ?_, ?_⟩
    · have hsent : sentImages [image] = images := by
        rw [← hreplies.shows]
        exact List.append_nil _
      rw [sentImages_append, hsent]
      exact hreplies.bounded
    · rw [turnImages_retain hfresh hreplies.turn]
      exact h.retained.append_right [image]
    · intro id other hother
      rw [find?_retain, ← h.others id other hother]
      split
      · next hid =>
        rw [hid, hfresh]
        refine iff_of_false (fun heq => hother ?_) fun hnone => by cases hnone
        rw [← Option.some.inj heq]
        exact hreplies.turn
      · exact Iff.rfl
    · intro other hother
      obtain hother | hother := List.mem_append.1 hother
      · exact h.whole other hother
      · rw [List.mem_singleton.1 hother]
        exact hreplies.whole

/-- Later history shows each image that the session retains. -/
theorem image_mem_historyEntries {Item E : Type} (normalizeItem : Nat → Item → List E)
    {image : ReturnedImage} (items : List Item) (index : Nat)
    (interruptions : List InterruptedTurn) (images : List ReturnedImage) (h : image ∈ images) :
    .image image ∈ historyEntries normalizeItem index interruptions images items := by
  induction items generalizing index interruptions images with
  | nil => exact List.mem_append_left _ (List.mem_map_of_mem h)
  | cons item items ih =>
    rw [historyEntries]
    rw [← List.takeWhile_append_dropWhile (p := (·.historyIndex ≤ index)) (l := images)] at h
    obtain h | h := List.mem_append.1 h
    · refine List.mem_append_left _ (List.mem_append_left _ (List.mem_append_right _ ?_))
      exact List.mem_map_of_mem h
    · exact List.mem_append_right _ (ih _ _ _ h)

theorem ImagesInv.faithful {start : ImageSession} {turn : ImageTurn}
    (h : ImagesInv turnId start turn) : ImagesFaithful turnId start turn where
  bounded := h.bounded
  retained := h.retained
  others := h.others
  shown := by
    intro Item E normalizeItem interruptions items image himage
    have hretained := (List.mem_filter.1 (h.retained.mem_iff.2 himage)).1
    exact image_mem_historyEntries normalizeItem items 0 interruptions _
      ((List.perm_insertionSort shownBefore _).mem_iff.2 hretained)

/-- In a turn whose calls use no id of retained images, what is sent stays within the bounds, is
retained and is shown by later history, and each call reports what it sends. -/
theorem returned_images_faithful (turnId : String) (start : ImageSession) (calls : List ImageCall)
    (turn : ImageTurn) (hstart : start.turnImages turnId = [])
    (hrun : (freshImageTurn turnId).Run ⟨start, []⟩ calls turn) :
    ImagesFaithful turnId start turn ∧ ∀ call, Reports (sentImages turn.events) call
      (performImageCall turn.session turnId call).1
      (performImageCall turn.session turnId call).2.2 := by
  have hinv : ImagesInv turnId start turn := by
    refine hrun.invariant (fun hstep h => ?_) ⟨⟨Nat.zero_le _, Nat.zero_le _⟩, ?_, ?_, ?_⟩
    · obtain ⟨hfresh, rfl⟩ := hstep
      exact h.step hfresh
    · rw [hstart]
    · exact fun _ _ _ => Iff.rfl
    · exact fun _ h => absurd h List.not_mem_nil
  refine ⟨hinv.faithful, fun call => ?_⟩
  obtain ⟨hcount, hbytes⟩ := hinv.used
  obtain ⟨answer, session', events, hperform, hreports, -⟩ :=
    performImageCall_cases call hcount hbytes
  rw [hperform]
  exact hreports

/-- A session without images. -/
def noImages : ImageSession := ⟨"p", "m", ∅⟩

/-- An external tool answers the call `c` with a number of images. -/
def toolImages (count : Nat) : ImageCall :=
  .external "c" (List.replicate count ⟨"image/png", []⟩)
    ⟨0, ⟨.error "", fun _ _ => .error "", fun _ => .error ""⟩, true, false⟩

/-- The turn after one answer with one image. -/
def oneImage : ImageTurn := ImageTurn.after ⟨noImages, []⟩ "t" (toolImages 1)

theorem returned_images_faithful_one :
    ImagesFaithful "t" noImages oneImage ∧ ∀ call, Reports (sentImages oneImage.events) call
      (performImageCall oneImage.session "t" call).1
      (performImageCall oneImage.session "t" call).2.2 :=
  returned_images_faithful "t" noImages [toolImages 1] oneImage rfl (.single ⟨rfl, rfl⟩)

/-- Three answers under one id return nine images in a turn. -/
theorem repeated_id_exceeds_bounds :
    ¬∀ (turnId : String) (start : ImageSession) (calls : List ImageCall) (turn : ImageTurn),
      start.turnImages turnId = [] → (imageTurn turnId).Run ⟨start, []⟩ calls turn →
      ImagesFaithful turnId start turn ∧ ∀ call, Reports (sentImages turn.events) call
        (performImageCall turn.session turnId call).1
        (performImageCall turn.session turnId call).2.2 := by
  intro h
  have hrun : (imageTurn "t").Run ⟨noImages, []⟩ [toolImages 1, toolImages 7, toolImages 1]
      ((oneImage.after "t" (toolImages 7)).after "t" (toolImages 1)) :=
    .cons rfl (.cons rfl (.single rfl))
  have hnine : (sentImages ((oneImage.after "t" (toolImages 7)).after "t"
      (toolImages 1)).events).length = 9 := by decide +kernel
  have hbounded := (h _ _ _ _ rfl hrun).1.bounded.1
  rw [hnine] at hbounded
  exact absurd hbounded (by decide)

end Nakode.Tools
