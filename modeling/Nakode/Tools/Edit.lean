import Nakode.Lib.Outcome
import Nakode.Lib.Splice
import Nakode.Lib.Utf8

/-!
# The edit tool

One call replaces several texts of one file. The file is read as a whole, its line ends become line
feeds, each entry's old text is looked up in this form or else in a normalized copy of it, and the
replacements are made from the last to the first. Then the line ends become those of the file
again, and the file is replaced through a temporary file beside it. The texts are lists of
characters, and positions count characters.
-/

namespace Nakode.Tools

open Outcome (ensure need)
open Splice (Edit)

/-- What the Unicode crates compute: the extended grapheme clusters of a text, and its form under
compatibility composition. -/
structure Unicode where
  graphemes : List Char → List (List Char)
  nfkc : List Char → List Char

/-! ## Line ends -/

/-- `replace("\r\n", "\n")`. -/
def replaceCrlf : List Char → List Char
  | '\r' :: '\n' :: cs => '\n' :: replaceCrlf cs
  | c :: cs => c :: replaceCrlf cs
  | [] => []

/-- `replace("\r\n", "\n").replace('\r', "\n")`. -/
def toLf (cs : List Char) : List Char :=
  (replaceCrlf cs).map fun c => if c = '\r' then '\n' else c

/-- `contains("\r\n")`. -/
def containsCrlf : List Char → Bool
  | '\r' :: '\n' :: _ => true
  | _ :: cs => containsCrlf cs
  | [] => false

def lineEnding (cs : List Char) : List Char := if containsCrlf cs then ['\r', '\n'] else ['\n']

/-- The text with the given line ends: `replace('\n', "\r\n")`, or the text itself. -/
def restyle (ending : List Char) (cs : List Char) : List Char :=
  cs.flatMap fun c => if c = '\n' then ending else [c]

/-- `strip_prefix('\u{feff}')`: the byte-order mark, and the content after it. -/
def stripBom : List Char → List Char × List Char
  | '\uFEFF' :: cs => (['\uFEFF'], cs)
  | cs => ([], cs)

/-! ## The normalized copy -/

def normalizeCharacter (c : Char) : Char :=
  if c ∈ ['\u2018', '\u2019', '\u201A', '\u201B'] then '\''
  else if c ∈ ['\u201C', '\u201D', '\u201E', '\u201F'] then '"'
  else if c ∈ ['\u2010', '\u2011', '\u2012', '\u2013', '\u2014', '\u2015', '\u2212'] then '-'
  else if c ∈ ['\u00A0', '\u2002', '\u2003', '\u2004', '\u2005', '\u2006', '\u2007', '\u2008',
      '\u2009', '\u200A', '\u202F', '\u205F', '\u3000'] then ' '
  else c

/-- The text with, for each of its positions, the position of the original it stands for. -/
structure NormalizedText where
  text : List Char
  originalBoundaries : List (Option Nat)

/-- A piece of the original and its normal form. -/
structure TextUnit where
  start : Nat
  stop : Nat
  text : List Char
  deriving DecidableEq

namespace NormalizedText

def setBoundary (normalized : NormalizedText) (at_ : Nat) : NormalizedText :=
  { normalized with
    originalBoundaries := normalized.originalBoundaries.set normalized.text.length (some at_) }

/-- `Vec::resize` with `None`. -/
def resize (boundaries : List (Option Nat)) (n : Nat) : List (Option Nat) :=
  boundaries.take n ++ List.replicate (n - boundaries.length) none

def appendNormalizedUnit (normalized : NormalizedText) (unit : TextUnit) : NormalizedText :=
  let started := normalized.setBoundary unit.start
  let text := started.text ++ unit.text
  NormalizedText.setBoundary
    ⟨text, resize started.originalBoundaries (text.length + 1)⟩ unit.stop

end NormalizedText

/-- `split_inclusive('\n')`. -/
def splitInclusive : List Char → List (List Char)
  | [] => []
  | c :: cs =>
    if c = '\n' then [c] :: splitInclusive cs
    else match splitInclusive cs with
      | [] => [[c]]
      | segment :: segments => (c :: segment) :: segments

/-- `strip_suffix('\n')`: the line, and whether a line feed ended it. -/
def stripNewline (segment : List Char) : List Char × Bool :=
  if segment.getLast? = some '\n' then (segment.dropLast, true) else (segment, false)

/-- `grapheme_indices`, each cluster with its normal form. -/
def graphemeUnits (U : Unicode) (start : Nat) : List (List Char) → List TextUnit
  | [] => []
  | grapheme :: graphemes =>
    ⟨start, start + grapheme.length, (U.nfkc grapheme).map normalizeCharacter⟩ ::
      graphemeUnits U (start + grapheme.length) graphemes

/-- The clusters of a line, less those at its end that are white space. -/
def lineUnits (U : Unicode) (lineStart : Nat) (line : List Char) : List TextUnit :=
  (graphemeUnits U lineStart (U.graphemes line)).rdropWhile (·.text.all Text.isWhitespace)

def normalizeSegment (U : Unicode) (state : NormalizedText × Nat) (segment : List Char) :
    NormalizedText × Nat :=
  let (normalized, lineStart) := state
  let (line, hasNewline) := stripNewline segment
  let appended := (lineUnits U lineStart line).foldl .appendNormalizedUnit normalized
  let lineEnd := lineStart + line.length
  let ended := appended.setBoundary lineEnd
  (if hasNewline then ended.appendNormalizedUnit ⟨lineEnd, lineEnd + 1, ['\n']⟩ else ended,
    lineStart + segment.length)

def normalizeForFuzzyMatch (U : Unicode) (value : List Char) : NormalizedText :=
  ((splitInclusive value).foldl (normalizeSegment U) (⟨[], [some 0]⟩, 0)).1.setBoundary value.length

/-! ## Where an old text is -/

/-- `match_indices`: occurrences that do not overlap, in order. The characters of an occurrence that
was found are skipped. -/
def matchIndices (pattern : List Char) (at_ skip : Nat) : List Char → List Nat
  | [] => []
  | c :: cs =>
    match skip with
    | skip + 1 => matchIndices pattern (at_ + 1) skip cs
    | 0 =>
      if pattern.isPrefixOf (c :: cs) then
        at_ :: matchIndices pattern (at_ + 1) (pattern.length - 1) cs
      else matchIndices pattern (at_ + 1) 0 cs

def fuzzyMatches (U : Unicode) (contents : NormalizedText) (oldText : List Char) :
    List (Nat × Nat) :=
  let normalizedOldText := (normalizeForFuzzyMatch U oldText).text
  if normalizedOldText = [] then []
  else
    ((matchIndices normalizedOldText 0 0 contents.text).filterMap fun start => do
      let originalStart ← (contents.originalBoundaries[start]?).join
      let originalEnd ← (contents.originalBoundaries[start + normalizedOldText.length]?).join
      some (originalStart, originalEnd - originalStart)).destutter (· ≠ ·)

def duplicateMatchError (contents : List Char) (indexes : List Nat) (path : String)
    (editIndex : Nat) (matchKind : String) : String :=
  let lines := ", ".intercalate ((indexes.take 8).map fun index =>
    toString ((contents.take index).count '\n' + 1))
  s!"edit {editIndex + 1} matched multiple {matchKind} in {path} at lines {lines}; " ++
    "keep oldText small but add enough surrounding context to make it unique"

def uniqueMatch (U : Unicode) (contents : List Char) (normalizedContents : NormalizedText)
    (oldText : List Char) (path : String) (editIndex totalEdits : Nat) :
    Except String (Nat × Nat) :=
  let exact_ := matchIndices oldText 0 0 contents
  if 1 < exact_.length then
    .error (duplicateMatchError contents exact_ path editIndex "locations")
  else
    let fuzzy := fuzzyMatches U normalizedContents oldText
    if 1 < fuzzy.length then
      .error (duplicateMatchError contents (fuzzy.map (·.1)) path editIndex "normalized locations")
    else match exact_, fuzzy with
      | [index], _ => .ok (index, oldText.length)
      | _, [matched] => .ok matched
      | _, _ =>
        let label := if totalEdits = 1 then "edit" else s!"edit {editIndex + 1}"
        .error (s!"{label} could not find oldText in {path}; " ++
          "re-read the surrounding lines before retrying")

/-! ## The call -/

/-- An entry's arguments, absent where they are no strings. -/
structure EditEntry where
  oldText : Option (List Char)
  newText : Option (List Char)
  deriving DecidableEq

structure EditArguments where
  path : Option (List Char)
  edits : Option (List EditEntry)
  deriving DecidableEq

def requiredString (value : Option (List Char)) (name : String) : Except String (List Char) :=
  need (value.filter (· ≠ [])) s!"missing non-empty string argument {name}"

/-- The steps that replace a file, in order. -/
inductive WriteStep where
  | createDirectory | createTemporary | writeTemporary | flushTemporary | setPermissions
  | syncTemporary | rename | syncTask | syncDirectory
  deriving DecidableEq

/-- A path as it is printed, and its parent's. -/
structure Target where
  path : String
  parent : Option String

/-- The error of a step, around the error of the system. -/
def WriteStep.describe (path parent error : String) : WriteStep → String
  | createDirectory => s!"failed to create {parent}: {error}"
  | createTemporary => s!"failed to create temporary file: {error}"
  | writeTemporary => s!"failed to write temporary file: {error}"
  | flushTemporary => s!"failed to flush temporary file: {error}"
  | setPermissions => s!"failed to preserve file permissions: {error}"
  | syncTemporary => s!"failed to sync temporary file: {error}"
  | rename => s!"failed to replace {path}: {error}"
  | syncTask => s!"directory sync task failed: {error}"
  | syncDirectory => s!"failed to sync directory {parent}: {error}"

/-- What the call meets: the answers of the cancellation token, question by question, the workspace
path and whether the file can be read as the system has them, the errors of the steps that write,
and the unified diff of two texts. -/
structure Surroundings where
  cancelled : Nat → Bool
  resolveWorkspacePath : List Char → Except String Target
  read : Except String Unit
  writeFailure : WriteStep → Option String
  unifiedDiff : String → List Char → List Char → String

/-- The steps before the temporary file takes the file's place. -/
def WriteStep.preparing : List WriteStep :=
  [.createDirectory, .createTemporary, .writeTemporary, .flushTemporary, .setPermissions,
    .syncTemporary]

/-- The first of the steps that fails, with its error. -/
def failureOf (writeFailure : WriteStep → Option String) (path parent : String)
    (steps : List WriteStep) : Option String :=
  steps.findSome? fun step => (writeFailure step).map fun error => step.describe path parent error

/-- The result, and the file afterwards. -/
def atomicWrite (writeFailure : WriteStep → Option String) (cancelled : Bool) (target : Target)
    (content file : List Char) : Except String Unit × List Char :=
  match target.parent with
  | none => (.error "write target has no parent directory", file)
  | some parent =>
    match failureOf writeFailure target.path parent WriteStep.preparing with
    | some error => (.error error, file)
    | none =>
      if cancelled then (.error "write interrupted", file)
      else match failureOf writeFailure target.path parent [.rename] with
        | some error => (.error error, file)
        | none =>
          match failureOf writeFailure target.path parent [.syncTask, .syncDirectory] with
          | some error => (.error error, content)
          | none => (.ok (), content)

def maxToolOutputBytes : Nat := 128 * 1024

/-- The first bytes of an output, with a replacement character for one that is cut. -/
def truncateOutput (output : String) : String :=
  if Text.len output ≤ maxToolOutputBytes then output
  else
    let kept := Text.utf8Head output maxToolOutputBytes
    kept ++ (if Text.len kept < maxToolOutputBytes then "\uFFFD" else "") ++
      "\n[output truncated]"

/-- One entry's region and replacement. -/
def matchEdit (U : Unicode) (cancelled : Bool) (original : List Char) (path : String)
    (totalEdits editIndex : Nat) (entry : EditEntry) : Except String (Edit Char) := do
  ensure (!cancelled) "edit interrupted"
  let oldText ← requiredString entry.oldText "oldText"
  let newText ← need entry.newText s!"edit {editIndex + 1} is missing string argument newText"
  let (index, length) ← uniqueMatch U original (normalizeForFuzzyMatch U original) (toLf oldText)
    path editIndex totalEdits
  return ⟨index, length, toLf newText⟩

/-- The entries from an index on. -/
def matchEdits (U : Unicode) (cancelled : Nat → Bool) (original : List Char) (path : String)
    (totalEdits : Nat) : Nat → List EditEntry → Except String (List (Edit Char))
  | _, [] => .ok []
  | editIndex, entry :: entries => do
    let matched ← matchEdit U (cancelled (editIndex + 1)) original path totalEdits editIndex entry
    let rest ← matchEdits U cancelled original path totalEdits (editIndex + 1) entries
    return matched :: rest

/-- One of two neighbours ends after the other begins. -/
def overlapping : List (Edit Char) → Bool
  | first :: second :: rest =>
    decide (second.index < first.index + first.length) || overlapping (second :: rest)
  | _ => false

/-- `sort_by_key(|edit| edit.index)`. -/
def sortByIndex (edits : List (Edit Char)) : List (Edit Char) :=
  edits.insertionSort fun a b => a.index ≤ b.index

/-- What the call is about to write. -/
structure Plan where
  target : Target
  matched : List (Edit Char)
  content : List Char
  output : String

/-- The call up to the write. -/
def planEdit (U : Unicode) (S : Surroundings) (arguments : EditArguments) (file : List Char) :
    Except String Plan := do
  ensure (!S.cancelled 0) "edit interrupted"
  let supplied ← requiredString arguments.path "path"
  let target ← S.resolveWorkspacePath supplied
  let edits ← need (arguments.edits.filter (· ≠ [])) "edit requires a non-empty edits array"
  let path := String.ofList supplied
  S.read.mapError fun error => s!"could not edit {path}: {error}"
  let (bom, withoutBom) := stripBom file
  let original := toLf withoutBom
  let matched ← matchEdits U S.cancelled original path edits.length 0 edits
  let matched := sortByIndex matched
  ensure (!overlapping matched)
    "edit replacements overlap; merge nearby changes into one edits[] entry"
  let updated := Splice.applyBack matched original
  ensure (updated ≠ original)
    s!"edit made no changes to {path}; oldText and newText resolve to identical content"
  let diff := S.unifiedDiff path original updated
  ensure (!S.cancelled (edits.length + 1)) "edit interrupted"
  return {
    target, matched
    content := bom ++ restyle (lineEnding withoutBom) updated
    output := truncateOutput
      (s!"Successfully replaced {edits.length} block(s) in {path}.\n\n{diff}") }

/-- `edit_file`: its result, and the file afterwards. -/
def editFile (U : Unicode) (S : Surroundings) (arguments : EditArguments) (file : List Char) :
    Except String String × List Char :=
  match planEdit U S arguments file with
  | .error error => (.error error, file)
  | .ok plan =>
    let cancelled := S.cancelled ((arguments.edits.getD []).length + 2)
    match atomicWrite S.writeFailure cancelled plan.target plan.content file with
    | (.error error, file') => (.error error, file')
    | (.ok (), file') => (.ok plan.output, file')

end Nakode.Tools
