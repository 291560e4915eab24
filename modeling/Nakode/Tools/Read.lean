import Nakode.Lib.Lines
import Nakode.Tools.Edit

/-!
# Reading a file

The tool splits a file at its line feeds, takes the lines from an offset on, and cuts them where a
bound on lines or on bytes is met, so that complete lines are shown. A notice behind them names the
offset to continue at. Continued so, the reads show each line of the file once
(`continued_reads_lossless_iff`), unless a line that has another one behind it fills the bound: with
its line feed it does not fit, and the read that begins there shows nothing.
-/

namespace Nakode.Tools

open Outcome
open Lines (join terminated pieces)
open String (utf8Len)

/-! ## `truncate_head` -/

def defaultMaxLines : Nat := 2000
def defaultMaxBytes : Nat := 50 * 1024

inductive TruncatedBy where
  | lines
  | bytes
  deriving DecidableEq

structure Truncation where
  content : List Char
  totalLines : Nat
  outputLines : Nat
  truncatedBy : Option TruncatedBy
  firstLineExceedsLimit : Bool
  deriving DecidableEq

/-- The number of lines that `str::lines` has: those of the pieces. -/
def linesCount (input : List Char) : Nat := (splitInclusive input).length

/-- The loop over the pieces: the content, the number of lines in it, and what ended it. -/
def truncateLoop (maxLines maxBytes : Nat) (content : List Char) (outputLines : Nat) :
    List (List Char) → List Char × Nat × Option TruncatedBy
  | [] => (content, outputLines, none)
  | line :: rest =>
    if outputLines = maxLines then (content, outputLines, some .lines)
    else if maxBytes < utf8Len content + utf8Len line then (content, outputLines, some .bytes)
    else truncateLoop maxLines maxBytes (content ++ line) (outputLines + 1) rest

def truncateHead (input : List Char) (maxLines maxBytes : Nat) : Truncation :=
  let totalLines := max (linesCount input) (if input = [] then 0 else 1)
  if utf8Len input ≤ maxBytes ∧ totalLines ≤ maxLines then
    ⟨input, totalLines, totalLines, none, false⟩
  else
    let (content, outputLines, truncatedBy) :=
      truncateLoop maxLines maxBytes [] 0 (splitInclusive input)
    let truncatedBy :=
      if truncatedBy = none ∧ utf8Len content < utf8Len input then some .bytes else truncatedBy
    ⟨content, totalLines, outputLines, truncatedBy, outputLines = 0 ∧ input ≠ []⟩

/-! ## `read_file` -/

def maxFileReadBytes : Nat := 8 * 1024 * 1024

/-- The arguments: a path if it is a string, an offset if there is one, with its number if it is
one, and a limit if it is a number. -/
structure ReadArguments where
  path : Option (List Char)
  offset : Option (Option Nat)
  limit : Option Nat

structure Metadata where
  isDir : Bool
  len : Nat

/-- What the call meets: the workspace path, the file's metadata and its bytes as the system has
them, and whether the call is cancelled after the read. -/
structure FileSurroundings (Path : Type) where
  resolveWorkspacePath : List Char → Except String Path
  metadata : Path → Except String Metadata
  read : Path → Except String ByteArray
  cancelled : Bool

def optionalU64 (value : Option (Option Nat)) (name : String) (default : Nat) : Except String Nat :=
  match value with
  | none => .ok default
  | some value => need value s!"argument {name} must be a non-negative integer"

/-- What stands behind the lines shown. -/
inductive Notice where
  | showing (offset displayedEnd totalLines : Nat) (truncatedBy : TruncatedBy)
  | more (remaining offset : Nat)
  deriving DecidableEq

/-- The offset that the notice names. -/
def Notice.next : Notice → Nat
  | showing _ displayedEnd _ _ => displayedEnd + 1
  | more _ offset => offset

def TruncatedBy.reason : TruncatedBy → String
  | lines => s!"{defaultMaxLines} line limit"
  | bytes => s!"{defaultMaxBytes}-byte limit"

def Notice.text : Notice → String
  | showing offset displayedEnd totalLines truncatedBy =>
    s!"\n\n[Showing lines {offset}-{displayedEnd} of {totalLines} ({truncatedBy.reason}). " ++
      s!"Use offset={displayedEnd + 1} to continue.]"
  | more remaining offset =>
    s!"\n\n[{remaining} more lines in file. Use offset={offset} to continue.]"

/-- What a read puts out: a line too long to show, or lines with a notice where there are more. -/
inductive ReadOutput where
  | oversized (offset : Nat)
  | shown (content : List Char) (notice : Option Notice)
  deriving DecidableEq

def ReadOutput.text : ReadOutput → String
  | oversized offset =>
    s!"[Line {offset} exceeds the {defaultMaxBytes}-byte read limit. " ++
      "Use bash with a byte-bounded command to inspect it.]"
  | shown content notice => String.ofList content ++ (notice.map Notice.text).getD ""

/-- The lines from an offset on. -/
def readLines (lines : List (List Char)) (offset : Nat) (requestedLimit : Option Nat) :
    ReadOutput :=
  let totalLines := lines.length
  let start := offset - 1
  let stop := requestedLimit.elim totalLines fun limit => min (start + limit) totalLines
  let truncation := truncateHead (join '\n' ((lines.take stop).drop start)) defaultMaxLines
    defaultMaxBytes
  if truncation.firstLineExceedsLimit then .oversized offset
  else
    let displayedEnd := offset + truncation.outputLines - 1
    .shown truncation.content (match truncation.truncatedBy with
      | some truncatedBy => some (.showing offset displayedEnd totalLines truncatedBy)
      | none => if stop < totalLines then some (.more (totalLines - stop) (stop + 1)) else none)

variable {Path : Type}

def readOutput (S : FileSurroundings Path) (arguments : ReadArguments) :
    Except String ReadOutput := do
  let supplied ← requiredString arguments.path "path"
  let path ← S.resolveWorkspacePath supplied
  let supplied := String.ofList supplied
  let metadata ← (S.metadata path).mapError fun error => s!"could not read {supplied}: {error}"
  ensure (!metadata.isDir) s!"{supplied} is a directory; use ls to list it"
  ensure (metadata.len ≤ maxFileReadBytes)
    s!"{supplied} is {metadata.len} bytes; read is limited to {maxFileReadBytes} bytes"
  let contents ← (S.read path).mapError fun error => s!"could not read {supplied}: {error}"
  ensure (!S.cancelled) "read interrupted"
  ensure (!contents.data.contains 0)
    s!"{supplied} appears to be binary; use vision for supported images"
  let text ← need contents.utf8Decode? s!"{supplied} is not valid UTF-8"
  let lines := text.toList.splitOn '\n'
  let offset := max (← optionalU64 arguments.offset "offset" 1) 1
  ensure (offset ≤ lines.length)
    s!"offset {offset} is beyond the end of {supplied} ({lines.length} lines)"
  return readLines lines offset arguments.limit

def readFile (S : FileSurroundings Path) (arguments : ReadArguments) : Except String String :=
  (readOutput S arguments).map ReadOutput.text

/-! ## What is shown -/

theorem splitInclusive_eq (input : List Char) :
    splitInclusive input = Lines.splitInclusive '\n' input := by
  induction input with
  | nil => rfl
  | cons c input ih =>
    rw [splitInclusive, Lines.splitInclusive, ih]
    cases Lines.splitInclusive '\n' input with
    | nil => rfl
    | cons piece rest => rfl

/-- What the loop has taken when it ends: pieces within both bounds, and all of them or one that no
bound was left for. -/
structure Taken (maxLines maxBytes : Nat) (content : List Char) (outputLines : Nat)
    (rest : List (List Char)) (result : List Char × Nat × Option TruncatedBy) (k : Nat) : Prop where
  le : k ≤ rest.length
  text : result.1 = content ++ (rest.take k).flatten
  count : result.2.1 = outputLines + k
  bytes : utf8Len result.1 ≤ maxBytes
  within : outputLines ≤ maxLines → result.2.1 ≤ maxLines
  full : result.2.2 = none → k = rest.length
  stopped : ∀ by_, result.2.2 = some by_ → k < rest.length
  oversized : ∀ line ∈ rest.head?, result.2.2 ≠ none → k = 0 → outputLines < maxLines →
    maxBytes < utf8Len content + utf8Len line

theorem taken_truncateLoop (maxLines : Nat) {maxBytes : Nat} (content : List Char)
    (outputLines : Nat) (rest : List (List Char)) (hbytes : utf8Len content ≤ maxBytes) :
    ∃ k, Taken maxLines maxBytes content outputLines rest
      (truncateLoop maxLines maxBytes content outputLines rest) k := by
  induction rest generalizing content outputLines with
  | nil =>
    refine ⟨0, ⟨le_rfl, ?_, rfl, hbytes, id, fun _ => rfl, nofun, nofun⟩⟩
    exact (List.append_nil content).symm
  | cons line rest ih =>
    have hpos : 0 < (line :: rest).length := Nat.succ_pos _
    rw [truncateLoop]
    split
    · next hlines =>
      refine ⟨0, ⟨Nat.zero_le _, (List.append_nil content).symm, rfl, hbytes, id, nofun,
        fun _ _ => hpos, ?_⟩⟩
      intro _ _ _ _ hlt
      omega
    · split
      · next hlong =>
        refine ⟨0, ⟨Nat.zero_le _, (List.append_nil content).symm, rfl, hbytes, id, nofun,
          fun _ _ => hpos, ?_⟩⟩
        intro _ hhead _ _ _
        cases hhead
        exact hlong
      · next hfits =>
        obtain ⟨k, hk⟩ := ih (content ++ line) (outputLines + 1) (by
          rw [String.utf8Len_append]
          omega)
        refine ⟨k + 1, ⟨Nat.succ_le_succ hk.le, ?_, ?_, hk.bytes, ?_, ?_, ?_, ?_⟩⟩
        · rw [hk.text, List.take_succ_cons, List.flatten_cons, List.append_assoc]
        · rw [hk.count]
          omega
        · intro hle
          exact hk.within (by omega)
        · intro h
          rw [hk.full h]
          rfl
        · intro by_ h
          exact Nat.succ_lt_succ (hk.stopped by_ h)
        · intro _ _ _ hzero _
          cases hzero

/-- A text of a number of bytes and of lines within the bounds. -/
def Fits (input : List Char) (maxLines maxBytes : Nat) : Prop :=
  utf8Len input ≤ maxBytes ∧ max (linesCount input) (if input = [] then 0 else 1) ≤ maxLines

theorem truncateHead_of_fits {input : List Char} {maxLines maxBytes : Nat}
    (h : Fits input maxLines maxBytes) : ∃ count,
      truncateHead input maxLines maxBytes = ⟨input, count, count, none, false⟩ :=
  ⟨_, if_pos h⟩

theorem truncateHead_of_not_fits {input : List Char} {maxLines maxBytes : Nat}
    (h : ¬Fits input maxLines maxBytes) : ∃ count,
      truncateHead input maxLines maxBytes =
        let (content, outputLines, truncatedBy) :=
          truncateLoop maxLines maxBytes [] 0 (splitInclusive input)
        ⟨content, count, outputLines,
          if truncatedBy = none ∧ utf8Len content < utf8Len input then some .bytes else truncatedBy,
          outputLines = 0 ∧ input ≠ []⟩ :=
  ⟨_, if_neg h⟩

/-- What does not fit both bounds is cut: complete lines are left, and a first piece that is not
left is too long by itself. -/
structure HeadCut (lines : List (List Char)) (maxBytes : Nat) (t : Truncation) (k : Nat) :
    Prop where
  some : t.truncatedBy ≠ none
  lt : k < (pieces '\n' lines).length
  content : t.content = terminated '\n' (lines.take k)
  outputLines : t.outputLines = k
  bytes : utf8Len t.content ≤ maxBytes
  first : t.firstLineExceedsLimit = true ↔ k = 0
  oversized : k = 0 → ∀ piece ∈ (pieces '\n' lines).head?, maxBytes < utf8Len piece

theorem truncateHead_cases {lines : List (List Char)} (hlines : ∀ line ∈ lines, '\n' ∉ line)
    {maxLines : Nat} (maxBytes : Nat) (hpos : 0 < maxLines) :
    (utf8Len (join '\n' lines) ≤ maxBytes ∧ ∃ count, truncateHead (join '\n' lines) maxLines
      maxBytes = ⟨join '\n' lines, count, count, none, false⟩) ∨
    ∃ k, HeadCut lines maxBytes (truncateHead (join '\n' lines) maxLines maxBytes) k := by
  have hpieces : splitInclusive (join '\n' lines) = pieces '\n' lines := by
    rw [splitInclusive_eq, Lines.splitInclusive_join hlines]
  by_cases hfits : Fits (join '\n' lines) maxLines maxBytes
  · exact .inl ⟨hfits.1, truncateHead_of_fits hfits⟩
  · have hne : join '\n' lines ≠ [] := by
      intro hnil
      rw [hnil] at hfits
      exact hfits ⟨Nat.zero_le _, Nat.zero_le _⟩
    obtain ⟨count, htruncation⟩ := truncateHead_of_not_fits hfits
    obtain ⟨k, hk⟩ := taken_truncateLoop maxLines [] 0 (splitInclusive (join '\n' lines))
      (Nat.zero_le maxBytes)
    rw [htruncation, hpieces]
    rw [hpieces] at hk
    generalize truncateLoop maxLines maxBytes [] 0 (pieces '\n' lines) = result at hk ⊢
    obtain ⟨content, outputLines, truncatedBy⟩ := result
    obtain rfl : content = ((pieces '\n' lines).take k).flatten := hk.text
    obtain rfl : outputLines = k := hk.count.trans (Nat.zero_add k)
    have hstopped : truncatedBy ≠ none := by
      intro hnone
      have hall := hk.full hnone
      have hbytes := hk.bytes
      have hwithin := hk.within (Nat.zero_le _)
      rw [hall, List.take_length, Lines.flatten_pieces] at hbytes
      rw [hall] at hwithin
      refine hfits ⟨hbytes, max_le ?_ ?_⟩
      · rw [linesCount, hpieces]
        exact hwithin
      · rw [if_neg hne]
        exact hpos
    obtain ⟨by_, hby⟩ := Option.ne_none_iff_exists'.1 hstopped
    have hlt := hk.stopped by_ hby
    refine .inr ⟨outputLines, ⟨?_, hlt, Lines.flatten_take_pieces hlt, rfl, hk.bytes, ?_, ?_⟩⟩
    · show (if _ then _ else _) ≠ none
      rw [if_neg fun h => hstopped h.1]
      exact hstopped
    · show decide _ = true ↔ _
      rw [decide_eq_true_eq]
      exact and_iff_left hne
    · intro hzero piece hpiece
      have hlong := hk.oversized piece hpiece hstopped hzero hpos
      rwa [String.utf8Len_nil, Nat.zero_add] at hlong

/-! ## One read -/

/-- The number of lines that a read asks for. -/
def requestedCount (totalLines offset : Nat) : Option Nat → Nat
  | none => totalLines - (offset - 1)
  | some limit => min limit (totalLines - (offset - 1))

/-- The lines that a read asks for. -/
def requested (lines : List (List Char)) (offset : Nat) (limit : Option Nat) : List (List Char) :=
  (lines.drop (offset - 1)).take (requestedCount lines.length offset limit)

/-- A read that shows what it asked for. -/
def whole (lines : List (List Char)) (offset : Nat) (limit : Option Nat) : ReadOutput :=
  let stop := offset - 1 + requestedCount lines.length offset limit
  .shown (join '\n' (requested lines offset limit))
    (if stop < lines.length then some (.more (lines.length - stop) (stop + 1)) else none)

variable {lines : List (List Char)} {offset : Nat} {limit : Option Nat}

theorem requestedCount_pos (hoffset : 0 < offset) (hle : offset ≤ lines.length)
    (hlimit : limit ≠ some 0) : 0 < requestedCount lines.length offset limit := by
  cases limit with
  | none =>
    rw [requestedCount]
    omega
  | some limit =>
    have hpos : limit ≠ 0 := fun h => hlimit (congrArg some h)
    rw [requestedCount]
    omega

theorem requestedCount_le (totalLines offset : Nat) (limit : Option Nat) :
    requestedCount totalLines offset limit ≤ totalLines - (offset - 1) := by
  cases limit with
  | none => exact le_rfl
  | some limit => exact min_le_right _ _

theorem length_requested (lines : List (List Char)) (offset : Nat) (limit : Option Nat) :
    (requested lines offset limit).length = requestedCount lines.length offset limit := by
  have hle := requestedCount_le lines.length offset limit
  rw [requested, List.length_take, List.length_drop]
  omega

theorem mem_of_mem_requested {line : List Char} (h : line ∈ requested lines offset limit) :
    line ∈ lines :=
  List.mem_of_mem_drop (List.mem_of_mem_take h)

theorem readLines_eq (hoffset : 0 < offset) (hle : offset ≤ lines.length) :
    readLines lines offset limit =
      let stop := offset - 1 + requestedCount lines.length offset limit
      let truncation := truncateHead (join '\n' (requested lines offset limit)) defaultMaxLines
        defaultMaxBytes
      if truncation.firstLineExceedsLimit then .oversized offset
      else .shown truncation.content (match truncation.truncatedBy with
        | some truncatedBy =>
          some (.showing offset (offset + truncation.outputLines - 1) lines.length truncatedBy)
        | none =>
          if stop < lines.length then some (.more (lines.length - stop) (stop + 1)) else none) := by
  have hstop : (limit.elim lines.length fun limit => min (offset - 1 + limit) lines.length) =
      offset - 1 + requestedCount lines.length offset limit := by
    cases limit with
    | none =>
      show lines.length = offset - 1 + (lines.length - (offset - 1))
      omega
    | some limit =>
      show min (offset - 1 + limit) lines.length =
        offset - 1 + min limit (lines.length - (offset - 1))
      omega
  unfold readLines
  simp only [hstop, List.drop_take, Nat.add_sub_cancel_left, requested]
  rfl

/-- A read shows what it asked for, or complete lines of it and where to go on, or that its first
line is too long. -/
theorem readLines_cases (limit : Option Nat) (hlines : ∀ line ∈ lines, '\n' ∉ line)
    (hoffset : 0 < offset) (hle : offset ≤ lines.length) :
    utf8Len (join '\n' (requested lines offset limit)) ≤ defaultMaxBytes ∧
      readLines lines offset limit = whole lines offset limit ∨
    readLines lines offset limit = .oversized offset ∧
      (∃ piece ∈ (pieces '\n' (requested lines offset limit)).head?,
        defaultMaxBytes < utf8Len piece) ∨
    ∃ k truncatedBy, 0 < k ∧ k < requestedCount lines.length offset limit ∧
      utf8Len (terminated '\n' ((requested lines offset limit).take k)) ≤ defaultMaxBytes ∧
      readLines lines offset limit =
        .shown (terminated '\n' ((requested lines offset limit).take k))
          (some (.showing offset (offset + k - 1) lines.length truncatedBy)) := by
  have hnone : ∀ line ∈ requested lines offset limit, '\n' ∉ line :=
    fun line hline => hlines line (mem_of_mem_requested hline)
  rw [readLines_eq hoffset hle]
  obtain ⟨hbytes, count, hfits⟩ | ⟨k, hcut⟩ :=
    truncateHead_cases hnone defaultMaxBytes (show 0 < defaultMaxLines by decide)
  · refine .inl ⟨hbytes, ?_⟩
    rw [hfits]
    rfl
  · have hlt := lt_of_lt_of_le hcut.lt (Lines.length_pieces_le '\n' _)
    rw [length_requested] at hlt
    obtain hzero | hpos := Nat.eq_zero_or_pos k
    · have hne : pieces '\n' (requested lines offset limit) ≠ [] :=
        List.ne_nil_of_length_pos (Nat.zero_lt_of_lt hcut.lt)
      obtain ⟨piece, rest, hpieces⟩ := List.exists_cons_of_ne_nil hne
      have hpiece : piece ∈ (pieces '\n' (requested lines offset limit)).head? := by
        rw [hpieces]
        rfl
      exact .inr (.inl ⟨if_pos (hcut.first.2 hzero), piece, hpiece, hcut.oversized hzero _ hpiece⟩)
    · obtain ⟨truncatedBy, hby⟩ := Option.ne_none_iff_exists'.1 hcut.some
      have hbytes := hcut.bytes
      rw [hcut.content] at hbytes
      refine .inr (.inr ⟨k, truncatedBy, hpos, hlt, hbytes, ?_⟩)
      dsimp only
      rw [if_neg fun h => hpos.ne' (hcut.first.1 h), hcut.content, hby, hcut.outputLines]

/-! ## Continued reads -/

/-- The content shown by a read, and the notice behind it. -/
abbrev Shown := List Char × Option Notice

/-- The reads from an offset on, each at the offset that the notice before it names, up to one
without a notice. -/
inductive Continued (read : Nat → Except String ReadOutput) : Nat → List Shown → Prop where
  | last {offset : Nat} {content : List Char} (hread : read offset = .ok (.shown content none)) :
    Continued read offset [(content, none)]
  | more {offset : Nat} {content : List Char} {notice : Notice} {reads : List Shown}
    (hread : read offset = .ok (.shown content (some notice)))
    (hrest : Continued read notice.next reads) :
    Continued read offset ((content, some notice) :: reads)

/-- A read shows a number of lines, and its notice says which of how many, or how many are left. -/
inductive Shows (lines : List (List Char)) (offset count : Nat) : Shown → Prop where
  | showing (truncatedBy : TruncatedBy) : Shows lines offset count
    (terminated '\n' ((lines.drop (offset - 1)).take count),
      some (.showing offset (offset + count - 1) lines.length truncatedBy))
  | more : Shows lines offset count
    (join '\n' ((lines.drop (offset - 1)).take count),
      some (.more (lines.length - (offset - 1 + count)) (offset + count)))

/-- The reads from an offset on show the lines from there to the last one, each line once and in
order, and the last read has no notice. -/
inductive Covers (lines : List (List Char)) : Nat → List Shown → Prop where
  | last {offset : Nat} (hpos : 0 < offset) (hle : offset ≤ lines.length) :
    Covers lines offset [(join '\n' (lines.drop (offset - 1)), none)]
  | more {offset count : Nat} {shown : Shown} {reads : List Shown} (hpos : 0 < offset)
    (hcount : 0 < count) (hlt : offset - 1 + count < lines.length)
    (hshown : Shows lines offset count shown) (hrest : Covers lines (offset + count) reads) :
    Covers lines offset (shown :: reads)

/-- What the reads show of the file: a line feed stands for each notice that counts what is left. -/
def shownText : List Shown → List Char
  | [] => []
  | (content, some (.more _ _)) :: reads => content ++ '\n' :: shownText reads
  | (content, _) :: reads => content ++ shownText reads

theorem Covers.shownText_eq {reads : List Shown} (h : Covers lines offset reads) :
    shownText reads = join '\n' (lines.drop (offset - 1)) := by
  induction h with
  | last hpos hle => exact List.append_nil _
  | @more offset count shown reads hpos hcount hlt hshown hrest ih =>
    rw [show offset + count - 1 = offset - 1 + count by omega, ← List.drop_drop] at ih
    have hne : (lines.drop (offset - 1)).drop count ≠ [] := by
      rw [List.drop_drop, Ne, List.drop_eq_nil_iff]
      omega
    have hsome : (lines.drop (offset - 1)).take count ≠ [] := by
      rw [Ne, List.take_eq_nil_iff, List.drop_eq_nil_iff]
      omega
    have htext : terminated '\n' ((lines.drop (offset - 1)).take count) ++ shownText reads =
        join '\n' (lines.drop (offset - 1)) := by
      rw [ih, Lines.terminated_append_join hne, List.take_append_drop]
    cases hshown with
    | showing truncatedBy => exact htext
    | more =>
      rw [← htext, ← Lines.join_append hsome, List.append_assoc]
      rfl

/-- Continued from the first line on, the reads show each line of the text once, and the text. -/
def Lossless (read : Nat → Except String ReadOutput) (text : List Char) : Prop :=
  ∃ reads, Continued read 1 reads ∧ Covers (text.splitOn '\n') 1 reads ∧ shownText reads = text

/-! ## What is lossless -/

/-- No line fills the bound but for the last one, or each read asks for one line. -/
def Narrow (lines : List (List Char)) (limit : Option Nat) : Prop :=
  limit = some 1 ∨ ∀ line ∈ lines.dropLast, utf8Len line < defaultMaxBytes

theorem mem_dropLast_of_requested {first second : List Char} {rest : List (List Char)}
    (h : requested lines offset limit = first :: second :: rest) : first ∈ lines.dropLast := by
  have hprefix : first :: second :: rest <+: lines.drop (offset - 1) := by
    rw [← h]
    exact List.take_prefix _ _
  obtain ⟨after, hafter⟩ := hprefix
  rw [← List.take_append_drop (offset - 1) lines, ← hafter, List.cons_append, List.cons_append,
    List.dropLast_append_of_ne_nil (List.cons_ne_nil _ _)]
  exact List.mem_append_right _ List.mem_cons_self

/-- Where lines are narrow, the line at an offset is shown. -/
theorem not_oversized (hle : ∀ line ∈ lines, utf8Len line ≤ defaultMaxBytes)
    (hnarrow : Narrow lines limit) {piece : List Char}
    (hpiece : piece ∈ (pieces '\n' (requested lines offset limit)).head?) :
    utf8Len piece ≤ defaultMaxBytes := by
  cases hrequested : requested lines offset limit with
  | nil =>
    rw [hrequested] at hpiece
    cases hpiece
  | cons first rest =>
    have hfirst : first ∈ lines := mem_of_mem_requested (by rw [hrequested]; simp)
    have hfits := hle first hfirst
    rw [hrequested] at hpiece
    cases rest with
    | nil =>
      rw [pieces] at hpiece
      split at hpiece
      · cases hpiece
      · cases hpiece
        exact hfits
    | cons second rest =>
      cases hpiece
      rw [String.utf8Len_append, String.utf8Len_cons, String.utf8Len_nil]
      have hsize : ('\n').utf8Size = 1 := rfl
      obtain hone | hshort := hnarrow
      · have hlength := length_requested lines offset limit
        rw [hrequested, hone, requestedCount, List.length_cons, List.length_cons] at hlength
        omega
      · have hlt := hshort first (mem_dropLast_of_requested hrequested)
        omega

variable {read : Nat → Except String ReadOutput}

/-- Where lines are narrow, the reads go on to the last line. -/
theorem exists_continued (hlines : ∀ line ∈ lines, '\n' ∉ line)
    (hfit : ∀ line ∈ lines, utf8Len line ≤ defaultMaxBytes) (hlimit : limit ≠ some 0)
    (hnarrow : Narrow lines limit)
    (hread : ∀ offset, 0 < offset → offset ≤ lines.length →
      read offset = .ok (readLines lines offset limit))
    (hoffset : 0 < offset) (hle : offset ≤ lines.length) :
    ∃ reads, Continued read offset reads ∧ Covers lines offset reads := by
  induction hleft : lines.length - offset using Nat.strong_induction_on generalizing offset with
  | _ left ih =>
    have hcount := requestedCount_le lines.length offset limit
    have hpos := requestedCount_pos hoffset hle hlimit
    obtain ⟨-, heq⟩ | ⟨-, piece, hpiece, hlong⟩ | ⟨k, truncatedBy, hk, hlt, -, heq⟩ :=
      readLines_cases limit hlines hoffset hle
    · have hwhole := (hread offset hoffset hle).trans (congrArg _ heq)
      rw [whole] at hwhole
      by_cases hmore : offset - 1 + requestedCount lines.length offset limit < lines.length
      · rw [if_pos hmore] at hwhole
        obtain ⟨reads, hcontinued, hcovers⟩ := ih _ (by omega)
          (show 0 < offset + requestedCount lines.length offset limit by omega) (by omega) rfl
        have hnext : offset - 1 + requestedCount lines.length offset limit + 1 =
            offset + requestedCount lines.length offset limit := by omega
        rw [hnext] at hwhole
        exact ⟨_, .more hwhole hcontinued, .more hoffset hpos hmore .more hcovers⟩
      · rw [if_neg hmore] at hwhole
        have hall : requested lines offset limit = lines.drop (offset - 1) := by
          rw [requested, List.take_of_length_le]
          rw [List.length_drop]
          omega
        rw [hall] at hwhole
        exact ⟨_, .last hwhole, .last hoffset hle⟩
    · have hfits := not_oversized hfit hnarrow hpiece
      omega
    · have hcut := (hread offset hoffset hle).trans (congrArg _ heq)
      obtain ⟨reads, hcontinued, hcovers⟩ := ih _ (by omega) (show 0 < offset + k by omega)
        (by omega) rfl
      have hsome : (requested lines offset limit).take k = (lines.drop (offset - 1)).take k := by
        rw [requested, List.take_take, min_eq_left hlt.le]
      rw [hsome] at hcut
      have hnext : (Notice.showing offset (offset + k - 1) lines.length truncatedBy).next =
          offset + k := by
        rw [Notice.next]
        omega
      refine ⟨_, .more hcut ?_, .more hoffset hk (by omega) (.showing truncatedBy) hcovers⟩
      rwa [hnext]

theorem mem_take_drop (before after : List (List Char)) (long : List Char) {count : Nat}
    (hoffset : offset ≤ before.length + 1) (hcount : before.length + 1 < offset + count) :
    long ∈ ((before ++ long :: after).drop (offset - 1)).take count := by
  have hget : (((before ++ long :: after).drop (offset - 1)).take count)[before.length -
      (offset - 1)]? = some long := by
    rw [List.getElem?_take_of_lt (by omega), List.getElem?_drop,
      show offset - 1 + (before.length - (offset - 1)) = before.length by omega,
      List.getElem?_append_right le_rfl, Nat.sub_self, List.getElem?_cons_zero]
  exact List.mem_of_getElem? hget

/-- Before a line that fills the bound and has another one behind it, a read of more than one line
stops short of it. -/
theorem readLines_stops {before after : List (List Char)} {long next : List Char}
    (hlines : ∀ line ∈ before ++ long :: next :: after, '\n' ∉ line) (hlimit : limit ≠ some 0)
    (hone : limit ≠ some 1) (hlong : defaultMaxBytes ≤ utf8Len long) (hoffset : 0 < offset)
    (hle : offset ≤ before.length + 1) :
    readLines (before ++ long :: next :: after) offset limit = .oversized offset ∨
      ∃ content notice, readLines (before ++ long :: next :: after) offset limit =
        .shown content (some notice) ∧ 0 < notice.next ∧ notice.next ≤ before.length + 1 := by
  generalize hall : before ++ long :: next :: after = lines at hlines ⊢
  have hlength : lines.length = before.length + after.length + 2 := by
    rw [← hall, List.length_append, List.length_cons, List.length_cons]
    omega
  have hmem : ∀ count, before.length + 1 < offset + count →
      long ∈ (lines.drop (offset - 1)).take count := by
    intro count hcount
    rw [← hall]
    exact mem_take_drop before (next :: after) long hle hcount
  obtain ⟨hbytes, heq⟩ | ⟨heq, -⟩ | ⟨k, truncatedBy, hk, hlt, hbytes, heq⟩ :=
    readLines_cases limit hlines hoffset (show offset ≤ lines.length by omega)
  · right
    have htwo : 2 ≤ requestedCount lines.length offset limit := by
      cases limit with
      | none =>
        rw [requestedCount]
        omega
      | some limit =>
        have hzero : limit ≠ 0 := fun h => hlimit (congrArg some h)
        have hunit : limit ≠ 1 := fun h => hone (congrArg some h)
        rw [requestedCount]
        omega
    have hshort : offset - 1 + requestedCount lines.length offset limit ≤ before.length := by
      by_contra hlt
      have hsize := Lines.utf8Len_add_length_le (x := '\n')
        (hmem (requestedCount lines.length offset limit) (by omega))
      rw [← requested, length_requested, ← Lines.join_append (List.ne_nil_of_length_pos (by
        rw [length_requested]
        omega)), String.utf8Len_append] at hsize
      have hterminator : utf8Len ['\n'] = 1 := rfl
      omega
    refine ⟨_, _, heq.trans (congrArg _ (if_pos (by omega))), ?_, ?_⟩
    · rw [Notice.next]
      omega
    · rw [Notice.next]
      omega
  · exact .inl heq
  · right
    have hshort : offset + k ≤ before.length + 1 := by
      by_contra hlt'
      have hin := hmem k (by omega)
      have hsize := Lines.utf8Len_add_length_le (x := '\n') hin
      have hpos := List.length_pos_of_mem hin
      rw [requested, List.take_take, min_eq_left hlt.le] at hbytes
      omega
    refine ⟨_, _, heq, ?_, ?_⟩
    · rw [Notice.next]
      omega
    · rw [Notice.next]
      omega

/-- So the reads from an offset before such a line never come to an end. -/
theorem not_continued {before after : List (List Char)} {long next : List Char}
    (hlines : ∀ line ∈ before ++ long :: next :: after, '\n' ∉ line) (hlimit : limit ≠ some 0)
    (hone : limit ≠ some 1) (hlong : defaultMaxBytes ≤ utf8Len long)
    (hread : ∀ offset, 0 < offset → offset ≤ (before ++ long :: next :: after).length →
      read offset = .ok (readLines (before ++ long :: next :: after) offset limit))
    (hoffset : 0 < offset) (hle : offset ≤ before.length + 1) {reads : List Shown} :
    ¬Continued read offset reads := by
  intro hcontinued
  have hstops : ∀ offset, 0 < offset → offset ≤ before.length + 1 →
      read offset = .ok (.oversized offset) ∨ ∃ content notice,
        read offset = .ok (.shown content (some notice)) ∧ 0 < notice.next ∧
          notice.next ≤ before.length + 1 := by
    intro offset hoffset hle
    rw [hread offset hoffset (by
      rw [List.length_append, List.length_cons]
      omega)]
    obtain heq | ⟨content, notice, heq, hnext⟩ :=
      readLines_stops hlines hlimit hone hlong hoffset hle
    · exact .inl (congrArg _ heq)
    · exact .inr ⟨content, notice, congrArg _ heq, hnext⟩
  induction hcontinued with
  | @last offset content heq =>
    obtain hover | ⟨_, _, hshown, -⟩ := hstops offset hoffset hle
    · rw [hover] at heq
      cases heq
    · rw [hshown] at heq
      cases heq
  | @more offset content notice reads heq hrest ih =>
    obtain hover | ⟨_, _, hshown, hpos, hnext⟩ := hstops offset hoffset hle
    · rw [hover] at heq
      cases heq
    · rw [hshown] at heq
      cases heq
      exact ih hpos hnext

/-! ## The file -/

/-- The path names a file of the text that the tool can read. -/
structure Readable (S : FileSurroundings Path) (supplied text : List Char) : Prop where
  named : supplied ≠ []
  resolved : ∃ path file, S.resolveWorkspacePath supplied = .ok path ∧
    S.metadata path = .ok ⟨false, file.size⟩ ∧ S.read path = .ok file ∧
    file.size ≤ maxFileReadBytes ∧ file.data.contains 0 = false ∧
    file.utf8Decode? = some text.toArray
  going : S.cancelled = false

/-- A read of a path at an offset. -/
def readAt (S : FileSurroundings Path) (supplied : List Char) (limit : Option Nat) (offset : Nat) :
    Except String ReadOutput :=
  readOutput S ⟨some supplied, some (some offset), limit⟩

theorem readAt_eq {S : FileSurroundings Path} {supplied text : List Char}
    (h : Readable S supplied text) (hoffset : 0 < offset)
    (hle : offset ≤ (text.splitOn '\n').length) :
    readAt S supplied limit offset = .ok (readLines (text.splitOn '\n') offset limit) := by
  obtain ⟨path, file, hpath, hmetadata, hfile, hsize, hnul, htext⟩ := h.resolved
  have hmax : max offset 1 = offset := max_eq_left hoffset
  simp only [readAt, readOutput, requiredString, optionalU64, bind_eq_ok, ensure_eq_ok, need_eq_ok,
    mapError_eq_ok, pure_eq_ok, Bool.not_eq_true', decide_eq_true_eq, Option.filter_eq_some_iff,
    exists_const]
  refine ⟨supplied, ⟨rfl, h.named⟩, path, hpath, _, hmetadata, rfl, hsize, file, hfile, h.going,
    hnul, _, htext, offset, rfl, ?_, ?_⟩
  · rwa [hmax]
  · rw [hmax]

theorem exists_split_of_mem_dropLast {long : List Char} (h : long ∈ lines.dropLast) :
    ∃ before next after, lines = before ++ long :: next :: after := by
  obtain ⟨before, rest, hsplit⟩ := List.append_of_mem h
  have hne : lines ≠ [] := by
    rintro rfl
    cases h
  obtain ⟨next, after, hlast⟩ := List.exists_cons_of_ne_nil
    (List.append_ne_nil_of_right_ne_nil rest (List.cons_ne_nil (lines.getLast hne) []))
  refine ⟨before, next, after, ?_⟩
  rw [← hlast, ← List.cons_append, ← List.append_assoc, ← hsplit, List.dropLast_append_getLast]

theorem narrow_of_lossless {S : FileSurroundings Path} {supplied text : List Char}
    (h : Readable S supplied text) (hlimit : limit ≠ some 0)
    (hlossless : Lossless (readAt S supplied limit) text) :
    Narrow (text.splitOn '\n') limit := by
  by_contra hwide
  rw [Narrow, not_or, not_forall₂] at hwide
  obtain ⟨hone, long, hmem, hlong⟩ := hwide
  obtain ⟨before, next, after, hsplit⟩ := exists_split_of_mem_dropLast hmem
  obtain ⟨reads, hcontinued, -⟩ := hlossless
  have hlines : ∀ line ∈ text.splitOn '\n', '\n' ∉ line := fun _ => Lines.notMem_of_mem_splitOn
  have hread : ∀ offset, 0 < offset → offset ≤ (text.splitOn '\n').length →
      readAt S supplied limit offset = .ok (readLines (text.splitOn '\n') offset limit) :=
    fun _ => readAt_eq h
  rw [hsplit] at hlines hread
  exact not_continued hlines hlimit hone (not_lt.1 hlong) hread Nat.one_pos
    (Nat.le_add_left 1 _) hcontinued

/-- Reads that continue at the offsets of the notices show a file once and end, exactly if no line
fills the bound but for the last one, or each read asks for one line. -/
theorem continued_reads_lossless_iff {S : FileSurroundings Path} {supplied text : List Char}
    (h : Readable S supplied text)
    (hfit : ∀ line ∈ text.splitOn '\n', utf8Len line ≤ defaultMaxBytes) (hlimit : limit ≠ some 0) :
    Lossless (readAt S supplied limit) text ↔ Narrow (text.splitOn '\n') limit := by
  constructor
  · exact narrow_of_lossless h hlimit
  · intro hnarrow
    obtain ⟨reads, hcontinued, hcovers⟩ := exists_continued
      (fun _ => Lines.notMem_of_mem_splitOn) hfit hlimit hnarrow (fun _ => readAt_eq h) Nat.one_pos
      (List.length_pos_of_ne_nil (List.splitOn_ne_nil '\n' text))
    refine ⟨reads, hcontinued, hcovers, ?_⟩
    rw [hcovers.shownText_eq]
    exact Lines.join_splitOn '\n' text

/-- A file that holds a text. -/
def plainFile (text : List Char) : FileSurroundings Unit where
  resolveWorkspacePath _ := .ok ()
  metadata _ := .ok ⟨false, (String.ofList text).toUTF8.size⟩
  read _ := .ok (String.ofList text).toUTF8
  cancelled := false

theorem readable_plainFile {text : List Char} (hsize : utf8Len text ≤ maxFileReadBytes)
    (hletters : ∀ c ∈ text, c = 'a' ∨ c = '\n') : Readable (plainFile text) ['f'] text where
  named := List.cons_ne_nil _ _
  going := rfl
  resolved := by
    have hutf8 : (String.ofList text).toUTF8 = text.utf8Encode := rfl
    refine ⟨(), text.utf8Encode, rfl, rfl, rfl, ?_, ?_, List.utf8Decode?_utf8Encode⟩
    · rwa [← String.utf8ByteSize_ofList] at hsize
    · rw [List.utf8Encode, List.data_toByteArray, Bool.eq_false_iff, Ne, Array.contains_iff_mem,
        List.mem_toArray, List.mem_flatMap]
      rintro ⟨c, hc, hbyte⟩
      obtain rfl | rfl := hletters c hc
      · exact absurd hbyte (by decide)
      · exact absurd hbyte (by decide)

theorem continued_reads_lossless_letters :
    Lossless (readAt (plainFile ['a', '\n', 'a']) ['f'] (some 1)) ['a', '\n', 'a'] :=
  (continued_reads_lossless_iff (readable_plainFile (by decide) (by simp)) (by decide)
    (by decide)).2 (.inl rfl)

/-- The first of two lines has as many bytes as the bound, and no read shows it. -/
theorem full_line_not_shown :
    ¬∀ (Path : Type) (S : FileSurroundings Path) (supplied text : List Char) (limit : Option Nat),
      Readable S supplied text →
      (∀ line ∈ text.splitOn '\n', utf8Len line ≤ defaultMaxBytes) → limit ≠ some 0 →
      Lossless (readAt S supplied limit) text := by
  intro h
  have hsplit : (List.replicate defaultMaxBytes 'a' ++ ['\n']).splitOn '\n' =
      [List.replicate defaultMaxBytes 'a', []] := by
    rw [List.splitOn_append_cons_self_of_not_mem, List.splitOn_nil]
    rw [List.mem_replicate]
    exact fun h => absurd h.2 (by decide)
  have hlen : ∀ n, utf8Len (List.replicate n 'a') = n := by
    intro n
    induction n with
    | zero => rfl
    | succ n ih =>
      rw [List.replicate_succ, String.utf8Len_cons, ih]
      rfl
  have hreadable : Readable (plainFile (List.replicate defaultMaxBytes 'a' ++ ['\n'])) ['f']
      (List.replicate defaultMaxBytes 'a' ++ ['\n']) := by
    refine readable_plainFile ?_ ?_
    · rw [String.utf8Len_append, hlen]
      decide
    · intro c hc
      obtain hc | hc := List.mem_append.1 hc
      · exact .inl (List.eq_of_mem_replicate hc)
      · exact .inr (List.mem_singleton.1 hc)
  have hfit : ∀ line ∈ (List.replicate defaultMaxBytes 'a' ++ ['\n']).splitOn '\n',
      utf8Len line ≤ defaultMaxBytes := by
    rw [hsplit, List.forall_mem_cons, hlen, List.forall_mem_singleton]
    exact ⟨le_rfl, Nat.zero_le _⟩
  have hlimit : (none : Option Nat) ≠ some 0 := nofun
  have hnarrow := narrow_of_lossless hreadable hlimit (h Unit _ _ _ none hreadable hfit hlimit)
  rw [hsplit] at hnarrow
  obtain hone | hnarrow := hnarrow
  · cases hone
  · have hlt := hnarrow (List.replicate defaultMaxBytes 'a') (by simp)
    rw [hlen] at hlt
    exact lt_irrefl _ hlt

end Nakode.Tools
