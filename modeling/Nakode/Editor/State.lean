import Nakode.Lib.Keyed
import Nakode.Lib.Lines
import Nakode.Lib.Utf8

/-!
# The prompt editor

The text is held by lines, and the cursor is a line and a number of characters in it. An edit
addresses a line by bytes (`charToByte`) and panics where these are not between two characters, and
so does an index that is out of bounds: an operation gives nothing then.
-/

namespace Nakode.Editor

open Keyed (rposition?)
open String (utf8Len)
open Text (splitChars? isWhitespace)

/-- What is read from tables of Unicode: `char::is_alphanumeric` and `UnicodeWidthChar::width`. -/
structure CharTables where
  isAlphanumeric : Char → Bool
  width : Char → Option Nat

structure EditorState where
  lines : List (List Char)
  row : Nat
  column : Nat
  revision : Nat
  deriving DecidableEq, Repr

structure CursorToken where
  text : List Char
  atPromptStart : Bool
  characterCount : Nat
  deriving DecidableEq, Repr

/-! ## Characters and bytes -/

/-- `str::char_indices`. -/
def charIndices (offset : Nat) : List Char → List (Nat × Char)
  | [] => []
  | c :: cs => (offset, c) :: charIndices (offset + c.utf8Size) cs

def charToByte (text : List Char) (characterIndex : Nat) : Nat :=
  match (charIndices 0 text)[characterIndex]? with
  | some (index, _) => index
  | none => utf8Len text

/-- `String::insert`. -/
def insertAt (text : List Char) (byte : Nat) (character : Char) : Option (List Char) :=
  (splitChars? text byte).map fun (before, after) => before ++ character :: after

/-- `String::replace_range`. -/
def replaceRange (text : List Char) (start stop : Nat) (replacement : List Char) :
    Option (List Char) :=
  if stop < start then none
  else
    (splitChars? text start).bind fun (before, rest) =>
      (splitChars? rest (stop - start)).map fun (_, after) => before ++ replacement ++ after

/-- `Vec::insert`. -/
def insertLine (lines : List (List Char)) (row : Nat) (line : List Char) :
    Option (List (List Char)) :=
  if row ≤ lines.length then some (lines.insertIdx row line) else none

/-- `char::is_control`: the Unicode category `Cc`. -/
def isControl (c : Char) : Bool := c.toNat ≤ 0x1F || (0x7F ≤ c.toNat && c.toNat ≤ 0x9F)

inductive CharacterClass where
  | word
  | punctuation
  | whitespace
  deriving DecidableEq, Repr

def characterClass (U : CharTables) (character : Char) : CharacterClass :=
  if isWhitespace character then .whitespace
  else if U.isAlphanumeric character || character == '_' then .word
  else .punctuation

/-- The loop `while column > 0 && p(characters[column - 1])`. -/
def retreat (p : Char → Bool) (characters : List Char) : Nat → Option Nat
  | 0 => some 0
  | column + 1 =>
    (characters[column]?).bind fun c =>
      if p c then retreat p characters column else some (column + 1)

/-- The loop `while column < characters.len() && p(characters[column])`, over what stands from the
column on. -/
def advance (p : Char → Bool) : List Char → Nat → Nat
  | [], column => column
  | c :: cs, column => if p c then advance p cs (column + 1) else column

namespace EditorState

def default : EditorState := ⟨[[]], 0, 0, 0⟩

variable (U : CharTables) (e : EditorState)

def text : List Char := Lines.join '\n' e.lines

def markChanged : EditorState := { e with revision := (e.revision + 1) % 2 ^ 64 }

/-! ## Tokens -/

def tokenBeforeCursor : Option CursorToken := do
  let line ← e.lines[e.row]?
  let characters := line.take e.column
  let wordStart := (rposition? isWhitespace characters).elim 0 (· + 1)
  let start := (rposition? (· == '/') (characters.drop wordStart)).elim wordStart (wordStart + ·)
  some ⟨characters.drop start, e.row == 0 && start == 0, characters.length - start⟩

def replaceTokenBeforeCursor (replacement : List Char) : Option EditorState := do
  let token ← e.tokenBeforeCursor
  let line ← e.lines[e.row]?
  let stop := charToByte line e.column
  let start := charToByte line (e.column - token.characterCount)
  let line ← replaceRange line start stop replacement
  some (markChanged { e with
    lines := e.lines.set e.row line
    column := e.column - token.characterCount + replacement.length })

/-! ## Insertions -/

def clear : EditorState := markChanged { e with lines := [[]], row := 0, column := 0 }

def insertVisibleChar (character : Char) : Option EditorState := do
  let line ← e.lines[e.row]?
  let line ← insertAt line (charToByte line e.column) character
  some (markChanged { e with lines := e.lines.set e.row line, column := e.column + 1 })

def insertNewline : Option EditorState := do
  let line ← e.lines[e.row]?
  let (line, tail) ← splitChars? line (charToByte line e.column)
  let lines ← insertLine (e.lines.set e.row line) (e.row + 1) tail
  some (markChanged { e with lines, row := e.row + 1, column := 0 })

def insertChar (character : Char) : Option EditorState :=
  if character = '\n' then e.insertNewline
  else if character = '\r' then some e
  else if character = '\t' then e.insertVisibleChar '\t'
  else if isControl character then e.insertVisibleChar '\uFFFD'
  else e.insertVisibleChar character

/-- A carriage return before a line feed is skipped. -/
def insertStr : List Char → EditorState → Option EditorState
  | [], e => some e
  | character :: characters, e =>
    if character = '\r' then
      if characters.head? = some '\n' then insertStr characters e
      else e.insertNewline.bind (insertStr characters)
    else (e.insertChar character).bind (insertStr characters)

def setText (text : List Char) : Option EditorState := insertStr text e.clear

/-! ## Moves -/

def moveLeft : Option EditorState :=
  if 0 < e.column then some { e with column := e.column - 1 }
  else if 0 < e.row then do
    let line ← e.lines[e.row - 1]?
    some { e with row := e.row - 1, column := line.length }
  else some e

def moveRight : Option EditorState := do
  let line ← e.lines[e.row]?
  if e.column < line.length then some { e with column := e.column + 1 }
  else if e.row + 1 < e.lines.length then some { e with row := e.row + 1, column := 0 }
  else some e

/-- The two loops of `move_word_left`, in a line. -/
def wordLeftInLine : Option EditorState := do
  let characters ← e.lines[e.row]?
  let column ← retreat isWhitespace characters e.column
  match column with
  | 0 => some { e with column := 0 }
  | index + 1 =>
    let c ← characters[index]?
    let column ← retreat (fun d => characterClass U d = characterClass U c) characters (index + 1)
    some { e with column }

def moveWordLeft : Option EditorState :=
  if e.column = 0 then
    if e.row = 0 then some e
    else do
      let line ← e.lines[e.row - 1]?
      wordLeftInLine U { e with row := e.row - 1, column := line.length }
  else e.wordLeftInLine U

/-- The two loops of `move_word_right`, in a line. -/
def wordRightInLine : Option EditorState := do
  let characters ← e.lines[e.row]?
  let column := advance isWhitespace (characters.drop e.column) e.column
  match characters[column]? with
  | none => some { e with column }
  | some c =>
    some { e with
      column := advance (fun d => characterClass U d = characterClass U c)
        (characters.drop column) column }

def moveWordRight : Option EditorState := do
  let line ← e.lines[e.row]?
  if e.column = line.length then
    if e.row + 1 = e.lines.length then some e
    else wordRightInLine U { e with row := e.row + 1, column := 0 }
  else e.wordRightInLine U

def moveUp : Option EditorState :=
  if 0 < e.row then do
    let line ← e.lines[e.row - 1]?
    some { e with row := e.row - 1, column := min e.column line.length }
  else some e

def moveDown : Option EditorState :=
  if e.row + 1 < e.lines.length then do
    let line ← e.lines[e.row + 1]?
    some { e with row := e.row + 1, column := min e.column line.length }
  else some e

def moveHome : EditorState := { e with column := 0 }

def moveEnd : Option EditorState := do
  let line ← e.lines[e.row]?
  some { e with column := line.length }

def moveDocumentStart : EditorState := { e with row := 0, column := 0 }

def moveDocumentEnd : Option EditorState := do
  let line ← e.lines[e.lines.length - 1]?
  some { e with row := e.lines.length - 1, column := line.length }

/-! ## Deletions -/

def backspace : Option EditorState :=
  if 0 < e.column then do
    let line ← e.lines[e.row]?
    let line ← replaceRange line (charToByte line (e.column - 1)) (charToByte line e.column) []
    some (markChanged { e with lines := e.lines.set e.row line, column := e.column - 1 })
  else if 0 < e.row then do
    let current ← e.lines[e.row]?
    let lines := e.lines.eraseIdx e.row
    let line ← lines[e.row - 1]?
    some (markChanged { e with
      lines := lines.set (e.row - 1) (line ++ current)
      row := e.row - 1
      column := line.length })
  else some e

def delete : Option EditorState := do
  let line ← e.lines[e.row]?
  if e.column < line.length then do
    let line ← replaceRange line (charToByte line e.column) (charToByte line (e.column + 1)) []
    some (markChanged { e with lines := e.lines.set e.row line })
  else if e.row + 1 < e.lines.length then do
    let next ← e.lines[e.row + 1]?
    let lines := e.lines.eraseIdx (e.row + 1)
    let line ← lines[e.row]?
    some (markChanged { e with lines := lines.set e.row (line ++ next) })
  else some e

def deleteWordBackward : Option EditorState :=
  if e.column = 0 then e.backspace
  else do
    let moved ← e.moveWordLeft U
    let line ← moved.lines[moved.row]?
    let line ← replaceRange line (charToByte line moved.column) (charToByte line e.column) []
    some (markChanged { moved with lines := moved.lines.set moved.row line })

def deleteToLineStart : Option EditorState :=
  if e.column = 0 then e.backspace
  else do
    let line ← e.lines[e.row]?
    let line ← replaceRange line 0 (charToByte line e.column) []
    some (markChanged { e with lines := e.lines.set e.row line, column := 0 })

end EditorState

end Nakode.Editor
