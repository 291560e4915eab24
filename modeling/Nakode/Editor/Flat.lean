import Nakode.Editor.State
import Nakode.Lib.Buffer

/-!
# The editor on a flat text

What the operations of the editor mean on one text with one cursor in it. A move goes to a position,
which is read from what stands before and after the cursor (`target`), and a deletion erases what
stands between the cursor and the position that its move would reach (`reach`), but for the two that
go back within a line: at the beginning of a line they go back one character.
-/

namespace Nakode.Editor

open Text (isWhitespace)

inductive Move where
  | left
  | right
  | wordLeft
  | wordRight
  | up
  | down
  | home
  | lineEnd
  | documentStart
  | documentEnd
  deriving DecidableEq, Repr

inductive Deletion where
  | backspace
  | delete
  | deleteWordBackward
  | deleteToLineStart
  deriving DecidableEq, Repr

/-- A text without a line break. -/
structure Unbroken where
  chars : List Char
  unbroken : '\n' ∉ chars ∧ '\r' ∉ chars

inductive Op where
  | setText (text : List Char)
  | clear
  | insertChar (character : Char)
  | insertStr (text : List Char)
  | insertNewline
  | erase (deletion : Deletion)
  | move (move : Move)
  | replaceTokenBeforeCursor (replacement : Unbroken)

/-- Not a line feed. -/
def inLine (c : Char) : Bool := c ≠ '\n'

/-- White space within a line. -/
def isBlank (c : Char) : Bool := isWhitespace c && inLine c

variable (U : CharTables)

/-- What a move over a word passes over in a line: white space, and characters of one class. -/
def wordSpan (l : List Char) : List Char :=
  l.takeWhile isBlank ++
    match l.dropWhile isBlank with
    | [] => []
    | c :: cs =>
      if c = '\n' then []
      else (c :: cs).takeWhile fun d => characterClass U d = characterClass U c

/-- What a move over a word passes over: before a word there may be one line break. -/
def wordMove : List Char → List Char
  | [] => []
  | c :: cs => if c = '\n' then c :: wordSpan U cs else wordSpan U (c :: cs)

/-- The token at the end of a text: what follows the last white space, from its last slash on. -/
def tokenLength (back : List Char) : Nat :=
  let word := back.takeWhile fun c => !isWhitespace c
  if '/' ∈ word then (word.takeWhile (· ≠ '/')).length + 1 else word.length

namespace Flat

variable (b : Buffer Char)

/-- What stands before the cursor in its line, backwards. -/
def lineBefore : List Char := b.before.reverse.takeWhile inLine

/-- What stands after the cursor in its line. -/
def lineAfter : List Char := b.after.takeWhile inLine

/-- The position that a move goes to. -/
def target : Move → Nat
  | .left => b.cursor - 1
  | .right => min (b.cursor + 1) b.text.length
  | .wordLeft => b.cursor - (wordMove U b.before.reverse).length
  | .wordRight => b.cursor + (wordMove U b.after).length
  | .up =>
    match b.before.reverse.dropWhile inLine with
    | [] => b.cursor
    | _ :: above =>
      let lineAbove := above.takeWhile inLine
      above.length - lineAbove.length + min (lineBefore b).length lineAbove.length
  | .down =>
    match b.after.dropWhile inLine with
    | [] => b.cursor
    | _ :: below =>
      let lineBelow := below.takeWhile inLine
      b.cursor + (lineAfter b).length + 1 + min (lineBefore b).length lineBelow.length
  | .home => b.cursor - (lineBefore b).length
  | .lineEnd => b.cursor + (lineAfter b).length
  | .documentStart => 0
  | .documentEnd => b.text.length

/-- The move that a deletion goes with. -/
def moveOf (lineStart : Bool) : Deletion → Move
  | .backspace => .left
  | .delete => .right
  | .deleteWordBackward => if lineStart then .left else .wordLeft
  | .deleteToLineStart => if lineStart then .left else .home

/-- The position up to which a deletion erases. -/
def reach (deletion : Deletion) : Nat := target U b (moveOf (lineBefore b).isEmpty deletion)

/-- What `insert_char` makes of a character. -/
def visible (c : Char) : List Char :=
  if c = '\r' then [] else if c ≠ '\n' ∧ c ≠ '\t' ∧ isControl c then ['\uFFFD'] else [c]

/-- Every line break as one line feed. -/
def lineFeeds : List Char → List Char
  | [] => []
  | c :: cs =>
    if c = '\r' then
      if cs.head? = some '\n' then lineFeeds cs else '\n' :: lineFeeds cs
    else c :: lineFeeds cs

/-- The text that `insert_str` inserts. -/
def inserted (text : List Char) : List Char := (lineFeeds text).flatMap visible

def step : Op → Buffer Char
  | .setText text => ⟨inserted text, []⟩
  | .clear => .empty
  | .insertChar character => b.insert (visible character)
  | .insertStr text => b.insert (inserted text)
  | .insertNewline => b.insert ['\n']
  | .erase deletion => b.eraseTo (reach U b deletion)
  | .move move => b.goTo (target U b move)
  | .replaceTokenBeforeCursor replacement =>
    (b.eraseTo (b.cursor - tokenLength b.before.reverse)).insert replacement.chars

/-- The text after some operations on the empty one. -/
def run (ops : List Op) : Buffer Char := ops.foldl (step U) .empty

end Flat

/-! ## The same operations on lines -/

namespace EditorState

def move (e : EditorState) : Move → Option EditorState
  | .left => e.moveLeft
  | .right => e.moveRight
  | .wordLeft => e.moveWordLeft U
  | .wordRight => e.moveWordRight U
  | .up => e.moveUp
  | .down => e.moveDown
  | .home => some e.moveHome
  | .lineEnd => e.moveEnd
  | .documentStart => some e.moveDocumentStart
  | .documentEnd => e.moveDocumentEnd

def erase (e : EditorState) : Deletion → Option EditorState
  | .backspace => e.backspace
  | .delete => e.delete
  | .deleteWordBackward => e.deleteWordBackward U
  | .deleteToLineStart => e.deleteToLineStart

def step (e : EditorState) : Op → Option EditorState
  | .setText text => e.setText text
  | .clear => some e.clear
  | .insertChar character => e.insertChar character
  | .insertStr text => insertStr text e
  | .insertNewline => e.insertNewline
  | .erase deletion => e.erase U deletion
  | .move move => e.move U move
  | .replaceTokenBeforeCursor replacement => e.replaceTokenBeforeCursor replacement.chars

/-- The editor after some operations, if none of them panics. -/
def run (ops : List Op) : Option EditorState := ops.foldlM (step U) default

end EditorState

end Nakode.Editor
