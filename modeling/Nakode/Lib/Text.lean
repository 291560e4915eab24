import Mathlib

/-!
# Strings as Rust reads them, and JSON as `serde_json` prints it

`str::len` counts the bytes of the UTF-8 encoding, `str::trim` drops the characters with the
Unicode property `White_Space` at both ends, and `serde_json` prints compactly, escaping quotes,
backslashes and control characters and nothing else.
-/

namespace Text

/-- `str::len`. -/
def len (s : String) : Nat := s.utf8ByteSize

/-- `char::is_whitespace`: the Unicode property `White_Space`. -/
def isWhitespace (c : Char) : Bool :=
  let n := c.toNat
  (0x09 ≤ n && n ≤ 0x0D) || n == 0x20 || n == 0x85 || n == 0xA0 || n == 0x1680 ||
  (0x2000 ≤ n && n ≤ 0x200A) || n == 0x2028 || n == 0x2029 || n == 0x202F || n == 0x205F ||
  n == 0x3000

/-- `str::trim`. -/
def trim (s : String) : String :=
  String.ofList (((s.toList.dropWhile isWhitespace).reverse.dropWhile isWhitespace).reverse)

/-- A text without white space is not trimmed. -/
theorem trim_eq_self {s : String} (h : ∀ c ∈ s.toList, isWhitespace c = false) : trim s = s := by
  have hkept : ∀ cs : List Char, (∀ c ∈ cs, isWhitespace c = false) →
      cs.dropWhile isWhitespace = cs := by
    intro cs hcs
    cases cs with
    | nil => rfl
    | cons c cs => exact List.dropWhile_cons_of_neg (by simp [hcs c List.mem_cons_self])
  rw [trim, hkept _ h, hkept _ fun c hc => h c (List.mem_reverse.1 hc), List.reverse_reverse,
    String.ofList_toList]

/-- `s.chars().take(n).collect()`. -/
def take (n : Nat) (s : String) : String := String.ofList (s.toList.take n)

/-- `str::starts_with`. -/
def startsWith (s pre : String) : Bool := pre.toList.isPrefixOf s.toList

/-- `str::lines().next()`, up to the carriage return that a `trim` removes. -/
def firstLine (s : String) : String := String.ofList (s.toList.takeWhile (· != '\n'))

/-! ## JSON -/

/-- A JSON value. The fields of an object stand in the order they are printed in. -/
inductive Json where
  | null
  | bool (b : Bool)
  | int (n : Int)
  | str (s : String)
  | arr (items : List Json)
  | obj (fields : List (String × Json))

/-- The hexadecimal digit of a number below 16, in lower case. -/
def hexDigit (n : Nat) : Char :=
  if n < 10 then Char.ofNat (48 + n) else Char.ofNat (87 + n)

/-- One character inside a JSON string. -/
def escapeChar (c : Char) : List Char :=
  match c with
  | '"' => ['\\', '"']
  | '\\' => ['\\', '\\']
  | '\n' => ['\\', 'n']
  | '\r' => ['\\', 'r']
  | '\t' => ['\\', 't']
  | c =>
    let n := c.toNat
    if n = 0x08 then ['\\', 'b']
    else if n = 0x0C then ['\\', 'f']
    else if n < 0x20 then ['\\', 'u', '0', '0', hexDigit (n / 16), hexDigit (n % 16)]
    else [c]

/-- A string as a JSON string, quotes included. -/
def quote (s : String) : String := String.ofList ('"' :: s.toList.flatMap escapeChar ++ ['"'])

mutual

/-- The compact text of a value. -/
def Json.render : Json → String
  | .null => "null"
  | .bool b => if b then "true" else "false"
  | .int n => toString n
  | .str s => quote s
  | .arr items => "[" ++ Json.renderItems items ++ "]"
  | .obj fields => "\x7b" ++ Json.renderFields fields ++ "\x7d"

/-- The items of an array, separated by commas. -/
def Json.renderItems : List Json → String
  | [] => ""
  | [item] => item.render
  | item :: rest => item.render ++ "," ++ Json.renderItems rest

/-- The fields of an object, separated by commas. -/
def Json.renderFields : List (String × Json) → String
  | [] => ""
  | [(key, value)] => quote key ++ ":" ++ value.render
  | (key, value) :: rest => quote key ++ ":" ++ value.render ++ "," ++ Json.renderFields rest

end

/-- A line break and the indentation of a level. -/
def newline (depth : Nat) : String := "\n" ++ String.ofList (List.replicate (2 * depth) ' ')

mutual

/-- The text of a value with one item a line, at a level of indentation. -/
def Json.prettyAt (depth : Nat) : Json → String
  | .arr (item :: rest) => "[" ++ Json.prettyItems (depth + 1) (item :: rest) ++ newline depth ++ "]"
  | .obj (field :: rest) =>
    "\x7b" ++ Json.prettyFields (depth + 1) (field :: rest) ++ newline depth ++ "\x7d"
  | value => value.render

def Json.prettyItems (depth : Nat) : List Json → String
  | [] => ""
  | [item] => newline depth ++ item.prettyAt depth
  | item :: rest => newline depth ++ item.prettyAt depth ++ "," ++ Json.prettyItems depth rest

def Json.prettyFields (depth : Nat) : List (String × Json) → String
  | [] => ""
  | [(key, value)] => newline depth ++ quote key ++ ": " ++ value.prettyAt depth
  | (key, value) :: rest =>
    newline depth ++ quote key ++ ": " ++ value.prettyAt depth ++ "," ++ Json.prettyFields depth rest

end

/-- `serde_json::to_string_pretty`. -/
def Json.pretty (value : Json) : String := value.prettyAt 0

/-- A string, or `null` when there is none. -/
def Json.ofOption : Option String → Json
  | some s => .str s
  | none => .null

/-- The escapes and separators of a small object. -/
example : (Json.obj [("a", .arr [.int (-3), .null]), ("b", .str "x\"\u0001\n")]).render
    = "\x7b\"a\":[-3,null],\"b\":\"x\\\"\\u0001\\n\"\x7d" := by decide

/-- Empty values take no line. -/
example : (Json.obj [("a", .arr [.int 1, .obj []])]).pretty
    = "\x7b\n  \"a\": [\n    1,\n    \x7b\x7d\n  ]\n\x7d" := by decide

end Text
