import Muster.Tree.Basic
import Muster.Decimal.Notation

/-!
# Writing JSON text

* `Json.write`: the text of a tree without blanks, map entries in their order.
-/

namespace Muster.Json

/-- One character inside a text. -/
def escaped (c : Char) : List Char :=
  let hex (n : Nat) : List Char := Nat.toDigits 16 n
  match c with
  | '"' => ['\\', '"']
  | '\\' => ['\\', '\\']
  | '\n' => ['\\', 'n']
  | '\r' => ['\\', 'r']
  | '\t' => ['\\', 't']
  | c =>
    if c.toNat < 0x10 then ['\\', 'u', '0', '0', '0'] ++ hex c.toNat
    else if c.toNat < 0x20 then ['\\', 'u', '0', '0'] ++ hex c.toNat
    else [c]

/-- A text between quotes. -/
def writeText (s : String) : String :=
  String.ofList ('"' :: s.toList.flatMap escaped ++ ['"'])

/-- The text of a map's key. -/
def writeKey : Key → String
  | .text s => writeText s
  | .index n => writeText (toString n)
  | .other => writeText ""

mutual

/-- The text of a tree; numbers that are not finite, and flawed parts, are written as absent. -/
def write : Tree → String
  | .null => "null"
  | .bool b => if b then "true" else "false"
  | .int i => toString i
  | .float x => if x.isFinite then Float.compact.write x else "null"
  | .text s => writeText s
  | .list items => "[" ++ ",".intercalate (writeItems items) ++ "]"
  | .fields entries => "\x7b" ++ ",".intercalate (writeEntries entries) ++ "\x7d"
  | .flawed => "null"

/-- The texts of a list's items. -/
def writeItems : List Tree → List String
  | [] => []
  | t :: ts => write t :: writeItems ts

/-- The texts of a map's entries. -/
def writeEntries : List (Key × Tree) → List String
  | [] => []
  | (k, t) :: es => (writeKey k ++ ":" ++ write t) :: writeEntries es

end

end Muster.Json
