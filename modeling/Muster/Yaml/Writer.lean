import Muster.Decimal.Notation
import Muster.Yaml.Plain
import Muster.Yaml.Token.Basic

/-!
# Writing YAML text

* `styleOf`: how a text is written: plain if it then reads back as that text, and otherwise in the first
  style that can hold it; a text of several lines stands as a literal block.
* `write`: the text of a tree: maps and lists as blocks, unless they are empty.

A block is indented by two columns; a list that is the value of a key stands at the column of its key.
-/

namespace Muster.Yaml

/-! ### Styles of texts -/

/-- Whether a character can be written as it is. -/
def printable (c : Char) : Bool :=
  let n := c.toNat
  n = 0x0A || (0x20 ≤ n && n ≤ 0x7E) || (0xA0 ≤ n && n ≤ 0xD7FF) ||
    (0xE000 ≤ n && n ≤ 0xFFFD && n ≠ 0xFEFF) || 0x10000 ≤ n

/-- Whether a character with `p` stands right before one with `q`. -/
def adjacent (p q : Char → Bool) (cs : List Char) : Bool :=
  (cs.zip (cs.drop 1)).any fun (a, b) => p a && q b

/-- Whether a character is a space. -/
def isSpace (c : Char) : Bool := c = ' '

/-- Whether a character is a blank or ends a line. -/
def isGap (c : Char) : Bool := isBlank c || isBreak c || c = '\x00'

/-- Whether plain text may not begin like this. -/
def badStart : List Char → Bool
  | [] => false
  | c :: cs =>
    c ∈ "#,[]\x7b\x7d&*!|>\x27\"%@\x60".toList || (c ∈ ['?', ':', '-'] && cs.head?.all isGap) ||
      "---".toList.isPrefixOf (c :: cs) || "...".toList.isPrefixOf (c :: cs)

/-- Whether a colon before a gap or a hash behind one would end plain text. -/
def badInside (cs : List Char) : Bool :=
  adjacent (· = ':') isGap cs || cs.getLast? = some ':' || adjacent isGap (· = '#') cs

/-- Whether a text can stand between single quotes. -/
def singleAllowed (cs : List Char) : Bool :=
  cs.all printable && !adjacent isBreak isSpace cs && !adjacent isSpace isBreak cs

/-- Whether a text can stand without quotes. -/
def plainAllowed (cs : List Char) : Bool :=
  cs.all printable && !cs.any isBreak && !cs.head?.any isSpace && !cs.getLast?.any isSpace &&
    !badStart cs && !badInside cs

/-- Whether a text can stand as a literal block. -/
def literalAllowed (cs : List Char) : Bool :=
  !cs.isEmpty && cs.all printable && !cs.getLast?.any isSpace && !adjacent isSpace isBreak cs

/-- The words that older readers take for truth values. -/
def truthWords : List String :=
  ["y", "Y", "yes", "Yes", "YES", "n", "N", "no", "No", "NO", "true", "True", "TRUE", "false", "False",
   "FALSE", "on", "On", "ON", "off", "Off", "OFF"]

/-- Whether a text without quotes would read back as something else. -/
def ambiguous (s : String) : Bool :=
  s ∈ truthWords || zeroPadded s.toList ||
    match plainTree s with
    | .text _ => false
    | _ => true

/-- How a text is written; a key without a mark of its own cannot be a block. -/
def styleOf (s : String) : Style :=
  let cs := s.toList
  let quoted : Style := if singleAllowed cs then .singleQuoted else .doubleQuoted
  if cs.any (· = '\n') then (if literalAllowed cs then .literal else .doubleQuoted)
  else if ambiguous s then quoted
  else if plainAllowed cs then .plain
  else quoted

/-- Whether a text can be a key without a mark. -/
def isSimpleKey (s : String) : Bool := !s.toList.any isBreak && s.utf8ByteSize ≤ 128

/-! ### Texts -/

/-- A number of spaces. -/
def spaces (n : Nat) : List Char := List.replicate n ' '

/-- The letter of the escape of a character that has one. -/
def escapeLetter? (c : Char) : Option Char :=
  match c with
  | '\x00' => some '0'
  | '\x07' => some 'a'
  | '\x08' => some 'b'
  | '\t' => some 't'
  | '\n' => some 'n'
  | '\x0b' => some 'v'
  | '\x0c' => some 'f'
  | '\r' => some 'r'
  | '\x1b' => some 'e'
  | '"' => some '"'
  | '\\' => some '\\'
  | '\u0085' => some 'N'
  | '\u00a0' => some '_'
  | '\u2028' => some 'L'
  | '\u2029' => some 'P'
  | _ => none

/-- The last `width` hexadecimal digits of a number, in upper case. -/
def upperHex : Nat → Nat → List Char
  | 0, _ => []
  | width + 1, n => upperHex width (n / 16) ++ [(Nat.digitChar (n % 16)).toUpper]

/-- One character between double quotes. -/
def doubleQuotedChar (c : Char) : List Char :=
  if printable c && !isBreak c && c ≠ '"' && c ≠ '\\' then [c]
  else match escapeLetter? c with
    | some l => ['\\', l]
    | none =>
      let n := c.toNat
      if n ≤ 0xFF then ['\\', 'x'] ++ upperHex 2 n
      else if n ≤ 0xFFFF then ['\\', 'u'] ++ upperHex 4 n
      else ['\\', 'U'] ++ upperHex 8 n

/-- Characters with indentation behind every break that is not followed by another one; `fresh` tells
whether a break stands right before. -/
def indented (indent : Nat) (each : Char → List Char) : Bool → List Char → List Char
  | _, [] => []
  | fresh, c :: cs =>
    if isBreak c then c :: indented indent each true cs
    else (if fresh then spaces indent else []) ++ each c ++ indented indent each false cs

/-- Whether all breaks at the end of a literal block count. -/
def keepsBreaks (cs : List Char) : Bool :=
  match cs.reverse with
  | [c] => isBreak c
  | c :: d :: _ => isBreak c && isBreak d
  | [] => false

/-- The indicators of a literal block: its indentation when that does not show, and what becomes of the
breaks at its end. -/
def blockHints (cs : List Char) : List Char :=
  (if cs.head?.any fun c => c = ' ' || isBreak c then ['2'] else []) ++
    (if !cs.getLast?.any isBreak then ['-'] else if keepsBreaks cs then ['+'] else [])

/-- Ends the line unless it has ended. -/
def endLine (cs : List Char) : List Char := if cs.getLast?.any isBreak then cs else cs ++ ['\n']

/-- A text in a style, up to the end of its line; its further lines are indented to `indent`. -/
def writeIn (style : Style) (indent : Nat) (s : String) : List Char :=
  let cs := s.toList
  match style with
  | .plain => endLine cs
  | .singleQuoted =>
    let quote (c : Char) : List Char := if c = '\x27' then [c, c] else [c]
    let body := indented indent quote false cs
    let close := if cs.getLast?.any isBreak then spaces indent else []
    '\x27' :: body ++ close ++ ['\x27', '\n']
  | .doubleQuoted => '"' :: cs.flatMap doubleQuotedChar ++ ['"', '\n']
  | .literal | .folded => '|' :: blockHints cs ++ '\n' :: endLine (indented indent (fun c => [c]) true cs)

/-! ### Trees -/

/-- The text of a floating-point number. -/
def floatText (x : Float) : String :=
  if x.isNaN then ".nan"
  else if x.isInf then (if x > 0 then ".inf" else "-.inf")
  else Float.compact.write x

/-- The text of a key that is no text. -/
def keyText : Key → String
  | .text s => s
  | .index n => toString n
  | .other => ""

/-- A key up to its colon, or its whole line when it needs a mark. -/
def writeKey (indent : Nat) (s : String) : List Char × Bool :=
  if isSimpleKey s then ((writeIn (styleOf s) (indent + 2) s).dropLast, true)
  else ('?' :: ' ' :: writeIn (styleOf s) (indent + 2) s ++ spaces indent, false)

mutual

/-- What stands behind an indicator in a block at the column `indent`. When `compact`, a block begins in
the same line. -/
def writeBehind (compact : Bool) (indent : Nat) : Tree → List Char
  | .null => " null\n".toList
  | .bool b => (if b then " true\n" else " false\n").toList
  | .int i => ' ' :: (toString i).toList ++ ['\n']
  | .float x => ' ' :: (floatText x).toList ++ ['\n']
  | .text s => ' ' :: writeIn (styleOf s) (indent + 2) s
  | .list [] => " []\n".toList
  | .list items =>
    if compact then ' ' :: (writeItems (indent + 2) items).drop (indent + 2)
    else '\n' :: writeItems indent items
  | .fields [] => " \x7b\x7d\n".toList
  | .fields entries =>
    let text := writeEntries (indent + 2) entries
    if compact then ' ' :: text.drop (indent + 2) else '\n' :: text
  | .flawed => " null\n".toList

/-- The items of a list whose dashes stand at the column `indent`. -/
def writeItems (indent : Nat) : List Tree → List Char
  | [] => []
  | t :: ts => spaces indent ++ '-' :: writeBehind true indent t ++ writeItems indent ts

/-- The entries of a map whose keys stand at the column `indent`. -/
def writeEntries (indent : Nat) : List (Key × Tree) → List Char
  | [] => []
  | (k, t) :: es =>
    let (key, simple) := writeKey indent (keyText k)
    spaces indent ++ key ++ ':' :: writeBehind (!simple) indent t ++ writeEntries indent es

end

mutual

/-- The texts of a tree in their order. -/
def textsOf : Tree → List String
  | .text s => [s]
  | .list items => textsOfItems items
  | .fields entries => textsOfEntries entries
  | _ => []

/-- The texts of items. -/
def textsOfItems : List Tree → List String
  | [] => []
  | t :: ts => textsOf t ++ textsOfItems ts

/-- The texts of entries, keys included. -/
def textsOfEntries : List (Key × Tree) → List String
  | [] => []
  | (k, t) :: es => keyText k :: textsOf t ++ textsOfEntries es

end

/-- Whether the last literal block keeps the breaks at its end, so that the end needs a mark. -/
def openAtEnd (t : Tree) : Bool :=
  match ((textsOf t).filter fun s => styleOf s = .literal).getLast? with
  | some s => keepsBreaks s.toList
  | none => false

/-- The text of a tree. -/
def write (t : Tree) : String :=
  let body := match t with
    | .fields (e :: es) => writeEntries 0 (e :: es)
    | .list (x :: xs) => writeItems 0 (x :: xs)
    | t => (writeBehind true 0 t).drop 1
  String.ofList (body ++ if openAtEnd t then "...\n".toList else [])

end Muster.Yaml
