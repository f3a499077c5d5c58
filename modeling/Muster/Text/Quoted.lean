import Muster.Text.Coded

/-!
# Quoted text

* `quoted`: a text between double quotes, with short escapes for the usual controls and code points
  in braces for characters that have no shape of their own.
* `quotedPath`: the same for file paths, where the single quote is escaped as well.
-/

namespace Muster.Text

/-- The code point of a character in lower-case hexadecimal digits, between braces. -/
def codeInBraces (c : Char) : List Char :=
  ['\\', 'u', '\x7b'] ++ Nat.toDigits 16 c.toNat ++ ['\x7d']

/-- The letter of the short escape of a character that has one. -/
def escapeLetter? : Char → Option Char
  | '\x00' => some '0'
  | '\t' => some 't'
  | '\r' => some 'r'
  | '\n' => some 'n'
  | '\\' => some '\\'
  | '"' => some '"'
  | _ => none

/-- One character as it stands in quoted text. -/
def quotedChar (c : Char) : List Char :=
  match escapeLetter? c with
  | some l => ['\\', l]
  | none => if coded c then codeInBraces c else [c]

/-- A text between double quotes. -/
def quoted (s : String) : String :=
  String.ofList ('"' :: s.toList.flatMap quotedChar ++ ['"'])

/-- A file path between double quotes; a single quote in it stands behind a backslash. -/
def quotedPath (s : String) : String :=
  String.ofList ('"' :: s.toList.flatMap (fun c => if c = '\x27' then ['\\', c] else quotedChar c) ++ ['"'])

/-- Texts between square brackets, separated by commas. -/
def bracketed (l : List String) : String := "[" ++ ", ".intercalate l ++ "]"

/-- Texts between braces, separated by commas. -/
def braced (l : List String) : String := "\x7b" ++ ", ".intercalate l ++ "\x7d"

/-- A named record with its fields in order; `partly` marks one that shows only some of them. -/
def shownRecord (name : String) (fields : List (String × String)) (partly : Bool := false) : String :=
  let shown := fields.map fun f => f.1 ++ ": " ++ f.2
  let shown := if partly then shown ++ [".."] else shown
  if shown.isEmpty then name else name ++ " \x7b " ++ ", ".intercalate shown ++ " \x7d"

/-- A named wrapper around shown values. -/
def shownTuple (name : String) (args : List String) : String :=
  name ++ "(" ++ ", ".intercalate args ++ ")"

/-- A value that may be absent. -/
def shownOption : Option String → String
  | none => "None"
  | some s => shownTuple "Some" [s]

end Muster.Text
