import Muster.Tree.Numeral

/-!
# Reading JSON text

* `Json.parse?`: the tree of a text, or nothing when the text does not follow the grammar.
* Texts with half a surrogate pair, numbers beyond every finite one, and lists or maps more than 127
  levels deep become flawed parts.
-/

namespace Muster.Json

/-- The deepest level at which a list or a map may stand. -/
def maxDepth : Nat := 127

/-- Drops leading white space. -/
def skipSpace (cs : List Char) : List Char :=
  cs.dropWhile fun c => c = ' ' || c = '\n' || c = '\t' || c = '\r'

/-- The value of a hexadecimal digit. -/
def hexValue? (c : Char) : Option Nat :=
  if '0' ≤ c ∧ c ≤ '9' then some (c.toNat - 48)
  else if 'a' ≤ c ∧ c ≤ 'f' then some (c.toNat - 87)
  else if 'A' ≤ c ∧ c ≤ 'F' then some (c.toNat - 55)
  else none

/-- The value of a decimal digit. -/
def digit? (c : Char) : Option Nat :=
  if '0' ≤ c ∧ c ≤ '9' then some (c.toNat - 48) else none

/-! ### Texts -/

/-- The character behind a backslash, for the short escapes. -/
def shortEscape? : Char → Option Char
  | '"' => some '"'
  | '\\' => some '\\'
  | '/' => some '/'
  | 'b' => some '\x08'
  | 'f' => some '\x0c'
  | 'n' => some '\n'
  | 'r' => some '\r'
  | 't' => some '\t'
  | _ => none

/-- Reads the inside of a text up to its closing quote, as code units: characters, and the 16-bit
units that escapes name. -/
def readUnits : List Char → Option (List Nat × List Char)
  | [] => none
  | '"' :: rest => some ([], rest)
  | '\\' :: 'u' :: a :: b :: c :: d :: rest => do
    let a ← hexValue? a
    let b ← hexValue? b
    let c ← hexValue? c
    let d ← hexValue? d
    let (us, rest) ← readUnits rest
    some ((((a * 16 + b) * 16 + c) * 16 + d) :: us, rest)
  | '\\' :: e :: rest => do
    let e ← shortEscape? e
    let (us, rest) ← readUnits rest
    some (e.toNat :: us, rest)
  | c :: rest =>
    if c = '\\' ∨ c.toNat < 0x20 then none
    else (readUnits rest).map fun (us, rest) => (c.toNat :: us, rest)

/-- Joins surrogate pairs; `none` when half a pair stands alone. -/
def joinUnits : List Nat → Option (List Char)
  | [] => some []
  | hi :: lo :: us =>
    if 0xD800 ≤ hi ∧ hi ≤ 0xDBFF then
      if 0xDC00 ≤ lo ∧ lo ≤ 0xDFFF then
        (joinUnits us).map (Char.ofNat (0x10000 + (hi - 0xD800) * 0x400 + (lo - 0xDC00)) :: ·)
      else none
    else if 0xDC00 ≤ hi ∧ hi ≤ 0xDFFF then none
    else (joinUnits (lo :: us)).map (Char.ofNat hi :: ·)
  | [u] => if 0xD800 ≤ u ∧ u ≤ 0xDFFF then none else some [Char.ofNat u]

/-- Reads a text behind its opening quote; the text is absent when it is flawed. -/
def readText (cs : List Char) : Option (Option String × List Char) :=
  (readUnits cs).map fun (us, rest) => ((joinUnits us).map String.ofList, rest)

/-! ### Numbers -/

/-- Splits off the leading digits. -/
def readDigits : List Char → List Nat × List Char
  | [] => ([], [])
  | c :: cs =>
    match digit? c with
    | some d => (d :: (readDigits cs).1, (readDigits cs).2)
    | none => ([], c :: cs)

/-- Reads the digits behind a point, of which there is at least one. -/
def readFraction : List Char → Option (Option (List Nat) × List Char)
  | '.' :: cs =>
    match readDigits cs with
    | ([], _) => none
    | (ds, rest) => some (some ds, rest)
  | cs => some (none, cs)

/-- Reads an exponent. -/
def readExponent : List Char → Option (Option (Bool × List Nat) × List Char)
  | c :: cs =>
    if c = 'e' ∨ c = 'E' then
      let (negative, cs) := match cs with
        | '-' :: cs => (true, cs)
        | '+' :: cs => (false, cs)
        | cs => (false, cs)
      match readDigits cs with
      | ([], _) => none
      | (ds, rest) => some (some (negative, ds), rest)
    else some (none, c :: cs)
  | [] => some (none, [])

/-- Reads a number behind its sign. -/
def readNumber (negative : Bool) (cs : List Char) : Option (Tree × List Char) := do
  let (whole, cs) := readDigits cs
  if whole.isEmpty ∨ (whole.head? = some 0 ∧ whole.length > 1) then none
  let (fraction, cs) ← readFraction cs
  let (exponent, cs) ← readExponent cs
  some (Numeral.tree ⟨negative, whole, fraction, exponent⟩, cs)

/-! ### Values -/

/-- A list, flawed beyond the deepest level. -/
def listAt (depth : Nat) (items : List Tree) : Tree :=
  if depth > maxDepth then .flawed else .list items

/-- A map, flawed beyond the deepest level or when one of its keys is. -/
def fieldsAt (depth : Nat) (entries : List (Option String × Tree)) : Tree :=
  if depth > maxDepth then .flawed
  else match entries.mapM (fun e => e.1.map fun k => (Key.text k, e.2)) with
    | some entries => .fields entries
    | none => .flawed

/-- Drops the given characters from the front, if they stand there. -/
def dropWord? (word cs : List Char) : Option (List Char) :=
  if word.isPrefixOf cs then some (cs.drop word.length) else none

mutual

/-- Reads a value that stands at the given level. -/
def readValue (depth : Nat) : Nat → List Char → Option (Tree × List Char)
  | 0, _ => none
  | fuel + 1, cs =>
    match skipSpace cs with
    | '"' :: cs => (readText cs).map fun (s, rest) => (s.elim .flawed .text, rest)
    | '[' :: cs =>
      match skipSpace cs with
      | ']' :: rest => some (listAt depth [], rest)
      | cs => (readItems (depth + 1) fuel cs).map fun (ts, rest) => (listAt depth ts, rest)
    | '\x7b' :: cs =>
      match skipSpace cs with
      | '\x7d' :: rest => some (fieldsAt depth [], rest)
      | cs => (readEntries (depth + 1) fuel cs).map fun (es, rest) => (fieldsAt depth es, rest)
    | 'n' :: cs => (dropWord? "ull".toList cs).map fun rest => (.null, rest)
    | 't' :: cs => (dropWord? "rue".toList cs).map fun rest => (.bool true, rest)
    | 'f' :: cs => (dropWord? "alse".toList cs).map fun rest => (.bool false, rest)
    | '-' :: cs => readNumber true cs
    | cs => readNumber false cs

/-- Reads the items of a list up to its closing bracket. -/
def readItems (depth : Nat) : Nat → List Char → Option (List Tree × List Char)
  | 0, _ => none
  | fuel + 1, cs => do
    let (t, cs) ← readValue depth fuel cs
    match skipSpace cs with
    | ',' :: cs => (readItems depth fuel cs).map fun (ts, rest) => (t :: ts, rest)
    | ']' :: rest => some ([t], rest)
    | _ => none

/-- Reads the entries of a map up to its closing brace. -/
def readEntries (depth : Nat) : Nat → List Char → Option (List (Option String × Tree) × List Char)
  | 0, _ => none
  | fuel + 1, cs =>
    match skipSpace cs with
    | '"' :: cs => do
      let (key, cs) ← readText cs
      match skipSpace cs with
      | ':' :: cs => do
        let (t, cs) ← readValue depth fuel cs
        match skipSpace cs with
        | ',' :: cs => (readEntries depth fuel cs).map fun (es, rest) => ((key, t) :: es, rest)
        | '\x7d' :: rest => some ([(key, t)], rest)
        | _ => none
      | _ => none
    | _ => none

end

/-- The tree of a JSON text. -/
def parse? (s : String) : Option Tree :=
  let cs := s.toList
  -- every step of the readers consumes a character, so their number is bounded by the length
  match readValue 1 (2 * cs.length + 2) cs with
  | some (t, rest) => if (skipSpace rest).isEmpty then some t else none
  | none => none

end Muster.Json
