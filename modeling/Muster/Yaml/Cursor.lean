/-!
# A place in a YAML text

* `Cursor`: the characters ahead, and the place reached, counted in characters, lines and columns.
* `allowed`: the characters that a text may hold.
* A line ends at a line feed, a carriage return or both, or at one of three other breaks.
-/

namespace Muster.Yaml

/-! ### Characters -/

/-- Whether a text may hold the character. -/
def allowed (c : Char) : Bool :=
  let n := c.toNat
  n = 0x09 || n = 0x0A || n = 0x0D || (0x20 ≤ n && n ≤ 0x7E) || n = 0x85 || (0xA0 ≤ n && n ≤ 0xD7FF) ||
    (0xE000 ≤ n && n ≤ 0xFFFD) || 0x10000 ≤ n

/-- Whether the character is a space or a tab. -/
def isBlank (c : Char) : Bool := c = ' ' || c = '\t'

/-- Whether the character ends a line. -/
def isBreak (c : Char) : Bool :=
  c = '\n' || c = '\r' || c = '\u0085' || c = '\u2028' || c = '\u2029'

/-- Whether names may hold the character: ASCII letters and digits, the underscore and the hyphen. -/
def isNameChar (c : Char) : Bool :=
  ('0' ≤ c && c ≤ '9') || ('A' ≤ c && c ≤ 'Z') || ('a' ≤ c && c ≤ 'z') || c = '_' || c = '-'

/-- Whether the character is one of the flow indicators that end plain text in flow collections. -/
def isFlowIndicator (c : Char) : Bool := c ∈ [',', '[', ']', '\x7b', '\x7d']

/-- The value of a decimal digit. -/
def digit? (c : Char) : Option Nat :=
  if '0' ≤ c ∧ c ≤ '9' then some (c.toNat - 48) else none

/-- The value of a hexadecimal digit. -/
def hexValue? (c : Char) : Option Nat :=
  if '0' ≤ c ∧ c ≤ '9' then some (c.toNat - 48)
  else if 'a' ≤ c ∧ c ≤ 'f' then some (c.toNat - 87)
  else if 'A' ≤ c ∧ c ≤ 'F' then some (c.toNat - 55)
  else none

/-! ### Places -/

/-- A place in a text. -/
structure Cursor where
  /-- The characters ahead. -/
  rest : List Char
  /-- The number of characters behind. -/
  index : Nat := 0
  /-- The number of lines behind. -/
  line : Nat := 0
  /-- The number of characters behind in this line. -/
  column : Nat := 0

namespace Cursor

/-- The character at a distance ahead. -/
def peek? (c : Cursor) (i : Nat := 0) : Option Char := c.rest[i]?

/-- Whether the character at a distance ahead is there and satisfies `p`. -/
def sees (c : Cursor) (p : Char → Bool) (i : Nat := 0) : Bool :=
  match c.rest[i]? with
  | some d => p d
  | none => false

/-- Whether a given character stands at a distance ahead. -/
def seesChar (c : Cursor) (d : Char) (i : Nat := 0) : Bool := c.rest[i]? = some d

/-- Whether the text ends here. -/
def atEnd (c : Cursor) : Bool := c.rest.isEmpty

/-- Whether the text or the line ends at a distance ahead. -/
def atBreak (c : Cursor) (i : Nat := 0) : Bool := (c.rest[i]?).all isBreak

/-- Whether the text or the line ends at a distance ahead, or a blank stands there. -/
def atGap (c : Cursor) (i : Nat := 0) : Bool := (c.rest[i]?).all fun d => isBreak d || isBlank d

/-- The place `n` characters further in the same line. -/
def skip (c : Cursor) (n : Nat := 1) : Cursor :=
  { c with rest := c.rest.drop n, index := c.index + n, column := c.column + n }

/-- The start of the next line, and the break in between as it counts in a text. -/
def skipLine (c : Cursor) : List Char × Cursor :=
  match c.rest with
  | '\r' :: '\n' :: rest => (['\n'], ⟨rest, c.index + 2, c.line + 1, 0⟩)
  | d :: rest =>
    if d = '\n' ∨ d = '\r' ∨ d = '\u0085' then (['\n'], ⟨rest, c.index + 1, c.line + 1, 0⟩)
    else if isBreak d then ([d], ⟨rest, c.index + 1, c.line + 1, 0⟩)
    else ([], c)
  | [] => ([], c)

/-- Goes on in the line while `p` holds; gives the characters passed. -/
def takeWhile (c : Cursor) (p : Char → Bool) : List Char × Cursor :=
  let passed := c.rest.takeWhile p
  (passed, c.skip passed.length)

/-- Goes on in the line while `p` holds. -/
def skipWhile (c : Cursor) (p : Char → Bool) : Cursor := (c.takeWhile p).2

/-- Whether a document marker, three times the character, stands at the start of this line. -/
def atMarker (c : Cursor) (d : Char) : Bool :=
  c.column = 0 && c.seesChar d && c.seesChar d 1 && c.seesChar d 2 && c.atGap 3

/-- Whether any document marker stands at the start of this line. -/
def atAnyMarker (c : Cursor) : Bool := c.atMarker '-' || c.atMarker '.'

end Cursor

end Muster.Yaml
