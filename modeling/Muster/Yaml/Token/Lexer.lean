import Muster.Decimal.Power
import Muster.Yaml.Token.Scalar

/-!
# Tokens of a text

* `Lexer`: what is known at a place in a text: the open blocks, the open flow collections, and for each
  of these the place at which a key without a mark of its own may have begun.
* `Lexer.step`: the tokens that begin at the next place that is neither blank nor comment.
* `tokens?`: all tokens of a text, or nothing when the text breaks a rule of the grammar below nodes.

A key without a mark shows only by the colon behind it, so its tokens are put in front of it afterwards.
-/

namespace Muster.Yaml

/-- A place at which a key without a mark may have begun. -/
structure KeyStart where
  /-- Nothing but a key may stand there. -/
  required : Bool
  /-- The number of tokens in front of it. -/
  tokens : Nat
  /-- The place in the text. -/
  index : Nat
  /-- The line of the place. -/
  line : Nat
  /-- The column of the place. -/
  column : Nat

/-- What is known at a place in a text. -/
structure Lexer where
  /-- The place. -/
  cursor : Cursor
  /-- The tokens so far. -/
  tokens : Array Token := #[]
  /-- The indentation of the innermost block, if there is one. -/
  indent : Option Nat := none
  /-- The indentations of the blocks around it, innermost first. -/
  outer : List (Option Nat) := []
  /-- The number of open flow collections. -/
  flow : Nat := 0
  /-- The possible key of the innermost flow collection, or of the blocks outside of all. -/
  pending : Option KeyStart := none
  /-- The possible keys further out, innermost first. -/
  pendingOuter : List (Option KeyStart) := []
  /-- Whether a key without a mark may begin here. -/
  keyAllowed : Bool := true
  /-- The text has ended. -/
  done : Bool := false

namespace Lexer

/-- Whether the place is inside a flow collection. -/
def inFlow (s : Lexer) : Bool := s.flow ≠ 0

/-- Appends a token. -/
def push (s : Lexer) (t : Token) : Lexer := { s with tokens := s.tokens.push t }

/-- Puts a token in front of those from a number on. -/
def insert (s : Lexer) (number : Nat) (t : Token) : Lexer :=
  { s with tokens := s.tokens.insertIdxIfInBounds number t }

/-! ### Blanks -/

/-- Passes blanks, comments and breaks. Tabs count as blanks where no key may begin. -/
def skipBlanks : Nat → Lexer → Lexer
  | 0, s => s
  | n + 1, s =>
    let c := s.cursor
    let c := if c.index = 0 && c.seesChar '\ufeff' then c.skip else c
    let c := c.skipWhile fun d => d = ' ' || (d = '\t' && (s.inFlow || !s.keyAllowed))
    let c := if c.seesChar '#' then c.skipWhile (fun d => !isBreak d) else c
    if c.sees isBreak then
      skipBlanks n { s with cursor := c.skipLine.2, keyAllowed := s.keyAllowed || !s.inFlow }
    else { s with cursor := c }

/-! ### Blocks -/

/-- Whether a column lies deeper than an indentation. -/
def deeper (indent : Option Nat) (column : Nat) : Bool := indent.all (· < column)

/-- Opens a block at a column that lies deeper than the innermost one, its token in front of those from
a number on. -/
def openBlock (s : Lexer) (column number : Nat) (t : Token) : Lexer :=
  if s.inFlow || !deeper s.indent column then s
  else { s.insert number t with indent := some column, outer := s.indent :: s.outer }

/-- Closes the blocks that lie deeper than a column; without a column, all of them. -/
def closeBlocks (s : Lexer) (column : Option Nat) : Lexer :=
  if s.inFlow then s else go s (s.outer.length + 1)
where
  /-- Closes at most `n` blocks. -/
  go (s : Lexer) : Nat → Lexer
    | 0 => s
    | n + 1 =>
      match s.indent, s.outer with
      | some i, outer :: rest =>
        if column.all (· < i) then go { s.push .blockEnd with indent := outer, outer := rest } n else s
      | _, _ => s

/-! ### Keys without a mark -/

/-- The possible key of a level at a place: forgotten once it spans a line or 1024 characters. -/
def freshKey (c : Cursor) : Option KeyStart → Option (Option KeyStart)
  | none => some none
  | some k =>
    if k.line < c.line || k.index + 1024 < c.index then (if k.required then none else some none)
    else some (some k)

/-- Forgets possible keys that began too far back. -/
def forgetOld (s : Lexer) : Option Lexer := do
  some { s with
    pending := ← freshKey s.cursor s.pending
    pendingOuter := ← s.pendingOuter.mapM (freshKey s.cursor) }

/-- Forgets the possible key of the innermost level. -/
def dropKey (s : Lexer) : Option Lexer :=
  if s.pending.any (·.required) then none else some { s with pending := none }

/-- Notes that a key may begin here. -/
def noteKey (s : Lexer) : Option Lexer :=
  if s.keyAllowed then do
    let s ← s.dropKey
    let c := s.cursor
    let required := !s.inFlow && s.indent = some c.column
    some { s with pending := some ⟨required, s.tokens.size, c.index, c.line, c.column⟩ }
  else some s

/-! ### Names -/

/-- Reads an anchor or an alias. -/
def readName (c : Cursor) : Option (String × Cursor) :=
  let (name, c) := c.skip.takeWhile isNameChar
  let ends := c.atGap || c.sees fun d => d ∈ ['?', ':', ',', ']', '\x7d', '%', '@', '\x60']
  if name.isEmpty || !ends then none else some (String.ofList name, c)

/-- Whether tags may hold the character; a verbatim tag may also hold some flow indicators. -/
def isTagChar (verbatim : Bool) (c : Char) : Bool :=
  isNameChar c || c ∈ ";/?:@&=+$.%!~*\x27()".toList || (verbatim && c ∈ [',', '[', ']'])

/-- The number of bytes of the character that a byte begins. -/
def widthOfLead (b : Nat) : Option Nat :=
  if b < 0x80 then some 1
  else if 0xC0 ≤ b ∧ b < 0xE0 then some 2
  else if 0xE0 ≤ b ∧ b < 0xF0 then some 3
  else if 0xF0 ≤ b ∧ b < 0xF8 then some 4
  else none

/-- Reads a byte behind a percent sign. -/
def readByte (c : Cursor) : Option (Nat × Cursor) := do
  if !c.seesChar '%' then none
  let hi ← (c.peek? 1).bind hexValue?
  let lo ← (c.peek? 2).bind hexValue?
  some (16 * hi + lo, c.skip 3)

/-- Reads a character whose bytes stand behind percent signs. -/
def readEncoded (c : Cursor) : Option (Char × Cursor) := do
  let (lead, c) ← readByte c
  let width ← widthOfLead lead
  let start := if width = 1 then lead else lead % twoTo (7 - width)
  let (code, c) ← (List.range (width - 1)).foldlM (fun (n, c) _ => do
    let (b, c) ← readByte c
    if b / 64 = 2 then some (64 * n + b % 64, c) else none) (start, c)
  some (Char.ofNat code, c)

/-- Reads the characters of a tag. -/
def readTagChars (verbatim : Bool) : Nat → List Char → Cursor → Option (List Char × Cursor)
  | 0, acc, c => some (acc, c)
  | n + 1, acc, c =>
    match c.peek? with
    | none => some (acc, c)
    | some d =>
      if !isTagChar verbatim d then some (acc, c)
      else if d = '%' then
        match readEncoded c with
        | none => none
        | some (e, c) => readTagChars verbatim n (acc ++ [e]) c
      else readTagChars verbatim n (acc ++ [d]) c.skip

/-- Reads an exclamation mark, a name and, if it is there, a second mark. -/
def readHandle (c : Cursor) : List Char × Cursor :=
  let (name, c) := c.skip.takeWhile isNameChar
  if c.seesChar '!' then ('!' :: name ++ ['!'], c.skip) else ('!' :: name, c)

/-- Reads a tag as a handle and what stands behind it. -/
def readTag (inFlow : Bool) (c : Cursor) : Option (Token × Cursor) := do
  let (handle, suffix, c) ← if c.seesChar '<' 1 then do
      let (suffix, c) ← readTagChars true c.rest.length [] (c.skip 2)
      if suffix.isEmpty || !c.seesChar '>' then none
      some ([], suffix, c.skip)
    else
      let (handle, after) := readHandle c
      if handle.length > 1 && handle.getLast? = some '!' then do
        let (suffix, c) ← readTagChars false c.rest.length [] after
        if suffix.isEmpty then none
        some (handle, suffix, c)
      else do
        let (suffix, c) ← readTagChars false c.rest.length (handle.drop 1) after
        if suffix.isEmpty then some ([], ['!'], c) else some (['!'], suffix, c)
  if c.atGap || (inFlow && c.seesChar ',') then
    some (.tag (String.ofList handle) (String.ofList suffix), c)
  else none

/-! ### Directives -/

/-- Reads a number of at most nine digits. -/
def readVersionPart (c : Cursor) : Option (Nat × Cursor) :=
  let (ds, c) := c.takeWhile fun d => (digit? d).isSome
  if ds.isEmpty || ds.length > 9 then none
  else some (ds.foldl (fun n d => 10 * n + (digit? d).getD 0) 0, c)

/-- Reads the rest of a directive's line. -/
def readLineEnd (c : Cursor) : Option Cursor :=
  let c := c.skipWhile isBlank
  let c := if c.seesChar '#' then c.skipWhile (fun d => !isBreak d) else c
  if c.atBreak then some c.skipLine.2 else none

/-- Reads a directive. -/
def readDirective (c : Cursor) : Option (Token × Cursor) := do
  let (name, c) := c.skip.takeWhile isNameChar
  if name.isEmpty || !c.atGap then none
  let c := c.skipWhile isBlank
  if name = "YAML".toList then
    let (major, c) ← readVersionPart c
    if !c.seesChar '.' then none
    let (minor, c) ← readVersionPart c.skip
    some (.version major minor, ← readLineEnd c)
  else if name = "TAG".toList then
    if !c.seesChar '!' then none
    let (handle, c) := readHandle c
    if (handle.length > 1 && handle.getLast? ≠ some '!') || !c.sees isBlank then none
    let c := c.skipWhile isBlank
    let (full, c) ← readTagChars true c.rest.length [] c
    if full.isEmpty || !c.atGap then none
    some (.abbreviation (String.ofList handle) (String.ofList full), ← readLineEnd c)
  else none

/-! ### Single tokens -/

/-- Ends the document above: closes all blocks, and no key may begin before the next line. -/
def breakOff (s : Lexer) : Option Lexer := do
  some { ← (s.closeBlocks none).dropKey with keyAllowed := false }

/-- Ends the text. -/
def finish (s : Lexer) : Option Lexer := do
  let s ← s.breakOff
  some { s.push .textEnd with done := true }

/-- Takes a token of `width` characters. -/
def take (s : Lexer) (t : Token) (width : Nat := 1) : Lexer :=
  { s.push t with cursor := s.cursor.skip width }

/-- Opens a flow collection. -/
def openFlow (s : Lexer) (t : Token) : Option Lexer := do
  let s ← s.noteKey
  some { s.take t with
    flow := s.flow + 1
    pending := none
    pendingOuter := s.pending :: s.pendingOuter
    keyAllowed := true }

/-- Closes a flow collection. -/
def closeFlow (s : Lexer) (t : Token) : Option Lexer := do
  let s := { ← s.dropKey with keyAllowed := false }
  match s.pendingOuter with
  | k :: ks => some { s.take t with flow := s.flow - 1, pending := k, pendingOuter := ks }
  | [] => some (s.take t)

/-- A comma. -/
def takeFlowItem (s : Lexer) : Option Lexer := do
  some { (← s.dropKey).take .flowItem with keyAllowed := true }

/-- A dash. -/
def takeBlockItem (s : Lexer) : Option Lexer := do
  if !s.inFlow && !s.keyAllowed then none
  let s := s.openBlock s.cursor.column s.tokens.size .blockListStart
  some { (← s.dropKey).take .blockItem with keyAllowed := true }

/-- A question mark. -/
def takeKey (s : Lexer) : Option Lexer := do
  if !s.inFlow && !s.keyAllowed then none
  let s := s.openBlock s.cursor.column s.tokens.size .blockMapStart
  some { (← s.dropKey).take .key with keyAllowed := !s.inFlow }

/-- A colon. -/
def takeValue (s : Lexer) : Option Lexer :=
  match s.pending with
  | some k =>
    let s := (s.insert k.tokens .key).openBlock k.column k.tokens .blockMapStart
    some { s.take .value with pending := none, keyAllowed := false }
  | none =>
    if !s.inFlow && !s.keyAllowed then none
    else
      let s := s.openBlock s.cursor.column s.tokens.size .blockMapStart
      some { s.take .value with keyAllowed := !s.inFlow }

/-- A token that may be a key or stand in front of one. -/
def takeNode (s : Lexer) (read : Cursor → Option (Token × Cursor)) : Option Lexer := do
  let s ← s.noteKey
  let (t, c) ← read s.cursor
  some { s.push t with cursor := c, keyAllowed := false }

/-- A plain scalar. -/
def takePlain (s : Lexer) : Option Lexer := do
  let s ← s.noteKey
  let least := match s.indent with
    | some i => i + 1
    | none => 0
  let (t, broken, c) ← readPlain s.inFlow least s.cursor
  some { s.push t with cursor := c, keyAllowed := broken }

/-- A block scalar. -/
def takeBlockScalar (s : Lexer) (folded : Bool) : Option Lexer := do
  let s ← s.dropKey
  let (t, c) ← readBlock folded s.indent s.cursor
  some { s.push t with cursor := c, keyAllowed := true }

/-- Whether a plain scalar may begin here. -/
def startsPlain (s : Lexer) : Bool :=
  let c := s.cursor
  let indicator (d : Char) : Bool := d ∈ "-?:,[]\x7b\x7d#&*!|>\x27\"%@\x60".toList
  (!c.atGap && !c.sees indicator) || (c.seesChar '-' && !c.sees isBlank 1) ||
    (!s.inFlow && (c.seesChar '?' || c.seesChar ':') && !c.atGap 1)

/-- The tokens that begin at the next place that is neither blank nor comment. -/
def step (s : Lexer) : Option Lexer := do
  let s ← (skipBlanks (s.cursor.rest.length + 1) s).forgetOld
  let c := s.cursor
  let s := s.closeBlocks (some c.column)
  match c.peek? with
  | none => s.finish
  | some d =>
    if c.column = 0 && d = '%' then
      let s ← s.breakOff
      let (t, c) ← readDirective c
      some { s.push t with cursor := c }
    else if c.atMarker '-' then (s.breakOff).map (·.take .documentStart 3)
    else if c.atMarker '.' then (s.breakOff).map (·.take .documentEnd 3)
    else if d = '[' then s.openFlow .flowListStart
    else if d = '\x7b' then s.openFlow .flowMapStart
    else if d = ']' then s.closeFlow .flowListEnd
    else if d = '\x7d' then s.closeFlow .flowMapEnd
    else if d = ',' then s.takeFlowItem
    else if d = '-' && c.atGap 1 then s.takeBlockItem
    else if d = '?' && (s.inFlow || c.atGap 1) then s.takeKey
    else if d = ':' && (s.inFlow || c.atGap 1) then s.takeValue
    else if d = '*' then s.takeNode fun c => (readName c).map fun (n, c) => (.alias n, c)
    else if d = '&' then s.takeNode fun c => (readName c).map fun (n, c) => (.anchor n, c)
    else if d = '!' then s.takeNode (readTag s.inFlow)
    else if d = '|' && !s.inFlow then s.takeBlockScalar false
    else if d = '>' && !s.inFlow then s.takeBlockScalar true
    else if d = '\x27' then s.takeNode (readQuoted true)
    else if d = '"' then s.takeNode (readQuoted false)
    else if s.startsPlain then s.takePlain
    else none

/-- Takes steps up to the end of the text; each passes at least one character. -/
def run : Nat → Lexer → Option Lexer
  | 0, s => if s.done then some s else none
  | n + 1, s => if s.done then some s else s.step.bind (run n)

end Lexer

/-- The tokens of a text. -/
def tokens? (text : String) : Option (List Token) :=
  let cs := text.toList
  if cs.all allowed then
    (Lexer.run (cs.length + 2) { cursor := { rest := cs } }).map (·.tokens.toList)
  else none

end Muster.Yaml
