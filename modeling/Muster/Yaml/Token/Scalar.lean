import Muster.Yaml.Cursor
import Muster.Yaml.Token.Basic

/-!
# Scalars in YAML texts

* `readQuoted`, `readPlain`, `readBlock`: the text of a scalar and the place behind it.
* A single break between two lines of flowing text becomes a space; of several, the first is dropped.
-/

namespace Muster.Yaml

/-- Blanks and breaks between two pieces of flowing text. -/
structure Gap where
  /-- The blanks, while there is no break. -/
  blanks : List Char := []
  /-- The first break, once there is one. -/
  first : Option (List Char) := none
  /-- The further breaks. -/
  further : List Char := []

namespace Gap

/-- What the gap contributes to the text. -/
def text (g : Gap) : List Char :=
  match g.first with
  | none => g.blanks
  | some ['\n'] => if g.further.isEmpty then [' '] else g.further
  | some b => b ++ g.further

/-- Whether the gap reaches over a break. -/
def broken (g : Gap) : Bool := g.first.isSome

/-- The gap with a further break. -/
def addBreak (g : Gap) (b : List Char) : Gap :=
  match g.first with
  | none => { g with first := some b }
  | some _ => { g with further := g.further ++ b }

/-- The gap with a further blank; behind a break blanks do not count. -/
def addBlank (g : Gap) (c : Char) : Gap :=
  if g.broken then g else { g with blanks := g.blanks ++ [c] }

end Gap

/-- Passes blanks and breaks; `refuse` names the blanks at which the text is rejected. -/
def readGap (refuse : Gap → Cursor → Bool) : Nat → Gap → Cursor → Option (Gap × Cursor)
  | 0, g, c => some (g, c)
  | n + 1, g, c =>
    match c.peek? with
    | none => some (g, c)
    | some d =>
      if isBlank d then
        if refuse g c then none else readGap refuse n (g.addBlank d) c.skip
      else if isBreak d then
        let (b, c) := c.skipLine
        readGap refuse n (g.addBreak b) c
      else some (g, c)

/-! ### Quoted scalars -/

/-- The character behind a backslash, for the escapes of one letter. -/
def escape? : Char → Option Char
  | '0' => some '\x00'
  | 'a' => some '\x07'
  | 'b' => some '\x08'
  | 't' | '\t' => some '\t'
  | 'n' => some '\n'
  | 'v' => some '\x0b'
  | 'f' => some '\x0c'
  | 'r' => some '\r'
  | 'e' => some '\x1b'
  | ' ' => some ' '
  | '"' => some '"'
  | '/' => some '/'
  | '\\' => some '\\'
  | 'N' => some '\u0085'
  | '_' => some '\u00a0'
  | 'L' => some '\u2028'
  | 'P' => some '\u2029'
  | _ => none

/-- The number of hexadecimal digits behind an escape's letter. -/
def escapeWidth? : Char → Option Nat
  | 'x' => some 2
  | 'u' => some 4
  | 'U' => some 8
  | _ => none

/-- Reads the escape behind a backslash. -/
def readEscape (c : Cursor) : Option (Char × Cursor) := do
  let d ← c.peek? 1
  match escapeWidth? d with
  | none => (escape? d).map fun e => (e, c.skip 2)
  | some width =>
    let digits := (c.rest.drop 2).take width
    if digits.length < width then none
    let n ← digits.foldlM (fun n d => (hexValue? d).map (16 * n + ·)) 0
    if n.isValidChar then some (Char.ofNat n, c.skip (2 + width)) else none

/-- Reads a piece without blanks of a scalar between quotes; tells whether an escaped break ends it. -/
def readQuotedPiece (single : Bool) : Nat → List Char → Cursor → Option (List Char × Bool × Cursor)
  | 0, acc, c => some (acc, false, c)
  | n + 1, acc, c =>
    if c.atGap then some (acc, false, c)
    else match c.peek? with
      | none => some (acc, false, c)
      | some d =>
        if single && d = '\x27' && c.seesChar '\x27' 1 then
          readQuotedPiece single n (acc ++ [d]) (c.skip 2)
        else if d = (if single then '\x27' else '"') then some (acc, false, c)
        else if !single && d = '\\' then
          if c.sees isBreak 1 then some (acc, true, c.skip.skipLine.2)
          else match readEscape c with
            | none => none
            | some (e, c) => readQuotedPiece single n (acc ++ [e]) c
        else readQuotedPiece single n (acc ++ [d]) c.skip

/-- Reads a scalar behind its opening quote. -/
def readQuotedRest (single : Bool) : Nat → List Char → Cursor → Option (List Char × Cursor)
  | 0, _, _ => none
  | n + 1, acc, c =>
    if c.atAnyMarker || c.atEnd then none
    else match readQuotedPiece single c.rest.length acc c with
      | none => none
      | some (acc, escaped, c) =>
        if c.seesChar (if single then '\x27' else '"') then some (acc, c.skip)
        else
          -- an escaped break joins the lines without a space
          let start : Gap := if escaped then { first := some [] } else {}
          match readGap (fun _ _ => false) c.rest.length start c with
          | none => none
          | some (g, c) => readQuotedRest single n (acc ++ g.text) c

/-- Reads a scalar between quotes. -/
def readQuoted (single : Bool) (c : Cursor) : Option (Token × Cursor) :=
  (readQuotedRest single (c.rest.length + 1) [] c.skip).map fun (cs, c) =>
    (.scalar (String.ofList cs) (if single then .singleQuoted else .doubleQuoted), c)

/-! ### Plain scalars -/

/-- Whether a plain scalar ends here: before a value's colon, or before an indicator in flow context. -/
def plainEnds (inFlow : Bool) (c : Cursor) : Bool :=
  c.atGap || (c.seesChar ':' && c.atGap 1) || (inFlow && c.sees isFlowIndicator)

/-- Whether a colon stands right before an indicator that may not follow it. -/
def colonClash (c : Cursor) : Bool :=
  c.seesChar ':' && c.sees (fun d => isFlowIndicator d || d = '?') 1

/-- Reads a piece without blanks of a plain scalar. -/
def readPlainPiece (inFlow : Bool) : Nat → List Char → Cursor → Option (List Char × Cursor)
  | 0, acc, c => some (acc, c)
  | n + 1, acc, c =>
    if c.atGap then some (acc, c)
    else if inFlow && colonClash c then none
    else if plainEnds inFlow c then some (acc, c)
    else match c.peek? with
      | none => some (acc, c)
      | some d => readPlainPiece inFlow n (acc ++ [d]) c.skip

/-- Reads a plain scalar up to the gap behind it; `indent` is the least column of its further lines. -/
def readPlainRest (inFlow : Bool) (indent : Nat) :
    Nat → List Char → Gap → Cursor → Option (List Char × Gap × Cursor)
  | 0, acc, g, c => some (acc, g, c)
  | n + 1, acc, g, c =>
    if c.atAnyMarker || c.seesChar '#' then some (acc, g, c)
    else match readPlainPiece inFlow c.rest.length [] c with
      | none => none
      | some (piece, c) =>
        let acc := if piece.isEmpty then acc else acc ++ g.text ++ piece
        let g : Gap := if piece.isEmpty then g else {}
        if c.atEnd || !c.atGap then some (acc, g, c)
        else match readGap (fun g c => g.broken && c.column < indent && c.seesChar '\t') c.rest.length g c with
          | none => none
          | some (g, c) =>
            if !inFlow && c.column < indent then some (acc, g, c)
            else readPlainRest inFlow indent n acc g c

/-- Reads a plain scalar; tells whether a break stands behind it. -/
def readPlain (inFlow : Bool) (indent : Nat) (c : Cursor) : Option (Token × Bool × Cursor) :=
  (readPlainRest inFlow indent (c.rest.length + 1) [] {} c).map fun (cs, g, c) =>
    (.scalar (String.ofList cs) .plain, g.broken, c)

/-! ### Block scalars -/

/-- What becomes of the breaks at the end of a block scalar. -/
inductive Chomping where
  /-- All are dropped. -/
  | strip
  /-- One stays. -/
  | clip
  /-- All stay. -/
  | keep
deriving DecidableEq, Repr

/-- Reads the indicators behind a block scalar's first character: chomping and indentation, in either
order. -/
def readBlockHeader (c : Cursor) : Option (Chomping × Option Nat × Cursor) :=
  let sign? (c : Cursor) : Option Chomping :=
    if c.seesChar '+' then some .keep else if c.seesChar '-' then some .strip else none
  match sign? c, c.peek?.bind digit? with
  | some chomp, _ =>
    let c := c.skip
    match c.peek?.bind digit? with
    | some 0 => none
    | some d => some (chomp, some d, c.skip)
    | none => some (chomp, none, c)
  | none, some 0 => none
  | none, some d =>
    let c := c.skip
    match sign? c with
    | some chomp => some (chomp, some d, c.skip)
    | none => some (.clip, some d, c)
  | none, none => some (.clip, none, c)

/-- Passes indentation and empty lines. While the indentation is not known, the deepest column is
noted. -/
def readIndentation (indent : Option Nat) :
    Nat → Nat → List Char → Cursor → Option (Nat × List Char × Cursor)
  | 0, deepest, breaks, c => some (deepest, breaks, c)
  | n + 1, deepest, breaks, c =>
    let within (c : Cursor) : Bool := indent.all (c.column < ·)
    let spaces := (c.rest.takeWhile (· = ' ')).length
    let c := c.skip (match indent with
      | none => spaces
      | some i => min spaces (i - c.column))
    let deepest := max deepest c.column
    if within c && c.seesChar '\t' then none
    else if c.sees isBreak then
      let (b, c) := c.skipLine
      readIndentation indent n deepest (breaks ++ b) c
    else some (deepest, breaks, c)

/-- Reads the lines of a block scalar. `pending` is the break behind the last line and `blank` tells
whether that line began with a blank. -/
def readBlockLines (folded : Bool) (indent : Nat) :
    Nat → List Char → List Char → List Char → Bool → Cursor →
      Option (List Char × List Char × List Char × Cursor)
  | 0, acc, pending, breaks, _, c => some (acc, pending, breaks, c)
  | n + 1, acc, pending, breaks, blank, c =>
    if c.column ≠ indent || c.atEnd then some (acc, pending, breaks, c)
    else
      let startsBlank := c.sees isBlank
      let joint :=
        if folded && pending = ['\n'] && !blank && !startsBlank then
          if breaks.isEmpty then [' '] else []
        else pending
      let (line, c) := c.takeWhile (fun d => !isBreak d)
      let (b, c) := c.skipLine
      match readIndentation (some indent) (c.rest.length + 1) 0 [] c with
      | none => none
      | some (_, breaks', c) =>
        readBlockLines folded indent n (acc ++ joint ++ breaks ++ line) b breaks' startsBlank c

/-- Reads a block scalar inside a block that is indented to `parent`, if there is one. -/
def readBlock (folded : Bool) (parent : Option Nat) (c : Cursor) : Option (Token × Cursor) := do
  let (chomp, increment, c) ← readBlockHeader c.skip
  let c := c.skipWhile isBlank
  let c := if c.seesChar '#' then c.skipWhile (fun d => !isBreak d) else c
  if !c.atBreak then none
  let c := c.skipLine.2
  let given := increment.map fun i => parent.getD 0 + i
  let (deepest, breaks, c) ← readIndentation given (c.rest.length + 1) 0 [] c
  let least := match parent with
    | some p => p + 1
    | none => 1
  let indent := given.getD (max deepest least)
  let (cs, pending, breaks, c) ← readBlockLines folded indent (c.rest.length + 1) [] [] breaks false c
  let tail := match chomp with
    | .strip => []
    | .clip => pending
    | .keep => pending ++ breaks
  some (.scalar (String.ofList (cs ++ tail)) (if folded then .folded else .literal), c)

end Muster.Yaml
