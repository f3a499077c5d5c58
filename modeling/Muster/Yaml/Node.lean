import Muster.Yaml.Token.Lexer

/-!
# Nodes of YAML documents

* `Node`: scalars, lists and maps with their tags, and references to nodes that carry an anchor.
* `Document`: the root of the first document of a text, and the nodes that carry anchors.
* `Document.ofText?`: reads a text that holds one document, or none at all.

What an anchor refers to is numbered by the names there are when it is set; of two nodes with one
number the later one counts.
-/

namespace Muster.Yaml

/-- A part of a document. -/
inductive Node where
  /-- There is no document. -/
  | void
  /-- A reference to a node with an anchor. -/
  | alias (target : Nat)
  /-- A text. -/
  | scalar (tag? : Option String) (style : Style) (text : String)
  /-- A list. -/
  | list (tag? : Option String) (items : List Node)
  /-- A map with its entries in order. -/
  | map (tag? : Option String) (entries : List (Node × Node))
deriving Inhabited

/-- A node that carries an anchor. -/
structure Anchored where
  /-- The number by which the node is referred to. -/
  target : Nat
  /-- The place of the node in the order of the text. -/
  place : Nat
  /-- The node. -/
  node : Node

/-- A document. -/
structure Document where
  /-- The outermost node. -/
  root : Node
  /-- The nodes that carry anchors. -/
  anchored : List Anchored := []
  /-- The number of scalars, references, and starts and ends of lists and maps. -/
  events : Nat := 0

/-- What is known at a place among the tokens. -/
structure Builder where
  /-- The tokens ahead. -/
  tokens : List Token
  /-- The abbreviations for tags. -/
  abbreviations : List (String × String) := []
  /-- The number of each anchor's name. -/
  names : List (String × Nat) := []
  /-- The nodes that carry anchors. -/
  anchored : List Anchored := []
  /-- The number of scalars, references, and starts and ends of lists and maps so far. -/
  events : Nat := 0

/-- Reads from tokens. -/
abbrev Build := StateT Builder Option

namespace Build

/-- The next token. -/
def peek : Build Token := do return ((← get).tokens.head?).getD .textEnd

/-- Passes the next token. -/
def skip : Build Unit := modify fun s => { s with tokens := s.tokens.drop 1 }

/-- Counts events; gives the place of the first. -/
def count (n : Nat) : Build Nat :=
  modifyGet fun s => (s.events, { s with events := s.events + n })

/-- Rejects the text. -/
def reject {α : Type} : Build α := fun _ => none

/-- The full form of a tag. -/
def fullTag (handle suffix : String) : Build String := do
  if handle.isEmpty then return suffix
  match (← get).abbreviations.find? (·.1 = handle) with
  | some (_, full) => return full ++ suffix
  | none => reject

/-- Reads a tag, if one stands here. -/
def readTag? : Build (Option String) := do
  match ← peek with
  | .tag handle suffix => skip; return some (← fullTag handle suffix)
  | _ => return none

/-- Reads an anchor, if one stands here. -/
def readAnchor? : Build (Option String) := do
  match ← peek with
  | .anchor name => skip; return some name
  | _ => return none

/-- Reads an anchor and a tag, in either order. -/
def readProperties : Build (Option String × Option String) := do
  match ← peek with
  | .anchor _ =>
    let anchor ← readAnchor?
    return (anchor, ← readTag?)
  | _ =>
    let tag ← readTag?
    return (← readAnchor?, tag)

/-- Gives a number to an anchor's name. -/
def nameAnchor (name : String) : Build Nat :=
  modifyGet fun s =>
    (s.names.length, { s with
      names := (s.names.filter (·.1 ≠ name)) ++ [(name, s.names.length)] })

/-- Notes a node that carries an anchor. -/
def noteAnchored (target? : Option Nat) (place : Nat) (node : Node) : Build Node := do
  match target? with
  | none => return node
  | some target =>
    modify fun s => { s with anchored := ⟨target, place, node⟩ :: s.anchored }
    return node

/-- A scalar without text. -/
def emptyScalar : Build Node := do
  let _ ← count 1
  return .scalar none .plain ""

/-- Reads a node unless one of the given tokens stands here, which leave it empty. -/
def unlessAt (stops : List Token) (read : Build Node) : Build Node := do
  if (← peek) ∈ stops then emptyScalar else read

/-- Passes a token. -/
def expect (t : Token) : Build Unit := do
  if (← peek) = t then skip else reject

mutual

/-- Reads a node; `block` allows blocks and `bare` allows a list that is not indented. -/
def readNode (block bare : Bool) : Nat → Build Node
  | 0 => reject
  | fuel + 1 => do
    if let .alias name ← peek then
      skip
      let _ ← count 1
      match (← get).names.find? (·.1 = name) with
      | some (_, target) => return .alias target
      | none => reject
    else
      let (anchor, tag) ← readProperties
      let open? (n : Nat) : Build (Nat × Option Nat) := do
        let place ← count n
        match anchor with
        | some name => return (place, some (← nameAnchor name))
        | none => return (place, none)
      match ← peek with
      | .scalar text style =>
        skip
        let (place, target?) ← open? 1
        noteAnchored target? place (.scalar (if tag = some "!" then none else tag) style text)
      | .flowListStart =>
        skip
        let (place, target?) ← open? 2
        noteAnchored target? place (.list tag (← readFlowItems true fuel))
      | .flowMapStart =>
        skip
        let (place, target?) ← open? 2
        noteAnchored target? place (.map tag (← readFlowEntries true fuel))
      | .blockListStart =>
        if !block then reject
        skip
        let (place, target?) ← open? 2
        noteAnchored target? place (.list tag (← readBlockItems fuel))
      | .blockMapStart =>
        if !block then reject
        skip
        let (place, target?) ← open? 2
        noteAnchored target? place (.map tag (← readBlockEntries fuel))
      | .blockItem =>
        if bare then
          let (place, target?) ← open? 2
          noteAnchored target? place (.list tag (← readBareItems fuel))
        else if anchor.isSome || tag.isSome then
          let (place, target?) ← open? 1
          noteAnchored target? place (.scalar tag .plain "")
        else reject
      | _ =>
        if anchor.isSome || tag.isSome then
          let (place, target?) ← open? 1
          noteAnchored target? place (.scalar tag .plain "")
        else reject

/-- Reads the items of an indented list and its end. -/
def readBlockItems : Nat → Build (List Node)
  | 0 => reject
  | fuel + 1 => do
    match ← peek with
    | .blockItem =>
      skip
      let item ← unlessAt [.blockItem, .blockEnd] (readNode true false fuel)
      return item :: (← readBlockItems fuel)
    | .blockEnd => skip; return []
    | _ => reject

/-- Reads the items of a list that is not indented. -/
def readBareItems : Nat → Build (List Node)
  | 0 => reject
  | fuel + 1 => do
    match ← peek with
    | .blockItem =>
      skip
      let item ← unlessAt [.blockItem, .key, .value, .blockEnd] (readNode true false fuel)
      return item :: (← readBareItems fuel)
    | _ => return []

/-- Reads the entries of an indented map and its end. -/
def readBlockEntries : Nat → Build (List (Node × Node))
  | 0 => reject
  | fuel + 1 => do
    match ← peek with
    | .key =>
      skip
      let key ← unlessAt [.key, .value, .blockEnd] (readNode true true fuel)
      let value ← match ← peek with
        | .value => do
          skip
          unlessAt [.key, .value, .blockEnd] (readNode true true fuel)
        | _ => emptyScalar
      return (key, value) :: (← readBlockEntries fuel)
    | .blockEnd => skip; return []
    | _ => reject

/-- Reads the items of a list between brackets and its end; `first` tells that no comma is due. -/
def readFlowItems (first : Bool) : Nat → Build (List Node)
  | 0 => reject
  | fuel + 1 => do
    match ← peek with
    | .flowListEnd => skip; return []
    | _ =>
      if !first then expect .flowItem
      match ← peek with
      | .flowListEnd => skip; return []
      | .key =>
        skip
        let _ ← count 2
        let entry ← readPair fuel
        return .map none [entry] :: (← readFlowItems false fuel)
      | _ =>
        let item ← readNode false false fuel
        return item :: (← readFlowItems false fuel)

/-- Reads the only entry of a map that stands in a list without braces. The token behind an empty key
is passed. -/
def readPair : Nat → Build (Node × Node)
  | 0 => reject
  | fuel + 1 => do
    let ends : List Token := [.value, .flowItem, .flowListEnd]
    let key ← if (← peek) ∈ ends then do
        skip
        emptyScalar
      else readNode false false fuel
    let value ← match ← peek with
      | .value => do
        skip
        unlessAt [.flowItem, .flowListEnd] (readNode false false fuel)
      | _ => emptyScalar
    return (key, value)

/-- Reads the entries of a map between braces and its end; `first` tells that no comma is due. -/
def readFlowEntries (first : Bool) : Nat → Build (List (Node × Node))
  | 0 => reject
  | fuel + 1 => do
    match ← peek with
    | .flowMapEnd => skip; return []
    | _ =>
      if !first then expect .flowItem
      match ← peek with
      | .flowMapEnd => skip; return []
      | .key =>
        skip
        let key ← unlessAt [.value, .flowItem, .flowMapEnd] (readNode false false fuel)
        let value ← match ← peek with
          | .value => do
            skip
            unlessAt [.flowItem, .flowMapEnd] (readNode false false fuel)
          | _ => emptyScalar
        return (key, value) :: (← readFlowEntries false fuel)
      | _ =>
        let key ← readNode false false fuel
        let value ← emptyScalar
        return (key, value) :: (← readFlowEntries false fuel)

end

/-! ### Documents -/

/-- Reads the lines before a document: at most one version, which must be known, and abbreviations,
each handle once. -/
def readDirectives (version : Bool) : Nat → Build Unit
  | 0 => return
  | n + 1 => do
    match ← peek with
    | .version major minor =>
      if version || major ≠ 1 || (minor ≠ 1 && minor ≠ 2) then reject
      skip
      readDirectives true n
    | .abbreviation handle full =>
      if (← get).abbreviations.any (·.1 = handle) then reject
      modify fun s => { s with abbreviations := s.abbreviations ++ [(handle, full)] }
      skip
      readDirectives version n
    | _ => return

/-- The abbreviations that every document has, unless it sets its own. -/
def standardAbbreviations : List (String × String) := [("!", "!"), ("!!", "tag:yaml.org,2002:")]

/-- Whether the token belongs to the lines around a document. -/
def isFrame : Token → Bool
  | .version _ _ | .abbreviation _ _ | .documentStart | .documentEnd | .textEnd => true
  | _ => false

/-- Passes ends of the document; behind them the text must end. -/
def readEnd : Nat → Build Unit
  | 0 => reject
  | n + 1 => do
    match ← peek with
    | .documentEnd => skip; readEnd n
    | .textEnd => return
    | _ => reject

/-- Reads the first document and the end of the text behind it. -/
def readDocument (fuel : Nat) : Build Node := do
  let explicit : Bool := match ← peek with
    | .version _ _ | .abbreviation _ _ | .documentStart => true
    | _ => false
  if (← peek) = .textEnd then return .void
  readDirectives false fuel
  modify fun s => { s with abbreviations := s.abbreviations ++ standardAbbreviations }
  if explicit then expect .documentStart
  let root ← if explicit && isFrame (← peek) then emptyScalar else readNode true false fuel
  readEnd fuel
  return root

end Build

namespace Document

/-- The document of a text. -/
def ofText? (text : String) : Option Document := do
  let tokens ← tokens? text
  let (root, s) ← (Build.readDocument (3 * tokens.length + 3)).run { tokens }
  some ⟨root, s.anchored, s.events⟩

/-- The node that a reference stands for: the last in the text with its number. -/
def target? (d : Document) (target : Nat) : Option Node :=
  (d.anchored.foldl (fun (best : Option Anchored) a =>
    if a.target ≠ target then best
    else match best with
      | some b => if b.place < a.place then some a else best
      | none => some a) none).map (·.node)

end Document

end Muster.Yaml
