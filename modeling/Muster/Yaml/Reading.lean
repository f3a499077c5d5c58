import Muster.Tree.Reading
import Muster.Yaml.Node
import Muster.Yaml.Plain

/-!
# Reading typed values from YAML documents

* `Place`: a node of a document, with the number of lists and maps that may still be entered below it.
* Places are readable: a text is read from any scalar, a number or a truth value only from a plain one,
  and an empty plain scalar also counts as an empty list or map.
* `Place.content?`: the value of a node whatever its type; references in it are followed as often as a
  bound on the whole document allows.
-/

namespace Muster.Yaml

/-- The tags of the language itself. -/
def coreTag (word : String) : String := "tag:yaml.org,2002:" ++ word

/-- The value of a scalar; nothing when its tag demands another one or is the document's own. -/
def scalarTree? (tag? : Option String) (style : Style) (text : String) : Option Tree :=
  match tag? with
  | none => some (if style = .plain then plainTree text else .text text)
  | some tag =>
    if tag.startsWith "!" then none
    else if tag = coreTag "bool" then (bool? text).map .bool
    else if tag = coreTag "int" then wholeTree? text
    else if tag = coreTag "float" then (float? text).map .float
    else if tag = coreTag "null" then (if isNull text then some .null else none)
    else some (.text text)

/-- The value of a map's key. -/
def keyOf : Tree → Key
  | .text s => .text s
  | .int i => if 0 ≤ i then .index i.toNat else .other
  | _ => .other

namespace Document

/-- The node itself, or the one that it refers to. -/
def follow (d : Document) : Node → Node
  | .alias target => (d.target? target).getD .void
  | n => n

/-- How often references in one value may be followed. -/
def budget (d : Document) : Nat := 100 * d.events

/-- Reads while references may still be followed. -/
abbrev Following := StateT Nat Option

/-- There is no value. -/
def Following.fail {α : Type} : Following α := fun _ => none

/-- Counts a reference that is followed. -/
def Following.count : Following Unit := fun left => if left = 0 then none else some ((), left - 1)

/-- Whether a list or a map with the tag stands for itself, and not for a choice. -/
def plainTag (tag? : Option String) : Bool := tag?.all fun t => !t.startsWith "!"

/-- The value of a node at which so many lists and maps less one may still be entered. -/
def valueOf (d : Document) : Nat → Node → Following Tree
  | 0, _ => .fail
  | depth + 1, n => do
    if let .alias _ := n then Following.count
    match d.follow n with
    | .void => return .null
    | .alias _ => Following.fail
    | .scalar tag? style text =>
      match scalarTree? tag? style text with
      | some .flawed | none => Following.fail
      | some t => return t
    | .list tag? items =>
      if depth = 0 || !plainTag tag? then Following.fail
      return .list (← items.mapM (valueOf d depth))
    | .map tag? entries =>
      if depth = 0 || !plainTag tag? then Following.fail
      return .fields (← entries.mapM fun e => do
        let k ← valueOf d depth e.1
        return (keyOf k, ← valueOf d depth e.2))

end Document

/-- How many lists and maps may lie within one another. -/
def maxDepth : Nat := 128

/-- A node of a document. -/
structure Place where
  /-- The document. -/
  document : Document
  /-- The node. -/
  node : Node
  /-- How many lists and maps may still be entered from here. -/
  depth : Nat

namespace Place

/-- The outermost node. -/
def root (d : Document) : Place := ⟨d, d.root, maxDepth⟩

/-- The node itself, or the one that it refers to. -/
def target (p : Place) : Node := p.document.follow p.node

/-- A node inside the place's own. -/
def inside (p : Place) (n : Node) : Place := ⟨p.document, n, p.depth - 1⟩

/-- Whether nothing was written. -/
def isBlank (p : Place) : Bool :=
  match p.target with
  | .void => true
  | .scalar _ .plain "" => true
  | _ => false

/-- The text of a scalar, whatever its style and tag. -/
def text? (p : Place) : Option String :=
  match p.target with
  | .scalar _ _ s => some s
  | _ => none

/-- The text of a plain scalar, or of a literal one with the given tag. -/
def word? (p : Place) (tag : String) : Option String :=
  match p.target with
  | .scalar _ .plain s => some s
  | .scalar (some t) .literal s => if t = tag then some s else none
  | _ => none

/-- Whether an optional value is absent: a plain scalar that is empty or one of the words for it. -/
def absent? (p : Place) : Option Bool :=
  match p.target with
  | .void => some true
  | .scalar none .plain s => some (s.isEmpty || isNull s)
  | .scalar (some t) .plain s =>
    if t = coreTag "null" then (if isNull s then some true else none) else some false
  | _ => some false

/-- The items of a list. -/
def list? (p : Place) : Option (List Place) :=
  match p.target with
  | .list _ items => if p.depth = 0 then none else some (items.map p.inside)
  | _ => if p.isBlank then some [] else none

/-- The entries of a map, whose keys must be scalars. -/
def table? (p : Place) : Option (List (String × Place)) :=
  match p.target with
  | .map _ entries =>
    if p.depth = 0 then none
    else entries.mapM fun e => (p.inside e.1).text?.map fun k => (k, p.inside e.2)
  | _ => if p.isBlank then some [] else none

instance : Readable Place where
  text? := text?
  nat? p := ((p.word? (coreTag "int")).bind natural?).bind fun n =>
    if n < Readable.limit then some n else none
  bool? p := (p.word? (coreTag "bool")).bind Yaml.bool?
  absent? := absent?
  list? := list?
  record? fs p := p.table?.bind (Field.named fs)
  table? := table?
  content? p := (p.document.valueOf (p.depth + 1) p.node p.document.budget).map (·.1)

end Place

end Muster.Yaml
