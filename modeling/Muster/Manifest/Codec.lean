import Muster.Duration.Words
import Muster.Event.Codec
import Muster.Manifest.Basic

/-!
# Manifests in documents

* `Manifest.ofDocument?`: reads a manifest from any document format.
* `Manifest.toTree`: writes a manifest; optional parts that are absent are left out.
* `Variable.ofTree?`: a scalar is a fixed value, and a map is the first generator for which it has an
  entry of the right form.
-/

namespace Muster

/-! ### Scalars and variables -/

namespace Scalar

/-- Reads a scalar; a whole number beyond 63 bits counts as a floating-point number. -/
def ofTree? : Tree → Option Scalar
  | .text s => some (.text s)
  | .int i => some (if -(twoTo 63 : Int) ≤ i ∧ i < twoTo 63 then .integer i else .float (Float.ofInt i))
  | .float x => some (.float x)
  | .bool b => some (.boolean b)
  | _ => none

/-- Writes a scalar. -/
def toTree : Scalar → Tree
  | text s => .text s
  | integer i => .int i
  | float x => .float x
  | boolean b => .bool b

end Scalar

namespace Variable

/-- The value under the only field of a generator, which may also be named by its place. Other fields
are ignored; a key that can name no field makes the map unreadable, and so does a second value. -/
def generatorField? (name : String) (entries : List (Key × Tree)) : Option Tree :=
  if entries.any fun e => e.1 = .other then none
  else match entries.filter (fun e => e.1 = .text name ∨ e.1 = .index 0) with
    | [e] => some e.2
    | _ => none

/-- Reads a list of scalars. -/
def scalarsOfTree? : Tree → Option (List Scalar)
  | .list ts => ts.mapM Scalar.ofTree?
  | _ => none

/-- Reads the generator that a map describes. -/
def generatorOf? (entries : List (Key × Tree)) : Option Variable :=
  ((generatorField? "sequence" entries).bind scalarsOfTree?).map sequence <|>
    ((generatorField? "cycle" entries).bind scalarsOfTree?).map cycle <|>
    ((generatorField? "counter" entries).bind fun t => Readable.nat? t).map counter

/-- Reads a variable; a map with a part that cannot be represented is unreadable. -/
def ofTree? (t : Tree) : Option Variable :=
  match Scalar.ofTree? t, t with
  | some s, _ => some (fixed s)
  | none, .fields entries => if Tree.soundEntries entries then generatorOf? entries else none
  | none, _ => none

/-- Writes a variable. -/
def toTree : Variable → Tree
  | fixed s => s.toTree
  | sequence vs => .record [("sequence", .list (vs.map Scalar.toTree))]
  | cycle vs => .record [("cycle", .list (vs.map Scalar.toTree))]
  | counter n => .record [("counter", .nat n)]

end Variable

/-! ### Reading -/

section Reading

variable {α : Type} [Readable α]

/-- Reads a span of time in words. -/
def Duration.ofDocument? (a : α) : Option Duration := (Readable.text? a).bind Duration.ofWords?

/-- Reads a number of launches at one time, which is not zero. -/
def positiveOfDocument? (a : α) : Option Nat :=
  (Readable.nat? a).bind fun n => if n = 0 then none else some n

/-- Reads a list of texts. -/
def textsOfDocument? (a : α) : Option (List String) :=
  (Readable.list? a).bind fun as => as.mapM Readable.text?

/-- Sets the value of a name, which keeps its place if it is there. -/
def setEntry {β : Type} (name : String) (b : β) : List (String × β) → List (String × β)
  | [] => [(name, b)]
  | e :: es => if e.1 = name then (name, b) :: es else e :: setEntry name b es

/-- Sets the value of a name in a list that is sorted by names. -/
def setSorted {β : Type} (name : String) (b : β) : List (String × β) → List (String × β)
  | [] => [(name, b)]
  | e :: es =>
    if name < e.1 then (name, b) :: e :: es
    else if e.1 = name then (name, b) :: es
    else e :: setSorted name b es

/-- Reads labels; of two labels with one name the last stays. -/
def labelsOfDocument? (a : α) : Option (List (String × String)) := do
  let entries ← Readable.table? a
  let pairs ← entries.mapM fun e => (Readable.text? e.2).map fun v => (e.1, v)
  some (pairs.foldl (fun l p => setSorted p.1 p.2 l) [])

/-- Reads the variables of a template. -/
def variablesOfDocument? (a : α) : Option (List (String × Variable)) := do
  let entries ← Readable.table? a
  let pairs ← entries.mapM fun e =>
    ((Readable.content? e.2).bind Variable.ofTree?).map fun v => (e.1, v)
  some (pairs.foldl (fun l p => setEntry p.1 p.2 l) [])

/-- Reads a part that has a default. -/
def readDefaulted {β : Type} (default : β) (read : α → Option β) : Option α → Option β
  | none => some default
  | some a => read a

/-- The fields of a template. -/
def Template.fieldList : List Field :=
  [⟨"displayName", .defaulted⟩, ⟨"count", .defaulted⟩, ⟨"executable", .required⟩,
   ⟨"workingDirectory", .defaulted⟩, ⟨"redirectErrorStream", .defaulted⟩, ⟨"arguments", .defaulted⟩,
   ⟨"environment", .defaulted⟩]

/-- Reads a template. -/
def Template.ofDocument? (a : α) : Option Template := do
  match ← Readable.record? Template.fieldList a with
  | [name, count, some executable, directory, redirected, arguments, environment] =>
    some
      { displayName := ← readOptional Readable.text? name
        count := ← readDefaulted 1 Readable.nat? count
        executable := ← Readable.text? executable
        workingDirectory := ← readOptional Readable.text? directory
        errorsRedirected := ← readDefaulted false Readable.bool? redirected
        arguments := ← readDefaulted [] textsOfDocument? arguments
        environment := ← readDefaulted [] variablesOfDocument? environment }
  | _ => none

/-- Reads a list of templates. -/
def templatesOfDocument? (a : α) : Option (List Template) :=
  (Readable.list? a).bind fun as => as.mapM Template.ofDocument?

/-- Reads a manifest. -/
def Manifest.ofDocument? (a : α) : Option Manifest := do
  match ← Readable.record? [⟨"apiVersion", .required⟩, ⟨"kind", .required⟩, ⟨"metadata", .required⟩,
      ⟨"spec", .required⟩] a with
  | [some version, some kind, some metadata, some spec] =>
    match ← Readable.record? [⟨"name", .required⟩, ⟨"labels", .defaulted⟩] metadata,
        ← Readable.record? [⟨"timeout", .defaulted⟩, ⟨"pollInterval", .defaulted⟩,
          ⟨"parallelism", .defaulted⟩, ⟨"members", .defaulted⟩] spec with
    | [some name, labels], [timeout, pollInterval, parallelism, members] =>
      some
        { apiVersion := ← Readable.text? version
          kind := ← Readable.text? kind
          name := ← Readable.text? name
          labels := ← readOptional labelsOfDocument? labels
          timeout := ← readOptional Duration.ofDocument? timeout
          pollInterval := ← readOptional Duration.ofDocument? pollInterval
          parallelism := ← readOptional positiveOfDocument? parallelism
          members := ← readDefaulted [] templatesOfDocument? members }
    | _, _ => none
  | _ => none

end Reading

/-! ### Writing -/

/-- An entry that is left out when its value is absent. -/
def entryIf {β : Type} (name : String) (write : β → Tree) : Option β → List (String × Tree)
  | none => []
  | some b => [(name, write b)]

namespace Template

/-- Writes a template. -/
def toTree (t : Template) : Tree :=
  .record
    (entryIf "displayName" .text t.displayName ++
      [("count", .nat t.count), ("executable", .text t.executable)] ++
      entryIf "workingDirectory" .text t.workingDirectory ++
      [("redirectErrorStream", .bool t.errorsRedirected),
       ("arguments", .list (t.arguments.map .text)),
       ("environment", .record (t.environment.map fun e => (e.1, e.2.toTree)))])

end Template

namespace Manifest

/-- Writes labels. -/
def labelsTree (l : List (String × String)) : Tree := .record (l.map fun e => (e.1, .text e.2))

/-- Writes a manifest. -/
def toTree (m : Manifest) : Tree :=
  .record
    [("apiVersion", .text m.apiVersion), ("kind", .text m.kind),
     ("metadata", .record ([("name", .text m.name)] ++ entryIf "labels" labelsTree m.labels)),
     ("spec", .record
       (entryIf "timeout" (fun d => .text d.words) m.timeout ++
        entryIf "pollInterval" (fun d => .text d.words) m.pollInterval ++
        entryIf "parallelism" .nat m.parallelism ++
        [("members", .list (m.members.map Template.toTree))]))]

end Manifest

end Muster
