import Muster.Plan.Basic

/-!
# Manifests of assemblies

* `Manifest`: an assembly described in a document: its envelope, its timing, and templates of members.
* `Manifest.fault?`: the first thing that validation objects to.
* `Manifest.options`, `Manifest.groups`, `Manifest.draft`: what a manifest stands for.
-/

namespace Muster

/-- A scalar value. -/
inductive Scalar where
  | text (s : String)
  | integer (i : Int)
  | float (x : Float)
  | boolean (b : Bool)

namespace Scalar

/-- The text that a variable gets. -/
def shown : Scalar → String
  | text s => s
  | integer i => toString i
  | float x => Float.plain.write x
  | boolean b => if b then "true" else "false"

end Scalar

/-- The value of a variable: the same for all members, or another one for each. -/
inductive Variable where
  /-- The same value for every member. -/
  | fixed (value : Scalar)
  /-- One value for each member, as long as there are any. -/
  | sequence (values : List Scalar)
  /-- One value for each member, over and over. -/
  | cycle (values : List Scalar)
  /-- One number for each member, counting up. -/
  | counter (start : Nat)

namespace Variable

/-- What a variable draws from, if its value is not fixed. -/
def sequence? : Variable → Option Sequence
  | fixed _ => none
  | sequence vs => some (.once (vs.map Scalar.shown))
  | cycle vs => some (.cycle (vs.map Scalar.shown))
  | counter n => some (.counter n)

/-- The source of a variable; a sequence starts afresh with every source that is made. -/
def source (v : Variable) (q : Sequences) : Source × Sequences :=
  match v with
  | fixed s => (.fixed s.shown, q)
  | v =>
    let seq := v.sequence?.getD (.once [])
    let (id, q) := q.add seq
    (.shared id seq.word, q)

end Variable

/-- A number of members that are alike. -/
structure Template where
  /-- The base of the members' names. -/
  displayName : Option String := none
  /-- The number of members. -/
  count : Nat := 1
  /-- The program to run. -/
  executable : String
  /-- The directory to run it in. -/
  workingDirectory : Option String := none
  /-- Whether errors go where output goes. -/
  errorsRedirected : Bool := false
  /-- The arguments. -/
  arguments : List String := []
  /-- The variables in order, each name once. -/
  environment : List (String × Variable) := []

/-- An assembly described in a document. -/
structure Manifest where
  /-- The version of the format. -/
  apiVersion : String
  /-- The kind of resource. -/
  kind : String
  /-- The name of the assembly. -/
  name : String
  /-- Labels, sorted by name, each name once. -/
  labels : Option (List (String × String)) := none
  /-- The bound on each phase of building the assembly. -/
  timeout : Option Duration := none
  /-- The time between two questions to the predicate. -/
  pollInterval : Option Duration := none
  /-- How many members may be launched at one time. -/
  parallelism : Option Nat := none
  /-- The members. -/
  members : List Template := []

/-- The version of the format that is understood. -/
def manifestVersion : String := "troupe/v1"

/-- The kind of resource that a manifest describes. -/
def manifestKind : String := "Assembly"

/-- What validation objects to. -/
inductive ManifestFault where
  | version (found : String)
  | kind (found : String)
  | blankName
  | blankExecutable (index : Nat)
  | noMembers (index : Nat)
deriving DecidableEq, Repr

namespace ManifestFault

/-- The wording of a fault. -/
def message : ManifestFault → String
  | version v => "Unsupported apiVersion '" ++ v ++ "', expected '" ++ manifestVersion ++ "'"
  | kind k => "Unsupported kind '" ++ k ++ "', expected '" ++ manifestKind ++ "'"
  | blankName => "metadata.name must not be empty"
  | blankExecutable i => "spec.members[" ++ toString i ++ "].executable must not be empty"
  | noMembers i => "spec.members[" ++ toString i ++ "].count must be at least 1"

end ManifestFault

namespace Template

/-- What validation objects to in the template at a place. -/
def fault? (t : Template) (index : Nat) : Option ManifestFault :=
  if Text.Blank t.executable then some (.blankExecutable index)
  else if t.count = 0 then some (.noMembers index) else none

/-- Registers the variables with sources of their own. -/
def addVariables (g : Generator) (q : Sequences) : List (String × Variable) → Generator × Sequences
  | [] => (g, q)
  | (name, v) :: vs =>
    let (src, q) := v.source q
    addVariables (g.set name src) q vs

/-- The schema of a template, with sequences of its own. -/
def schema (t : Template) (q : Sequences) : Schema × Sequences :=
  let (env, q) := addVariables {} q t.environment
  ({ executable := t.executable
     workingDirectory := t.workingDirectory
     environment := env
     errorsRedirected := t.errorsRedirected
     arguments := t.arguments
     options := match t.displayName with
       | some n => (∅ : Options).add (.displayName n)
       | none => ∅ }, q)

end Template

namespace Manifest

/-- The first thing that validation objects to: version, kind and name, then member by member. -/
def fault? (m : Manifest) : Option ManifestFault :=
  if m.apiVersion ≠ manifestVersion then some (.version m.apiVersion)
  else if m.kind ≠ manifestKind then some (.kind m.kind)
  else if Text.Blank m.name then some .blankName
  else m.members.zipIdx.findSome? fun (t, i) => t.fault? i

/-- The options that a manifest declares. -/
def options (m : Manifest) : Options :=
  let values : List OptionValue :=
    (m.timeout.map .timeout).toList ++ (m.pollInterval.map .pollInterval).toList ++
      (m.parallelism.map .parallelism).toList
  values.foldl (fun (o : Options) v => o.add v) ∅

/-- One group per template, each with sequences of its own. -/
def groups (m : Manifest) (q : Sequences) : List Group × Sequences :=
  go q m.members
where
  /-- Goes through the templates in order. -/
  go (q : Sequences) : List Template → List Group × Sequences
    | [] => ([], q)
    | t :: ts =>
      let (s, q) := t.schema q
      let (gs, q) := go q ts
      (⟨t.count, s⟩ :: gs, q)

/-- The assembly under construction that a manifest describes. -/
def draft (m : Manifest) (q : Sequences) : Draft × Sequences :=
  let (gs, q) := m.groups q
  ({ groups := gs, options := m.options }, q)

end Manifest

end Muster
