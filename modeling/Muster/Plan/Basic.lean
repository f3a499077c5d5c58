import Muster.Schema.Basic

/-!
# Plans of assemblies

* `Group`: a number of members of one schema.
* `Draft`: groups, options and observers of an assembly under construction.
* `Draft.plan`: names the members, draws their environments in order, and layers the options: those of
  the schemas in order, then those of the assembly.
-/

namespace Muster

/-- One member to launch. -/
structure MemberSpec (F : OptionFamily := standardOptions) where
  /-- The place of the member in its assembly. -/
  ordinal : Nat
  /-- The name of the member. -/
  name : String
  /-- What to start. -/
  schema : Schema F
  /-- The values drawn for this member. -/
  environment : Environment

/-- What an assembly is built from. -/
structure Plan (F : OptionFamily := standardOptions) where
  /-- The members to launch. -/
  members : List (MemberSpec F) := []
  /-- The options of all layers. -/
  options : Registry F := ∅
  /-- Who hears of the life of every member, after the schema's own observers. -/
  observers : List Observer := []

/-- A number of members of one schema. -/
structure Group (F : OptionFamily := standardOptions) where
  /-- The number of members. -/
  count : Nat
  /-- The schema, not yet checked. -/
  schema : Schema F

/-- An assembly under construction. -/
structure Draft (F : OptionFamily := standardOptions) where
  /-- The groups in the order in which they were included. -/
  groups : List (Group F) := []
  /-- The options of the assembly itself. -/
  options : Registry F := ∅
  /-- Who hears of the life of every member, after the schema's own observers. -/
  observers : List Observer := []

/-- Which member of its assembly a member is. -/
def MemberSpec.seat {F : OptionFamily} (s : MemberSpec F) : Seat := ⟨s.ordinal, s.name⟩

namespace Draft

variable {F : OptionFamily}

/-- The number of members of all groups. Sums that no machine word holds are left out: the number is exact. -/
def memberCount (d : Draft F) : Nat := d.groups.foldr (fun g n => g.count + n) 0

/-- Includes a snapshot of a schema. -/
def addGroup (d : Draft F) (count : Nat) (s : Schema F) : Draft F :=
  { d with groups := d.groups ++ [⟨count, s.copy⟩] }

/-- An independent copy. -/
def copy (d : Draft F) : Draft F :=
  { d with
    groups := d.groups.map fun g => { g with schema := g.schema.copy }
    options := d.options.copy }

/-- Plans `count` more members of a schema, the first of them at place `ordinal`. -/
def planMembers (s : Schema F) (base : String) (number ordinal : Nat) (q : Sequences) :
    Nat → Except SetupError (List (MemberSpec F)) × Sequences
  | 0 => (.ok [], q)
  | count + 1 =>
    let name := base ++ "-" ++ toString (number + 1)
    match s.resolveEnvironment q with
    | (.error e, q) => (.error (.environment name e), q)
    | (.ok env, q) =>
      match planMembers s base (number + 1) (ordinal + 1) q count with
      | (.error e, q) => (.error e, q)
      | (.ok ms, q) => (.ok (⟨ordinal, name, s, env⟩ :: ms), q)

/-- Members and options of the groups planned so far. -/
structure Progress (F : OptionFamily := standardOptions) where
  /-- The members in order. -/
  members : List (MemberSpec F) := []
  /-- The options of the schemas in order. -/
  options : Registry F := ∅
  /-- How many members have each base name. -/
  numbering : String → Nat := fun _ => 0

section

variable [Engine F]

/-- Plans one more group. -/
def planGroup (p : Progress F) (g : Group F) (q : Sequences) : Except SetupError (Progress F) × Sequences :=
  if g.count = 0 then (.error (.noMembers g.schema.executable), q)
  else match g.schema.build with
    | .error e => (.error e, q)
    | .ok s =>
      let base := s.displayName
      match planMembers s base (p.numbering base) p.members.length q g.count with
      | (.error e, q) => (.error e, q)
      | (.ok ms, q) =>
        (.ok
          { members := p.members ++ ms
            options := p.options.merge s.options
            numbering := fun b => if b = base then p.numbering b + g.count else p.numbering b }, q)

/-- Plans the groups in order, up to the first that fails. -/
def planGroups (p : Progress F) (q : Sequences) : List (Group F) → Except SetupError (Progress F) × Sequences
  | [] => (.ok p, q)
  | g :: gs =>
    match planGroup p g q with
    | (.error e, q) => (.error e, q)
    | (.ok p, q) => planGroups p q gs

/-- Names every member and draws its environment. What was drawn before a failure stays drawn. Memory is left out:
there is room for any number of members, which is not made sure of before the first check. -/
def plan (d : Draft F) (q : Sequences) : Except SetupError (Plan F) × Sequences :=
  match planGroups {} q d.groups with
  | (.error e, q) => (.error e, q)
  | (.ok p, q) => (.ok ⟨p.members, p.options.merge d.options, d.observers⟩, q)

end

/-- Shows the parts of an assembly under construction. -/
def shown (d : Draft) : String :=
  Text.shownRecord "AssemblyBuilder"
    [("groups", Text.bracketed (d.groups.map fun g =>
        "(" ++ toString g.count ++ ", " ++ g.schema.shownDraft ++ ")")),
     ("options", Options.shown d.options),
     ("interceptors", Text.bracketed (d.observers.map fun o => Text.quoted o.name))]

end Draft

namespace Plan

/-- An independent copy. -/
def copy {F : OptionFamily} (p : Plan F) : Plan F := { p with options := p.options.copy }

/-- Shows the names of a plan's members, and its other parts. -/
def shown (p : Plan) : String :=
  Text.shownRecord "AssemblyPlan"
    [("members", Text.bracketed (p.members.map fun m => Text.quoted m.name)),
     ("options", Options.shown p.options),
     ("interceptors", Text.bracketed (p.observers.map fun o => Text.quoted o.name))]

end Plan

end Muster
