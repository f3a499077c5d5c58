import Muster.Config.Standard
import Muster.Text.Blank

/-!
# Schemas of applications

* `Schema`: everything that is needed to start one kind of application.
* `Schema.check?`: the first thing wrong with a schema, if anything is.
* `Schema.displayName`: the base of the names of its members.

A schema under construction has the same parts as a finished one; `Schema.build` lets it pass when
nothing is wrong with it. A working directory is text: directories that no text names are left out.
-/

namespace Muster

/-- Everything that is needed to start one kind of application. -/
structure Schema (F : OptionFamily := standardOptions) where
  /-- The program to run. -/
  executable : String
  /-- The directory to run it in. -/
  workingDirectory : Option String := none
  /-- The names and sources of the environment. -/
  environment : Generator := {}
  /-- Whether errors go where output goes. -/
  errorsRedirected : Bool := false
  /-- The arguments. -/
  arguments : List String := []
  /-- The options. -/
  options : Registry F := ∅
  /-- Who hears of the members' lives. -/
  observers : List Observer := []

namespace Schema

variable {F : OptionFamily}

/-- Names that no variable may have: empty ones, and those with an equals sign or a NUL. -/
def invalidName (name : String) : Bool :=
  name.isEmpty || name.toList.any fun c => c = '=' || c = '\x00'

/-- The first thing wrong with a schema: its executable, else a name, else an argument. -/
def check? (s : Schema F) : Option SetupError :=
  if Text.Blank s.executable then some .blankExecutable
  else match s.environment.names.find? invalidName with
    | some name => some (.invalidName name)
    | none => (s.arguments.findIdx? fun a => a.toList.any (· = '\x00')).map .invalidArgument

/-- A snapshot of the schema, if nothing is wrong with it; its options have made no default yet. -/
def build (s : Schema F) : Except SetupError (Schema F) :=
  match s.check? with
  | some e => .error e
  | none => .ok { s with options := s.options.copy }

/-- An independent copy for further construction. -/
def copy (s : Schema F) : Schema F := { s with options := s.options.copy }

/-- A schema with which something is wrong is not finished. -/
theorem build_of_fault {s : Schema F} {e : SetupError} (fault : s.check? = some e) : s.build = .error e := by
  rw [build, fault]

/-- One with which nothing is wrong is finished as a copy, -/
theorem build_of_fine {s : Schema F} (fine : s.check? = none) : s.build = .ok s.copy := by
  rw [build, fine]
  rfl

/-- and no other one is. -/
theorem copy_of_build {s s' : Schema F} (built : s.build = .ok s') : s.check? = none ∧ s' = s.copy := by
  unfold build at built
  split at built
  · cases built
  · rename_i fine
    cases built
    exact ⟨fine, rfl⟩

/-- The components of a path that are not empty and not the path's own directory. -/
def pathComponents (path : String) : List String :=
  let parts := path.splitOn "/"
  -- a leading dot is a component of a relative path; later ones are dropped
  match parts with
  | "." :: rest => "." :: rest.filter fun c => c ≠ "" ∧ c ≠ "."
  | parts => parts.filter fun c => c ≠ "" ∧ c ≠ "."

/-- The last component of a path, if it names a file. -/
def fileName? (path : String) : Option String :=
  match (pathComponents path).getLast? with
  | some c => if c = ".." ∨ c = "." then none else some c
  | none => none

/-- The base of the members' names: the option, or else the file name of the executable. -/
def displayName [Engine F] (s : Schema F) : String :=
  s.options.displayName?.getD ((fileName? s.executable).getD s.executable)

/-- The environment of one more member. -/
def resolveEnvironment (s : Schema F) (q : Sequences) : Except DrawError Environment × Sequences :=
  s.environment.snapshot q

/-- Shows all parts of a finished schema. -/
def shown (s : Schema) : String :=
  Text.shownRecord "Schema"
    [("executable", Text.quoted s.executable),
     ("working_directory", Text.shownOption (s.workingDirectory.map Text.quotedPath)),
     ("environment", s.environment.shown),
     ("error_stream_redirected", if s.errorsRedirected then "true" else "false"),
     ("arguments", Text.bracketed (s.arguments.map Text.quoted)),
     ("options", Options.shown s.options),
     ("interceptors", Text.bracketed (s.observers.map fun o => Text.quoted o.name))]

/-- Shows the main parts of a schema under construction. -/
def shownDraft (s : Schema) : String :=
  Text.shownRecord "SchemaBuilder"
    [("executable", Text.quoted s.executable),
     ("arguments", Text.bracketed (s.arguments.map Text.quoted)),
     ("options", Options.shown s.options),
     ("interceptors", toString s.observers.length)] true

end Schema

end Muster
