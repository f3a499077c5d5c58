import Muster.Source.Generator

/-!
# Errors in a configuration

* `SetupError`: what is wrong with a schema or a plan, with its wording.
-/

namespace Muster

/-- What is wrong with a schema or a plan. -/
inductive SetupError where
  /-- The executable is blank. -/
  | blankExecutable
  /-- A name is empty, or holds an equals sign or a NUL. -/
  | invalidName (name : String)
  /-- The argument at a place holds a NUL. -/
  | invalidArgument (index : Nat)
  /-- A group has no members. -/
  | noMembers (schema : String)
  /-- A value of a member's environment could not be drawn. -/
  | environment (member : String) (cause : DrawError)
deriving DecidableEq, Repr

namespace SetupError

/-- The wording of an error. -/
def message : SetupError → String
  | blankExecutable => "executable name must not be blank"
  | invalidName name => "invalid environment variable name '" ++ name ++ "'"
  | invalidArgument index => "argument " ++ toString index ++ " contains a NUL byte"
  | noMembers schema => "member count for '" ++ schema ++ "' must be at least 1"
  | environment member cause =>
    "failed to resolve environment for member '" ++ member ++ "': " ++ cause.message

/-- The error behind an error. -/
def cause? : SetupError → Option DrawError
  | environment _ cause => some cause
  | _ => none

/-- The wordings of the error and of the error behind it. -/
def causes (e : SetupError) : List String := e.message :: (e.cause?.map (·.message)).toList

end SetupError

end Muster
