import Muster.Config.Registry
import Muster.Member.Observer

/-!
# The options that assemblies are built by

* `Engine`: the option types that are read when an assembly is built. A program may have any others besides.
* `Settings`: what a run goes by; `Registry.settings` reads it off options.
-/

namespace Muster

/-- The option types that are read when an assembly is built, and what their values say. -/
class Engine (F : OptionFamily) where
  /-- The bound on each phase of building an assembly. -/
  timeout : F.Ty
  /-- The time between two questions to the predicate. -/
  pollInterval : F.Ty
  /-- How many members may be launched at one time. -/
  parallelism : F.Ty
  /-- The base of the members' names. -/
  displayName : F.Ty
  /-- Decides when an assembly is stable. -/
  stability : F.Ty
  /-- The span that a value says. -/
  duration? : F.Value → Option Duration
  /-- The number that a value says. -/
  number? : F.Value → Option Nat
  /-- The text that a value says. -/
  text? : F.Value → Option String
  /-- The predicate that a value says. -/
  predicate? : F.Value → Option Predicate

/-- The bound on a phase when none is given: a minute. -/
def defaultTimeout : Duration := .ofMillis 60000

/-- The time between two questions when none is given: a quarter of a second. -/
def defaultPollInterval : Duration := .ofMillis 250

/-- The identity of the predicate that answers when none is given. -/
def defaultPredicateId : Nat := 0

/-- What a run goes by. -/
structure Settings where
  /-- The bound on each phase. -/
  timeout : Duration
  /-- The time between two questions to the predicate. -/
  pollInterval : Duration
  /-- Decides when the assembly is stable. -/
  predicate : Predicate
  /-- How many members may be launched at one time, if that is bounded. -/
  parallelism? : Option Nat

namespace Registry

variable {F : OptionFamily} [Engine F]

/-- The display name, if one is set last. -/
def displayName? (r : Registry F) : Option String := (r.get Engine.displayName 0).value.bind Engine.text?

/-- The bound on each phase. -/
def timeoutOf (r : Registry F) : Duration :=
  ((r.get Engine.timeout 0).value.bind Engine.duration?).getD defaultTimeout

/-- The time between two questions to the predicate. -/
def pollIntervalOf (r : Registry F) : Duration :=
  ((r.get Engine.pollInterval 0).value.bind Engine.duration?).getD defaultPollInterval

/-- How many members may be launched at one time, if that is bounded. -/
def parallelismOf? (r : Registry F) : Option Nat := (r.get Engine.parallelism 0).value.bind Engine.number?

/-- The predicate that decides when an assembly is stable. -/
def predicateOf (r : Registry F) : Predicate :=
  ((r.get Engine.stability 0).value.bind Engine.predicate?).getD (.always defaultPredicateId)

/-- What a run goes by whose plan has the options. -/
def settings (r : Registry F) : Settings where
  timeout := r.timeoutOf
  pollInterval := r.pollIntervalOf
  predicate := r.predicateOf
  parallelism? := r.parallelismOf?

end Registry

end Muster
