import Muster.Config.Engine
import Muster.Decimal.Notation

/-!
# The options of schemas and assemblies

* `standardOptions`: the options below. Building an assembly reads the first five of them.
* `Options`: a registry of them.
* The other four mean nothing to it. Labels and clashes share a kind, counted options have a
  default that differs from call to call, and weights compare as floating-point numbers do.
-/

namespace Muster

/-- The types of options. -/
inductive OptionTy where
  | timeout
  | pollInterval
  | parallelism
  | displayName
  | stability
  | label
  | clash
  | counted
  | weight
deriving DecidableEq, Repr

namespace OptionTy

/-- The kind under which a type is kept. -/
def kind : OptionTy → String
  | timeout => "timeout"
  | pollInterval => "poll-interval"
  | parallelism => "parallelism"
  | displayName => "display-name"
  | stability => "stability-predicate"
  | label => "label"
  | clash => "label"
  | counted => "counted"
  | weight => "weight"

end OptionTy

/-- The values of options. -/
inductive OptionValue where
  /-- The bound on each phase of building an assembly. -/
  | timeout (d : Duration)
  /-- The time between two questions to the predicate. -/
  | pollInterval (d : Duration)
  /-- How many members may be launched at one time. -/
  | parallelism (n : Nat)
  /-- The base of the members' names. -/
  | displayName (s : String)
  /-- Decides when an assembly is stable. -/
  | stability (p : Predicate)
  /-- A text without meaning. -/
  | label (s : String)
  /-- A number without meaning, under the kind of labels. -/
  | clash (i : Int)
  /-- A number that counts its defaults. -/
  | counted (i : Int)
  /-- A floating-point number without meaning. -/
  | weight (x : Float)

namespace OptionValue

/-- The type of a value. -/
def ty : OptionValue → OptionTy
  | timeout _ => .timeout
  | pollInterval _ => .pollInterval
  | parallelism _ => .parallelism
  | displayName _ => .displayName
  | stability _ => .stability
  | label _ => .label
  | clash _ => .clash
  | counted _ => .counted
  | weight _ => .weight

/-- Equality of two values of one type; predicates are equal when they are the same. -/
def same : OptionValue → OptionValue → Bool
  | timeout a, timeout b => a = b
  | pollInterval a, pollInterval b => a = b
  | parallelism a, parallelism b => a = b
  | displayName a, displayName b => a = b
  | stability a, stability b => a.id = b.id
  | label a, label b => a = b
  | clash a, clash b => a = b
  | counted a, counted b => a = b
  | weight a, weight b => a == b
  | _, _ => false

/-- Shows a value with its type. -/
def shown : OptionValue → String
  | timeout d => Text.shownTuple "Timeout" [d.shown]
  | pollInterval d => Text.shownTuple "PollInterval" [d.shown]
  | parallelism n => Text.shownTuple "Parallelism" [toString n]
  | displayName s => Text.shownTuple "DisplayName" [Text.quoted s]
  | stability p => p.shown
  | label s => Text.shownTuple "Label" [Text.quoted s]
  | clash i => Text.shownTuple "Clash" [toString i]
  | counted i => Text.shownTuple "Counted" [toString i]
  | weight x => Text.shownTuple "Weight" [Float.pointed.write x]

end OptionValue

/-- The options of schemas and assemblies. -/
def standardOptions : OptionFamily where
  Kind := String
  Ty := OptionTy
  Value := OptionValue
  kindOf := OptionTy.kind
  tyOf := OptionValue.ty
  same := OptionValue.same
  default?
    | .timeout, _ => some (.timeout defaultTimeout)
    | .pollInterval, _ => some (.pollInterval defaultPollInterval)
    | .stability, _ => some (.stability (.always defaultPredicateId))
    | .clash, _ => some (.clash 99)
    | .counted, calls => some (.counted (7 + calls))
    | .parallelism, _ | .displayName, _ | .label, _ | .weight, _ => none
  tyOf_default {t _ _} h := by cases t <;> cases h <;> rfl

instance : Engine standardOptions where
  timeout := OptionTy.timeout
  pollInterval := OptionTy.pollInterval
  parallelism := OptionTy.parallelism
  displayName := OptionTy.displayName
  stability := OptionTy.stability
  duration?
    | .timeout d | .pollInterval d => some d
    | _ => none
  number?
    | .parallelism n => some n
    | _ => none
  text?
    | .displayName s => some s
    | _ => none
  predicate?
    | .stability p => some p
    | _ => none

/-- A registry of the options of schemas and assemblies. -/
abbrev Options := Registry standardOptions

namespace Options

/-- Shows all values under their kinds. -/
def shown (o : Options) : String :=
  Text.braced (o.toList.map fun e =>
    Text.quoted e.1 ++ ": " ++ Text.bracketed (e.2.map OptionValue.shown))

end Options

end Muster
