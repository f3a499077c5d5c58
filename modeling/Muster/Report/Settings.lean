import Muster.Member.Codec
import Muster.Plan.Basic

/-!
# Reports on options, schemas and plans

* `report` tells everything there is to know about a value, as a value tree.
* Wide numbers are reported as texts, and floating-point numbers by their shortest digits.
-/

namespace Muster

namespace Tree

/-- A list of texts. -/
def texts (l : List String) : Tree := .list (l.map .text)

/-- A text that may be absent. -/
def text? (s : Option String) : Tree := s.elim .null .text

end Tree

namespace Duration

/-- Reports seconds and nanoseconds. -/
def report (d : Duration) : Tree := .list [.nat d.seconds, .nat d.subsecond]

end Duration

namespace OptionValue

/-- Reports what a value carries. -/
def report : OptionValue → Tree
  | timeout d | pollInterval d => d.report
  | parallelism n => .nat n
  | displayName s | label s => .text s
  | stability p => .text p.name
  | clash i | counted i => .int i
  | weight x => .text (Float.plain.write x)

end OptionValue

namespace Options

/-- Reports the values of a kind; the two types that share a kind are told apart. -/
def reportKind (kind : String) (values : List OptionValue) : Tree :=
  let ofTy (ty : OptionTy) : Tree := .list ((values.filter (·.ty = ty)).map OptionValue.report)
  if kind = OptionTy.label.kind then .list [ofTy .label, ofTy .clash]
  else .list (values.map OptionValue.report)

/-- The parts of a report on options. -/
def reportParts (o : Options) : List (String × Tree) :=
  [("values", .list (o.toList.map fun e => .list [.text e.1, reportKind e.1 e.2])),
   ("len", .nat o.size), ("empty", .bool o.isEmpty)]

/-- Reports kinds with their values, in order. -/
def report (o : Options) : Tree := .record o.reportParts

end Options

namespace Generator

/-- Reports the names. -/
def report (g : Generator) : Tree :=
  .record [("names", .texts g.names), ("len", .nat g.size), ("empty", .bool g.isEmpty)]

end Generator

namespace Schema

/-- Reports all parts of a finished schema. -/
def report (s : Schema) : Tree :=
  .record
    [("executable", .text s.executable), ("working_directory", .text? s.workingDirectory),
     ("names", .texts s.environment.names), ("redirect", .bool s.errorsRedirected),
     ("arguments", .texts s.arguments), ("options", Options.report s.options),
     ("interceptors", .texts (s.observers.map (·.name))), ("display_name", .text s.displayName)]

/-- Reports the main parts of a schema under construction. -/
def reportDraft (s : Schema) : Tree :=
  .record [("executable", .text s.executable), ("arguments", .texts s.arguments),
    ("options", Options.report s.options)]

end Schema

namespace MemberSpec

/-- Reports a member to launch. -/
def report (m : MemberSpec) : Tree :=
  .record [("name", .text m.name), ("ordinal", .nat m.ordinal),
    ("executable", .text m.schema.executable), ("env", m.environment.toTree)]

end MemberSpec

namespace Plan

/-- Reports all parts of a plan. -/
def report (p : Plan) : Tree :=
  .record
    [("len", .nat p.members.length), ("empty", .bool p.members.isEmpty),
     ("members", .list (p.members.map MemberSpec.report)), ("options", Options.report p.options),
     ("interceptors", .texts (p.observers.map (·.name)))]

end Plan

namespace Draft

/-- Reports the size and the options of an assembly under construction. -/
def report (d : Draft) : Tree :=
  .record [("member_count", .nat d.memberCount), ("options", Options.report d.options)]

/-- Plans a number of times, each from where the sequences then are. -/
def planTimes (d : Draft) (q : Sequences) : Nat → List (Except SetupError Plan)
  | 0 => []
  | n + 1 =>
    let (p, q) := d.plan q
    p :: d.planTimes q n

end Draft

end Muster
