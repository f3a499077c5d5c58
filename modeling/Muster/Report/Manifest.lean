import Muster.Json.Writer
import Muster.Manifest.Text
import Muster.Report.Settings

/-!
# Reports on manifests

* `Manifest.report`: everything that a manifest says.
* `Manifest.readsBack`: the written text of a manifest says the same.
* `Variable.draws`: what a variable hands out.
-/

namespace Muster

namespace Scalar

/-- Reports the kind of a scalar and its text. -/
def report (s : Scalar) : Tree :=
  let kind := match s with
    | text _ => "text"
    | integer _ => "integer"
    | float _ => "float"
    | boolean _ => "boolean"
  .record [(kind, .text s.shown)]

end Scalar

namespace Variable

/-- Reports the value of a variable. -/
def report : Variable → Tree
  | fixed s => .record [("fixed", s.report)]
  | sequence l => .record [("sequence", .list (l.map Scalar.report))]
  | cycle l => .record [("cycle", .list (l.map Scalar.report))]
  | counter n => .record [("counter", .text (toString n))]

/-- What the first `n` draws from a variable of the given name find. -/
def draws (v : Variable) (name : String) (n : Nat) : List (Except DrawError String) :=
  let (src, q) := v.source {}
  go (({} : Generator).set name src) q n
where
  /-- Draws `n` times. -/
  go (g : Generator) (q : Sequences) : Nat → List (Except DrawError String)
    | 0 => []
    | n + 1 =>
      let (a, q) := g.resolve name q
      a :: go g q n

end Variable

namespace Template

/-- Reports a template. -/
def report (t : Template) : Tree :=
  .record
    [("display_name", .text? t.displayName), ("count", .text (toString t.count)),
     ("executable", .text t.executable), ("working_directory", .text? t.workingDirectory),
     ("redirect", .bool t.errorsRedirected), ("arguments", .texts t.arguments),
     ("environment", .list (t.environment.map fun e => .list [.text e.1, e.2.report]))]

end Template

namespace Manifest

/-- Reports a manifest. -/
def report (m : Manifest) : Tree :=
  .record
    [("api_version", .text m.apiVersion), ("kind", .text m.kind), ("name", .text m.name),
     ("labels", m.labels.elim .null fun l => .list (l.map fun e => .texts [e.1, e.2])),
     ("timeout", m.timeout.elim .null Duration.report),
     ("poll_interval", m.pollInterval.elim .null Duration.report),
     ("parallelism", m.parallelism.elim .null fun n => .text (toString n)),
     ("members", .list (m.members.map Template.report))]

/-- Whether the written text of a manifest reads back as one of which the same is reported. -/
def readsBack (m : Manifest) : Bool :=
  match ofYaml? m.toYaml with
  | .ok m' => Json.write m.report = Json.write m'.report
  | .error _ => false

end Manifest

end Muster
