import Muster.Manifest.Codec
import Muster.Yaml.Reading
import Muster.Yaml.Writer

/-!
# Manifests as YAML text

* `Manifest.ofYaml?`: reads and validates a text.
* `Manifest.ofFile?`: the same for the bytes of a file, if there are any.
* `Manifest.toYaml`: writes a manifest.
-/

namespace Muster

/-- Why there is no manifest. -/
inductive ManifestError where
  /-- The file is not there or holds no text. -/
  | unreadable (path : String)
  /-- The text does not describe a manifest. -/
  | malformed
  /-- Validation objects. -/
  | invalid (fault : ManifestFault)
deriving DecidableEq, Repr

namespace ManifestError

/-- The wording of an error. -/
def message : ManifestError → String
  | unreadable path => "Failed to read manifest file: " ++ Text.quotedPath path
  | malformed => "Failed to parse YAML manifest"
  | invalid fault => "Manifest validation failed: " ++ fault.message

end ManifestError

namespace Manifest

/-- The manifest if validation does not object. -/
def validated (m : Manifest) : Except ManifestFault Manifest :=
  match m.fault? with
  | some f => .error f
  | none => .ok m

/-- The manifest that a text describes. -/
def ofYaml? (text : String) : Except ManifestError Manifest :=
  match (Yaml.Document.ofText? text).bind fun d => ofDocument? (Yaml.Place.root d) with
  | none => .error .malformed
  | some m => m.validated.mapError .invalid

/-- The manifest that a file's bytes describe. -/
def ofFile? (path : String) (bytes? : Option ByteArray) : Except ManifestError Manifest :=
  match bytes?.bind String.fromUTF8? with
  | none => .error (.unreadable path)
  | some text => ofYaml? text

/-- The text of a manifest. -/
def toYaml (m : Manifest) : String := Yaml.write m.toTree

end Manifest

end Muster
