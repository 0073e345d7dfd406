import SchemaBridge.Loss
import SchemaBridge.Sdl.Fault
/-!
# Why a conversion fails
-/
namespace SchemaBridge

inductive ConversionError where
  /-- The text is a document, but not of a schema. -/
  | invalidRoot (kind : String)
  /-- The text is no document. -/
  | parse (fault : Sdl.Fault) (source : String)
  /-- Something has no counterpart, and the policy is to fail. -/
  | unsupported (loss : Loss)
  /-- The document has a version other than the one that is known. -/
  | unsupportedVersion (version : Nat)

namespace ConversionError

/-- What went wrong, on one line where a source is at fault. -/
def message : ConversionError → String
  | invalidRoot kind => "Invalid document type \"" ++ kind ++ "\""
  | parse fault _ =>
    "Error parsing GraphQL source: schema parse error: "
      ++ String.ofList (fault.report.takeWhile (· ≠ '\n'))
  | unsupported loss => loss.message
  | unsupportedVersion version => s!"core-types version {version} is not supported"

end ConversionError

namespace Sdl

/-- The schema that a source holds. A source that is at fault as a schema but holds operations or
fragments is refused for its kind. -/
def readSchema (source : String) : Except ConversionError Schema :=
  match Schema.parse source with
  | .ok schema => .ok schema
  | .error .splitCharacter => .error (.parse .splitCharacter source)
  | .error fault =>
    match readExecutable source with
    | .ok () => .error (.invalidRoot "ExecutableDocument")
    | .error .splitCharacter => .error (.parse .splitCharacter source)
    | .error _ => .error (.parse fault source)

end Sdl

end SchemaBridge
