import SchemaBridge.Export.Header
import SchemaBridge.Export.Types
import SchemaBridge.Sdl.Printer
/-!
# From documents to schemas

The definitions of the declarations come first, in the order of the document, and after them the
synthesized types in the order of the registry. The text of the schema ends with a newline unless
it is empty.

Results:
* `schema_of_current`: a document of the known version is mapped under the policy of the options.
-/
namespace SchemaBridge.Export

open Model (Document)
open Sdl (Schema Definition)

/-- The registry before anything is mapped: every declared name, without a definition. -/
def initialRegistry (d : Document) : Registry := Keyed.ofEntries (d.names.map (·, none))

/-- The definitions that the registry holds, in its order. -/
def Registry.definitions (r : Registry) : List Sdl.TypeDef := r.filterMap Prod.snd

/-- The result of mapping all declarations: a declaration with a definition is converted. -/
def collect (ts : List (String × Option Sdl.TypeDef)) (r : Registry) : Converted Schema :=
  { data := (ts.filterMap Prod.snd ++ Registry.definitions r).map Definition.type
    convertedTypes := (ts.filter fun t => t.2.isSome).map Prod.fst
    notConvertedTypes := (ts.filter fun t => t.2.isNone).map Prod.fst }

/-- All declarations of a document mapped, from the initial registry on. -/
def run (s : Settings) (d : Document) : Reporting (Converted Schema) := do
  let (ts, r) ← (declarations s 0 d.types).run (initialRegistry d)
  pure (collect ts r)

/-- The schema for a document. -/
def schema (o : Options) (d : Document) : Conversion Schema :=
  if d.version ≠ Document.currentVersion then .failed (.unsupportedVersion d.version)
  else (run o.settings d).conclude o.unsupported

theorem schema_of_current (o : Options) {d : Document} (h : d.version = Document.currentVersion) :
    schema o d = (run o.settings d).conclude o.unsupported := by
  rw [schema, if_neg (not_not_intro h)]

/-- A text with a newline at its end, unless it is empty. -/
def endLine (t : String) : String :=
  if t.isEmpty || t.toList.getLast? = some '\n' then t else t ++ "\n"

/-- The text of a schema, with a header if the options ask for one. -/
def Options.render (o : Options) (s : Schema) : String :=
  let sdl := Schema.print s
  endLine (if o.hasHeader then o.header ++ "\n\n" ++ sdl else sdl)

/-- The text of the schema for a document. -/
def text (o : Options) (d : Document) : Conversion String := (schema o d).map o.render

end SchemaBridge.Export
