import SchemaBridge.Export.Options
import SchemaBridge.Import
import SchemaBridge.Text.Quoted
/-!
# Options as text

A one-line account of the options of either conversion, for logs. Functions are only said to be
there.
-/
namespace SchemaBridge

/-- An optional value by the text of what it holds. -/
def optionText {α : Type} (text : α → String) : Option α → String
  | none => "None"
  | some a => "Some(" ++ text a ++ ")"

/-- The text of a record: its name and its fields in order. -/
def recordText (name : String) (fields : List (String × String)) : String :=
  name ++ " \x7b " ++ String.intercalate ", " (fields.map fun f => f.1 ++ ": " ++ f.2) ++ " \x7d"

/-- A function that may be there. -/
def functionText (isThere : Bool) : String :=
  optionText Text.quoted (if isThere then some "<fn>" else none)

def Policy.constructorText : Policy → String
  | .ignore => "Ignore"
  | .warn => "Warn"
  | .error => "Error"

/-- The options of the conversion to GraphQL, and whether a sink for warnings goes with them. -/
def Export.Options.describe (o : Export.Options) (hasSink : Bool) : String :=
  recordText "CoreTypesToGraphqlOptions"
    [("warn", functionText hasSink),
     ("filename", optionText Text.quoted o.filename),
     ("source_filename", optionText Text.quoted o.sourceFilename),
     ("user_package", optionText Text.quoted o.userPackage),
     ("user_package_url", optionText Text.quoted o.userPackageUrl),
     ("null_type_name", optionText Text.quoted o.nullTypeName),
     ("name_generator", functionText o.nameGenerator.isSome),
     ("unsupported", o.unsupported.constructorText),
     ("include_comment", optionText (fun b => if b then "true" else "false") o.includeComment)]

/-- The options of the conversion to core types, and whether a sink for warnings goes with them. -/
def Import.Options.describe (o : Import.Options) (hasSink : Bool) : String :=
  recordText "GraphqlToCoreTypesOptions"
    [("warn", functionText hasSink), ("unsupported", o.unsupported.constructorText)]

end SchemaBridge
