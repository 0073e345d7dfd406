import SchemaBridge.Export.NameGenerator
import SchemaBridge.Policy
/-!
# Options of the conversion to GraphQL
-/
namespace SchemaBridge.Export

structure Options where
  /-- The file that the text is meant for, and the one that the types came from. -/
  filename : Option String := none
  sourceFilename : Option String := none
  /-- On whose behalf the text is made. -/
  userPackage : Option String := none
  userPackageUrl : Option String := none
  /-- The type that stands for `null`; without it `null` has no counterpart. -/
  nullTypeName : Option String := none
  nameGenerator : Option NameGenerator := none
  unsupported : Policy := .warn
  /-- Comments go into descriptions if this is `some true`, and the text has a header unless it
  is `some false`. -/
  includeComment : Option Bool := none

/-- The options as far as they bear on the schema, defaults filled in. -/
structure Settings where
  nullTypeName : Option String
  generator : NameGenerator
  includeComment : Bool

namespace Options

def settings (o : Options) : Settings :=
  { nullTypeName := o.nullTypeName
    generator := o.nameGenerator.getD NameGenerator.numbered
    includeComment := o.includeComment = some true }

/-- Whether the text starts with a header. -/
def hasHeader (o : Options) : Bool := o.includeComment ≠ some false

end Options

end SchemaBridge.Export
