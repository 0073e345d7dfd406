import SchemaBridge.Conversion
import SchemaBridge.Keyed
import SchemaBridge.Sdl.Definition
/-!
# Mapping with a registry

While core types are mapped to GraphQL types, a registry holds every name in use: the declared names
without a definition, and the synthesized types, each from the moment its name is chosen. A mapping
is a part of a conversion that reads the registry and leaves a new one.
-/
namespace SchemaBridge.Export

open Sdl (TypeDef)

/-- The names in use, with the definitions of those that are synthesized and finished. -/
abbrev Registry := Keyed (Option TypeDef)

abbrev Mapping := StateT Registry Reporting

/-- Puts a name into the registry. -/
def Mapping.register (name : String) (d : Option TypeDef) : Mapping Unit :=
  modify fun r => r.put name d

end SchemaBridge.Export
