import SchemaBridge.Export.Options
/-!
# The header of a generated text

A comment that says which file it is, where it comes from, and what it was made with.
-/
namespace SchemaBridge.Export

/-- The package that the header names as the one at work. -/
def thisPackage : String := "core-types-graphql"

/-- A package by its name, its address, or both. -/
def packageLine? : (package url : Option String) → Option String
  | some package, some url => some (package ++ " (" ++ url ++ ")")
  | some package, none => some package
  | none, url => url

/-- The lines of the header, without their comment marks. -/
def Options.headerLines (o : Options) : List String :=
  let output := match o.filename with
    | some f => "The file " ++ f
    | none => "This file"
  let input := match o.sourceFilename with
    | some f => " from " ++ f
    | none => ""
  let behalf := match packageLine? o.userPackage o.userPackageUrl with
    | some p => ["on behalf of", p]
    | none => []
  [output ++ " was auto-generated" ++ input ++ " using", thisPackage] ++ behalf

def Options.header (o : Options) : String :=
  String.intercalate "\n" (o.headerLines.map ("# " ++ ·))

end SchemaBridge.Export
