import SchemaBridge.Changes.Compare
import SchemaBridge.CommandLine.Arguments
import SchemaBridge.CommandLine.Log
import SchemaBridge.Export.Schema
import SchemaBridge.Import
import SchemaBridge.Json.Reader
import SchemaBridge.Json.Writer
import SchemaBridge.Text.Quoted
/-!
# Running a command

A run is a function of the arguments, the environment and the contents of files; it gives the exit
code, what goes to the two outputs, and the log.
-/
namespace SchemaBridge.CommandLine

/-- Why a file has no text. -/
inductive ReadError where
  | notFound
  | isDirectory
  | notDirectory
  | nameTooLong
  | notText
  | other (reason : String)
deriving DecidableEq, Repr

def ReadError.message : ReadError → String
  | .notFound => "No such file or directory (os error 2)"
  | .isDirectory => "Is a directory (os error 21)"
  | .notDirectory => "Not a directory (os error 20)"
  | .nameTooLong => "File name too long (os error 36)"
  | .notText => "stream did not contain valid UTF-8"
  | .other reason => reason

/-- The text of the bytes of a file. -/
def decodeFile (bytes : ByteArray) : Except ReadError String :=
  match String.fromUTF8? bytes with
  | some text => .ok text
  | none => .error .notText

/-- What a file name leads to. -/
abbrev Files := String → Except ReadError String

/-- What a run leaves. -/
structure Outcome where
  exit : Nat
  stdout : String
  stderr : String
  log : List Record
deriving DecidableEq, Repr

namespace Outcome

/-- The records that the lines of the log show. -/
def records (o : Outcome) : List Record := o.log.map Record.firstLine

/-- All other lines: those that only carry on with a message, and the error output. -/
def otherLines (o : Outcome) : List String :=
  o.log.flatMap Record.moreLines ++ if o.stderr.isEmpty then [] else [o.stderr]

end Outcome

def versionText : String := "core-types-graphql 0.1.0\n"

/-- What those are told whose arguments make no sense. -/
def usageText : String := "Usage: core-types-graphql [OPTIONS] [COMMAND]"

/-- The lines up to the options, the same in both texts. -/
def helpHead : String :=
  "Convert between core-types JSON documents and GraphQL SDL\n\n" ++
  usageText ++ "\n\n" ++
  "Commands:\n" ++
  "  schema-changes  Compare two GraphQL schemas and list breaking and dangerous changes\n" ++
  "  to-core-types   Convert a GraphQL SDL file into a core-types JSON document\n" ++
  "  to-graphql      Convert a core-types JSON document into GraphQL SDL\n" ++
  "  help            Print this message or the help of the given subcommand(s)\n\n" ++
  "Options:\n"

/-- The text for those who ask for help. -/
def helpText : String :=
  helpHead ++
  "  -v, --verbose  Enable verbose output.\n" ++
  "  -h, --help     Print help\n" ++
  "  -V, --version  Print version\n"

/-- The text for those who give no command. -/
def overviewText : String :=
  helpHead ++
  "  -v, --verbose\n          Enable verbose output.\n\n" ++
  "  -h, --help\n          Print help\n\n" ++
  "  -V, --version\n          Print version\n"

/-! ## Commands -/

/-- What a command comes to: an exit code and a text, or a reason for failing; and its records. -/
structure Result where
  outcome : Except String (Nat × String)
  records : List Record

/-- The records of reading files, each before it is read. -/
def readingRecord (file : String) : Record :=
  ⟨.debug, target "commands", s!"Reading {Text.quoted file}..."⟩

/-- What is said of a file that has no text. -/
def readFailure (file : String) (e : ReadError) : String :=
  s!"Failed to read {Text.quoted file}: {e.message}"

/-- The count of names on either side. -/
def countText (converted notConverted : List String) : String :=
  s!"Converted {converted.length} types ({notConverted.length} not converted)."

def warningSign : String := "\u26A0\uFE0F"

def runToCoreTypes (files : Files) (file : String) (unsupported : Policy) : Result :=
  match files file with
  | .error e => ⟨.error (readFailure file e), [readingRecord file]⟩
  | .ok sdl =>
    let c := Import.document ⟨unsupported⟩ sdl
    let records := readingRecord file
      :: c.events.map (recordOf "graphql_to_core_types" "core type")
    match c.outcome with
    | .error e => ⟨.error e.message, records⟩
    | .ok r =>
      let path := target "commands::to_core_types"
      let missing := if r.notConvertedTypes.isEmpty then [] else
        [⟨.warn, path, warningSign ++ " Not converted: "
          ++ String.intercalate ", " r.notConvertedTypes⟩]
      ⟨.ok (0, r.data.toJson.pretty),
        records ++ ⟨.info, path, countText r.convertedTypes r.notConvertedTypes⟩ :: missing⟩

/-- How deep arrays and objects may be nested in the file of a document. -/
def maxDepth : Nat := 127

/-- The document that a JSON text holds. -/
def readDocument? (json : String) : Option Model.Document :=
  (Json.readMembers? (.within maxDepth) (· ∈ Model.documentKeys) json).bind Model.Document.ofJson?

def runToGraphql (files : Files) (file : String) (o : Export.Options) : Result :=
  match files file with
  | .error e => ⟨.error (readFailure file e), [readingRecord file]⟩
  | .ok json =>
    match readDocument? json with
    | none =>
      ⟨.error (Text.quoted file ++ " is not a valid core-types document"), [readingRecord file]⟩
    | some d =>
      let c := Export.text o d
      let records := readingRecord file
        :: c.events.map (recordOf "core_types_to_graphql" "GraphQL type")
      match c.outcome with
      | .error e => ⟨.error e.message, records⟩
      | .ok r =>
        let path := target "commands::to_graphql"
        ⟨.ok (0, Text.trimStringEnd r.data),
          records ++ ⟨.info, path, countText r.convertedTypes r.notConvertedTypes⟩
            :: r.notConvertedTypes.map fun n => ⟨.debug, path, s!"Not converted: `{n}`"⟩⟩

/-- The lines that report changes. -/
def reportLines (r : Changes.Report) : List String :=
  let lines := r.breaking.map (fun c => "\u274C " ++ c.description)
    ++ r.dangerous.map fun c => warningSign ++ " " ++ c.description
  if lines.isEmpty then ["\u2705 No breaking or dangerous changes."] else lines

def runSchemaChanges (files : Files) (old new : String) : Result :=
  match files old with
  | .error e => ⟨.error (readFailure old e), [readingRecord old]⟩
  | .ok oldSdl =>
    let reading := [readingRecord old, readingRecord new]
    match files new with
    | .error e => ⟨.error (readFailure new e), reading⟩
    | .ok newSdl =>
      match Changes.compare oldSdl newSdl with
      | .error e => ⟨.error e.message, reading⟩
      | .ok r =>
        let counts := s!"Found {r.breaking.length} breaking and {r.dangerous.length} dangerous "
        let compared := ⟨.debug, target "schema_changes", counts ++ "schema changes."⟩
        ⟨.ok (if r.breaking.isEmpty then 0 else 1, String.intercalate "\n" (reportLines r)),
          reading ++ [compared, compared,
            ⟨.debug, target "commands::schema_changes", counts ++ "changes."⟩]⟩

/-- The options that a command line sets for the conversion to GraphQL. -/
def exportOptions (file : String) (filename nullTypeName : Option String)
    (includeComment noHeader : Bool) (unsupported : Policy) : Export.Options :=
  { filename := filename
    sourceFilename := some file
    nullTypeName := nullTypeName
    unsupported := unsupported
    includeComment := if noHeader then some false else if includeComment then some true else none }

def runCommand (files : Files) : Command → Result
  | .schemaChanges old new => runSchemaChanges files old new
  | .toCoreTypes file unsupported => runToCoreTypes files file unsupported
  | .toGraphql file filename nullTypeName includeComment noHeader unsupported =>
    runToGraphql files file
      (exportOptions file filename nullTypeName includeComment noHeader unsupported)

/-- What a command was about to do when it failed. -/
def Command.action : Command → String
  | .schemaChanges .. => "compare schemas"
  | .toCoreTypes .. => "convert to core-types"
  | .toGraphql .. => "convert to GraphQL"

/-- A run with the log set up. -/
def logged (verbose : Bool) (environment : Option String) (exit : Nat) (stdout stderr : String)
    (records : List Record) : Outcome :=
  let (level, unknown) := resolve verbose environment
  ⟨exit, stdout, stderr,
    (atLevel level (setupRecords level unknown ++ records)).map Record.written⟩

/-- A whole run. -/
def run (args : List String) (environment : Option String) (files : Files) : Outcome :=
  match readInvocation false args with
  | .usageError => ⟨2, "", usageText, []⟩
  | .version => ⟨0, versionText, "", []⟩
  | .help => ⟨0, helpText, "", []⟩
  | .overview verbose => logged verbose environment 0 overviewText "" []
  | .command verbose c =>
    let r := runCommand files c
    match r.outcome with
    | .ok (exit, text) => logged verbose environment exit (text ++ "\n") "" r.records
    | .error reason =>
      logged verbose environment 1 "" (s!"\u274C Failed to {c.action}: {reason}") r.records

/-- The files that a command reads. -/
def Command.files : Command → List String
  | .schemaChanges old new => [old, new]
  | .toCoreTypes file _ => [file]
  | .toGraphql file .. => [file]

/-- The files that arguments ask for. -/
def filesOf (args : List String) : List String :=
  match readInvocation false args with
  | .command _ c => c.files
  | _ => []

end SchemaBridge.CommandLine
