import SchemaBridge.Policy
/-!
# Arguments of the command line

Arguments are read from left to right. Each command knows its flags, its options with a value and
the number of its files; what it does not know, has seen before or misses is a usage error. A value
follows its option after `=` or as the next argument, which then must not look like an option. Behind
`--` everything is a file. The flag for verbose output may stand before the command and after it.
-/
namespace SchemaBridge.CommandLine

inductive Command where
  | schemaChanges (old new : String)
  | toCoreTypes (file : String) (unsupported : Policy)
  | toGraphql (file : String) (filename nullTypeName : Option String)
      (includeComment noHeader : Bool) (unsupported : Policy)
deriving DecidableEq, Repr

/-- What the arguments ask for. -/
inductive Invocation where
  | usageError
  | version
  | help
  | overview (verbose : Bool)
  | command (verbose : Bool) (c : Command)
deriving DecidableEq, Repr

/-- Why no arguments come out of reading them. -/
inductive Stop where
  | usageError
  | help
deriving DecidableEq, Repr

/-- What a command accepts. -/
structure Grammar where
  flags : List String
  options : List String
  files : Nat

def schemaChangesGrammar : Grammar := ⟨["--verbose"], [], 2⟩

def toCoreTypesGrammar : Grammar := ⟨["--verbose"], ["--unsupported"], 1⟩

def toGraphqlGrammar : Grammar :=
  ⟨["--verbose", "--include-comment", "--no-header"],
    ["--filename", "--null-type-name", "--unsupported"], 1⟩

/-- The arguments of a command. -/
structure Arguments where
  flags : List String := []
  options : List (String × String) := []
  files : List String := []
deriving DecidableEq, Repr

namespace Arguments

def addFlag (a : Arguments) (g : Grammar) (flag : String) : Except Stop Arguments :=
  if flag ∈ g.flags ∧ flag ∉ a.flags then .ok { a with flags := a.flags ++ [flag] }
  else .error .usageError

/-- Adds an option. A policy has to be one. -/
def addOption (a : Arguments) (g : Grammar) (option value : String) : Except Stop Arguments :=
  let valid := if option = "--unsupported" then (Policy.ofText? value).isOk else true
  if option ∈ g.options ∧ (a.options.lookup option).isNone ∧ valid then
    .ok { a with options := a.options ++ [(option, value)] }
  else .error .usageError

/-- Adds a file, whose name must not be empty. -/
def addFile (a : Arguments) (g : Grammar) (file : String) : Except Stop Arguments :=
  if file ≠ "" ∧ a.files.length < g.files then .ok { a with files := a.files ++ [file] }
  else .error .usageError

def addFiles (a : Arguments) (g : Grammar) : List String → Except Stop Arguments
  | [] => .ok a
  | f :: fs => do
    let a ← a.addFile g f
    a.addFiles g fs

/-- Adds flags of one letter each. -/
def addLetters (a : Arguments) (g : Grammar) : List Char → Except Stop Arguments
  | [] => .ok a
  | 'v' :: cs => do
    let a ← a.addFlag g "--verbose"
    a.addLetters g cs
  | 'h' :: _ => .error .help
  | _ :: _ => .error .usageError

end Arguments

/-- Whether an argument looks like an option; a lone dash does not. -/
def looksLikeOption (arg : String) : Bool :=
  match arg.toList with
  | '-' :: _ :: _ => true
  | _ => false

/-- An argument split at its first equals sign. -/
def splitValue (arg : String) : String × Option String :=
  let name := arg.toList.takeWhile (· ≠ '=')
  match arg.toList.dropWhile (· ≠ '=') with
  | [] => (arg, none)
  | _ :: value => (String.ofList name, some (String.ofList value))

/-- Reads the arguments of a command. -/
def readArguments (g : Grammar) (a : Arguments) : List String → Except Stop Arguments
  | [] => .ok a
  | arg :: args =>
    match arg.toList with
    | ['-', '-'] => a.addFiles g args
    | '-' :: '-' :: _ =>
      match splitValue arg with
      | (option, some value) => do
        let a ← a.addOption g option value
        readArguments g a args
      | (option, none) =>
        if option = "--help" then .error .help
        else if option ∈ g.options then
          match args with
          | [] => .error .usageError
          | value :: args =>
            if looksLikeOption value then .error .usageError
            else do
              let a ← a.addOption g option value
              readArguments g a args
        else do
          let a ← a.addFlag g option
          readArguments g a args
    | '-' :: c :: cs => do
      let a ← a.addLetters g (c :: cs)
      readArguments g a args
    | _ => do
      let a ← a.addFile g arg
      readArguments g a args

/-- The policy of the arguments, or the one that holds without. -/
def Arguments.policy (a : Arguments) (default : Policy) : Policy :=
  match a.options.lookup "--unsupported" with
  | none => default
  | some text =>
    match Policy.ofText? text with
    | .ok p => p
    | .error _ => default

/-- The command that complete arguments make. -/
def commandOf? (name : String) (a : Arguments) : Option Command :=
  match name, a.files with
  | "schema-changes", [old, new] => some (.schemaChanges old new)
  | "to-core-types", [file] => some (.toCoreTypes file (a.policy .ignore))
  | "to-graphql", [file] =>
    let includeComment : Bool := "--include-comment" ∈ a.flags
    let noHeader : Bool := "--no-header" ∈ a.flags
    if includeComment && noHeader then none
    else some (.toGraphql file (a.options.lookup "--filename") (a.options.lookup "--null-type-name")
      includeComment noHeader (a.policy .warn))
  | _, _ => none

/-- The grammar of a command. -/
def grammarOf? : String → Option Grammar
  | "schema-changes" => some schemaChangesGrammar
  | "to-core-types" => some toCoreTypesGrammar
  | "to-graphql" => some toGraphqlGrammar
  | _ => none

/-- Reads a command and its arguments. -/
def readCommand (verbose : Bool) (name : String) (args : List String) : Invocation :=
  match grammarOf? name with
  | none => .usageError
  | some g =>
    match readArguments g {} args with
    | .error .help => .help
    | .error .usageError => .usageError
    | .ok a =>
      match commandOf? name a with
      | none => .usageError
      | some c => .command (verbose || "--verbose" ∈ a.flags) c

/-- Reads what follows the word `help`: at most the name of a command. -/
def readHelp : List String → Invocation
  | [] => .help
  | [name] => if (grammarOf? name).isSome || name = "help" then .help else .usageError
  | _ => .usageError

/-- Flags of one letter before the command: what they ask for, or whether output is verbose now. -/
def readLetters (verbose : Bool) : List Char → Invocation ⊕ Bool
  | [] => .inr verbose
  | 'v' :: cs => if verbose then .inl .usageError else readLetters true cs
  | 'V' :: _ => .inl .version
  | 'h' :: _ => .inl .help
  | _ :: _ => .inl .usageError

/-- Reads arguments from before the command on. -/
def readInvocation (verbose : Bool) : List String → Invocation
  | [] => .overview verbose
  | "--" :: args => if args.isEmpty then .overview verbose else .usageError
  | "--verbose" :: args => if verbose then .usageError else readInvocation true args
  | "--version" :: _ => .version
  | "--help" :: _ => .help
  | "help" :: args => readHelp args
  | arg :: args =>
    match arg.toList with
    | '-' :: '-' :: _ => .usageError
    | '-' :: c :: cs =>
      match readLetters verbose (c :: cs) with
      | .inl i => i
      | .inr verbose => readInvocation verbose args
    | _ => readCommand verbose arg args

end SchemaBridge.CommandLine
