import SchemaBridge.Conversion
import SchemaBridge.Text.Blank
import SchemaBridge.Text.Lines
import SchemaBridge.Text.Quoted
/-!
# Log records

A record has a level, a target and a message. The level in force lets through what is at least as
urgent. Verbose output asks for `debug`; otherwise the environment may name a level, and a name that
is none is reported once the log is there.

Messages are written with the characters that steer a terminal spelled out. A message of several
lines fills as many lines of the log, and only the first of them shows level and target.
-/
namespace SchemaBridge.CommandLine

inductive Level where
  | trace
  | debug
  | info
  | warn
  | error
deriving DecidableEq, Repr

namespace Level

def text : Level → String
  | trace => "TRACE"
  | debug => "DEBUG"
  | info => "INFO"
  | warn => "WARN"
  | error => "ERROR"

/-- How urgent a record of a level is. -/
def urgency : Level → Nat
  | trace => 0
  | debug => 1
  | info => 2
  | warn => 3
  | error => 4

/-- The level with a name in small letters. -/
def ofName? : String → Option Level
  | "trace" => some trace
  | "debug" => some debug
  | "verbose" => some debug
  | "info" => some info
  | "warn" => some warn
  | "error" => some error
  | _ => none

end Level

structure Record where
  level : Level
  target : String
  message : String
deriving DecidableEq, Repr

/-- The characters below U+0080 that steer a terminal. -/
def steering : List Char := ['\x07', '\x08', '\x0c', '\x1b', '\x7f']

/-- A character of a message as it is written. -/
def writeChar (c : Char) : List Char :=
  if c ∈ steering then
    ['\\', 'x', Nat.digitChar (c.toNat / 16), Nat.digitChar (c.toNat % 16)]
  else if 0x80 ≤ c.toNat && c.toNat < 0xA0 then Text.codePoint c
  else [c]

namespace Record

/-- The record as it is written. -/
def written (r : Record) : Record :=
  { r with message := String.ofList (r.message.toList.flatMap writeChar) }

/-- The lines of the message. -/
def lines (r : Record) : List String := (Text.lines r.message.toList).map String.ofList

/-- The record that the first of its lines shows. -/
def firstLine (r : Record) : Record := { r with message := r.lines.headD "" }

/-- The lines after the first, which show no level. -/
def moreLines (r : Record) : List String := r.lines.tail

end Record

/-- The records that a level lets through. -/
def atLevel (level : Level) (rs : List Record) : List Record :=
  rs.filter fun r => level.urgency ≤ r.level.urgency

/-- A target below the root of all targets. -/
def target (path : String) : String := "core_types_graphql::" ++ path

/-- The level in force, and the name that was given for a level and is none. -/
def resolve (verbose : Bool) (environment : Option String) : Level × Option String :=
  if verbose then (.debug, none)
  else match environment.map Text.trimString with
    | none => (.info, none)
    | some name =>
      match Level.ofName? (String.ofList (name.toList.map Char.toLower)) with
      | some level => (level, none)
      | none => (.info, some name)

/-- The records of setting up a log. -/
def setupRecords (level : Level) (unknown : Option String) : List Record :=
  ⟨.trace, target "logging", s!"Initial logging level set to `{level.text}`."⟩
    :: match unknown with
      | none => []
      | some name => [⟨.warn, target "logging",
          s!"Invalid `LOG_LEVEL` environment variable value: `{name}`"⟩]

/-- The record of an event, given the target and the wording for converted names. -/
def recordOf (path converted : String) : Event → Record
  | .lost loss => ⟨.warn, target "options", loss.message⟩
  | .synthesizing name => ⟨.trace, target path, s!"Synthesizing type `{name}`."⟩
  | .droppedField owner field =>
    ⟨.trace, target path, s!"Dropping unmappable field `{owner}.{field}`."⟩
  | .converted name => ⟨.debug, target path, s!"Converted `{name}` to a {converted}."⟩
  | .notConverted name => ⟨.debug, target path, s!"Did not convert `{name}`."⟩

end SchemaBridge.CommandLine
