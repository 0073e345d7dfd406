import SchemaBridge.Changes.Compare
import SchemaBridge.Export.Schema
import SchemaBridge.Import
/-!
# Sessions

The conversions and the comparison keep nothing from one call to the next. A session is what a caller
keeps who makes such calls one after another: a document, a schema text and the text before it. A step
is one call on what is kept, and its result is kept in turn unless the call fails.
-/
namespace SchemaBridge

open Model (Document Declaration)

/-- What a caller keeps between calls. -/
structure Session where
  document : Document := .ofTypes []
  current : String := ""
  previous : String := ""

/-- A call on what is kept, or a change to it. -/
inductive SessionStep where
  | loadDocument (d : Document)
  | loadSchema (sdl : String)
  | toGraphql (o : Export.Options)
  | toCoreTypes (o : Import.Options)
  | clearLocations
  | setVersion (version : Nat)
  | addType (t : Declaration)
  | removeType (name : String)
  | compare

/-- What a step has to say. -/
inductive Answer where
  | names (names : List String)
  | schema (sdl : String)
  | exported (c : Conversion String)
  | imported (c : Conversion Document)
  | document (d : Document)
  | version (n : Nat)
  | changes (r : Except ConversionError Changes.Report)

namespace Session

/-- A new schema text; the one at hand becomes the one before. -/
def setSchema (s : Session) (sdl : String) : Session :=
  { s with current := sdl, previous := s.current }

def setDocument (s : Session) (d : Document) : Session := { s with document := d }

/-- The session after its document was converted: the schema text is the result. -/
def afterExport (s : Session) (c : Conversion String) : Session :=
  match c.outcome with
  | .ok r => s.setSchema r.data
  | .error _ => s

/-- The session after its schema text was converted: the document is the result. -/
def afterImport (s : Session) (c : Conversion Document) : Session :=
  match c.outcome with
  | .ok r => s.setDocument r.data
  | .error _ => s

/-- A step, with what it has to say and the session after it. -/
def apply (s : Session) : SessionStep → Answer × Session
  | .loadDocument d => (.names d.names, s.setDocument d)
  | .loadSchema sdl => (.schema sdl, s.setSchema sdl)
  | .toGraphql o =>
    let c := Export.text o s.document
    (.exported c, s.afterExport c)
  | .toCoreTypes o =>
    let c := Import.document o s.current
    (.imported c, s.afterImport c)
  | .clearLocations =>
    let d := s.document.clearLocations
    (.document d, s.setDocument d)
  | .setVersion n => (.version n, s.setDocument { s.document with version := n })
  | .addType t =>
    let d := s.document.add t
    (.names d.names, s.setDocument d)
  | .removeType name =>
    let d := s.document.remove name
    (.names d.names, s.setDocument d)
  | .compare => (.changes (Changes.compare s.previous s.current), s)

/-- Steps one after another: what each of them has to say, and the session after the last. -/
def run : Session → List SessionStep → List Answer × Session
  | s, [] => ([], s)
  | s, step :: steps =>
    let (answer, next) := s.apply step
    let (answers, last) := next.run steps
    (answer :: answers, last)

end Session

end SchemaBridge
