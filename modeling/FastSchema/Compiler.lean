import FastSchema.Accessors.Builder
import FastSchema.Disk.Basic
import FastSchema.Metadata.Basic
import FastSchema.Metadata.Sha256
import FastSchema.Schema.OfXml
import FastSchema.Tables.Builder

/-!
# Compiling documents

A document is compiled into a unit: an accessor file, a table file and a metadata report. All
documents of a run share one registry, so a document may refer to its own templates and to those
of documents that came before it, even of ones that failed after they were loaded.
-/

namespace FastSchema

/-- What a document is compiled into: the texts of its accessor and table files, and its report. -/
structure CompiledUnit where
  unit : String
  accessors : String
  tables : String
  metadata : Metadata
deriving Repr, Inhabited

/-- A step of a run that compiles documents. -/
abbrev Compile := Fallible Registry

namespace Compile

def document (unit : String) (doc : Document) (digest : String) : Compile CompiledUnit := do
  modify (·.registerDocument unit doc)
  let accessors ← Accessors.compile unit (← get) doc
  let (result, tables) := ((Tables.visitor unit).walk doc).outcome (.start (← get))
  set tables.registry
  result
  let metadata : Metadata :=
    { unit, ns := doc.attrs.getD "ns", templateNs := doc.attrs.getD "templateNs",
      dictionary := doc.attrs.getD "dictionary", digest, templates := tables.templates.toList }
  return { unit, accessors, tables := tables.text, metadata }

def source (unit text : String) : Compile CompiledUnit := do
  document unit (← Document.parse text) (Sha256.ofText text)

end Compile

/-- The unit that a file is compiled into is named for the stem of its name. -/
def Disk.Path.unitName (p : Disk.Path) : Except Fault String :=
  match p.stem? with
  | some unit => .ok unit
  | none => .error (.load (.unnamed p.text))

/-- A fault of the document in the file at a path; a failure to load it names the file. -/
def Fault.within (path : Disk.Path) : Fault → Fault
  | .load failure => .load (.within path.text failure)
  | fault => fault

namespace Compile

def file (path : Disk.Path) (content : Except Disk.Failure (List UInt8)) :
    Compile CompiledUnit := do
  let unit ← path.unitName
  match content.bind fun bytes => (Text.ofUtf8? bytes).elim (.error .notText) .ok with
  | .error failure => throw (.load (.unreadable path.text failure))
  | .ok text => ExceptT.adapt (Fault.within path) (source unit text)

end Compile

end FastSchema
