import FastSchema.Metadata.Json

/-!
# The metadata report of a unit

The instruction tables of a unit in a form that other programs can read, with the digest of the
document that they were compiled from.
-/

namespace FastSchema

/-- The report of a unit, with the digest of its document. -/
structure Metadata where
  unit : String
  ns : String
  templateNs : String
  dictionary : String
  digest : String
  templates : List TemplateInstruction
deriving Repr, Inhabited

namespace Metadata

def schemaVersion : String := "fastgen.metadata@0.1.0"

def toJson (m : Metadata) : Json :=
  .object [("schema_version", .string schemaVersion), ("unit", .string m.unit),
    ("ns", .string m.ns), ("template_ns", .string m.templateNs),
    ("dictionary", .string m.dictionary), ("input_sha256", .string m.digest),
    ("templates", .array (m.templates.map TemplateInstruction.toJson))]

/-- The report as text, ended by a line end. -/
def text (m : Metadata) : String := m.toJson.pretty ++ "\n"

def counts (m : Metadata) : List (String × Option Nat) :=
  m.templates.flatMap TemplateInstruction.counts

end Metadata

end FastSchema
