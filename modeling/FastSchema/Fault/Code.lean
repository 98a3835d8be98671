/-!
# Diagnostic codes

Every fault belongs to a diagnostic code, which has a phase, a summary and possibly a hint. The
catalogue lists all of them in the order of their codes.
-/

namespace FastSchema

/-- The stage of a compilation in which a fault arises. -/
inductive Phase where
  | load
  | derive
  | resolve
  | internal
deriving DecidableEq, Repr, Inhabited

def Phase.name : Phase → String
  | .load => "Load"
  | .derive => "Derive"
  | .resolve => "Resolve"
  | .internal => "Internal"

inductive Code where
  | loadFailed
  | badRoot
  | invalidDecimal
  | invalidByteVector
  | invalidInteger
  | invalidId
  | unresolvedReference
  | internalBug
deriving DecidableEq, Repr, Inhabited

namespace Code

def all : List Code :=
  [.loadFailed, .badRoot, .invalidDecimal, .invalidByteVector, .invalidInteger, .invalidId,
   .unresolvedReference, .internalBug]

/-- The code as it is written in messages. -/
def label : Code → String
  | .loadFailed => "FTG0001"
  | .badRoot => "FTG0002"
  | .invalidDecimal => "FTG0100"
  | .invalidByteVector => "FTG0101"
  | .invalidInteger => "FTG0102"
  | .invalidId => "FTG0103"
  | .unresolvedReference => "FTG0200"
  | .internalBug => "FTG0901"

def phase : Code → Phase
  | .loadFailed | .badRoot => .load
  | .invalidDecimal | .invalidByteVector | .invalidInteger | .invalidId => .derive
  | .unresolvedReference => .resolve
  | .internalBug => .internal

def summary : Code → String
  | .loadFailed => "schema document could not be parsed"
  | .badRoot => "schema document has an unexpected root element"
  | .invalidDecimal => "invalid decimal literal"
  | .invalidByteVector => "invalid byte vector literal"
  | .invalidInteger => "invalid integer literal"
  | .invalidId => "invalid field id"
  | .unresolvedReference => "unresolved static template reference"
  | .internalBug => "internal fastgen bug"

def hint? : Code → Option String
  | .badRoot => some "The document root must be <templates> or a single <template>."
  | .invalidByteVector => some "Byte vector values are hex digit pairs; whitespace is ignored."
  | .unresolvedReference =>
    some "Pass the file defining the referenced template before the file that uses it."
  | .internalBug => some "This is a bug in fastgen. Please report it with the input schema."
  | .loadFailed | .invalidDecimal | .invalidInteger | .invalidId => none

def catalogueRow (c : Code) : String :=
  "| " ++ c.label ++ " | " ++ c.phase.name ++ " | " ++ c.summary ++ " | " ++ c.hint?.getD "" ++
    " |\n"

def catalogue : String :=
  "# fastgen diagnostics catalog\n\n" ++
  "This document is generated from `crates/fastgen-core/src/diagnostics.rs`.\n\n" ++
  "| Code | Phase | Message | Help |\n" ++
  "| ---- | ----- | ------- | ---- |\n" ++
  String.join (all.map catalogueRow)

end Code

end FastSchema
