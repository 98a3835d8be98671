import FastSchema.Schema.Attributes
import FastSchema.Schema.IntType

/-!
# Template schema documents

A document is a list of templates, a template a list of fields. A field is a leaf (an integer,
string, decimal, byte vector or a reference to a template) or a composite (a group or a sequence)
that has fields of its own. Attributes are kept beside the typed shape, as they are written out
unchanged.
-/

namespace FastSchema

inductive OperatorKind where
  | none
  | constant
  | default
  | copy
  | increment
  | delta
  | tail
deriving DecidableEq, Repr, Inhabited

namespace OperatorKind

/-- The name of the kind, both of its element and in generated code. -/
def name : OperatorKind → String
  | .none => "none"
  | .constant => "constant"
  | .default => "default"
  | .copy => "copy"
  | .increment => "increment"
  | .delta => "delta"
  | .tail => "tail"

def declared : List OperatorKind := [.constant, .default, .copy, .increment, .delta, .tail]

def ofTag? (tag : String) : Option OperatorKind :=
  declared.find? fun k => k.name = tag

end OperatorKind

/-- The operator of a field: an element such as `copy` with its attributes. -/
structure Operator where
  kind : OperatorKind
  attrs : Attributes
deriving DecidableEq, Repr, Inhabited

/-- The length of a sequence, a unicode string or a byte vector. -/
structure Length where
  attrs : Attributes
  operator : Option Operator
deriving DecidableEq, Repr, Inhabited

/-- The application type that a template or composite is bound to. -/
structure TypeRef where
  name : String
  ns : String
deriving DecidableEq, Repr, Inhabited

/-- A reference to a template. Without a name it is dynamic: the message says which template. -/
structure Reference where
  name : Option String
  ns : Option String
deriving DecidableEq, Repr, Inhabited

/-- A decimal has one operator for the whole value, or one for each of its two parts. -/
inductive DecimalShape where
  | whole (operator : Option Operator)
  | split (mantissa exponent : Option Operator)
deriving DecidableEq, Repr, Inhabited

inductive Leaf where
  | integer (type : IntType) (operator : Option Operator)
  | string (operator : Option Operator) (length : Option Length)
  | decimal (shape : DecimalShape)
  | byteVector (operator : Option Operator) (length : Option Length)
  | reference (reference : Reference)
deriving DecidableEq, Repr, Inhabited

inductive CompositeKind where
  | group
  | sequence (length : Option Length)
deriving DecidableEq, Repr, Inhabited

/-- What every field has: a name, empty for most references, and its attributes. -/
structure FieldHead where
  name : String
  attrs : Attributes
deriving DecidableEq, Repr, Inhabited

inductive Field where
  | leaf (head : FieldHead) (content : Leaf)
  | composite (head : FieldHead) (kind : CompositeKind) (typeRef : Option TypeRef)
      (fields : List Field)
deriving Repr, Inhabited

/-- A group or sequence on its own. -/
structure Composite where
  head : FieldHead
  kind : CompositeKind
  typeRef : Option TypeRef
  fields : List Field
deriving Repr, Inhabited

structure Template where
  name : String
  attrs : Attributes
  typeRef : Option TypeRef
  fields : List Field
deriving Repr, Inhabited

structure Document where
  attrs : Attributes
  templates : List Template
deriving Repr, Inhabited

inductive Presence where
  | mandatory
  | optional
deriving DecidableEq, Repr, Inhabited

def Presence.name : Presence → String
  | .mandatory => "mandatory"
  | .optional => "optional"

inductive Charset where
  | ascii
  | unicode
deriving DecidableEq, Repr, Inhabited

def Charset.name : Charset → String
  | .ascii => "ascii"
  | .unicode => "unicode"

namespace FieldHead

/-- A field is mandatory unless its `presence` says `optional`. -/
def presence (head : FieldHead) : Presence :=
  if head.attrs.get? "presence" = some "optional" then .optional else .mandatory

/-- A string is in ASCII unless its `charset` says `unicode`. -/
def charset (head : FieldHead) : Charset :=
  if head.attrs.get? "charset" = some "unicode" then .unicode else .ascii

end FieldHead

def Leaf.operator? : Leaf → Option Operator
  | .integer _ operator => operator
  | .string operator _ => operator
  | .decimal (.whole operator) => operator
  | .byteVector operator _ => operator
  | .decimal (.split _ _) => none
  | .reference _ => none

/-- A mandatory field with the operator `constant`: the template fixes its value. -/
def Leaf.isFixed (leaf : Leaf) (head : FieldHead) : Bool :=
  head.presence = .mandatory && leaf.operator?.any fun op => op.kind = .constant

namespace Field

def head : Field → FieldHead
  | .leaf head _ => head
  | .composite head _ _ _ => head

def operator? : Field → Option Operator
  | .leaf _ l => l.operator?
  | .composite _ _ _ _ => none

def isFixed : Field → Bool
  | .leaf head l => l.isFixed head
  | .composite _ _ _ _ => false

end Field

def soleReference? : List Field → Option Reference
  | [.leaf _ (.reference r)] => some r
  | _ => none

/-- The reference that the composite reduces to. A composite that does is flattened: it is written
as the reference itself and its field is not visited. -/
def Composite.soleReference? (c : Composite) : Option Reference :=
  FastSchema.soleReference? c.fields

end FastSchema
