import FastSchema.Literal.ByteVector
import FastSchema.Literal.Decimal
import FastSchema.Literal.Integer
import FastSchema.Schema.Basic

/-!
# Instructions

What a unit tells the runtime codec about its templates: one record for every template and field,
with all defaults filled in, literals read and references resolved.
-/

namespace FastSchema

/-- The dictionary entry that the values of an operator are kept under. -/
structure OperatorContext where
  key : String
  ns : String
  dictionary : String
deriving DecidableEq, Repr, Inhabited

/-- An operator. It has a context if the key or the dictionary is set, and an initial value, kept as
it is written, if that is not empty. -/
structure OperatorRecord where
  kind : OperatorKind
  context : Option OperatorContext
  initial : Option String
deriving DecidableEq, Repr, Inhabited

/-- The length of a string or byte vector. -/
structure LengthRecord where
  id : UInt32
  name : String
  ns : String
deriving DecidableEq, Repr, Inhabited

/-- A template that a static reference leads to, and the unit that defines it. -/
structure Target where
  name : String
  ns : String
  unit : String
deriving DecidableEq, Repr, Inhabited

/-- The name of the target's type as it is written in the given unit. -/
def Target.typeName (t : Target) (unit : String) : String :=
  if t.unit = unit then t.name else t.unit ++ "::" ++ t.name

/-- What every field record begins with. -/
structure RecordHead where
  index : Nat
  presence : Presence
  id : UInt32
  name : String
  ns : String
  dictionary : String
deriving DecidableEq, Repr, Inhabited

/-- What is recorded of a leaf. A dynamic reference has no target. -/
inductive LeafPayload where
  | integer (type : IntType) (op : OperatorRecord) (initial : Option IntValue)
  | decimal (op : OperatorRecord) (initial : Option Decimal)
  | splitDecimal (mantissaOp : OperatorRecord) (mantissaInitial : Option Int64)
      (exponentOp : OperatorRecord) (exponentInitial : Option Int32)
  | string (charset : Charset) (op : OperatorRecord) (initial : Option String)
      (length : Option LengthRecord)
  | byteVector (op : OperatorRecord) (initial : Option (List UInt8))
      (length : Option LengthRecord)
  | reference (target : Option Target)
deriving DecidableEq, Repr, Inhabited

/-- The record of the number of elements of a sequence, an unsigned integer of 32 bits. -/
structure SequenceLength where
  head : RecordHead
  op : OperatorRecord
  initial : Option IntValue
deriving DecidableEq, Repr, Inhabited

inductive CompositeRecord where
  | group
  | sequence (length : SequenceLength)
deriving DecidableEq, Repr, Inhabited

/-- What a flattened composite has in place of fields: those of the template that its sole reference
leads to, or a slot for one message of any template. -/
inductive FlatBody where
  | borrowed (target : Target)
  | slot (presence : Presence)
deriving DecidableEq, Repr, Inhabited

inductive FieldInstruction where
  | leaf (head : RecordHead) (payload : LeafPayload)
  | owning (head : RecordHead) (kind : CompositeRecord) (typeRef : Option TypeRef)
      (fields : List FieldInstruction)
  | flattened (head : RecordHead) (kind : CompositeRecord) (typeRef : Option TypeRef)
      (body : FlatBody)
deriving Repr, Inhabited

structure TemplateInstruction where
  index : Nat
  id : UInt32
  name : String
  ns : String
  templateNs : String
  dictionary : String
  reset : Bool
  typeRef : Option TypeRef
  fields : List FieldInstruction
deriving Repr, Inhabited

namespace FieldInstruction

def head : FieldInstruction → RecordHead
  | .leaf head _ => head
  | .owning head _ _ _ => head
  | .flattened head _ _ _ => head

/-- The number of fields of a composite; that of a borrowed body is not known here. -/
def count? : FieldInstruction → Option Nat
  | .leaf _ _ => none
  | .owning _ _ _ fields => some fields.length
  | .flattened _ _ _ (.slot _) => some 1
  | .flattened _ _ _ (.borrowed _) => none

mutual

def counts (path : String) : FieldInstruction → List (String × Option Nat)
  | .leaf _ _ => []
  | .owning head _ _ fields =>
    (path ++ "/" ++ head.name, some fields.length) :: countsOf (path ++ "/" ++ head.name) fields
  | .flattened head kind typeRef body =>
    [(path ++ "/" ++ head.name, (flattened head kind typeRef body).count?)]

def countsOf (path : String) : List FieldInstruction → List (String × Option Nat)
  | [] => []
  | field :: fields => counts path field ++ countsOf path fields

end

end FieldInstruction

def TemplateInstruction.counts (t : TemplateInstruction) : List (String × Option Nat) :=
  FieldInstruction.countsOf t.name t.fields

end FastSchema
