import FastSchema.Fault
import FastSchema.Literal.Basic
import FastSchema.Schema.Attributes

/-!
# Integer literals and ids

An initial value is an integer of the type of its field. An id is an unsigned number of 32 bits;
a missing or blank id is zero.
-/

namespace FastSchema

/-- A value of an integer type, signed or unsigned like its type. -/
inductive IntValue where
  | signed (value : Int64)
  | unsigned (value : UInt64)
deriving DecidableEq, Repr, Inhabited

def IntValue.toInt : IntValue → Int
  | .signed value => value.toInt
  | .unsigned value => value.toNat

def IntValue.toInt64 : IntValue → Int64
  | .signed value => value
  | .unsigned value => value.toInt64

def IntValue.toInt32 (v : IntValue) : Int32 := v.toInt64.toInt32

/-! ## Words -/

def readInt64? (text : List Char) : Option Int64 :=
  ((readInt? true text).filter fun n =>
    Int64.minValue.toInt ≤ n && n ≤ Int64.maxValue.toInt).map .ofInt

/-- The unsigned word that a text denotes, of a type that has `size` words. -/
def readWord? {word : Type} (size : Nat) (ofNat : Nat → word) (text : List Char) : Option word :=
  ((readInt? false text).filter (· < (size : Int))).map fun n => ofNat n.toNat

def readUInt64? : List Char → Option UInt64 := readWord? UInt64.size .ofNat

def readUInt32? : List Char → Option UInt32 := readWord? UInt32.size .ofNat

namespace Width

/-- The least signed value of the width: that of 64 bits, shifted. -/
def least (w : Width) : Int64 := Int64.minValue >>> Int64.ofNat (64 - w.bits)

def greatest (w : Width) : Int64 := Int64.maxValue >>> Int64.ofNat (64 - w.bits)

def greatestUnsigned (w : Width) : UInt64 := 0xFFFFFFFFFFFFFFFF >>> UInt64.ofNat (64 - w.bits)

end Width

/-! ## Literals -/

/-- The value of type `t` that a text denotes. -/
def readValue? (t : IntType) (text : List Char) : Option IntValue :=
  if t.signed then
    ((readInt64? text).filter fun v => t.width.least ≤ v && v ≤ t.width.greatest).map .signed
  else ((readUInt64? text).filter (· ≤ t.width.greatestUnsigned)).map .unsigned

def parseInteger (field : String) (t : IntType) (literal : String) : Except Fault IntValue :=
  match readValue? t (Text.trim literal.toList) with
  | some v => .ok v
  | none => .error (.invalidInteger field t literal)

/-- The id among the attributes of the element named `owner`. -/
def parseId (owner : String) (attrs : Attributes) : Except Fault UInt32 :=
  match Text.trim ((attrs.get? "id").getD "0").toList with
  | [] => .ok 0
  | text =>
    match readUInt32? text with
    | some id => .ok id
    | none => .error (.invalidId owner (String.ofList text))

end FastSchema
