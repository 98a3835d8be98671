/-!
# Integer types of the schema language

Integer fields are signed or unsigned and have one of four widths.
-/

namespace FastSchema

inductive Width where
  | w8
  | w16
  | w32
  | w64
deriving DecidableEq, Repr, Inhabited

/-- The number of bits of a width. -/
def Width.bits : Width → Nat
  | .w8 => 8
  | .w16 => 16
  | .w32 => 32
  | .w64 => 64

def Width.all : List Width := [.w8, .w16, .w32, .w64]

structure IntType where
  signed : Bool
  width : Width
deriving DecidableEq, Repr, Inhabited

namespace IntType

def uint32 : IntType := ⟨false, .w32⟩

def int32 : IntType := ⟨true, .w32⟩

def int64 : IntType := ⟨true, .w64⟩

def all : List IntType := Width.all.flatMap fun w => [⟨true, w⟩, ⟨false, w⟩]

/-- The name of the type in generated code and in messages, such as `uint32`. -/
def name (t : IntType) : String :=
  (if t.signed then "int" else "uint") ++ toString t.width.bits

/-- The name of the element that declares a field of the type, such as `uInt32`. -/
def tag (t : IntType) : String :=
  (if t.signed then "int" else "uInt") ++ toString t.width.bits

def ofTag? (tag : String) : Option IntType :=
  all.find? fun t => t.tag = tag

theorem ofTag?_tag (t : IntType) : ofTag? t.tag = some t := by
  rcases t with ⟨_ | _, _ | _ | _ | _⟩ <;> decide

end IntType

end FastSchema
