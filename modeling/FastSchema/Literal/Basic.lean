/-!
# Blanks and digits

The characters with the Unicode property White_Space, and the removal of such characters from both
ends of a text. The number that a run of decimal digits denotes, and integers written with an
optional sign.
-/

namespace FastSchema

namespace Text

/-- The characters with the Unicode property White_Space. -/
def isBlank (c : Char) : Bool :=
  let n := c.toNat
  (0x9 ≤ n && n ≤ 0xD) || n == 0x20 || n == 0x85 || n == 0xA0 || n == 0x1680 ||
    (0x2000 ≤ n && n ≤ 0x200A) || n == 0x2028 || n == 0x2029 || n == 0x202F || n == 0x205F ||
    n == 0x3000

def trim (cs : List Char) : List Char :=
  ((cs.dropWhile isBlank).reverse.dropWhile isBlank).reverse

end Text

def digitValue (d : Char) : Nat := d.toNat - '0'.toNat

def digitsValue (ds : List Char) : Nat :=
  ds.foldl (fun n d => 10 * n + digitValue d) 0

def isDigits (ds : List Char) : Bool :=
  !ds.isEmpty && ds.all Char.isDigit

@[simp] theorem digitsValue_nil : digitsValue [] = 0 := rfl

/-- The integer that a text denotes: digits after an optional plus sign, or, if `negative` allows
it, a minus sign. -/
def readInt? (negative : Bool) : List Char → Option Int
  | '+' :: ds => if isDigits ds then some (digitsValue ds) else none
  | '-' :: ds => if negative && isDigits ds then some (-digitsValue ds) else none
  | ds => if isDigits ds then some (digitsValue ds) else none

end FastSchema
