import FastSchema.Fault
import FastSchema.Text.Bytes

/-!
# Byte vector literals

A byte vector is written as pairs of hexadecimal digits of either case. Spaces, tabs and line ends
may stand anywhere. The literal is read as UTF-8, byte by byte.
-/

namespace FastSchema.ByteVector

/-- Space, tab, carriage return or line feed. -/
def isIgnored (b : UInt8) : Bool :=
  b == ' '.toUInt8 || b == '\t'.toUInt8 || b == '\r'.toUInt8 || b == '\n'.toUInt8

def digits (literal : String) : List UInt8 := (Text.utf8 literal).filter (!isIgnored ·)

def isOther (b : UInt8) : Bool := (Text.nibble? b).isNone

/-- The character to report for a byte of the literal that is no digit. A byte outside ASCII is
only a part of its character. -/
def offender (literal : String) (b : UInt8) : Char :=
  if b < 0x80 then Char.ofNat b.toNat
  else (literal.toList.find? (0x80 ≤ ·.toNat)).getD '\uFFFD'

/-- The bytes that a literal denotes. A character that is no digit is reported before an odd number
of digits is. -/
def parse (literal : String) : Except Fault (List UInt8) :=
  match (digits literal).find? isOther with
  | some b => .error (.invalidByteVectorChar literal (offender literal b))
  | none =>
    if (digits literal).length % 2 ≠ 0 then .error (.oddByteVector literal)
    else
      match Text.decodeHex (digits literal) with
      | .ok bytes => .ok bytes
      | .error failure => .error (.internal (.undecoded literal failure))

end FastSchema.ByteVector
