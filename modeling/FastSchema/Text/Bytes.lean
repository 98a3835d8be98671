import FastSchema.Text.Quoted

/-!
# Texts as bytes

The UTF-8 form of a text as a list of bytes, the two hexadecimal digits of a byte, and the bytes
that pairs of such digits stand for.
-/

namespace FastSchema.Text

def utf8 (s : String) : List UInt8 :=
  s.toList.flatMap String.utf8EncodeChar

/-- The text with the given UTF-8 bytes, if they are well formed. -/
def ofUtf8? (bytes : List UInt8) : Option String :=
  String.fromUTF8? ⟨bytes.toArray⟩

/-- The two hexadecimal digits of a byte, in the case that `digits` has. -/
def hexPair (digits : Nat → Char) (b : UInt8) : List Char :=
  [digits (b.toNat / 16), digits (b.toNat % 16)]

def lowerDigit (n : Nat) : Char :=
  Nat.digitChar n

def upperDigit (n : Nat) : Char :=
  (Nat.digitChar n).toUpper

/-! ## Hexadecimal digits -/

def nibble? (b : UInt8) : Option Nat :=
  if '0'.toUInt8 ≤ b && b ≤ '9'.toUInt8 then some (b - '0'.toUInt8).toNat
  else if 'a'.toUInt8 ≤ b && b ≤ 'f'.toUInt8 then some ((b - 'a'.toUInt8).toNat + 10)
  else if 'A'.toUInt8 ≤ b && b ≤ 'F'.toUInt8 then some ((b - 'A'.toUInt8).toNat + 10)
  else none

/-- Why pairs of digits cannot be decoded. -/
inductive HexFailure where
  | oddLength
  | invalidDigit (byte : UInt8) (index : Nat)
deriving DecidableEq, Repr, Inhabited

def HexFailure.message : HexFailure → String
  | .oddLength => "Odd number of digits"
  | .invalidDigit byte index =>
    "Invalid character " ++ quoteChar (Char.ofNat byte.toNat) ++ " at position " ++ toString index

def nibbleAt (index : Nat) (b : UInt8) : Except HexFailure Nat :=
  match nibble? b with
  | some n => .ok n
  | none => .error (.invalidDigit b index)

/-- The bytes whose high and low halves follow each other from an index on. -/
def decodePairs (index : Nat) : List UInt8 → Except HexFailure (List UInt8)
  | high :: low :: rest => do
    let high ← nibbleAt index high
    let low ← nibbleAt (index + 1) low
    return UInt8.ofNat (16 * high + low) :: (← decodePairs (index + 2) rest)
  | _ => .ok []

def decodeHex (digits : List UInt8) : Except HexFailure (List UInt8) :=
  if digits.length % 2 = 0 then decodePairs 0 digits else .error .oddLength

end FastSchema.Text
