import FastSchema.Fault
import FastSchema.Literal.Basic

/-!
# Decimal literals

A decimal literal denotes a number `mantissa * 10 ^ exponent`. Of the many pairs for one number the
canonical one has no trailing zero in its mantissa, and zero is `(0, 0)`. The text of a pair is the
plain decimal notation of the number.
-/

namespace FastSchema

structure Decimal where
  mantissa : Int64
  exponent : Int32
deriving DecidableEq, Repr, Inhabited

/-- A decimal literal taken apart: its sign and the digits on both sides of the point. -/
structure DecimalParts where
  negative : Bool
  whole : List Char
  fraction : List Char
deriving DecidableEq, Repr, Inhabited

namespace DecimalParts

/-- Digits with at most one point among them, and at least one digit. -/
def ofUnsigned? (negative : Bool) (s : List Char) : Option DecimalParts :=
  let whole := s.takeWhile (· ≠ '.')
  let fraction := (s.dropWhile (· ≠ '.')).drop 1
  if isDigits (whole ++ fraction) then some ⟨negative, whole, fraction⟩ else none

def ofChars? : List Char → Option DecimalParts
  | '-' :: s => ofUnsigned? true s
  | '+' :: s => ofUnsigned? false s
  | s => ofUnsigned? false s

/-- The digits without the zeros at their end. -/
def significant (p : DecimalParts) : List Char :=
  ((p.whole ++ p.fraction).reverse.dropWhile (· = '0')).reverse

/-- The mantissa of the canonical pair. -/
def mantissa (p : DecimalParts) : Int :=
  if p.negative then -digitsValue p.significant else digitsValue p.significant

/-- The exponent of the canonical pair: how far the last significant digit stands from the point.
It is zero if no digit is significant. -/
def exponent (p : DecimalParts) : Int :=
  if p.significant.isEmpty then 0 else p.whole.length - p.significant.length

end DecimalParts

namespace Decimal

def ofInts? (mantissa exponent : Int) : Option Decimal :=
  if Int64.minValue.toInt ≤ mantissa && mantissa ≤ Int64.maxValue.toInt &&
      Int32.minValue.toInt ≤ exponent && exponent ≤ Int32.maxValue.toInt then
    some ⟨.ofInt mantissa, .ofInt exponent⟩
  else none

/-- The canonical pair of a literal. -/
def parse (literal : String) : Except Fault Decimal :=
  match (DecimalParts.ofChars? (Text.trim literal.toList)).bind fun p =>
      ofInts? p.mantissa p.exponent with
  | some d => .ok d
  | none => .error (.invalidDecimal literal)

def unsignedText (digits : List Char) (exponent : Int) : List Char :=
  if 0 ≤ exponent then digits ++ List.replicate exponent.toNat '0'
  else
    let scale := (-exponent).toNat
    if scale < digits.length then
      digits.take (digits.length - scale) ++ '.' :: digits.drop (digits.length - scale)
    else '0' :: '.' :: (List.replicate (scale - digits.length) '0' ++ digits)

/-- The number in plain decimal notation. -/
def text (d : Decimal) : String :=
  if d.mantissa = 0 then "0"
  else
    let m := d.mantissa.toInt
    let unsigned := unsignedText (Nat.toDigits 10 m.natAbs) d.exponent.toInt
    String.ofList (if m < 0 then '-' :: unsigned else unsigned)

end Decimal

end FastSchema
