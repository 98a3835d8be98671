import FastSchema.Text.Bytes

/-!
# Reading JSON

Readers over the bytes of a JSON text. A value that is not wanted is only skipped: its strings need
not be well formed UTF-8 nor its escapes denote characters.
-/

namespace FastSchema.Json

open Text (nibble?)

/-- Reads something from the front of a text and answers what follows it. -/
abbrev Reader (α : Type) := List UInt8 → Option (α × List UInt8)

namespace Reader

def ascii (c : Char) : UInt8 := c.toUInt8

def isSpace (b : UInt8) : Bool :=
  b == ascii ' ' || b == ascii '\t' || b == ascii '\n' || b == ascii '\r'

def skipSpace (s : List UInt8) : List UInt8 := s.dropWhile isSpace

def isDigit (b : UInt8) : Bool := ascii '0' ≤ b && b ≤ ascii '9'

def codeUnit : Reader Nat
  | a :: b :: c :: d :: s => do
    return (((← nibble? a) * 16 + (← nibble? b)) * 256 + (← nibble? c) * 16 + (← nibble? d), s)
  | _ => none

/-- The byte that a short escape stands for. -/
def shortEscape? (b : UInt8) : Option UInt8 :=
  if b = ascii '"' || b = ascii '\\' || b = ascii '/' then some b
  else if b = ascii 'b' then some 0x08
  else if b = ascii 'f' then some 0x0C
  else if b = ascii 'n' then some 0x0A
  else if b = ascii 'r' then some 0x0D
  else if b = ascii 't' then some 0x09
  else none

def word (w : List Char) : Reader Unit :=
  match w with
  | [] => fun s => some ((), s)
  | c :: cs => fun
    | [] => none
    | b :: s => if b = ascii c then word cs s else none

/-- The character of an escape by code unit, or by two of them. -/
def escapedChar : Reader Char := fun s => do
  let (n, s) ← codeUnit s
  if n < 0xD800 || 0xE000 ≤ n then return (Char.ofNat n, s)
  if 0xDC00 ≤ n then none
  let ((), s) ← word ['\\', 'u'] s
  let (m, s) ← codeUnit s
  if m < 0xDC00 || 0xE000 ≤ m then none
  return (Char.ofNat (0x10000 + (n - 0xD800) * 0x400 + (m - 0xDC00)), s)

/-- The rest of a string after its opening quote, as bytes. -/
def stringBytes : (fuel : Nat) → (read : List UInt8) → Reader (List UInt8)
  | 0, _, _ => none
  | _ + 1, _, [] => none
  | fuel + 1, read, b :: s =>
    if b = ascii '"' then some (read.reverse, s)
    else if b < 0x20 then none
    else if b = ascii '\\' then
      match s with
      | [] => none
      | e :: s =>
        if e = ascii 'u' then do
          let (c, s) ← escapedChar s
          stringBytes fuel ((String.utf8EncodeChar c).reverse ++ read) s
        else do stringBytes fuel ((← shortEscape? e) :: read) s
    else stringBytes fuel (b :: read) s

/-- The rest of a string after its opening quote, left undecoded. -/
def skipString : (fuel : Nat) → Reader Unit
  | 0, _ => none
  | _ + 1, [] => none
  | fuel + 1, b :: s =>
    if b = ascii '"' then some ((), s)
    else if b < 0x20 then none
    else if b = ascii '\\' then
      match s with
      | [] => none
      | e :: s =>
        if e = ascii 'u' then do
          let (_, s) ← codeUnit s
          skipString fuel s
        else do
          let _ ← shortEscape? e
          skipString fuel s
    else skipString fuel s

def string : Reader String := fun s =>
  match skipSpace s with
  | [] => none
  | b :: s =>
    if b = ascii '"' then do
      let (bytes, rest) ← stringBytes (s.length + 1) [] s
      return (← Text.ofUtf8? bytes, rest)
    else none

def digits : Reader Unit := fun s =>
  if (s.takeWhile isDigit).isEmpty then none else some ((), s.dropWhile isDigit)

/-- The part of a number after its sign. -/
def skipMagnitude : Reader Unit := fun s => do
  let s ← match s with
    | [] => none
    | b :: rest => if b = ascii '0' then some rest else (digits s).map Prod.snd
  let s ← match s with
    | b :: rest => if b = ascii '.' then (digits rest).map Prod.snd else some s
    | [] => some s
  match s with
  | b :: rest =>
    if b = ascii 'e' || b = ascii 'E' then
      match rest with
      | sign :: rest' =>
        digits (if sign = ascii '+' || sign = ascii '-' then rest' else rest)
      | [] => none
    else some ((), s)
  | [] => some ((), s)

/-- Items separated by commas up to the bracket `close`, the opening bracket having been read. Each
item is read with what the items before it came to. -/
def items {σ : Type} (close : Char) (item : σ → Reader σ) : (fuel : Nat) → σ → Reader σ
  | 0, _, _ => none
  | fuel + 1, found, s => do
    let (found, s) ← item found s
    match skipSpace s with
    | [] => none
    | b :: s =>
      if b = ascii ',' then items close item fuel found s
      else if b = ascii close then some (found, s)
      else none

def bracketed {σ : Type} (close : Char) (item : σ → Reader σ) (start : σ) : Reader σ := fun s =>
  match skipSpace s with
  | [] => none
  | b :: rest => if b = ascii close then some (start, rest) else items close item s.length start s

def member {κ α : Type} (key : Reader κ) (value : κ → Reader α) : Reader α := fun s =>
  match skipSpace s with
  | [] => none
  | b :: s =>
    if b = ascii '"' then do
      let (k, s) ← key s
      match skipSpace s with
      | [] => none
      | b :: s => if b = ascii ':' then value k s else none
    else none

/-- A value of any kind that has no more than `fuel` values around and in it on one path. -/
def skipValueWithin : (fuel : Nat) → Reader Unit
  | 0, _ => none
  | fuel + 1, s =>
    match skipSpace s with
    | [] => none
    | b :: s =>
      if b = ascii '"' then skipString (s.length + 1) s
      else if b = ascii '[' then bracketed ']' (fun _ => skipValueWithin fuel) () s
      else if b = ascii '\x7b' then
        bracketed '\x7d'
          (fun _ s => member (fun s => skipString (s.length + 1) s)
            (fun _ => skipValueWithin fuel) s) () s
      else if b = ascii 'n' then word ['u', 'l', 'l'] s
      else if b = ascii 't' then word ['r', 'u', 'e'] s
      else if b = ascii 'f' then word ['a', 'l', 's', 'e'] s
      else if b = ascii '-' then skipMagnitude s
      else skipMagnitude (b :: s)

def skipValue : Reader Unit := fun s => skipValueWithin (s.length + 1) s

def nullable {α : Type} (read : Reader α) : Reader (Option α) := fun s =>
  match skipSpace s with
  | [] => none
  | b :: rest =>
    if b = ascii 'n' then (word ['u', 'l', 'l'] rest).map fun r => (none, r.2)
    else (read s).map fun r => (some r.1, r.2)

def array {α : Type} (item : Reader α) : Reader (List α) := fun s =>
  match skipSpace s with
  | [] => none
  | b :: s =>
    if b = ascii '[' then
      (bracketed ']' (fun (found : List α) s => (item s).map fun r => (r.1 :: found, r.2)) [] s).map
        fun r => (r.1.reverse, r.2)
    else none

end Reader

end FastSchema.Json
