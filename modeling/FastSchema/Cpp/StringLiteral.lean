import FastSchema.Text.Bytes

/-!
# String literals of generated code

A text is written byte by byte: printable ASCII as itself, quotes and backslashes with a backslash,
line feed and tab by their short escapes, and every other byte by three octal digits, which no
digit that follows can extend. A byte vector is written with a hexadecimal escape for every byte.
-/

namespace FastSchema.Cpp.StringLiteral

def octalEscape (b : UInt8) : List Char :=
  ['\\', Nat.digitChar (b.toNat / 64), Nat.digitChar (b.toNat / 8 % 8), Nat.digitChar (b.toNat % 8)]

def escapeByte (b : UInt8) : List Char :=
  if b = 0x22 then ['\\', '"']
  else if b = 0x5C then ['\\', '\\']
  else if b = 0x0A then ['\\', 'n']
  else if b = 0x09 then ['\\', 't']
  else if 0x20 ≤ b ∧ b ≤ 0x7E then [Char.ofNat b.toNat]
  else octalEscape b

/-- What stands between the quotes of the literal of a text. -/
def body (s : String) : String :=
  String.ofList ((Text.utf8 s).flatMap escapeByte)

/-- The literal of a text. -/
def quoted (s : String) : String :=
  "\"" ++ body s ++ "\""

def hexEscape (b : UInt8) : List Char :=
  '\\' :: 'x' :: Text.hexPair Text.upperDigit b

def bytesBody (bytes : List UInt8) : String :=
  String.ofList (bytes.flatMap hexEscape)

end FastSchema.Cpp.StringLiteral
