import FastSchema.Xml.Malformed

/-!
# Characters and references

`&lt;` and its four companions stand for one character each, and `&#65;` or `&#x41;` for the
character with that code point. Literal line ends are normalised first: in an attribute value every
literal line feed, carriage return and tab is a space, in a text a carriage return is a line feed,
and in both a carriage return before a line feed counts for nothing. Characters given by reference
are kept as they are.
-/

namespace FastSchema.Xml

/-! ## Character classes

The productions Char, S, NameStartChar and NameChar of XML 1.0, fifth edition. -/

def inRuns (runs : List (Nat × Nat)) (c : Char) : Bool :=
  runs.any fun run => run.1 ≤ c.toNat && c.toNat ≤ run.2

/-- Space, tab, line feed or carriage return. -/
def isSpace (c : Char) : Bool :=
  c == ' ' || c == '\t' || c == '\n' || c == '\r'

def isChar (c : Char) : Bool :=
  if c.toNat < 0x20 then isSpace c else c.toNat != 0xFFFE && c.toNat != 0xFFFF

def nameStartRuns : List (Nat × Nat) :=
  [(0x3A, 0x3A), (0x41, 0x5A), (0x5F, 0x5F), (0x61, 0x7A), (0xC0, 0xD6), (0xD8, 0xF6),
   (0xF8, 0x2FF), (0x370, 0x37D), (0x37F, 0x1FFF), (0x200C, 0x200D), (0x2070, 0x218F),
   (0x2C00, 0x2FEF), (0x3001, 0xD7FF), (0xF900, 0xFDCF), (0xFDF0, 0xFFFD), (0x10000, 0xEFFFF)]

def nameRestRuns : List (Nat × Nat) :=
  [(0x2D, 0x2E), (0x30, 0x39), (0xB7, 0xB7), (0x300, 0x36F), (0x203F, 0x2040)]

def isNameStart (c : Char) : Bool := inRuns nameStartRuns c

def isNameChar (c : Char) : Bool := isNameStart c || inRuns nameRestRuns c

/-! ## References in texts and attribute values -/

def namedCharacter? (name : List Char) : Option Char :=
  if name = ['q', 'u', 'o', 't'] then some '"'
  else if name = ['a', 'm', 'p'] then some '&'
  else if name = ['a', 'p', 'o', 's'] then some '\''
  else if name = ['l', 't'] then some '<'
  else if name = ['g', 't'] then some '>'
  else none

def isHexDigit (c : Char) : Bool :=
  c.isDigit || ('a' ≤ c && c ≤ 'f') || ('A' ≤ c && c ≤ 'F')

/-- The value of one hexadecimal digit of either case. -/
def hexDigitValue (c : Char) : Nat :=
  if c.isDigit then c.toNat - '0'.toNat
  else if 'a' ≤ c then c.toNat - 'a'.toNat + 10
  else c.toNat - 'A'.toNat + 10

/-- The character with a code point given by digits. A number of no more than 32 bits that is no
code point stands for the replacement character. -/
def numberedCharacter? (base : Nat) (digits : List Char) : Option Char :=
  let n := digits.foldl (fun acc d => acc * base + hexDigitValue d) 0
  if digits.isEmpty || n > 0xFFFFFFFF then none
  else
    let c := if n.isValidChar then Char.ofNat n else '\uFFFD'
    if isChar c then some c else none

/-- Reads what follows an ampersand, up to and including the semicolon. -/
def readReference (s : List Char) : Except Malformed (Char × List Char) :=
  let (found, rest) :=
    match s with
    | '#' :: 'x' :: t => (numberedCharacter? 16 (t.takeWhile isHexDigit), t.dropWhile isHexDigit)
    | '#' :: t => (numberedCharacter? 10 (t.takeWhile Char.isDigit), t.dropWhile Char.isDigit)
    | t => (namedCharacter? (t.takeWhile isNameChar), t.dropWhile isNameChar)
  match found, rest with
  | some c, ';' :: after => .ok (c, after)
  | _, _ => .error .badReference

/-- Decodes at most `fuel` items; `literal` gives a literal character its normal form. -/
def decodeWith (literal : Char → Char) :
    (fuel : Nat) → (done s : List Char) → Except Malformed (List Char)
  | 0, done, _ => .ok done.reverse
  | _ + 1, done, [] => .ok done.reverse
  | fuel + 1, done, '&' :: s => do
    let (c, rest) ← readReference s
    decodeWith literal fuel (c :: done) rest
  | fuel + 1, done, '\r' :: '\n' :: s => decodeWith literal fuel (literal '\n' :: done) s
  | fuel + 1, done, c :: s => decodeWith literal fuel (literal c :: done) s

def decodeValue (s : List Char) : Except Malformed String :=
  (decodeWith (fun c => if isSpace c then ' ' else c) s.length [] s).map String.ofList

def decodeText (s : List Char) : Except Malformed String :=
  (decodeWith (fun c => if c = '\r' then '\n' else c) s.length [] s).map String.ofList

end FastSchema.Xml
