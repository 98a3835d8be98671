/-!
# JSON values and their indented text

An array or object is written with one item on each line, indented by two spaces for each value
around it; without items it is just its two brackets. In a string only the quote, the backslash
and control characters are escaped.
-/

namespace FastSchema

inductive Json where
  | null
  | bool (b : Bool)
  | number (n : Int)
  | string (s : String)
  | array (items : List Json)
  | object (members : List (String × Json))
deriving Repr, Inhabited

namespace Json

def escapeChar (c : Char) : List Char :=
  if c = '"' then ['\\', '"']
  else if c = '\\' then ['\\', '\\']
  else if c = '\x08' then ['\\', 'b']
  else if c = '\x0c' then ['\\', 'f']
  else if c = '\n' then ['\\', 'n']
  else if c = '\r' then ['\\', 'r']
  else if c = '\t' then ['\\', 't']
  else if c.toNat < 0x20 then
    ['\\', 'u', '0', '0', Nat.digitChar (c.toNat / 16), Nat.digitChar (c.toNat % 16)]
  else [c]

def writeString (s : String) (rest : List Char) : List Char :=
  '"' :: (s.toList.flatMap escapeChar ++ '"' :: rest)

def newLine (depth : Nat) (rest : List Char) : List Char :=
  '\n' :: (List.replicate (2 * depth) ' ' ++ rest)

mutual

/-- The text of a value that has `depth` values around it, before `rest`. -/
def write (depth : Nat) : Json → (rest : List Char) → List Char
  | .null, rest => 'n' :: 'u' :: 'l' :: 'l' :: rest
  | .bool true, rest => 't' :: 'r' :: 'u' :: 'e' :: rest
  | .bool false, rest => 'f' :: 'a' :: 'l' :: 's' :: 'e' :: rest
  | .number n, rest => (toString n).toList ++ rest
  | .string s, rest => writeString s rest
  | .array [], rest => '[' :: ']' :: rest
  | .array (item :: items), rest =>
    '[' :: newLine (depth + 1) (write (depth + 1) item
      (writeItems (depth + 1) items (newLine depth (']' :: rest))))
  | .object [], rest => '\x7b' :: '\x7d' :: rest
  | .object (m :: members), rest =>
    '\x7b' :: newLine (depth + 1) (writeMember (depth + 1) m
      (writeMembers (depth + 1) members (newLine depth ('\x7d' :: rest))))

/-- The items of an array after its first one, each on a line of its own. -/
def writeItems (depth : Nat) : List Json → (rest : List Char) → List Char
  | [], rest => rest
  | item :: items, rest =>
    ',' :: newLine depth (write depth item (writeItems depth items rest))

def writeMembers (depth : Nat) : List (String × Json) → (rest : List Char) → List Char
  | [], rest => rest
  | m :: members, rest =>
    ',' :: newLine depth (writeMember depth m (writeMembers depth members rest))

def writeMember (depth : Nat) : String × Json → (rest : List Char) → List Char
  | (key, value), rest => writeString key (':' :: ' ' :: write depth value rest)

end

def pretty (v : Json) : String := String.ofList (write 0 v [])

end Json

end FastSchema
