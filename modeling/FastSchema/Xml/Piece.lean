import FastSchema.Xml.Reference

/-!
# Pieces of markup

An XML text is a sequence of pieces: start tags, end tags, runs of text, literal sections, comments
and processing instructions. Reading a piece looks only at its own characters; how pieces nest is
the concern of the element tree.
-/

namespace FastSchema.Xml

/-- A name as it is written: what stands before the colon, and what stands after it. -/
structure Written where
  qualifier : String
  base : String
deriving DecidableEq, Repr, Inhabited

/-- An attribute as it is written, its value already decoded. -/
structure Setting where
  name : Written
  value : String
deriving DecidableEq, Repr, Inhabited

/-- A piece of a text. A start tag that is `empty` ends its element at once. -/
inductive Piece where
  | start (name : Written) (settings : List Setting) (empty : Bool)
  | stop (name : Written)
  | text (raw : List Char)
  | section (content : List Char)
  | comment (content : List Char)
  | instruction (target content : List Char)
deriving DecidableEq, Repr, Inhabited

def after? : (lead s : List Char) → Option (List Char)
  | [], s => some s
  | _ :: _, [] => none
  | d :: lead, c :: s => if d = c then after? lead s else none

def expect (lead : String) (s : List Char) : Except Malformed (List Char) :=
  match after? lead.toList s with
  | some rest => .ok rest
  | none => .error (if s.isEmpty then .unexpectedEnd else .expected lead)

def skipSpaces (s : List Char) : List Char := s.dropWhile isSpace

/-- The characters up to the place where `stop` first holds, or up to the end. All of them, and the
one at that place, have to be characters that XML allows. -/
def takeUntil (stop : List Char → Bool) :
    (taken s : List Char) → Except Malformed (List Char × List Char)
  | taken, [] => .ok (taken.reverse, [])
  | taken, c :: s =>
    if !isChar c then .error (.forbiddenChar c)
    else if stop (c :: s) then .ok (taken.reverse, c :: s)
    else takeUntil stop (c :: taken) s

def takeThrough (mark : String) (s : List Char) : Except Malformed (List Char × List Char) := do
  let (taken, rest) ← takeUntil (fun t => (after? mark.toList t).isSome) [] s
  return (taken, ← expect mark rest)

/-- A name, colons included. -/
def readName (s : List Char) : Except Malformed (List Char × List Char) :=
  match s with
  | c :: _ => if isNameStart c then .ok (s.takeWhile isNameChar, s.dropWhile isNameChar)
    else .error .badName
  | [] => .error .badName

/-- A name with at most one colon. Nothing before the colon is the same as no colon. -/
def readWritten (s : List Char) : Except Malformed (Written × List Char) :=
  let whole := s.takeWhile isNameChar
  let (qualifier, base) :=
    match whole.dropWhile (· ≠ ':') with
    | _ :: base => (whole.takeWhile (· ≠ ':'), base)
    | [] => ([], whole)
  if base.any (· = ':') || !base.head?.any isNameStart || !qualifier.head?.all isNameStart then
    .error .badName
  else .ok (⟨String.ofList qualifier, String.ofList base⟩, s.dropWhile isNameChar)

/-- A name, an equals sign and a quoted value that is not yet decoded. -/
def readSetting (s : List Char) : Except Malformed (Written × List Char × List Char) := do
  let (name, s) ← readWritten s
  let s ← expect "=" (skipSpaces s)
  match skipSpaces s with
  | q :: s =>
    if q = '"' || q = '\'' then
      let (value, s) ← takeUntil (fun t => t.head?.any fun c => c = q || c = '<') [] s
      let s ← expect (String.singleton q) s
      return (name, value, s)
    else throw (.expected "a quote")
  | [] => throw .unexpectedEnd

/-- The attributes of a start tag and its end, which says whether the element is empty. -/
def readSettings : (fuel : Nat) → (found : List Setting) → (s : List Char) →
    Except Malformed (List Setting × Bool × List Char)
  | 0, _, _ => .error .unexpectedEnd
  | fuel + 1, found, s =>
    match skipSpaces s with
    | [] => .error .unexpectedEnd
    | '>' :: rest => .ok (found.reverse, false, rest)
    | '/' :: '>' :: rest => .ok (found.reverse, true, rest)
    | '/' :: _ => .error (.expected ">")
    | t =>
      if s.head?.any isSpace then do
        let (name, value, rest) ← readSetting t
        readSettings fuel (⟨name, ← decodeValue value⟩ :: found) rest
      else .error (.expected "a space")

/-- The content of a comment holds no two hyphens and does not end in one. -/
def commentAllowed : List Char → Bool
  | ['-'] => false
  | '-' :: '-' :: _ => false
  | _ :: s => commentAllowed s
  | [] => true

def readPiece (s : List Char) : Except Malformed (Piece × List Char) :=
  match s with
  | '<' :: '!' :: t =>
    match after? ['-', '-'] t with
    | some t => do
      let (content, rest) ← takeThrough "-->" t
      if commentAllowed content then return (.comment content, rest) else throw .badComment
    | none =>
      match after? ['[', 'C', 'D', 'A', 'T', 'A', '['] t with
      | some t => do
        let (content, rest) ← takeThrough "]]>" t
        return (.section content, rest)
      | none => .error (if (after? "DOCTYPE".toList t).isSome then .doctype else .badName)
  | '<' :: '?' :: t =>
    if (after? ['x', 'm', 'l', ' '] t).isSome then .error .misplacedDeclaration
    else do
      let (target, t) ← readName t
      let (content, rest) ← takeThrough "?>" (skipSpaces t)
      return (.instruction target content, rest)
  | '<' :: '/' :: t => do
    let (name, t) ← readWritten t
    return (.stop name, ← expect ">" (skipSpaces t))
  | '<' :: t => do
    let (name, t) ← readWritten t
    let (settings, empty, rest) ← readSettings t.length [] t
    return (.start name settings empty, rest)
  | _ => do
    let (raw, rest) ← takeUntil (fun t => t.head? = some '<') [] s
    return (.text raw, rest)

/-- Reads at most `fuel` pieces. -/
def readPieces : (fuel : Nat) → (read : List Piece) → (s : List Char) →
    Except Malformed (List Piece)
  | _, read, [] => .ok read.reverse
  | 0, _, _ :: _ => .error .unexpectedEnd
  | fuel + 1, read, c :: s => do
    let (piece, rest) ← readPiece (c :: s)
    readPieces fuel (piece :: read) rest

/-- A space after an item of the XML declaration, unless the declaration ends there. -/
def declarationSpace (s : List Char) : Except Malformed (List Char) :=
  match s with
  | [] => .ok []
  | c :: _ =>
    if isSpace c || (after? ['?', '>'] s).isSome then .ok (skipSpaces s)
    else .error (.expected "a space")

def skipItem (key : String) (s : List Char) : Except Malformed (List Char) :=
  match after? key.toList s with
  | some _ => do
    let (_, _, rest) ← readSetting s
    return rest
  | none => .ok s

/-- What follows the XML declaration; `s` is what follows its opening mark. -/
def skipDeclaration (s : List Char) : Except Malformed (List Char) := do
  let s ← declarationSpace s
  let _ ← expect "version" s
  let s ← declarationSpace (← skipItem "version" s)
  let s ← match after? "encoding".toList s with
    | some _ => declarationSpace (← skipItem "encoding" s)
    | none => pure s
  expect "?>" (skipSpaces (← skipItem "standalone" s))

/-- The pieces of a whole text. A byte order mark and an XML declaration may come first. -/
def pieces (text : String) : Except Malformed (List Piece) := do
  let s := text.toList
  let s := (after? ['\uFEFF'] s).getD s
  let s ← match after? "<?xml ".toList s with
    | some rest => skipDeclaration (' ' :: rest)
    | none => pure s
  readPieces s.length [] s

end FastSchema.Xml
