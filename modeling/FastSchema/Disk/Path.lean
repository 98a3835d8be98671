/-!
# Paths

A path is a text of segments between slashes. An empty segment, and a segment `.` that does not
begin the path, stand for nothing; two paths that differ only in these lead to the same place but
are written differently.
-/

namespace FastSchema.Disk

structure Path where
  text : String
deriving DecidableEq, Repr, Inhabited

namespace Path

def splitSlash : List Char → List (List Char)
  | [] => [[]]
  | c :: cs =>
    if c = '/' then [] :: splitSlash cs
    else
      match splitSlash cs with
      | [] => [[c]]
      | part :: parts => (c :: part) :: parts

def isAbsolute (p : Path) : Bool := p.text.toList.head? = some '/'

/-- The segments of the path as they are written, without the slash of the root. -/
def segments (p : Path) : List String :=
  let cs := p.text.toList
  (splitSlash (if p.isAbsolute then cs.drop 1 else cs)).map String.ofList

def isIdle (segment : String) : Bool := segment = "" || segment = "."

/-- The path from `p` on to `q`, or `q` if it is absolute. -/
def join (p q : Path) : Path :=
  if q.isAbsolute then q
  else if p.text = "" || p.text.toList.getLast? = some '/' then ⟨p.text ++ q.text⟩
  else ⟨p.text ++ "/" ++ q.text⟩

/-- Leaves out the segments at the end that stand for nothing. A first segment `.` of a relative
path stays. The segments are given and answered last first. -/
def dropIdle (absolute : Bool) : List String → List String
  | [] => []
  | [segment] => if segment = "." && !absolute then [segment]
    else if isIdle segment then [] else [segment]
  | segment :: before => if isIdle segment then dropIdle absolute before else segment :: before

def parent? (p : Path) : Option Path :=
  match dropIdle p.isAbsolute p.segments.reverse with
  | [] => none
  | _ :: before =>
    let text := "/".intercalate (dropIdle p.isAbsolute before).reverse
    some ⟨if p.isAbsolute then "/" ++ text else text⟩

/-- The last component, unless it is `..`. -/
def fileName? (p : Path) : Option String :=
  (p.segments.filter (!isIdle ·)).getLast?.filter (· ≠ "..")

/-- The file name up to its last point. A point that begins the name does not count. -/
def stem? (p : Path) : Option String :=
  p.fileName?.map fun name =>
    let cs := name.toList
    let before := (cs.reverse.dropWhile (· ≠ '.')).drop 1
    if before.isEmpty then name else String.ofList before.reverse

end Path

end FastSchema.Disk
