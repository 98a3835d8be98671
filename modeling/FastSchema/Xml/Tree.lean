import FastSchema.Xml.Node
import FastSchema.Xml.Piece

/-!
# The element tree of a text

Pieces nest by their tags. Each start tag may bind qualifiers to namespaces for its element and
everything in it; names are resolved in that scope, and no two attributes of an element may have
the same name after that. Outside the root element only comments, instructions and space may stand.
-/

namespace FastSchema.Xml

/-- The namespace that the qualifier `xml` always stands for. -/
def xmlSpace : String := "http://www.w3.org/XML/1998/namespace"

/-- The namespace of namespace declarations, which nothing may be bound to. -/
def xmlnsSpace : String := "http://www.w3.org/2000/xmlns/"

/-- Qualifiers in force with their namespaces, the innermost first; the default namespace has the
empty qualifier. -/
abbrev Scope := List (String × String)

def declarations (settings : List Setting) : Except Malformed Scope :=
  settings.foldlM (fun scope setting => do
    let ⟨⟨qualifier, base⟩, space⟩ := setting
    if qualifier = "xmlns" then
      if space = xmlnsSpace || (base = "xml") != (space = xmlSpace) then throw .reservedNamespace
      if (scope.lookup base).isSome then throw (.duplicateQualifier base)
      return if space = xmlSpace then scope else scope ++ [(base, space)]
    else if base = "xmlns" then
      if space = xmlSpace || space = xmlnsSpace then throw .reservedNamespace
      return scope ++ [("", space)]
    else return scope) []

/-- The namespace of a written name; without a qualifier it is `unqualified`. -/
def Scope.resolve (scope : Scope) (unqualified : Option String) (name : Written) :
    Except Malformed Name :=
  if name.qualifier = "" then .ok ⟨unqualified, name.base⟩
  else match scope.lookup name.qualifier with
    | some space => .ok ⟨some space, name.base⟩
    | none => .error (.unboundQualifier name.qualifier)

def Scope.attributes (scope : Scope) (settings : List Setting) :
    Except Malformed (List Attribute) := do
  let plain := settings.filter fun s => s.name.qualifier ≠ "xmlns" && s.name.base ≠ "xmlns"
  plain.foldlM (fun found setting => do
    let name ← Scope.resolve (("xml", xmlSpace) :: scope) none setting.name
    if found.any (·.name = name) then throw (.duplicateAttribute name.base)
    return found ++ [⟨name, setting.value⟩]) []

/-- An element whose end tag has not been read, with its children so far, the last first. -/
structure Unfinished where
  written : Written
  name : Name
  attributes : List Attribute
  scope : Scope
  children : List Node
deriving Repr, Inhabited

/-- What has been read so far: the finished root element, and the open elements, innermost first. -/
structure Nesting where
  root : Option Element
  unfinished : List Unfinished
deriving Repr, Inhabited

/-- Adds an item to the innermost open element; outside the root it counts for nothing. -/
def Nesting.add (n : Nesting) (node : Node) : Nesting :=
  match n.unfinished with
  | [] => n
  | e :: outer => { n with unfinished := { e with children := node :: e.children } :: outer }

/-- Begins an element. A second root is refused. -/
def Nesting.begin (n : Nesting) (written : Written) (settings : List Setting) :
    Except Malformed Nesting := do
  if n.unfinished.isEmpty && n.root.isSome then throw .strayContent
  if written.qualifier = "xmlns" then throw .reservedNamespace
  let outer := (n.unfinished.head?.map Unfinished.scope).getD []
  let scope := (← declarations settings) ++ outer
  let name ← scope.resolve (scope.lookup "") written
  let attributes ← scope.attributes settings
  return { n with unfinished := ⟨written, name, attributes, scope, []⟩ :: n.unfinished }

def Nesting.finish (n : Nesting) (written : Written) : Except Malformed Nesting :=
  match n.unfinished with
  | [] => .error .strayContent
  | e :: outer =>
    if e.written ≠ written then .error .mismatchedEnd
    else
      let element : Element := ⟨e.name, e.attributes, e.children.reverse⟩
      match outer with
      | [] => .ok { n with root := some element, unfinished := [] }
      | _ :: _ => .ok ({ n with unfinished := outer }.add element.toNode)

def Nesting.step (n : Nesting) : Piece → Except Malformed Nesting
  | .start name settings empty => do
    let n ← n.begin name settings
    if empty then n.finish name else return n
  | .stop name => n.finish name
  | .comment content => .ok (n.add (.comment (String.ofList content)))
  | .instruction target content =>
    .ok (n.add (.instruction (String.ofList target) (String.ofList content)))
  | .section content =>
    if n.unfinished.isEmpty then .error .strayContent
    else .ok (n.add (.text (String.ofList content)))
  | .text raw =>
    if n.unfinished.isEmpty then
      if raw.all isSpace then .ok n else .error .strayContent
    else do
      if containsSectionEnd raw then throw .sectionEndInText
      return n.add (.text (← decodeText raw))
where
  /-- The end mark of a literal section occurs. -/
  containsSectionEnd : List Char → Bool
    | ']' :: ']' :: '>' :: _ => true
    | _ :: s => containsSectionEnd s
    | [] => false

/-- The root element of a text. -/
def parse (text : String) : Except Malformed Element := do
  let n ← (← pieces text).foldlM Nesting.step ⟨none, []⟩
  if !n.unfinished.isEmpty then throw .unclosedRoot
  match n.root with
  | some root => return root
  | none => throw .noRoot

end FastSchema.Xml
