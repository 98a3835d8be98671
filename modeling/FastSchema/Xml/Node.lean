/-!
# Element trees

What an XML text says once its markup has been read: elements with attributes and children, and
between them texts, comments and processing instructions. Names are split into a namespace and a
base name.
-/

namespace FastSchema.Xml

/-- The name of an element or attribute. An attribute written without a qualifier has no
namespace, whatever default namespace is in force. -/
structure Name where
  space : Option String
  base : String
deriving DecidableEq, Repr, Inhabited

def Name.plain (base : String) : Name := ⟨none, base⟩

structure Attribute where
  name : Name
  value : String
deriving DecidableEq, Repr, Inhabited

/-- One item of the content of an element. -/
inductive Node where
  | element (name : Name) (attributes : List Attribute) (children : List Node)
  | text (content : String)
  | comment (content : String)
  | instruction (target content : String)
deriving Repr, Inhabited

/-- An element on its own, such as the root of a document. -/
structure Element where
  name : Name
  attributes : List Attribute
  children : List Node
deriving Repr, Inhabited

def Element.toNode (e : Element) : Node :=
  .element e.name e.attributes e.children

/-- The element that a node is, if it is one. -/
def Node.element? : Node → Option Element
  | .element name attributes children => some ⟨name, attributes, children⟩
  | _ => none

@[simp] theorem Node.element?_toNode (e : Element) : e.toNode.element? = some e := rfl

def childNamed (base : String) (children : List Node) : Option Element :=
  (children.filterMap Node.element?).find? (·.name.base = base)

/-- The value of the attribute `base` written without a qualifier. -/
def attribute? (base : String) (attributes : List Attribute) : Option String :=
  (attributes.find? (·.name = Name.plain base)).map Attribute.value

end FastSchema.Xml
