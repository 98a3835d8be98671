import FastSchema.Schema.Basic
import FastSchema.Xml.Tree
import FastSchema.Fault

/-!
# The document that an element tree describes

Elements and attributes are recognised by their base names, whatever their namespaces; the name and
namespace that a template, field or reference declares are the exception and count only when
written without a qualifier. Elements outside the schema vocabulary, texts, comments and
instructions say nothing.
-/

namespace FastSchema

open Xml (Node Element Attribute)

/-- The attributes by base name; of two with one base name the later counts. -/
def Attributes.ofXml (attributes : List Attribute) : Attributes :=
  .ofList (attributes.map fun a => (a.name.base, a.value))

/-- The operator of a field: its first child that is one. -/
def Operator.ofXml? (children : List Node) : Option Operator :=
  (children.filterMap Node.element?).findSome? fun e =>
    (OperatorKind.ofTag? e.name.base).map fun kind => ⟨kind, .ofXml e.attributes⟩

def Length.ofXml? (children : List Node) : Option Length :=
  (Xml.childNamed "length" children).map fun e =>
    ⟨.ofXml e.attributes, Operator.ofXml? e.children⟩

def TypeRef.ofXml? (children : List Node) : Option TypeRef :=
  (Xml.childNamed "typeRef" children).map fun e =>
    ⟨(Xml.attribute? "name" e.attributes).getD "", (Xml.attribute? "ns" e.attributes).getD ""⟩

/-- A decimal with a child `mantissa` or `exponent` is split, and each part has its own operator. -/
def DecimalShape.ofXml (children : List Node) : DecimalShape :=
  let mantissa := Xml.childNamed "mantissa" children
  let exponent := Xml.childNamed "exponent" children
  if mantissa.isSome || exponent.isSome then
    .split (mantissa.bind fun e => Operator.ofXml? e.children)
      (exponent.bind fun e => Operator.ofXml? e.children)
  else .whole (Operator.ofXml? children)

def Reference.ofXml (attributes : List Attribute) : Reference :=
  ⟨Xml.attribute? "name" attributes, Xml.attribute? "ns" attributes⟩

def FieldHead.ofXml (attributes : List Attribute) : FieldHead :=
  ⟨(Xml.attribute? "name" attributes).getD "", .ofXml attributes⟩

/-- The leaf that an element named `tag` declares. -/
def Leaf.ofXml? (tag : String) (attributes : List Attribute) (children : List Node) :
    Option Leaf :=
  if tag = "string" then some (.string (Operator.ofXml? children) (Length.ofXml? children))
  else if tag = "decimal" then some (.decimal (.ofXml children))
  else if tag = "byteVector" then
    some (.byteVector (Operator.ofXml? children) (Length.ofXml? children))
  else if tag = "templateRef" then some (.reference (.ofXml attributes))
  else (IntType.ofTag? tag).map fun type => .integer type (Operator.ofXml? children)

def CompositeKind.ofXml? (tag : String) (children : List Node) : Option CompositeKind :=
  if tag = "group" then some .group
  else if tag = "sequence" then some (.sequence (Length.ofXml? children))
  else none

mutual

/-- The field that an item declares, if it is the element of one. -/
def Field.ofXml? : Node → Option Field
  | .element name attributes children =>
    match CompositeKind.ofXml? name.base children with
    | some kind =>
      some (.composite (.ofXml attributes) kind (TypeRef.ofXml? children)
        (Field.listOfXml children))
    | none => (Leaf.ofXml? name.base attributes children).map (.leaf (.ofXml attributes))
  | .text _ => none
  | .comment _ => none
  | .instruction _ _ => none

def Field.listOfXml : List Node → List Field
  | [] => []
  | node :: nodes =>
    match Field.ofXml? node with
    | some field => field :: Field.listOfXml nodes
    | none => Field.listOfXml nodes

end

def Template.ofXml (e : Element) : Template where
  name := (Xml.attribute? "name" e.attributes).getD ""
  attrs := .ofXml e.attributes
  typeRef := TypeRef.ofXml? e.children
  fields := Field.listOfXml e.children

/-- A root `templates` holds any number of templates; a root `template` is a document of its own,
without attributes. -/
def Document.ofXml (root : Element) : Except Fault Document :=
  if root.name.base = "templates" then
    .ok ⟨.ofXml root.attributes, ((root.children.filterMap Node.element?).filter
      (·.name.base = "template")).map Template.ofXml⟩
  else if root.name.base = "template" then .ok ⟨.empty, [.ofXml root]⟩
  else .error (.badRoot root.name.base)

/-- The document that the text of a schema holds. -/
def Document.parse (text : String) : Except Fault Document := do
  let root ← (Xml.parse text).mapError fun cause => .load (.malformed cause)
  Document.ofXml root

end FastSchema
