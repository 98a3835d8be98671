import FastSchema.Schema.Basic

/-!
# Naming contexts and locations

Namespace, template namespace and dictionary are inherited: a node that does not set one has that
of the node around it.
-/

namespace FastSchema

structure Context where
  ns : String
  templateNs : String
  dictionary : String
deriving DecidableEq, Repr, Inhabited

namespace Context

def empty : Context := ⟨"", "", ""⟩

/-- The context of a node with the given attributes. An attribute counts even if it is empty. -/
def inherit (cx : Context) (attrs : Attributes) : Context where
  ns := (attrs.get? "ns").getD cx.ns
  templateNs := (attrs.get? "templateNs").getD cx.templateNs
  dictionary := (attrs.get? "dictionary").getD cx.dictionary

end Context

def Document.context (doc : Document) : Context :=
  Context.empty.inherit doc.attrs

def Document.contextOf (doc : Document) (t : Template) : Context :=
  doc.context.inherit t.attrs

/-! ## Locations in a document

A node is located by positions: that of its template in the document, then that of a field in the
template, and so on inwards. -/

/-- A template or field, found at a location. -/
inductive Located where
  | template (template : Template)
  | field (field : Field)
deriving Repr, Inhabited

def Field.children : Field → List Field
  | .leaf _ _ => []
  | .composite _ _ _ fields => fields

/-- The field that the positions lead to among `fields`, and its context. -/
def Field.locate? (cx : Context) (fields : List Field) : List Nat → Option (Field × Context)
  | [] => none
  | i :: rest => do
    let field ← fields[i]?
    let inner := cx.inherit field.head.attrs
    if rest.isEmpty then return (field, inner)
    Field.locate? inner field.children rest

/-- The node that the positions lead to, and its context. -/
def Document.locate? (doc : Document) : List Nat → Option (Located × Context)
  | [] => none
  | i :: rest => do
    let t ← doc.templates[i]?
    let inner := doc.contextOf t
    if rest.isEmpty then return (.template t, inner)
    let (field, cx) ← Field.locate? inner t.fields rest
    return (.field field, cx)

end FastSchema
