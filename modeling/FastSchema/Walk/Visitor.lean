import FastSchema.Walk.Context

/-!
# Walking a document

A visitor is called when a template or composite is entered and left, and once for each leaf, in
document order. On entering it decides whether the children are visited; leaving always follows.
Every call carries the context of its node and the position of the node among its siblings; leaving
carries the number of fields of the node, whether they were visited or not.
-/

namespace FastSchema

/-- Whether the children of a node are to be visited. -/
inductive Descend where
  | children
  | skip
deriving DecidableEq, Repr, Inhabited

structure Visitor (m : Type → Type) where
  enterDocument : Document → Context → m Unit
  exitDocument : Document → Context → m Unit
  enterTemplate : Template → Context → (index : Nat) → m Descend
  exitTemplate : Template → Context → (numFields index : Nat) → m Unit
  enterComposite : Composite → Context → (index : Nat) → m Descend
  exitComposite : Composite → Context → (numFields index : Nat) → m Unit
  visitLeaf : FieldHead → Leaf → Context → (index : Nat) → m Unit

namespace Visitor

variable {m : Type → Type} [Monad m]

mutual

/-- Walks a field that is at position `index` in a node with context `cx`. -/
def walkField (v : Visitor m) (cx : Context) (index : Nat) : Field → m Unit
  | .leaf head content => v.visitLeaf head content (cx.inherit head.attrs) index
  | .composite head kind typeRef fields => do
    let inner := cx.inherit head.attrs
    let composite : Composite := ⟨head, kind, typeRef, fields⟩
    let descend ← v.enterComposite composite inner index
    if descend = .children then walkFields v inner 0 fields
    v.exitComposite composite inner fields.length index

/-- Walks the fields of a node with context `cx`, the first of which is at position `index`. -/
def walkFields (v : Visitor m) (cx : Context) (index : Nat) : List Field → m Unit
  | [] => pure ()
  | field :: fields => do
    walkField v cx index field
    walkFields v cx (index + 1) fields

end

/-- Walks a template of a document with context `cx`. -/
def walkTemplate (v : Visitor m) (cx : Context) (index : Nat) (t : Template) : m Unit := do
  let inner := cx.inherit t.attrs
  let descend ← v.enterTemplate t inner index
  if descend = .children then v.walkFields inner 0 t.fields
  v.exitTemplate t inner t.fields.length index

def walkTemplates (v : Visitor m) (cx : Context) (index : Nat) : List Template → m Unit
  | [] => pure ()
  | t :: ts => do
    v.walkTemplate cx index t
    v.walkTemplates cx (index + 1) ts

/-- Walks a whole document. -/
def walk (v : Visitor m) (doc : Document) : m Unit := do
  v.enterDocument doc doc.context
  v.walkTemplates doc.context 0 doc.templates
  v.exitDocument doc doc.context

end Visitor

end FastSchema
