import FastSchema.Accessors.Definition
import FastSchema.Fault.Fallible
import FastSchema.Instruction.Derive
import FastSchema.Walk.Visitor

/-!
# The accessor file of a unit

A walk over the document collects the definitions, keeping track of the scope of the open views.
References that cannot be resolved do not matter here: they are written with their bare names.
-/

namespace FastSchema.Accessors

open Cpp (View ScopeStack Writer runtime)

structure State where
  scope : ScopeStack
  definitions : Array Definition
deriving Repr, Inhabited

namespace State

def empty : State := ⟨.empty, #[]⟩

def text (s : State) : String :=
  (s.definitions.foldl (fun w d => d.write w) Writer.empty).text

end State

def emit (ds : List Definition) : Fallible State Unit :=
  modify fun s => { s with definitions := s.definitions ++ ds }

def pushScope (name : String) : Fallible State Unit :=
  modify fun s => { s with scope := s.scope.push name }

def popScope (name : String) : Fallible State Unit :=
  Fallible.on State.scope (fun scope s => { s with scope }) (·.pop name)

/-- The accessors of a field: one that answers its read view and, if the field can be written, one
that answers its write view. -/
def accessorPair (scope : ScopeStack) (name : String) (type : View → String) (access : Access)
    (writable : Bool) : List Definition :=
  let accessor (view : View) : Definition :=
    .accessor ⟨view, scope.qualifier view, name, type view, access⟩
  if writable then [accessor .cref, accessor .mref] else [accessor .cref]

/-- The view of a node of the given name in the open scope. -/
def nestedType (scope : ScopeStack) (name : String) (view : View) : String :=
  scope.qualifier view ++ name ++ "_" ++ view.name

/-- The view that the runtime library has for values of a kind. -/
def runtimeType (stem : String) (view : View) : String :=
  runtime (stem ++ "_" ++ view.name)

/-- The accessors of a leaf at position `index`. -/
def leafDefinitions (unit : String) (registry : Registry) (scope : ScopeStack) (head : FieldHead)
    (cx : Context) (index : Nat) (content : Leaf) : List Definition :=
  let value (stem : String) : List Definition :=
    accessorPair scope head.name (runtimeType stem) (.cast index) (!content.isFixed head)
  match content with
  | .integer type _ => value type.name
  | .string _ _ => value (head.charset.name ++ "_string")
  | .decimal _ => value "decimal"
  | .byteVector _ _ => value "byte_vector"
  | .reference r =>
    match r.qualifiedName? cx with
    | some q =>
      let type := (registry.target? q).elim q.name (·.typeName unit)
      accessorPair scope q.name (fun view => type ++ "_" ++ view.name) (.cast index) true
    | none =>
      accessorPair scope ("nested_message" ++ toString index) (runtimeType "nested_message")
        (.construct index) true

/-- A group that holds one dynamic reference stores the message one level down. -/
def compositeAccess (c : Composite) (index : Nat) : Access :=
  match c.kind, c.soleReference? with
  | .group, some ⟨none, _⟩ => .castFirst index
  | _, _ => .cast index

/-- The name under which the views of what is inside a composite are nested. -/
def innerName (c : Composite) : String :=
  match c.kind with
  | .group => c.head.name
  | .sequence _ => c.head.name ++ "_element"

/-- The constructors of the views of what is inside a composite. -/
def innerDefinitions (scope : ScopeStack) (c : Composite) : List Definition :=
  match c.kind with
  | .group => groupDefinitions scope.qualifier c.head.name
  | .sequence _ => elementDefinitions scope.qualifier c.head.name

/-- The walk that collects the accessor file of a unit. -/
def visitor (unit : String) (registry : Registry) : Visitor (Fallible State) where
  enterDocument _ _ := emit [.openNamespace unit]
  exitDocument _ _ := do
    let depth := (← get).scope.depth
    if depth ≠ 0 then throw (.internal (.openScope depth unit))
    emit [.closeNamespace]
  enterTemplate t _ _ := do
    emit (templateDefinitions t.name)
    pushScope t.name
    return .children
  exitTemplate t _ _ _ := popScope t.name
  enterComposite c _ index := do
    let scope := (← get).scope
    let name := c.head.name
    emit (accessorPair scope name (nestedType scope name) (compositeAccess c index) true)
    if c.soleReference?.isSome then return .skip
    emit (innerDefinitions scope c)
    pushScope (innerName c)
    return .children
  exitComposite c _ _ _ := do
    if c.soleReference?.isNone then popScope (innerName c)
  visitLeaf head content cx index := do
    emit (leafDefinitions unit registry (← get).scope head cx index content)

/-- The accessor file of the unit for a document. -/
def compile (unit : String) (registry : Registry) (doc : Document) : Except Fault String :=
  let (result, state) := ((visitor unit registry).walk doc).outcome .empty
  result.map fun _ => state.text

end FastSchema.Accessors
