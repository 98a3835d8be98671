import FastSchema.Proofs.Accessors.Records
import FastSchema.Proofs.Cpp.FrameStack
import FastSchema.Proofs.Fallible

/-! # The accessor walk by recursion over the document

The walk always ends, whether references can be resolved or not, and collects the definitions that a
recursion over the document lists. -/

namespace FastSchema.Accessors

open Cpp (ScopeStack)
open Cpp.FrameStack (appendList_appendList)

variable (unit : String) (known : Registry)

/-! ## Definitions of a document -/

mutual

/-- The definitions of a field at position `index` in a node with context `cx`, whose views are
open in `scope`. -/
def fieldDefinitions (scope : ScopeStack) (cx : Context) (index : Nat) : Field → List Definition
  | .leaf head content =>
    leafDefinitions unit known scope head (cx.inherit head.attrs) index content
  | .composite head kind typeRef fields =>
    let c : Composite := ⟨head, kind, typeRef, fields⟩
    accessorPair scope head.name (nestedType scope head.name) (compositeAccess c index) true ++
      if (soleReference? fields).isSome then [] else
        innerDefinitions scope c ++
          fieldsDefinitions (scope.push (innerName c)) (cx.inherit head.attrs) 0 fields

/-- The definitions of the fields of a node, the first of which is at position `index`. -/
def fieldsDefinitions (scope : ScopeStack) (cx : Context) (index : Nat) :
    List Field → List Definition
  | [] => []
  | field :: fields =>
    fieldDefinitions scope cx index field ++ fieldsDefinitions scope cx (index + 1) fields

end

def documentTemplate (cx : Context) (t : Template) : List Definition :=
  templateDefinitions t.name ++
    fieldsDefinitions unit known (ScopeStack.empty.push t.name) (cx.inherit t.attrs) 0 t.fields

def documentDefinitions (doc : Document) : List Definition :=
  .openNamespace unit :: doc.templates.flatMap (documentTemplate unit known doc.context) ++
    [.closeNamespace]

/-! ## Steps -/

@[simp] theorem result_emit (definitions : List Definition) (s : State) :
    (emit definitions).result s =
      pure ((), { s with definitions := s.definitions ++ definitions }) := rfl

@[simp] theorem result_pushScope (name : String) (s : State) :
    (pushScope name).result s = pure ((), { s with scope := s.scope.push name }) := rfl

@[simp] theorem result_popScope (scope : ScopeStack) (name : String)
    (definitions : Array Definition) :
    (popScope name).result ⟨scope.push name, definitions⟩ = pure ((), ⟨scope, definitions⟩) := by
  rw [popScope, Fallible.result_on, ScopeStack.pop_push]
  rfl

/-! ## Calls of the visitor -/

theorem result_visitLeaf (head : FieldHead) (content : Leaf) (cx : Context) (index : Nat)
    (s : State) :
    ((visitor unit known).visitLeaf head content cx index).result s =
      pure ((), { s with definitions :=
        s.definitions ++ leafDefinitions unit known s.scope head cx index content }) := by
  simp [visitor]

/-- Entering a composite defines its views; the scope of its fields is opened only if they are
visited. -/
theorem result_enterComposite (c : Composite) (cx : Context) (index : Nat) (s : State) :
    ((visitor unit known).enterComposite c cx index).result s =
      pure (if c.soleReference?.isSome then
        (.skip, ⟨s.scope, s.definitions ++
          accessorPair s.scope c.head.name (nestedType s.scope c.head.name)
            (compositeAccess c index) true⟩)
      else
        (.children, ⟨s.scope.push (innerName c), s.definitions ++
          accessorPair s.scope c.head.name (nestedType s.scope c.head.name)
            (compositeAccess c index) true ++ innerDefinitions s.scope c⟩)) := by
  cases h : c.soleReference? <;> simp [visitor, h]

theorem result_exitComposite_owning {c : Composite} (cx : Context) (numFields index : Nat)
    (scope : ScopeStack) (definitions : Array Definition) (h : c.soleReference? = none) :
    ((visitor unit known).exitComposite c cx numFields index).result
        ⟨scope.push (innerName c), definitions⟩ = pure ((), ⟨scope, definitions⟩) := by
  simp [visitor, h]

theorem result_exitComposite_flattened {c : Composite} (cx : Context) (numFields index : Nat)
    (s : State) (h : c.soleReference?.isSome) :
    ((visitor unit known).exitComposite c cx numFields index).result s = pure ((), s) := by
  rw [Option.isSome_iff_exists] at h
  obtain ⟨r, hr⟩ := h
  simp [visitor, hr]

/-! ## The walk -/

mutual

/-- A walk over a field adds its definitions and leaves the scope as it was. -/
theorem result_walkField (scope : ScopeStack) (cx : Context) (index : Nat) (field : Field)
    (definitions : Array Definition) :
    ((visitor unit known).walkField cx index field).result ⟨scope, definitions⟩ =
      pure ((), ⟨scope, definitions ++ fieldDefinitions unit known scope cx index field⟩) := by
  cases field with
  | leaf head content =>
      rw [Visitor.walkField, result_visitLeaf, fieldDefinitions]
  | composite head kind typeRef fields =>
      rw [Visitor.walkField, fieldDefinitions]
      simp only [Fallible.result_bind, result_enterComposite, pure_bind]
      cases hbody : soleReference? fields with
      | some r =>
          have hflat : Composite.soleReference? ⟨head, kind, typeRef, fields⟩ = some r := hbody
          simp [hflat, result_exitComposite_flattened]
      | none =>
          -- The scope is opened, the fields add to the definitions, and the scope is closed.
          have hown : Composite.soleReference? ⟨head, kind, typeRef, fields⟩ = none := hbody
          simp only [hown, Option.isSome_none, Bool.false_eq_true, if_false, if_true,
            Fallible.result_bind]
          rw [result_walkFields]
          simp only [pure_bind, result_exitComposite_owning unit known _ _ _ _ _ hown,
            appendList_appendList, List.append_assoc]

theorem result_walkFields (scope : ScopeStack) (cx : Context) (index : Nat) (fields : List Field)
    (definitions : Array Definition) :
    ((visitor unit known).walkFields cx index fields).result ⟨scope, definitions⟩ =
      pure ((), ⟨scope, definitions ++ fieldsDefinitions unit known scope cx index fields⟩) := by
  cases fields with
  | nil => simp [Visitor.walkFields, fieldsDefinitions]
  | cons field fields =>
      rw [Visitor.walkFields, Fallible.result_bind, result_walkField, pure_bind,
        result_walkFields scope cx (index + 1) fields, fieldsDefinitions, appendList_appendList]

end

/-- A walk over templates from the outermost scope adds their definitions. -/
theorem result_walkTemplates (cx : Context) (index : Nat) (ts : List Template)
    (definitions : Array Definition) :
    ((visitor unit known).walkTemplates cx index ts).result ⟨.empty, definitions⟩ =
      pure ((), ⟨.empty, definitions ++ ts.flatMap (documentTemplate unit known cx)⟩) := by
  induction ts generalizing index definitions with
  | nil => simp [Visitor.walkTemplates]
  | cons t ts ih =>
      have hwalk : ((visitor unit known).walkTemplate cx index t).result ⟨.empty, definitions⟩ =
          pure ((), ⟨.empty, definitions ++ documentTemplate unit known cx t⟩) := by
        have henter : ((visitor unit known).enterTemplate t (cx.inherit t.attrs) index).result
            ⟨.empty, definitions⟩ = pure (Descend.children,
              ⟨ScopeStack.empty.push t.name, definitions ++ templateDefinitions t.name⟩) := by
          simp [visitor]
        have hexit : ∀ all : Array Definition, ((visitor unit known).exitTemplate t
            (cx.inherit t.attrs) t.fields.length index).result
              ⟨ScopeStack.empty.push t.name, all⟩ = pure ((), ⟨.empty, all⟩) := fun all => by
          simp [visitor]
        simp only [Visitor.walkTemplate, Fallible.result_bind, henter, pure_bind, if_true]
        rw [result_walkFields, pure_bind, hexit, documentTemplate, appendList_appendList]
      rw [Visitor.walkTemplates, Fallible.result_bind, hwalk, pure_bind, ih, List.flatMap_cons,
        appendList_appendList]

/-- The walk over a document never stops, and all scopes are closed at its end. -/
theorem result_walk (doc : Document) :
    ((visitor unit known).walk doc).result .empty =
      pure ((), ⟨.empty, (documentDefinitions unit known doc).toArray⟩) := by
  have henter : ((visitor unit known).enterDocument doc doc.context).result .empty =
      pure ((), ⟨.empty, #[.openNamespace unit]⟩) := by
    simp [visitor, State.empty]
  simp only [Visitor.walk, Fallible.result_bind, henter, pure_bind, result_walkTemplates]
  simp [visitor, ScopeStack.depth, ScopeStack.empty, documentDefinitions]

/-- The accessor file of a document is compiled whether its references can be resolved or not. -/
theorem compile_eq (doc : Document) :
    compile unit known doc = .ok (textOf (documentDefinitions unit known doc)) := by
  have hwalk : ((visitor unit known).walk doc).outcome .empty =
      (.ok (), ⟨.empty, (documentDefinitions unit known doc).toArray⟩) :=
    Fallible.outcome_of_result (result_walk unit known doc)
  rw [compile, hwalk]
  simp [State.text, textOf, Except.map]

end FastSchema.Accessors
