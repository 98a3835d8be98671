import FastSchema.Proofs.Accessors.Refinement
import FastSchema.Proofs.Compiler.TypeNames
import FastSchema.Proofs.Schema.References
import FastSchema.Proofs.Tables.Naming

/-! # Paths of accessors

The qualified name of an accessor is made of the names of the views around it and of its own name.
These can be read off it, so the accessors of a template have distinct qualified names exactly if
their paths are distinct. -/

namespace FastSchema

open Accessors (Accessor Definition accessorPair fieldDefinitions fieldsDefinitions innerName
  leafDefinitions)
open Cpp (ScopeStack View)

/-! ## The paths of the fields of a node -/

/-- Where the accessors of a field are, seen from a node around it: the names of the views that are
nested in each other there, and the name after the verb. -/
structure AccessorPath where
  views : List String
  name : String
deriving DecidableEq

/-- The path as seen from the node around a view. -/
def AccessorPath.under (view : String) (p : AccessorPath) : AccessorPath :=
  ⟨view :: p.views, p.name⟩

namespace Field

/-- The name that the accessors of a field at position `index` have after their verb. -/
def accessorName (index : Nat) (field : Field) : String :=
  if field.isDynamic then "nested_message" ++ toString index else field.head.name

def viewName : Field → String
  | .leaf head _ => head.name
  | .composite head kind typeRef fields => innerName ⟨head, kind, typeRef, fields⟩

end Field

mutual

/-- The paths of the accessors of a field at position `index` and of what is inside it. -/
def Field.accessorPaths (index : Nat) : Field → List AccessorPath
  | .leaf head content => [⟨[], (Field.leaf head content).accessorName index⟩]
  | .composite head kind typeRef fields =>
    ⟨[], head.name⟩ ::
      (if (soleReference? fields).isSome then [] else Field.accessorPathsIn 0 fields).map
        (.under (innerName ⟨head, kind, typeRef, fields⟩))

def Field.accessorPathsIn (index : Nat) : List Field → List AccessorPath
  | [] => []
  | field :: fields =>
    Field.accessorPaths index field ++ Field.accessorPathsIn (index + 1) fields

end

def Field.insidePaths : Field → List AccessorPath
  | .leaf _ _ => []
  | .composite _ _ _ fields =>
    if (soleReference? fields).isSome then [] else Field.accessorPathsIn 0 fields

theorem Field.accessorPaths_eq (index : Nat) (field : Field) :
    field.accessorPaths index =
      [⟨[], field.accessorName index⟩] ++ field.insidePaths.map (.under field.viewName) := by
  cases field with
  | leaf head content => rfl
  | composite head kind typeRef fields =>
      rw [accessorPaths, accessorName]
      rfl

/-! ## Qualified names -/

theorem Accessors.Accessor.verb_eq (a : Accessor) : a.verb = a.view.verb := by
  cases h : a.view <;> simp [verb, View.verb, h]

namespace AccessorPath

def text (view : View) (p : AccessorPath) : String :=
  String.join (p.views.map (ScopeStack.segment view)) ++ view.verb ++ p.name

theorem text_under (view : View) (name : String) (p : AccessorPath) :
    (p.under name).text view = ScopeStack.segment view name ++ p.text view := by
  simp [text, under, String.append_assoc]

/-- An accessor inside a view has the same qualified name, seen from the view or from around it. -/
theorem qualifier_push_text (scope : ScopeStack) (name : String) (view : View)
    (p : AccessorPath) :
    (scope.push name).qualifier view ++ p.text view =
      scope.qualifier view ++ (p.under name).text view := by
  rw [text_under, ScopeStack.qualifier_push, String.append_assoc]

/-- No colon is in the path. -/
structure Plain (p : AccessorPath) : Prop where
  views : ∀ view ∈ p.views, ':' ∉ view.toList
  name : ':' ∉ p.name.toList

theorem Plain.under {p : AccessorPath} (h : p.Plain) {view : String} (hview : ':' ∉ view.toList) :
    (p.under view).Plain :=
  ⟨List.forall_mem_cons.mpr ⟨hview, h.views⟩, h.name⟩

end AccessorPath

theorem Cpp.View.colon_not_mem_verb (view : View) : ':' ∉ view.verb.toList := by
  cases view <;> decide

theorem Cpp.View.colon_not_mem_name (view : View) : ':' ∉ view.name.toList := by
  cases view <;> decide

/-- What stands before the first colon of a nested name is the outermost view. -/
theorem Cpp.ScopeStack.segment_append_inj {view view' : View} {name name' s s' : String}
    (h : ':' ∉ name.toList) (h' : ':' ∉ name'.toList) :
    segment view name ++ s = segment view' name' ++ s' ↔
      name ++ "_" ++ view.name = name' ++ "_" ++ view'.name ∧ s = s' := by
  have hsegment {n : String} {v : View} (hn : ':' ∉ n.toList) :
      ':' ∉ (n ++ "_" ++ v.name).toList := by
    simp [hn, v.colon_not_mem_name]
  exact qualified_inj (hsegment h) (hsegment h')

/-- The text of what is inside a view has a colon. -/
theorem AccessorPath.text_nil_ne_text_under (view : View) {name : String} (h : ':' ∉ name.toList)
    (v : String) (p : AccessorPath) :
    (⟨[], name⟩ : AccessorPath).text view ≠ (p.under v).text view := by
  intro heq
  have hcolon : ':' ∈ ((p.under v).text view).toList := by
    simp [text_under, ScopeStack.segment]
  rw [← heq] at hcolon
  simp [text, h, view.colon_not_mem_verb] at hcolon

theorem AccessorPath.text_inj {view : View} {p q : AccessorPath} (hp : p.Plain) (hq : q.Plain)
    (h : p.text view = q.text view) : p = q := by
  obtain ⟨views, name⟩ := p
  obtain ⟨views', name'⟩ := q
  induction views generalizing views' with
  | nil =>
      cases views' with
      | nil => simpa [text] using h
      | cons v vs => exact absurd h (text_nil_ne_text_under view hp.name v ⟨vs, name'⟩)
  | cons v vs ih =>
      cases views' with
      | nil => exact absurd h.symm (text_nil_ne_text_under view hq.name v ⟨vs, name⟩)
      | cons v' vs' =>
          have hhead := List.forall_mem_cons.mp hp.views
          have hhead' := List.forall_mem_cons.mp hq.views
          have hunder := text_under view v ⟨vs, name⟩
          have hunder' := text_under view v' ⟨vs', name'⟩
          obtain ⟨hview, hrest⟩ := (ScopeStack.segment_append_inj hhead.1 hhead'.1).mp
            (hunder.symm.trans (h.trans hunder'))
          have hsame := ih ⟨hhead.2, hp.name⟩ vs' ⟨hhead'.2, hq.name⟩ hrest
          cases hsame
          rw [String.append_left_inj, String.append_left_inj] at hview
          rw [hview]

/-! ## The accessors of a field -/

/-- The accessors have the paths, seen from the node whose views are open in `scope`: each path has
one for reading, in order, and possibly one for writing. -/
structure Emits (scope : ScopeStack) (accessors : List Accessor) (paths : List AccessorPath) :
    Prop where
  getters : (accessors.filter (·.view = .cref)).map Accessor.qualifiedName =
    paths.map fun p => scope.qualifier .cref ++ p.text .cref
  setters : ((accessors.filter (·.view = .mref)).map Accessor.qualifiedName).Sublist
    (paths.map fun p => scope.qualifier .mref ++ p.text .mref)

namespace Emits

variable {scope : ScopeStack} {accessors later : List Accessor} {paths paths' : List AccessorPath}

theorem nil : Emits scope [] [] := ⟨rfl, List.Sublist.refl _⟩

theorem append (h : Emits scope accessors paths) (h' : Emits scope later paths') :
    Emits scope (accessors ++ later) (paths ++ paths') where
  getters := by
    rw [List.filter_append, List.map_append, h.getters, h'.getters, List.map_append]
  setters := by
    rw [List.filter_append, List.map_append, List.map_append]
    exact h.setters.append h'.setters

/-- What is inside a view is seen under its name from around it. -/
theorem under {name : String} (h : Emits (scope.push name) accessors paths) :
    Emits scope accessors (paths.map (.under name)) := by
  obtain ⟨hgetters, hsetters⟩ := h
  simp only [AccessorPath.qualifier_push_text] at hgetters hsetters
  refine ⟨?_, ?_⟩
  · rw [hgetters, List.map_map]
    rfl
  · rwa [List.map_map]

theorem pair (scope : ScopeStack) (name : String) (type : View → String)
    (access : Accessors.Access) (writable : Bool) :
    Emits scope ((accessorPair scope name type access writable).filterMap Definition.accessor?)
      [⟨[], name⟩] := by
  have hname (view : View) :
      Accessor.qualifiedName ⟨view, scope.qualifier view, name, type view, access⟩ =
        scope.qualifier view ++ (⟨[], name⟩ : AccessorPath).text view := by
    rw [Accessor.qualifiedName, Accessor.verb_eq, AccessorPath.text]
    simp [String.append_assoc]
  cases writable with
  | false => exact ⟨by simp [accessorPair, Definition.accessor?, hname],
      by simp [accessorPair, Definition.accessor?]⟩
  | true => exact ⟨by simp [accessorPair, Definition.accessor?, hname],
      by simp [accessorPair, Definition.accessor?, hname]⟩

end Emits

/-- A reference that was read is dynamic if it has no name, and else is called by it. -/
theorem Field.IsRead.name_reference {head : FieldHead} {r : Reference}
    (h : (Field.leaf head (.reference r)).IsRead) : head.name = r.name.getD "" := by
  obtain ⟨attributes, rfl, rfl⟩ := h.exists_attributes
  rfl

section

variable (unit : String) (known : Registry)

theorem emits_leafDefinitions (scope : ScopeStack) {head : FieldHead} {content : Leaf}
    (hread : (Field.leaf head content).IsRead) (cx : Context) (index : Nat) :
    Emits scope ((leafDefinitions unit known scope head cx index content).filterMap
      Definition.accessor?) [⟨[], (Field.leaf head content).accessorName index⟩] := by
  cases content with
  | reference r =>
      have hname := hread.name_reference
      obtain ⟨_ | name, ns⟩ := r
      · simp only [leafDefinitions, Reference.qualifiedName?, Option.map_none]
        exact Emits.pair _ _ _ _ _
      · have hpath : (Field.leaf head (.reference ⟨some name, ns⟩)).accessorName index = name :=
          hname
        simp only [hpath, leafDefinitions, Reference.qualifiedName?, Option.map_some]
        exact Emits.pair _ _ _ _ _
  | _ => exact Emits.pair _ _ _ _ _

mutual

theorem emits_fieldDefinitions (scope : ScopeStack) (cx : Context) (index : Nat) {field : Field}
    (hread : field.IsRead) :
    Emits scope ((fieldDefinitions unit known scope cx index field).filterMap
      Definition.accessor?) (field.accessorPaths index) := by
  cases field with
  | leaf head content => exact emits_leafDefinitions unit known scope hread _ index
  | composite head kind typeRef fields =>
      rw [fieldDefinitions, List.filterMap_append, Field.accessorPaths]
      refine (Emits.pair _ _ _ _ _).append ?_
      split
      · exact .nil
      · have hconstructors : (Accessors.innerDefinitions scope
            ⟨head, kind, typeRef, fields⟩).filterMap Definition.accessor? = [] := by
          cases kind <;> rfl
        rw [List.filterMap_append, hconstructors, List.nil_append]
        exact (emits_fieldsDefinitions _ _ 0 hread.children).under

theorem emits_fieldsDefinitions (scope : ScopeStack) (cx : Context) (index : Nat)
    {fields : List Field} (hread : ∀ field ∈ fields, field.IsRead) :
    Emits scope ((fieldsDefinitions unit known scope cx index fields).filterMap
      Definition.accessor?) (Field.accessorPathsIn index fields) := by
  cases fields with
  | nil => exact .nil
  | cons field fields =>
      rw [List.forall_mem_cons] at hread
      rw [fieldsDefinitions, List.filterMap_append, Field.accessorPathsIn]
      exact (emits_fieldDefinitions scope cx index hread.1).append
        (emits_fieldsDefinitions scope cx (index + 1) hread.2)

end

end

/-! ## Distinct qualified names -/

theorem AccessorPath.under_inj {view view' : String} {p q : AccessorPath} :
    p.under view = q.under view' ↔ view = view' ∧ p = q := by
  obtain ⟨views, name⟩ := p
  obtain ⟨views', name'⟩ := q
  simp [under, and_assoc]

/-- Every accessor is for reading or for writing. -/
theorem Accessors.perm_views (accessors : List Accessor) :
    (accessors.filter (·.view = .cref) ++ accessors.filter (·.view = .mref)).Perm accessors := by
  have hviews : (fun a : Accessor => !decide (a.view = .cref)) =
      fun a => decide (a.view = .mref) := by
    funext a
    cases a.view <;> rfl
  rw [← hviews]
  exact List.filter_append_perm _ accessors

/-- The accessors of a template have distinct qualified names exactly if their paths are distinct.
That some of them are for reading only makes no difference. -/
theorem Emits.nodup_iff {name : String} {accessors : List Accessor} {paths : List AccessorPath}
    (h : Emits (ScopeStack.empty.push name) accessors paths) (hname : ':' ∉ name.toList)
    (hplain : ∀ p ∈ paths, p.Plain) :
    (accessors.map Accessor.qualifiedName).Nodup ↔ paths.Nodup := by
  have houter (view : View) : ScopeStack.empty.qualifier view = "" := rfl
  obtain ⟨hgetters, hsetters⟩ := h
  simp only [AccessorPath.qualifier_push_text, houter, String.empty_append] at hgetters hsetters
  have hnodup (view : View) (hpaths : paths.Nodup) :
      (paths.map fun p => (p.under name).text view).Nodup := by
    refine hpaths.map_on fun p hp q hq hpq => ?_
    have hsame := AccessorPath.text_inj ((hplain p hp).under hname) ((hplain q hq).under hname) hpq
    exact (AccessorPath.under_inj.mp hsame).2
  rw [← ((Accessors.perm_views accessors).map Accessor.qualifiedName).nodup_iff, List.map_append,
    List.nodup_append, hgetters]
  constructor
  · exact fun hall => hall.1.of_map
  · intro hpaths
    refine ⟨hnodup .cref hpaths, (hnodup .mref hpaths).sublist hsetters, fun x hx y hy heq => ?_⟩
    -- The views of the template itself tell reading from writing.
    obtain ⟨p, _, rfl⟩ := List.mem_map.mp hx
    obtain ⟨q, _, rfl⟩ := List.mem_map.mp (hsetters.subset hy)
    rw [AccessorPath.text_under, AccessorPath.text_under] at heq
    have hview := ((ScopeStack.segment_append_inj hname hname).mp heq).1
    rw [String.append_right_inj] at hview
    exact absurd hview (by decide)

end FastSchema
