import FastSchema.Proofs.Fallible
import FastSchema.Schema.OfXml
import FastSchema.Walk.Context
import Mathlib.Tactic.SplitIfs

/-! # References in documents that were read

Every field of a document that was read off a text is what an element declares. A reference has the
namespace of its element twice: as a namespace that it sets, if the attribute is written without a
qualifier, and among the attributes that a context is inherited through, whatever the qualifier. -/

namespace FastSchema

open Xml (Attribute Name Node)

/-! ## Fields that were read -/

/-- Some element declares the field. -/
def Field.IsRead (field : Field) : Prop := ∃ node, Field.ofXml? node = some field

theorem Field.isRead_of_mem_listOfXml {nodes : List Node} {field : Field}
    (h : field ∈ Field.listOfXml nodes) : field.IsRead := by
  induction nodes with
  | nil => simp [Field.listOfXml] at h
  | cons node nodes ih =>
      rw [Field.listOfXml] at h
      cases hnode : Field.ofXml? node with
      | none =>
          rw [hnode] at h
          exact ih h
      | some first =>
          rw [hnode] at h
          rcases List.mem_cons.mp h with rfl | h
          · exact ⟨node, hnode⟩
          · exact ih h

theorem Field.IsRead.children {field : Field} (h : field.IsRead) :
    ∀ child ∈ field.children, child.IsRead := by
  obtain ⟨node, hnode⟩ := h
  cases node with
  | element name attributes children =>
      rw [Field.ofXml?] at hnode
      split at hnode
      · cases hnode
        exact fun child hchild => Field.isRead_of_mem_listOfXml hchild
      · obtain ⟨content, _, rfl⟩ := Option.map_eq_some_iff.mp hnode
        intro child hchild
        cases hchild
  | _ => simp [Field.ofXml?] at hnode

theorem Document.isRead_of_parse {text : String} {doc : Document}
    (h : Document.parse text = .ok doc) :
    ∀ t ∈ doc.templates, ∀ field ∈ t.fields, field.IsRead := by
  obtain ⟨root, _, hroot⟩ := Fallible.bind_eq_ok h
  unfold Document.ofXml at hroot
  split_ifs at hroot
  · cases hroot
    intro t ht field hfield
    obtain ⟨e, _, rfl⟩ := List.mem_map.mp ht
    exact Field.isRead_of_mem_listOfXml hfield
  · cases hroot
    intro t ht field hfield
    obtain rfl := List.mem_singleton.mp ht
    exact Field.isRead_of_mem_listOfXml hfield

/-! ## Fields at a location -/

/-- A field inside fields that were read was read as well, and its context is inherited. -/
theorem Field.isRead_of_locate? {cx inner : Context} {fields : List Field} {location : List Nat}
    {field : Field} (hread : ∀ other ∈ fields, other.IsRead)
    (h : Field.locate? cx fields location = some (field, inner)) :
    field.IsRead ∧ ∃ outer : Context, inner = outer.inherit field.head.attrs := by
  induction location generalizing cx fields with
  | nil => cases h
  | cons i rest ih =>
      obtain ⟨first, hfirst, h⟩ := Option.bind_eq_some_iff.mp h
      have hfirstRead : first.IsRead := hread first (List.mem_of_getElem? hfirst)
      split_ifs at h with hrest
      · cases h
        exact ⟨hfirstRead, cx, rfl⟩
      · exact ih hfirstRead.children h

theorem Document.isRead_of_locate? {text : String} {doc : Document} {location : List Nat}
    {field : Field} {cx : Context} (hparse : Document.parse text = .ok doc)
    (h : doc.locate? location = some (.field field, cx)) :
    field.IsRead ∧ ∃ outer : Context, cx = outer.inherit field.head.attrs := by
  cases location with
  | nil => cases h
  | cons i rest =>
      obtain ⟨t, ht, h⟩ := Option.bind_eq_some_iff.mp h
      split_ifs at h with hrest
      · cases h
      · obtain ⟨⟨found, inner⟩, hfound, h⟩ := Option.bind_eq_some_iff.mp h
        cases h
        exact Field.isRead_of_locate?
          (Document.isRead_of_parse hparse t (List.mem_of_getElem? ht)) hfound

/-! ## References -/

/-- The head and the namespace of a reference are read off the same attributes. -/
theorem Field.IsRead.exists_attributes {head : FieldHead} {r : Reference}
    (h : (Field.leaf head (.reference r)).IsRead) :
    ∃ attributes : List Attribute, head = .ofXml attributes ∧ r = .ofXml attributes := by
  obtain ⟨node, hnode⟩ := h
  cases node with
  | element name attributes children =>
      rw [Field.ofXml?] at hnode
      split at hnode
      · cases hnode
      · obtain ⟨content, hcontent, hfield⟩ := Option.map_eq_some_iff.mp hnode
        cases hfield
        refine ⟨attributes, rfl, ?_⟩
        unfold Leaf.ofXml? at hcontent
        split_ifs at hcontent
        · cases hcontent
        · cases hcontent
        · cases hcontent
        · cases hcontent
          rfl
        · obtain ⟨type, _, htype⟩ := Option.map_eq_some_iff.mp hcontent
          cases htype
  | _ => simp [Field.ofXml?] at hnode

theorem Attributes.get?_foldl_insert (a : Attributes) {bindings : List (String × String)}
    {key : String} (h : ∀ b ∈ bindings, b.1 ≠ key) :
    (bindings.foldl (fun a b => a.insert b.1 b.2) a).get? key = a.get? key := by
  induction bindings generalizing a with
  | nil => rfl
  | cons b bindings ih =>
      rw [List.forall_mem_cons] at h
      rw [List.foldl_cons, ih _ h.2, Attributes.get?_insert, if_neg (Ne.symm h.1)]

/-- An attribute that no base name is that of is not among the attributes that were read. -/
theorem Attributes.get?_ofXml_eq_none {attributes : List Attribute} {key : String}
    (h : ∀ a ∈ attributes, a.name.base ≠ key) : (Attributes.ofXml attributes).get? key = none := by
  refine (Attributes.get?_foldl_insert .empty fun b hb => ?_).trans (Attributes.get?_empty key)
  obtain ⟨a, ha, rfl⟩ := List.mem_map.mp hb
  exact h a ha

/-- No attribute of the given base name has a qualifier. -/
def Unqualified (key : String) (attributes : List Attribute) : Prop :=
  ∀ a ∈ attributes, a.name.base = key → a.name = Name.plain key

/-- A reference sets the namespace that its element passes on, if no qualifier is written. -/
theorem get?_ofXml_eq_none_of_unqualified {key : String} {attributes : List Attribute}
    (h : Unqualified key attributes) (hnone : Xml.attribute? key attributes = none) :
    (Attributes.ofXml attributes).get? key = none := by
  apply Attributes.get?_ofXml_eq_none
  intro a ha hbase
  have hmissing := List.find?_eq_none.mp (Option.map_eq_none_iff.mp hnone) a ha
  simp [h a ha hbase] at hmissing

end FastSchema
