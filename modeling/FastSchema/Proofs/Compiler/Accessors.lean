import FastSchema.Proofs.Accessors.Distinct
import FastSchema.Proofs.Compiler.Symbols

/-! # The accessors of a template in a document

What the accessor walk adds for a template is known from the template alone. The qualified names of
its accessors are distinct unless the names in the template meet. -/

namespace FastSchema

open Accessors (Accessor Definition State documentDefinitions documentTemplate visitor)

namespace Accessors

variable (unit : String) (known : Registry)

theorem outcome_walkTemplate (cx : Context) (index : Nat) (t : Template)
    (definitions : Array Definition) :
    ((visitor unit known).walkTemplate cx index t).outcome ⟨.empty, definitions⟩ =
      (.ok (), ⟨.empty, definitions ++ documentTemplate unit known cx t⟩) := by
  have hwalk := result_walkTemplates unit known cx index [t] definitions
  have hone : (visitor unit known).walkTemplates cx index [t] =
      (visitor unit known).walkTemplate cx index t := by
    rw [Visitor.walkTemplates, Visitor.walkTemplates]
    exact bind_pure_unit
  rw [hone, List.flatMap_singleton] at hwalk
  exact Fallible.outcome_of_result hwalk

/-- The definitions are those that the walk over the document adds when it is at the template in
position `i`: they stand between those of the earlier templates and those of the later ones. -/
def AddedFor (doc : Document) (i : Nat) (t : Template) (added : List Definition) : Prop :=
  ∃ before after : List Definition,
    ((visitor unit known).walkTemplate doc.context i t).outcome ⟨.empty, before.toArray⟩ =
      (.ok (), ⟨.empty, (before ++ added).toArray⟩) ∧
    ((visitor unit known).walk doc).outcome .empty =
      (.ok (), ⟨.empty, (before ++ added ++ after).toArray⟩)

theorem addedFor_documentTemplate {doc : Document} {i : Nat} {t : Template}
    (ht : doc.templates[i]? = some t) :
    AddedFor unit known doc i t (documentTemplate unit known doc.context t) := by
  obtain ⟨hi, hget⟩ := List.getElem?_eq_some_iff.mp ht
  have hsplit : doc.templates = doc.templates.take i ++ t :: doc.templates.drop (i + 1) := by
    rw [← hget, ← List.drop_eq_getElem_cons hi, List.take_append_drop]
  refine ⟨.openNamespace unit :: (doc.templates.take i).flatMap
    (documentTemplate unit known doc.context), (doc.templates.drop (i + 1)).flatMap
      (documentTemplate unit known doc.context) ++ [.closeNamespace], ?_, ?_⟩
  · rw [outcome_walkTemplate]
    simp
  · have hwalk := Fallible.outcome_of_result (result_walk unit known doc)
    rw [documentDefinitions, hsplit] at hwalk
    rw [hwalk]
    simp

end Accessors

/-- If the names in a template are plain and distinct, then the accessors that the walk adds for it
have distinct qualified names if and only if no two names in the template meet. -/
theorem nodup_accessors_iff_of_parse {text : String} {doc : Document}
    (hparse : Document.parse text = .ok doc) {i : Nat} {t : Template}
    (ht : doc.templates[i]? = some t) (hnamed : ∀ c ∈ t.containers, c.Named) (unit : String)
    (known : Registry) :
    ∃ added, Accessors.AddedFor unit known doc i t added ∧
      (((added.filterMap Definition.accessor?).map Accessor.qualifiedName).Nodup ↔
        ∀ c ∈ t.containers, c.Separate) := by
  have hread := Document.isRead_of_parse hparse t (List.mem_of_getElem? ht)
  exact ⟨_, Accessors.addedFor_documentTemplate unit known ht,
    Template.nodup_qualifiedNames_iff hread hnamed unit known doc.context⟩

/-- A document whose names come close to meeting: a field is named like the accessors of a dynamic
reference at another position, and a group like the elements of a sequence with another field. -/
def neighbourText : String :=
  "<template name=\"T\"><templateRef/><int8 name=\"nested_message1\"/>" ++
    "<sequence name=\"s\"><int8 name=\"a\"/></sequence>" ++
    "<group name=\"s_element\"><int8 name=\"b\"/><int8 name=\"c\"/></group></template>"

theorem nodup_accessors_iff_of_neighbourText : ∃ doc t added,
    Document.parse neighbourText = .ok doc ∧ doc.templates[0]? = some t ∧
      (∀ c ∈ t.containers, c.Named) ∧ (∀ c ∈ t.containers, c.Separate) ∧
      Accessors.AddedFor "u" .empty doc 0 t added ∧
      ((added.filterMap Definition.accessor?).map Accessor.qualifiedName).Nodup := by
  have hclose : Document.parsesAndCompiles (∀ c ∈ ·.containers, c.Separate) neighbourText := by
    decide +kernel
  obtain ⟨doc, t, compiled, hload, ht, hnamed, hseparate, _⟩ := Document.exists_compiled hclose
  have hseparate := of_decide_eq_true hseparate
  obtain ⟨added, hadded, hiff⟩ := nodup_accessors_iff_of_parse hload ht hnamed "u" .empty
  exact ⟨doc, t, added, hload, ht, hnamed, hseparate, hadded, hiff.mpr hseparate⟩

/-- Documents of one template with plain and distinct names that meet: a field is named like the
accessors of a dynamic reference, and a group like the elements of a sequence with a field of the
same name. -/
def meetingTexts : List String :=
  ["<template name=\"A\"><templateRef/><int8 name=\"nested_message0\"/></template>",
   "<template name=\"B\"><sequence name=\"s\"><int8 name=\"x\"/></sequence>" ++
    "<group name=\"s_element\"><int8 name=\"x\"/></group></template>"]

/-- The text is that of a document that compiles, whose first template has plain and distinct names,
and for this template the walk defines two accessors of one qualified name. -/
def Document.DefinesTwice (text : String) : Prop :=
  ∃ doc t compiled, Document.parse text = .ok doc ∧ doc.templates[0]? = some t ∧
    (∀ c ∈ t.containers, c.Named) ∧
    ((Call.source "u" text).compile.outcome .empty).1 = .ok compiled ∧
    ∀ unit known, ∃ added, Accessors.AddedFor unit known doc 0 t added ∧
      ¬ ((added.filterMap Definition.accessor?).map Accessor.qualifiedName).Nodup

theorem definesTwice_of_meetingTexts : meetingTexts.Forall Document.DefinesTwice := by
  have hmeet : meetingTexts.all (Document.parsesAndCompiles fun t =>
      decide (¬ ∀ c ∈ t.containers, c.Separate)) := by
    decide +kernel
  refine List.forall_iff_forall_mem.mpr fun text htext => ?_
  obtain ⟨doc, t, compiled, hload, ht, hnamed, hmeets, h⟩ :=
    Document.exists_compiled (List.all_eq_true.mp hmeet text htext)
  have hread := Document.isRead_of_parse hload t (List.mem_of_getElem? ht)
  refine ⟨doc, t, compiled, hload, ht, hnamed, h, fun unit known =>
    ⟨_, Accessors.addedFor_documentTemplate unit known ht, ?_⟩⟩
  rw [Template.nodup_qualifiedNames_iff hread hnamed unit known doc.context]
  exact of_decide_eq_true hmeets

end FastSchema
