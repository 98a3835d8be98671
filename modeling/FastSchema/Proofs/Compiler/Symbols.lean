import FastSchema.Proofs.Compiler.Tables
import FastSchema.Proofs.Tables.Distinct

/-! # The statics of a compiled document

The names of the statics in a table file are read off the document. They are distinct in the body of
each function unless the names in its template run into one another. -/

namespace FastSchema

open Tables (declared Function Shows)

theorem Tables.shows_text_of_mem {m : Metadata} {f : Function} (h : f ∈ m.functions) :
    Shows (textOf (fileStatements m)) f.text := by
  obtain ⟨before, after, hfunctions⟩ := List.append_of_mem h
  have hjoin : Shows (String.join (m.functions.map Function.text)) f.text := by
    rw [hfunctions, List.map_append, String.join_append, List.map_cons, String.join_cons]
    exact ⟨_, _, String.append_assoc.symm⟩
  rw [textOf_fileStatements]
  exact hjoin.append _ _

/-- The statics of a function are those that the names in its template give. -/
theorem declared_of_compile {call : Call} {registry : Registry} {compiled : CompiledUnit}
    {doc : Document} (h : (call.compile.outcome registry).1 = .ok compiled)
    (hload : call.load = .ok doc) {i : Nat} {t : Template} (ht : doc.templates[i]? = some t) :
    ∃ f, compiled.metadata.functions[i]? = some f ∧ f.name = t.name ∧
      Shows compiled.tables f.text ∧ declared f.lines = t.statics := by
  obtain ⟨loaded, hloaded, hm⟩ := Call.metadata_of_compile h
  obtain rfl : doc = loaded := Except.ok.inj (hload.symm.trans hloaded)
  obtain ⟨record, hrecord, hinstruction⟩ :=
    Template.instruction_of_getElem? (Document.metadata_eq_ok hm).2 ht
  have hf : compiled.metadata.functions[i]? =
      some (Function.ofTemplate compiled.metadata.unit record) := by
    rw [Metadata.functions, List.getElem?_map, hrecord]
    rfl
  refine ⟨_, hf, ?_, ?_, Tables.declared_ofTemplate _ hinstruction⟩
  · exact (Template.instruction_eq_ok hinstruction).2.1
  · rw [Call.compile_eq_ok h]
    exact Tables.shows_text_of_mem (List.mem_of_getElem? hf)

/-- If the names in a template are plain and distinct, then the statics of its function have
distinct names if and only if no two names in the template run into one another. -/
theorem nodup_declared_iff_of_compile {call : Call} {registry : Registry} {compiled : CompiledUnit}
    {doc : Document} (h : (call.compile.outcome registry).1 = .ok compiled)
    (hload : call.load = .ok doc) {i : Nat} {t : Template} (ht : doc.templates[i]? = some t)
    (hnamed : ∀ c ∈ t.containers, c.Named) :
    ∃ f, compiled.metadata.functions[i]? = some f ∧ f.name = t.name ∧
      Shows compiled.tables f.text ∧
      ((declared f.lines).Nodup ↔ ∀ c ∈ t.containers, c.Unambiguous) := by
  obtain ⟨f, hf, hname, htext, hdeclared⟩ := declared_of_compile h hload ht
  refine ⟨f, hf, hname, htext, ?_⟩
  rw [hdeclared]
  exact Template.nodup_statics_iff hnamed

/-- The document compiles by itself, and its first template has plain and distinct names and the
given property. -/
def Document.Compiles (p : Template → Bool) (doc : Document) : Prop :=
  (doc.instructions (Registry.empty.registerDocument "u" doc)).isOk ∧
    ∃ t ∈ doc.templates.head?, (∀ c ∈ t.containers, c.Named) ∧ p t

instance (p : Template → Bool) (doc : Document) : Decidable (doc.Compiles p) := by
  unfold Document.Compiles
  infer_instance

def Document.parsesAndCompiles (p : Template → Bool) (text : String) : Bool :=
  match Document.parse text with
  | .ok doc => decide (doc.Compiles p)
  | .error _ => false

theorem Document.exists_compiled {p : Template → Bool} {text : String}
    (h : Document.parsesAndCompiles p text) :
    ∃ doc t compiled, (Call.source "u" text).load = .ok doc ∧ doc.templates[0]? = some t ∧
      (∀ c ∈ t.containers, c.Named) ∧ p t ∧
        ((Call.source "u" text).compile.outcome .empty).1 = .ok compiled := by
  unfold Document.parsesAndCompiles at h
  split at h
  · next doc hparse =>
      obtain ⟨hok, t, ht, hnamed, hp⟩ := of_decide_eq_true h
      obtain ⟨records, hrecords⟩ : ∃ records,
          doc.instructions (Registry.empty.registerDocument "u" doc) = .ok records := by
        cases hinstructions : doc.instructions (Registry.empty.registerDocument "u" doc) with
        | error fault =>
            rw [hinstructions] at hok
            cases hok
        | ok records => exact ⟨records, rfl⟩
      have hload : (Call.source "u" text).load = .ok doc := hparse
      obtain ⟨compiled, hcompiled, _⟩ := Call.exists_compiled hload hrecords
      exact ⟨doc, t, compiled, hload, List.head?_eq_getElem? ▸ ht, hnamed, hp, hcompiled⟩
  · cases h

/-- A document whose names come close to running into one another: a field is named like the
exponent of another that has no context, and a group is named like another and an underscore. -/
def closeText : String :=
  "<template name=\"T\"><decimal name=\"x\"><mantissa/></decimal><int8 name=\"x_exponent\"/>" ++
    "<group name=\"a\"><templateRef/><int8 name=\"_b\"/></group>" ++
    "<group name=\"a_\"><int8 name=\"c\"/></group></template>"

theorem nodup_declared_iff_of_closeText : ∃ doc t compiled f,
    Document.parse closeText = .ok doc ∧ doc.templates[0]? = some t ∧
      (∀ c ∈ t.containers, c.Named) ∧ (∀ c ∈ t.containers, c.Unambiguous) ∧
      ((Call.source "u" closeText).compile.outcome .empty).1 = .ok compiled ∧
      compiled.metadata.functions[0]? = some f ∧ (declared f.lines).Nodup := by
  have hclose : Document.parsesAndCompiles (∀ c ∈ ·.containers, c.Unambiguous) closeText := by
    decide +kernel
  obtain ⟨doc, t, compiled, hload, ht, hnamed, hunambiguous, h⟩ := Document.exists_compiled hclose
  obtain ⟨f, hf, _, _, hiff⟩ := nodup_declared_iff_of_compile h hload ht hnamed
  exact ⟨doc, t, compiled, f, hload, ht, hnamed, of_decide_eq_true hunambiguous, h, hf,
    hiff.mpr (of_decide_eq_true hunambiguous)⟩

/-- Documents of one template with plain and distinct names that run into one another: a field is
named like a part of another field, like a reference or like the length of its sequence, two groups
have one name up to an underscore at the end, and a group has the name of a decimal or a sequence
without the underscore at the end and a field that is named like a part of it. -/
def clashingTexts : List String :=
  ["<template name=\"A\"><decimal name=\"x\"><mantissa/></decimal>" ++
    "<int8 name=\"x_mantissa\"/></template>",
   "<template name=\"B\"><decimal name=\"x\"><exponent><copy key=\"k\"/></exponent></decimal>" ++
    "<int8 name=\"x_exponent\"><copy key=\"k\"/></int8></template>",
   "<template name=\"C\"><templateRef/><int8 name=\"templateref0\"/></template>",
   "<template name=\"D\"><sequence name=\"s\"><int8 name=\"s_length\"/></sequence></template>",
   "<template name=\"E\"><group name=\"a\"><int8 name=\"_b\"/></group>" ++
    "<group name=\"a_\"><int8 name=\"b\"/></group></template>",
   "<template name=\"F\"><group name=\"a\"><int8 name=\"mantissa\"/></group>" ++
    "<decimal name=\"a_\"><mantissa/></decimal></template>",
   "<template name=\"G\"><sequence name=\"a_\"><group name=\"a\">" ++
    "<int8 name=\"length\"/></group></sequence></template>"]

/-- The text is that of a document that compiles, whose first template has plain and distinct names
but two statics of one name. -/
def Document.Clashes (text : String) : Prop :=
  ∃ doc t compiled f, Document.parse text = .ok doc ∧ doc.templates[0]? = some t ∧
    (∀ c ∈ t.containers, c.Named) ∧
    ((Call.source "u" text).compile.outcome .empty).1 = .ok compiled ∧
    compiled.metadata.functions[0]? = some f ∧ ¬ (declared f.lines).Nodup

theorem clashes_of_clashingTexts : clashingTexts.Forall Document.Clashes := by
  have hclash : clashingTexts.all
      (Document.parsesAndCompiles fun t => decide (¬ t.statics.Nodup)) := by
    decide +kernel
  refine List.forall_iff_forall_mem.mpr fun text htext => ?_
  obtain ⟨doc, t, compiled, hload, ht, hnamed, hstatics, h⟩ :=
    Document.exists_compiled (List.all_eq_true.mp hclash text htext)
  obtain ⟨f, hf, _, _, hdeclared⟩ := declared_of_compile h hload ht
  refine ⟨doc, t, compiled, f, hload, ht, hnamed, h, hf, ?_⟩
  rw [hdeclared]
  exact of_decide_eq_true hstatics

end FastSchema
