import FastSchema.Proofs.Compiler.Report
import FastSchema.Proofs.Schema.Noise

/-! # Compiling texts that differ in noise

Texts whose root elements differ in noise only have the same accessor file, the same table file and,
apart from the digest of the text, the same report, or they fail with the same fault. -/

namespace FastSchema

def CompiledUnit.withDigest (compiled : CompiledUnit) (digest : String) : CompiledUnit :=
  { compiled with metadata := compiled.metadata.withDigest digest }

/-- The digest of the text is noted in the report, and has no other effect. -/
theorem Compile.outcome_document_withDigest (unit : String) (doc : Document)
    (digest digest' : String) (registry : Registry) :
    (document unit doc digest').outcome registry =
      (((document unit doc digest).outcome registry).1.map (·.withDigest digest'),
        ((document unit doc digest).outcome registry).2) := by
  rw [outcome_document_eq, outcome_document_eq]
  unfold Document.metadata
  cases (doc.instructions (registry.registerDocument unit doc)) with
  | error fault => rfl
  | ok templates => rfl

/-- What texts have in common whose root elements differ in noise only: the document or the wrong
root, and so all that is compiled but the digest. -/
structure NoiseSpec (root root' : Xml.Element) : Prop where
  document : Document.ofXml root' = Document.ofXml root
  compiled : ∀ text text', Xml.parse text = .ok root → Xml.parse text' = .ok root' →
    ∀ unit registry, (Compile.source unit text').outcome registry =
      (((Compile.source unit text).outcome registry).1.map (·.withDigest (Sha256.ofText text')),
        ((Compile.source unit text).outcome registry).2)

theorem Document.parse_of_xml {text : String} {root : Xml.Element}
    (h : Xml.parse text = .ok root) : Document.parse text = Document.ofXml root := by
  rw [Document.parse, h]
  rfl

/-- Noise has no effect on what is compiled. -/
theorem noise_spec {root root' : Xml.Element} (h : root.SameButNoise root') :
    NoiseSpec root root' := by
  have hdoc : Document.ofXml root' = Document.ofXml root :=
    (Document.ofXml_eq_of_sameButNoise h).symm
  refine ⟨hdoc, fun text text' htext htext' unit registry => ?_⟩
  have hload : (Call.source unit text).load = Document.ofXml root := Document.parse_of_xml htext
  have hload' : (Call.source unit text').load = Document.ofXml root' :=
    Document.parse_of_xml htext'
  rw [hdoc] at hload'
  change (Call.source unit text').compile.outcome registry =
    (((Call.source unit text).compile.outcome registry).1.map _,
      ((Call.source unit text).compile.outcome registry).2)
  cases hroot : Document.ofXml root with
  | error fault =>
      rw [Call.outcome_compile_of_error (hload.trans hroot),
        Call.outcome_compile_of_error (hload'.trans hroot)]
      rfl
  | ok doc =>
      rw [Call.outcome_compile_of_ok (hload.trans hroot),
        Call.outcome_compile_of_ok (hload'.trans hroot)]
      exact Compile.outcome_document_withDigest unit doc _ _ registry

/-- A template whose only field is a group that is nothing but a reference. -/
def bareText : String :=
  "<template name=\"T\"><group name=\"g\"><templateRef/></group></template>"

/-- The same with remarks of all kinds, one of them around a field, and with qualifiers. -/
def annotatedText : String :=
  "<template name=\"T\"><!--all--><f:group xmlns:f=\"urn:f\" name=\"g\">" ++
  "<f:x><int8/></f:x><templateRef/><?p a?> </f:group></template>"

def bareRoot : Xml.Element :=
  ⟨.plain "template", [⟨.plain "name", "T"⟩],
    [.element (.plain "group") [⟨.plain "name", "g"⟩] [.element (.plain "templateRef") [] []]]⟩

def annotatedRoot : Xml.Element :=
  ⟨.plain "template", [⟨.plain "name", "T"⟩],
    [.comment "all",
     .element ⟨"urn:f", "group"⟩ [⟨.plain "name", "g"⟩]
       [.element ⟨"urn:f", "x"⟩ [] [.element (.plain "int8") [] []],
        .element (.plain "templateRef") [] [], .instruction "p" "a", .text " "]]⟩

def annotatedPieces : List Xml.Piece :=
  [.start ⟨"", "template"⟩ [⟨⟨"", "name"⟩, "T"⟩] false, .comment ['a', 'l', 'l'],
   .start ⟨"f", "group"⟩ [⟨⟨"xmlns", "f"⟩, "urn:f"⟩, ⟨⟨"", "name"⟩, "g"⟩] false,
   .start ⟨"f", "x"⟩ [] false, .start ⟨"", "int8"⟩ [] true, .stop ⟨"f", "x"⟩,
   .start ⟨"", "templateRef"⟩ [] true, .instruction ['p'] ['a'], .text [' '],
   .stop ⟨"f", "group"⟩, .stop ⟨"", "template"⟩]

theorem noise_spec_of_annotatedText :
    Xml.parse bareText = .ok bareRoot ∧ Xml.parse annotatedText = .ok annotatedRoot ∧
      bareRoot.SameButNoise annotatedRoot ∧ NoiseSpec bareRoot annotatedRoot := by
  have hbare : Xml.pieces bareText = .ok
      [.start ⟨"", "template"⟩ [⟨⟨"", "name"⟩, "T"⟩] false,
       .start ⟨"", "group"⟩ [⟨⟨"", "name"⟩, "g"⟩] false, .start ⟨"", "templateRef"⟩ [] true,
       .stop ⟨"", "group"⟩, .stop ⟨"", "template"⟩] := by
    decide +kernel
  have hannotated : Xml.pieces annotatedText = .ok annotatedPieces := by
    decide +kernel
  have hnoise : bareRoot.SameButNoise annotatedRoot :=
    (Xml.Element.sameButNoise_iff _ _).mpr rfl
  refine ⟨?_, ?_, hnoise, noise_spec hnoise⟩
  · rw [Xml.parse, hbare]
    rfl
  · rw [Xml.parse, hannotated]
    rfl

end FastSchema
