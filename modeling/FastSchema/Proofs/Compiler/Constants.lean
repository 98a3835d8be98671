import FastSchema.Proofs.Compiler.Lossless
import FastSchema.Proofs.Compiler.Symbols
import FastSchema.Proofs.Tables.Constants

/-! # The integer constants of a compiled document

The functions of a table file have a constant for each initial integer of the report, and but for
the least integer of 64 bits it is one that a C++ compiler reads as this integer. -/

namespace FastSchema

open Tables (Constant Function Line Statement readBack?)

def TemplateInstruction.constants (unit : String) (t : TemplateInstruction) : List Constant :=
  (Function.ofTemplate unit t).statements.flatMap Statement.constants

/-- How the initial integers of a template are written: as constants in its function that are read
back, except for the least integer of 64 bits, for which nothing is read. -/
structure ConstantsSpec (unit : String) (t : TemplateInstruction) : Prop where
  reads : (t.constants unit).map Constant.read? = t.initialIntegers.map readBack?
  lines : ∀ c ∈ t.constants unit, ∃ line ∈ (Function.ofTemplate unit t).lines, line.Passes c.text

theorem constantsSpec {unit : String} {t : TemplateInstruction}
    (h : FieldInstruction.AllAdmitted t.fields) : ConstantsSpec unit t :=
  ⟨Tables.reads_ofTemplate unit h, fun _ => Tables.exists_line_of_mem_constants_ofTemplate⟩

open Tables in
/-- The table file of a compiled document has a constant for each initial integer, in the function
of its template. All but those of the least integer of 64 bits denote the integers. -/
theorem constants_of_compile {call : Call} {registry : Registry} {compiled : CompiledUnit}
    (h : (call.compile.outcome registry).1 = .ok compiled) :
    compiled.tables =
        textOf [.preamble compiled.metadata.unit] ++
          String.join (compiled.metadata.functions.map Function.text) ++
          textOf [descriptionStatement compiled.metadata.unit
            (compiled.metadata.templates.map TemplateInstruction.name) compiled.metadata.ns
            compiled.metadata.templateNs compiled.metadata.dictionary] ∧
      ∀ t ∈ compiled.metadata.templates, ConstantsSpec compiled.metadata.unit t := by
  refine ⟨?_, fun t ht => constantsSpec (Call.admitted_metadata h t ht)⟩
  rw [Call.compile_eq_ok h]
  exact textOf_fileStatements compiled.metadata

/-- The initial integers in a document, by templates, if it compiles by itself. -/
def Document.initialIntegers? (doc : Document) : Option (List (List ℤ)) :=
  (doc.instructions (Registry.empty.registerDocument "u" doc)).toOption.map
    (List.map TemplateInstruction.initialIntegers)

theorem Call.exists_compiled_of_initialIntegers? {call : Call} {doc : Document}
    {integers : List (List ℤ)} (hload : call.load = .ok doc) (hunit : call.unit = "u")
    (h : doc.initialIntegers? = some integers) :
    ∃ compiled, (call.compile.outcome .empty).1 = .ok compiled ∧
      compiled.metadata.templates.map TemplateInstruction.initialIntegers = integers := by
  unfold Document.initialIntegers? at h
  cases hrecords : doc.instructions (Registry.empty.registerDocument "u" doc) with
  | error fault =>
      rw [hrecords] at h
      cases h
  | ok records =>
      obtain ⟨compiled, hcompiled, rfl⟩ := Call.exists_compiled hload (hunit ▸ hrecords)
      rw [hrecords] at h
      exact ⟨compiled, hcompiled, Option.some.inj h⟩

/-- A template with integers at the ends of their ranges, the length of a sequence, and decimals. -/
def limitsDocument : Document :=
  let constant (value : String) : Option Operator := some ⟨.constant, .ofList [("value", value)]⟩
  let copy (value : String) : Option Operator := some ⟨.copy, .ofList [("value", value)]⟩
  ⟨.empty, [⟨"T", .empty, none,
    [.leaf ⟨"a", .empty⟩ (.integer ⟨true, .w8⟩ (constant "-128")),
     .leaf ⟨"b", .empty⟩ (.integer ⟨false, .w32⟩ (constant "4294967295")),
     .leaf ⟨"c", .empty⟩ (.integer ⟨true, .w64⟩ (constant "-9223372036854775807")),
     .leaf ⟨"d", .empty⟩ (.integer ⟨false, .w64⟩ (constant "18446744073709551615")),
     .composite ⟨"e", .empty⟩ (.sequence (some ⟨.ofList [("name", "n")], copy "007"⟩)) none
      [.leaf ⟨"f", .empty⟩ (.decimal (.whole (constant "-1.25")))],
     .leaf ⟨"g", .empty⟩ (.decimal (.split (copy "15") (copy "-63")))]⟩]⟩

theorem constants_of_limitsDocument : ∃ compiled t,
    ((Call.document "u" limitsDocument "").compile.outcome .empty).1 = .ok compiled ∧
      t ∈ compiled.metadata.templates ∧
      (t.constants compiled.metadata.unit).map Constant.read? =
        [some (-128), some 4294967295, some (-9223372036854775807), some 18446744073709551615,
          some 7, some (-125), some (-2), some 15, some 0, some (-63)] := by
  have hintegers : limitsDocument.initialIntegers? =
      some [[-128, 4294967295, -9223372036854775807, 18446744073709551615, 7, -125, -2, 15, 0,
        -63]] := by decide +kernel
  have hload : (Call.document "u" limitsDocument "").load = .ok limitsDocument := rfl
  obtain ⟨compiled, h, hlimits⟩ :=
    Call.exists_compiled_of_initialIntegers? hload rfl hintegers
  obtain ⟨t, ht, hints⟩ := List.map_eq_singleton_iff.mp hlimits
  have hmem : t ∈ compiled.metadata.templates := by simp [ht]
  refine ⟨compiled, t, h, hmem, ?_⟩
  rw [((constants_of_compile h).2 t hmem).reads, hints]
  decide

def leastText : String :=
  "<template name=\"A\"><int64 name=\"x\"><constant value=\"-9223372036854775808\"/></int64>" ++
    "</template>"

/-- The constant of the least integer of 64 bits is not one that a C++ compiler reads. -/
theorem not_read_of_leastText : ∃ compiled t,
    ((Call.source "u" leastText).compile.outcome .empty).1 = .ok compiled ∧
      t ∈ compiled.metadata.templates ∧ t.initialIntegers = [-9223372036854775808] ∧
      (t.constants compiled.metadata.unit).map Constant.read? = [none] ∧
      (t.constants compiled.metadata.unit).map Constant.read? ≠ t.initialIntegers.map some := by
  have hintegers : (Document.parse leastText).toOption.bind Document.initialIntegers? =
      some [[-9223372036854775808]] := by decide +kernel
  obtain ⟨doc, hparse, hfound⟩ := Fallible.exists_of_toOption_bind hintegers
  have hload : (Call.source "u" leastText).load = .ok doc := hparse
  obtain ⟨compiled, h, hleast⟩ := Call.exists_compiled_of_initialIntegers? hload rfl hfound
  obtain ⟨t, ht, hints⟩ := List.map_eq_singleton_iff.mp hleast
  have hmem : t ∈ compiled.metadata.templates := by simp [ht]
  have hreads : (t.constants compiled.metadata.unit).map Constant.read? = [none] := by
    rw [(constantsSpec (Call.admitted_metadata h t hmem)).reads, hints]
    decide
  refine ⟨compiled, t, h, hmem, hints, hreads, ?_⟩
  rw [hreads, hints]
  decide

end FastSchema
