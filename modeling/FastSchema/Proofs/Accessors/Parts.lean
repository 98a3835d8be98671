import FastSchema.Proofs.Accessors.Records

/-! # The text of an accessor file, part by part

Definitions are written one after the other, none inside another. So the file of a report is the
texts of its accessors and, between them, of what supports these. -/

namespace FastSchema

open Cpp (View Writer punctuate)
open Accessors (Accessor Definition)

/-! ## Texts of definitions -/

theorem Cpp.Writer.lines_append (w : Writer) (ss later : List String) :
    w.lines (ss ++ later) = (w.lines ss).lines later := List.foldl_append

theorem Cpp.Writer.text_lines (w : Writer) (ss : List String) :
    (w.lines ss).text = w.text ++ String.join
      (ss.map fun s => String.ofList (List.replicate (2 * w.indent) ' ') ++ s ++ "\n") := by
  unfold lines
  induction ss generalizing w with
  | nil => simp
  | cons s ss ih =>
      rw [List.foldl_cons, ih, List.map_cons, String.join_cons]
      simp only [line, String.append_assoc]

theorem text_function (declaration body : List String) :
    (((Writer.empty.blank.lines declaration).openBlock.lines body).closeBlock).text =
      functionText declaration body := by
  have hdeclaration := Writer.text_lines Writer.empty.blank declaration
  have hbody := Writer.text_lines (Writer.empty.blank.lines declaration).openBlock body
  rw [functionText, Writer.closeBlock, Writer.line, hbody, Writer.openBlock, Writer.line,
    hdeclaration]
  apply String.toList_inj.mp
  simp [Writer.empty, Writer.blank, List.replicate]

namespace Accessors

def Definition.text (d : Definition) : String := (d.write Writer.empty).text

theorem write_prepend (d : Definition) (w : Writer) (before : String) :
    d.write (w.prepend before) = (d.write w).prepend before := by
  cases d <;> simp [Definition.write, Definition.writeMethod]

theorem text_constructor (qualified : String) (params : List String) (init : String)
    (body : List String) :
    (Definition.constructor qualified params init body).text =
      functionText ("inline" :: (qualified ++ "(") :: (punctuate ")" params).map ("  " ++ ·) ++
        ["  : " ++ init]) body := by
  rw [← text_function, Writer.lines_append]
  rfl

theorem text_method (type qualified qualifier : String) (body : List String) :
    (Definition.method type qualified qualifier body).text =
      functionText ["inline " ++ type, qualified ++ "()" ++ qualifier] body :=
  text_function ["inline " ++ type, qualified ++ "()" ++ qualifier] body

theorem text_accessor (a : Accessor) :
    (Definition.accessor a).text =
      functionText ["inline " ++ a.type, a.qualifiedName ++ "() const"]
        ["return " ++ a.expression ++ ";"] := by
  have hconst : a.qualifiedName ++ "() const" = a.qualifiedName ++ "()" ++ " const" := by
    rw [String.append_assoc]
    rfl
  rw [hconst, ← text_method]
  rfl

section

variable {a : Accessor} {index : Nat}

theorem expression_cast (h : a.access = .cast index) :
    a.expression = "static_cast<" ++ a.type ++ ">(" ++ fieldText index ++ ")" := by
  apply String.toList_inj.mp
  simp [Accessor.expression, fieldText, h]

theorem expression_castFirst (h : a.access = .castFirst index) :
    a.expression = "static_cast<" ++ a.type ++ ">( mfast::aggregate" ++ a.view.suffix ++ "(" ++
      fieldText index ++ ")[0] )" := by
  have hruntime : Cpp.runtime ("aggregate_" ++ a.view.name) =
      "mfast::aggregate" ++ a.view.suffix := by
    cases a.view <;> rfl
  apply String.toList_inj.mp
  simp [Accessor.expression, fieldText, h, hruntime]

theorem expression_construct (h : a.access = .construct index) :
    a.expression = a.type ++ "(" ++ fieldText index ++ ")" := by
  apply String.toList_inj.mp
  simp [Accessor.expression, fieldText, h]

end

theorem expression_accessor (unit : String) (view : View) (site : Site) :
    (site.accessor unit view).expression = site.value unit view := by
  obtain ⟨views, record⟩ := site
  cases record with
  | leaf head payload =>
      cases payload with
      | reference target =>
          cases target with
          | none => exact expression_construct rfl
          | some target => exact expression_cast rfl
      | _ => exact expression_cast rfl
  | owning head kind typeRef fields => exact expression_cast rfl
  | flattened head kind typeRef body =>
      cases kind with
      | group =>
          cases body with
          | borrowed target => exact expression_cast rfl
          | slot presence => exact expression_castFirst rfl
      | sequence length => exact expression_cast rfl

/-- The accessors of a record say what the report asks for. -/
theorem text_accessor_site (unit : String) (view : View) (site : Site) :
    (Definition.accessor (site.accessor unit view)).text = site.text unit view := by
  have hname : (site.accessor unit view).qualifiedName =
      view.scope site.views ++ view.verb ++ site.record.accessorName := by
    cases view <;> rfl
  have hvalue : (site.accessor unit view).expression = site.value unit view :=
    expression_accessor unit view site
  rw [text_accessor, hname, hvalue]
  rfl

end Accessors

/-! ## Parts -/

/-- The definitions are written as parts of an accessor file, among them the accessors of the given
sites. -/
def Written (m : Metadata) (definitions : List Definition) (sites : List Site) : Prop :=
  ∃ parts : List Part, definitions.map Definition.text = parts.map (Part.text m.unit) ∧
    parts.filter Part.isAccessor = sites.flatMap Site.parts ∧
    ∀ s, Part.support s ∈ parts → Support m s

namespace Written

variable {m : Metadata} {definitions later : List Definition} {sites sites' : List Site}

theorem nil : Written m [] [] := ⟨[], rfl, rfl, nofun⟩

theorem append (h : Written m definitions sites) (h' : Written m later sites') :
    Written m (definitions ++ later) (sites ++ sites') := by
  obtain ⟨parts, htext, haccessors, hsupport⟩ := h
  obtain ⟨parts', htext', haccessors', hsupport'⟩ := h'
  refine ⟨parts ++ parts', ?_, ?_, ?_⟩
  · rw [List.map_append, htext, htext', List.map_append]
  · rw [List.filter_append, haccessors, haccessors', List.flatMap_append]
  · intro s hs
    rcases List.mem_append.mp hs with hs | hs
    · exact hsupport s hs
    · exact hsupport' s hs

theorem flatMap {α : Type} {items : List α} {definitions : α → List Definition}
    {sites : α → List Site} (h : ∀ a ∈ items, Written m (definitions a) (sites a)) :
    Written m (items.flatMap definitions) (items.flatMap sites) := by
  induction items with
  | nil => exact nil
  | cons a items ih =>
      rw [List.forall_mem_cons] at h
      rw [List.flatMap_cons, List.flatMap_cons]
      exact h.1.append (ih h.2)

theorem support (h : ∀ d ∈ definitions, Support m d.text) : Written m definitions [] := by
  refine ⟨definitions.map fun d => .support d.text, ?_, ?_, ?_⟩
  · rw [List.map_map]
    rfl
  · rw [List.flatMap_nil, List.filter_map]
    simp [Function.comp_def, Part.isAccessor]
  · intro s hs
    obtain ⟨d, hd, hds⟩ := List.mem_map.mp hs
    cases hds
    exact h d hd

theorem site (site : Site) : Written m ((site.accessors m.unit).map .accessor) [site] := by
  refine ⟨site.parts, ?_, ?_, ?_⟩
  · rw [List.map_map]
    unfold Site.accessors Site.parts
    cases site.record.isFixed <;> simp [Accessors.text_accessor_site, Part.text]
  · rw [List.flatMap_singleton]
    unfold Site.parts
    cases site.record.isFixed <;> rfl
  · unfold Site.parts
    cases site.record.isFixed <;> simp

end Written

namespace Accessors

section

variable (m : Metadata)

theorem support_constructor (view : View) (views : List String) (name : String)
    (params : List String) (init : String) :
    Support m (Definition.constructor (view.scope views ++ name ++ "::" ++ name) params init
      []).text := by
  rw [text_constructor]
  exact .constructor view views name init _

theorem support_constructorsIn (views : List String) (name : String) (kind : CompositeRecord) :
    ∀ d ∈ constructorsIn views name kind, Support m d.text := by
  have hconstructor (view : View) (suffix : String) (params : List String) (init : String) :
      Support m (Definition.constructor (view.scope views ++ name ++ suffix ++ "::" ++ name ++
        suffix) params init []).text := by
    have hsupport := support_constructor m view views (name ++ suffix) params init
    simpa only [String.append_assoc] using hsupport
  cases kind with
  | group => simp [constructorsIn, groupDefinitions, hconstructor]
  | sequence length => simp [constructorsIn, elementDefinitions, hconstructor]

mutual

theorem written_recordDefinitions (views : List String) (record : FieldInstruction) :
    Written m (recordDefinitions m.unit views record) (record.sites views) := by
  cases record with
  | leaf head payload => exact .site _
  | owning head kind typeRef fields =>
      exact (Written.site _).append ((Written.support (support_constructorsIn m _ _ _)).append
        (written_recordsDefinitions _ fields))
  | flattened head kind typeRef body => exact .site _

theorem written_recordsDefinitions (views : List String) (records : List FieldInstruction) :
    Written m (recordsDefinitions m.unit views records)
      (FieldInstruction.sitesIn views records) := by
  cases records with
  | nil => exact .nil
  | cons record records =>
      exact (written_recordDefinitions views record).append
        (written_recordsDefinitions views records)

end

end

end Accessors

end FastSchema
