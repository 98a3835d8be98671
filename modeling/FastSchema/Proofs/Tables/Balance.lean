import FastSchema.Proofs.Cpp.Blocks
import FastSchema.Proofs.Registry
import FastSchema.Proofs.Tables.Lines
import FastSchema.Proofs.Tables.Refinement
import FastSchema.Proofs.Walk.Passages

/-! # The table walk is balanced

Whatever a walk over a node pushes and opens it pops and closes, if it does not stop. All that is
left of a group or sequence outside is one more child of the node around it. -/

namespace FastSchema.Tables

open Cpp (Entry Frame FrameStack SymbolPath Writer runtime runtimeNamespace)
open Cpp.StringLiteral (quoted)
open Cpp.Writer (Step Nested nested_line nested_blank nested_map_line nested_flatMap)

/-! ## Steps of the writer -/

def Statement.steps : Statement → List Step
  | .preamble unit =>
    [.line ("#include \"" ++ unit ++ ".h\""), .blank,
     .line ("using namespace " ++ runtimeNamespace ++ ";"), .blank,
     .line ("namespace " ++ unit), .line "\x7b", .blank]
  | .openTemplate name =>
    [.line ("const " ++ name ++ "::instruction_type*"), .line (name ++ "::instruction()"),
     .openBlock]
  | .operatorContext symbol context =>
    ["const static op_context_t " ++ symbol ++ " = \x7b", "  " ++ quoted context.key ++ ",",
     "  " ++ quoted context.ns ++ ",", "  " ++ quoted context.dictionary ++ "\x7d;"].map .line
  | .static declarator symbol args =>
    (declarator :: (symbol ++ "(") :: Argument.lines args).map .line ++ [.blank]
  | .array symbol [] => [.line ("const static field_instruction** " ++ symbol ++ " = 0;")]
  | .array symbol (entry :: entries) =>
    (("const static field_instruction* " ++ symbol ++ "[] = \x7b") ::
      ((entry :: entries).map fun e => "  &" ++ e ++ ",") ++ ["\x7d;"]).map .line ++ [.blank]
  | .closeTemplate name args =>
    (("const static " ++ name ++ "::instruction_type the_instruction(") ::
      Argument.lines args).map .line ++
      [.blank, .line "return &the_instruction;", .closeBlock, .blank]
  | .description unit templates args =>
    (("const template_instruction* " ++ templatesArray unit ++ "[] = \x7b") ::
      (templates.map fun t => "  " ++ t ++ "::instruction(),") ++ ["\x7d;"]).map .line ++
      .blank :: .line (runtime "templates_description* description()") ::
      (.openBlock :: (("static " ++ runtime "templates_description desc(") ::
        Argument.lines args ++ ["return &desc;"]).map .line ++ [.closeBlock]) ++
      [.blank, .line "\x7d"]

theorem Statement.write_eq_after (st : Statement) (w : Writer) : st.write w = w.after st.steps := by
  cases st with
  | array symbol entries =>
      cases entries <;> simp [write, steps, Step.apply, Writer.lines, -List.map_map]
  | _ => simp [write, steps, Step.apply, Writer.lines, -List.map_map]

def State.writer (s : State) : Writer := s.statements.foldl (fun w st => st.write w) Writer.empty

def State.steps (s : State) : List Step := s.statements.toList.flatMap Statement.steps

theorem State.writer_eq_after (s : State) : s.writer = Writer.empty.after s.steps := by
  rw [writer, steps, ← Array.foldl_toList, Writer.foldl_eq_after Statement.write_eq_after]

/-- Declarations are written without blocks. -/
theorem nested_of_isDeclaration {st : Statement} (h : st.IsDeclaration) : Nested st.steps := by
  cases st with
  | operatorContext symbol context => exact nested_map_line _
  | static declarator symbol args => exact (nested_map_line _).append nested_blank
  | array symbol entries =>
      cases entries with
      | nil => exact nested_line _
      | cons entry entries => exact (nested_map_line _).append nested_blank
  | _ => cases h

theorem nested_preamble (unit : String) : Nested (Statement.preamble unit).steps :=
  .cons (nested_line _) <| .cons nested_blank <| .cons (nested_line _) <| .cons nested_blank <|
    .cons (nested_line _) <| .cons (nested_line _) nested_blank

theorem nested_description (unit : String) (templates : List String) (args : List Argument) :
    Nested (Statement.description unit templates args).steps := by
  have hbody := (nested_map_line (("static " ++ runtime "templates_description desc(") ::
    Argument.lines args ++ ["return &desc;"])).block
  exact (((nested_map_line _).append (.cons nested_blank (.cons (nested_line _) hbody)))).append
    (.cons nested_blank (nested_line _))

/-- The function of a template is one block with its declarations inside. -/
theorem nested_templateStatements (unit : String) (t : TemplateInstruction) :
    Nested ((templateStatements unit t).flatMap Statement.steps) := by
  let inside := SymbolPath.empty.push t.name
  let declarations := recordsStatements unit inside t.fields ++
    [.array (arraySymbol inside) (t.fields.map (recordSymbol inside))]
  have hdeclarations : Nested (declarations.flatMap Statement.steps) := by
    refine nested_flatMap fun st hst => nested_of_isDeclaration ?_
    rcases List.mem_append.mp hst with hst | hst
    · exact isDeclaration_recordsStatements unit inside t.fields st hst
    · obtain rfl := List.mem_singleton.mp hst
      trivial
  obtain ⟨args, hclose⟩ : ∃ args, templateStatement (arraySymbol inside) t =
      .closeTemplate t.name args := ⟨_, rfl⟩
  have hinside := hdeclarations.append <|
    (nested_map_line (("const static " ++ t.name ++ "::instruction_type the_instruction(") ::
      Argument.lines args)).append (.cons nested_blank (nested_line "return &the_instruction;"))
  have hfunction := (Nested.cons (nested_line ("const " ++ t.name ++ "::instruction_type*"))
    (.cons (nested_line (t.name ++ "::instruction()")) hinside.block)).append nested_blank
  simpa [templateStatements, hclose, Statement.steps, declarations, inside] using hfunction

/-! ## Nodes -/

/-- What a walk over a node leaves as it was, and what it adds to the frame around a composite. -/
structure Balanced (kind : NodeKind) (before after : State) : Prop where
  symbols : after.symbols = before.symbols
  depth : after.frames.depth = before.frames.depth
  indent : after.writer.indent = before.writer.indent
  frames : if kind = .template then after.frames = before.frames else
    ∃ (entry : Entry) (f : Frame) (outer : List Frame),
      before.frames = ⟨f :: outer⟩ ∧ after.frames = ⟨⟨f.entries.push entry⟩ :: outer⟩

theorem State.steps_append {s s' : State} {statements : List Statement}
    (h : s'.statements = s.statements ++ statements) :
    s'.steps = s.steps ++ statements.flatMap Statement.steps := by
  rw [steps, steps, h, Array.toList_appendList, List.flatMap_append]

/-- Nested statements do not change the indentation. -/
theorem State.indent_writer_append {s s' : State} {statements : List Statement}
    (hstatements : s'.statements = s.statements ++ statements)
    (h : Nested (statements.flatMap Statement.steps)) : s'.writer.indent = s.writer.indent := by
  rw [writer_eq_after, writer_eq_after, steps_append hstatements, Writer.after_append, h.indent]

theorem nested_recordsStatements (unit : String) (path : SymbolPath)
    (records : List FieldInstruction) :
    Nested ((recordsStatements unit path records).flatMap Statement.steps) :=
  nested_flatMap fun st hst =>
    nested_of_isDeclaration (isDeclaration_recordsStatements unit path records st hst)

variable (unit : String)

/-- A walk over a composite that does not stop adds one record. -/
theorem balanced_extend {kind : CompositeKind} {s : State} (h : 0 < s.frames.depth)
    (record : FieldInstruction) : Balanced kind.nodeKind s (s.extend unit [record]) where
  symbols := rfl
  depth := FrameStack.depth_extend _ _
  indent := State.indent_writer_append rfl (nested_recordsStatements unit s.symbols [record])
  frames := by
    have hkind : kind.nodeKind ≠ .template := by cases kind <;> nofun
    rw [if_neg hkind]
    rcases hframes : s.frames with ⟨_ | ⟨f, outer⟩⟩
    · rw [hframes] at h
      cases h
    · exact ⟨recordEntry s.symbols record, f, outer, rfl, by
        simp [State.extend, hframes, FrameStack.extend]⟩

/-- The name of a template may as well be registered before the walk over it. -/
theorem outcome_walkTemplate_register (cx : Context) (index : Nat) (t : Template) (s : State) :
    ((visitor unit).walkTemplate cx index t).outcome s =
      ((visitor unit).walkTemplate cx index t).outcome
        { s with registry := s.registry.register ⟨(cx.inherit t.attrs).ns, t.name⟩ unit } := by
  have henter : ((visitor unit).enterTemplate t (cx.inherit t.attrs) index).outcome s =
      ((visitor unit).enterTemplate t (cx.inherit t.attrs) index).outcome
        { s with registry := s.registry.register ⟨(cx.inherit t.attrs).ns, t.name⟩ unit } := by
    -- The registration that the walk repeats adds nothing.
    have hregister := Registry.register_of_isSome unit
      (s.registry.isSome_lookup_register ⟨(cx.inherit t.attrs).ns, t.name⟩ unit)
    simp [visitor, Fallible.outcome_bind, pushSymbol, openFrame, emit, hregister]
  rw [Visitor.walkTemplate, Fallible.outcome_bind, Fallible.outcome_bind, henter]

/-- What a walk over a template leaves, outside all nodes and if it does not stop. -/
theorem walkTemplate_eq_ok {cx : Context} {index : Nat} {t : Template} {s s' : State}
    (hs : s.symbols = .empty)
    (h : ((visitor unit).walkTemplate cx index t).outcome s = (.ok (), s')) :
    s'.symbols = .empty ∧ s'.frames = s.frames ∧
      ∃ record, s'.statements = s.statements ++ templateStatements unit record := by
  rw [outcome_walkTemplate_register] at h
  have hresult := Fallible.result_of_outcome h
  rw [hs, result_walkTemplate unit cx index t _ _ _ _
    (s.registry.isSome_lookup_register _ unit)] at hresult
  obtain ⟨record, _, hrecord⟩ := Fallible.bind_eq_ok hresult
  cases hrecord
  exact ⟨rfl, rfl, record, rfl⟩

theorem keepsOn_balanced : (visitor unit).KeepsOn (fun s => s.symbols = .empty)
    (fun s => 0 < s.frames.depth) Balanced where
  enterTemplate := by
    intro t cx index s d s' _ hout
    cases hout
    exact Nat.succ_pos _
  walkTemplate := by
    intro cx index t s s' hs hout
    obtain ⟨hsymbols, hframes, record, hstatements⟩ := walkTemplate_eq_ok unit hs hout
    refine ⟨hsymbols, hsymbols.trans hs.symm, by rw [hframes], ?_, ?_⟩
    · exact State.indent_writer_append hstatements (nested_templateStatements unit record)
    · rw [if_pos rfl]
      exact hframes
  enterComposite := by
    intro c cx index s s' hs hout
    have hresult := Fallible.result_of_outcome hout
    rw [result_enterComposite] at hresult
    obtain ⟨kind, _, hkind⟩ := Fallible.bind_eq_ok hresult
    cases hbody : c.soleReference? <;> rw [hbody] at hkind <;> cases hkind
    exact Nat.succ_pos _
  walkComposite := by
    intro cx index head kind typeRef fields s s' hs hout
    have hresult := Fallible.result_of_outcome hout
    rw [result_walkField unit _ _ _ hs] at hresult
    obtain ⟨record, _, hrecord⟩ := Fallible.bind_eq_ok hresult
    cases hrecord
    exact ⟨by simpa [State.extend] using hs, balanced_extend unit hs record⟩
  visitLeaf := by
    intro head content cx index s s' hs hout
    have hresult := Fallible.result_of_outcome hout
    rw [result_visitLeaf unit _ _ _ _ hs] at hresult
    obtain ⟨payload, _, hresult⟩ := Fallible.bind_eq_ok hresult
    obtain ⟨recordHead, _, hrecord⟩ := Fallible.bind_eq_ok hresult
    cases hrecord
    simpa [State.extend] using hs

/-! ## Documents -/

/-- Nothing is open, and what is written has closed every block that it opened and no other. -/
structure Settled (s : State) : Prop where
  symbols : s.symbols = .empty
  frames : s.frames = .empty
  nested : Nested s.steps

theorem Settled.append {s s' : State} {statements : List Statement} (h : Settled s)
    (hsymbols : s'.symbols = .empty) (hframes : s'.frames = s.frames)
    (hstatements : s'.statements = s.statements ++ statements)
    (hnested : Nested (statements.flatMap Statement.steps)) : Settled s' where
  symbols := hsymbols
  frames := hframes.trans h.frames
  nested := by
    rw [State.steps_append hstatements]
    exact h.nested.append hnested

theorem Settled.walkTemplates {cx : Context} {index : Nat} {ts : List Template} {s s' : State}
    (h : Settled s)
    (hout : ((visitor unit).walkTemplates cx index ts).outcome s = (.ok (), s')) : Settled s' := by
  induction ts generalizing index s with
  | nil =>
      cases hout
      exact h
  | cons t ts ih =>
      rw [Visitor.walkTemplates, Fallible.outcome_bind] at hout
      cases hfirst : ((visitor unit).walkTemplate cx index t).outcome s with
      | mk answer s₁ =>
          rw [hfirst] at hout
          cases answer with
          | error fault => cases hout
          | ok a =>
              obtain ⟨hsymbols, hframes, record, hstatements⟩ :=
                walkTemplate_eq_ok unit h.symbols hfirst
              exact ih (h.append hsymbols hframes hstatements
                (nested_templateStatements unit record)) hout

/-- A walk that gets to the end of a document has nothing open there. -/
theorem settled_walkInside {doc : Document} {registry : Registry} {s : State}
    (hout : ((visitor unit).walkInside doc).outcome (.start registry) = (.ok (), s)) :
    Settled s := by
  have hstart : Settled ⟨registry, .empty, .empty, #[], #[Statement.preamble unit]⟩ :=
    ⟨rfl, rfl, nested_preamble unit⟩
  exact hstart.walkTemplates unit hout

/-- Leaving the document then meets no fault. -/
theorem Settled.exitDocument {s : State} (h : Settled s) (doc : Document) (cx : Context) :
    ∃ s', ((visitor unit).exitDocument doc cx).outcome s = (.ok (), s') ∧ Settled s' := by
  have hdepth : s.frames.depth = 0 := by
    rw [h.frames]
    rfl
  have hparts : s.symbols.parts = [] := by
    rw [h.symbols]
    rfl
  let description := descriptionStatement unit (s.templates.toList.map TemplateInstruction.name)
    (doc.attrs.getD "ns") (doc.attrs.getD "templateNs") (doc.attrs.getD "dictionary")
  have hdescription : Nested ([description].flatMap Statement.steps) := by
    rw [List.flatMap_singleton]
    exact nested_description unit _ _
  let s' : State := { s with statements := s.statements ++ [description] }
  have hexit : ((visitor unit).exitDocument doc cx).outcome s = (.ok (), s') := by
    simp [visitor, Fallible.outcome_bind, hdepth, hparts, emit, s', description]
  exact ⟨s', hexit, h.append h.symbols rfl rfl hdescription⟩

end FastSchema.Tables
