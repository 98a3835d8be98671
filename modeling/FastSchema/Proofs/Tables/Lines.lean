import FastSchema.Proofs.Cpp.Writer
import FastSchema.Proofs.Tables.Leaves
import FastSchema.Proofs.Tables.Statements

/-! # The lines of a table file

The file has one function for each template, between what it begins and what it ends with. The body
of a function is a list of lines, and of each line it is said here which static it declares and to
which one it refers. -/

namespace FastSchema

namespace Tables

open Cpp (SymbolPath Writer)
open Cpp.StringLiteral (quoted)

/-! ## Lines -/

/-- A line in the body of a function, with its indentation and its end. It may name a static that it
declares, and refer to one. -/
structure Line where
  text : String
  declares : Option String
  refers : Option String

namespace Line

def code (s : String) : Line := ⟨"  " ++ s ++ "\n", none, none⟩

def declaring (symbol s : String) : Line := { code s with declares := some symbol }

def referring (symbol? : Option String) (s : String) : Line := { code s with refers := symbol? }

def blank : Line := ⟨"\n", none, none⟩

end Line

def argumentLines (args : List Argument) : List Line :=
  List.zipWith (fun arg s => .referring arg.expr.refers? s) args (Argument.lines args)

namespace Statement

/-- The lines of a statement that stands in the body of a function. -/
def lines : Statement → List Line
  | .operatorContext symbol context =>
    [.declaring symbol ("const static op_context_t " ++ symbol ++ " = \x7b"),
     .code ("  " ++ quoted context.key ++ ","),
     .code ("  " ++ quoted context.ns ++ ","),
     .code ("  " ++ quoted context.dictionary ++ "\x7d;")]
  | .static declarator symbol args =>
    .code declarator :: .declaring symbol (symbol ++ "(") :: argumentLines args ++ [.blank]
  | .array symbol [] =>
    [.declaring symbol ("const static field_instruction** " ++ symbol ++ " = 0;")]
  | .array symbol (entry :: entries) =>
    .declaring symbol ("const static field_instruction* " ++ symbol ++ "[] = \x7b") ::
      (entry :: entries).map (fun e => .referring (some e) ("  &" ++ e ++ ",")) ++
        [.code "\x7d;", .blank]
  | .closeTemplate name args =>
    .declaring "the_instruction" ("const static " ++ name ++ "::instruction_type the_instruction(")
      :: argumentLines args ++
        [.blank, .referring (some "the_instruction") "return &the_instruction;"]
  | .preamble _ => []
  | .openTemplate _ => []
  | .description _ _ _ => []

/-- The statement declares a static and stays inside the body that it stands in. -/
def IsDeclaration : Statement → Prop
  | .operatorContext _ _ => True
  | .static _ _ _ => True
  | .array _ _ => True
  | _ => False

end Statement

def linesOf (statements : List Statement) : List Line := statements.flatMap Statement.lines

/-! ## Writing lines -/

theorem length_punctuate (last : String) (items : List String) :
    (Cpp.punctuate last items).length = items.length := by
  induction items with
  | nil => rfl
  | cons item items ih =>
      cases items with
      | nil => rfl
      | cons next items => simpa [Cpp.punctuate] using ih

theorem length_argumentLines (args : List Argument) :
    (Argument.lines args).length = args.length := by
  simp [Argument.lines, length_punctuate]

theorem map_text_argumentLines (args : List Argument) :
    (argumentLines args).map Line.text =
      (Argument.lines args).map fun s => "  " ++ s ++ "\n" := by
  have hzip : ∀ (args : List Argument) (ss : List String), ss.length = args.length →
      (List.zipWith (fun arg s => Line.referring arg.expr.refers? s) args ss).map Line.text =
        ss.map fun s => "  " ++ s ++ "\n" := by
    intro args
    induction args with
    | nil =>
        intro ss h
        obtain rfl := List.length_eq_zero_iff.mp h
        rfl
    | cons arg args ih =>
        intro ss h
        cases ss with
        | nil => cases h
        | cons s ss => simpa [Line.referring, Line.code] using ih ss (by simpa using h)
  exact hzip args _ (length_argumentLines args)

theorem line_body (text s : String) :
    (⟨text, 1⟩ : Writer).line s = ⟨text ++ ("  " ++ s ++ "\n"), 1⟩ := by
  simp only [Writer.line, Nat.mul_one, String.append_assoc]
  rfl

theorem lines_body (text : String) (ss : List String) :
    (⟨text, 1⟩ : Writer).lines ss =
      ⟨text ++ String.join (ss.map fun s => "  " ++ s ++ "\n"), 1⟩ := by
  unfold Writer.lines
  induction ss generalizing text with
  | nil => simp
  | cons s ss ih =>
      rw [List.foldl_cons, line_body, ih, List.map_cons, String.join_cons, String.append_assoc]

theorem blank_body (text : String) : (⟨text, 1⟩ : Writer).blank = ⟨text ++ "\n", 1⟩ := rfl

/-- A declaration in the body of a function is written as its lines. -/
theorem write_declaration {st : Statement} (h : st.IsDeclaration) (text : String) :
    st.write ⟨text, 1⟩ = ⟨text ++ String.join (st.lines.map Line.text), 1⟩ := by
  cases st with
  | operatorContext symbol context =>
      simp [Statement.write, Statement.lines, lines_body, Line.declaring, Line.code]
  | static declarator symbol args =>
      simp [Statement.write, Statement.lines, line_body, lines_body, blank_body, Line.declaring,
        Line.code, Line.blank, map_text_argumentLines, String.append_assoc]
  | array symbol entries =>
      cases entries with
      | nil => simp [Statement.write, Statement.lines, line_body, Line.declaring, Line.code]
      | cons entry entries =>
          simp [Statement.write, Statement.lines, line_body, lines_body, blank_body,
            Line.declaring, Line.referring, Line.code, Line.blank, String.append_assoc,
            Function.comp_def]
  | _ => cases h

theorem write_declarations {statements : List Statement}
    (h : ∀ st ∈ statements, st.IsDeclaration) (text : String) :
    statements.foldl (fun w st => st.write w) ⟨text, 1⟩ =
      ⟨text ++ String.join ((linesOf statements).map Line.text), 1⟩ := by
  induction statements generalizing text with
  | nil => simp [linesOf]
  | cons st statements ih =>
      rw [List.foldl_cons, write_declaration (h st (by simp)),
        ih fun st' hst' => h st' (by simp [hst'])]
      simp [linesOf, String.append_assoc]

/-! ## Symbols in the text of lines -/

def Shows (text symbol : String) : Prop := ∃ before after, text = before ++ symbol ++ after

/-- What the line declares or refers to stands in its text. -/
structure Line.Faithful (line : Line) : Prop where
  declares : ∀ symbol, line.declares = some symbol → Shows line.text symbol
  refers : ∀ symbol, line.refers = some symbol → Shows line.text symbol

theorem Shows.append {s symbol : String} (h : Shows s symbol) (before after : String) :
    Shows (before ++ s ++ after) symbol := by
  obtain ⟨first, last, rfl⟩ := h
  exact ⟨before ++ first, last ++ after, by simp only [String.append_assoc]⟩

theorem Shows.code {s symbol : String} (h : Shows s symbol) : Shows (Line.code s).text symbol :=
  h.append "  " "\n"

theorem Line.faithful_code (s : String) : (code s).Faithful := by
  constructor <;> simp [code]

theorem Line.faithful_blank : blank.Faithful := by
  constructor <;> simp [blank]

theorem Line.faithful_declaring {symbol s : String} (h : Shows s symbol) :
    (declaring symbol s).Faithful := by
  refine ⟨fun other hother => ?_, by simp [declaring, code]⟩
  cases hother
  exact h.code

theorem Line.faithful_referring {symbol? : Option String} {s : String}
    (h : ∀ symbol, symbol? = some symbol → Shows s symbol) : (referring symbol? s).Faithful :=
  ⟨by simp [referring, code], fun symbol hsymbol => (h symbol hsymbol).code⟩

theorem exists_render_eq {e : Expr} {symbol : String} (h : e.refers? = some symbol) :
    ∃ before, e.render = before ++ symbol := by
  cases e with
  | address other =>
      cases h
      exact ⟨"&", rfl⟩
  | array other =>
      cases h
      exact ⟨"", String.empty_append.symm⟩
  | _ => cases h

theorem exists_of_getElem?_punctuate {last item : String} {items : List String} {i : Nat}
    (h : (Cpp.punctuate last items)[i]? = some item) :
    ∃ bare after, items[i]? = some bare ∧ item = bare ++ after := by
  induction items generalizing i with
  | nil => simp [Cpp.punctuate] at h
  | cons first items ih =>
      cases items with
      | nil =>
          cases i with
          | zero => exact ⟨first, last, rfl, by simpa [Cpp.punctuate] using h.symm⟩
          | succ i => simp [Cpp.punctuate] at h
      | cons next items =>
          cases i with
          | zero => exact ⟨first, ",", rfl, by simpa [Cpp.punctuate] using h.symm⟩
          | succ i => exact ih (by simpa [Cpp.punctuate] using h)

/-- A line of an argument list shows its argument and refers to what the argument does. -/
theorem exists_of_getElem?_argumentLines {args : List Argument} {line : Line} {i : Nat}
    (h : (argumentLines args)[i]? = some line) :
    ∃ arg, args[i]? = some arg ∧ ∃ after,
      line = .referring arg.expr.refers? ("  " ++ arg.expr.render ++ after) := by
  rw [argumentLines, List.getElem?_zipWith] at h
  cases harg : args[i]? with
  | none => simp [harg] at h
  | some arg =>
      cases htext : (Argument.lines args)[i]? with
      | none => simp [harg, htext] at h
      | some text =>
          obtain rfl : Line.referring arg.expr.refers? text = line := by
            simpa [harg, htext] using h
          rw [Argument.lines, List.getElem?_zipWith, harg] at htext
          cases hitem : (Cpp.punctuate ");" (args.map (·.expr.render)))[i]? with
          | none => simp [hitem] at htext
          | some item =>
              obtain ⟨bare, after, hbare, rfl⟩ := exists_of_getElem?_punctuate hitem
              obtain rfl : arg.expr.render = bare := by simpa [harg] using hbare
              refine ⟨arg, rfl, after ++ (arg.note.map (" // " ++ ·)).getD "", ?_⟩
              rw [hitem] at htext
              simp [← Option.some_inj.mp htext, String.append_assoc]

theorem exists_of_mem_argumentLines {args : List Argument} {line : Line}
    (h : line ∈ argumentLines args) :
    ∃ arg ∈ args, ∃ after,
      line = .referring arg.expr.refers? ("  " ++ arg.expr.render ++ after) := by
  obtain ⟨i, hi⟩ := List.getElem?_of_mem h
  obtain ⟨arg, harg, hline⟩ := exists_of_getElem?_argumentLines hi
  exact ⟨arg, List.mem_of_getElem? harg, hline⟩

/-- Every argument has a line that shows it. -/
theorem exists_mem_argumentLines {args : List Argument} {arg : Argument} (h : arg ∈ args) :
    ∃ line ∈ argumentLines args, ∃ after,
      line = .referring arg.expr.refers? ("  " ++ arg.expr.render ++ after) := by
  obtain ⟨i, hi⟩ := List.getElem?_of_mem h
  have hlt : i < (argumentLines args).length := by
    rw [argumentLines, List.length_zipWith, length_argumentLines, Nat.min_self]
    exact (List.getElem?_eq_some_iff.mp hi).1
  obtain ⟨other, hother, hline⟩ :=
    exists_of_getElem?_argumentLines (List.getElem?_eq_getElem hlt)
  obtain rfl : arg = other := Option.some_inj.mp (hi.symm.trans hother)
  exact ⟨_, List.getElem_mem hlt, hline⟩

theorem faithful_argumentLines (args : List Argument) :
    ∀ line ∈ argumentLines args, line.Faithful := by
  intro line hline
  obtain ⟨arg, _, after, rfl⟩ := exists_of_mem_argumentLines hline
  refine Line.faithful_referring fun symbol hsymbol => ?_
  obtain ⟨before, hrender⟩ := exists_render_eq hsymbol
  exact ⟨"  " ++ before, after, by simp only [hrender, String.append_assoc]⟩

theorem Statement.faithful_lines (st : Statement) : ∀ line ∈ st.lines, line.Faithful := by
  cases st with
  | operatorContext symbol context =>
      simp only [Statement.lines, List.forall_mem_cons]
      exact ⟨Line.faithful_declaring ⟨_, _, rfl⟩, Line.faithful_code _, Line.faithful_code _,
        Line.faithful_code _, List.forall_mem_nil _⟩
  | static declarator symbol args =>
      simp only [Statement.lines, List.cons_append, List.forall_mem_cons, List.forall_mem_append]
      exact ⟨Line.faithful_code _, Line.faithful_declaring ⟨"", "(", by simp⟩,
        faithful_argumentLines args, Line.faithful_blank, List.forall_mem_nil _⟩
  | array symbol entries =>
      cases entries with
      | nil => exact List.forall_mem_singleton.mpr (Line.faithful_declaring ⟨_, _, rfl⟩)
      | cons entry entries =>
          have hentry : ∀ e : String,
              (Line.referring (some e) ("  &" ++ e ++ ",")).Faithful := by
            refine fun e => Line.faithful_referring fun symbol hsymbol => ?_
            cases hsymbol
            exact ⟨_, _, rfl⟩
          rw [Statement.lines, List.forall_mem_append, List.forall_mem_cons, List.forall_mem_map]
          exact ⟨⟨Line.faithful_declaring ⟨_, _, rfl⟩, fun e _ => hentry e⟩,
            by simp [Line.faithful_code, Line.faithful_blank]⟩
  | closeTemplate name args =>
      simp only [Statement.lines, List.cons_append, List.forall_mem_cons, List.forall_mem_append]
      refine ⟨Line.faithful_declaring ⟨"const static " ++ name ++ "::instruction_type ", "(", ?_⟩,
        faithful_argumentLines args, Line.faithful_blank,
        Line.faithful_referring fun symbol h => ?_, List.forall_mem_nil _⟩
      · simp [String.append_assoc]
      · cases h
        exact ⟨"return &", ";", rfl⟩
  | preamble unit => exact List.forall_mem_nil _
  | openTemplate name => exact List.forall_mem_nil _
  | description unit templates args => exact List.forall_mem_nil _

/-! ## Statements of records -/

theorem isDeclaration_contextStatements (path : SymbolPath) (stem : String)
    (op : OperatorRecord) : ∀ st ∈ contextStatements path stem op, st.IsDeclaration := by
  unfold contextStatements
  cases op.context <;> simp [Statement.IsDeclaration]

theorem LeafLayout.isDeclaration {path : SymbolPath} {head : RecordHead} {payload : LeafPayload}
    {statements : List Statement} (h : LeafLayout path head payload statements) :
    ∀ st ∈ statements, st.IsDeclaration := by
  have hcontext := isDeclaration_contextStatements path
  cases h with
  | value declarator hop hrest =>
      simp only [List.forall_mem_append, List.forall_mem_singleton]
      exact ⟨hcontext _ _, trivial⟩
  | split mantissaOp mantissaInitial exponentOp exponentInitial =>
      simp only [List.forall_mem_append, List.forall_mem_singleton]
      exact ⟨⟨⟨hcontext _ _, trivial⟩, hcontext _ _⟩, trivial⟩
  | reference target declarator hrest => exact List.forall_mem_singleton.mpr trivial

theorem isDeclaration_leadStatements (inside : SymbolPath) (name : String)
    (kind : CompositeRecord) : ∀ st ∈ leadStatements inside name kind, st.IsDeclaration := by
  cases kind with
  | group => simp [leadStatements]
  | sequence length =>
      simp only [leadStatements, lengthStatements, List.forall_mem_append,
        List.forall_mem_singleton]
      exact ⟨isDeclaration_contextStatements _ _ _, trivial⟩

mutual

theorem isDeclaration_recordStatements (unit : String) (path : SymbolPath)
    (record : FieldInstruction) : ∀ st ∈ recordStatements unit path record, st.IsDeclaration := by
  cases record with
  | leaf head payload =>
      rw [recordStatements]
      exact (leafLayout unit path head payload).isDeclaration
  | owning head kind typeRef fields =>
      simp only [recordStatements, List.forall_mem_append, List.forall_mem_cons]
      exact ⟨⟨isDeclaration_leadStatements _ _ kind,
        isDeclaration_recordsStatements unit _ fields⟩, trivial, trivial, by simp⟩
  | flattened head kind typeRef body =>
      simp only [recordStatements, List.forall_mem_append, List.forall_mem_singleton]
      exact ⟨isDeclaration_leadStatements _ _ kind, trivial⟩

theorem isDeclaration_recordsStatements (unit : String) (path : SymbolPath)
    (records : List FieldInstruction) :
    ∀ st ∈ recordsStatements unit path records, st.IsDeclaration := by
  cases records with
  | nil => simp [recordsStatements]
  | cons record records =>
      simp only [recordsStatements, List.forall_mem_append]
      exact ⟨isDeclaration_recordStatements unit path record,
        isDeclaration_recordsStatements unit path records⟩

end

/-! ## Functions -/

/-- The function that answers the instruction of a template, with what stands in its body. -/
structure Function where
  name : String
  statements : List Statement

namespace Function

def lines (f : Function) : List Line := linesOf f.statements

def text (f : Function) : String :=
  "const " ++ f.name ++ "::instruction_type*\n" ++ f.name ++ "::instruction()\n\x7b\n" ++
    String.join (f.lines.map Line.text) ++ "\x7d\n\n"

def ofTemplate (unit : String) (t : TemplateInstruction) : Function :=
  let inside := SymbolPath.empty.push t.name
  ⟨t.name, recordsStatements unit inside t.fields ++
    [.array (arraySymbol inside) (t.fields.map (recordSymbol inside)),
     templateStatement (arraySymbol inside) t]⟩

end Function

/-- The end of a function is written as its lines and the brace that closes the body. -/
theorem write_closeTemplate (name : String) (args : List Argument) (text : String) :
    (Statement.closeTemplate name args).write ⟨text, 1⟩ =
      ⟨text ++ String.join ((Statement.closeTemplate name args).lines.map Line.text) ++
        "\x7d\n\n", 0⟩ := by
  simp [Statement.write, Statement.lines, lines_body, Line.declaring, Line.referring, Line.code,
    Line.blank, map_text_argumentLines, String.append_assoc, Writer.closeBlock, Writer.line,
    Writer.blank]

/-- The statements of a template are written as its function. -/
theorem foldl_templateStatements (unit : String) (t : TemplateInstruction) :
    (templateStatements unit t).foldl (fun w st => st.write w) Writer.empty =
      ⟨(Function.ofTemplate unit t).text, 0⟩ := by
  let inside := SymbolPath.empty.push t.name
  let declarations := recordsStatements unit inside t.fields ++
    [.array (arraySymbol inside) (t.fields.map (recordSymbol inside))]
  have hstatements : templateStatements unit t =
      .openTemplate t.name :: (declarations ++ [templateStatement (arraySymbol inside) t]) := by
    simp [templateStatements, declarations, inside]
  have hbody : (Function.ofTemplate unit t).statements =
      declarations ++ [templateStatement (arraySymbol inside) t] := by
    simp [Function.ofTemplate, declarations, inside]
  have hopen : (Statement.openTemplate t.name).write Writer.empty =
      ⟨"const " ++ t.name ++ "::instruction_type*\n" ++ t.name ++ "::instruction()\n\x7b\n",
        1⟩ := by
    simp [Statement.write, Writer.openBlock, Writer.line, Writer.empty, String.append_assoc]
  have hdeclarations : ∀ st ∈ declarations, st.IsDeclaration := by
    simp only [declarations, List.forall_mem_append, List.forall_mem_singleton]
    exact ⟨isDeclaration_recordsStatements unit inside t.fields, trivial⟩
  rw [hstatements, List.foldl_cons, hopen, List.foldl_append, write_declarations hdeclarations,
    List.foldl_cons, List.foldl_nil, templateStatement, write_closeTemplate, Function.text,
    Function.lines, hbody]
  simp [linesOf, templateStatement, Function.ofTemplate, String.append_assoc]

/-! ## The file -/

theorem write_prepend (st : Statement) (w : Writer) (before : String) :
    st.write (w.prepend before) = (st.write w).prepend before := by
  cases st with
  | array symbol entries => cases entries <;> simp [Statement.write]
  | _ => simp [Statement.write]

theorem foldl_prepend (statements : List Statement) (w : Writer) (before : String) :
    statements.foldl (fun w st => st.write w) (w.prepend before) =
      (statements.foldl (fun w st => st.write w) w).prepend before := by
  induction statements generalizing w with
  | nil => rfl
  | cons st statements ih => rw [List.foldl_cons, List.foldl_cons, write_prepend, ih]

theorem textOf_append {first : List Statement} (rest : List Statement)
    (h : (first.foldl (fun w st => st.write w) Writer.empty).indent = 0) :
    textOf (first ++ rest) = textOf first ++ textOf rest := by
  unfold textOf
  rw [List.foldl_append, Writer.eq_prepend_empty h, foldl_prepend]
  simp [Writer.prepend]

theorem textOf_flatMap_templateStatements (unit : String) (ts : List TemplateInstruction)
    (rest : List Statement) :
    textOf (ts.flatMap (templateStatements unit) ++ rest) =
      String.join (ts.map fun t => (Function.ofTemplate unit t).text) ++ textOf rest := by
  induction ts with
  | nil => simp
  | cons t ts ih =>
      have htext : textOf (templateStatements unit t) = (Function.ofTemplate unit t).text := by
        rw [textOf, foldl_templateStatements]
      rw [List.flatMap_cons, List.append_assoc, textOf_append _ (by
        rw [foldl_templateStatements]), htext, ih, List.map_cons, String.join_cons,
        String.append_assoc]

end Tables

def Metadata.functions (m : Metadata) : List Tables.Function :=
  m.templates.map (Tables.Function.ofTemplate m.unit)

namespace Tables

/-- The table file of a report: its functions, between what the file begins and ends with. -/
theorem textOf_fileStatements (m : Metadata) :
    textOf (fileStatements m) =
      textOf [.preamble m.unit] ++ String.join (m.functions.map Function.text) ++
        textOf [descriptionStatement m.unit (m.templates.map TemplateInstruction.name) m.ns
          m.templateNs m.dictionary] := by
  have hfile : fileStatements m = [.preamble m.unit] ++
      (m.templates.flatMap (templateStatements m.unit) ++
        [descriptionStatement m.unit (m.templates.map TemplateInstruction.name) m.ns m.templateNs
          m.dictionary]) := by
    simp [fileStatements]
  rw [hfile, textOf_append _ (by simp [Statement.write, Cpp.Writer.empty]),
    textOf_flatMap_templateStatements, String.append_assoc]
  simp [Metadata.functions, Function.comp_def]

end Tables

end FastSchema
