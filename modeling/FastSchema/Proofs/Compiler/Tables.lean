import FastSchema.Proofs.Compiler.Report
import FastSchema.Proofs.Tables.Declarations

/-! # The table file of a compiled document

What the table file has for each node of the report that is compiled along with it. -/

namespace FastSchema

open Cpp (SymbolPath)

namespace Tables

/-! ## Arrays -/

def bodyLine (s : String) : String := "  " ++ s ++ "\n"

/-- The lines of an array that is null if it has no entries. -/
def arrayLines (symbol : String) (entries : List String) : List String :=
  if entries = [] then [bodyLine ("const static field_instruction** " ++ symbol ++ " = 0;")]
  else bodyLine ("const static field_instruction* " ++ symbol ++ "[] = \x7b") ::
    entries.map (fun entry => bodyLine ("  &" ++ entry ++ ",")) ++ [bodyLine "\x7d;", "\n"]

def countLines (array : String) (numFields : Nat) : List String :=
  [bodyLine ("  " ++ array ++ ","), bodyLine ("  " ++ toString numFields ++ ", // num_fields")]

/-- What the file has for a node whose fields are its own: their instructions, the array that has
these in order, and the node with the array and the number of its entries. -/
structure OwnSpec (unit : String) (n : Node) (fields : List FieldInstruction) : Prop where
  content : ∃ array, n.content unit = fields.flatMap (recordStatements unit n.inside) ++ [array] ∧
    array.array? = some (n.array, fields.map (recordSymbol n.inside)) ∧
    array.lines.map Line.text = arrayLines n.array (fields.map (recordSymbol n.inside))
  declared : ∀ (i : Nat) (record : FieldInstruction), fields[i]? = some record →
    ∃ before declarator rest, recordStatements unit n.inside record = before ++
      [.static declarator (recordSymbol n.inside record) (.bare (.number i) :: rest)]
  count : countLines n.array (fields.map (recordSymbol n.inside)).length <:+:
    (n.instruction unit).lines.map Line.text
  record : ∀ record, n.record? = some record → record.count? = some fields.length

/-- What the file has for a composite without fields of its own. -/
structure FlatSpec (unit : String) (n : Node) (name : String) (kind : CompositeRecord) : Prop where
  group : kind = .group → n.block unit = [n.instruction unit]
  sequence : ∀ length, kind = .sequence length → ∃ declarator args,
    n.block unit = contextStatements n.inside (name ++ "_length") length.op ++
      [.static declarator (lengthSymbol n.inside name) args, n.instruction unit]
  arrays : (n.block unit).filterMap Statement.array? = []

/-- What the table file has for the nodes of the report: a function for each template, in which what
belongs to a node stands together. -/
structure NodesSpec (m : Metadata) (tables : String) : Prop where
  text : tables = textOf [.preamble m.unit] ++ String.join (m.functions.map Function.text) ++
    textOf [descriptionStatement m.unit (m.templates.map TemplateInstruction.name) m.ns
      m.templateNs m.dictionary]
  arrays : ∀ t ∈ m.templates, (Function.ofTemplate m.unit t).statements.filterMap
    Statement.array? = t.nodes.filterMap Node.array?
  block : ∀ t ∈ m.templates, ∀ n ∈ t.nodes,
    n.block m.unit <:+: (Function.ofTemplate m.unit t).statements
  own : ∀ t ∈ m.templates, ∀ n ∈ t.nodes, ∀ fields, n.fields? = some fields →
    OwnSpec m.unit n fields
  flat : ∀ t ∈ m.templates, ∀ outside head kind typeRef body,
    .flattened outside head kind typeRef body ∈ t.nodes →
      FlatSpec m.unit (.flattened outside head kind typeRef body) head.name kind

theorem text_lines_array (symbol : String) (entries : List String) :
    (Statement.array symbol entries).lines.map Line.text = arrayLines symbol entries := by
  cases entries with
  | nil => rfl
  | cons entry entries =>
      rw [arrayLines, if_neg (List.cons_ne_nil entry entries)]
      simp only [Statement.lines, List.map_append, List.map_cons, List.map_map]
      rfl

theorem countLines_infix_argumentLines (array : String) (numFields : Nat)
    (before : List Argument) {after : List Argument} (h : after ≠ []) :
    countLines array numFields <:+:
      (argumentLines (before ++ ownArguments array numFields ++ after)).map Line.text := by
  rw [map_text_argumentLines]
  exact (lines_ownArguments array numFields before h).map bodyLine

theorem argumentLines_infix_static (declarator symbol : String) (args : List Argument) :
    argumentLines args <:+: (Statement.static declarator symbol args).lines :=
  ⟨[_, _], [_], rfl⟩

theorem argumentLines_infix_closeTemplate (name : String) (args : List Argument) :
    argumentLines args <:+: (Statement.closeTemplate name args).lines :=
  ⟨[_], [_, _], rfl⟩

theorem Node.countLines_infix_instruction (unit : String) {n : Node}
    {fields : List FieldInstruction} (h : n.fields? = some fields) :
    countLines n.array fields.length <:+: (n.instruction unit).lines.map Line.text := by
  cases n with
  | template t =>
      obtain rfl : t.fields = fields := by simpa [Node.fields?] using h
      have hargs := countLines_infix_argumentLines (Node.template t).array t.fields.length
        [.noted "id" (.number t.id.toNat), .noted "name" (.text t.name), .noted "ns" (.text t.ns),
          .noted "templateNs" (.text t.templateNs), .noted "dictionary" (.text t.dictionary)]
        (List.cons_ne_nil (.noted "reset" (.boolean t.reset)) (typeRefArguments t.typeRef))
      exact hargs.trans ((argumentLines_infix_closeTemplate t.name _).map Line.text)
  | owning outside head kind typeRef own =>
      obtain rfl : own = fields := by simpa [Node.fields?] using h
      obtain ⟨declarator, hstatic⟩ :=
        compositeStatement_eq_static (outside.push head.name) outside head kind typeRef
          (ownArguments (arraySymbol (outside.push head.name)) own.length)
      rw [Node.instruction, hstatic]
      exact (countLines_infix_argumentLines _ _ _ (by simp [typeRefArguments])).trans
        ((argumentLines_infix_static declarator _ _).map Line.text)
  | flattened outside head kind typeRef body => cases h

theorem ownSpec (unit : String) {n : Node} {fields : List FieldInstruction}
    (h : n.fields? = some fields) (hnumbered : FieldInstruction.NumberedFrom 0 fields) :
    OwnSpec unit n fields where
  content := by
    refine ⟨_, ?_, rfl, text_lines_array _ _⟩
    simp only [Node.content, h]
  declared i record hi := by
    have hindex : record.head.index = i := by
      simpa using FieldInstruction.NumberedFrom.index_of_getElem? hnumbered hi
    simpa only [hindex] using own_recordStatements unit n.inside record
  count := by
    rw [List.length_map]
    exact n.countLines_infix_instruction unit h
  record record hrecord := by
    cases n with
    | template t => cases hrecord
    | owning outside head kind typeRef own =>
        cases hrecord
        exact congrArg (Option.map List.length) h
    | flattened outside head kind typeRef body => cases h

theorem lengthStatements_eq_append (path : SymbolPath) (sequence : String) (l : SequenceLength) :
    ∃ args, lengthStatements path sequence l =
      contextStatements path (sequence ++ "_length") l.op ++
        [.static "static uint32_field_instruction" (lengthSymbol path sequence) args] :=
  ⟨_, rfl⟩

theorem flatSpec (unit : String) (outside : SymbolPath) (head : RecordHead)
    (kind : CompositeRecord) (typeRef : Option TypeRef) (body : FlatBody) :
    FlatSpec unit (.flattened outside head kind typeRef body) head.name kind where
  group hkind := by
    subst hkind
    rfl
  sequence length hkind := by
    subst hkind
    obtain ⟨args, hlength⟩ := lengthStatements_eq_append (outside.push head.name) head.name length
    refine ⟨"static uint32_field_instruction", args, ?_⟩
    simp [Node.block, Node.lead, Node.content, Node.fields?, Node.inside, leadStatements, hlength]
  arrays := by
    rw [Node.arrays_block]
    rfl

end Tables

/-- A call compiles a document whose instructions can be derived. -/
theorem Call.exists_compiled {call : Call} {registry : Registry} {doc : Document}
    {records : List TemplateInstruction} (hload : call.load = .ok doc)
    (h : doc.instructions (registry.registerDocument call.unit doc) = .ok records) :
    ∃ compiled, (call.compile.outcome registry).1 = .ok compiled ∧
      compiled.metadata.templates = records := by
  rw [outcome_compile_of_ok hload, Compile.outcome_document_eq, Document.metadata, h]
  exact ⟨_, rfl, rfl⟩

namespace Tables

/-- What is written from entering a composite that reduces to a reference to leaving it. -/
theorem statements_of_walkField {unit : String} {cx : Context} {index : Nat} {head : FieldHead}
    {kind : CompositeKind} {typeRef : Option TypeRef} {fields : List Field} {s after : State}
    (hopen : 0 < s.frames.depth) (hsole : (soleReference? fields).isSome)
    (h : ((visitor unit).walkField cx index (.composite head kind typeRef fields)).result s =
      .ok ((), after)) :
    ∃ (recordHead : RecordHead) (kindRecord : CompositeRecord) (body : FlatBody),
      recordHead.name = head.name ∧ kind.record head = .ok kindRecord ∧
        after.statements = s.statements ++
          (Node.flattened s.symbols recordHead kindRecord typeRef body).block unit := by
  obtain ⟨r, hr⟩ := Option.isSome_iff_exists.mp hsole
  rw [result_walkField_flattened unit cx index head kind typeRef hr hopen] at h
  obtain ⟨record, hrecord, h⟩ := Fallible.bind_eq_ok h
  cases h
  obtain ⟨recordHead, kindRecord, hhead, hkind, hrecord⟩ :=
    Field.composite_instruction_eq_ok hrecord
  rcases hrecord with ⟨r, target, _, _, rfl⟩ | ⟨children, hnone, _, rfl⟩
  · refine ⟨recordHead, kindRecord, kind.flatBody head target,
      (FieldHead.record_eq_ok hhead).2.2, hkind, ?_⟩
    simp only [State.extend, recordsStatements, List.append_nil, recordStatements_flattened]
  · rw [hnone] at hr
    cases hr

end Tables

open Tables in
/-- In the table file of a compiled document each template, and each composite with fields of its
own, has one array with the instructions of its fields. What is written from entering a composite
that reduces to a reference to leaving it has none. -/
theorem nodes_of_compile {call : Call} {registry : Registry} {compiled : CompiledUnit}
    (h : (call.compile.outcome registry).1 = .ok compiled) :
    NodesSpec compiled.metadata compiled.tables ∧
    ∀ (cx : Context) (index : Nat) (head : FieldHead) (kind : CompositeKind)
      (typeRef : Option TypeRef) (fields : List Field) (s after : State),
      0 < s.frames.depth → (soleReference? fields).isSome →
      ((visitor call.unit).walkField cx index (.composite head kind typeRef fields)).result s =
        .ok ((), after) →
      ∃ (recordHead : RecordHead) (kindRecord : CompositeRecord) (body : FlatBody),
        recordHead.name = head.name ∧ kind.record head = .ok kindRecord ∧
          let n := Node.flattened s.symbols recordHead kindRecord typeRef body
          after.statements = s.statements ++ n.block call.unit ∧
            FlatSpec call.unit n recordHead.name kindRecord := by
  obtain ⟨doc, _, hm⟩ := Call.metadata_of_compile h
  have hnumbered : ∀ t ∈ compiled.metadata.templates,
      FieldInstruction.NumberedFrom 0 t.fields := by
    intro t ht
    obtain ⟨i, hi⟩ := List.getElem?_of_mem ht
    exact (Document.numbered_metadata hm i t hi).2
  refine ⟨⟨?_, ?_, ?_, ?_, ?_⟩, ?_⟩
  · rw [Call.compile_eq_ok h]
    exact textOf_fileStatements compiled.metadata
  · exact fun t _ => arrays_ofTemplate compiled.metadata.unit t
  · exact fun t _ => block_infix_ofTemplate compiled.metadata.unit t
  · intro t ht n hn fields hfields
    exact ownSpec _ hfields
      (TemplateInstruction.numberedFrom_of_mem_nodes (hnumbered t ht) n hn fields hfields)
  · exact fun t _ outside head kind typeRef body _ => flatSpec _ outside head kind typeRef body
  · intro cx index head kind typeRef fields s after hopen hsole hwalk
    obtain ⟨recordHead, kindRecord, body, hname, hkind, hafter⟩ :=
      statements_of_walkField hopen hsole hwalk
    exact ⟨recordHead, kindRecord, body, hname, hkind, hafter,
      flatSpec _ s.symbols recordHead kindRecord typeRef body⟩

def Compile.orderState : Tables.State :=
  { Tables.State.start .empty with
    symbols := SymbolPath.empty.push "Order"
    frames := Cpp.FrameStack.empty.openFrame }

open Tables in
theorem nodes_of_orderDocument :
    ∃ compiled t after, ∃ statement : Statement,
      ((Call.document "orders" (Compile.orderDocument .empty) "").compile.outcome .empty).1 =
        .ok compiled ∧ t ∈ compiled.metadata.templates ∧
      (Function.ofTemplate "orders" t).statements.filterMap Statement.array? =
        [("Order__Legs__subinstructions",
          ["Order__Legs__Price_instruction", "Order__Legs__templateref1_instruction"]),
         ("Order__subinstructions",
          ["Order__Side_instruction", "Order__Body_instruction", "Order__Legs_instruction"])] ∧
      ((visitor "orders").walkField .empty 1 (.composite ⟨"Body", .empty⟩ .group none
        [.leaf ⟨"", .empty⟩ (.reference ⟨none, none⟩)])).result Compile.orderState =
          .ok ((), after) ∧
      after.statements = Compile.orderState.statements ++ [statement] := by
  have hcompile : ((Call.document "orders" (Compile.orderDocument .empty) "").compile.outcome
      .empty).1 = .ok (.ofMetadata (Compile.orderReport "")) := Compile.outcome_orderDocument
  have hwalk : ∃ after, ((visitor "orders").walkField .empty 1 (.composite ⟨"Body", .empty⟩ .group
      none [.leaf ⟨"", .empty⟩ (.reference ⟨none, none⟩)])).result Compile.orderState =
        .ok ((), after) := ⟨_, rfl⟩
  obtain ⟨after, hafter⟩ := hwalk
  obtain ⟨hnodes, hflat⟩ := nodes_of_compile hcompile
  obtain ⟨recordHead, kindRecord, body, _, hkind, hstatements, hspec⟩ :=
    hflat _ _ _ _ _ _ _ _ (by decide) rfl hafter
  cases hkind
  rw [hspec.group rfl] at hstatements
  refine ⟨_, _, after, _, hcompile, List.mem_cons_self, ?_, hafter, hstatements⟩
  exact (hnodes.arrays _ List.mem_cons_self).trans (by decide)

/-! ## Declarations -/

open Tables in
/-- In the body of a function of the table file, each static that a line refers to is declared on
a line before it. -/
theorem declares_before_of_compile {call : Call} {registry : Registry} {compiled : CompiledUnit}
    (h : (call.compile.outcome registry).1 = .ok compiled) :
    compiled.tables =
        textOf [.preamble compiled.metadata.unit] ++
          String.join (compiled.metadata.functions.map Function.text) ++
          textOf [descriptionStatement compiled.metadata.unit
            (compiled.metadata.templates.map TemplateInstruction.name) compiled.metadata.ns
            compiled.metadata.templateNs compiled.metadata.dictionary] ∧
      ∀ f ∈ compiled.metadata.functions, (∀ line ∈ f.lines, line.Faithful) ∧
        ∀ (before after : List Line) (line : Line) (symbol : String),
          f.lines = before ++ line :: after → line.refers = some symbol →
            ∃ earlier ∈ before, earlier.declares = some symbol := by
  refine ⟨?_, fun f hf => ⟨fun line hline => ?_, fun before after line symbol hlines hrefers => ?_⟩⟩
  · rw [Call.compile_eq_ok h]
    exact textOf_fileStatements compiled.metadata
  · obtain ⟨st, _, hline⟩ := List.mem_flatMap.mp hline
    exact st.faithful_lines line hline
  · obtain ⟨t, _, rfl⟩ := List.mem_map.mp hf
    have hbody : RefersBack [] (Function.ofTemplate compiled.metadata.unit t).lines :=
      selfContained_ofTemplate compiled.metadata.unit t
    rw [hlines] at hbody
    exact hbody.exists_declares hrefers

open Tables in
theorem declares_before_of_orderDocument :
    ∃ compiled f before line after,
      ((Call.document "orders" (Compile.orderDocument .empty) "").compile.outcome .empty).1 =
        .ok compiled ∧ f ∈ compiled.metadata.functions ∧ f.lines = before ++ line :: after ∧
      line.text = "    &Order__Legs__Legs_length_instruction, // length\n" ∧
      ∃ earlier ∈ before, earlier.declares = some "Order__Legs__Legs_length_instruction" := by
  have hcompile : ((Call.document "orders" (Compile.orderDocument .empty) "").compile.outcome
      .empty).1 = .ok (.ofMetadata (Compile.orderReport "")) := Compile.outcome_orderDocument
  let f := Function.ofTemplate "orders" (Compile.orderReport "").templates[0]
  have hf : f ∈ (Compile.orderReport "").functions := List.mem_cons_self
  have hlines : f.lines = f.lines.take 66 ++ f.lines[66] :: f.lines.drop 67 := by
    simp
  refine ⟨_, f, _, _, _, hcompile, hf, hlines, by decide, ?_⟩
  exact ((declares_before_of_compile hcompile).2 f hf).2 _ _ _ _ hlines (by decide)

end FastSchema
