import FastSchema.Proofs.Instruction.Recursion
import FastSchema.Proofs.Tables.Lines

/-! # The arrays of a table file

Every node that has fields of its own puts them into one array, after their instructions and right
before its own. Here are the nodes of a report, and what stands in the file for each. -/

namespace FastSchema

open Cpp (SymbolPath)

namespace Tables

/-! ## Nodes -/

/-- A template, or a composite among the fields of the node at `outside`. -/
inductive Node where
  | template (t : TemplateInstruction)
  | owning (outside : SymbolPath) (head : RecordHead) (kind : CompositeRecord)
      (typeRef : Option TypeRef) (fields : List FieldInstruction)
  | flattened (outside : SymbolPath) (head : RecordHead) (kind : CompositeRecord)
      (typeRef : Option TypeRef) (body : FlatBody)

namespace Node

def inside : Node → SymbolPath
  | .template t => SymbolPath.empty.push t.name
  | .owning outside head _ _ _ => outside.push head.name
  | .flattened outside head _ _ _ => outside.push head.name

def fields? : Node → Option (List FieldInstruction)
  | .template t => some t.fields
  | .owning _ _ _ _ fields => some fields
  | .flattened _ _ _ _ _ => none

def record? : Node → Option FieldInstruction
  | .template _ => none
  | .owning _ head kind typeRef fields => some (.owning head kind typeRef fields)
  | .flattened _ head kind typeRef body => some (.flattened head kind typeRef body)

def array (n : Node) : String := arraySymbol n.inside

def array? (n : Node) : Option (String × List String) :=
  n.fields?.map fun fields => (n.array, fields.map (recordSymbol n.inside))

def instruction (unit : String) : Node → Statement
  | .template t => templateStatement (arraySymbol (SymbolPath.empty.push t.name)) t
  | .owning outside head kind typeRef fields =>
    compositeStatement (outside.push head.name) outside head kind typeRef
      (ownArguments (arraySymbol (outside.push head.name)) fields.length)
  | .flattened outside head kind typeRef body =>
    compositeStatement (outside.push head.name) outside head kind typeRef
      (flatArguments unit body)

def lead : Node → List Statement
  | .template _ => []
  | .owning outside head kind _ _ => leadStatements (outside.push head.name) head.name kind
  | .flattened outside head kind _ _ => leadStatements (outside.push head.name) head.name kind

def content (unit : String) (n : Node) : List Statement :=
  match n.fields? with
  | some fields =>
    fields.flatMap (recordStatements unit n.inside) ++
      [.array n.array (fields.map (recordSymbol n.inside))]
  | none => []

/-- All that stands in the file for the node. -/
def block (unit : String) (n : Node) : List Statement :=
  n.lead ++ n.content unit ++ [n.instruction unit]

end Node

namespace Statement

def array? : Statement → Option (String × List String)
  | .array symbol entries => some (symbol, entries)
  | _ => none

end Statement

end Tables

mutual

/-- The composites in a record, each after those inside it. -/
def FieldInstruction.nodes (path : SymbolPath) : FieldInstruction → List Tables.Node
  | .leaf _ _ => []
  | .owning head kind typeRef fields =>
    FieldInstruction.nodesIn (path.push head.name) fields ++
      [.owning path head kind typeRef fields]
  | .flattened head kind typeRef body => [.flattened path head kind typeRef body]

def FieldInstruction.nodesIn (path : SymbolPath) : List FieldInstruction → List Tables.Node
  | [] => []
  | record :: records =>
    FieldInstruction.nodes path record ++ FieldInstruction.nodesIn path records

end

def TemplateInstruction.nodes (t : TemplateInstruction) : List Tables.Node :=
  FieldInstruction.nodesIn (SymbolPath.empty.push t.name) t.fields ++ [.template t]

namespace Tables

/-! ## Blocks -/

theorem recordsStatements_eq_flatMap (unit : String) (path : SymbolPath)
    (records : List FieldInstruction) :
    recordsStatements unit path records = records.flatMap (recordStatements unit path) := by
  induction records with
  | nil => rfl
  | cons record records ih => rw [recordsStatements, ih, List.flatMap_cons]

theorem recordStatements_owning (unit : String) (path : SymbolPath) (head : RecordHead)
    (kind : CompositeRecord) (typeRef : Option TypeRef) (fields : List FieldInstruction) :
    recordStatements unit path (.owning head kind typeRef fields) =
      (Node.owning path head kind typeRef fields).block unit := by
  simp [recordStatements, recordsStatements_eq_flatMap, Node.block, Node.lead, Node.content,
    Node.fields?, Node.inside, Node.array, Node.instruction]

theorem recordStatements_flattened (unit : String) (path : SymbolPath) (head : RecordHead)
    (kind : CompositeRecord) (typeRef : Option TypeRef) (body : FlatBody) :
    recordStatements unit path (.flattened head kind typeRef body) =
      (Node.flattened path head kind typeRef body).block unit := by
  simp [recordStatements, Node.block, Node.lead, Node.content, Node.fields?, Node.instruction]

theorem statements_ofTemplate (unit : String) (t : TemplateInstruction) :
    (Function.ofTemplate unit t).statements = (Node.template t).block unit := by
  simp [Function.ofTemplate, recordsStatements_eq_flatMap, Node.block, Node.lead, Node.content,
    Node.fields?, Node.inside, Node.array, Node.instruction]

/-- The statements of the fields of a node stand in the block of the node. -/
theorem recordsStatements_infix_block (unit : String) {n : Node} {fields : List FieldInstruction}
    (h : n.fields? = some fields) : recordsStatements unit n.inside fields <:+: n.block unit := by
  refine ⟨n.lead, [.array n.array (fields.map (recordSymbol n.inside)), n.instruction unit], ?_⟩
  simp [Node.block, Node.content, h, recordsStatements_eq_flatMap]

mutual

theorem block_infix_recordStatements (unit : String) (path : SymbolPath)
    (record : FieldInstruction) : ∀ n ∈ record.nodes path,
      n.block unit <:+: recordStatements unit path record := by
  cases record with
  | leaf head payload => simp [FieldInstruction.nodes]
  | owning head kind typeRef fields =>
      rw [recordStatements_owning]
      simp only [FieldInstruction.nodes, List.forall_mem_append, List.forall_mem_singleton]
      refine ⟨fun n hn => ?_, List.infix_rfl⟩
      have hcontent := recordsStatements_infix_block unit
        (n := .owning path head kind typeRef fields) rfl
      exact (block_infix_recordsStatements unit (path.push head.name) fields n hn).trans hcontent
  | flattened head kind typeRef body =>
      rw [recordStatements_flattened]
      simp only [FieldInstruction.nodes, List.forall_mem_singleton]
      exact List.infix_rfl

theorem block_infix_recordsStatements (unit : String) (path : SymbolPath)
    (records : List FieldInstruction) : ∀ n ∈ FieldInstruction.nodesIn path records,
      n.block unit <:+: recordsStatements unit path records := by
  cases records with
  | nil => simp [FieldInstruction.nodesIn]
  | cons record records =>
      simp only [FieldInstruction.nodesIn, List.forall_mem_append, recordsStatements]
      refine ⟨fun n hn => ?_, fun n hn => ?_⟩
      · exact (block_infix_recordStatements unit path record n hn).trans
          (List.prefix_append _ _).isInfix
      · exact (block_infix_recordsStatements unit path records n hn).trans
          (List.suffix_append _ _).isInfix

end

/-- What the file has for a node of a template stands together in the function of the template. -/
theorem block_infix_ofTemplate (unit : String) (t : TemplateInstruction) :
    ∀ n ∈ t.nodes, n.block unit <:+: (Function.ofTemplate unit t).statements := by
  rw [statements_ofTemplate]
  simp only [TemplateInstruction.nodes, List.forall_mem_append, List.forall_mem_singleton]
  refine ⟨fun n hn => ?_, List.infix_rfl⟩
  have hcontent := recordsStatements_infix_block unit (n := .template t) rfl
  exact (block_infix_recordsStatements unit (SymbolPath.empty.push t.name) t.fields n hn).trans
    hcontent

/-! ## Arrays -/

@[simp] theorem array?_static (declarator symbol : String) (args : List Argument) :
    (Statement.static declarator symbol args).array? = none := rfl

theorem arrays_contextStatements (path : SymbolPath) (stem : String) (op : OperatorRecord) :
    (contextStatements path stem op).filterMap Statement.array? = [] := by
  unfold contextStatements
  cases op.context <;> rfl

theorem LeafLayout.arrays {path : SymbolPath} {head : RecordHead} {payload : LeafPayload}
    {statements : List Statement} (h : LeafLayout path head payload statements) :
    statements.filterMap Statement.array? = [] := by
  cases h <;>
    simp only [List.filterMap_append, arrays_contextStatements, List.filterMap_cons,
      array?_static, List.filterMap_nil, List.append_nil]

theorem arrays_leadStatements (inside : SymbolPath) (name : String) (kind : CompositeRecord) :
    (leadStatements inside name kind).filterMap Statement.array? = [] := by
  cases kind with
  | group => rfl
  | sequence length =>
      simp only [leadStatements, lengthStatements, List.filterMap_append,
        arrays_contextStatements, List.filterMap_cons, array?_static, List.filterMap_nil,
        List.append_nil]

theorem Node.arrays_lead (n : Node) : n.lead.filterMap Statement.array? = [] := by
  cases n with
  | template t => rfl
  | owning outside head kind typeRef fields => exact arrays_leadStatements _ _ kind
  | flattened outside head kind typeRef body => exact arrays_leadStatements _ _ kind

theorem Node.array?_instruction (unit : String) (n : Node) :
    (n.instruction unit).array? = none := by
  cases n <;> rfl

/-- A block has the arrays of what is inside the node, and after them the array of the node. -/
theorem Node.arrays_block (unit : String) (n : Node) :
    (n.block unit).filterMap Statement.array? =
      (n.fields?.getD []).flatMap (fun record =>
        (recordStatements unit n.inside record).filterMap Statement.array?) ++ n.array?.toList := by
  cases h : n.fields? with
  | none =>
      simp [Node.block, Node.content, h, List.filterMap_append, n.arrays_lead,
        n.array?_instruction, Node.array?]
  | some fields =>
      simp only [Node.block, Node.content, h, List.filterMap_append, n.arrays_lead,
        List.filterMap_flatMap, List.filterMap_cons, n.array?_instruction, List.filterMap_nil,
        Node.array?, List.nil_append, List.append_nil, Option.getD_some, Option.map_some]
      rfl

mutual

/-- The arrays among the statements of a record are those of its nodes. -/
theorem arrays_recordStatements (unit : String) (path : SymbolPath) (record : FieldInstruction) :
    (recordStatements unit path record).filterMap Statement.array? =
      (record.nodes path).filterMap Node.array? := by
  cases record with
  | leaf head payload =>
      rw [recordStatements, (leafLayout unit path head payload).arrays, FieldInstruction.nodes]
      rfl
  | owning head kind typeRef fields =>
      have hfields := arrays_recordsStatements unit (path.push head.name) fields
      rw [recordsStatements_eq_flatMap, List.filterMap_flatMap] at hfields
      rw [recordStatements_owning, Node.arrays_block, FieldInstruction.nodes,
        List.filterMap_append, ← hfields]
      rfl
  | flattened head kind typeRef body =>
      rw [recordStatements_flattened, Node.arrays_block, FieldInstruction.nodes]
      rfl

theorem arrays_recordsStatements (unit : String) (path : SymbolPath)
    (records : List FieldInstruction) :
    (recordsStatements unit path records).filterMap Statement.array? =
      (FieldInstruction.nodesIn path records).filterMap Node.array? := by
  cases records with
  | nil => rfl
  | cons record records =>
      simp only [recordsStatements, FieldInstruction.nodesIn, List.filterMap_append,
        arrays_recordStatements, arrays_recordsStatements]

end

/-- A function has one array for each node of its template with fields of its own. -/
theorem arrays_ofTemplate (unit : String) (t : TemplateInstruction) :
    (Function.ofTemplate unit t).statements.filterMap Statement.array? =
      t.nodes.filterMap Node.array? := by
  have hfields := arrays_recordsStatements unit (SymbolPath.empty.push t.name) t.fields
  rw [recordsStatements_eq_flatMap, List.filterMap_flatMap] at hfields
  rw [statements_ofTemplate, Node.arrays_block, TemplateInstruction.nodes, List.filterMap_append,
    ← hfields]
  rfl

/-! ## Entries -/

theorem LeafLayout.own {path : SymbolPath} {head : RecordHead} {payload : LeafPayload}
    {statements : List Statement} (h : LeafLayout path head payload statements) :
    ∃ before declarator rest, statements = before ++
      [.static declarator (leafSymbol path head payload)
        (.bare (.number head.index) :: rest)] := by
  cases h with
  | value declarator hop hrest =>
      have hsymbol : leafSymbol path head payload = path.symbol (head.name ++ "_instruction") := by
        cases payload with
        | reference target => cases hop
        | _ => rfl
      rw [hsymbol]
      exact ⟨_, _, _, rfl⟩
  | split => exact ⟨_, _, _, rfl⟩
  | reference target declarator hrest => exact ⟨[], _, _, rfl⟩

/-- The statements of a record end with its own instruction, whose first argument is the position
of the record. -/
theorem own_recordStatements (unit : String) (path : SymbolPath) (record : FieldInstruction) :
    ∃ before declarator rest, recordStatements unit path record = before ++
      [.static declarator (recordSymbol path record)
        (.bare (.number record.head.index) :: rest)] := by
  cases record with
  | leaf head payload =>
      rw [recordStatements]
      exact (leafLayout unit path head payload).own
  | owning head kind typeRef fields =>
      rw [recordStatements_owning]
      exact ⟨_, _, _, rfl⟩
  | flattened head kind typeRef body =>
      rw [recordStatements_flattened]
      exact ⟨_, _, _, rfl⟩

theorem FieldInstruction.NumberedFrom.index_of_getElem? {index : Nat}
    {records : List FieldInstruction} (h : FieldInstruction.NumberedFrom index records) {i : Nat}
    {record : FieldInstruction} (hi : records[i]? = some record) :
    record.head.index = index + i := by
  induction records generalizing index i with
  | nil => simp at hi
  | cons first records ih =>
      obtain ⟨hfirst, hrest⟩ := h
      cases i with
      | zero =>
          obtain rfl : first = record := by simpa using hi
          cases first with
          | leaf head payload => exact hfirst
          | owning head kind typeRef fields => exact hfirst.1
          | flattened head kind typeRef body => exact hfirst
      | succ i =>
          rw [ih hrest (by simpa using hi)]
          omega

mutual

theorem numberedFrom_of_mem_nodes {path : SymbolPath} {record : FieldInstruction} {index : Nat}
    (h : record.NumberedAt index) : ∀ n ∈ record.nodes path, ∀ fields, n.fields? = some fields →
      FieldInstruction.NumberedFrom 0 fields := by
  cases record with
  | leaf head payload => simp [FieldInstruction.nodes]
  | owning head kind typeRef fields =>
      simp only [FieldInstruction.nodes, List.forall_mem_append, List.forall_mem_singleton]
      refine ⟨numberedFrom_of_mem_nodesIn h.2, fun own hown => ?_⟩
      obtain rfl : fields = own := by simpa [Node.fields?] using hown
      exact h.2
  | flattened head kind typeRef body =>
      simp [FieldInstruction.nodes, Node.fields?]

theorem numberedFrom_of_mem_nodesIn {path : SymbolPath} {records : List FieldInstruction}
    {index : Nat} (h : FieldInstruction.NumberedFrom index records) :
    ∀ n ∈ FieldInstruction.nodesIn path records, ∀ fields, n.fields? = some fields →
      FieldInstruction.NumberedFrom 0 fields := by
  cases records with
  | nil => simp [FieldInstruction.nodesIn]
  | cons record records =>
      simp only [FieldInstruction.nodesIn, List.forall_mem_append]
      exact ⟨numberedFrom_of_mem_nodes h.1, numberedFrom_of_mem_nodesIn h.2⟩

end

/-- In a report whose records stand at their own positions this is so inside every node. -/
theorem TemplateInstruction.numberedFrom_of_mem_nodes {t : TemplateInstruction}
    (h : FieldInstruction.NumberedFrom 0 t.fields) : ∀ n ∈ t.nodes, ∀ fields,
      n.fields? = some fields → FieldInstruction.NumberedFrom 0 fields := by
  simp only [TemplateInstruction.nodes, List.forall_mem_append, List.forall_mem_singleton]
  refine ⟨numberedFrom_of_mem_nodesIn h, fun own hown => ?_⟩
  obtain rfl : t.fields = own := by simpa [Node.fields?] using hown
  exact h

/-! ## Arguments of composites -/

def kindArguments (inside : SymbolPath) (name : String) : CompositeRecord → List Argument
  | .group => []
  | .sequence _ => [.noted "length" (.address (lengthSymbol inside name))]

theorem compositeStatement_eq_static (inside outside : SymbolPath) (head : RecordHead)
    (kind : CompositeRecord) (typeRef : Option TypeRef) (body : List Argument) :
    ∃ declarator, compositeStatement inside outside head kind typeRef body =
      .static declarator (outside.symbol (head.name ++ "_instruction"))
        (headArguments head none ++ [.noted "dictionary" (.text head.dictionary)] ++ body ++
          (kindArguments inside head.name kind ++ typeRefArguments typeRef)) := by
  refine ⟨_, congrArg (Statement.static _ _) ?_⟩
  cases kind <;> simp [kindArguments]

theorem punctuate_append (last : String) (items : List String) {rest : List String}
    (h : rest ≠ []) :
    Cpp.punctuate last (items ++ rest) = items.map (· ++ ",") ++ Cpp.punctuate last rest := by
  induction items with
  | nil => rfl
  | cons item items ih =>
      have hne : items ++ rest ≠ [] := by simp [h]
      obtain ⟨next, after, hnext⟩ := List.exists_cons_of_ne_nil hne
      rw [List.map_cons, List.cons_append, List.cons_append, ← ih, hnext]
      rfl

def argumentLine (arg : Argument) : String :=
  "  " ++ (arg.expr.render ++ ",") ++ (arg.note.map (" // " ++ ·)).getD ""

theorem lines_append (args : List Argument) {rest : List Argument} (h : rest ≠ []) :
    Argument.lines (args ++ rest) = args.map argumentLine ++ Argument.lines rest := by
  have hlength : (args.map fun arg => arg.expr.render ++ ",").length = args.length := by simp
  rw [Argument.lines, List.map_append, punctuate_append _ _ (by simpa using h), List.map_map]
  simp only [Function.comp_def]
  rw [List.zipWith_append hlength, Argument.lines, List.zipWith_map_left, List.zipWith_self]
  rfl

theorem argumentLine_bare (e : Expr) : argumentLine (.bare e) = "  " ++ e.render ++ "," := by
  simp [argumentLine, Argument.bare, String.append_assoc]

theorem argumentLine_noted (note : String) (e : Expr) :
    argumentLine (.noted note e) = "  " ++ e.render ++ (", // " ++ note) := by
  simp only [argumentLine, Argument.noted, Option.map_some, Option.getD_some, String.append_assoc]
  rw [← String.append_assoc]
  rfl

@[simp] theorem render_number (n : Nat) : (Expr.number n).render = toString n := rfl

@[simp] theorem render_array (symbol : String) : (Expr.array symbol).render = symbol := rfl

theorem lines_ownArguments (array : String) (numFields : Nat) (before : List Argument)
    {after : List Argument} (h : after ≠ []) :
    ["  " ++ array ++ ",", "  " ++ toString numFields ++ ", // num_fields"] <:+:
      Argument.lines (before ++ ownArguments array numFields ++ after) := by
  have hown : (ownArguments array numFields).map argumentLine =
      ["  " ++ array ++ ",", "  " ++ toString numFields ++ (", // " ++ "num_fields")] := by
    rw [ownArguments, List.map_cons, List.map_cons, List.map_nil, argumentLine_bare,
      argumentLine_noted, render_array, render_number]
  rw [lines_append _ h, List.map_append, hown]
  exact List.infix_append _ _ _

end Tables

end FastSchema
