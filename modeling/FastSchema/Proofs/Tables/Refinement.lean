import FastSchema.Proofs.Cpp.FrameStack
import FastSchema.Proofs.Instruction.Recursion
import FastSchema.Proofs.Tables.Statements

/-! # The table walk refines the recursion

A walk over a field, from any state with an open frame, writes exactly the statements of the record
that the recursion answers and adds that record to the innermost frame; all stacks are left as they
were. Where the recursion stops, the walk stops with the same fault. -/

namespace FastSchema.Tables

open Cpp (Entry FrameStack SymbolPath)
open Cpp.FrameStack (appendList_appendList)

variable (unit : String)

/-! ## States -/

def recordEntry (path : SymbolPath) (record : FieldInstruction) : Entry :=
  ⟨recordSymbol path record, record⟩

/-- The state after the records have been written as fields of the innermost open node. -/
def State.extend (s : State) (records : List FieldInstruction) : State :=
  { s with
    frames := s.frames.extend (records.map (recordEntry s.symbols))
    statements := s.statements ++ recordsStatements unit s.symbols records }

@[simp] theorem State.extend_nil (s : State) : s.extend unit [] = s := by
  simp [State.extend, recordsStatements]

theorem State.extend_cons (s : State) (record : FieldInstruction)
    (records : List FieldInstruction) :
    (s.extend unit [record]).extend unit records = s.extend unit (record :: records) := by
  simp only [State.extend, FrameStack.extend_extend, appendList_appendList, recordsStatements,
    List.append_nil, List.map_cons, List.map_nil, List.singleton_append]

@[simp] theorem map_record_recordEntry (path : SymbolPath) (records : List FieldInstruction) :
    (records.map (recordEntry path)).map Entry.record = records := by
  simp [Function.comp_def, recordEntry]

@[simp] theorem map_symbol_recordEntry (path : SymbolPath) (records : List FieldInstruction) :
    (records.map (recordEntry path)).map Entry.symbol = records.map (recordSymbol path) := by
  simp [Function.comp_def, recordEntry]

/-! ## Steps -/

@[simp] theorem result_emit (statements : List Statement) (s : State) :
    (emit statements).result s =
      pure ((), { s with statements := s.statements ++ statements }) := rfl

@[simp] theorem result_pushSymbol (name : String) (s : State) :
    (pushSymbol name).result s = pure ((), { s with symbols := s.symbols.push name }) := rfl

@[simp] theorem result_popSymbol (registry : Registry) (path : SymbolPath) (name : String)
    (frames : FrameStack) (templates : Array TemplateInstruction)
    (statements : Array Statement) :
    popSymbol.result ⟨registry, path.push name, frames, templates, statements⟩ =
      pure ((), ⟨registry, path, frames, templates, statements⟩) := rfl

@[simp] theorem result_openFrame (s : State) :
    openFrame.result s = pure ((), { s with frames := s.frames.openFrame }) := rfl

theorem result_append (symbol : String) (record : FieldInstruction) {s : State}
    (h : 0 < s.frames.depth) :
    (append symbol record).result s =
      pure ((), { s with frames := s.frames.extend [⟨symbol, record⟩] }) := by
  rw [append, Fallible.result_on, FrameStack.append_eq_extend h]
  rfl

/-- The fields of a node are closed with the records that were added inside it. The array lists
their symbols in order, and the count is that of the document. -/
theorem result_closeFields (miscount : Nat → Misuse) (registry : Registry) (path : SymbolPath)
    (name : String) (frames : FrameStack) (templates : Array TemplateInstruction)
    (statements : Array Statement) {records : List FieldInstruction} {numFields : Nat}
    (h : records.length = numFields) :
    (closeFields miscount numFields).result
        ⟨registry, path.push name,
          frames.openFrame.extend (records.map (recordEntry (path.push name))), templates,
          statements⟩ =
      pure ((arraySymbol (path.push name), records),
        ⟨registry, path, frames, templates,
          statements ++ [Statement.array (arraySymbol (path.push name))
            (records.map (recordSymbol (path.push name)))]⟩) := by
  subst h
  simp only [closeFields, closeFrame, FrameStack.closeFrame_extend_openFrame,
    Fallible.result_bind, Fallible.result_on, Fallible.ok_bind, pure_bind]
  simp [Cpp.Frame.size, Cpp.Frame.symbols, Cpp.Frame.records, -List.map_map]

theorem flatBody_eq (registry : Registry) (cx : Context) (r : Reference) (head : FieldHead)
    (kind : CompositeKind) :
    flatBody registry cx r (kind.slotPresence head) =
      registry.resolve cx r >>= fun target => pure (kind.flatBody head target) := by
  unfold flatBody
  cases registry.resolve cx r with
  | error fault => rfl
  | ok target => cases target <;> cases kind <;> rfl

/-! ## Calls of the visitor -/

theorem result_visitLeaf (head : FieldHead) (content : Leaf) (cx : Context) (index : Nat)
    {s : State} (h : 0 < s.frames.depth) :
    ((visitor unit).visitLeaf head content cx index).result s =
      (do
        let payload ← content.payload (s.registry.resolve cx) head
        let recordHead ← head.record index
        return ((), s.extend unit [.leaf recordHead payload]) : Except Fault (Unit × State)) := by
  simp [visitor, result_append, h, State.extend, recordsStatements, recordStatements,
    recordEntry, recordSymbol]

theorem result_enterComposite (c : Composite) (cx : Context) (index : Nat) (s : State) :
    ((visitor unit).enterComposite c cx index).result s =
      (do
        let kind ← c.kind.record c.head
        let inside := s.symbols.push c.head.name
        return (if c.soleReference?.isSome then .skip else .children,
          { s with
            symbols := inside
            frames := if c.soleReference?.isSome then s.frames else s.frames.openFrame
            statements := s.statements ++ leadStatements inside c.head.name kind }) :
        Except Fault (Descend × State)) := by
  simp only [visitor, Fallible.result_bind, result_pushSymbol, pure_bind, Fallible.result_lift,
    bind_assoc]
  congr 1
  funext kind
  cases kind with
  | group => cases c.soleReference? <;> simp [leadStatements]
  | sequence length => cases c.soleReference? <;> simp [leadStatements]

theorem result_exitComposite_owning {c : Composite} (cx : Context) (index : Nat)
    (registry : Registry) (path : SymbolPath) {frames : FrameStack}
    (templates : Array TemplateInstruction) (statements : Array Statement)
    {records : List FieldInstruction} {numFields : Nat} {kind : CompositeRecord}
    (hown : c.soleReference? = none) (hopen : 0 < frames.depth)
    (hlength : records.length = numFields) (hkind : c.kind.record c.head = .ok kind) :
    ((visitor unit).exitComposite c cx numFields index).result
        ⟨registry, path.push c.head.name,
          frames.openFrame.extend (records.map (recordEntry (path.push c.head.name))), templates,
          statements⟩ =
      (do
        let head ← c.head.record index
        let inside := path.push c.head.name
        return ((), ⟨registry, path,
          frames.extend [recordEntry path (.owning head kind c.typeRef records)], templates,
          statements ++
            [Statement.array (arraySymbol inside) (records.map (recordSymbol inside)),
             compositeStatement inside path head kind c.typeRef
              (ownArguments (arraySymbol inside) numFields)]⟩) :
        Except Fault (Unit × State)) := by
  simp [visitor, hkind, hown, result_closeFields, hlength, result_append, hopen, recordEntry,
    recordSymbol]

theorem result_exitComposite_flattened {c : Composite} {r : Reference} (cx : Context)
    (numFields index : Nat) (registry : Registry) (path : SymbolPath) {frames : FrameStack}
    (templates : Array TemplateInstruction) (statements : Array Statement)
    {kind : CompositeRecord} (hflat : c.soleReference? = some r) (hopen : 0 < frames.depth)
    (hkind : c.kind.record c.head = .ok kind) :
    ((visitor unit).exitComposite c cx numFields index).result
        ⟨registry, path.push c.head.name, frames, templates, statements⟩ =
      (do
        let target ← registry.resolve cx r
        let head ← c.head.record index
        let body := c.kind.flatBody c.head target
        return ((), ⟨registry, path,
          frames.extend [recordEntry path (.flattened head kind c.typeRef body)], templates,
          statements ++ [compositeStatement (path.push c.head.name) path head kind c.typeRef
            (flatArguments unit body)]⟩) : Except Fault (Unit × State)) := by
  simp [visitor, hkind, hflat, result_append, hopen, recordEntry, recordSymbol, flatBody_eq]

/-! ## Fields -/

/-- A composite that reduces to a reference: its field is not visited. -/
theorem result_walkField_flattened (cx : Context) (index : Nat) (head : FieldHead)
    (kind : CompositeKind) (typeRef : Option TypeRef) {fields : List Field} {r : Reference}
    (hbody : soleReference? fields = some r) {s : State} (h : 0 < s.frames.depth) :
    ((visitor unit).walkField cx index (.composite head kind typeRef fields)).result s =
      (Field.composite head kind typeRef fields).instruction s.registry cx index >>=
        fun record => pure ((), s.extend unit [record]) := by
  have hflat : (⟨head, kind, typeRef, fields⟩ : Composite).soleReference? = some r := hbody
  rw [Visitor.walkField, Field.instruction]
  simp only [Fallible.result_bind, result_enterComposite, hbody]
  cases hkind : kind.record head with
  | error fault => rfl
  | ok kindRecord =>
      simp only [hflat, Fallible.ok_bind, pure_bind, Option.isSome_some, if_true, reduceCtorEq,
        if_false, bind_assoc]
      rw [result_exitComposite_flattened unit _ _ _ _ _ _ _ hflat h hkind]
      congr 1
      funext target
      cases hhead : head.record index with
      | error fault => rfl
      | ok recordHead =>
          simp only [Fallible.ok_bind, State.extend, recordsStatements, recordStatements,
            List.map_cons, List.map_nil, List.append_nil, (FieldHead.record_eq_ok hhead).2.2,
            appendList_appendList]

/-- A composite with fields of its own, given that the walk over them refines the recursion. -/
theorem result_walkField_owning (cx : Context) (index : Nat) (head : FieldHead)
    (kind : CompositeKind) (typeRef : Option TypeRef) {fields : List Field}
    (hbody : soleReference? fields = none)
    (hfields : ∀ {s : State}, 0 < s.frames.depth →
      ((visitor unit).walkFields (cx.inherit head.attrs) 0 fields).result s =
        Field.instructions s.registry (cx.inherit head.attrs) 0 fields >>= fun records =>
          pure ((), s.extend unit records))
    {s : State} (h : 0 < s.frames.depth) :
    ((visitor unit).walkField cx index (.composite head kind typeRef fields)).result s =
      (Field.composite head kind typeRef fields).instruction s.registry cx index >>=
        fun record => pure ((), s.extend unit [record]) := by
  have hown : (⟨head, kind, typeRef, fields⟩ : Composite).soleReference? = none := hbody
  rw [Visitor.walkField, Field.instruction]
  simp only [Fallible.result_bind, result_enterComposite, hbody]
  cases hkind : kind.record head with
  | error fault => rfl
  | ok kindRecord =>
  simp only [hown, Fallible.ok_bind, pure_bind, Option.isSome_none, if_true, if_false,
    Bool.false_eq_true, Fallible.result_bind]
  rw [hfields (by simp)]
  cases hchildren : Field.instructions s.registry (cx.inherit head.attrs) 0 fields with
  | error fault => rfl
  | ok children =>
  -- The frame holds as many records as there are fields, so closing it meets no miscount.
  have hlength := Field.length_instructions hchildren
  simp only [Fallible.ok_bind, pure_bind, State.extend]
  rw [result_exitComposite_owning unit _ _ _ _ _ _ hown h hlength hkind]
  cases hhead : head.record index with
  | error fault => rfl
  | ok recordHead =>
      simp only [Fallible.ok_bind, pure_bind, recordsStatements, recordStatements, List.map_cons,
        List.map_nil, List.append_nil, hlength, List.append_assoc,
        (FieldHead.record_eq_ok hhead).2.2, appendList_appendList]

mutual

/-- A walk over a field adds the record that the recursion answers, and nothing else. -/
theorem result_walkField (cx : Context) (index : Nat) (field : Field) {s : State}
    (h : 0 < s.frames.depth) :
    ((visitor unit).walkField cx index field).result s =
      field.instruction s.registry cx index >>= fun record =>
        pure ((), s.extend unit [record]) := by
  cases field with
  | leaf head content =>
      simp [Visitor.walkField, result_visitLeaf unit _ _ _ _ h, Field.instruction]
  | composite head kind typeRef fields =>
      cases hbody : soleReference? fields with
      | some r => exact result_walkField_flattened unit cx index head kind typeRef hbody h
      | none =>
          exact result_walkField_owning unit cx index head kind typeRef hbody
            (fun hs => result_walkFields _ 0 fields hs) h

theorem result_walkFields (cx : Context) (index : Nat) (fields : List Field) {s : State}
    (h : 0 < s.frames.depth) :
    ((visitor unit).walkFields cx index fields).result s =
      Field.instructions s.registry cx index fields >>= fun records =>
        pure ((), s.extend unit records) := by
  cases fields with
  | nil => simp [Visitor.walkFields, Field.instructions]
  | cons field fields =>
      rw [Visitor.walkFields, Field.instructions]
      simp only [Fallible.result_bind, result_walkField cx index field h, bind_assoc, pure_bind]
      congr 1
      funext record
      -- The first field leaves the same frame open, so the others are walked from such a state.
      rw [result_walkFields cx (index + 1) fields (by simpa [State.extend] using h)]
      simp only [State.extend_cons]
      rfl

end

/-! ## Templates -/

/-- A walk over a template whose name is registered opens its function, writes its fields and
closes the function. -/
theorem result_walkTemplate (cx : Context) (index : Nat) (t : Template) (registry : Registry)
    (frames : FrameStack) (templates : Array TemplateInstruction) (statements : Array Statement)
    (h : (registry.lookup ⟨(cx.inherit t.attrs).ns, t.name⟩).isSome) :
    ((visitor unit).walkTemplate cx index t).result
        ⟨registry, .empty, frames, templates, statements⟩ =
      t.instruction registry cx index >>= fun record =>
        pure ((), ⟨registry, .empty, frames, templates ++ [record],
          statements ++ templateStatements unit record⟩) := by
  rw [Visitor.walkTemplate, Template.instruction]
  have henter : ((visitor unit).enterTemplate t (cx.inherit t.attrs) index).result
      ⟨registry, .empty, frames, templates, statements⟩ =
      pure (.children, ⟨registry, SymbolPath.empty.push t.name, frames.openFrame, templates,
        statements ++ [Statement.openTemplate t.name]⟩) := by
    simp [visitor, Registry.register_of_isSome _ h]
  simp only [Fallible.result_bind, henter, pure_bind, if_true]
  rw [result_walkFields unit _ _ _ (by simp)]
  cases hfields : Field.instructions registry (cx.inherit t.attrs) 0 t.fields with
  | error fault => rfl
  | ok fields =>
  have hlength := Field.length_instructions hfields
  simp only [Fallible.ok_bind, pure_bind, State.extend, visitor, Fallible.result_bind]
  rw [result_closeFields _ _ _ _ _ _ _ hlength]
  simp only [pure_bind, Fallible.result_lift, bind_assoc, result_emit]
  cases hrecord : t.record index fields with
  | error fault => rfl
  | ok record =>
      obtain ⟨_, hname, hown⟩ := Template.record_eq_ok hrecord
      subst hown
      simp only [Fallible.ok_bind, Fallible.result_modify, templateStatements, hname,
        appendList_appendList, List.cons_append, List.append_assoc, List.nil_append]
      rfl

/-- A walk over templates whose names are registered. -/
theorem result_walkTemplates (cx : Context) (index : Nat) (ts : List Template)
    (registry : Registry) (frames : FrameStack) (templates : Array TemplateInstruction)
    (statements : Array Statement)
    (h : ∀ t ∈ ts, (registry.lookup ⟨(cx.inherit t.attrs).ns, t.name⟩).isSome) :
    ((visitor unit).walkTemplates cx index ts).result
        ⟨registry, .empty, frames, templates, statements⟩ =
      Template.instructions registry cx index ts >>= fun records =>
        pure ((), ⟨registry, .empty, frames, templates ++ records,
          statements ++ records.flatMap (templateStatements unit)⟩) := by
  induction ts generalizing index templates statements with
  | nil => simp [Visitor.walkTemplates, Template.instructions]
  | cons t ts ih =>
      rw [Visitor.walkTemplates, Template.instructions, Fallible.result_bind,
        result_walkTemplate unit cx index t _ _ _ _ (h t (by simp))]
      simp only [bind_assoc, pure_bind]
      congr 1
      funext record
      rw [ih _ _ _ fun u hu => h u (by simp [hu])]
      simp only [appendList_appendList, List.flatMap_cons, List.singleton_append]

/-! ## Documents -/

/-- A walk over a document whose templates are registered writes the file of its report. -/
theorem result_walk (doc : Document) (digest : String) (registry : Registry)
    (h : ∀ q ∈ doc.qualifiedNames, (registry.lookup q).isSome) :
    ((visitor unit).walk doc).result (.start registry) =
      doc.metadata unit digest registry >>= fun m =>
        pure ((), ⟨registry, .empty, .empty, m.templates.toArray,
          (fileStatements m).toArray⟩) := by
  have hts : ∀ t ∈ doc.templates,
      (registry.lookup ⟨(doc.context.inherit t.attrs).ns, t.name⟩).isSome := fun t ht =>
    h _ (List.mem_map_of_mem ht)
  rw [Visitor.walk, Document.metadata, Document.instructions]
  have henter : ((visitor unit).enterDocument doc doc.context).result (.start registry) =
      pure ((), ⟨registry, .empty, .empty, #[], #[Statement.preamble unit]⟩) := by
    simp [visitor, State.start]
  simp only [Fallible.result_bind, henter, pure_bind]
  rw [result_walkTemplates unit _ _ _ _ _ _ _ hts]
  simp only [bind_assoc, pure_bind]
  congr 1
  funext records
  simp [visitor, FrameStack.empty, SymbolPath.empty, FrameStack.depth, fileStatements]

end FastSchema.Tables
