import FastSchema.Proofs.Cpp.SymbolPath
import FastSchema.Proofs.Tables.Declarations

/-! # The names of statics

Which names the statics of a node have, said about its fields. A static of the node itself has a
label; the statics inside a composite have the name of the composite and two underscores before
their own. -/

namespace FastSchema

open Cpp (SymbolPath)
open Fallible (bind_eq_ok map_eq_ok)

/-! ## Labels -/

/-- What a static of a node is. -/
inductive Role where
  | instruction
  | context
deriving DecidableEq

def Role.suffix : Role → String
  | .instruction => "_instruction"
  | .context => "_opContext"

/-- The name of a static inside the node that it belongs to, apart from an array. -/
structure Label where
  stem : String
  role : Role
deriving DecidableEq

def Label.text (l : Label) : String := l.stem ++ l.role.suffix

def contextLabels (stem : String) (operator : Option Operator) : List Label :=
  if (OperatorRecord.ofOperator operator).context.isSome then [⟨stem, .context⟩] else []

namespace Field

/-- The labels that a field has under its own name. -/
def ownLabels : Field → List Label
  | .leaf _ (.reference _) => []
  | .leaf head content => contextLabels head.name content.operator? ++ [⟨head.name, .instruction⟩]
  | .composite head _ _ _ => [⟨head.name, .instruction⟩]

/-- The labels that a field at position `index` has under other names. -/
def otherLabels (index : Nat) : Field → List Label
  | .leaf head (.decimal (.split mantissa exponent)) =>
    contextLabels (head.name ++ "_mantissa") mantissa ++
      [⟨head.name ++ "_mantissa", .instruction⟩] ++
      contextLabels (head.name ++ "_exponent") exponent
  | .leaf _ (.reference _) => [⟨"templateref" ++ toString index, .instruction⟩]
  | _ => []

def labels (index : Nat) (field : Field) : List Label :=
  field.otherLabels index ++ field.ownLabels

end Field

def CompositeKind.labels (name : String) : CompositeKind → List Label
  | .group => []
  | .sequence length =>
    contextLabels (name ++ "_length") (length.bind Length.operator) ++
      [⟨name ++ "_length", .instruction⟩]

mutual

/-- The names of the statics inside a field. -/
def Field.innerNames : Field → List String
  | .leaf _ _ => []
  | .composite head kind _ fields =>
    (kind.labels head.name).map Label.text ++
      if (soleReference? fields).isSome then []
      else Field.namesIn 0 fields ++ ["subinstructions"]

def Field.namesIn (index : Nat) : List Field → List String
  | [] => []
  | field :: fields =>
    field.innerNames.map (field.head.name ++ "__" ++ ·) ++
      (field.labels index).map Label.text ++ Field.namesIn (index + 1) fields

end

/-- The names of the statics of a field at position `index`. -/
def Field.names (index : Nat) (field : Field) : List String :=
  field.innerNames.map (field.head.name ++ "__" ++ ·) ++ (field.labels index).map Label.text

theorem Field.names_composite (index : Nat) (head : FieldHead) (kind : CompositeKind)
    (typeRef : Option TypeRef) (fields : List Field) :
    (composite head kind typeRef fields).names index =
      (composite head kind typeRef fields).innerNames.map (head.name ++ "__" ++ ·) ++
        [head.name ++ "_instruction"] := rfl

namespace Tables

/-! ## Declared statics -/

theorem map_symbol_contextLabels (path : SymbolPath) (stem : String)
    (operator : Option Operator) :
    (contextLabels stem operator).map (path.symbol ·.text) =
      contextSymbols path stem (OperatorRecord.ofOperator operator) := by
  unfold contextLabels contextSymbols
  cases (OperatorRecord.ofOperator operator).context <;> rfl

theorem LeafLayout.declared_of_operator {path : SymbolPath} {head : RecordHead}
    {payload : LeafPayload} {statements : List Statement} {op : OperatorRecord}
    (h : LeafLayout path head payload statements) (hop : payload.operator? = some op) :
    declared (linesOf statements) = contextSymbols path head.name op ++
      [path.symbol (head.name ++ "_instruction")] := by
  cases h with
  | value declarator hown hrest =>
      obtain rfl := Option.some_inj.mp (hown.symm.trans hop)
      simp [linesOf_append, declared_append]
  | split => cases hop
  | reference => cases hop

theorem LeafLayout.declared_of_split {path : SymbolPath} {head : RecordHead}
    {mantissaOp exponentOp : OperatorRecord} {mantissaInitial : Option Int64}
    {exponentInitial : Option Int32} {statements : List Statement}
    (h : LeafLayout path head
      (.splitDecimal mantissaOp mantissaInitial exponentOp exponentInitial) statements) :
    declared (linesOf statements) = contextSymbols path (head.name ++ "_mantissa") mantissaOp ++
      [path.symbol (head.name ++ "_mantissa" ++ "_instruction")] ++
      contextSymbols path (head.name ++ "_exponent") exponentOp ++
      [path.symbol (head.name ++ "_instruction")] := by
  cases h with
  | value declarator hop hrest => cases hop
  | split =>
      simp only [linesOf_append, declared_append, declared_contextStatements, linesOf_singleton,
        declared_static]

theorem LeafLayout.declared_of_reference {path : SymbolPath} {head : RecordHead}
    {target : Option Target} {statements : List Statement}
    (h : LeafLayout path head (.reference target) statements) :
    declared (linesOf statements) =
      [path.symbol ("templateref" ++ toString head.index ++ "_instruction")] := by
  cases h with
  | value declarator hop hrest => cases hop
  | reference => simp

/-- The statics of a leaf have the labels of the field. -/
theorem declared_leafStatements {unit : String} (path : SymbolPath) {recordHead : RecordHead}
    {head : FieldHead} {content : Leaf} {index : Nat} {payload : LeafPayload}
    {resolve : Reference → Except Fault (Option Target)}
    (hpayload : content.HasPayload resolve head payload)
    (hhead : head.record index = .ok recordHead) :
    declared (linesOf (leafStatements unit path recordHead payload)) =
      ((Field.leaf head content).labels index).map (path.symbol ·.text) := by
  obtain ⟨hindex, -, hname⟩ := FieldHead.record_eq_ok hhead
  have hlayout := leafLayout unit path recordHead payload
  have hvalue : ∀ operator, payload.operator? = some (OperatorRecord.ofOperator operator) →
      declared (linesOf (leafStatements unit path recordHead payload)) =
        (contextLabels head.name operator ++ [(⟨head.name, .instruction⟩ : Label)]).map
          (path.symbol ·.text) := by
    intro operator hop
    rw [hlayout.declared_of_operator hop, List.map_append, map_symbol_contextLabels, hname]
    rfl
  cases hpayload with
  | integer hinitial => exact hvalue _ rfl
  | unicode hcharset hlength => exact hvalue _ rfl
  | ascii hcharset => exact hvalue _ rfl
  | decimal hinitial => exact hvalue _ rfl
  | splitDecimal hmantissa hexponent =>
      rw [hlayout.declared_of_split, hname]
      simp only [Field.labels, Field.otherLabels, List.map_append, map_symbol_contextLabels]
      rfl
  | byteVector hinitial hlength => exact hvalue _ rfl
  | reference htarget =>
      rw [hlayout.declared_of_reference, hindex]
      rfl

theorem declared_leadStatements (inside : SymbolPath) {head : FieldHead} {kind : CompositeKind}
    {record : CompositeRecord} (h : kind.record head = .ok record) :
    declared (linesOf (leadStatements inside head.name record)) =
      (kind.labels head.name).map (inside.symbol ·.text) := by
  cases kind with
  | group =>
      cases h
      rfl
  | sequence length =>
      obtain ⟨l, hl, rfl⟩ := map_eq_ok h
      have hop : l.op = OperatorRecord.ofOperator (length.bind Length.operator) := by
        cases length with
        | none =>
            cases hl
            rfl
        | some declaration =>
            obtain ⟨initial, _, hl⟩ := bind_eq_ok hl
            obtain ⟨id, _, hl⟩ := bind_eq_ok hl
            cases hl
            rfl
      simp only [leadStatements, lengthStatements, linesOf_append, declared_append,
        declared_contextStatements, linesOf_singleton, declared_static, CompositeKind.labels,
        List.map_append, map_symbol_contextLabels, hop]
      simp [lengthSymbol, Label.text, Role.suffix, String.append_assoc]

theorem declared_compositeStatement (inside outside : SymbolPath) (head : RecordHead)
    (kind : CompositeRecord) (typeRef : Option TypeRef) (body : List Argument) :
    declared (compositeStatement inside outside head kind typeRef body).lines =
      [outside.symbol (head.name ++ "_instruction")] := declared_static _ _ _

mutual

/-- The statics of a record have the names that its field gives them. -/
theorem declared_recordStatements (unit : String) (path : SymbolPath) {known : Registry}
    {cx : Context} {index : Nat} {field : Field} {record : FieldInstruction}
    (h : field.instruction known cx index = .ok record) :
    declared (linesOf (recordStatements unit path record)) =
      (field.names index).map path.symbol := by
  cases field with
  | leaf head content =>
      obtain ⟨recordHead, payload, hhead, hpayload, rfl⟩ := Field.leaf_instruction_eq_ok h
      rw [recordStatements, declared_leafStatements path hpayload hhead]
      simp [Field.names, Field.innerNames, Function.comp_def]
  | composite head kind typeRef fields =>
      obtain ⟨recordHead, kindRecord, hhead, hkind, h⟩ := Field.composite_instruction_eq_ok h
      obtain ⟨-, -, hname⟩ := FieldHead.record_eq_ok hhead
      rcases h with ⟨r, target, hsole, _, rfl⟩ | ⟨children, hsole, hchildren, rfl⟩
      · simp only [recordStatements, hname, linesOf_append, declared_append, linesOf_singleton,
          declared_compositeStatement, declared_leadStatements _ hkind, Field.names_composite,
          Field.innerNames, hsole, SymbolPath.symbol_push, List.map_append, List.map_map]
        simp [Function.comp_def]
      · have hfields : declared (linesOf (recordsStatements unit (path.push head.name) children)) =
            (Field.namesIn 0 fields).map fun s => path.symbol (head.name ++ "__" ++ s) := by
          simp only [declared_recordsStatements unit (path.push head.name) hchildren,
            ← SymbolPath.symbol_push]
        simp only [recordStatements, hname, linesOf_append, declared_append, hfields, linesOf_cons,
          linesOf_nil, declared_nil, declared_array, declared_compositeStatement, arraySymbol,
          declared_leadStatements _ hkind, Field.names_composite, Field.innerNames, hsole,
          SymbolPath.symbol_push, List.map_append, List.map_map]
        simp [Function.comp_def]

theorem declared_recordsStatements (unit : String) (path : SymbolPath) {known : Registry}
    {cx : Context} {index : Nat} {fields : List Field} {records : List FieldInstruction}
    (h : Field.instructions known cx index fields = .ok records) :
    declared (linesOf (recordsStatements unit path records)) =
      (Field.namesIn index fields).map path.symbol := by
  cases fields with
  | nil =>
      obtain rfl := Field.instructions_nil_eq_ok h
      rfl
  | cons field fields =>
      obtain ⟨record, rest, hrecord, hrest, rfl⟩ := Field.instructions_cons_eq_ok h
      rw [recordsStatements, linesOf_append, declared_append,
        declared_recordStatements unit path hrecord, declared_recordsStatements unit path hrest,
        ← List.map_append]
      rfl

end

end Tables

end FastSchema
