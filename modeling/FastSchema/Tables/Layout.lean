import FastSchema.Cpp.SymbolPath
import FastSchema.Tables.Statement

/-!
# Laying out records as statements

Which statements a record is written as. They depend on nothing but the record, the symbols of the
nodes around it, and the unit it is written in.
-/

namespace FastSchema.Tables

open Cpp (SymbolPath runtime)

/-- The context of an operator, declared under a symbol of the given stem if there is one. -/
def contextStatements (path : SymbolPath) (stem : String) (op : OperatorRecord) : List Statement :=
  match op.context with
  | some context => [.operatorContext (path.symbol (stem ++ "_opContext")) context]
  | none => []

def contextExpr (path : SymbolPath) (stem : String) (op : OperatorRecord) : Expr :=
  match op.context with
  | some _ => .address (path.symbol (stem ++ "_opContext"))
  | none => .null

def headArguments (head : RecordHead) (op : Option OperatorRecord) : List Argument :=
  [.bare (.number head.index)] ++
  (op.map fun op => Argument.bare (.operator op.kind)).toList ++
  [.bare (.presence head.presence),
   .noted "id" (.number head.id.toNat),
   .noted "name" (.text head.name),
   .noted "ns" (.text head.ns)]

def typeRefArguments (typeRef : Option TypeRef) : List Argument :=
  [.noted "typeRef name" (.text ((typeRef.map TypeRef.name).getD "")),
   .noted "typeRef ns" (.text ((typeRef.map TypeRef.ns).getD ""))]

/-- A length that is not declared has the id zero and an empty name. -/
def lengthArguments (length : Option LengthRecord) : List Argument :=
  [.noted "length id" (.number ((length.map LengthRecord.id).getD 0).toNat),
   .noted "length name" (.text ((length.map LengthRecord.name).getD "")),
   .noted "length ns" (.text ((length.map LengthRecord.ns).getD ""))]

/-- The symbol of the instruction of a leaf; that of a reference is named for its position. -/
def leafSymbol (path : SymbolPath) (head : RecordHead) : LeafPayload → String
  | .reference _ => path.symbol ("templateref" ++ toString head.index ++ "_instruction")
  | _ => path.symbol (head.name ++ "_instruction")

/-- The instruction of a leaf, after whatever it refers to. -/
def leafStatements (unit : String) (path : SymbolPath) (head : RecordHead)
    (payload : LeafPayload) : List Statement :=
  let symbol := leafSymbol path head payload
  let simple (declarator : String) (op : OperatorRecord) (rest : List Argument) :=
    contextStatements path head.name op ++
    [.static ("const static " ++ declarator ++ "_field_instruction") symbol
      (headArguments head (some op) ++
        .noted "opContext" (contextExpr path head.name op) :: rest)]
  match payload with
  | .integer type op initial =>
    simple type.name op
      [.noted "initial_value" (.intStorage type (initial.map (Constant.ofValue type)))]
  | .decimal op initial =>
    simple "decimal" op
      [.noted "initial_value" (.decimalStorage
        (initial.map fun d => (⟨d.mantissa.toInt, .ll⟩, ⟨d.exponent.toInt, .none⟩)))]
  | .splitDecimal mantissaOp mantissaInitial exponentOp exponentInitial =>
    let mantissa := head.name ++ "_mantissa"
    let exponent := head.name ++ "_exponent"
    let mantissaSymbol := path.symbol (mantissa ++ "_instruction")
    contextStatements path mantissa mantissaOp ++
    [.static "static mantissa_field_instruction" mantissaSymbol
      [.bare (.operator mantissaOp.kind),
       .noted "mantissa opContext" (contextExpr path mantissa mantissaOp),
       .noted "mantissa initial_value"
        (.intStorage .int64 (mantissaInitial.map fun m => ⟨m.toInt, .ll⟩))]] ++
    contextStatements path exponent exponentOp ++
    [.static "const static decimal_field_instruction" symbol
      (headArguments head (some exponentOp) ++
        [.noted "exponent opContext" (contextExpr path exponent exponentOp),
         .bare (.address mantissaSymbol),
         .noted "exponent initial_value" (.decimalStorage
          (exponentInitial.map fun e => (⟨0, .none⟩, ⟨e.toInt, .none⟩)))])]
  | .string .ascii op initial _ =>
    simple "ascii" op [.noted "initial_value" (.stringStorage initial)]
  | .string .unicode op initial length =>
    simple "unicode" op
      (.noted "initial_value" (.stringStorage initial) :: lengthArguments length)
  | .byteVector op initial length =>
    simple "byte_vector" op
      (.noted "initial_value" (.byteStorage initial) :: lengthArguments length)
  | .reference (some target) =>
    [.static ("const static " ++ runtime "templateref_instruction") symbol
      [.bare (.number head.index), .bare (.instructionOf (target.typeName unit))]]
  | .reference none =>
    [.static ("static " ++ runtime "templateref_instruction") symbol
      [.bare (.number head.index)]]

def lengthSymbol (path : SymbolPath) (sequence : String) : String :=
  path.symbol (sequence ++ "_length_instruction")

/-- The instruction of the length of a sequence, after the context of its operator. -/
def lengthStatements (path : SymbolPath) (sequence : String) (l : SequenceLength) :
    List Statement :=
  let stem := sequence ++ "_length"
  contextStatements path stem l.op ++
  [.static "static uint32_field_instruction" (lengthSymbol path sequence)
    (headArguments l.head (some l.op) ++
      [.noted "opContext" (contextExpr path stem l.op),
       .noted "initial_value"
        (.intStorage .uint32 (l.initial.map (Constant.ofValue .uint32)))])]

def arraySymbol (path : SymbolPath) : String := path.symbol "subinstructions"

def ownArguments (array : String) (numFields : Nat) : List Argument :=
  [.bare (.array array), .noted "num_fields" (.number numFields)]

def flatArguments (unit : String) : FlatBody → List Argument
  | .borrowed target =>
    [.bare (.subinstructionsOf (target.typeName unit)),
     .bare (.subinstructionCountOf (target.typeName unit))]
  | .slot presence =>
    [.bare (.slotSubinstructions presence), .noted "num_fields" (.number 1)]

/-- The instruction of a composite. `inside` leads to its inside, `outside` to the node that has
it, and `body` refers to its fields. -/
def compositeStatement (inside outside : SymbolPath) (head : RecordHead) (kind : CompositeRecord)
    (typeRef : Option TypeRef) (body : List Argument) : Statement :=
  let declarator :=
    match kind with
    | .group => "group"
    | .sequence _ => "sequence"
  let length : List Argument :=
    match kind with
    | .group => []
    | .sequence _ => [.noted "length" (.address (lengthSymbol inside head.name))]
  .static ("const static " ++ runtime declarator ++ "_field_instruction")
    (outside.symbol (head.name ++ "_instruction"))
    (headArguments head none ++ .noted "dictionary" (.text head.dictionary) :: body ++ length ++
      typeRefArguments typeRef)

/-- The end of the function of a template; `array` holds its fields. -/
def templateStatement (array : String) (t : TemplateInstruction) : Statement :=
  .closeTemplate t.name
    ([.noted "id" (.number t.id.toNat),
      .noted "name" (.text t.name),
      .noted "ns" (.text t.ns),
      .noted "templateNs" (.text t.templateNs),
      .noted "dictionary" (.text t.dictionary)] ++
      ownArguments array t.fields.length ++
      .noted "reset" (.boolean t.reset) :: typeRefArguments t.typeRef)

def descriptionStatement (unit : String) (templates : List String)
    (ns templateNs dictionary : String) : Statement :=
  .description unit templates
    [.noted "ns" (.text ns), .noted "templateNs" (.text templateNs),
     .noted "dictionary" (.text dictionary), .bare (.array (Statement.templatesArray unit))]

end FastSchema.Tables
