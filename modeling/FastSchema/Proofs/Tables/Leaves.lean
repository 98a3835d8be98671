import FastSchema.Tables.Layout

/-! # The statements of a leaf

Leaves are laid out in three ways: a value with one operator, a decimal in two parts, and a
reference. What is said about their statements needs these cases only. -/

namespace FastSchema

def LeafPayload.operator? : LeafPayload → Option OperatorRecord
  | .integer _ op _ => some op
  | .decimal op _ => some op
  | .splitDecimal _ _ _ _ => none
  | .string _ op _ _ => some op
  | .byteVector op _ _ => some op
  | .reference _ => none

namespace Tables

open Cpp (SymbolPath)

def Expr.refers? : Expr → Option String
  | .address symbol => some symbol
  | .array symbol => some symbol
  | _ => none

def Plain (args : List Argument) : Prop := ∀ arg ∈ args, arg.expr.refers? = none

theorem plain_headArguments (head : RecordHead) (op : Option OperatorRecord) :
    Plain (headArguments head op) := by
  cases op <;> simp [Plain, headArguments, Argument.bare, Argument.noted, Expr.refers?]

theorem plain_lengthArguments (length : Option LengthRecord) : Plain (lengthArguments length) := by
  simp [Plain, lengthArguments, Argument.noted, Expr.refers?]

theorem plain_typeRefArguments (typeRef : Option TypeRef) : Plain (typeRefArguments typeRef) := by
  simp [Plain, typeRefArguments, Argument.noted, Expr.refers?]

/-- The statements of a leaf are laid out in one of three ways. -/
inductive LeafLayout (path : SymbolPath) (head : RecordHead) : LeafPayload → List Statement → Prop
  | value {payload : LeafPayload} {op : OperatorRecord} (declarator : String)
      {rest : List Argument} (hop : payload.operator? = some op) (hrest : Plain rest) :
      LeafLayout path head payload
        (contextStatements path head.name op ++
          [.static declarator (path.symbol (head.name ++ "_instruction"))
            (headArguments head (some op) ++
              .noted "opContext" (contextExpr path head.name op) :: rest)])
  | split (mantissaOp : OperatorRecord) (mantissaInitial : Option Int64)
      (exponentOp : OperatorRecord) (exponentInitial : Option Int32)
      {kind mantissa exponent : Argument} (hkind : kind.expr.refers? = none)
      (hmantissa : mantissa.expr.refers? = none) (hexponent : exponent.expr.refers? = none) :
      LeafLayout path head
        (.splitDecimal mantissaOp mantissaInitial exponentOp exponentInitial)
        (contextStatements path (head.name ++ "_mantissa") mantissaOp ++
          [.static "static mantissa_field_instruction"
            (path.symbol (head.name ++ "_mantissa" ++ "_instruction"))
            [kind, .noted "mantissa opContext"
              (contextExpr path (head.name ++ "_mantissa") mantissaOp), mantissa]] ++
          contextStatements path (head.name ++ "_exponent") exponentOp ++
          [.static "const static decimal_field_instruction"
            (path.symbol (head.name ++ "_instruction"))
            (headArguments head (some exponentOp) ++
              [.noted "exponent opContext"
                (contextExpr path (head.name ++ "_exponent") exponentOp),
               .bare (.address (path.symbol (head.name ++ "_mantissa" ++ "_instruction"))),
               exponent])])
  | reference (target : Option Target) (declarator : String) {rest : List Argument}
      (hrest : Plain rest) :
      LeafLayout path head (.reference target)
        [.static declarator
          (path.symbol ("templateref" ++ toString head.index ++ "_instruction"))
          (.bare (.number head.index) :: rest)]

theorem leafLayout (unit : String) (path : SymbolPath) (head : RecordHead)
    (payload : LeafPayload) :
    LeafLayout path head payload (leafStatements unit path head payload) := by
  have hinitial : ∀ e : Expr, e.refers? = none → Plain [.noted "initial_value" e] := by
    intro e he arg harg
    obtain rfl := List.mem_singleton.mp harg
    exact he
  have hlength : ∀ (e : Expr) (length : Option LengthRecord), e.refers? = none →
      Plain (.noted "initial_value" e :: lengthArguments length) := by
    intro e length he
    exact List.forall_mem_cons.mpr ⟨he, plain_lengthArguments length⟩
  cases payload with
  | integer type op initial => exact .value _ rfl (hinitial _ rfl)
  | decimal op initial => exact .value _ rfl (hinitial _ rfl)
  | splitDecimal mantissaOp mantissaInitial exponentOp exponentInitial =>
      exact .split _ _ _ _ rfl rfl rfl
  | string charset op initial length =>
      cases charset with
      | ascii => exact .value _ rfl (hinitial _ rfl)
      | unicode => exact .value _ rfl (hlength _ length rfl)
  | byteVector op initial length => exact .value _ rfl (hlength _ length rfl)
  | reference target =>
      cases target with
      | none => exact .reference _ _ (by simp [Plain])
      | some t => exact .reference _ _ (by simp [Plain, Argument.bare, Expr.refers?])

end Tables

end FastSchema
