import FastSchema.Proofs.Cpp.IntegerConstant
import FastSchema.Proofs.Metadata.Injective
import FastSchema.Proofs.Tables.Lines

/-! # The integer constants of a table file

The initial integers of records are written as constants, whose suffixes follow from the types of
the fields. The constants are read back as the integers, with one exception: the magnitude of the
least integer of 64 bits is a value of no signed type. -/

namespace FastSchema

/-! ## Integers of records -/

/-- The initial integers of a leaf. An exponent of its own is kept with the mantissa zero. -/
def LeafPayload.initialIntegers : LeafPayload → List ℤ
  | .integer _ _ initial => initial.toList.map IntValue.toInt
  | .decimal _ initial => initial.toList.flatMap fun d => [d.mantissa.toInt, d.exponent.toInt]
  | .splitDecimal _ mantissa _ exponent =>
    mantissa.toList.map Int64.toInt ++ exponent.toList.flatMap fun e => [0, e.toInt]
  | _ => []

def CompositeRecord.initialIntegers : CompositeRecord → List ℤ
  | .group => []
  | .sequence length => length.initial.toList.map IntValue.toInt

namespace FieldInstruction

mutual

/-- The initial integers of a record and of the records inside it, in order. -/
def initialIntegers : FieldInstruction → List ℤ
  | .leaf _ payload => payload.initialIntegers
  | .owning _ kind _ fields => kind.initialIntegers ++ initialIntegersOf fields
  | .flattened _ kind _ _ => kind.initialIntegers

def initialIntegersOf : List FieldInstruction → List ℤ
  | [] => []
  | field :: fields => initialIntegers field ++ initialIntegersOf fields

end

end FieldInstruction

def TemplateInstruction.initialIntegers (t : TemplateInstruction) : List ℤ :=
  FieldInstruction.initialIntegersOf t.fields

namespace Tables

open Cpp (LiteralType SymbolPath)

/-! ## Constants of statements -/

def Expr.constants : Expr → List Constant
  | .intStorage _ value => value.toList
  | .decimalStorage value => value.toList.flatMap fun (mantissa, exponent) => [mantissa, exponent]
  | _ => []

def Statement.constants : Statement → List Constant
  | .static _ _ args => args.flatMap (·.expr.constants)
  | .closeTemplate _ args => args.flatMap (·.expr.constants)
  | .description _ _ args => args.flatMap (·.expr.constants)
  | _ => []

/-- What a C++ compiler reads for the constant, if it is one. -/
def Constant.read? (c : Constant) : Option ℤ := Cpp.constant? c.text.toList

/-- What is read for the constant of an integer of a record. -/
def readBack? (n : ℤ) : Option ℤ := if n = -2 ^ 63 then none else some n

/-- The constants of the statements are read as the integers. -/
def Reads (statements : List Statement) (integers : List ℤ) : Prop :=
  (statements.flatMap Statement.constants).map Constant.read? = integers.map readBack?

theorem Reads.append {first rest : List Statement} {integers more : List ℤ}
    (h : Reads first integers) (hrest : Reads rest more) :
    Reads (first ++ rest) (integers ++ more) := by
  unfold Reads at h hrest ⊢
  rw [List.flatMap_append, List.map_append, List.map_append, h, hrest]

theorem Reads.nil_append {first rest : List Statement} {integers : List ℤ} (h : Reads first [])
    (hrest : Reads rest integers) : Reads (first ++ rest) integers := h.append hrest

theorem Reads.append_nil {first rest : List Statement} {integers : List ℤ}
    (h : Reads first integers) (hrest : Reads rest []) : Reads (first ++ rest) integers := by
  have happend := h.append hrest
  rwa [List.append_nil] at happend

theorem reads_nil_of_constants {statements : List Statement}
    (h : ∀ st ∈ statements, st.constants = []) : Reads statements [] := by
  rw [Reads, List.flatMap_eq_nil_iff.mpr h]
  rfl

/-! ## The suffix of a constant -/

def Suffix.literalType : Suffix → LiteralType
  | .none => ⟨true, 64⟩
  | .u => ⟨false, 32⟩
  | .ll => ⟨true, 64⟩
  | .ull => ⟨false, 64⟩

theorem ofSuffix?_text (s : Suffix) :
    LiteralType.ofSuffix? s.text.toList = some s.literalType := by
  cases s <;> rfl

theorem read?_constant {n : ℤ} {s : Suffix} (hsign : 0 ≤ n ∨ s.literalType.signed) :
    (⟨n, s⟩ : Constant).read? = if n.natAbs ≤ s.literalType.max then some n else none := by
  rw [Constant.read?, Constant.text, String.toList_append]
  exact Cpp.constant?_toString (ofSuffix?_text s) hsign

/-- Of the numbers in a signed word of 64 bits only the least one is no constant. -/
theorem read?_of_int64 {s : Suffix} (hs : s.literalType = ⟨true, 64⟩) (v : Int64) :
    (⟨v.toInt, s⟩ : Constant).read? = readBack? v.toInt := by
  have hmin : -2 ^ 63 ≤ v.toInt := v.le_toInt
  have hmax : v.toInt < 2 ^ 63 := v.toInt_lt
  rw [read?_constant (.inr (by rw [hs])), hs, readBack?]
  have hlimit : LiteralType.max ⟨true, 64⟩ = 2 ^ 63 - 1 := rfl
  rw [hlimit]
  by_cases hleast : v.toInt = -2 ^ 63
  · rw [if_neg (by omega), if_pos hleast]
  · rw [if_pos (by omega), if_neg hleast]

theorem read?_of_int32 (v : Int32) : (⟨v.toInt, .none⟩ : Constant).read? = readBack? v.toInt := by
  have hmin : -2 ^ 31 ≤ v.toInt := v.le_toInt
  have hmax : v.toInt < 2 ^ 31 := v.toInt_lt
  have hlimit : Suffix.none.literalType.max = 2 ^ 63 - 1 := rfl
  rw [read?_constant (.inr rfl), hlimit, readBack?, if_pos (by omega), if_neg (by omega)]

/-- An unsigned number of at most `w` bits is a constant with the suffix of its width. -/
theorem read?_of_unsigned {w : Width} {x : UInt64} (h : (x.toNat : ℤ) ≤ 2 ^ w.bits - 1) :
    (⟨x.toNat, if w = .w64 then .ull else .u⟩ : Constant).read? = readBack? x.toNat := by
  have hfits : x.toNat ≤ (if w = .w64 then Suffix.ull else .u).literalType.max := by
    cases w <;> simp [Suffix.literalType, LiteralType.max, Width.bits] at h ⊢ <;> omega
  rw [read?_constant (.inl (Int.natCast_nonneg _)), readBack?, if_pos (by simpa using hfits),
    if_neg (by omega)]

/-- The constant of a value of a type is read as the number of the value. -/
theorem read?_ofValue {t : IntType} {v : IntValue}
    (h : v.isSigned = t.signed ∧ t.InRange v.toInt) :
    (Constant.ofValue t v).read? = readBack? v.toInt := by
  cases v with
  | signed x =>
      apply read?_of_int64
      split_ifs <;> rfl
  | unsigned x =>
      have hunsigned : t.signed = false := h.1.symm
      have hrange := h.2
      rw [IntType.InRange, hunsigned, if_neg Bool.false_ne_true] at hrange
      exact read?_of_unsigned hrange.2

/-! ## Arguments without constants -/

theorem constants_headArguments (head : RecordHead) (op : Option OperatorRecord) :
    (headArguments head op).flatMap (·.expr.constants) = [] := by
  cases op <;> rfl

theorem constants_operator (kind : OperatorKind) : (Expr.operator kind).constants = [] := rfl

theorem constants_address (symbol : String) : (Expr.address symbol).constants = [] := rfl

theorem constants_contextExpr (path : SymbolPath) (stem : String) (op : OperatorRecord) :
    (contextExpr path stem op).constants = [] := by
  unfold contextExpr
  cases op.context <;> rfl

theorem constants_contextStatements (path : SymbolPath) (stem : String) (op : OperatorRecord) :
    ∀ st ∈ contextStatements path stem op, st.constants = [] := by
  unfold contextStatements
  cases op.context with
  | none => simp
  | some context =>
      intro st hst
      obtain rfl := List.mem_singleton.mp hst
      rfl

/-! ## Statements of records -/

/-- The statements of a value with one operator have the constants of its initial value. -/
theorem reads_value {path : SymbolPath} {stem : String} {head : RecordHead} {op : OperatorRecord}
    {declarator symbol : String} {rest : List Argument} {integers : List ℤ}
    (h : (rest.flatMap (·.expr.constants)).map Constant.read? = integers.map readBack?) :
    Reads (contextStatements path stem op ++
      [.static declarator symbol (headArguments head (some op) ++
        .noted "opContext" (contextExpr path stem op) :: rest)]) integers := by
  have hcontext := reads_nil_of_constants (constants_contextStatements path stem op)
  have hstatic : Reads [.static declarator symbol (headArguments head (some op) ++
      .noted "opContext" (contextExpr path stem op) :: rest)] integers := by
    rw [Reads, List.flatMap_singleton, Statement.constants, List.flatMap_append,
      constants_headArguments, List.nil_append, List.flatMap_cons, Argument.noted,
      constants_contextExpr, List.nil_append]
    exact h
  exact hcontext.nil_append hstatic

theorem read?_intStorage {type : IntType} {initial : Option IntValue} (h : type.Admits initial) :
    (Expr.intStorage type (initial.map (Constant.ofValue type))).constants.map Constant.read? =
      (initial.toList.map IntValue.toInt).map readBack? := by
  cases initial with
  | none => rfl
  | some v => exact congrArg (fun read => [read]) (read?_ofValue (h v rfl))

theorem read?_decimalStorage (initial : Option Decimal) :
    (Expr.decimalStorage (initial.map fun d =>
      (⟨d.mantissa.toInt, .ll⟩, ⟨d.exponent.toInt, .none⟩))).constants.map Constant.read? =
      (initial.toList.flatMap fun d => [d.mantissa.toInt, d.exponent.toInt]).map readBack? := by
  cases initial with
  | none => rfl
  | some d =>
      have hmantissa := read?_of_int64 (s := .ll) rfl d.mantissa
      have hexponent := read?_of_int32 d.exponent
      simp [Expr.constants, hmantissa, hexponent]

theorem read?_mantissaStorage (initial : Option Int64) :
    (Expr.intStorage .int64 (initial.map fun m => ⟨m.toInt, .ll⟩)).constants.map Constant.read? =
      (initial.toList.map Int64.toInt).map readBack? := by
  cases initial with
  | none => rfl
  | some m => exact congrArg (fun read => [read]) (read?_of_int64 (s := .ll) rfl m)

theorem read?_exponentStorage (initial : Option Int32) :
    (Expr.decimalStorage (initial.map fun e => (⟨0, .none⟩, ⟨e.toInt, .none⟩))).constants.map
        Constant.read? =
      (initial.toList.flatMap fun e => [0, e.toInt]).map readBack? := by
  cases initial with
  | none => rfl
  | some e =>
      have hzero : (⟨0, .none⟩ : Constant).read? = readBack? 0 := read?_of_int32 0
      simp [Expr.constants, hzero, read?_of_int32]

theorem reads_split (unit : String) (path : SymbolPath) (head : RecordHead)
    (mantissaOp : OperatorRecord) (mantissa : Option Int64) (exponentOp : OperatorRecord)
    (exponent : Option Int32) :
    Reads (leafStatements unit path head (.splitDecimal mantissaOp mantissa exponentOp exponent))
      (LeafPayload.splitDecimal mantissaOp mantissa exponentOp exponent).initialIntegers := by
  have hcontext (stem : String) (op : OperatorRecord) :
      Reads (contextStatements path stem op) [] :=
    reads_nil_of_constants (constants_contextStatements path stem op)
  have hmantissa (symbol : String) : Reads [.static "static mantissa_field_instruction" symbol
      [.bare (.operator mantissaOp.kind),
       .noted "mantissa opContext" (contextExpr path (head.name ++ "_mantissa") mantissaOp),
       .noted "mantissa initial_value"
        (.intStorage .int64 (mantissa.map fun m => ⟨m.toInt, .ll⟩))]]
      (mantissa.toList.map Int64.toInt) := by
    rw [Reads, ← read?_mantissaStorage]
    simp only [List.flatMap_cons, List.flatMap_nil, Statement.constants, Argument.bare,
      Argument.noted, constants_operator, constants_contextExpr, List.nil_append, List.append_nil]
  have hexponent (symbol mantissaSymbol : String) :
      Reads [.static "const static decimal_field_instruction" symbol
        (headArguments head (some exponentOp) ++
          [.noted "exponent opContext" (contextExpr path (head.name ++ "_exponent") exponentOp),
           .bare (.address mantissaSymbol),
           .noted "exponent initial_value" (.decimalStorage
            (exponent.map fun e => (⟨0, .none⟩, ⟨e.toInt, .none⟩)))])]
        (exponent.toList.flatMap fun e => [0, e.toInt]) := by
    rw [Reads, ← read?_exponentStorage]
    simp only [List.flatMap_cons, List.flatMap_nil, List.flatMap_append, Statement.constants,
      Argument.bare, Argument.noted, constants_headArguments, constants_contextExpr,
      constants_address, List.nil_append, List.append_nil]
  exact (((hcontext _ mantissaOp).nil_append (hmantissa _)).append_nil
    (hcontext _ exponentOp)).append (hexponent _ _)

/-- The statements of a leaf have the constants of its initial integers. -/
theorem reads_leafStatements (unit : String) (path : SymbolPath) (head : RecordHead)
    {payload : LeafPayload} (h : payload.Admitted) :
    Reads (leafStatements unit path head payload) payload.initialIntegers := by
  cases payload with
  | integer type op initial =>
      apply reads_value
      rw [List.flatMap_singleton]
      exact read?_intStorage h
  | decimal op initial =>
      apply reads_value
      rw [List.flatMap_singleton]
      exact read?_decimalStorage initial
  | splitDecimal mantissaOp mantissaInitial exponentOp exponentInitial =>
      exact reads_split unit path head mantissaOp mantissaInitial exponentOp exponentInitial
  | string charset op initial length =>
      cases charset <;> exact reads_value rfl
  | byteVector op initial length => exact reads_value rfl
  | reference target =>
      apply reads_nil_of_constants
      cases target <;> simp [leafStatements, Statement.constants, Expr.constants, Argument.bare]

theorem reads_leadStatements (inside : SymbolPath) (name : String) {kind : CompositeRecord}
    (h : kind.Admitted) : Reads (leadStatements inside name kind) kind.initialIntegers := by
  cases kind with
  | group => exact reads_nil_of_constants (by simp [leadStatements])
  | sequence length =>
      apply reads_value
      rw [List.flatMap_singleton]
      exact read?_intStorage h

theorem constants_array (symbol : String) (entries : List String) :
    (Statement.array symbol entries).constants = [] := rfl

theorem constants_compositeStatement (inside outside : SymbolPath) (head : RecordHead)
    (kind : CompositeRecord) (typeRef : Option TypeRef) {body : List Argument}
    (h : body.flatMap (·.expr.constants) = []) :
    (compositeStatement inside outside head kind typeRef body).constants = [] := by
  cases kind <;>
    simp only [compositeStatement, Statement.constants, List.flatMap_append, List.flatMap_cons,
      constants_headArguments, h] <;> rfl

theorem constants_flatArguments (unit : String) (body : FlatBody) :
    (flatArguments unit body).flatMap (·.expr.constants) = [] := by
  cases body <;> rfl

mutual

theorem reads_recordStatements (unit : String) (path : SymbolPath) {record : FieldInstruction}
    (h : record.Admitted) : Reads (recordStatements unit path record) record.initialIntegers := by
  cases record with
  | leaf head payload =>
      rw [recordStatements, FieldInstruction.initialIntegers]
      rw [FieldInstruction.Admitted] at h
      exact reads_leafStatements unit path head h
  | owning head kind typeRef fields =>
      rw [recordStatements, FieldInstruction.initialIntegers]
      rw [FieldInstruction.Admitted] at h
      have hlead := reads_leadStatements (path.push head.name) head.name h.1
      have hfields := reads_recordsStatements unit (path.push head.name) h.2
      refine (hlead.append hfields).append_nil (reads_nil_of_constants ?_)
      simp only [List.forall_mem_cons]
      exact ⟨constants_array _ _, constants_compositeStatement _ _ _ _ _ rfl, by simp⟩
  | flattened head kind typeRef body =>
      rw [recordStatements, FieldInstruction.initialIntegers]
      rw [FieldInstruction.Admitted] at h
      refine (reads_leadStatements (path.push head.name) head.name h).append_nil
        (reads_nil_of_constants (List.forall_mem_singleton.mpr ?_))
      exact constants_compositeStatement _ _ _ _ _ (constants_flatArguments unit body)

theorem reads_recordsStatements (unit : String) (path : SymbolPath)
    {records : List FieldInstruction} (h : FieldInstruction.AllAdmitted records) :
    Reads (recordsStatements unit path records) (FieldInstruction.initialIntegersOf records) := by
  cases records with
  | nil => exact reads_nil_of_constants (by simp [recordsStatements])
  | cons record records =>
      rw [recordsStatements, FieldInstruction.initialIntegersOf]
      rw [FieldInstruction.AllAdmitted] at h
      exact (reads_recordStatements unit path h.1).append (reads_recordsStatements unit path h.2)

end

/-- The function of a template has the constants of the integers in its record. -/
theorem reads_ofTemplate (unit : String) {t : TemplateInstruction}
    (h : FieldInstruction.AllAdmitted t.fields) :
    Reads (Function.ofTemplate unit t).statements t.initialIntegers := by
  refine (reads_recordsStatements unit (SymbolPath.empty.push t.name) h).append_nil
    (reads_nil_of_constants ?_)
  simp only [List.forall_mem_cons]
  exact ⟨constants_array _ _, rfl, by simp⟩

/-! ## Lines -/

/-- The text stands in the line as an argument, between punctuation. -/
def Line.Passes (line : Line) (text : String) : Prop :=
  ∃ before after, ∃ opening ∈ ["(", ", "], ∃ closing ∈ [")", ", "],
    line.text = before ++ opening ++ text ++ closing ++ after

/-- A constant of an expression is rendered as an argument. -/
theorem exists_render_eq_of_mem_constants {e : Expr} {c : Constant} (h : c ∈ e.constants) :
    ∃ before after, ∃ opening ∈ ["(", ", "], ∃ closing ∈ [")", ", "],
      e.render = before ++ opening ++ c.text ++ closing ++ after := by
  cases e with
  | intStorage type value =>
      obtain rfl : value = some c := by simpa [Expr.constants] using h
      refine ⟨"int_value_storage<" ++ type.name ++ "_t>", "", "(", by simp, ")", by simp, ?_⟩
      have hopening : "_t>(" = "_t>" ++ "(" := by decide
      show "int_value_storage<" ++ type.name ++ "_t>(" ++ c.text ++ ")" = _
      rw [hopening]
      simp only [String.append_assoc, String.append_empty]
  | decimalStorage value =>
      have hopening : "decimal_value_storage(" = "decimal_value_storage" ++ "(" := by decide
      cases value with
      | none => cases h
      | some pair =>
          obtain ⟨mantissa, exponent⟩ := pair
          have hc : c = mantissa ∨ c = exponent := by simpa [Expr.constants] using h
          rcases hc with rfl | rfl
          · refine ⟨"decimal_value_storage", exponent.text ++ ")", "(", by simp, ", ", by simp, ?_⟩
            show "decimal_value_storage(" ++ c.text ++ ", " ++ exponent.text ++ ")" = _
            rw [hopening]
            simp only [String.append_assoc]
          · refine ⟨"decimal_value_storage(" ++ mantissa.text, "", ", ", by simp, ")", by simp, ?_⟩
            show "decimal_value_storage(" ++ mantissa.text ++ ", " ++ c.text ++ ")" = _
            simp only [String.append_assoc, String.append_empty]
  | _ => cases h

theorem exists_argumentLine_of_mem_constants {args : List Argument} {c : Constant}
    (h : c ∈ args.flatMap (·.expr.constants)) :
    ∃ line ∈ argumentLines args, line.Passes c.text := by
  obtain ⟨arg, harg, hc⟩ := List.mem_flatMap.mp h
  obtain ⟨line, hline, after, rfl⟩ := exists_mem_argumentLines harg
  obtain ⟨before, rest, opening, hopening, closing, hclosing, hrender⟩ :=
    exists_render_eq_of_mem_constants hc
  refine ⟨_, hline, "    " ++ before, rest ++ (after ++ "\n"), opening, hopening, closing,
    hclosing, ?_⟩
  simp only [Line.referring, Line.code, hrender, String.append_assoc]
  rfl

/-- A statement in the body of a function has a line for each of its constants. -/
theorem exists_line_of_mem_constants {st : Statement} {c : Constant} (h : c ∈ st.constants)
    (hbody : ∀ unit templates args, st ≠ .description unit templates args) :
    ∃ line ∈ st.lines, line.Passes c.text := by
  cases st with
  | static declarator symbol args =>
      obtain ⟨line, hline, hpasses⟩ := exists_argumentLine_of_mem_constants h
      exact ⟨line, by simp [Statement.lines, hline], hpasses⟩
  | closeTemplate name args =>
      obtain ⟨line, hline, hpasses⟩ := exists_argumentLine_of_mem_constants h
      exact ⟨line, by simp [Statement.lines, hline], hpasses⟩
  | description unit templates args => exact (hbody unit templates args rfl).elim
  | _ => cases h

theorem exists_line_of_mem_constants_ofTemplate {unit : String} {t : TemplateInstruction}
    {c : Constant} (h : c ∈ (Function.ofTemplate unit t).statements.flatMap Statement.constants) :
    ∃ line ∈ (Function.ofTemplate unit t).lines, line.Passes c.text := by
  obtain ⟨st, hst, hc⟩ := List.mem_flatMap.mp h
  have hbody : ∀ unit templates args, st ≠ .description unit templates args := by
    rintro unit' templates args rfl
    rcases List.mem_append.mp hst with hrecord | hend
    · exact isDeclaration_recordsStatements unit _ t.fields _ hrecord
    · simp [templateStatement] at hend
  obtain ⟨line, hline, hpasses⟩ := exists_line_of_mem_constants hc hbody
  exact ⟨line, List.mem_flatMap.mpr ⟨st, hst, hline⟩, hpasses⟩

end Tables

end FastSchema
