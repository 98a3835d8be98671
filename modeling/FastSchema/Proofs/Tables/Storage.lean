import FastSchema.Proofs.Cpp.StringLiteral
import FastSchema.Proofs.Tables.Lines
import FastSchema.Proofs.Tables.Refinement

/-! # Initial values of texts and byte vectors

The initial value of a text or a byte vector is written as a literal and the number of its bytes.
The literal is read back as these bytes, so the number is the length of what it denotes. -/

namespace FastSchema.Tables

open Cpp (SymbolPath Writer)
open Cpp.StringLiteral

/-! ## The line of an initial value -/

/-- The line passes a literal of the given bytes, and their number, to a constructor. -/
def Line.PassesBytes (line : Line) (constructor : String) (bytes : List UInt8) : Prop :=
  ∃ literal after,
    line.text = "    " ++ constructor ++ "(" ++ literal ++ "," ++ toString bytes.length ++ ")" ++
      after ∧
    ∀ rest, readLiteral (literal.toList ++ rest) = some (bytes, rest)

def Expr.PassesBytes (e : Expr) (constructor : String) (bytes : List UInt8) : Prop :=
  ∃ literal, e.render = constructor ++ "(" ++ literal ++ "," ++ toString bytes.length ++ ")" ∧
    ∀ rest, readLiteral (literal.toList ++ rest) = some (bytes, rest)

theorem passesBytes_stringStorage (s : String) :
    (Expr.stringStorage (some s)).PassesBytes "string_value_storage" (Text.utf8 s) :=
  ⟨quoted s, rfl, readLiteral_quoted s⟩

theorem passesBytes_byteStorage (bytes : List UInt8) :
    (Expr.byteStorage (some bytes)).PassesBytes "byte_vector_value_storage" bytes := by
  have hopening : "byte_vector_value_storage(\"" =
      "byte_vector_value_storage" ++ ("(" ++ "\"") := by decide
  have hclosing : "\"," = "\"" ++ "," := by decide
  have hread : ∀ rest, readLiteral (("\"" ++ bytesBody bytes ++ "\"").toList ++ rest) =
      some (bytes, rest) := by
    intro rest
    simpa using readLiteral_bytesBody bytes rest
  refine ⟨"\"" ++ bytesBody bytes ++ "\"", ?_, hread⟩
  show "byte_vector_value_storage(\"" ++ bytesBody bytes ++ "\"," ++ toString bytes.length ++ ")" =
    _
  rw [hopening, hclosing]
  simp only [String.append_assoc]

/-- The argument of a static has a line that passes the bytes its expression does. -/
theorem exists_line_of_noted {declarator symbol constructor note : String}
    {args : List Argument} {e : Expr} {bytes : List UInt8} {statements : List Statement}
    (h : e.PassesBytes constructor bytes)
    (hstatement : Statement.static declarator symbol args ∈ statements)
    (harg : .noted note e ∈ args) :
    ∃ line ∈ linesOf statements, line.PassesBytes constructor bytes := by
  obtain ⟨line, hline, after, rfl⟩ := exists_mem_argumentLines harg
  obtain ⟨literal, hrender, hread⟩ := h
  have hmem : Line.referring e.refers? ("  " ++ e.render ++ after) ∈
      (Statement.static declarator symbol args).lines := by
    rw [Statement.lines]
    exact List.mem_append_left _ (List.mem_cons_of_mem _ (List.mem_cons_of_mem _ hline))
  refine ⟨_, List.mem_flatMap.mpr ⟨_, hstatement, hmem⟩, literal, after ++ "\n", ?_, hread⟩
  simp only [Line.referring, Line.code, hrender, String.append_assoc]
  rfl

/-! ## Visits -/

/-- Between the states the given lines are written into the body of a function. -/
def State.Writes (s s' : State) (lines : List Line) : Prop :=
  ∃ written : List Statement, s'.statements = s.statements ++ written ∧
    ∀ text, written.foldl (fun w st => st.write w) (⟨text, 1⟩ : Writer) =
      ⟨text ++ String.join (lines.map Line.text), 1⟩

/-- A visit that does not fail writes the statements of the record of the leaf. -/
theorem statements_visitLeaf {unit : String} {head : FieldHead} {content : Leaf} {cx : Context}
    {index : Nat} {s s' : State}
    (h : ((visitor unit).visitLeaf head content cx index).result s = .ok ((), s')) :
    ∃ payload recordHead, content.payload (s.registry.resolve cx) head = .ok payload ∧
      s'.statements = s.statements ++ leafStatements unit s.symbols recordHead payload := by
  by_cases hopen : 0 < s.frames.depth
  · rw [result_visitLeaf unit head content cx index hopen] at h
    obtain ⟨payload, hpayload, h⟩ := Fallible.bind_eq_ok h
    obtain ⟨recordHead, hhead, h⟩ := Fallible.bind_eq_ok h
    cases h
    exact ⟨payload, recordHead, hpayload, by simp [State.extend, recordsStatements,
      recordStatements]⟩
  · have hfails : ∀ entry,
        (s.frames.append entry).1 = .error (.internal (.noOpenFrame entry.symbol)) := by
      intro entry
      cases hframes : s.frames.frames with
      | nil => simp [Cpp.FrameStack.append, hframes]
      | cons f outer => simp [Cpp.FrameStack.depth, hframes] at hopen
    simp only [visitor, append, Fallible.result_bind, Fallible.result_get, pure_bind,
      Fallible.result_lift, bind_assoc, result_emit, Fallible.result_on, hfails,
      Fallible.error_bind] at h
    obtain ⟨_, _, h⟩ := Fallible.bind_eq_ok h
    obtain ⟨_, _, h⟩ := Fallible.bind_eq_ok h
    cases h

/-- The lines of the record of a leaf are what its visit writes. -/
theorem writes_leafStatements {unit : String} {head : RecordHead} {payload : LeafPayload}
    {s s' : State}
    (h : s'.statements = s.statements ++ leafStatements unit s.symbols head payload) :
    s.Writes s' (linesOf (leafStatements unit s.symbols head payload)) :=
  ⟨_, h, write_declarations (leafLayout unit s.symbols head payload).isDeclaration⟩

theorem exists_line_of_string (unit : String) (path : SymbolPath) (head : RecordHead)
    (charset : Charset) (op : OperatorRecord) (initial : String) (length : Option LengthRecord) :
    ∃ line ∈ linesOf (leafStatements unit path head (.string charset op (some initial) length)),
      line.PassesBytes "string_value_storage" (Text.utf8 initial) := by
  cases charset with
  | ascii =>
      exact exists_line_of_noted (passesBytes_stringStorage initial)
        (List.mem_append_right _ (List.mem_singleton_self _))
        (List.mem_append_right _ (List.mem_cons_of_mem _ List.mem_cons_self))
  | unicode =>
      exact exists_line_of_noted (passesBytes_stringStorage initial)
        (List.mem_append_right _ (List.mem_singleton_self _))
        (List.mem_append_right _ (List.mem_cons_of_mem _ List.mem_cons_self))

theorem exists_line_of_byteVector (unit : String) (path : SymbolPath) (head : RecordHead)
    (op : OperatorRecord) (bytes : List UInt8) (length : Option LengthRecord) :
    ∃ line ∈ linesOf (leafStatements unit path head (.byteVector op (some bytes) length)),
      line.PassesBytes "byte_vector_value_storage" bytes :=
  exists_line_of_noted (passesBytes_byteStorage bytes)
    (List.mem_append_right _ (List.mem_singleton_self _))
    (List.mem_append_right _ (List.mem_cons_of_mem _ List.mem_cons_self))

/-- What the string literals in the table file of a unit denote: just the bytes of a text or of a
byte vector, in printable characters of ASCII. They are passed on with the number of the bytes. -/
structure LiteralsSpec (unit : String) : Prop where
  text : ∀ (s : String) (rest : List Char),
    readLiteral ((quoted s).toList ++ rest) = some (Text.utf8 s, rest)
  bytes : ∀ (bytes : List UInt8) (rest : List Char),
    readLiteral ('"' :: ((bytesBody bytes).toList ++ '"' :: rest)) = some (bytes, rest)
  printableText : ∀ s : String, ∀ c ∈ (body s).toList, IsPrintable c
  printableBytes : ∀ bytes : List UInt8, ∀ c ∈ (bytesBody bytes).toList, IsPrintable c
  visitText : ∀ (head : FieldHead) (operator : Option Operator) (length : Option Length)
    (cx : Context) (index : Nat) (s s' : State) (initial : String),
    ((visitor unit).visitLeaf head (.string operator length) cx index).result s = .ok ((), s') →
      (OperatorRecord.ofOperator operator).initial = some initial →
        ∃ lines, s.Writes s' lines ∧
          ∃ line ∈ lines, line.PassesBytes "string_value_storage" (Text.utf8 initial)
  visitBytes : ∀ (head : FieldHead) (operator : Option Operator) (length : Option Length)
    (cx : Context) (index : Nat) (s s' : State) (initial : String),
    ((visitor unit).visitLeaf head (.byteVector operator length) cx index).result s =
      .ok ((), s') →
      (OperatorRecord.ofOperator operator).initial = some initial →
        ∃ bytes lines, ByteVector.parse initial = .ok bytes ∧ s.Writes s' lines ∧
          ∃ line ∈ lines, line.PassesBytes "byte_vector_value_storage" bytes

/-- Every literal denotes what it is written for, and the number beside it is its length. -/
theorem literals_spec (unit : String) : LiteralsSpec unit where
  text := readLiteral_quoted
  bytes := readLiteral_bytesBody
  printableText := isPrintable_body
  printableBytes := isPrintable_bytesBody
  visitText := by
    intro head operator length cx index s s' initial hvisit hinitial
    obtain ⟨payload, recordHead, hpayload, hwritten⟩ := statements_visitLeaf hvisit
    refine ⟨_, writes_leafStatements hwritten, ?_⟩
    cases Leaf.hasPayload hpayload with
    | unicode hcharset hlength =>
        rw [hinitial]
        exact exists_line_of_string unit s.symbols recordHead .unicode _ initial _
    | ascii hcharset =>
        rw [hinitial]
        exact exists_line_of_string unit s.symbols recordHead .ascii _ initial none
  visitBytes := by
    intro head operator length cx index s s' initial hvisit hinitial
    obtain ⟨payload, recordHead, hpayload, hwritten⟩ := statements_visitLeaf hvisit
    cases Leaf.hasPayload hpayload with
    | byteVector hstored hlength =>
        rw [OperatorRecord.initialAs, hinitial] at hstored
        obtain ⟨bytes, hbytes, rfl⟩ := Fallible.map_eq_ok hstored
        exact ⟨bytes, _, hbytes, writes_leafStatements hwritten,
          exists_line_of_byteVector unit s.symbols recordHead _ bytes _⟩

end FastSchema.Tables
