import FastSchema.Cpp.StringLiteral
import FastSchema.Cpp.Writer
import FastSchema.Instruction.Basic

/-!
# Statements of an instruction table

The table file of a unit declares static instructions, arrays of pointers to them and operator
contexts, inside one function for each template. Here are the statements, their arguments, and how
they are written.
-/

namespace FastSchema.Tables

open Cpp (Writer runtime runtimeNamespace punctuate)
open Cpp.StringLiteral (quoted)

/-- The suffix of an integer constant, which selects its type. -/
inductive Suffix where
  | none
  | u
  | ll
  | ull
deriving DecidableEq, Repr, Inhabited

def Suffix.text : Suffix → String
  | .none => ""
  | .u => "U"
  | .ll => "LL"
  | .ull => "ULL"

/-- A decimal constant, after a minus sign if it is negative. -/
structure Constant where
  value : Int
  suffix : Suffix
deriving DecidableEq, Repr, Inhabited

def Constant.text (c : Constant) : String := toString c.value ++ c.suffix.text

/-- The constant of an initial value of the given type. -/
def Constant.ofValue (type : IntType) : IntValue → Constant
  | .signed v => ⟨v.toInt, if type.width = .w64 then .ll else .none⟩
  | .unsigned v => ⟨v.toNat, if type.width = .w64 then .ull else .u⟩

/-- An argument of a constructor. The null pointer stands for an operator context, and an array for
the pointer to its first entry. -/
inductive Expr where
  | number (n : Nat)
  | boolean (b : Bool)
  | operator (kind : OperatorKind)
  | presence (presence : Presence)
  | text (s : String)
  | null
  | address (symbol : String)
  | array (symbol : String)
  | intStorage (type : IntType) (value : Option Constant)
  | stringStorage (value : Option String)
  | decimalStorage (value : Option (Constant × Constant))
  | byteStorage (value : Option (List UInt8))
  | instructionOf (type : String)
  | subinstructionsOf (type : String)
  | subinstructionCountOf (type : String)
  | slotSubinstructions (presence : Presence)
deriving DecidableEq, Repr, Inhabited

/-- The length of the text of a literal is counted in bytes. -/
def Expr.render : Expr → String
  | .number n => toString n
  | .boolean b => if b then "true" else "false"
  | .operator kind => "operator_" ++ kind.name
  | .presence p => "presence_" ++ p.name
  | .text s => quoted s
  | .null => "0"
  | .address symbol => "&" ++ symbol
  | .array symbol => symbol
  | .intStorage type value =>
    "int_value_storage<" ++ type.name ++ "_t>(" ++ (value.map Constant.text).getD "" ++ ")"
  | .stringStorage none => "string_value_storage()"
  | .stringStorage (some s) =>
    "string_value_storage(" ++ quoted s ++ "," ++ toString (Text.utf8 s).length ++ ")"
  | .decimalStorage none => "decimal_value_storage()"
  | .decimalStorage (some (mantissa, exponent)) =>
    "decimal_value_storage(" ++ mantissa.text ++ ", " ++ exponent.text ++ ")"
  | .byteStorage none => "byte_vector_value_storage()"
  | .byteStorage (some bytes) =>
    "byte_vector_value_storage(\"" ++ Cpp.StringLiteral.bytesBody bytes ++ "\"," ++
      toString bytes.length ++ ")"
  | .instructionOf type => type ++ "::instruction()"
  | .subinstructionsOf type => type ++ "::instruction()->subinstructions()"
  | .subinstructionCountOf type => type ++ "::instruction()->subinstructions_count()"
  | .slotSubinstructions p =>
    runtime "templateref_instruction::default_instructions(presence_" ++ p.name ++ ")"

/-- An argument and possibly a note on what it is. -/
structure Argument where
  expr : Expr
  note : Option String
deriving DecidableEq, Repr, Inhabited

namespace Argument

def bare (expr : Expr) : Argument := ⟨expr, none⟩

def noted (note : String) (expr : Expr) : Argument := ⟨expr, some note⟩

def lines (args : List Argument) : List String :=
  List.zipWith (fun line (arg : Argument) => "  " ++ line ++ (arg.note.map (" // " ++ ·)).getD "")
    (punctuate ");" (args.map (·.expr.render))) args

end Argument

/-- A part of a table file. The function of a template is what stands between its opening and its
closing. -/
inductive Statement where
  | preamble (unit : String)
  | openTemplate (name : String)
  | operatorContext (symbol : String) (context : OperatorContext)
  | static (declarator symbol : String) (args : List Argument)
  | array (symbol : String) (entries : List String)
  | closeTemplate (name : String) (args : List Argument)
  | description (unit : String) (templates : List String) (args : List Argument)
deriving DecidableEq, Repr, Inhabited

namespace Statement

def templatesArray (unit : String) : String := unit ++ "_templates_instructions"

def write : Statement → Writer → Writer
  | .preamble unit, w =>
    let w := (w.line ("#include \"" ++ unit ++ ".h\"")).blank
    let w := (w.line ("using namespace " ++ runtimeNamespace ++ ";")).blank
    ((w.line ("namespace " ++ unit)).line "\x7b").blank
  | .openTemplate name, w =>
    ((w.line ("const " ++ name ++ "::instruction_type*")).line
      (name ++ "::instruction()")).openBlock
  | .operatorContext symbol context, w =>
    w.lines
      ["const static op_context_t " ++ symbol ++ " = \x7b",
       "  " ++ quoted context.key ++ ",",
       "  " ++ quoted context.ns ++ ",",
       "  " ++ quoted context.dictionary ++ "\x7d;"]
  | .static declarator symbol args, w =>
    (((w.line declarator).line (symbol ++ "(")).lines (Argument.lines args)).blank
  | .array symbol [], w =>
    w.line ("const static field_instruction** " ++ symbol ++ " = 0;")
  | .array symbol (entry :: entries), w =>
    let w := w.line ("const static field_instruction* " ++ symbol ++ "[] = \x7b")
    let w := w.lines ((entry :: entries).map fun e => "  &" ++ e ++ ",")
    (w.line "\x7d;").blank
  | .closeTemplate name args, w =>
    let w := w.line ("const static " ++ name ++ "::instruction_type the_instruction(")
    let w := (w.lines (Argument.lines args)).blank
    (w.line "return &the_instruction;").closeBlock.blank
  | .description unit templates args, w =>
    let w := w.line ("const template_instruction* " ++ templatesArray unit ++ "[] = \x7b")
    let w := w.lines (templates.map fun t => "  " ++ t ++ "::instruction(),")
    let w := (w.line "\x7d;").blank
    let w := (w.line (runtime "templates_description* description()")).openBlock
    let w := w.line ("static " ++ runtime "templates_description desc(")
    let w := w.lines (Argument.lines args)
    (w.line "return &desc;").closeBlock.blank.line "\x7d"

end Statement

end FastSchema.Tables
