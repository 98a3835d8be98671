import FastSchema.Metadata.Basic
import FastSchema.Tables.Builder

/-! # The table file as a function of the metadata report

Every statement of the file is written here from the records and the symbols of the nodes around
them. The document does not occur. -/

namespace FastSchema.Tables

open Cpp (SymbolPath Writer)

/-! ## Statements of records -/

/-- The symbol of the instruction of a record among the fields of the node at `path`. -/
def recordSymbol (path : SymbolPath) : FieldInstruction → String
  | .leaf head payload => leafSymbol path head payload
  | .owning head _ _ _ => path.symbol (head.name ++ "_instruction")
  | .flattened head _ _ _ => path.symbol (head.name ++ "_instruction")

/-- What stands before the fields of a composite; `inside` leads to its inside. -/
def leadStatements (inside : SymbolPath) (name : String) : CompositeRecord → List Statement
  | .group => []
  | .sequence length => lengthStatements inside name length

mutual

/-- The statements of a record among the fields of the node at `path`. -/
def recordStatements (unit : String) (path : SymbolPath) : FieldInstruction → List Statement
  | .leaf head payload => leafStatements unit path head payload
  | .owning head kind typeRef fields =>
    let inside := path.push head.name
    leadStatements inside head.name kind ++ recordsStatements unit inside fields ++
      [.array (arraySymbol inside) (fields.map (recordSymbol inside)),
       compositeStatement inside path head kind typeRef
        (ownArguments (arraySymbol inside) fields.length)]
  | .flattened head kind typeRef body =>
    let inside := path.push head.name
    leadStatements inside head.name kind ++
      [compositeStatement inside path head kind typeRef (flatArguments unit body)]

def recordsStatements (unit : String) (path : SymbolPath) : List FieldInstruction → List Statement
  | [] => []
  | record :: records =>
    recordStatements unit path record ++ recordsStatements unit path records

end

def templateStatements (unit : String) (t : TemplateInstruction) : List Statement :=
  let inside := SymbolPath.empty.push t.name
  .openTemplate t.name :: recordsStatements unit inside t.fields ++
    [.array (arraySymbol inside) (t.fields.map (recordSymbol inside)),
     templateStatement (arraySymbol inside) t]

def fileStatements (m : Metadata) : List Statement :=
  .preamble m.unit :: m.templates.flatMap (templateStatements m.unit) ++
    [descriptionStatement m.unit (m.templates.map TemplateInstruction.name) m.ns m.templateNs
      m.dictionary]

def textOf (statements : List Statement) : String :=
  (statements.foldl (fun w st => st.write w) Writer.empty).text

end FastSchema.Tables
