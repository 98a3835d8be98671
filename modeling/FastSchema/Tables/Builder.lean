import FastSchema.Cpp.FrameStack
import FastSchema.Fault.Fallible
import FastSchema.Instruction.Derive
import FastSchema.Tables.Layout
import FastSchema.Walk.Visitor

/-!
# The table file of a unit

A walk over the document derives the records and lays them out as statements. The children of an
open node are collected in a frame; when the node is left they are put into an array, so that they
always precede the instruction that points at them.
-/

namespace FastSchema.Tables

open Cpp (FrameStack Frame SymbolPath Writer)

structure State where
  registry : Registry
  symbols : SymbolPath
  frames : FrameStack
  templates : Array TemplateInstruction
  statements : Array Statement
deriving Repr, Inhabited

namespace State

def start (registry : Registry) : State := ⟨registry, .empty, .empty, #[], #[]⟩

def text (s : State) : String :=
  (s.statements.foldl (fun w st => st.write w) Writer.empty).text

end State

def emit (statements : List Statement) : Fallible State Unit :=
  modify fun s => { s with statements := s.statements ++ statements }

def pushSymbol (name : String) : Fallible State Unit :=
  modify fun s => { s with symbols := s.symbols.push name }

def popSymbol : Fallible State Unit := do
  let _ ← Fallible.on State.symbols (fun symbols s => { s with symbols }) (·.pop)

def openFrame : Fallible State Unit :=
  modify fun s => { s with frames := s.frames.openFrame }

def closeFrame : Fallible State Frame :=
  Fallible.on State.frames (fun frames s => { s with frames }) (·.closeFrame)

/-- Adds a child to the innermost open node. -/
def append (symbol : String) (record : FieldInstruction) : Fallible State Unit :=
  Fallible.on State.frames (fun frames s => { s with frames }) (·.append ⟨symbol, record⟩)

/-- Closes the frame of a node and writes the array of its `numFields` fields. Answers the symbol
of the array and the records of the fields. -/
def closeFields (miscount : (collected : Nat) → Misuse) (numFields : Nat) :
    Fallible State (String × List FieldInstruction) := do
  let frame ← closeFrame
  if frame.size ≠ numFields then throw (.internal (miscount frame.size))
  let array := arraySymbol (← get).symbols
  emit [.array array frame.symbols]
  popSymbol
  return (array, frame.records)

def flatBody (registry : Registry) (cx : Context) (r : Reference) (slot : Presence) :
    Except Fault FlatBody :=
  (registry.resolve cx r).map fun
    | some target => .borrowed target
    | none => .slot slot

/-- The walk that collects the table file of a unit. -/
def visitor (unit : String) : Visitor (Fallible State) where
  enterDocument _ _ := emit [.preamble unit]
  exitDocument doc _ := do
    let s ← get
    if s.frames.depth ≠ 0 || !s.symbols.parts.isEmpty then
      throw (.internal (.openFrames unit s.frames.depth))
    emit [descriptionStatement unit (s.templates.toList.map TemplateInstruction.name)
      (doc.attrs.getD "ns") (doc.attrs.getD "templateNs") (doc.attrs.getD "dictionary")]
  enterTemplate t cx _ := do
    modify fun s => { s with registry := s.registry.register ⟨cx.ns, t.name⟩ unit }
    pushSymbol t.name
    openFrame
    emit [.openTemplate t.name]
    return .children
  exitTemplate t _ numFields index := do
    let (array, fields) ← closeFields (.templateCount t.name · numFields) numFields
    let record ← t.record index fields
    emit [templateStatement array record]
    modify fun s => { s with templates := s.templates.push record }
  enterComposite c _ _ := do
    pushSymbol c.head.name
    match ← c.kind.record c.head with
    | .group => pure ()
    | .sequence length => emit (lengthStatements (← get).symbols c.head.name length)
    if c.soleReference?.isSome then return .skip
    openFrame
    return .children
  exitComposite c cx numFields index := do
    let inside := (← get).symbols
    let kind ← c.kind.record c.head
    match c.soleReference? with
    | none =>
      let (array, fields) ← closeFields (.bodyCount · numFields) numFields
      let head ← c.head.record index
      let outside := (← get).symbols
      let statement :=
        compositeStatement inside outside head kind c.typeRef (ownArguments array numFields)
      emit [statement]
      append (outside.symbol (head.name ++ "_instruction")) (.owning head kind c.typeRef fields)
    | some r =>
      popSymbol
      let body ← flatBody (← get).registry cx r (c.kind.slotPresence c.head)
      let head ← c.head.record index
      let outside := (← get).symbols
      let statement :=
        compositeStatement inside outside head kind c.typeRef (flatArguments unit body)
      emit [statement]
      append (outside.symbol (head.name ++ "_instruction")) (.flattened head kind c.typeRef body)
  visitLeaf head content cx index := do
    let payload ← content.payload ((← get).registry.resolve cx) head
    let recordHead ← head.record index
    let path := (← get).symbols
    emit (leafStatements unit path recordHead payload)
    append (leafSymbol path recordHead payload) (.leaf recordHead payload)

end FastSchema.Tables
