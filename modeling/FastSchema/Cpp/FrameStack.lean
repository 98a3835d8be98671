import FastSchema.Fault
import FastSchema.Instruction.Basic

/-!
# Frames of subinstructions

While a node is open its frame collects the direct children in order: the symbol of the static
instruction of each, and the record that the instruction was written from.
-/

namespace FastSchema.Cpp

/-- A child of an open node. -/
structure Entry where
  symbol : String
  record : FieldInstruction
deriving Repr, Inhabited

structure Frame where
  entries : Array Entry
deriving Repr, Inhabited

namespace Frame

def empty : Frame := ⟨#[]⟩

def size (f : Frame) : Nat := f.entries.size

def symbols (f : Frame) : List String := f.entries.toList.map Entry.symbol

def records (f : Frame) : List FieldInstruction := f.entries.toList.map Entry.record

end Frame

/-- The frames of the open nodes, the innermost first. -/
structure FrameStack where
  frames : List Frame
deriving Repr, Inhabited

namespace FrameStack

def empty : FrameStack := ⟨[]⟩

def depth (s : FrameStack) : Nat := s.frames.length

def openFrame (s : FrameStack) : FrameStack :=
  ⟨Frame.empty :: s.frames⟩

def append (s : FrameStack) (entry : Entry) : Except Fault Unit × FrameStack :=
  match s.frames with
  | [] => (.error (.internal (.noOpenFrame entry.symbol)), s)
  | f :: outer => (.ok (), ⟨⟨f.entries.push entry⟩ :: outer⟩)

def closeFrame (s : FrameStack) : Except Fault Frame × FrameStack :=
  match s.frames with
  | [] => (.error (.internal .noFrameToClose), s)
  | f :: outer => (.ok f, ⟨outer⟩)

end FrameStack

end FastSchema.Cpp
