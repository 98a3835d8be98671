import FastSchema.Fault

/-!
# Symbols of static instructions

The instruction of a field is a static variable. Its symbol is flat and made of the names of the
nodes around the field, each followed by two underscores, and a name of its own.
-/

namespace FastSchema.Cpp

/-- The names of the open nodes, the innermost first. -/
structure SymbolPath where
  parts : List String
deriving DecidableEq, Repr, Inhabited

namespace SymbolPath

def empty : SymbolPath := ⟨[]⟩

def push (p : SymbolPath) (name : String) : SymbolPath :=
  ⟨name :: p.parts⟩

def pop (p : SymbolPath) : Except Fault String × SymbolPath :=
  match p.parts with
  | [] => (.error (.internal .emptyPath), p)
  | name :: outer => (.ok name, ⟨outer⟩)

/-- What every symbol of the innermost node begins with. -/
def stem (p : SymbolPath) : String :=
  String.join (p.parts.reverse.map (· ++ "__"))

/-- The symbol of the given name in the innermost node. -/
def symbol (p : SymbolPath) (name : String) : String :=
  p.stem ++ name

@[simp] theorem parts_push (p : SymbolPath) (name : String) :
    (p.push name).parts = name :: p.parts := rfl

@[simp] theorem pop_push (p : SymbolPath) (name : String) : (p.push name).pop = (.ok name, p) := rfl

end SymbolPath

end FastSchema.Cpp
