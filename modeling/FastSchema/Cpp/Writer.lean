/-!
# Generated text

Generated code is written line by line. Lines inside blocks are indented by two spaces for each
block around them. Parameters and arguments stand on lines of their own, each but the last followed
by a comma, and names of the runtime library are qualified by its namespace.
-/

namespace FastSchema.Cpp

def runtimeNamespace : String := "mfast"

def runtime (name : String) : String := runtimeNamespace ++ "::" ++ name

/-- Ends each item with a comma and the last one with `last`. -/
def punctuate (last : String) : List String → List String
  | [] => []
  | [item] => [item ++ last]
  | item :: items => (item ++ ",") :: punctuate last items

structure Writer where
  text : String
  indent : Nat
deriving DecidableEq, Repr, Inhabited

namespace Writer

def empty : Writer := ⟨"", 0⟩

/-- Writes a line, indented even if it is empty. -/
def line (w : Writer) (s : String) : Writer :=
  { w with text := w.text ++ String.ofList (List.replicate (2 * w.indent) ' ') ++ s ++ "\n" }

def lines (w : Writer) (ss : List String) : Writer :=
  ss.foldl line w

/-- Ends a line that holds nothing, not even indentation. -/
def blank (w : Writer) : Writer :=
  { w with text := w.text ++ "\n" }

def openBlock (w : Writer) : Writer :=
  { w.line "\x7b" with indent := w.indent + 1 }

/-- Closes a block; outside all blocks only the brace is written. -/
def closeBlock (w : Writer) : Writer :=
  { w with indent := w.indent - 1 }.line "\x7d"

@[simp] theorem indent_line (w : Writer) (s : String) : (w.line s).indent = w.indent := rfl

@[simp] theorem indent_lines (w : Writer) (ss : List String) :
    (w.lines ss).indent = w.indent := by
  unfold lines
  induction ss generalizing w with
  | nil => rfl
  | cons s ss ih => rw [List.foldl_cons, ih, indent_line]

@[simp] theorem indent_blank (w : Writer) : w.blank.indent = w.indent := rfl

@[simp] theorem indent_openBlock (w : Writer) : w.openBlock.indent = w.indent + 1 := rfl

@[simp] theorem indent_closeBlock (w : Writer) : w.closeBlock.indent = w.indent - 1 := rfl

end Writer

end FastSchema.Cpp
