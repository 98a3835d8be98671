import FastSchema.Cpp.Writer

/-! # What is written does not depend on what stands before it

Writing after some text gives the text and then what would have been written without it. -/

namespace FastSchema.Cpp.Writer

def prepend (w : Writer) (before : String) : Writer := ⟨before ++ w.text, w.indent⟩

@[simp] theorem text_empty : empty.text = "" := rfl

@[simp] theorem prepend_line (w : Writer) (before s : String) :
    (w.prepend before).line s = (w.line s).prepend before := by
  simp only [line, prepend, String.append_assoc]

@[simp] theorem prepend_lines (w : Writer) (before : String) (ss : List String) :
    (w.prepend before).lines ss = (w.lines ss).prepend before := by
  unfold lines
  induction ss generalizing w with
  | nil => rfl
  | cons s ss ih => rw [List.foldl_cons, List.foldl_cons, prepend_line, ih]

@[simp] theorem prepend_blank (w : Writer) (before : String) :
    (w.prepend before).blank = w.blank.prepend before := by
  simp only [blank, prepend, String.append_assoc]

@[simp] theorem prepend_openBlock (w : Writer) (before : String) :
    (w.prepend before).openBlock = w.openBlock.prepend before := by
  simp only [openBlock, prepend_line]
  rfl

@[simp] theorem prepend_closeBlock (w : Writer) (before : String) :
    (w.prepend before).closeBlock = w.closeBlock.prepend before :=
  prepend_line ⟨w.text, w.indent - 1⟩ before _

/-- Outside all blocks a writer is known by its text. -/
theorem eq_prepend_empty {w : Writer} (h : w.indent = 0) : w = empty.prepend w.text := by
  obtain ⟨text, indent⟩ := w
  cases h
  simp [prepend, empty]

end FastSchema.Cpp.Writer
