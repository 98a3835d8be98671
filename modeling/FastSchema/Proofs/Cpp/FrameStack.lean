import FastSchema.Cpp.FrameStack

/-! # Children of the innermost frame

Adding children one by one is adding a list of them, and a frame is closed with what was added to
it. -/

namespace FastSchema.Cpp.FrameStack

theorem appendList_appendList {α : Type} (entries : Array α) (first rest : List α) :
    entries ++ first ++ rest = entries ++ (first ++ rest) :=
  Array.ext' (by simp)

def extend (s : FrameStack) (entries : List Entry) : FrameStack :=
  match s.frames with
  | [] => s
  | f :: outer => ⟨⟨f.entries ++ entries⟩ :: outer⟩

@[simp] theorem depth_openFrame (s : FrameStack) : s.openFrame.depth = s.depth + 1 := rfl

@[simp] theorem depth_extend (s : FrameStack) (entries : List Entry) :
    (s.extend entries).depth = s.depth := by
  rcases s with ⟨_ | ⟨f, outer⟩⟩ <;> rfl

@[simp] theorem extend_nil (s : FrameStack) : s.extend [] = s := by
  rcases s with ⟨_ | ⟨f, outer⟩⟩ <;> simp [extend]

theorem extend_extend (s : FrameStack) (first rest : List Entry) :
    (s.extend first).extend rest = s.extend (first ++ rest) := by
  rcases s with ⟨_ | ⟨f, outer⟩⟩
  · rfl
  · simp only [extend, appendList_appendList]

theorem append_eq_extend {s : FrameStack} (h : 0 < s.depth) (entry : Entry) :
    s.append entry = (.ok (), s.extend [entry]) := by
  rcases s with ⟨_ | ⟨f, outer⟩⟩
  · cases h
  · simp [append, extend]

/-- Closing a frame answers the children added since it was opened. -/
theorem closeFrame_extend_openFrame (s : FrameStack) (entries : List Entry) :
    (s.openFrame.extend entries).closeFrame = (.ok ⟨entries.toArray⟩, s) := by
  simp [openFrame, extend, closeFrame, Frame.empty]

end FastSchema.Cpp.FrameStack
