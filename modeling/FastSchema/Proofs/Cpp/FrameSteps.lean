import FastSchema.Cpp.FrameStack

/-! # Steps on frames

A frame is opened or closed, or an entry is added to the innermost one. A step that fails changes
nothing, and the entries that the steps have added are those that they have answered and those that
the open frames hold. -/

namespace FastSchema.Cpp

/-- A frame is known by its symbols and its records. -/
theorem Frame.eq_mk_iff (f : Frame) (entries : List Entry) :
    f = ⟨entries.toArray⟩ ↔
      f.symbols = entries.map Entry.symbol ∧ f.records = entries.map Entry.record := by
  have hzip (entries : List Entry) : entries =
      List.zipWith Entry.mk (entries.map Entry.symbol) (entries.map Entry.record) := by
    induction entries with
    | nil => rfl
    | cons entry entries ih => exact congrArg (List.cons entry) ih
  constructor
  · rintro rfl
    exact ⟨rfl, rfl⟩
  · rintro ⟨hsymbols, hrecords⟩
    have hentries : f.entries.toList = entries := by
      change f.entries.toList.map Entry.symbol = _ at hsymbols
      change f.entries.toList.map Entry.record = _ at hrecords
      rw [hzip f.entries.toList, hsymbols, hrecords, ← hzip entries]
    rw [← hentries]

namespace FrameStack

inductive Step where
  | openFrame
  | append (entry : Entry)
  | closeFrame

def Step.entry? : Step → Option Entry
  | .append entry => some entry
  | _ => none

/-- The frames after a step, whether it succeeds or not. -/
def apply (s : FrameStack) : Step → FrameStack
  | .openFrame => s.openFrame
  | .append entry => (s.append entry).2
  | .closeFrame => s.closeFrame.2

def run (steps : List Step) : FrameStack := steps.foldl apply empty

theorem frames_apply_openFrame (s : FrameStack) :
    (s.apply .openFrame).frames = Frame.empty :: s.frames := rfl

theorem frames_apply_append (s : FrameStack) (entry : Entry) :
    (s.apply (.append entry)).frames =
      s.frames.modifyHead fun f => ⟨f.entries.push entry⟩ := by
  rcases s with ⟨_ | ⟨f, outer⟩⟩ <;> rfl

theorem frames_apply_closeFrame (s : FrameStack) :
    (s.apply .closeFrame).frames = s.frames.tail := by
  rcases s with ⟨_ | ⟨f, outer⟩⟩ <;> rfl

theorem append_ok_iff (s : FrameStack) (entry : Entry) :
    (s.append entry).1 = .ok () ↔ ∃ f, s.frames.head? = some f := by
  rcases s with ⟨_ | ⟨f, outer⟩⟩ <;> simp [append]

theorem closeFrame_ok_iff (s : FrameStack) (f : Frame) :
    s.closeFrame.1 = .ok f ↔ s.frames.head? = some f := by
  rcases s with ⟨_ | ⟨f, outer⟩⟩ <;> simp [closeFrame]

theorem append_eq_error {s : FrameStack} {entry : Entry} {fault : Fault}
    (h : (s.append entry).1 = .error fault) :
    fault = .internal (.noOpenFrame entry.symbol) ∧ (s.append entry).2 = s := by
  rcases s with ⟨_ | ⟨f, outer⟩⟩
  · exact ⟨(Except.error.inj h).symm, rfl⟩
  · cases h

theorem closeFrame_eq_error {s : FrameStack} {fault : Fault}
    (h : s.closeFrame.1 = .error fault) :
    fault = .internal .noFrameToClose ∧ s.closeFrame.2 = s := by
  rcases s with ⟨_ | ⟨f, outer⟩⟩
  · exact ⟨(Except.error.inj h).symm, rfl⟩
  · cases h

/-! ## Where the entries go -/

def entries (s : FrameStack) : List Entry := s.frames.flatMap fun f => f.entries.toList

def taken (s : FrameStack) : Step → List Entry
  | .append entry =>
    match (s.append entry).1 with
    | .ok () => [entry]
    | .error _ => []
  | _ => []

/-- The entries of the frame that the step answers. -/
def answered (s : FrameStack) : Step → List Entry
  | .closeFrame =>
    match s.closeFrame.1 with
    | .ok f => f.entries.toList
    | .error _ => []
  | _ => []

def along (note : FrameStack → Step → List Entry) : FrameStack → List Step → List Entry
  | _, [] => []
  | s, step :: steps => note s step ++ along note (s.apply step) steps

theorem perm_apply (s : FrameStack) (step : Step) :
    (s.entries ++ s.taken step).Perm (s.answered step ++ (s.apply step).entries) := by
  cases step with
  | openFrame => simp [apply, openFrame, entries, taken, answered, Frame.empty]
  | append entry =>
      rcases s with ⟨_ | ⟨f, outer⟩⟩
      · exact .refl _
      · have hmove : ((outer.flatMap fun f => f.entries.toList) ++ [entry]).Perm
            ([entry] ++ outer.flatMap fun f => f.entries.toList) := List.perm_append_comm
        simpa [apply, append, entries, taken, answered] using hmove.append_left f.entries.toList
  | closeFrame =>
      rcases s with ⟨_ | ⟨f, outer⟩⟩
      · exact .refl _
      · simp [apply, closeFrame, entries, taken, answered]

theorem perm_foldl_apply (s : FrameStack) (steps : List Step) :
    (s.entries ++ along taken s steps).Perm
      (along answered s steps ++ (steps.foldl apply s).entries) := by
  induction steps generalizing s with
  | nil => simp [along]
  | cons step steps ih =>
      calc s.entries ++ (s.taken step ++ along taken (s.apply step) steps)
          = (s.entries ++ s.taken step) ++ along taken (s.apply step) steps :=
            (List.append_assoc ..).symm
        List.Perm _ ((s.answered step ++ (s.apply step).entries) ++
            along taken (s.apply step) steps) := (perm_apply s step).append_right _
        _ = s.answered step ++ ((s.apply step).entries ++ along taken (s.apply step) steps) :=
            List.append_assoc ..
        List.Perm _ (s.answered step ++ (along answered (s.apply step) steps ++
            (steps.foldl apply (s.apply step)).entries)) := (ih (s.apply step)).append_left _
        _ = (s.answered step ++ along answered (s.apply step) steps) ++
            (steps.foldl apply (s.apply step)).entries := (List.append_assoc ..).symm

theorem perm_run (steps : List Step) :
    (along taken empty steps).Perm (along answered empty steps ++ (run steps).entries) :=
  perm_foldl_apply empty steps

end FrameStack

end FastSchema.Cpp
