import FastSchema.Cpp.Writer

/-! # Blocks in the order in which they are written

What is written is a list of steps of the writer. Steps that are nested close no block that they
have not opened before, and a list of them leaves the writer at the depth where it found it. -/

namespace FastSchema.Cpp.Writer

/-- A step of writing. -/
inductive Step where
  | line (s : String)
  | blank
  | openBlock
  | closeBlock
deriving DecidableEq, Repr

def Step.apply (w : Writer) : Step → Writer
  | .line s => w.line s
  | .blank => w.blank
  | .openBlock => w.openBlock
  | .closeBlock => w.closeBlock

def after (w : Writer) (steps : List Step) : Writer := steps.foldl Step.apply w

@[simp] theorem after_nil (w : Writer) : w.after [] = w := rfl

@[simp] theorem after_cons (w : Writer) (step : Step) (steps : List Step) :
    w.after (step :: steps) = (step.apply w).after steps := rfl

@[simp] theorem after_append (w : Writer) (first rest : List Step) :
    w.after (first ++ rest) = (w.after first).after rest := List.foldl_append

@[simp] theorem after_map_line (w : Writer) (ss : List String) :
    w.after (ss.map .line) = w.lines ss := List.foldl_map

/-- Items that are each written by steps are written by all of these. -/
theorem foldl_eq_after {α : Type} {write : α → Writer → Writer} {steps : α → List Step}
    (h : ∀ a w, write a w = w.after (steps a)) (items : List α) (w : Writer) :
    items.foldl (fun w a => write a w) w = w.after (items.flatMap steps) := by
  induction items generalizing w with
  | nil => rfl
  | cons a items ih => rw [List.foldl_cons, ih, h, List.flatMap_cons, after_append]

/-- No step closes a block outside all blocks. -/
def ClosesInside (w : Writer) (steps : List Step) : Prop :=
  ∀ before rest, steps = before ++ .closeBlock :: rest → 0 < (w.after before).indent

theorem closesInside_nil (w : Writer) : w.ClosesInside [] := by
  intro before rest h
  simp at h

theorem closesInside_cons {w : Writer} {step : Step} {steps : List Step} :
    w.ClosesInside (step :: steps) ↔
      (step = .closeBlock → 0 < w.indent) ∧ (step.apply w).ClosesInside steps := by
  constructor
  · intro h
    refine ⟨fun hstep => h [] steps (by rw [hstep]; rfl), fun before rest hsteps => ?_⟩
    exact h (step :: before) rest (by rw [hsteps]; rfl)
  · rintro ⟨hfirst, hrest⟩ before rest hsteps
    cases before with
    | nil =>
        obtain ⟨rfl, _⟩ := List.cons.inj hsteps
        exact hfirst rfl
    | cons first before =>
        obtain ⟨rfl, hlater⟩ := List.cons.inj hsteps
        exact hrest before rest hlater

theorem closesInside_append {w : Writer} {first rest : List Step} :
    w.ClosesInside (first ++ rest) ↔ w.ClosesInside first ∧ (w.after first).ClosesInside rest := by
  induction first generalizing w with
  | nil => simp [closesInside_nil]
  | cons step first ih =>
      rw [List.cons_append, closesInside_cons, closesInside_cons, ih, after_cons, and_assoc]

theorem closesInside_map_line (w : Writer) (ss : List String) :
    w.ClosesInside (ss.map .line) := by
  induction ss generalizing w with
  | nil => exact closesInside_nil w
  | cons s ss ih => exact closesInside_cons.mpr ⟨nofun, ih (w.line s)⟩

/-- The steps close every block that they open and no other. -/
structure Nested (steps : List Step) : Prop where
  indent : ∀ w : Writer, (w.after steps).indent = w.indent
  closes : ∀ w : Writer, w.ClosesInside steps

theorem nested_nil : Nested [] := ⟨fun _ => rfl, closesInside_nil⟩

theorem nested_line (s : String) : Nested [.line s] :=
  ⟨fun _ => rfl, fun w => closesInside_map_line w [s]⟩

theorem nested_blank : Nested [.blank] :=
  ⟨fun _ => rfl, fun _ => closesInside_cons.mpr ⟨nofun, closesInside_nil _⟩⟩

theorem nested_map_line (ss : List String) : Nested (ss.map .line) :=
  ⟨fun w => by rw [after_map_line, indent_lines], fun w => closesInside_map_line w ss⟩

theorem Nested.append {first rest : List Step} (h : Nested first) (h' : Nested rest) :
    Nested (first ++ rest) where
  indent w := by rw [after_append, h'.indent, h.indent]
  closes w := closesInside_append.mpr ⟨h.closes w, h'.closes _⟩

theorem Nested.cons {step : Step} {rest : List Step} (h : Nested [step]) (h' : Nested rest) :
    Nested (step :: rest) := h.append h'

theorem Nested.block {steps : List Step} (h : Nested steps) :
    Nested (.openBlock :: steps ++ [.closeBlock]) where
  indent w := by
    simp only [List.cons_append, after_cons, after_append, after_nil, Step.apply,
      indent_closeBlock, h.indent, indent_openBlock, Nat.add_sub_cancel]
  closes w := by
    have hopen : 0 < (w.openBlock.after steps).indent := by
      rw [h.indent]
      exact Nat.succ_pos _
    rw [List.cons_append, closesInside_cons, closesInside_append, closesInside_cons]
    exact ⟨nofun, h.closes _, fun _ => hopen, closesInside_nil _⟩

theorem nested_flatMap {α : Type} {items : List α} {steps : α → List Step}
    (h : ∀ a ∈ items, Nested (steps a)) : Nested (items.flatMap steps) := by
  induction items with
  | nil => exact nested_nil
  | cons a items ih =>
      rw [List.flatMap_cons]
      exact (h a (by simp)).append (ih fun b hb => h b (by simp [hb]))

end FastSchema.Cpp.Writer
