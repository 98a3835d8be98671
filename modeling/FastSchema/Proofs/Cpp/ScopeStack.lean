import FastSchema.Cpp.ScopeStack

/-! # Scopes as spliced texts

The scope of a view can be kept as one text. Opening a node puts what its name adds at the end of
the text, and closing it cuts the same number of characters off again, whichever they are. As long
as it is always the innermost node that is closed, the text is the scope of the stack. -/

namespace FastSchema.Cpp

def View.suffix : View → String
  | .cref => "_cref"
  | .mref => "_mref"

theorem View.suffix_eq (view : View) : view.suffix = "_" ++ view.name := by
  cases view <;> rfl

/-! ## Spliced texts -/

def cutEnd (s : String) (count : Nat) : String := (s.dropEnd count).copy

theorem cutEnd_append (s t : String) : cutEnd (s ++ t) t.length = s := by
  rw [cutEnd, ← String.toList_inj, String.toList_copy_dropEnd]
  have hlength : (s ++ t).toList.length - t.length = s.toList.length := by
    simp only [String.toList_append, List.length_append, String.length_toList]
    omega
  rw [hlength, String.toList_append]
  exact List.take_left

/-- A node is opened or closed. -/
inductive ScopeStep where
  | push (name : String)
  | pop (name : String)
deriving DecidableEq, Repr

/-- The scopes of the two views of the innermost node. -/
structure SplicedScope where
  cref : String
  mref : String
deriving DecidableEq, Repr

namespace SplicedScope

def empty : SplicedScope := ⟨"", ""⟩

def push (t : SplicedScope) (name : String) : SplicedScope :=
  ⟨t.cref ++ (name ++ "_cref::"), t.mref ++ (name ++ "_mref::")⟩

/-- Cuts off as many characters as are put at the end for the name. -/
def pop (t : SplicedScope) (name : String) : SplicedScope :=
  ⟨cutEnd t.cref (name.length + "_cref::".length),
    cutEnd t.mref (name.length + "_mref::".length)⟩

theorem pop_push (t : SplicedScope) (name : String) : (t.push name).pop name = t := by
  simp only [push, pop, ← String.length_append, cutEnd_append]

def apply (t : SplicedScope) : ScopeStep → SplicedScope
  | .push name => t.push name
  | .pop name => t.pop name

def after (t : SplicedScope) (steps : List ScopeStep) : SplicedScope := steps.foldl apply t

end SplicedScope

/-! ## The stack beside the texts -/

namespace ScopeStack

/-- The stack after a step, whether the step fails or not. -/
def apply (s : ScopeStack) : ScopeStep → ScopeStack
  | .push name => s.push name
  | .pop name => (s.pop name).2

def after (s : ScopeStack) (steps : List ScopeStep) : ScopeStack := steps.foldl apply s

theorem segment_eq (view : View) (name : String) :
    segment view name = name ++ (view.suffix ++ "::") := by
  simp only [segment, View.suffix_eq, String.append_assoc]

/-- The texts are the scopes of the stack. -/
structure Spliced (s : ScopeStack) (t : SplicedScope) : Prop where
  cref : s.qualifier .cref = t.cref
  mref : s.qualifier .mref = t.mref

theorem spliced_empty : Spliced empty .empty := ⟨rfl, rfl⟩

theorem Spliced.push {s : ScopeStack} {t : SplicedScope} (h : Spliced s t) (name : String) :
    Spliced (s.push name) (t.push name) where
  cref := by
    rw [qualifier_push, segment_eq, h.cref]
    rfl
  mref := by
    rw [qualifier_push, segment_eq, h.mref]
    rfl

/-- The name on top is the last that was put at the end of the texts. -/
theorem Spliced.exists_push {s : ScopeStack} {t : SplicedScope} (h : Spliced s t) {name : String}
    (htop : s.segments.head? = some name) :
    ∃ (below : ScopeStack) (outer : SplicedScope), s = below.push name ∧ t = outer.push name ∧
      Spliced below outer := by
  obtain ⟨rest, hsegments⟩ := List.head?_eq_some_iff.mp htop
  have hs : s = ScopeStack.push ⟨rest⟩ name := congrArg ScopeStack.mk hsegments
  refine ⟨⟨rest⟩, ⟨qualifier ⟨rest⟩ .cref, qualifier ⟨rest⟩ .mref⟩, hs, ?_, ⟨rfl, rfl⟩⟩
  have hcref := h.cref
  have hmref := h.mref
  rw [hs, qualifier_push, segment_eq] at hcref hmref
  obtain ⟨cref, mref⟩ := t
  cases hcref
  cases hmref
  rfl

theorem Spliced.pop {s : ScopeStack} {t : SplicedScope} (h : Spliced s t) {name : String}
    (htop : s.segments.head? = some name) : Spliced (s.pop name).2 (t.pop name) := by
  obtain ⟨below, outer, rfl, rfl, houter⟩ := h.exists_push htop
  rw [pop_push, SplicedScope.pop_push]
  exact houter

/-- Each pop names the segment on top. -/
def PopsTop (s : ScopeStack) (steps : List ScopeStep) : Prop :=
  ∀ before name rest, steps = before ++ .pop name :: rest →
    (s.after before).segments.head? = some name

theorem popsTop_cons {s : ScopeStack} {step : ScopeStep} {steps : List ScopeStep} :
    s.PopsTop (step :: steps) ↔
      (∀ name, step = .pop name → s.segments.head? = some name) ∧ (s.apply step).PopsTop steps := by
  constructor
  · intro h
    constructor
    · intro name hstep
      exact h [] name steps (by rw [hstep]; rfl)
    · intro before name rest hsteps
      exact h (step :: before) name rest (by rw [hsteps]; rfl)
  · rintro ⟨hfirst, hrest⟩ before name rest hsteps
    cases before with
    | nil =>
        obtain ⟨hstep, -⟩ := List.cons.inj hsteps
        exact hfirst name hstep
    | cons first before =>
        obtain ⟨rfl, hlater⟩ := List.cons.inj hsteps
        exact hrest before name rest hlater

theorem popsTop_push {s : ScopeStack} {name : String} {steps : List ScopeStep} :
    s.PopsTop (.push name :: steps) ↔ (s.push name).PopsTop steps := by
  rw [popsTop_cons]
  exact and_iff_right nofun

theorem popsTop_pop {s : ScopeStack} {name : String} {steps : List ScopeStep} :
    s.PopsTop (.pop name :: steps) ↔
      s.segments.head? = some name ∧ (s.pop name).2.PopsTop steps := by
  rw [popsTop_cons]
  apply and_congr_left'
  constructor
  · intro h
    exact h name rfl
  · rintro h _ ⟨⟩
    exact h

instance decidablePopsTop : (s : ScopeStack) → (steps : List ScopeStep) →
    Decidable (s.PopsTop steps)
  | _, [] => isTrue (by intro before name rest h; simp at h)
  | s, .push name :: steps =>
    have := decidablePopsTop (s.push name) steps
    decidable_of_iff' _ popsTop_push
  | s, .pop name :: steps =>
    have := decidablePopsTop (s.pop name).2 steps
    decidable_of_iff' _ popsTop_pop

theorem PopsTop.of_append {s : ScopeStack} {steps more : List ScopeStep}
    (h : s.PopsTop (steps ++ more)) : s.PopsTop steps := by
  intro before name rest hsteps
  apply h before name (rest ++ more)
  rw [hsteps, List.append_assoc, List.cons_append]

theorem Spliced.after {s : ScopeStack} {t : SplicedScope} (h : Spliced s t)
    {steps : List ScopeStep} (hpops : s.PopsTop steps) :
    Spliced (s.after steps) (t.after steps) := by
  induction steps generalizing s t with
  | nil => exact h
  | cons step steps ih =>
      cases step with
      | push name => exact ih (h.push name) (popsTop_push.mp hpops)
      | pop name =>
          obtain ⟨htop, hrest⟩ := popsTop_pop.mp hpops
          exact ih (h.pop htop) hrest

/-- How the stack and the texts go through the steps. The texts stay the scopes of the two views,
and a pop cuts off just what was put at the end for its name. -/
structure SpliceSpec (steps : List ScopeStep) : Prop where
  scopes : ∀ before rest, steps = before ++ rest →
    (empty.after before).qualifier .cref = (SplicedScope.empty.after before).cref ∧
      (empty.after before).qualifier .mref = (SplicedScope.empty.after before).mref
  pops : ∀ before name rest, steps = before ++ .pop name :: rest →
    ((empty.after before).pop name).1 = .ok () ∧
      SplicedScope.empty.after before =
        (SplicedScope.empty.after (before ++ [.pop name])).push name

/-- A stack whose pops name the segment on top can be replaced by spliced texts. -/
theorem splice_spec {steps : List ScopeStep} (h : empty.PopsTop steps) : SpliceSpec steps where
  scopes before rest hsteps := by
    have hspliced := spliced_empty.after (hsteps ▸ h).of_append
    exact ⟨hspliced.cref, hspliced.mref⟩
  pops before name rest hsteps := by
    have hspliced := spliced_empty.after (hsteps ▸ h).of_append
    obtain ⟨below, outer, hbelow, houter, -⟩ := hspliced.exists_push (h before name rest hsteps)
    refine ⟨by rw [hbelow, pop_push], ?_⟩
    have hpopped : SplicedScope.empty.after (before ++ [.pop name]) =
        (SplicedScope.empty.after before).pop name := List.foldl_append
    rw [hpopped, houter, SplicedScope.pop_push]

/-- A name that reads like the scopes of two others, an empty one and one that ends another. -/
def alikeNames : List ScopeStep :=
  [.push "ab", .push "b_cref::", .pop "b_cref::", .push "b", .push "", .push "b", .pop "b",
    .pop "", .pop "b"]

theorem splice_spec_of_alikeNames : empty.PopsTop alikeNames ∧ SpliceSpec alikeNames ∧
    (empty.after (alikeNames.take 2)).qualifier .cref = "ab_cref::b_cref::_cref::" ∧
    (empty.after (alikeNames.take 5)).qualifier .cref = "ab_cref::b_cref::_cref::" ∧
    (empty.after alikeNames).qualifier .cref = "ab_cref::" := by
  have hpops : empty.PopsTop alikeNames := by decide
  exact ⟨hpops, splice_spec hpops, by decide, by decide, by decide⟩

end ScopeStack

end FastSchema.Cpp
