import FastSchema.Proofs.Accessors.Refinement
import FastSchema.Proofs.Cpp.Blocks
import FastSchema.Proofs.Walk.Passages

/-! # The accessor walk is balanced

The walk never stops. A node that is left has closed the scope that it opened, and every definition
closes the blocks that it opens. -/

namespace FastSchema.Accessors

open Cpp (ScopeStack Writer punctuate)
open Cpp.Writer (Step Nested nested_line nested_blank nested_map_line nested_flatMap)

/-! ## Steps of the writer -/

namespace Definition

def methodSteps (type qualified qualifier : String) (body : List String) : List Step :=
  .blank :: .line ("inline " ++ type) :: .line (qualified ++ "()" ++ qualifier) ::
    (.openBlock :: body.map .line ++ [.closeBlock])

def steps : Definition → List Step
  | .openNamespace unit => [.line ("namespace " ++ unit), .line "\x7b"]
  | .closeNamespace => [.blank, .line "\x7d"]
  | .constructor qualified params init body =>
    .blank :: ("inline" :: (qualified ++ "(") :: (punctuate ")" params).map ("  " ++ ·) ++
      ["  : " ++ init]).map .line ++ (.openBlock :: body.map .line ++ [.closeBlock])
  | .method type qualified qualifier body => methodSteps type qualified qualifier body
  | .accessor a =>
    methodSteps a.type a.qualifiedName " const" ["return " ++ a.expression ++ ";"]

theorem write_eq_after (d : Definition) (w : Writer) : d.write w = w.after d.steps := by
  cases d <;>
    simp [write, writeMethod, steps, methodSteps, Step.apply, Writer.lines, -List.map_map]

theorem nested_methodSteps (type qualified qualifier : String) (body : List String) :
    Nested (methodSteps type qualified qualifier body) :=
  .cons nested_blank <| .cons (nested_line _) <| .cons (nested_line _) (nested_map_line body).block

/-- A definition closes every block that it opens. -/
theorem nested_steps (d : Definition) : Nested d.steps := by
  cases d with
  | openNamespace unit => exact .cons (nested_line _) (nested_line _)
  | closeNamespace => exact .cons nested_blank (nested_line _)
  | constructor qualified params init body =>
      exact (Nested.cons nested_blank (nested_map_line _)).append (nested_map_line body).block
  | method type qualified qualifier body => exact nested_methodSteps type qualified qualifier body
  | accessor a => exact nested_methodSteps _ _ _ _

end Definition

/-! ## States -/

namespace State

def writer (s : State) : Writer := s.definitions.foldl (fun w d => d.write w) Writer.empty

/-- The steps by which the definitions so far are written. -/
def steps (s : State) : List Step := s.definitions.toList.flatMap Definition.steps

theorem writer_eq_after (s : State) : s.writer = Writer.empty.after s.steps := by
  rw [writer, steps, ← Array.foldl_toList, Writer.foldl_eq_after Definition.write_eq_after]

theorem nested_steps (s : State) : Nested s.steps := nested_flatMap fun d _ => d.nested_steps

theorem indent_writer (s : State) : s.writer.indent = 0 := by
  rw [writer_eq_after, s.nested_steps.indent]
  rfl

end State

/-! ## Nodes -/

/-- What a walk over a node leaves as it was. -/
structure Balanced (before after : State) : Prop where
  scope : after.scope = before.scope
  indent : after.writer.indent = before.writer.indent

variable (unit : String) (known : Registry)

theorem scope_walkTemplate {cx : Context} {index : Nat} {t : Template} {s s' : State}
    (hs : s.scope = .empty)
    (h : ((visitor unit known).walkTemplate cx index t).outcome s = (.ok (), s')) :
    s'.scope = .empty := by
  -- A walk over one template is a walk over templates.
  have hwalk : ((visitor unit known).walkTemplates cx index [t]).outcome s = (.ok (), s') := by
    rw [Visitor.walkTemplates, Fallible.outcome_bind, h]
    rfl
  obtain ⟨scope, definitions⟩ := s
  obtain rfl : scope = .empty := hs
  have hresult := Fallible.result_of_outcome hwalk
  rw [result_walkTemplates] at hresult
  cases hresult
  rfl

theorem keepsOn_balanced : (visitor unit known).KeepsOn (fun s => s.scope = .empty)
    (fun _ => True) (fun _ => Balanced) where
  enterTemplate _ _ := trivial
  walkTemplate hs hout := by
    have hscope := scope_walkTemplate unit known hs hout
    exact ⟨hscope, hscope.trans hs.symm, by rw [State.indent_writer, State.indent_writer]⟩
  enterComposite _ _ := trivial
  walkComposite := by
    intro cx index head kind typeRef fields s s' _ hout
    have hresult := Fallible.result_of_outcome hout
    rw [result_walkField] at hresult
    cases hresult
    exact ⟨trivial, rfl, by rw [State.indent_writer, State.indent_writer]⟩
  visitLeaf _ _ := trivial

end FastSchema.Accessors
