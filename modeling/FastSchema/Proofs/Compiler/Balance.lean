import FastSchema.Proofs.Accessors.Balance
import FastSchema.Proofs.Compiler.Report
import FastSchema.Proofs.Tables.Balance

/-! # Both walks are balanced

What both walks over a document leave open and what they close, whatever is registered. -/

namespace FastSchema

open Cpp (Writer)

/-- No node and no block is open, and no block was closed outside all blocks. -/
structure Accessors.State.Closed (s : Accessors.State) : Prop where
  scope : s.scope = .empty
  indent : s.writer.indent = 0
  closes : Writer.empty.ClosesInside s.steps

/-- No node and no block is open, and no block was closed outside all blocks. -/
structure Tables.State.Closed (s : Tables.State) : Prop where
  symbols : s.symbols = .empty
  frames : s.frames = .empty
  indent : s.writer.indent = 0
  closes : Writer.empty.ClosesInside s.steps

theorem Tables.Settled.closed {s : Tables.State} (h : Tables.Settled s) : s.Closed where
  symbols := h.symbols
  frames := h.frames
  indent := by
    rw [State.writer_eq_after, h.nested.indent]
    rfl
  closes := h.nested.closes .empty

/-- What holds of the two walks over a document with an arbitrary registry. Each closes every node
that it leaves, also if it stops later on, and the accessor walk never stops. -/
structure BalanceSpec (unit : String) (doc : Document) (registry : Registry) : Prop where
  accessors : ∃ s, ((Accessors.visitor unit registry).walk doc).outcome .empty = (.ok (), s) ∧
    s.Closed
  accessor_passages : ∀ p ∈ (Accessors.visitor unit registry).passages doc .empty,
    p.Keeps fun _ => Accessors.Balanced
  table_passages : ∀ p ∈ (Tables.visitor unit).passages doc (.start registry),
    p.Keeps Tables.Balanced
  tables : ∀ s, ((Tables.visitor unit).walkInside doc).outcome (.start registry) = (.ok (), s) →
    s.Closed ∧ ∃ s', ((Tables.visitor unit).walk doc).outcome (.start registry) = (.ok (), s') ∧
      s'.Closed

/-- Both walks are balanced. -/
theorem balance_spec (unit : String) (doc : Document) (registry : Registry) :
    BalanceSpec unit doc registry where
  accessors := by
    refine ⟨_, Fallible.outcome_of_result (Accessors.result_walk unit registry doc), rfl, ?_, ?_⟩
    · exact Accessors.State.indent_writer _
    · exact (Accessors.State.nested_steps _).closes .empty
  accessor_passages _ hp :=
    (Accessors.keepsOn_balanced unit registry).keeps_of_mem_passages (fun s hout => by
      cases hout
      rfl) hp
  table_passages _ hp :=
    (Tables.keepsOn_balanced unit).keeps_of_mem_passages (fun s hout => by
      cases hout
      rfl) hp
  tables s hout := by
    have hsettled := Tables.settled_walkInside unit hout
    obtain ⟨s', hexit, hsettled'⟩ := hsettled.exitDocument unit doc doc.context
    refine ⟨hsettled.closed, s', ?_, hsettled'.closed⟩
    rw [Visitor.walk_eq_walkInside, Fallible.outcome_bind, hout]
    exact hexit

/-- Nodes are left from the inside out. -/
example : ((Tables.visitor "orders").passages (Compile.orderDocument .empty)
    (.start .empty)).map Passage.kind = [.group, .sequence, .template] := rfl

end FastSchema
