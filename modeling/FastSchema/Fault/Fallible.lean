import FastSchema.Fault

/-!
# Computations that may stop with a fault

A step of a compilation changes a state and either answers or stops with a fault. What it changed
before it stopped stays changed.
-/

namespace FastSchema

/-- A computation on a state `σ` that may stop with a fault. -/
abbrev Fallible (σ : Type) := ExceptT Fault (StateM σ)

namespace Fallible

variable {σ τ α : Type}

def on (part : σ → τ) (replace : τ → σ → σ) (step : τ → Except Fault α × τ) : Fallible σ α :=
  ExceptT.mk fun s => ((step (part s)).1, replace (step (part s)).2 s)

/-- The answer or fault of a computation, and the state it leaves. -/
def outcome (x : Fallible σ α) (s : σ) : Except Fault α × σ :=
  StateT.run (ExceptT.run x) s

@[simp] theorem outcome_pure (a : α) (s : σ) : (pure a : Fallible σ α).outcome s = (.ok a, s) := rfl

@[simp] theorem outcome_throw (f : Fault) (s : σ) :
    (throw f : Fallible σ α).outcome s = (.error f, s) := rfl

theorem outcome_bind {β : Type} (x : Fallible σ α) (f : α → Fallible σ β) (s : σ) :
    (x >>= f).outcome s =
      match x.outcome s with
      | (.ok a, t) => (f a).outcome t
      | (.error e, t) => (.error e, t) := by
  simp only [outcome, ExceptT.run, StateT.run, bind, ExceptT.bind, ExceptT.mk, StateT.bind]
  rcases x s with ⟨_ | _, t⟩ <;> rfl

end Fallible

end FastSchema
