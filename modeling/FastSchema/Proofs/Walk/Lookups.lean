import FastSchema.Proofs.Walk.Monitor
import FastSchema.Registry

/-! # The names that a walk looks up

A monitor notes the names that the calls of a walk look up. Two visitors whose calls do the same on
registries that agree on what the calls look up have walks that do the same, if the registries agree
on the names that are noted. Names after the call that stops a walk are not among them. -/

namespace FastSchema

variable {σ α β : Type}

def Monitor.names (names : VisitorCall → List QualifiedName) : Monitor σ (List QualifiedName) where
  before call _ noted := noted ++ names call
  after _ _ noted := noted

/-- The names that a walk from the given state looks up until it ends or stops, if its calls look up
the given ones. -/
def Visitor.lookups (v : Visitor (Fallible σ)) (names : VisitorCall → List QualifiedName)
    (doc : Document) (s : σ) : List QualifiedName :=
  (((v.monitored (.names names)).walk doc).outcome (s, [])).2.2

/-! ## Computations that do the same -/

namespace Fallible

variable {R : σ → σ → Prop}

/-- From related states both computations answer the same and leave related states. -/
def Similar (R : σ → σ → Prop) (x y : Fallible σ α) : Prop :=
  ∀ s t, R s t → ∃ t', y.outcome t = ((x.outcome s).1, t') ∧ R (x.outcome s).2 t'

theorem similar_pure (a : α) : Similar R (pure a) (pure a) := fun _ t h => ⟨t, rfl, h⟩

theorem similar_throw (f : Fault) : Similar R (throw f : Fallible σ α) (throw f) :=
  fun _ t h => ⟨t, rfl, h⟩

theorem similar_lift (x : Except Fault α) : Similar R (liftM x) (liftM x) :=
  fun _ t h => ⟨t, rfl, h⟩

theorem similar_modify {f : σ → σ} (hf : ∀ s t, R s t → R (f s) (f t)) :
    Similar R (modify f : Fallible σ PUnit) (modify f) := fun s t h => ⟨f t, rfl, hf s t h⟩

theorem similar_on {τ : Type} {part : σ → τ} {replace : τ → σ → σ}
    {step : τ → Except Fault α × τ} (hpart : ∀ s t, R s t → part s = part t)
    (hreplace : ∀ p s t, R s t → R (replace p s) (replace p t)) :
    Similar R (on part replace step) (on part replace step) := by
  intro s t h
  refine ⟨replace (step (part t)).2 t, ?_, ?_⟩
  · show ((step (part t)).1, replace (step (part t)).2 t) = ((step (part s)).1, _)
    rw [hpart s t h]
  · rw [← hpart s t h]
    exact hreplace _ s t h

theorem Similar.bind {x y : Fallible σ α} {f g : α → Fallible σ β} (hx : Similar R x y)
    (hf : ∀ a, Similar R (f a) (g a)) : Similar R (x >>= f) (y >>= g) := by
  intro s t h
  obtain ⟨t', hy, ht'⟩ := hx s t h
  rw [outcome_bind, outcome_bind, hy]
  cases ho : x.outcome s with
  | mk answer s' =>
      rw [ho] at ht'
      cases answer with
      | error fault => exact ⟨t', rfl, ht'⟩
      | ok a => exact hf a s' t' ht'

theorem similar_ite {c : Prop} [Decidable c] {x x' y y' : Fallible σ α} (h : Similar R x y)
    (h' : Similar R x' y') : Similar R (if c then x else x') (if c then y else y') := by
  by_cases hc : c
  · rw [if_pos hc, if_pos hc]
    exact h
  · rw [if_neg hc, if_neg hc]
    exact h'

/-- A check that stops in both computations, or else in neither. -/
theorem similar_check {c : Prop} [Decidable c] {f : Fault} {x y : Fallible σ α}
    (h : Similar R x y) :
    Similar R (do
        if c then throw f
        x)
      (do
        if c then throw f
        y) :=
  similar_ite ((similar_throw f).bind fun _ => h) h

/-- What follows may depend on the states, if it does the same for all that are related. -/
theorem similar_get_bind {f g : σ → Fallible σ α}
    (hf : ∀ s t, R s t → Similar R (f s) (g t)) : Similar R (get >>= f) (get >>= g) := by
  intro s t h
  rw [outcome_bind, outcome_bind, outcome_get, outcome_get]
  exact hf s t h s t h

end Fallible

open Fallible (Similar)

/-! ## Walks that do the same -/

/-- Where `x` notes names that are all agreed on, `y` does from related states what `x` does. -/
def Follows (agree : QualifiedName → Prop) (R : σ → σ → Prop)
    (x : Fallible (σ × List QualifiedName) α) (y : Fallible σ α) : Prop :=
  ∀ s noted, ∃ answer s' more, x.outcome (s, noted) = (answer, (s', noted ++ more)) ∧
    ∀ t, R s t → (∀ q ∈ more, agree q) → ∃ t', y.outcome t = (answer, t') ∧ R s' t'

theorem composable_follows (agree : QualifiedName → Prop) (R : σ → σ → Prop) :
    Composable (@fun α => @Follows σ α agree R) where
  pure a s noted := ⟨.ok a, s, [], by simp, fun t hR _ => ⟨t, rfl, hR⟩⟩
  bind := by
    intro α β x y f g hx hf s noted
    obtain ⟨answer, s', more, hout, hsame⟩ := hx s noted
    cases answer with
    | error fault =>
        refine ⟨.error fault, s', more, by rw [Fallible.outcome_bind, hout], fun t hR hagree => ?_⟩
        obtain ⟨t', hy, ht'⟩ := hsame t hR hagree
        exact ⟨t', by rw [Fallible.outcome_bind, hy], ht'⟩
    | ok a =>
        -- The names of both parts are noted, those of the first part first.
        obtain ⟨answer, s'', rest, hrest, hlater⟩ := hf a s' (noted ++ more)
        refine ⟨answer, s'', more ++ rest, ?_, fun t hR hagree => ?_⟩
        · rw [Fallible.outcome_bind, hout, ← List.append_assoc]
          exact hrest
        · have hfirst : ∀ q ∈ more, agree q := fun q hq =>
            hagree q (List.mem_append_left rest hq)
          have hsecond : ∀ q ∈ rest, agree q := fun q hq =>
            hagree q (List.mem_append_right more hq)
          obtain ⟨t', hy, ht'⟩ := hsame t hR hfirst
          rw [Fallible.outcome_bind, hy]
          exact hlater t' ht' hsecond

variable {v w : Visitor (Fallible σ)} {names : VisitorCall → List QualifiedName}
  {agree : QualifiedName → Prop} {R : σ → σ → Prop}

/-- A call that does the same if its own names are agreed on follows the call with its monitor. -/
theorem follows_around {call : VisitorCall} {x y : Fallible σ α}
    (hcall : (∀ q ∈ names call, agree q) → Similar R x y) :
    Follows agree R ((Monitor.names names).around call x) y := by
  intro s noted
  refine ⟨(x.outcome s).1, (x.outcome s).2, names call, ?_, fun t hR hagree =>
    hcall hagree s t hR⟩
  rw [Monitor.outcome_around]
  rcases x.outcome s with ⟨_ | _, t⟩ <;> rfl

/-- Registries that agree on what a walk looks up cannot be told apart by it. -/
theorem Visitor.outcome_walk_of_agree
    (hcall : ∀ call, (∀ q ∈ names call, agree q) → Similar R (v.perform call) (w.perform call))
    {doc : Document} {s t : σ} (hR : R s t) (hagree : ∀ q ∈ v.lookups names doc s, agree q) :
    ∃ t', (w.walk doc).outcome t = (((v.walk doc).outcome s).1, t') ∧
      R ((v.walk doc).outcome s).2 t' := by
  have hfollows : Follows agree R ((v.monitored (.names names)).walk doc) (w.walk doc) :=
    (composable_follows agree R).walk (fun call => by
      rw [perform_monitored]
      exact follows_around (hcall call)) doc
  obtain ⟨answer, s', more, hout, hsame⟩ := hfollows s []
  have hplain : (v.walk doc).outcome s = (answer, s') := by
    rw [composable_accounts.walk (v.accounts_perform (.names names)) doc s [], hout]
  have hmore : v.lookups names doc s = more := by rw [lookups, hout, List.nil_append]
  rw [hplain]
  exact hsame t hR (hmore ▸ hagree)

end FastSchema
