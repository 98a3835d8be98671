import FastSchema.Fault.Fallible

/-! # Equations for computations that may stop

`result` forgets the state that a stopped computation leaves behind. What is left is a plain
function, and each primitive step has one equation. -/

namespace FastSchema.Fallible

variable {σ τ α β : Type}

/-! ## The result of a computation -/

def result (x : Fallible σ α) (s : σ) : Except Fault (α × σ) :=
  match x.outcome s with
  | (.ok a, t) => .ok (a, t)
  | (.error f, _) => .error f

theorem outcome_fst (x : Fallible σ α) (s : σ) :
    (x.outcome s).1 = (x.result s).map Prod.fst := by
  unfold result
  rcases x.outcome s with ⟨_ | _, t⟩ <;> rfl

@[simp] theorem outcome_get (s : σ) : (get : Fallible σ σ).outcome s = (.ok s, s) := rfl

@[simp] theorem outcome_set (s t : σ) : (set t : Fallible σ PUnit).outcome s = (.ok ⟨⟩, t) := rfl

@[simp] theorem outcome_modify (f : σ → σ) (s : σ) :
    (modify f : Fallible σ PUnit).outcome s = (.ok ⟨⟩, f s) := rfl

@[simp] theorem outcome_lift (x : Except Fault α) (s : σ) :
    (liftM x : Fallible σ α).outcome s = (x, s) := rfl

theorem outcome_adapt (f : Fault → Fault) (x : Fallible σ α) (s : σ) :
    outcome (ExceptT.adapt f x) s =
      match x.outcome s with
      | (.ok a, t) => (.ok a, t)
      | (.error fault, t) => (.error (f fault), t) := by
  have hrun : outcome (ExceptT.adapt f x) s =
      (((outcome x s).1.mapError f : Except Fault α), (outcome x s).2) := rfl
  rw [hrun]
  rcases outcome x s with ⟨_ | _, t⟩ <;> rfl

/-- A computation that does not stop is described by its result alone. -/
theorem outcome_of_result {x : Fallible σ α} {s t : σ} {a : α} (h : x.result s = .ok (a, t)) :
    x.outcome s = (.ok a, t) := by
  unfold result at h
  split at h
  · cases h
    assumption
  · cases h

theorem result_of_outcome {x : Fallible σ α} {s t : σ} {a : α} (h : x.outcome s = (.ok a, t)) :
    x.result s = .ok (a, t) := by
  unfold result
  rw [h]

@[simp] theorem result_pure (a : α) (s : σ) :
    (pure a : Fallible σ α).result s = pure (a, s) := rfl

@[simp] theorem result_get (s : σ) : (get : Fallible σ σ).result s = pure (s, s) := rfl

@[simp] theorem result_modify (f : σ → σ) (s : σ) :
    (modify f : Fallible σ PUnit).result s = pure (⟨⟩, f s) := rfl

@[simp] theorem result_lift (x : Except Fault α) (s : σ) :
    (liftM x : Fallible σ α).result s = x >>= fun a => pure (a, s) := by
  cases x <;> rfl

@[simp] theorem result_on (part : σ → τ) (replace : τ → σ → σ)
    (step : τ → Except Fault α × τ) (s : σ) :
    (on part replace step).result s =
      (step (part s)).1 >>= fun a => pure (a, replace (step (part s)).2 s) := by
  show (match ((step (part s)).1, replace (step (part s)).2 s) with
    | (.ok a, t) => Except.ok (a, t)
    | (.error f, _) => .error f) = _
  rcases step (part s) with ⟨_ | _, t⟩ <;> rfl

@[simp] theorem result_bind (x : Fallible σ α) (f : α → Fallible σ β) (s : σ) :
    (x >>= f).result s = x.result s >>= fun p => (f p.1).result p.2 := by
  unfold result
  rw [outcome_bind]
  rcases x.outcome s with ⟨_ | _, t⟩ <;> rfl

@[simp] theorem result_map (f : α → β) (x : Fallible σ α) (s : σ) :
    (f <$> x).result s = x.result s >>= fun p => pure (f p.1, p.2) := by
  rw [← bind_pure_comp, result_bind]
  rfl

/-! ## Answers and faults -/

@[simp] theorem ok_bind (a : α) (g : α → Except Fault β) : (Except.ok a >>= g) = g a := rfl

@[simp] theorem error_bind (fault : Fault) (g : α → Except Fault β) :
    (Except.error fault >>= g) = .error fault := rfl

theorem bind_eq_ok {ε : Type} {x : Except ε α} {f : α → Except ε β} {b : β}
    (h : x >>= f = .ok b) : ∃ a, x = .ok a ∧ f a = .ok b := by
  cases x with
  | error fault => cases h
  | ok a => exact ⟨a, rfl, h⟩

theorem map_eq_ok {x : Except Fault α} {f : α → β} {b : β} (h : x.map f = .ok b) :
    ∃ a, x = .ok a ∧ f a = b := by
  cases x with
  | error fault => cases h
  | ok a => exact ⟨a, rfl, Except.ok.inj h⟩

theorem map_eq_error {x : Except Fault α} {f : α → β} {fault : Fault}
    (h : x.map f = .error fault) : x = .error fault := by
  cases x with
  | error _ => exact congrArg Except.error (Except.error.inj h)
  | ok a => cases h

/-- What is found in the answer is found only if there is one. -/
theorem exists_of_toOption_bind {x : Except Fault α} {f : α → Option β} {b : β}
    (h : x.toOption.bind f = some b) : ∃ a, x = .ok a ∧ f a = some b := by
  cases x with
  | error fault => cases h
  | ok a => exact ⟨a, rfl, h⟩

/-! ## What a computation preserves, whether it stops or not -/

/-- A property of the state survives the computation, also when it stops. -/
def Preserves (P : σ → Prop) (x : Fallible σ α) : Prop :=
  ∀ s, P s → P (x.outcome s).2

variable {P : σ → Prop}

theorem preserves_pure (a : α) : Preserves P (pure a : Fallible σ α) := fun _ h => h

theorem preserves_throw (f : Fault) : Preserves P (throw f : Fallible σ α) := fun _ h => h

theorem preserves_get : Preserves P (get : Fallible σ σ) := fun _ h => h

theorem preserves_lift (x : Except Fault α) : Preserves P (liftM x : Fallible σ α) :=
  fun _ h => h

theorem preserves_modify {f : σ → σ} (hf : ∀ s, P s → P (f s)) :
    Preserves P (modify f : Fallible σ PUnit) := hf

theorem preserves_on {part : σ → τ} {replace : τ → σ → σ} {step : τ → Except Fault α × τ}
    (h : ∀ s t, P s → P (replace t s)) : Preserves P (on part replace step) :=
  fun s hs => h s _ hs

theorem Preserves.bind {x : Fallible σ α} {f : α → Fallible σ β} (hx : Preserves P x)
    (hf : ∀ a, Preserves P (f a)) : Preserves P (x >>= f) := by
  intro s hs
  rw [outcome_bind]
  cases ho : x.outcome s with
  | mk answer t =>
      have ht : P t := by simpa only [ho] using hx s hs
      cases answer with
      | error fault => exact ht
      | ok a => exact hf a t ht

end FastSchema.Fallible
