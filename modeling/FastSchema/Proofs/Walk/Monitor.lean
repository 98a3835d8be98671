import FastSchema.Proofs.Fallible
import FastSchema.Walk.Visitor

/-! # Watching a walk

A walk combines the calls of its visitor and does nothing of its own, so whatever relates the calls
of two visitors relates their walks. A monitor keeps an account of the calls next to the state that
they work on, and does not disturb them. -/

namespace FastSchema

/-! ## Calls -/

/-- A call that a walk makes of a visitor. -/
inductive VisitorCall where
  | enterDocument (doc : Document) (cx : Context)
  | exitDocument (doc : Document) (cx : Context)
  | enterTemplate (t : Template) (cx : Context) (index : Nat)
  | exitTemplate (t : Template) (cx : Context) (numFields index : Nat)
  | enterComposite (c : Composite) (cx : Context) (index : Nat)
  | exitComposite (c : Composite) (cx : Context) (numFields index : Nat)
  | visitLeaf (head : FieldHead) (content : Leaf) (cx : Context) (index : Nat)

namespace VisitorCall

/-- What a call answers: on entering, whether the children are to be visited. -/
abbrev Answer : VisitorCall → Type
  | enterTemplate _ _ _ => Descend
  | enterComposite _ _ _ => Descend
  | _ => Unit

end VisitorCall

/-- Makes the call. -/
def Visitor.perform {m : Type → Type} (v : Visitor m) : (call : VisitorCall) → m call.Answer
  | .enterDocument doc cx => v.enterDocument doc cx
  | .exitDocument doc cx => v.exitDocument doc cx
  | .enterTemplate t cx index => v.enterTemplate t cx index
  | .exitTemplate t cx numFields index => v.exitTemplate t cx numFields index
  | .enterComposite c cx index => v.enterComposite c cx index
  | .exitComposite c cx numFields index => v.exitComposite c cx numFields index
  | .visitLeaf head content cx index => v.visitLeaf head content cx index

/-! ## Related walks -/

/-- A relation between computations that is kept by putting them one after the other. -/
structure Composable {m n : Type → Type} [Monad m] [Monad n]
    (R : ∀ {α : Type}, m α → n α → Prop) : Prop where
  pure : ∀ {α : Type} (a : α), R (pure a : m α) (pure a)
  bind : ∀ {α β : Type} {x : m α} {y : n α} {f : α → m β} {g : α → n β}, R x y →
    (∀ a, R (f a) (g a)) → R (x >>= f) (y >>= g)

namespace Composable

variable {m n : Type → Type} [Monad m] [Monad n] {R : ∀ {α : Type}, m α → n α → Prop}
  {v : Visitor m} {w : Visitor n}

/-- Visiting the children of a node that was entered, if so told, and leaving it. -/
theorem descend (hR : Composable @R) {x : m Unit} {y : n Unit} (hfields : R x y) {exit : m Unit}
    {exit' : n Unit} (hexit : R exit exit') (d : Descend) :
    R (do
        if d = .children then x
        exit)
      (do
        if d = .children then y
        exit') := by
  cases d with
  | children => exact hR.bind hfields fun _ => hexit
  | skip => exact hexit

mutual

theorem walkField (hR : Composable @R)
    (hcall : ∀ call, R (v.perform call) (w.perform call)) (cx : Context) (index : Nat)
    (field : Field) : R (v.walkField cx index field) (w.walkField cx index field) := by
  cases field with
  | leaf head content => exact hcall (.visitLeaf head content _ index)
  | composite head kind typeRef fields =>
      have henter := hcall (.enterComposite ⟨head, kind, typeRef, fields⟩
        (cx.inherit head.attrs) index)
      have hexit := hcall (.exitComposite ⟨head, kind, typeRef, fields⟩
        (cx.inherit head.attrs) fields.length index)
      exact hR.bind henter fun d =>
        hR.descend (hR.walkFields hcall (cx.inherit head.attrs) 0 fields) hexit d

theorem walkFields (hR : Composable @R)
    (hcall : ∀ call, R (v.perform call) (w.perform call)) (cx : Context) (index : Nat)
    (fields : List Field) : R (v.walkFields cx index fields) (w.walkFields cx index fields) := by
  cases fields with
  | nil => exact hR.pure ()
  | cons field fields =>
      exact hR.bind (hR.walkField hcall cx index field) fun _ =>
        hR.walkFields hcall cx (index + 1) fields

end

theorem walkTemplate (hR : Composable @R)
    (hcall : ∀ call, R (v.perform call) (w.perform call)) (cx : Context) (index : Nat)
    (t : Template) : R (v.walkTemplate cx index t) (w.walkTemplate cx index t) := by
  have henter := hcall (.enterTemplate t (cx.inherit t.attrs) index)
  have hexit := hcall (.exitTemplate t (cx.inherit t.attrs) t.fields.length index)
  exact hR.bind henter fun d =>
    hR.descend (hR.walkFields hcall (cx.inherit t.attrs) 0 t.fields) hexit d

theorem walkTemplates (hR : Composable @R)
    (hcall : ∀ call, R (v.perform call) (w.perform call)) (cx : Context) (index : Nat)
    (ts : List Template) : R (v.walkTemplates cx index ts) (w.walkTemplates cx index ts) := by
  induction ts generalizing index with
  | nil => exact hR.pure ()
  | cons t ts ih =>
      exact hR.bind (hR.walkTemplate hcall cx index t) fun _ => ih (index + 1)

/-- Visitors whose calls are related have related walks. -/
theorem walk (hR : Composable @R)
    (hcall : ∀ call, R (v.perform call) (w.perform call)) (doc : Document) :
    R (v.walk doc) (w.walk doc) := by
  have henter := hcall (.enterDocument doc doc.context)
  have hexit := hcall (.exitDocument doc doc.context)
  exact hR.bind henter fun _ =>
    hR.bind (hR.walkTemplates hcall doc.context 0 doc.templates) fun _ => hexit

end Composable

/-! ## Monitors -/

variable {σ τ α : Type}

/-- Changes an account `τ` before each call and after each call that does not stop, given the state
that the visitor has then. -/
structure Monitor (σ τ : Type) where
  before : VisitorCall → σ → τ → τ
  after : VisitorCall → σ → τ → τ

def Monitor.around (m : Monitor σ τ) (call : VisitorCall) (x : Fallible σ α) :
    Fallible (σ × τ) α := do
  modify fun (s, account) => (s, m.before call s account)
  let a ← Fallible.on Prod.fst (fun s p => (s, p.2)) x.outcome
  modify fun (s, account) => (s, m.after call s account)
  return a

/-- The visitor with a monitor at each of its calls. -/
def Visitor.monitored (v : Visitor (Fallible σ)) (m : Monitor σ τ) :
    Visitor (Fallible (σ × τ)) where
  enterDocument doc cx := m.around (.enterDocument doc cx) (v.enterDocument doc cx)
  exitDocument doc cx := m.around (.exitDocument doc cx) (v.exitDocument doc cx)
  enterTemplate t cx index := m.around (.enterTemplate t cx index) (v.enterTemplate t cx index)
  exitTemplate t cx numFields index :=
    m.around (.exitTemplate t cx numFields index) (v.exitTemplate t cx numFields index)
  enterComposite c cx index :=
    m.around (.enterComposite c cx index) (v.enterComposite c cx index)
  exitComposite c cx numFields index :=
    m.around (.exitComposite c cx numFields index) (v.exitComposite c cx numFields index)
  visitLeaf head content cx index :=
    m.around (.visitLeaf head content cx index) (v.visitLeaf head content cx index)

theorem Visitor.perform_monitored (v : Visitor (Fallible σ)) (m : Monitor σ τ)
    (call : VisitorCall) : (v.monitored m).perform call = m.around call (v.perform call) := by
  cases call <;> rfl

theorem Monitor.outcome_around (m : Monitor σ τ) (call : VisitorCall) (x : Fallible σ α) (s : σ)
    (account : τ) :
    (m.around call x).outcome (s, account) =
      match x.outcome s with
      | (.ok a, t) => (.ok a, (t, m.after call t (m.before call s account)))
      | (.error f, t) => (.error f, (t, m.before call s account)) := by
  have hon : (Fallible.on Prod.fst (fun s p => (s, p.2)) x.outcome :
      Fallible (σ × τ) α).outcome (s, m.before call s account) =
        ((x.outcome s).1, ((x.outcome s).2, m.before call s account)) := rfl
  rw [around, Fallible.outcome_bind, Fallible.outcome_modify]
  simp only [Fallible.outcome_bind, hon]
  rcases x.outcome s with ⟨_ | _, t⟩ <;> rfl

/-- Apart from the account, `x` does what `y` does. -/
def Accounts (x : Fallible (σ × τ) α) (y : Fallible σ α) : Prop :=
  ∀ s account, y.outcome s =
    ((x.outcome (s, account)).1, (x.outcome (s, account)).2.1)

theorem composable_accounts :
    Composable (@Accounts σ τ : ∀ {α : Type}, Fallible (σ × τ) α → Fallible σ α → Prop) where
  pure _ _ _ := rfl
  bind := by
    intro α β x y f g hx hf s account
    rw [Fallible.outcome_bind, Fallible.outcome_bind, hx s account]
    rcases x.outcome (s, account) with ⟨fault | a, t, noted⟩
    · rfl
    · exact hf a t noted

/-- A monitor does not disturb the calls. -/
theorem Visitor.accounts_perform (v : Visitor (Fallible σ)) (m : Monitor σ τ)
    (call : VisitorCall) : Accounts ((v.monitored m).perform call) (v.perform call) := by
  intro s account
  rw [perform_monitored, Monitor.outcome_around]
  rcases (v.perform call).outcome s with ⟨_ | _, t⟩ <;> rfl

end FastSchema
