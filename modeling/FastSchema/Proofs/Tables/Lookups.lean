import FastSchema.Proofs.Instruction.Dependence
import FastSchema.Proofs.Walk.Lookups
import FastSchema.Tables.Builder

/-! # The names that the table walk looks up

A call of the table walk depends on the registry only through the name of a reference: that of the
leaf, or that which a composite reduces to, read when the composite is left. -/

namespace FastSchema.Tables

open Fallible (Similar similar_pure similar_lift similar_modify similar_on similar_ite
  similar_check similar_get_bind)

def lookups : VisitorCall → List QualifiedName
  | .exitComposite c cx _ _ => c.soleReference?.elim [] fun r => (r.qualifiedName? cx).toList
  | .visitLeaf _ content cx _ => content.referencedNames cx
  | _ => []

/-- The states differ in nothing but their registries, which agree on the names. -/
def AlikeOn (agreed : List QualifiedName) (s t : State) : Prop :=
  ∃ known, Registry.AgreeOn agreed s.registry known ∧ t = { s with registry := known }

variable {agreed : List QualifiedName} (unit : String)

/-! ## Steps -/

theorem similar_emit (statements : List Statement) :
    Similar (AlikeOn agreed) (emit statements) (emit statements) :=
  similar_modify fun _ _ ⟨known, h, ht⟩ => ⟨known, h, ht ▸ rfl⟩

theorem similar_pushSymbol (name : String) :
    Similar (AlikeOn agreed) (pushSymbol name) (pushSymbol name) :=
  similar_modify fun _ _ ⟨known, h, ht⟩ => ⟨known, h, ht ▸ rfl⟩

theorem similar_openFrame : Similar (AlikeOn agreed) openFrame openFrame :=
  similar_modify fun _ _ ⟨known, h, ht⟩ => ⟨known, h, ht ▸ rfl⟩

theorem similar_closeFrame : Similar (AlikeOn agreed) closeFrame closeFrame :=
  similar_on (fun _ _ ⟨_, _, ht⟩ => ht ▸ rfl) fun _ _ _ ⟨known, h, ht⟩ => ⟨known, h, ht ▸ rfl⟩

theorem similar_append (symbol : String) (record : FieldInstruction) :
    Similar (AlikeOn agreed) (append symbol record) (append symbol record) :=
  similar_on (fun _ _ ⟨_, _, ht⟩ => ht ▸ rfl) fun _ _ _ ⟨known, h, ht⟩ => ⟨known, h, ht ▸ rfl⟩

theorem similar_popSymbol : Similar (AlikeOn agreed) popSymbol popSymbol := by
  refine Similar.bind ?_ fun _ => similar_pure ()
  exact similar_on (fun _ _ ⟨_, _, ht⟩ => ht ▸ rfl)
    fun _ _ _ ⟨known, h, ht⟩ => ⟨known, h, ht ▸ rfl⟩

theorem similar_closeFields (miscount : Nat → Misuse) (numFields : Nat) :
    Similar (AlikeOn agreed) (closeFields miscount numFields) (closeFields miscount numFields) := by
  refine similar_closeFrame.bind fun frame => similar_check <|
    similar_get_bind fun s t ⟨known, _, ht⟩ => ?_
  subst ht
  exact (similar_emit _).bind fun _ => similar_popSymbol.bind fun _ => similar_pure _

/-! ## Calls -/

theorem similar_exitDocument (doc : Document) (cx : Context) : Similar (AlikeOn agreed)
    ((visitor unit).exitDocument doc cx) ((visitor unit).exitDocument doc cx) := by
  refine similar_get_bind fun s t ⟨known, _, ht⟩ => ?_
  subst ht
  exact similar_check (similar_emit _)

/-- Registries that agree on some names still do when both register the same name. -/
theorem similar_enterTemplate (t : Template) (cx : Context) (index : Nat) :
    Similar (AlikeOn agreed) ((visitor unit).enterTemplate t cx index)
      ((visitor unit).enterTemplate t cx index) := by
  refine Similar.bind (similar_modify fun s _ ⟨known, h, ht⟩ => ?_) fun _ =>
    (similar_pushSymbol _).bind fun _ => similar_openFrame.bind fun _ =>
      (similar_emit _).bind fun _ => similar_pure _
  subst ht
  refine ⟨known.register ⟨cx.ns, t.name⟩ unit, fun q hq => ?_, rfl⟩
  rw [Registry.lookup_register, Registry.lookup_register, h q hq]

theorem similar_exitTemplate (t : Template) (cx : Context) (numFields index : Nat) :
    Similar (AlikeOn agreed) ((visitor unit).exitTemplate t cx numFields index)
      ((visitor unit).exitTemplate t cx numFields index) :=
  (similar_closeFields _ _).bind fun _ => (similar_lift _).bind fun _ =>
    (similar_emit _).bind fun _ =>
      similar_modify fun _ _ ⟨known, h, ht⟩ => ⟨known, h, ht ▸ rfl⟩

theorem similar_enterComposite (c : Composite) (cx : Context) (index : Nat) :
    Similar (AlikeOn agreed) ((visitor unit).enterComposite c cx index)
      ((visitor unit).enterComposite c cx index) := by
  refine (similar_pushSymbol _).bind fun _ => (similar_lift _).bind fun kind => ?_
  cases kind with
  | group => exact similar_ite (similar_pure _) (similar_openFrame.bind fun _ => similar_pure _)
  | sequence length =>
      refine similar_get_bind fun s t ⟨known, _, ht⟩ => ?_
      subst ht
      exact (similar_emit _).bind fun _ =>
        similar_ite (similar_pure _) (similar_openFrame.bind fun _ => similar_pure _)

theorem similar_exitComposite {c : Composite} {cx : Context} (numFields index : Nat)
    (h : ∀ q ∈ lookups (.exitComposite c cx numFields index), q ∈ agreed) :
    Similar (AlikeOn agreed) ((visitor unit).exitComposite c cx numFields index)
      ((visitor unit).exitComposite c cx numFields index) := by
  refine similar_get_bind fun inside _ ⟨known, _, ht⟩ => ?_
  subst ht
  refine (similar_lift _).bind fun kind => ?_
  cases hbody : c.soleReference? with
  | none =>
      refine (similar_closeFields _ _).bind fun closed => (similar_lift _).bind fun head =>
        similar_get_bind fun s _ ⟨known, _, ht⟩ => ?_
      subst ht
      exact (similar_emit _).bind fun _ => similar_append _ _
  | some r =>
      refine similar_popSymbol.bind fun _ => similar_get_bind fun s _ ⟨known, hknown, ht⟩ => ?_
      subst ht
      -- The reference is looked up in both registries, and they agree on it.
      have hnames : ∀ q ∈ (r.qualifiedName? cx).toList, q ∈ agreed := by
        simpa only [lookups, hbody, Option.elim] using h
      have hresolve : s.registry.resolve cx r = known.resolve cx r :=
        Registry.resolve_congr fun q hq => hknown q (hnames q hq)
      have hflat : flatBody s.registry cx r (c.kind.slotPresence c.head) =
          flatBody known cx r (c.kind.slotPresence c.head) := by
        rw [flatBody, flatBody, hresolve]
      simp only [hflat]
      refine (similar_lift _).bind fun body => (similar_lift _).bind fun head =>
        similar_get_bind fun s _ ⟨known, _, ht⟩ => ?_
      subst ht
      exact (similar_emit _).bind fun _ => similar_append _ _

theorem similar_visitLeaf (head : FieldHead) {content : Leaf} {cx : Context} (index : Nat)
    (h : ∀ q ∈ lookups (.visitLeaf head content cx index), q ∈ agreed) :
    Similar (AlikeOn agreed) ((visitor unit).visitLeaf head content cx index)
      ((visitor unit).visitLeaf head content cx index) := by
  refine similar_get_bind fun s _ ⟨known, hknown, ht⟩ => ?_
  subst ht
  have hpayload : content.payload (s.registry.resolve cx) head =
      content.payload (known.resolve cx) head :=
    Leaf.payload_congr head fun q hq => hknown q (h q hq)
  simp only [hpayload]
  refine (similar_lift _).bind fun payload => (similar_lift _).bind fun recordHead =>
    similar_get_bind fun s _ ⟨known, _, ht⟩ => ?_
  subst ht
  exact (similar_emit _).bind fun _ => similar_append _ _

/-- A call does the same in registries that agree on the names that it looks up. -/
theorem similar_perform (call : VisitorCall) (h : ∀ q ∈ lookups call, q ∈ agreed) :
    Similar (AlikeOn agreed) ((visitor unit).perform call) ((visitor unit).perform call) := by
  cases call with
  | enterDocument doc cx => exact similar_emit _
  | exitDocument doc cx => exact similar_exitDocument unit doc cx
  | enterTemplate t cx index => exact similar_enterTemplate unit t cx index
  | exitTemplate t cx numFields index => exact similar_exitTemplate unit t cx numFields index
  | enterComposite c cx index => exact similar_enterComposite unit c cx index
  | exitComposite c cx numFields index => exact similar_exitComposite unit numFields index h
  | visitLeaf head content cx index => exact similar_visitLeaf unit head index h

end FastSchema.Tables
