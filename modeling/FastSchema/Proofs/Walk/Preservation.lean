import FastSchema.Proofs.Fallible
import FastSchema.Walk.Visitor

/-! # What a walk preserves

A property of the state that every call of a visitor preserves is preserved by the whole walk,
wherever the walk stops. -/

namespace FastSchema.Visitor

open Fallible (Preserves)

variable {σ : Type}

/-- The calls that a walk over the document makes preserve the property. -/
structure PreservesOn (v : Visitor (Fallible σ)) (P : σ → Prop) (doc : Document) : Prop where
  enterDocument : Preserves P (v.enterDocument doc doc.context)
  exitDocument : Preserves P (v.exitDocument doc doc.context)
  enterTemplate : ∀ t ∈ doc.templates, ∀ index,
    Preserves P (v.enterTemplate t (doc.contextOf t) index)
  exitTemplate : ∀ t cx numFields index, Preserves P (v.exitTemplate t cx numFields index)
  enterComposite : ∀ c cx index, Preserves P (v.enterComposite c cx index)
  exitComposite : ∀ c cx numFields index, Preserves P (v.exitComposite c cx numFields index)
  visitLeaf : ∀ head content cx index, Preserves P (v.visitLeaf head content cx index)

namespace PreservesOn

variable {v : Visitor (Fallible σ)} {P : σ → Prop} {doc : Document}

mutual

theorem walkField (h : v.PreservesOn P doc) (cx : Context) (index : Nat) (field : Field) :
    Preserves P (v.walkField cx index field) := by
  cases field with
  | leaf head content => exact h.visitLeaf head content _ index
  | composite head kind typeRef fields =>
      refine (h.enterComposite _ _ index).bind fun descend => ?_
      have hexit := h.exitComposite ⟨head, kind, typeRef, fields⟩ (cx.inherit head.attrs)
        fields.length index
      cases descend with
      | children => exact (h.walkFields _ 0 fields).bind fun _ => hexit
      | skip => exact hexit

theorem walkFields (h : v.PreservesOn P doc) (cx : Context) (index : Nat) (fields : List Field) :
    Preserves P (v.walkFields cx index fields) := by
  cases fields with
  | nil => exact Fallible.preserves_pure ()
  | cons field fields =>
      exact (h.walkField cx index field).bind fun _ => h.walkFields cx (index + 1) fields

end

theorem walkTemplate (h : v.PreservesOn P doc) (index : Nat) {t : Template}
    (ht : t ∈ doc.templates) : Preserves P (v.walkTemplate doc.context index t) := by
  refine (h.enterTemplate t ht index).bind fun descend => ?_
  have hexit := h.exitTemplate t (doc.contextOf t) t.fields.length index
  cases descend with
  | children => exact (h.walkFields _ 0 t.fields).bind fun _ => hexit
  | skip => exact hexit

theorem walkTemplates (h : v.PreservesOn P doc) (index : Nat) {ts : List Template}
    (hts : ∀ t ∈ ts, t ∈ doc.templates) :
    Preserves P (v.walkTemplates doc.context index ts) := by
  induction ts generalizing index with
  | nil => exact Fallible.preserves_pure ()
  | cons t ts ih =>
      refine (h.walkTemplate index (hts t (by simp))).bind fun _ => ?_
      exact ih (index + 1) fun u hu => hts u (by simp [hu])

/-- What every call preserves survives the walk, even one that stops. -/
theorem walk (h : v.PreservesOn P doc) : Preserves P (v.walk doc) :=
  h.enterDocument.bind fun _ =>
    (h.walkTemplates 0 fun _ ht => ht).bind fun _ => h.exitDocument

end PreservesOn

end FastSchema.Visitor
