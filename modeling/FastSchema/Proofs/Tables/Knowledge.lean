import FastSchema.Proofs.Tables.Refinement
import FastSchema.Proofs.Walk.Preservation

/-! # The table walk keeps the registry

All templates of a document are registered before the walk, so the registration that the walk
repeats adds nothing. This also holds of a walk that stops, whatever its stacks look like then. -/

namespace FastSchema.Tables

open Fallible (Preserves)

variable (unit : String) {registry : Registry}

def Knows (registry : Registry) (s : State) : Prop := s.registry = registry

theorem preserves_emit (statements : List Statement) :
    Preserves (Knows registry) (emit statements) := Fallible.preserves_modify fun _ h => h

theorem preserves_pushSymbol (name : String) : Preserves (Knows registry) (pushSymbol name) :=
  Fallible.preserves_modify fun _ h => h

theorem preserves_openFrame : Preserves (Knows registry) openFrame :=
  Fallible.preserves_modify fun _ h => h

theorem preserves_closeFrame : Preserves (Knows registry) closeFrame :=
  Fallible.preserves_on fun _ _ h => h

theorem preserves_append (symbol : String) (record : FieldInstruction) :
    Preserves (Knows registry) (append symbol record) := Fallible.preserves_on fun _ _ h => h

theorem preserves_popSymbol : Preserves (Knows registry) popSymbol := by
  refine Preserves.bind ?_ fun _ => Fallible.preserves_pure ()
  exact Fallible.preserves_on fun _ _ h => h

theorem preserves_closeFields (miscount : Nat → Misuse) (numFields : Nat) :
    Preserves (Knows registry) (closeFields miscount numFields) := by
  refine preserves_closeFrame.bind fun frame => ?_
  have hclose : ∀ _ : Unit, Preserves (Knows registry) (do
      let array := arraySymbol (← get).symbols
      emit [.array array frame.symbols]
      popSymbol
      return (array, frame.records)) := fun _ =>
    Fallible.preserves_get.bind fun s => (preserves_emit _).bind fun _ =>
      preserves_popSymbol.bind fun _ => Fallible.preserves_pure _
  by_cases hcount : frame.size ≠ numFields
  · rw [if_pos hcount]
    exact (Fallible.preserves_throw _).bind hclose
  · rw [if_neg hcount]
    exact hclose ()

theorem preserves_enterTemplate {t : Template} {cx : Context} (index : Nat)
    (h : (registry.lookup ⟨cx.ns, t.name⟩).isSome) :
    Preserves (Knows registry) ((visitor unit).enterTemplate t cx index) := by
  refine Preserves.bind (Fallible.preserves_modify fun s hs => ?_) fun _ =>
    (preserves_pushSymbol _).bind fun _ => preserves_openFrame.bind fun _ =>
      (preserves_emit _).bind fun _ => Fallible.preserves_pure _
  -- The name is taken since the scan, by this unit or by an earlier one.
  obtain rfl : s.registry = registry := hs
  exact Registry.register_of_isSome unit h

theorem preserves_enterComposite (c : Composite) (cx : Context) (index : Nat) :
    Preserves (Knows registry) ((visitor unit).enterComposite c cx index) := by
  refine (preserves_pushSymbol _).bind fun _ => (Fallible.preserves_lift _).bind fun kind => ?_
  have hdescend : ∀ _ : Unit, Preserves (Knows registry)
      (if c.soleReference?.isSome then pure Descend.skip else do
        openFrame
        return Descend.children) := fun _ => by
    split
    · exact Fallible.preserves_pure _
    · exact preserves_openFrame.bind fun _ => Fallible.preserves_pure _
  cases kind with
  | group => exact hdescend ()
  | sequence length =>
      exact Fallible.preserves_get.bind fun _ => (preserves_emit _).bind hdescend

theorem preserves_exitComposite (c : Composite) (cx : Context) (numFields index : Nat) :
    Preserves (Knows registry) ((visitor unit).exitComposite c cx numFields index) := by
  refine Fallible.preserves_get.bind fun inside => (Fallible.preserves_lift _).bind fun kind => ?_
  cases c.soleReference? with
  | none =>
      exact (preserves_closeFields _ _).bind fun closed =>
        (Fallible.preserves_lift _).bind fun head => Fallible.preserves_get.bind fun outside =>
          (preserves_emit _).bind fun _ => preserves_append _ _
  | some r =>
      exact preserves_popSymbol.bind fun _ => Fallible.preserves_get.bind fun known =>
        (Fallible.preserves_lift _).bind fun body => (Fallible.preserves_lift _).bind fun head =>
          Fallible.preserves_get.bind fun outside => (preserves_emit _).bind fun _ =>
            preserves_append _ _

/-- No call of a walk over a document changes a registry that has its templates. -/
theorem preservesOn_knows (doc : Document) (h : ∀ q ∈ doc.qualifiedNames,
    (registry.lookup q).isSome) : (visitor unit).PreservesOn (Knows registry) doc where
  enterDocument := preserves_emit _
  exitDocument := by
    refine Fallible.preserves_get.bind fun s => ?_
    split
    · exact (Fallible.preserves_throw _).bind fun _ => preserves_emit _
    · exact preserves_emit _
  enterTemplate t ht index := preserves_enterTemplate unit index (h _ (List.mem_map_of_mem ht))
  exitTemplate t cx numFields index :=
    (preserves_closeFields _ _).bind fun closed => (Fallible.preserves_lift _).bind fun record =>
      (preserves_emit _).bind fun _ => Fallible.preserves_modify fun _ h => h
  enterComposite c cx index := preserves_enterComposite unit c cx index
  exitComposite c cx numFields index := preserves_exitComposite unit c cx numFields index
  visitLeaf head content cx index :=
    Fallible.preserves_get.bind fun s => (Fallible.preserves_lift _).bind fun payload =>
      (Fallible.preserves_lift _).bind fun recordHead => Fallible.preserves_get.bind fun t =>
        (preserves_emit _).bind fun _ => preserves_append _ _

/-- A walk that stops keeps the registry too, and stops with the fault of the recursion. -/
theorem outcome_walk_of_error {doc : Document} {digest : String} {fault : Fault}
    (h : ∀ q ∈ doc.qualifiedNames, (registry.lookup q).isSome)
    (hfault : doc.metadata unit digest registry = .error fault) :
    ∃ tables, ((visitor unit).walk doc).outcome (.start registry) = (.error fault, tables) ∧
      tables.registry = registry := by
  have hkept := (preservesOn_knows unit doc h).walk (.start registry) rfl
  have hstop := Fallible.outcome_fst ((visitor unit).walk doc) (.start registry)
  rw [result_walk unit doc digest registry h, hfault] at hstop
  exact ⟨_, Prod.ext hstop rfl, hkept⟩

end FastSchema.Tables
