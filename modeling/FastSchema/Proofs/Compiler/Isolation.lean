import FastSchema.Proofs.Compiler.Refinement
import FastSchema.Proofs.Tables.Lookups

/-! # What else is registered does not matter

A compilation depends on the registry that it starts from only through the names that its two walks
look up. How far the walk for the tables gets decides which names these are. -/

namespace FastSchema

open Fallible (Similar similar_modify similar_get_bind)

/-! ## The accessor walk -/

namespace Accessors

/-- The names that a call of the accessor walk looks up. The reference that a composite reduces to
is not visited, so its name is not looked up. -/
def lookups : VisitorCall → List QualifiedName
  | .visitLeaf _ content cx _ => content.referencedNames cx
  | _ => []

variable (unit : String) {known₁ known₂ : Registry}

theorem leafDefinitions_congr (scope : Cpp.ScopeStack) (head : FieldHead) {cx : Context}
    (index : Nat) {content : Leaf}
    (h : Registry.AgreeOn (content.referencedNames cx) known₁ known₂) :
    leafDefinitions unit known₁ scope head cx index content =
      leafDefinitions unit known₂ scope head cx index content := by
  cases content with
  | reference r =>
      cases hq : r.qualifiedName? cx with
      | none => simp only [leafDefinitions, hq]
      | some q =>
          have hlookup : known₁.lookup q = known₂.lookup q :=
            h q (by simp [Leaf.referencedNames, hq])
          simp only [leafDefinitions, hq, Registry.target?, hlookup]
  | _ => rfl

/-- A call does the same with registries that agree on the names that it looks up. -/
theorem similar_perform (call : VisitorCall)
    (h : Registry.AgreeOn (lookups call) known₁ known₂) :
    Similar Eq ((visitor unit known₁).perform call) ((visitor unit known₂).perform call) := by
  cases call with
  | visitLeaf head content cx index =>
      refine similar_get_bind fun s _ hs => ?_
      subst hs
      rw [leafDefinitions_congr unit s.scope head index h]
      exact similar_modify fun _ _ hs => hs ▸ rfl
  | _ =>
      -- The other calls do not read the registry.
      rintro s _ rfl
      exact ⟨_, rfl, rfl⟩

theorem compile_congr {doc : Document}
    (h : Registry.AgreeOn ((visitor unit known₁).lookups lookups doc .empty) known₁ known₂) :
    compile unit known₁ doc = compile unit known₂ doc := by
  obtain ⟨_, hwalk, rfl⟩ := Visitor.outcome_walk_of_agree (w := visitor unit known₂)
    (similar_perform unit) (Eq.refl State.empty) h
  rw [compile, compile, hwalk]

end Accessors

/-! ## Compilations -/

namespace Compile

/-- The names that a compilation looks up from the given registry, those of the accessor walk first.
The table walk looks up none after the one that stops it. -/
def lookups (unit : String) (doc : Document) (registry : Registry) : List QualifiedName :=
  let known := registry.registerDocument unit doc
  (Accessors.visitor unit known).lookups Accessors.lookups doc .empty ++
    (Tables.visitor unit).lookups Tables.lookups doc (.start known)

/-- Registries that agree on what a compilation looks up give the same unit or the same fault. They
need not agree on the names that the document defines. -/
theorem document_eq_of_agreeOn {unit : String} {doc : Document} {registry₁ registry₂ : Registry}
    (h : Registry.AgreeOn (lookups unit doc registry₁) registry₁ registry₂) (digest : String) :
    ((document unit doc digest).outcome registry₁).1 =
      ((document unit doc digest).outcome registry₂).1 := by
  have hknown : Registry.AgreeOn (lookups unit doc registry₁)
      (registry₁.registerDocument unit doc) (registry₂.registerDocument unit doc) := by
    intro q hq
    rw [Registry.lookup_registerDocument, Registry.lookup_registerDocument, h q hq]
  have haccessors := Accessors.compile_congr unit (hknown.mono (List.subset_append_left _ _))
  have hagree := hknown.mono (List.subset_append_right _ _)
  obtain ⟨_, hwalk, known, _, rfl⟩ := Visitor.outcome_walk_of_agree
    (Tables.similar_perform unit) ⟨_, hagree, rfl⟩ fun _ hq => hq
  rw [Accessors.compile_eq, Accessors.compile_eq, Except.ok.injEq] at haccessors
  rw [outcome_document_of_walk digest (Prod.eta _).symm, outcome_document_of_walk digest hwalk,
    haccessors]
  rfl

/-- A template with a reference to `Party`, one to the given name and a group for one to `Late`. -/
def partyDocument (name : String) : Document :=
  ⟨.empty, [⟨"Order", .empty, none,
    [.leaf ⟨"", .empty⟩ (.reference ⟨some "Party", none⟩),
     .leaf ⟨"", .empty⟩ (.reference ⟨some name, none⟩),
     .composite ⟨"Body", .empty⟩ .group none
       [.leaf ⟨"", .empty⟩ (.reference ⟨some "Late", none⟩)]]⟩]⟩

/-- Where a name is missing, it does not matter who defines the one after it. Where all are found,
it does not matter who else has defined the template itself. -/
theorem document_eq_of_partyDocument :
    let registry (names : List String) : Registry :=
      ⟨names.map fun name => (⟨"", name⟩, name ++ "s")⟩
    (∃ fault,
      ((document "orders" (partyDocument "Missing") "").outcome (registry ["Party"])).1 =
        .error fault ∧
      ((document "orders" (partyDocument "Missing") "").outcome
        (registry ["Order", "Late", "Party"])).1 = .error fault) ∧
    ∃ compiled,
      ((document "orders" (partyDocument "Party") "").outcome (registry ["Party", "Late"])).1 =
        .ok compiled ∧
      ((document "orders" (partyDocument "Party") "").outcome
        (registry ["Order", "Late", "Party"])).1 = .ok compiled := by
  intro registry
  have hstops : ((document "orders" (partyDocument "Missing") "").outcome
      (registry ["Party"])).1 = .error (.unresolvedReference "Missing" "") := by
    rw [outcome_document_eq]
    rfl
  obtain ⟨compiled, hcompiled⟩ : ∃ compiled, ((document "orders" (partyDocument "Party")
      "").outcome (registry ["Party", "Late"])).1 = .ok compiled := by
    rw [outcome_document_eq]
    exact ⟨_, rfl⟩
  have hfail : Registry.AgreeOn (lookups "orders" (partyDocument "Missing") (registry ["Party"]))
      (registry ["Party"]) (registry ["Order", "Late", "Party"]) := by
    have hlookups : lookups "orders" (partyDocument "Missing") (registry ["Party"]) =
        [⟨"", "Party"⟩, ⟨"", "Missing"⟩, ⟨"", "Party"⟩, ⟨"", "Missing"⟩] := rfl
    rw [hlookups]
    decide
  have hfound : Registry.AgreeOn
      (lookups "orders" (partyDocument "Party") (registry ["Party", "Late"]))
      (registry ["Party", "Late"]) (registry ["Order", "Late", "Party"]) := by
    have hlookups : lookups "orders" (partyDocument "Party") (registry ["Party", "Late"]) =
        [⟨"", "Party"⟩, ⟨"", "Party"⟩, ⟨"", "Party"⟩, ⟨"", "Party"⟩, ⟨"", "Late"⟩] := rfl
    rw [hlookups]
    decide
  exact ⟨⟨_, hstops, (document_eq_of_agreeOn hfail "").symm.trans hstops⟩,
    compiled, hcompiled, (document_eq_of_agreeOn hfound "").symm.trans hcompiled⟩

end Compile

end FastSchema
