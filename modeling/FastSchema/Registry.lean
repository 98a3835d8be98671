import FastSchema.Walk.Context

/-!
# The registry of templates

Which unit defines each template, over all documents of a run. The first unit to register a name
keeps it. Before a document is compiled all its templates are registered, so a reference may lead
to a later template of the same document.
-/

namespace FastSchema

/-- The name of a template within its namespace. -/
structure QualifiedName where
  ns : String
  name : String
deriving DecidableEq, Repr, Inhabited

/-- The units by template name, in the order of registration. -/
structure Registry where
  units : List (QualifiedName × String)
deriving DecidableEq, Repr, Inhabited

namespace Registry

def empty : Registry := ⟨[]⟩

def lookup (r : Registry) (q : QualifiedName) : Option String :=
  r.units.lookup q

def size (r : Registry) : Nat := r.units.length

/-- Registers the template for the unit, unless its name is taken. -/
def register (r : Registry) (q : QualifiedName) (unit : String) : Registry :=
  if (r.lookup q).isSome then r else ⟨r.units ++ [(q, unit)]⟩

end Registry

def Document.qualifiedNames (doc : Document) : List QualifiedName :=
  doc.templates.map fun t => ⟨(doc.contextOf t).ns, t.name⟩

namespace Registry

/-- Registers every template of the document for the unit. -/
def registerDocument (r : Registry) (unit : String) (doc : Document) : Registry :=
  doc.qualifiedNames.foldl (fun r q => r.register q unit) r

theorem register_of_isSome {r : Registry} {q : QualifiedName} (unit : String)
    (h : (r.lookup q).isSome) : r.register q unit = r :=
  if_pos h

@[simp] theorem lookup_empty (q : QualifiedName) : empty.lookup q = none := rfl

/-- A registration is seen under its name, unless the name was taken. -/
theorem lookup_register (r : Registry) (q : QualifiedName) (unit : String) (p : QualifiedName) :
    (r.register q unit).lookup p =
      (r.lookup p).or (if p = q then some unit else none) := by
  unfold register
  split
  · rename_i h
    by_cases hp : p = q
    · obtain ⟨owner, ho⟩ := Option.isSome_iff_exists.mp h
      simp [hp, ho]
    · simp [hp]
  · unfold lookup
    rw [List.lookup_append]
    by_cases hp : p = q
    · simp [hp]
    · have hb : (p == q) = false := beq_false_of_ne hp
      simp [hp, List.lookup_cons, hb]

end Registry

end FastSchema
