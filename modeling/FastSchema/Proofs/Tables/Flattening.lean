import FastSchema.Proofs.Instruction.References
import FastSchema.Proofs.Schema.References
import FastSchema.Proofs.Tables.Refinement

/-! # The name of a flattened reference

A composite that reduces to a reference looks the reference up in its own context. Beside another
field the reference is visited and looked up in the context that it inherits, with its own
attributes. The two names differ only where a namespace is written with a qualifier. -/

namespace FastSchema

/-- The name that the reference of a composite with context `cx` leads to when it stands alone. -/
def Reference.flatName (r : Reference) (cx : Context) (name : String) : QualifiedName :=
  ⟨r.ns.getD cx.ns, name⟩

/-- The name that it leads to when it stands beside other fields. -/
def Reference.visitedName (r : Reference) (cx : Context) (attrs : Attributes) (name : String) :
    QualifiedName :=
  ⟨r.ns.getD ((attrs.get? "ns").getD cx.ns), name⟩

theorem Reference.qualifiedName?_eq_flatName {r : Reference} {name : String}
    (h : r.name = some name) (cx : Context) : r.qualifiedName? cx = some (r.flatName cx name) := by
  rw [qualifiedName?, h]
  rfl

theorem Reference.qualifiedName?_eq_visitedName {r : Reference} {name : String}
    (h : r.name = some name) (cx : Context) (attrs : Attributes) :
    r.qualifiedName? (cx.inherit attrs) = some (r.visitedName cx attrs name) := by
  rw [qualifiedName?, h]
  rfl

/-- The names are the same unless an attribute sets the namespace that the reference does not. -/
theorem Reference.flatName_eq_visitedName_iff {r : Reference} {cx : Context} {attrs : Attributes}
    {name : String} :
    r.flatName cx name = r.visitedName cx attrs name ↔
      r.ns.isSome ∨ ∀ ns, attrs.get? "ns" = some ns → ns = cx.ns := by
  rw [flatName, visitedName, QualifiedName.mk.injEq]
  cases hns : r.ns with
  | some ns => simp
  | none =>
      cases hattr : attrs.get? "ns" with
      | none => simp
      | some ns => simp [eq_comm]

theorem Registry.resolve_eq {registry : Registry} {cx : Context} {r : Reference}
    {q : QualifiedName} (h : r.qualifiedName? cx = some q) :
    registry.resolve cx r =
      match registry.target? q with
      | some target => .ok (some target)
      | none => .error q.unresolved := by
  rw [resolve, h]
  rfl

theorem soleReference?_eq_none {before after : List Field} {field : Field}
    (h : before ++ after ≠ []) : soleReference? (before ++ field :: after) = none := by
  have hlength : 0 < (before ++ after).length := List.length_pos_iff.mpr h
  unfold soleReference?
  split
  case h_1 hsole =>
    have hone := congrArg List.length hsole
    simp only [List.length_append, List.length_cons, List.length_nil] at hone hlength
    omega
  case h_2 => rfl

theorem Field.instructions_append (known : Registry) (cx : Context) (index : Nat)
    (first rest : List Field) :
    Field.instructions known cx index (first ++ rest) = (do
      let records ← Field.instructions known cx index first
      let more ← Field.instructions known cx (index + first.length) rest
      return records ++ more) := by
  induction first generalizing index with
  | nil => simp [Field.instructions]
  | cons field first ih =>
      simp only [List.cons_append, Field.instructions, ih, List.length_cons, bind_assoc, pure_bind,
        Nat.add_assoc, Nat.add_comm 1]

namespace Tables

/-! ## Looking up a name -/

/-- From the state the step looks up a name. Without an entry for it in the registry the step stops
with the fault of the name; with one it writes the record that the target leads to. -/
def LooksUp (unit : String) (step : Fallible State Unit) (s : State) (q : QualifiedName)
    (record : Target → Except Fault FieldInstruction) : Prop :=
  step.result s =
    match s.registry.target? q with
    | some target => (record target).map fun written => ((), s.extend unit [written])
    | none => .error q.unresolved

variable {unit : String} {outer : Context} {index : Nat} {head refHead : FieldHead}
  {kind : CompositeKind} {r : Reference} {q : QualifiedName} {kindRecord : CompositeRecord}
  {recordHead : RecordHead} {s : State}

/-- A composite that has a reference alone looks up the name in its own context. -/
theorem looksUp_flattened (typeRef : Option TypeRef) (hopen : 0 < s.frames.depth)
    (hkind : kind.record head = .ok kindRecord) (hhead : head.record index = .ok recordHead)
    (hname : r.qualifiedName? (outer.inherit head.attrs) = some q) :
    LooksUp unit ((visitor unit).walkField outer index
        (.composite head kind typeRef [.leaf refHead (.reference r)])) s q
      fun target => .ok (.flattened recordHead kindRecord typeRef (.borrowed target)) := by
  have hbody : soleReference? [.leaf refHead (.reference r)] = some r := rfl
  rw [LooksUp, result_walkField_flattened unit outer index head kind typeRef hbody hopen,
    Field.instruction, hkind, hbody, Fallible.ok_bind]
  dsimp only
  rw [Registry.resolve_eq hname]
  cases s.registry.target? q with
  | none => rfl
  | some target =>
      rw [Fallible.ok_bind, hhead]
      rfl

theorem instruction_reference {known : Registry} {cx : Context} {refRecordHead : RecordHead}
    (hhead : refHead.record index = .ok refRecordHead)
    (hname : r.qualifiedName? (cx.inherit refHead.attrs) = some q) :
    (Field.leaf refHead (.reference r)).instruction known cx index =
      match known.target? q with
      | some target => .ok (.leaf refRecordHead (.reference (some target)))
      | none => .error q.unresolved := by
  rw [Field.instruction, Leaf.payload, Registry.resolve_eq hname]
  cases known.target? q with
  | none => rfl
  | some target =>
      rw [Fallible.ok_bind, hhead]
      rfl

/-- Beside other fields the reference is visited, and looks up the name in the context that it
inherits. -/
theorem looksUp_beside (typeRef : Option TypeRef) {before after : List Field}
    {records : List FieldInstruction} {refRecordHead : RecordHead} (hopen : 0 < s.frames.depth)
    (hbeside : before ++ after ≠ []) (hkind : kind.record head = .ok kindRecord)
    (hhead : head.record index = .ok recordHead)
    (hbefore : Field.instructions s.registry (outer.inherit head.attrs) 0 before = .ok records)
    (hrefHead : refHead.record before.length = .ok refRecordHead)
    (hname : r.qualifiedName? ((outer.inherit head.attrs).inherit refHead.attrs) = some q) :
    LooksUp unit ((visitor unit).walkField outer index
        (.composite head kind typeRef (before ++ .leaf refHead (.reference r) :: after))) s q
      fun target => (Field.instructions s.registry (outer.inherit head.attrs) (before.length + 1)
        after).map fun rest => .owning recordHead kindRecord typeRef
          (records ++ .leaf refRecordHead (.reference (some target)) :: rest) := by
  rw [LooksUp, result_walkField unit outer index _ hopen, Field.instruction, hkind,
    soleReference?_eq_none hbeside, Fallible.ok_bind]
  dsimp only
  rw [Field.instructions_append, hbefore, Fallible.ok_bind, Nat.zero_add, Field.instructions,
    instruction_reference hrefHead hname]
  cases s.registry.target? q with
  | none => rfl
  | some target =>
      cases Field.instructions s.registry (outer.inherit head.attrs) (before.length + 1) after with
      | error fault => rfl
      | ok rest =>
          simp only [Fallible.ok_bind, pure_bind, hhead]
          rfl

end Tables

/-! ## Documents that were read -/

open Tables in
/-- Which names the table walk of a unit looks up for the reference in a composite: `flat` where the
reference stands alone, and `visited` where there are fields before or after it. -/
structure FlatteningSpec (unit : String) (outer : Context) (head : FieldHead)
    (kind : CompositeKind) (typeRef : Option TypeRef) (refHead : FieldHead) (r : Reference)
    (flat visited : QualifiedName) : Prop where
  alone : ∀ (s : State) (index : Nat) (kindRecord : CompositeRecord) (recordHead : RecordHead),
    0 < s.frames.depth → kind.record head = .ok kindRecord → head.record index = .ok recordHead →
      LooksUp unit ((visitor unit).walkField outer index
        (.composite head kind typeRef [.leaf refHead (.reference r)])) s flat
        fun target => .ok (.flattened recordHead kindRecord typeRef (.borrowed target))
  beside : ∀ (s : State) (index : Nat) (kindRecord : CompositeRecord)
    (recordHead refRecordHead : RecordHead) (before after : List Field)
    (records : List FieldInstruction), 0 < s.frames.depth → before ++ after ≠ [] →
      kind.record head = .ok kindRecord → head.record index = .ok recordHead →
      Field.instructions s.registry (outer.inherit head.attrs) 0 before = .ok records →
      refHead.record before.length = .ok refRecordHead →
        LooksUp unit ((visitor unit).walkField outer index
          (.composite head kind typeRef (before ++ .leaf refHead (.reference r) :: after))) s
          visited
          fun target => (Field.instructions s.registry (outer.inherit head.attrs)
            (before.length + 1) after).map fun rest => .owning recordHead kindRecord typeRef
              (records ++ .leaf refRecordHead (.reference (some target)) :: rest)

theorem flatteningSpec (unit : String) (outer : Context) (head : FieldHead) (kind : CompositeKind)
    (typeRef : Option TypeRef) (refHead : FieldHead) {r : Reference} {name : String}
    (hname : r.name = some name) :
    FlatteningSpec unit outer head kind typeRef refHead r
      (r.flatName (outer.inherit head.attrs) name)
      (r.visitedName (outer.inherit head.attrs) refHead.attrs name) where
  alone := fun _ _ _ _ hopen hkind hhead =>
    Tables.looksUp_flattened typeRef hopen hkind hhead
      (Reference.qualifiedName?_eq_flatName hname _)
  beside := fun _ _ _ _ _ _ _ _ hopen hbeside hkind hhead hbefore hrefHead =>
    Tables.looksUp_beside typeRef hopen hbeside hkind hhead hbefore hrefHead
      (Reference.qualifiedName?_eq_visitedName hname _ _)

def Document.referenceNames? (doc : Document) (location : List Nat) :
    Option (QualifiedName × QualifiedName) :=
  match doc.locate? location with
  | some (.field (.composite _ _ _ [.leaf refHead (.reference r)]), cx) =>
      r.name.map fun name => (r.flatName cx name, r.visitedName cx refHead.attrs name)
  | _ => none

theorem Document.exists_of_referenceNames? {doc : Document} {location : List Nat}
    {flat visited : QualifiedName} (h : doc.referenceNames? location = some (flat, visited)) :
    ∃ head kind typeRef refHead r cx name, doc.locate? location =
        some (.field (.composite head kind typeRef [.leaf refHead (.reference r)]), cx) ∧
      r.name = some name ∧ r.flatName cx name = flat ∧
      r.visitedName cx refHead.attrs name = visited := by
  unfold referenceNames? at h
  split at h
  case h_1 head kind typeRef refHead r cx hlocate =>
    obtain ⟨name, hname, hnames⟩ := Option.map_eq_some_iff.mp h
    cases hnames
    exact ⟨head, kind, typeRef, refHead, r, cx, name, hlocate, hname, rfl, rfl⟩
  case h_2 => cases h

/-- In a document that was read, the reference that a composite reduces to leads to the same name as
beside other fields, unless its namespace is written with a qualifier and differs from the one that
the composite has. -/
theorem flatName_eq_visitedName_iff_of_parse {text : String} {doc : Document}
    {location : List Nat} {head refHead : FieldHead} {kind : CompositeKind}
    {typeRef : Option TypeRef} {r : Reference} {cx : Context} {name : String}
    (hparse : Document.parse text = .ok doc)
    (hlocate : doc.locate? location =
      some (.field (.composite head kind typeRef [.leaf refHead (.reference r)]), cx))
    (hname : r.name = some name) (unit : String) :
    ∃ outer attributes, cx = outer.inherit head.attrs ∧ refHead = .ofXml attributes ∧
      r = .ofXml attributes ∧
      FlatteningSpec unit outer head kind typeRef refHead r (r.flatName cx name)
        (r.visitedName cx refHead.attrs name) ∧
      (r.flatName cx name = r.visitedName cx refHead.attrs name ↔
        r.ns.isSome ∨ ∀ ns, refHead.attrs.get? "ns" = some ns → ns = cx.ns) ∧
      (Unqualified "ns" attributes →
        r.flatName cx name = r.visitedName cx refHead.attrs name) := by
  obtain ⟨hread, outer, rfl⟩ := Document.isRead_of_locate? hparse hlocate
  obtain ⟨attributes, hhead, hr⟩ :=
    (hread.children _ List.mem_cons_self).exists_attributes
  refine ⟨outer, attributes, rfl, hhead, hr, flatteningSpec unit outer head kind typeRef refHead
    hname, Reference.flatName_eq_visitedName_iff, fun hunqualified => ?_⟩
  rw [Reference.flatName_eq_visitedName_iff, hhead, hr]
  cases hns : Xml.attribute? "ns" attributes with
  | some ns => exact .inl (by simp [Reference.ofXml, hns])
  | none =>
      refine .inr fun ns hget => ?_
      rw [FieldHead.ofXml, get?_ofXml_eq_none_of_unqualified hunqualified hns] at hget
      cases hget

/-- A group with a reference that sets its namespace without a qualifier. -/
def plainText : String :=
  "<template name=\"R\"><group name=\"g\"><templateRef name=\"T\" ns=\"b\"/></group></template>"

theorem flatName_eq_visitedName_of_plainText :
    ∃ outer head kind typeRef refHead r,
      FlatteningSpec "u" outer head kind typeRef refHead r ⟨"b", "T"⟩ ⟨"b", "T"⟩ := by
  have hnames : (Document.parse plainText).toOption.bind (·.referenceNames? [0, 0]) =
      some (⟨"b", "T"⟩, ⟨"b", "T"⟩) := by decide +kernel
  obtain ⟨doc, hparse, hlocated⟩ := Fallible.exists_of_toOption_bind hnames
  obtain ⟨head, kind, typeRef, refHead, r, cx, name, hlocate, hname, hflat, hvisited⟩ :=
    Document.exists_of_referenceNames? hlocated
  obtain ⟨outer, _, _, _, _, hspec, _⟩ :=
    flatName_eq_visitedName_iff_of_parse hparse hlocate hname "u"
  rw [hflat, hvisited] at hspec
  exact ⟨outer, head, kind, typeRef, refHead, r, hspec⟩

/-- The same group with a qualifier before the name of the attribute. -/
def qualifiedText : String :=
  "<template xmlns:x=\"urn:x\" name=\"R\"><group name=\"g\"><templateRef name=\"T\" x:ns=\"b\"/>" ++
    "</group></template>"

/-- With a qualifier the reference loses its namespace when it stands alone. -/
theorem flatName_ne_visitedName_of_qualifiedText :
    ∃ doc outer head kind typeRef refHead r, Document.parse qualifiedText = .ok doc ∧
      doc.locate? [0, 0] = some
        (.field (.composite head kind typeRef [.leaf refHead (.reference r)]),
          outer.inherit head.attrs) ∧
      FlatteningSpec "u" outer head kind typeRef refHead r ⟨"", "T"⟩ ⟨"b", "T"⟩ := by
  have hnames : (Document.parse qualifiedText).toOption.bind (·.referenceNames? [0, 0]) =
      some (⟨"", "T"⟩, ⟨"b", "T"⟩) := by decide +kernel
  obtain ⟨doc, hparse, hlocated⟩ := Fallible.exists_of_toOption_bind hnames
  obtain ⟨head, kind, typeRef, refHead, r, cx, name, hlocate, hname, hflat, hvisited⟩ :=
    Document.exists_of_referenceNames? hlocated
  obtain ⟨_, outer, rfl⟩ := Document.isRead_of_locate? hparse hlocate
  refine ⟨doc, outer, head, kind, typeRef, refHead, r, hparse, hlocate, ?_⟩
  rw [← hflat, ← hvisited]
  exact flatteningSpec "u" outer head kind typeRef refHead hname

end FastSchema
