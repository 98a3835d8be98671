import FastSchema.Schema.OfXml

/-! # Loading what was rendered

A document has a form as an element tree: one element for each template and field, with its
attributes, and beside the fields one element for every other part. Loading this tree gives the
document back, unless the document says something that no tree can say. -/

namespace FastSchema

open Xml (Node Element Attribute Name)

/-! ## The tree of a document -/

def Attributes.toXml (a : Attributes) : List Attribute :=
  a.entries.map fun e => ⟨.plain e.1, e.2⟩

def Operator.toXml (op : Operator) : Node :=
  .element (.plain op.kind.name) op.attrs.toXml []

def Length.toXml (l : Length) : Node :=
  .element (.plain "length") l.attrs.toXml (l.operator.toList.map Operator.toXml)

def TypeRef.toXml (t : TypeRef) : Node :=
  .element (.plain "typeRef") [⟨.plain "name", t.name⟩, ⟨.plain "ns", t.ns⟩] []

/-- The children of a decimal. Both parts of a split one are written, whatever their operators. -/
def DecimalShape.toXml : DecimalShape → List Node
  | .whole operator => operator.toList.map Operator.toXml
  | .split mantissa exponent =>
    [.element (.plain "mantissa") [] (mantissa.toList.map Operator.toXml),
     .element (.plain "exponent") [] (exponent.toList.map Operator.toXml)]

def Leaf.tag : Leaf → String
  | .integer type _ => type.tag
  | .string _ _ => "string"
  | .decimal _ => "decimal"
  | .byteVector _ _ => "byteVector"
  | .reference _ => "templateRef"

/-- The children of a leaf. What a reference refers to is among its attributes. -/
def Leaf.toXml : Leaf → List Node
  | .integer _ operator => operator.toList.map Operator.toXml
  | .string operator length =>
    length.toList.map Length.toXml ++ operator.toList.map Operator.toXml
  | .decimal shape => shape.toXml
  | .byteVector operator length =>
    length.toList.map Length.toXml ++ operator.toList.map Operator.toXml
  | .reference _ => []

def CompositeKind.tag : CompositeKind → String
  | .group => "group"
  | .sequence _ => "sequence"

def CompositeKind.toXml : CompositeKind → List Node
  | .group => []
  | .sequence length => length.toList.map Length.toXml

mutual

def Field.toXml : Field → Node
  | .leaf head content => .element (.plain content.tag) head.attrs.toXml content.toXml
  | .composite head kind typeRef fields =>
    .element (.plain kind.tag) head.attrs.toXml
      (typeRef.toList.map TypeRef.toXml ++ (kind.toXml ++ Field.listToXml fields))

def Field.listToXml : List Field → List Node
  | [] => []
  | field :: fields => Field.toXml field :: Field.listToXml fields

end

def Template.toXml (t : Template) : Element :=
  ⟨.plain "template", t.attrs.toXml, t.typeRef.toList.map TypeRef.toXml ++ Field.listToXml t.fields⟩

def Document.toXml (doc : Document) : Element :=
  ⟨.plain "templates", doc.attrs.toXml, doc.templates.map fun t => t.toXml.toNode⟩

/-! ## Documents that a tree can describe -/

def Operator.Loadable (operator : Option Operator) : Prop :=
  ∀ op ∈ operator, op.kind ≠ .none

def Length.Loadable (length : Option Length) : Prop :=
  ∀ l ∈ length, Operator.Loadable l.operator

def DecimalShape.Loadable : DecimalShape → Prop
  | .whole operator => Operator.Loadable operator
  | .split mantissa exponent => Operator.Loadable mantissa ∧ Operator.Loadable exponent

def Leaf.Loadable (attrs : Attributes) : Leaf → Prop
  | .integer _ operator => Operator.Loadable operator
  | .string operator length => Operator.Loadable operator ∧ Length.Loadable length
  | .decimal shape => shape.Loadable
  | .byteVector operator length => Operator.Loadable operator ∧ Length.Loadable length
  | .reference r => r.name = attrs.get? "name" ∧ r.ns = attrs.get? "ns"

def CompositeKind.Loadable : CompositeKind → Prop
  | .group => True
  | .sequence length => Length.Loadable length

def FieldHead.Loadable (head : FieldHead) : Prop :=
  head.name = head.attrs.getD "name"

mutual

def Field.Loadable : Field → Prop
  | .leaf head content => head.Loadable ∧ content.Loadable head.attrs
  | .composite head kind _ fields =>
    head.Loadable ∧ kind.Loadable ∧ Field.AllLoadable fields

def Field.AllLoadable : List Field → Prop
  | [] => True
  | field :: fields => Field.Loadable field ∧ Field.AllLoadable fields

end

def Template.Loadable (t : Template) : Prop :=
  t.name = t.attrs.getD "name" ∧ Field.AllLoadable t.fields

/-- The names and the targets of references are those among the attributes, and no operator has the
kind that stands for no operator. -/
def Document.Loadable (doc : Document) : Prop :=
  ∀ t ∈ doc.templates, t.Loadable

/-! ## Attributes -/

theorem Attributes.set_of_notMem {key value : String} {es : List (String × String)}
    (h : key ∉ es.map Prod.fst) : set key value es = es ++ [(key, value)] := by
  induction es with
  | nil => rfl
  | cons e es ih =>
      rw [List.map_cons, List.mem_cons, not_or] at h
      rw [set, if_neg (Ne.symm h.1), ih h.2, List.cons_append]

theorem Attributes.entries_foldl_insert (a : Attributes) (bindings : List (String × String))
    (h : ((a.entries ++ bindings).map Prod.fst).Nodup) :
    (bindings.foldl (fun a b => a.insert b.1 b.2) a).entries = a.entries ++ bindings := by
  induction bindings generalizing a with
  | nil => simp
  | cons b bindings ih =>
      have hnotMem : b.1 ∉ a.entries.map Prod.fst := by
        rw [List.map_append, List.nodup_append] at h
        intro hmem
        exact h.2.2 b.1 hmem b.1 (by simp) rfl
      have hentries : (a.insert b.1 b.2).entries = a.entries ++ [b] := set_of_notMem hnotMem
      rw [List.foldl_cons, ih, hentries, List.append_assoc, List.singleton_append]
      rw [hentries, List.append_assoc, List.singleton_append]
      exact h

/-- Attributes are given back in the order in which they are written. -/
theorem Attributes.ofXml_toXml (a : Attributes) : Attributes.ofXml a.toXml = a := by
  obtain ⟨entries, hnodup⟩ := a
  have hbindings : (Attributes.toXml ⟨entries, hnodup⟩).map (fun b => (b.name.base, b.value)) =
      entries := by
    simp [toXml, Name.plain, Function.comp_def]
  have hentries : (ofList entries).entries = entries :=
    entries_foldl_insert .empty entries hnodup
  rw [ofXml, hbindings]
  generalize ofList entries = a at hentries
  obtain ⟨entries', hnodup'⟩ := a
  subst hentries
  rfl

theorem Attributes.attribute?_toXml (a : Attributes) (key : String) :
    Xml.attribute? key a.toXml = a.get? key := by
  unfold toXml get? Xml.attribute?
  induction a.entries with
  | nil => rfl
  | cons e es ih =>
      obtain ⟨k, v⟩ := e
      by_cases hkey : k = key
      · simp [hkey]
      · have hbeq : (key == k) = false := beq_false_of_ne (Ne.symm hkey)
        have hname : Name.plain k ≠ Name.plain key := fun h => hkey (congrArg Name.base h)
        rw [List.map_cons, List.find?_cons_of_neg (by simpa using hname), ih,
          List.lookup_cons, hbeq]

/-! ## Scans for one child -/

theorem OperatorKind.ofTag?_name {kind : OperatorKind} (h : kind ≠ .none) :
    ofTag? kind.name = some kind := by
  cases kind with
  | none => exact (h rfl).elim
  | _ => decide

theorem OperatorKind.ofTag?_name_none : ofTag? OperatorKind.none.name = Option.none := by decide

def Field.tags : List String :=
  ["group", "sequence", "string", "decimal", "byteVector", "templateRef"] ++
    IntType.all.map IntType.tag

def Field.tag : Field → String
  | .leaf _ content => content.tag
  | .composite _ kind _ _ => kind.tag

theorem IntType.mem_all (t : IntType) : t ∈ IntType.all := by
  rcases t with ⟨_ | _, _ | _ | _ | _⟩ <;> decide

theorem Field.tag_mem_tags (field : Field) : field.tag ∈ Field.tags := by
  cases field with
  | leaf head content =>
      cases content with
      | integer type operator =>
          exact List.mem_append_right _ (List.mem_map_of_mem type.mem_all)
      | _ => simp [tag, tags, Leaf.tag]
  | composite head kind typeRef fields =>
      cases kind <;> simp [tag, tags, CompositeKind.tag]

@[simp] theorem Xml.childNamed_nil (base : String) : Xml.childNamed base [] = none := rfl

theorem Xml.childNamed_cons (base : String) (name : Name) (attributes : List Attribute)
    (children nodes : List Node) :
    Xml.childNamed base (.element name attributes children :: nodes) =
      if name.base = base then some ⟨name, attributes, children⟩
      else Xml.childNamed base nodes := by
  by_cases h : name.base = base <;> simp [Xml.childNamed, Node.element?, h]

/-- The element of an operator is none of the others. -/
theorem Operator.childNamed_toXml (base : String) (h : ∀ kind : OperatorKind, kind.name ≠ base)
    (operator : Option Operator) :
    Xml.childNamed base (operator.toList.map Operator.toXml) = none := by
  cases operator with
  | none => rfl
  | some op => simp [Operator.toXml, Xml.childNamed_cons, Name.plain, h op.kind]

/-- The element of a field is none of those beside the fields. -/
theorem Field.childNamed_listToXml {base : String} (h : base ∉ Field.tags) (fields : List Field) :
    Xml.childNamed base (Field.listToXml fields) = none := by
  induction fields with
  | nil => rfl
  | cons field fields ih =>
      have hbase : field.tag ≠ base := fun heq => h (heq ▸ field.tag_mem_tags)
      cases field <;>
        simpa [listToXml, toXml, tag, Xml.childNamed_cons, Name.plain, ih] using hbase

/-! ## Parts of fields -/

theorem Operator.ofXml?_toXml_iff (operator : Option Operator) :
    Operator.ofXml? (operator.toList.map Operator.toXml) = operator ↔
      Operator.Loadable operator := by
  cases operator with
  | none => simp [Operator.ofXml?, Operator.Loadable]
  | some op =>
      obtain ⟨kind, attrs⟩ := op
      by_cases hkind : kind = .none
      · subst hkind
        simp [Operator.ofXml?, Operator.toXml, Operator.Loadable, Node.element?, Name.plain,
          OperatorKind.ofTag?_name_none]
      · simp [Operator.ofXml?, Operator.toXml, Operator.Loadable, Node.element?, Name.plain,
          OperatorKind.ofTag?_name hkind, Attributes.ofXml_toXml, hkind]

/-- A length beside an operator is not taken for one. -/
theorem Operator.ofXml?_length_append (length : Option Length) (nodes : List Node) :
    Operator.ofXml? (length.toList.map Length.toXml ++ nodes) = Operator.ofXml? nodes := by
  have htag : OperatorKind.ofTag? "length" = none := by decide
  cases length with
  | none => rfl
  | some l => simp [Operator.ofXml?, Length.toXml, Node.element?, Name.plain, htag]

theorem Length.ofXml?_toXml_iff (length : Option Length) {nodes : List Node}
    (hnodes : Xml.childNamed "length" nodes = none) :
    Length.ofXml? (length.toList.map Length.toXml ++ nodes) = length ↔
      Length.Loadable length := by
  cases length with
  | none => simp [Length.ofXml?, Length.Loadable, hnodes]
  | some l =>
      obtain ⟨attrs, operator⟩ := l
      simp [Length.ofXml?, Length.Loadable, Length.toXml, Xml.childNamed_cons, Name.plain,
        Attributes.ofXml_toXml, Operator.ofXml?_toXml_iff]

theorem TypeRef.ofXml?_toXml (typeRef : Option TypeRef) {nodes : List Node}
    (hnodes : Xml.childNamed "typeRef" nodes = none) :
    TypeRef.ofXml? (typeRef.toList.map TypeRef.toXml ++ nodes) = typeRef := by
  cases typeRef with
  | none => simp [TypeRef.ofXml?, hnodes]
  | some t =>
      obtain ⟨name, ns⟩ := t
      simp [TypeRef.ofXml?, TypeRef.toXml, Xml.childNamed_cons, Name.plain, Xml.attribute?]

theorem Length.ofXml?_typeRef_append (typeRef : Option TypeRef) (nodes : List Node) :
    Length.ofXml? (typeRef.toList.map TypeRef.toXml ++ nodes) = Length.ofXml? nodes := by
  cases typeRef with
  | none => rfl
  | some t => simp [Length.ofXml?, TypeRef.toXml, Xml.childNamed_cons, Name.plain]

theorem DecimalShape.ofXml_toXml_iff (shape : DecimalShape) :
    DecimalShape.ofXml shape.toXml = shape ↔ shape.Loadable := by
  cases shape with
  | whole operator =>
      have hmantissa := Operator.childNamed_toXml "mantissa"
        (fun kind => by cases kind <;> decide) operator
      have hexponent := Operator.childNamed_toXml "exponent"
        (fun kind => by cases kind <;> decide) operator
      simp [DecimalShape.ofXml, toXml, hmantissa, hexponent, Loadable,
        Operator.ofXml?_toXml_iff]
  | split mantissa exponent =>
      simp [DecimalShape.ofXml, toXml, Xml.childNamed_cons, Name.plain, Loadable,
        Operator.ofXml?_toXml_iff]

/-! ## Fields -/

theorem Leaf.exists_ofXml? (attrs : Attributes) (content : Leaf) :
    ∃ loaded, Leaf.ofXml? content.tag attrs.toXml content.toXml = some loaded ∧
      (loaded = content ↔ content.Loadable attrs) := by
  have hlength (operator : Option Operator) :
      Xml.childNamed "length" (operator.toList.map Operator.toXml) = none :=
    Operator.childNamed_toXml "length" (fun kind => by cases kind <;> decide) operator
  cases content with
  | integer type operator =>
      have htag : ∀ tag ∈ ["string", "decimal", "byteVector", "templateRef"], type.tag ≠ tag := by
        rcases type with ⟨_ | _, _ | _ | _ | _⟩ <;> decide
      simp only [List.forall_mem_cons] at htag
      refine ⟨.integer type (Operator.ofXml? (operator.toList.map Operator.toXml)), ?_, ?_⟩
      · simp only [Leaf.ofXml?, tag, toXml, htag, if_false, IntType.ofTag?_tag, Option.map_some]
      · simp [Loadable, Operator.ofXml?_toXml_iff]
  | string operator length =>
      refine ⟨_, rfl, ?_⟩
      simp [toXml, Loadable, Operator.ofXml?_length_append, Operator.ofXml?_toXml_iff,
        Length.ofXml?_toXml_iff length (hlength operator)]
  | decimal shape =>
      refine ⟨_, rfl, ?_⟩
      simp [toXml, Loadable, DecimalShape.ofXml_toXml_iff]
  | byteVector operator length =>
      refine ⟨_, rfl, ?_⟩
      simp [toXml, Loadable, Operator.ofXml?_length_append, Operator.ofXml?_toXml_iff,
        Length.ofXml?_toXml_iff length (hlength operator)]
  | reference r =>
      obtain ⟨name, ns⟩ := r
      refine ⟨_, rfl, ?_⟩
      simp [Loadable, Reference.ofXml, Attributes.attribute?_toXml, eq_comm]

theorem CompositeKind.ofXml?_tag_leaf (content : Leaf) (children : List Node) :
    CompositeKind.ofXml? content.tag children = none := by
  cases content with
  | integer type operator =>
      rcases type with ⟨_ | _, _ | _ | _ | _⟩ <;> rfl
  | _ => rfl

theorem CompositeKind.exists_ofXml? (kind : CompositeKind) (typeRef : Option TypeRef)
    {nodes : List Node} (hnodes : Xml.childNamed "length" nodes = none) :
    ∃ loaded, CompositeKind.ofXml? kind.tag
        (typeRef.toList.map TypeRef.toXml ++ (kind.toXml ++ nodes)) = some loaded ∧
      (loaded = kind ↔ kind.Loadable) := by
  cases kind with
  | group => exact ⟨.group, rfl, by simp [Loadable]⟩
  | sequence length =>
      refine ⟨_, rfl, ?_⟩
      simp [toXml, Loadable, Length.ofXml?_typeRef_append, Length.ofXml?_toXml_iff length hnodes]

/-- The binding is found although the length comes after it. -/
theorem CompositeKind.typeRef_ofXml?_toXml (kind : CompositeKind) (typeRef : Option TypeRef)
    {nodes : List Node} (hnodes : Xml.childNamed "typeRef" nodes = none) :
    TypeRef.ofXml? (typeRef.toList.map TypeRef.toXml ++ (kind.toXml ++ nodes)) = typeRef := by
  refine TypeRef.ofXml?_toXml typeRef ?_
  cases kind with
  | group => exact hnodes
  | sequence length =>
      cases length with
      | none => exact hnodes
      | some l => simp [toXml, Length.toXml, Xml.childNamed_cons, Name.plain, hnodes]

/-- A type binding is not taken for a field. -/
theorem Field.listOfXml_typeRef_append (typeRef : Option TypeRef) (nodes : List Node) :
    Field.listOfXml (typeRef.toList.map TypeRef.toXml ++ nodes) = Field.listOfXml nodes := by
  cases typeRef with
  | none => rfl
  | some t =>
      have hnone : Field.ofXml? t.toXml = none := by
        rw [TypeRef.toXml, Field.ofXml?]
        rfl
      simp [Field.listOfXml, hnone]

/-- A length is not taken for a field. -/
theorem Field.listOfXml_kind_append (kind : CompositeKind) (nodes : List Node) :
    Field.listOfXml (kind.toXml ++ nodes) = Field.listOfXml nodes := by
  cases kind with
  | group => rfl
  | sequence length =>
      cases length with
      | none => rfl
      | some l =>
          have hnone : Field.ofXml? l.toXml = none := by
            rw [Length.toXml, Field.ofXml?]
            rfl
          simp [CompositeKind.toXml, Field.listOfXml, hnone]

theorem FieldHead.ofXml_toXml_iff (head : FieldHead) :
    FieldHead.ofXml head.attrs.toXml = head ↔ head.Loadable := by
  obtain ⟨name, attrs⟩ := head
  simp [FieldHead.ofXml, Loadable, Attributes.attribute?_toXml, Attributes.ofXml_toXml,
    Attributes.getD, eq_comm]

mutual

/-- A field is always loaded as one field, and as itself if it is loadable. -/
theorem Field.exists_ofXml? (field : Field) :
    ∃ loaded, Field.ofXml? field.toXml = some loaded ∧ (loaded = field ↔ field.Loadable) := by
  cases field with
  | leaf head content =>
      obtain ⟨loaded, hloaded, hiff⟩ := content.exists_ofXml? head.attrs
      refine ⟨.leaf (.ofXml head.attrs.toXml) loaded, ?_, ?_⟩
      · simp [Field.toXml, Field.ofXml?, Name.plain, CompositeKind.ofXml?_tag_leaf, hloaded]
      · rw [Field.Loadable, Field.leaf.injEq, FieldHead.ofXml_toXml_iff, hiff]
  | composite head kind typeRef fields =>
      have hlength : Xml.childNamed "length" (Field.listToXml fields) = none :=
        Field.childNamed_listToXml (by decide) fields
      have htypeRef : Xml.childNamed "typeRef" (Field.listToXml fields) = none :=
        Field.childNamed_listToXml (by decide) fields
      obtain ⟨loaded, hloaded, hiff⟩ := kind.exists_ofXml? typeRef hlength
      refine ⟨.composite (.ofXml head.attrs.toXml) loaded typeRef
        (Field.listOfXml (Field.listToXml fields)), ?_, ?_⟩
      · simp [Field.toXml, Field.ofXml?, Name.plain, hloaded,
          kind.typeRef_ofXml?_toXml typeRef htypeRef, Field.listOfXml_typeRef_append,
          Field.listOfXml_kind_append]
      · rw [Field.Loadable, Field.composite.injEq, FieldHead.ofXml_toXml_iff, hiff,
          Field.listOfXml_listToXml_iff]
        simp

theorem Field.listOfXml_listToXml_iff (fields : List Field) :
    Field.listOfXml (Field.listToXml fields) = fields ↔ Field.AllLoadable fields := by
  cases fields with
  | nil => simp [Field.listToXml, Field.listOfXml, Field.AllLoadable]
  | cons field fields =>
      obtain ⟨loaded, hloaded, hiff⟩ := Field.exists_ofXml? field
      rw [Field.listToXml, Field.listOfXml, Field.AllLoadable, hloaded, List.cons.injEq, hiff,
        Field.listOfXml_listToXml_iff fields]

end

/-! ## Documents -/

theorem Template.ofXml_toXml_iff (t : Template) : Template.ofXml t.toXml = t ↔ t.Loadable := by
  obtain ⟨name, attrs, typeRef, fields⟩ := t
  have htypeRef : Xml.childNamed "typeRef" (Field.listToXml fields) = none :=
    Field.childNamed_listToXml (by decide) fields
  simp [Template.ofXml, toXml, Loadable, Attributes.attribute?_toXml, Attributes.ofXml_toXml,
    TypeRef.ofXml?_toXml typeRef htypeRef, Field.listOfXml_typeRef_append,
    Field.listOfXml_listToXml_iff, Attributes.getD, eq_comm (a := name)]

/-- Loading the tree of a document gives the same document back, provided that names and references
agree with the attributes and no operator is of the kind without an element. No other document is
given back by it. -/
theorem Document.ofXml_toXml_eq_ok_iff (doc : Document) :
    Document.ofXml doc.toXml = .ok doc ↔ doc.Loadable := by
  obtain ⟨attrs, templates⟩ := doc
  have helements : (templates.map fun t => t.toXml.toNode).filterMap Node.element? =
      templates.map Template.toXml := by
    simp [List.filterMap_map, Function.comp_def]
  have hkept : (templates.map Template.toXml).filter (·.name.base = "template") =
      templates.map Template.toXml := by
    simp [List.filter_eq_self, Template.toXml, Name.plain]
  have hloaded : Document.ofXml (Document.toXml ⟨attrs, templates⟩) =
      .ok ⟨attrs, templates.map fun t => Template.ofXml t.toXml⟩ := by
    simp [Document.ofXml, Document.toXml, Name.plain, Attributes.ofXml_toXml, helements, hkept,
      Function.comp_def]
  have hmap : (templates.map fun t => Template.ofXml t.toXml) = templates ↔
      ∀ t ∈ templates, Template.ofXml t.toXml = t := by
    simpa using List.map_inj_left (l := templates) (f := fun t => Template.ofXml t.toXml) (g := id)
  rw [hloaded, Except.ok.injEq, Document.mk.injEq, hmap, Document.Loadable]
  simp only [true_and, Template.ofXml_toXml_iff]

/-- A template whose fields have all kinds of parts. -/
def quoteDocument : Document :=
  ⟨.ofList [("ns", "urn:quotes")],
    [⟨"Quote", .ofList [("name", "Quote"), ("id", "7")], some ⟨"QuoteType", ""⟩,
      [.leaf ⟨"Price", .ofList [("name", "Price")]⟩
         (.decimal (.split (some ⟨.delta, .empty⟩) none)),
       .composite ⟨"Legs", .ofList [("name", "Legs")]⟩
         (.sequence (some ⟨.ofList [("name", "Count")], some ⟨.copy, .empty⟩⟩))
         (some ⟨"LegType", ""⟩)
         [.leaf ⟨"Side", .ofList [("name", "Side")]⟩
            (.integer .uint32 (some ⟨.constant, .ofList [("value", "1")]⟩)),
          .leaf ⟨"", .empty⟩ (.reference ⟨none, none⟩)]]⟩]⟩

example : Document.ofXml quoteDocument.toXml = .ok quoteDocument := by rfl

end FastSchema
