import FastSchema.Proofs.Schema.RoundTrip
import Mathlib.Logic.Relation

/-! # What a document does not notice

Texts, comments, instructions and elements of other vocabularies are noise, and so are the
namespaces of elements. Without its noise an element is its skeleton. Two elements have the same
skeleton just if noise can be put in, taken out and changed until one is the other, and a document
is loaded from the skeleton alone. -/

namespace FastSchema

open Xml (Node Element Attribute Name)

/-! ## Noise -/

/-- The base names of the elements that say something in a document. -/
def vocabulary : List String :=
  ["templates", "template", "typeRef", "length", "mantissa", "exponent"] ++
    (Field.tags ++ OperatorKind.declared.map OperatorKind.name)

/-- The item is not an element of the vocabulary. -/
def Xml.Node.IsNoise (node : Node) : Prop :=
  ∀ e ∈ node.element?, e.name.base ∉ vocabulary

/-- One edit of the noise of an element, at any depth: an element is put into another namespace, or
an item of noise among the children. -/
inductive Xml.Element.Edit : Element → Element → Prop
  | requalify {space space' : Option String} {base : String} {attributes : List Attribute}
      {children : List Node} :
      Edit ⟨⟨space, base⟩, attributes, children⟩ ⟨⟨space', base⟩, attributes, children⟩
  | insert {name : Name} {attributes : List Attribute} {before after : List Node} {node : Node}
      (hnoise : node.IsNoise) :
      Edit ⟨name, attributes, before ++ after⟩ ⟨name, attributes, before ++ node :: after⟩
  | inside {name : Name} {attributes : List Attribute} {before after : List Node} {e e' : Element}
      (hedit : Edit e e') :
      Edit ⟨name, attributes, before ++ e.toNode :: after⟩
        ⟨name, attributes, before ++ e'.toNode :: after⟩

/-- Edits of noise, made or taken back, lead from one element to the other. -/
def Xml.Element.SameButNoise : Element → Element → Prop := Relation.EqvGen Element.Edit

/-! ## Skeletons -/

namespace Xml

mutual

/-- The item without noise, if anything of it is left. -/
def Node.skeleton? : Node → Option Node
  | .element name attributes children =>
    if name.base ∈ vocabulary then
      some (.element (.plain name.base) attributes (skeletonEach children))
    else none
  | .text _ => none
  | .comment _ => none
  | .instruction _ _ => none

def skeletonEach : List Node → List Node
  | [] => []
  | node :: nodes => (Node.skeleton? node).toList ++ skeletonEach nodes

end

/-- The element without noise. It is kept itself, also if it is none of the vocabulary. -/
def Element.skeleton (e : Element) : Element :=
  ⟨.plain e.name.base, e.attributes, skeletonEach e.children⟩

theorem Node.skeleton?_toNode (e : Element) :
    e.toNode.skeleton? = if e.name.base ∈ vocabulary then some e.skeleton.toNode else none := by
  rw [Element.toNode, skeleton?]
  rfl

theorem Node.skeleton?_eq_none_iff (node : Node) : node.skeleton? = none ↔ node.IsNoise := by
  cases node <;> simp [skeleton?, IsNoise, element?]

theorem skeletonEach_append (nodes nodes' : List Node) :
    skeletonEach (nodes ++ nodes') = skeletonEach nodes ++ skeletonEach nodes' := by
  induction nodes with
  | nil => rfl
  | cons node nodes ih =>
      rw [List.cons_append, skeletonEach, skeletonEach, ih, List.append_assoc]

/-- The elements that are left are those of the vocabulary. -/
theorem elements_skeletonEach (nodes : List Node) :
    (skeletonEach nodes).filterMap Node.element? =
      ((nodes.filterMap Node.element?).filter (·.name.base ∈ vocabulary)).map
        Element.skeleton := by
  induction nodes with
  | nil => rfl
  | cons node nodes ih =>
      rw [skeletonEach, List.filterMap_append, ih]
      cases node with
      | element name attributes children =>
          by_cases h : name.base ∈ vocabulary <;>
            simp [Node.skeleton?, Node.element?, Element.skeleton, h]
      | _ => rfl

namespace Element

/-! ## Elements with the same skeleton -/

theorem Edit.skeleton_eq {e e' : Element} (h : Edit e e') : e.skeleton = e'.skeleton := by
  induction h with
  | requalify => rfl
  | insert hnoise =>
      rw [skeleton, skeleton, skeletonEach_append, skeletonEach_append, skeletonEach,
        (Node.skeleton?_eq_none_iff _).mpr hnoise]
      rfl
  | @inside _ _ _ _ e e' _ ih =>
      have hbase : e.name.base = e'.name.base := congrArg (·.name.base) ih
      rw [skeleton, skeleton, skeletonEach_append, skeletonEach_append, skeletonEach, skeletonEach,
        Node.skeleton?_toNode, Node.skeleton?_toNode, hbase, ih]

theorem SameButNoise.skeleton_eq {e e' : Element} (h : SameButNoise e e') :
    e.skeleton = e'.skeleton := by
  induction h with
  | rel _ _ hedit => exact hedit.skeleton_eq
  | refl _ => rfl
  | symm _ _ _ ih => exact ih.symm
  | trans _ _ _ _ _ ih ih' => exact ih.trans ih'

theorem SameButNoise.inside {e e' : Element} (h : SameButNoise e e') (name : Name)
    (attributes : List Attribute) (before after : List Node) :
    SameButNoise ⟨name, attributes, before ++ e.toNode :: after⟩
      ⟨name, attributes, before ++ e'.toNode :: after⟩ := by
  induction h with
  | rel _ _ hedit => exact .rel _ _ (.inside hedit)
  | refl _ => exact .refl _
  | symm _ _ _ ih => exact .symm _ _ ih
  | trans _ _ _ _ _ ih ih' => exact .trans _ _ _ ih ih'

mutual

theorem sameButNoise_skeletonEach (name : Name) (attributes : List Attribute)
    (before nodes : List Node) :
    SameButNoise ⟨name, attributes, before ++ nodes⟩
      ⟨name, attributes, before ++ skeletonEach nodes⟩ := by
  cases nodes with
  | nil => exact .refl _
  | cons node nodes =>
      refine .trans _ _ _ (sameButNoise_skeleton? name attributes before node nodes) ?_
      have hrest := sameButNoise_skeletonEach name attributes
        (before ++ (Node.skeleton? node).toList) nodes
      rwa [List.append_assoc, List.append_assoc] at hrest

/-- An item can be replaced by what is left of it. -/
theorem sameButNoise_skeleton? (name : Name) (attributes : List Attribute) (before : List Node)
    (node : Node) (after : List Node) :
    SameButNoise ⟨name, attributes, before ++ node :: after⟩
      ⟨name, attributes, before ++ ((Node.skeleton? node).toList ++ after)⟩ := by
  cases hleft : node.skeleton? with
  | none =>
      have hnoise := (Node.skeleton?_eq_none_iff node).mp hleft
      exact .symm _ _ (.rel _ _ (.insert hnoise))
  | some left =>
      cases node with
      | element base attributes' children =>
          rw [Node.skeleton?] at hleft
          split at hleft
          case isFalse => cases hleft
          case isTrue hbase =>
            cases hleft
            have hinner : SameButNoise ⟨base, attributes', children⟩
                ⟨base, attributes', skeletonEach children⟩ :=
              sameButNoise_skeletonEach base attributes' [] children
            have hplain : SameButNoise ⟨base, attributes', skeletonEach children⟩
                ⟨.plain base.base, attributes', skeletonEach children⟩ := .rel _ _ .requalify
            have hskeleton : SameButNoise _ _ := .trans _ _ _ hinner hplain
            exact hskeleton.inside name attributes before after
      | _ => cases hleft

end

/-- An element and its skeleton differ in noise only. -/
theorem sameButNoise_skeleton (e : Element) : SameButNoise e e.skeleton :=
  .trans _ _ _ (sameButNoise_skeletonEach e.name e.attributes [] e.children) (.rel _ _ .requalify)

/-- Two elements differ in noise only, just if without noise they are equal. -/
theorem sameButNoise_iff (e e' : Element) : SameButNoise e e' ↔ e.skeleton = e'.skeleton := by
  constructor
  · exact SameButNoise.skeleton_eq
  · intro h
    have hleft := sameButNoise_skeleton e
    rw [h] at hleft
    exact .trans _ _ _ hleft (.symm _ _ (sameButNoise_skeleton e'))

end Element

/-! ## Scans of the children -/

/-- A scan for the first of some elements of the vocabulary finds its skeleton. -/
theorem findSome?_skeletonEach {α : Type} {f : Element → Option α}
    (hnoise : ∀ e, e.name.base ∉ vocabulary → f e = none) (nodes : List Node) :
    ((skeletonEach nodes).filterMap Node.element?).findSome? f =
      (nodes.filterMap Node.element?).findSome? fun e => f e.skeleton := by
  rw [elements_skeletonEach, List.findSome?_map]
  induction nodes.filterMap Node.element? with
  | nil => rfl
  | cons e rest ih =>
      by_cases he : e.name.base ∈ vocabulary
      · rw [List.filter_cons_of_pos (by simpa using he), List.findSome?_cons, List.findSome?_cons,
          ih]
        rfl
      · have hnone : f e.skeleton = none := hnoise e.skeleton he
        rw [List.filter_cons_of_neg (by simpa using he), List.findSome?_cons, hnone, ih]

theorem childNamed_skeletonEach (base : String) (h : base ∈ vocabulary) (nodes : List Node) :
    childNamed base (skeletonEach nodes) = (childNamed base nodes).map Element.skeleton := by
  induction nodes with
  | nil => rfl
  | cons node nodes ih =>
      cases node with
      | element name attributes children =>
          rw [skeletonEach, Node.skeleton?, childNamed_cons]
          by_cases hname : name.base = base
          · simp [hname, h, childNamed_cons, Name.plain, Element.skeleton]
          · by_cases hleft : name.base ∈ vocabulary
            · simp [hname, hleft, childNamed_cons, Name.plain, ih]
            · simp [hname, hleft, ih]
      | _ => exact ih

end Xml

/-! ## What is loaded -/

theorem OperatorKind.ofTag?_eq_none {tag : String} (h : tag ∉ vocabulary) :
    OperatorKind.ofTag? tag = Option.none := by
  refine List.find?_eq_none.mpr fun kind hkind => ?_
  have hmem : kind.name ∈ vocabulary :=
    List.mem_append_right _ (List.mem_append_right _ (List.mem_map_of_mem hkind))
  simpa using fun heq : kind.name = tag => h (heq ▸ hmem)

theorem Operator.ofXml?_skeletonEach (nodes : List Node) :
    Operator.ofXml? (Xml.skeletonEach nodes) = Operator.ofXml? nodes := by
  unfold Operator.ofXml?
  rw [Xml.findSome?_skeletonEach fun e he => by rw [OperatorKind.ofTag?_eq_none he]; rfl]
  rfl

theorem Length.ofXml?_skeletonEach (nodes : List Node) :
    Length.ofXml? (Xml.skeletonEach nodes) = Length.ofXml? nodes := by
  unfold Length.ofXml?
  rw [Xml.childNamed_skeletonEach _ (by decide), Option.map_map]
  simp [Function.comp_def, Xml.Element.skeleton, Operator.ofXml?_skeletonEach]

theorem TypeRef.ofXml?_skeletonEach (nodes : List Node) :
    TypeRef.ofXml? (Xml.skeletonEach nodes) = TypeRef.ofXml? nodes := by
  unfold TypeRef.ofXml?
  rw [Xml.childNamed_skeletonEach _ (by decide), Option.map_map]
  rfl

theorem DecimalShape.ofXml_skeletonEach (nodes : List Node) :
    DecimalShape.ofXml (Xml.skeletonEach nodes) = DecimalShape.ofXml nodes := by
  have hmantissa := Xml.childNamed_skeletonEach "mantissa" (by decide) nodes
  have hexponent := Xml.childNamed_skeletonEach "exponent" (by decide) nodes
  simp only [DecimalShape.ofXml, hmantissa, hexponent, Option.isSome_map, Option.bind_map,
    Operator.ofXml?_skeletonEach, Function.comp_def, Xml.Element.skeleton]

theorem Leaf.ofXml?_skeletonEach (tag : String) (attributes : List Attribute)
    (nodes : List Node) :
    Leaf.ofXml? tag attributes (Xml.skeletonEach nodes) = Leaf.ofXml? tag attributes nodes := by
  simp only [Leaf.ofXml?, Operator.ofXml?_skeletonEach, Length.ofXml?_skeletonEach,
    DecimalShape.ofXml_skeletonEach]

theorem CompositeKind.ofXml?_skeletonEach (tag : String) (nodes : List Node) :
    CompositeKind.ofXml? tag (Xml.skeletonEach nodes) = CompositeKind.ofXml? tag nodes := by
  simp only [CompositeKind.ofXml?, Length.ofXml?_skeletonEach]

/-- An element that is not in the vocabulary declares no field. -/
theorem Field.ofXml?_eq_none {name : Name} (h : name.base ∉ vocabulary)
    (attributes : List Attribute) (children : List Node) :
    Field.ofXml? (.element name attributes children) = none := by
  have htag {tag : String} (hmem : tag ∈ vocabulary) : name.base ≠ tag := fun heq =>
    h (heq ▸ hmem)
  have hinteger : IntType.ofTag? name.base = none := by
    refine List.find?_eq_none.mpr fun type htype => ?_
    have hmem : type.tag ∈ Field.tags := List.mem_append_right _ (List.mem_map_of_mem htype)
    have hne := htag (List.mem_append_right _ (List.mem_append_left _ hmem))
    simpa using Ne.symm hne
  have hkind : CompositeKind.ofXml? name.base children = none := by
    rw [CompositeKind.ofXml?, if_neg (htag (by decide)), if_neg (htag (by decide))]
  have hleaf : Leaf.ofXml? name.base attributes children = none := by
    rw [Leaf.ofXml?, if_neg (htag (by decide)), if_neg (htag (by decide)),
      if_neg (htag (by decide)), if_neg (htag (by decide)), hinteger]
    rfl
  rw [Field.ofXml?, hkind, hleaf]
  rfl

mutual

/-- Noise declares no field, and any other item declares what is declared by what is left of it. -/
theorem Field.bind_ofXml?_skeleton? (node : Node) :
    node.skeleton?.bind Field.ofXml? = Field.ofXml? node := by
  cases node with
  | element name attributes children =>
      by_cases h : name.base ∈ vocabulary
      · rw [Node.skeleton?, if_pos h, Option.bind_some, Field.ofXml?, Field.ofXml?,
          CompositeKind.ofXml?_skeletonEach, TypeRef.ofXml?_skeletonEach,
          Field.listOfXml_skeletonEach children, Leaf.ofXml?_skeletonEach]
        rfl
      · rw [Node.skeleton?, if_neg h, Field.ofXml?_eq_none h]
        rfl
  | _ => rfl

theorem Field.listOfXml_skeletonEach (nodes : List Node) :
    Field.listOfXml (Xml.skeletonEach nodes) = Field.listOfXml nodes := by
  cases nodes with
  | nil => rfl
  | cons node nodes =>
      have hfirst := Field.bind_ofXml?_skeleton? node
      have hrest := Field.listOfXml_skeletonEach nodes
      rw [Xml.skeletonEach, Field.listOfXml, ← hfirst]
      cases hleft : node.skeleton? with
      | none => simpa using hrest
      | some left => simp [Field.listOfXml, hrest]

end

theorem Template.ofXml_skeleton (e : Element) : Template.ofXml e.skeleton = Template.ofXml e := by
  simp only [Template.ofXml, Xml.Element.skeleton, TypeRef.ofXml?_skeletonEach,
    Field.listOfXml_skeletonEach]

/-- A document is loaded from the skeleton of its root, and so is the fault of a wrong root. -/
theorem Document.ofXml_skeleton (root : Element) :
    Document.ofXml root.skeleton = Document.ofXml root := by
  have hload : Template.ofXml ∘ Xml.Element.skeleton = Template.ofXml :=
    funext Template.ofXml_skeleton
  have htemplates : (((Xml.skeletonEach root.children).filterMap Node.element?).filter
      (·.name.base = "template")).map Template.ofXml =
        ((root.children.filterMap Node.element?).filter (·.name.base = "template")).map
          Template.ofXml := by
    rw [Xml.elements_skeletonEach, List.filter_map, List.map_map, hload, List.filter_filter]
    refine congrArg _ (List.filter_congr fun e _ => ?_)
    have hbase : e.skeleton.name.base = e.name.base := rfl
    have hmem : "template" ∈ vocabulary := by decide
    by_cases he : e.name.base = "template"
    · simp [hbase, he, hmem]
    · simp [hbase, he]
  rw [Document.ofXml, Document.ofXml, Template.ofXml_skeleton]
  simp only [Xml.Element.skeleton, Name.plain, htemplates]
  rfl

/-- Elements that differ in noise only hold the same document, or are both no document. -/
theorem Document.ofXml_eq_of_sameButNoise {root root' : Element} (h : root.SameButNoise root') :
    Document.ofXml root = Document.ofXml root' := by
  rw [← Document.ofXml_skeleton root, h.skeleton_eq, Document.ofXml_skeleton]

end FastSchema
