import FastSchema.Proofs.Tables.Labels
import Mathlib.Data.List.Nodup
import Mathlib.Data.List.Perm.Basic

/-! # Labels of the statics of a node

When the statics of one node have distinct labels. Distinct names of the fields are not enough: a
field can have the name that another field, or the length of the sequence, has for a part. -/

namespace FastSchema

open Cpp (Joinable)

/-! ## Nodes of a document -/

/-- A node that has fields in a document. A template counts as a group. -/
structure Container where
  name : String
  kind : CompositeKind
  fields : List Field

mutual

def Field.containers : Field → List Container
  | .leaf _ _ => []
  | .composite head kind _ fields => ⟨head.name, kind, fields⟩ :: Field.containersIn fields

def Field.containersIn : List Field → List Container
  | [] => []
  | field :: fields => Field.containers field ++ Field.containersIn fields

end

/-- The template and all groups and sequences in it. -/
def Template.containers (t : Template) : List Container :=
  ⟨t.name, .group, t.fields⟩ :: Field.containersIn t.fields

namespace Field

/-- A reference that the message says the template of. -/
def isDynamic : Field → Bool
  | .leaf _ (.reference r) => r.name.isNone
  | _ => false

def isSplit : Field → Bool
  | .leaf _ (.decimal (.split _ _)) => true
  | _ => false

/-- The labels of the fields inside a composite under their own names, as they are outside. -/
def insideLabels : Field → List Label
  | .leaf _ _ => []
  | .composite head _ _ fields =>
    (fields.flatMap Field.ownLabels).map fun l => ⟨head.name ++ "__" ++ l.stem, l.role⟩

end Field

namespace Container

/-- The labels that have another stem than the name of the field that they belong to. -/
def otherLabels (c : Container) : List Label :=
  c.kind.labels c.name ++ c.fields.zipIdx.flatMap fun p => p.1.otherLabels p.2

def ownLabels (c : Container) : List Label := c.fields.flatMap Field.ownLabels

/-- The names of the statics inside the node. -/
def names (c : Container) : List String :=
  (c.kind.labels c.name).map Label.text ++ Field.namesIn 0 c.fields ++ ["subinstructions"]

end Container

/-! ## Conditions on names -/

/-- A C identifier without two underscores in a row. -/
def isPlainIdentifier (s : String) : Bool :=
  (match s.toList with
    | [] => false
    | first :: rest =>
      (first.isAlpha || first = '_') && rest.all fun c => c.isAlphanum || c = '_') &&
    !Cpp.hasSeparator s.toList

namespace Container

/-- The node and its fields, apart from dynamic references, are named by identifiers, and the names
of the fields are distinct. -/
structure Named (c : Container) : Prop where
  own : isPlainIdentifier c.name
  fields : ∀ f ∈ c.fields, f.isDynamic = false → isPlainIdentifier f.head.name
  distinct : ((c.fields.filter fun f => !f.isDynamic).map (·.head.name)).Nodup

/-- No two names run into one another. The name of a group or sequence does so if it is that of
another field, or of the sequence around it, without an underscore at the end. -/
structure Unambiguous (c : Container) : Prop where
  labels : ∀ l ∈ c.ownLabels, l ∉ c.otherLabels
  parts : ∀ f ∈ c.fields, ∀ l ∈ f.insideLabels, l ∉ c.otherLabels
  joins : ∀ f ∈ c.fields, ∀ g ∈ c.fields, g.head.name = f.head.name ++ "_" →
    ∀ s ∈ g.innerNames, "_" ++ s ∉ f.innerNames

instance (c : Container) : Decidable c.Named :=
  decidable_of_iff (isPlainIdentifier c.name ∧
    (∀ f ∈ c.fields, f.isDynamic = false → isPlainIdentifier f.head.name) ∧
    ((c.fields.filter fun f => !f.isDynamic).map (·.head.name)).Nodup)
    ⟨fun ⟨h, h', h''⟩ => ⟨h, h', h''⟩, fun h => ⟨h.own, h.fields, h.distinct⟩⟩

instance (c : Container) : Decidable c.Unambiguous :=
  decidable_of_iff ((∀ l ∈ c.ownLabels, l ∉ c.otherLabels) ∧
    (∀ f ∈ c.fields, ∀ l ∈ f.insideLabels, l ∉ c.otherLabels) ∧
    ∀ f ∈ c.fields, ∀ g ∈ c.fields, g.head.name = f.head.name ++ "_" →
      ∀ s ∈ g.innerNames, "_" ++ s ∉ f.innerNames)
    ⟨fun ⟨h, h', h''⟩ => ⟨h, h', h''⟩, fun h => ⟨h.labels, h.parts, h.joins⟩⟩

end Container

theorem eq_singleton_of_soleReference {fields : List Field} (h : (soleReference? fields).isSome) :
    ∃ head r, fields = [.leaf head (.reference r)] := by
  unfold soleReference? at h
  split at h
  case h_1 head r => exact ⟨head, r, rfl⟩
  case h_2 => cases h

mutual

/-- What holds of a composite just if a condition on the node does and it holds of all fields, is
known of a field from the conditions on all nodes in it. -/
theorem Field.iff_forall_containers {p : Field → Prop} {ok : Container → Prop}
    (hleaf : ∀ head content, p (.leaf head content))
    (hcomposite : ∀ head kind typeRef fields, (Container.mk head.name kind fields).Named →
      (p (.composite head kind typeRef fields) ↔
        ok ⟨head.name, kind, fields⟩ ∧ ∀ field ∈ fields, p field))
    {field : Field} (h : ∀ c ∈ field.containers, c.Named) :
    p field ↔ ∀ c ∈ field.containers, ok c := by
  cases field with
  | leaf head content => simp [Field.containers, hleaf]
  | composite head kind typeRef fields =>
      rw [Field.containers, List.forall_mem_cons] at h
      rw [Field.containers, List.forall_mem_cons, hcomposite head kind typeRef fields h.1,
        Field.forall_iff_forall_containers hleaf hcomposite h.2]

theorem Field.forall_iff_forall_containers {p : Field → Prop} {ok : Container → Prop}
    (hleaf : ∀ head content, p (.leaf head content))
    (hcomposite : ∀ head kind typeRef fields, (Container.mk head.name kind fields).Named →
      (p (.composite head kind typeRef fields) ↔
        ok ⟨head.name, kind, fields⟩ ∧ ∀ field ∈ fields, p field))
    {fields : List Field} (h : ∀ c ∈ Field.containersIn fields, c.Named) :
    (∀ field ∈ fields, p field) ↔ ∀ c ∈ Field.containersIn fields, ok c := by
  cases fields with
  | nil => simp [Field.containersIn]
  | cons field fields =>
      rw [Field.containersIn, List.forall_mem_append] at h
      rw [Field.containersIn, List.forall_mem_append, List.forall_mem_cons,
        Field.iff_forall_containers hleaf hcomposite h.1,
        Field.forall_iff_forall_containers hleaf hcomposite h.2]

end

/-! ## Labels -/

def Role.name : Role → String
  | .instruction => "instruction"
  | .context => "opContext"

theorem Label.text_eq (l : Label) : l.text = l.stem ++ "_" ++ l.role.name := by
  rw [Label.text, String.append_assoc]
  cases l.role <;> rfl

theorem Role.underscore_not_mem_name (r : Role) : '_' ∉ r.name.toList := by
  cases r <;> decide

theorem Label.text_injective : Function.Injective Label.text := by
  intro l m h
  rw [l.text_eq, m.text_eq] at h
  obtain ⟨hstem, hname⟩ :=
    Cpp.eq_of_suffix_eq l.role.underscore_not_mem_name m.role.underscore_not_mem_name h
  obtain ⟨stem, role⟩ := l
  obtain ⟨stem', role'⟩ := m
  cases role <;> cases role' <;> simp_all [Role.name]

theorem eq_of_mem_contextLabels {stem : String} {operator : Option Operator} {l : Label}
    (h : l ∈ contextLabels stem operator) : l = ⟨stem, .context⟩ := by
  unfold contextLabels at h
  split at h
  · exact List.mem_singleton.mp h
  · cases h

theorem nodup_contextLabels (stem : String) (operator : Option Operator) :
    (contextLabels stem operator).Nodup := by
  unfold contextLabels
  split <;> simp

/-- A context and an instruction may have one stem. -/
theorem nodup_contextLabels_append (stem : String) (operator : Option Operator) :
    (contextLabels stem operator ++ [(⟨stem, .instruction⟩ : Label)]).Nodup := by
  refine List.nodup_append.mpr ⟨nodup_contextLabels _ _, List.nodup_singleton _, ?_⟩
  intro l hl m hm heq
  rw [eq_of_mem_contextLabels hl, List.mem_singleton.mp hm] at heq
  cases heq

theorem Field.nodup_ownLabels (f : Field) : f.ownLabels.Nodup := by
  cases f with
  | leaf head content =>
      cases content with
      | reference r => exact List.nodup_nil
      | _ => exact nodup_contextLabels_append _ _
  | composite head kind typeRef fields => exact List.nodup_singleton _

theorem Field.of_mem_ownLabels {f : Field} {l : Label} (h : l ∈ f.ownLabels) :
    f.isDynamic = false ∧ l.stem = f.head.name := by
  have hvalue : ∀ {name : String} {operator : Option Operator},
      l ∈ contextLabels name operator ++ [⟨name, .instruction⟩] → l.stem = name := by
    intro name operator hl
    rcases List.mem_append.mp hl with hl | hl
    · rw [eq_of_mem_contextLabels hl]
    · rw [List.mem_singleton.mp hl]
  cases f with
  | leaf head content =>
      cases content with
      | reference r => cases h
      | _ => exact ⟨rfl, hvalue h⟩
  | composite head kind typeRef fields =>
      rw [List.mem_singleton.mp h]
      exact ⟨rfl, rfl⟩

def decimalParts : List String := ["mantissa", "exponent"]

/-- What the names of parts end with. -/
def partNames : List String := "length" :: decimalParts

theorem underscore_not_mem_partName {part : String} (h : part ∈ partNames) :
    '_' ∉ part.toList := by
  simp only [partNames, decimalParts, List.mem_cons, List.not_mem_nil, or_false] at h
  rcases h with rfl | rfl | rfl <;> decide

/-- The other labels of a field: those of the parts of a split decimal, and that of a reference. -/
theorem Field.of_mem_otherLabels {f : Field} {index : Nat} {l : Label}
    (h : l ∈ f.otherLabels index) :
    (f.isSplit ∧ ∃ part ∈ decimalParts, l.stem = f.head.name ++ "_" ++ part) ∨
      l.stem = "templateref" ++ toString index := by
  have hsplit : ∀ {name : String} {mantissa exponent : Option Operator},
      l ∈ contextLabels (name ++ "_mantissa") mantissa ++ [⟨name ++ "_mantissa", .instruction⟩] ++
        contextLabels (name ++ "_exponent") exponent →
      ∃ part ∈ decimalParts, l.stem = name ++ "_" ++ part := by
    intro name mantissa exponent hl
    simp only [String.append_assoc]
    rcases List.mem_append.mp hl with hl | hl
    · rcases List.mem_append.mp hl with hl | hl
      · rw [eq_of_mem_contextLabels hl]
        exact ⟨"mantissa", by decide, rfl⟩
      · rw [List.mem_singleton.mp hl]
        exact ⟨"mantissa", by decide, rfl⟩
    · rw [eq_of_mem_contextLabels hl]
      exact ⟨"exponent", by decide, rfl⟩
  cases f with
  | leaf head content =>
      cases content with
      | decimal shape =>
          cases shape with
          | whole operator => cases h
          | split mantissa exponent => exact .inl ⟨rfl, hsplit h⟩
      | reference r =>
          rw [List.mem_singleton.mp h]
          exact .inr rfl
      | _ => cases h
  | composite head kind typeRef fields => cases h

theorem Field.isDynamic_of_isSplit {f : Field} (h : f.isSplit) : f.isDynamic = false := by
  cases f with
  | leaf head content =>
      cases content with
      | reference r => cases h
      | _ => rfl
  | composite head kind typeRef fields => rfl

theorem Field.nodup_otherLabels (f : Field) (index : Nat) : (f.otherLabels index).Nodup := by
  cases f with
  | leaf head content =>
      cases content with
      | decimal shape =>
          cases shape with
          | whole operator => exact List.nodup_nil
          | split mantissa exponent =>
              refine List.nodup_append.mpr ⟨nodup_contextLabels_append _ _,
                nodup_contextLabels _ _, fun l hl m hm heq => ?_⟩
              have hstem : l.stem = head.name ++ "_mantissa" := by
                rcases List.mem_append.mp hl with hl | hl
                · rw [eq_of_mem_contextLabels hl]
                · rw [List.mem_singleton.mp hl]
              rw [heq, eq_of_mem_contextLabels hm] at hstem
              simp at hstem
      | reference r => exact List.nodup_singleton _
      | _ => exact List.nodup_nil
  | composite head kind typeRef fields => exact List.nodup_nil

theorem CompositeKind.nodup_labels (kind : CompositeKind) (name : String) :
    (kind.labels name).Nodup := by
  cases kind with
  | group => exact List.nodup_nil
  | sequence length => exact nodup_contextLabels_append _ _

theorem CompositeKind.stem_of_mem_labels {kind : CompositeKind} {name : String} {l : Label}
    (h : l ∈ kind.labels name) : l.stem = name ++ "_" ++ "length" := by
  cases kind with
  | group => cases h
  | sequence length =>
      simp only [String.append_assoc]
      rcases List.mem_append.mp h with h | h
      · rw [eq_of_mem_contextLabels h]
        rfl
      · rw [List.mem_singleton.mp h]
        rfl

/-- The stem of a reference has no underscore. -/
theorem underscore_not_mem_slot (index : Nat) :
    '_' ∉ ("templateref" ++ toString index).toList := by
  rw [Nat.toString_eq_repr, Nat.repr_eq_ofList_toDigits, String.toList_append]
  intro h
  rcases List.mem_append.mp h with h | h
  · exact absurd h (by decide)
  · simp at h

theorem suffix_ne_slot (stem suffix : String) (index : Nat) :
    stem ++ "_" ++ suffix ≠ "templateref" ++ toString index := by
  intro h
  have hslot := underscore_not_mem_slot index
  rw [← h] at hslot
  simp at hslot

theorem slot_injective {i j : Nat}
    (h : "templateref" ++ toString i = "templateref" ++ toString j) : i = j := by
  have hdigits : Nat.toDigits 10 i = Nat.toDigits 10 j := by
    rw [String.append_right_inj, Nat.toString_eq_repr, Nat.toString_eq_repr,
      Nat.repr_eq_ofList_toDigits, Nat.repr_eq_ofList_toDigits] at h
    simpa using congrArg String.toList h
  have hvalue := congrArg (fun ds => Nat.ofDigitChars 10 ds 0) hdigits
  simpa only [Nat.ofDigitChars_toDigits (b := 10) (by omega) (by omega)] using hvalue

/-! ## The labels of a node -/

namespace Container

/-- Different positions, and different names unless a message gives the template. -/
def Apart (p q : Field × Nat) : Prop :=
  p.2 ≠ q.2 ∧ (p.1.isDynamic = false → q.1.isDynamic = false → p.1.head.name ≠ q.1.head.name)

variable {c : Container}

theorem Named.pairwise_fields (h : c.Named) : c.fields.Pairwise fun f g =>
    f.isDynamic = false → g.isDynamic = false → f.head.name ≠ g.head.name := by
  have hnames := h.distinct
  rw [List.Nodup, List.pairwise_map, List.pairwise_filter] at hnames
  exact hnames.imp fun hfg hf hg => hfg (by simp [hf]) (by simp [hg])

theorem Named.pairwise_apart (h : c.Named) : c.fields.zipIdx.Pairwise Apart := by
  rw [List.pairwise_iff_getElem]
  intro i j hi hj hij
  rw [List.getElem_zipIdx, List.getElem_zipIdx]
  rw [List.length_zipIdx] at hi hj
  exact ⟨by simp only; omega, List.pairwise_iff_getElem.mp h.pairwise_fields i j hi hj hij⟩

theorem Named.nodup_ownLabels (h : c.Named) : c.ownLabels.Nodup := by
  rw [ownLabels, List.Nodup, List.pairwise_flatMap]
  refine ⟨fun f _ => f.nodup_ownLabels, h.pairwise_fields.imp fun hfg l hl m hm heq => ?_⟩
  obtain ⟨hf, hlstem⟩ := Field.of_mem_ownLabels hl
  obtain ⟨hg, hmstem⟩ := Field.of_mem_ownLabels hm
  exact hfg hf hg (by rw [← hlstem, heq, hmstem])

theorem Named.nodup_otherLabels (h : c.Named) : c.otherLabels.Nodup := by
  refine List.nodup_append.mpr ⟨c.kind.nodup_labels c.name, List.pairwise_flatMap.mpr
    ⟨fun p _ => p.1.nodup_otherLabels p.2, h.pairwise_apart.imp ?_⟩, ?_⟩
  · rintro p q ⟨hindex, hname⟩ l hl _ hm rfl
    rcases Field.of_mem_otherLabels hl with ⟨hp, part, hpart, hstem⟩ | hstem <;>
      rcases Field.of_mem_otherLabels hm with ⟨hq, part', hpart', hstem'⟩ | hstem'
    · have heq := Cpp.eq_of_suffix_eq
        (underscore_not_mem_partName (List.mem_cons_of_mem _ hpart))
        (underscore_not_mem_partName (List.mem_cons_of_mem _ hpart')) (hstem.symm.trans hstem')
      exact hname (Field.isDynamic_of_isSplit hp) (Field.isDynamic_of_isSplit hq) heq.1
    · exact suffix_ne_slot _ _ _ (hstem.symm.trans hstem')
    · exact suffix_ne_slot _ _ _ (hstem'.symm.trans hstem)
    · exact hindex (slot_injective (hstem.symm.trans hstem'))
  · rintro l hl _ hm rfl
    obtain ⟨p, _, hm⟩ := List.mem_flatMap.mp hm
    have hstem := CompositeKind.stem_of_mem_labels hl
    rcases Field.of_mem_otherLabels hm with ⟨_, part, hpart, hstem'⟩ | hstem'
    · have heq := Cpp.eq_of_suffix_eq (underscore_not_mem_partName List.mem_cons_self)
        (underscore_not_mem_partName (List.mem_cons_of_mem _ hpart)) (hstem.symm.trans hstem')
      rw [← heq.2] at hpart
      exact absurd hpart (by decide)
    · exact suffix_ne_slot _ _ _ (hstem.symm.trans hstem')

def labels (c : Container) : List Label :=
  c.kind.labels c.name ++ c.fields.zipIdx.flatMap fun p => p.1.labels p.2

theorem labels_perm (c : Container) : c.labels.Perm (c.otherLabels ++ c.ownLabels) := by
  have hown : c.ownLabels = c.fields.zipIdx.flatMap fun p => p.1.ownLabels := by
    rw [ownLabels, ← List.zipIdx_map_fst 0 c.fields, List.flatMap_map, List.zipIdx_map_fst]
  rw [hown, otherLabels, List.append_assoc]
  exact (List.flatMap_append_perm _ _ _).symm.append_left _

theorem Named.nodup_labels_iff (h : c.Named) :
    c.labels.Nodup ↔ ∀ l ∈ c.ownLabels, l ∉ c.otherLabels := by
  rw [c.labels_perm.nodup_iff, List.nodup_append]
  constructor
  · rintro ⟨_, _, hne⟩ l hown hother
    exact hne l hother l hown rfl
  · intro hne
    refine ⟨h.nodup_otherLabels, h.nodup_ownLabels, ?_⟩
    rintro l hother _ hown rfl
    exact hne l hown hother

end Container

end FastSchema
