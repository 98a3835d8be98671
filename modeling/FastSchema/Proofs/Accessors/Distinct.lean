import FastSchema.Proofs.Accessors.Paths
import Mathlib.Data.List.Pairwise

/-! # Distinct paths of accessors

Plain and distinct names of the fields do not keep accessors apart: the accessors of a dynamic
reference are named by its position, and the views of the elements of a sequence are named like
those of a group of that name with an ending. Nothing else can give two accessors one name. -/

namespace FastSchema

open Accessors (Accessor Definition documentTemplate)

/-! ## Conditions on names -/

namespace Field

def isSequence : Field → Bool
  | .composite _ (.sequence _) _ _ => true
  | _ => false

/-- The field is named like the accessors of a dynamic reference at position `index`. -/
def TakesSlot (index : Nat) (field : Field) : Prop :=
  field.isDynamic = false ∧ field.head.name = "nested_message" ++ toString index

/-- The elements of the first field, a sequence, have the views of the second. -/
def SharesViews (s g : Field) : Prop :=
  s.isSequence ∧ g.isSequence = false ∧ g.head.name = s.head.name ++ "_element"

instance (index : Nat) (field : Field) : Decidable (field.TakesSlot index) := by
  unfold TakesSlot
  infer_instance

instance (s g : Field) : Decidable (s.SharesViews g) := by
  unfold SharesViews
  infer_instance

end Field

namespace Container

def accessorPaths (c : Container) : List AccessorPath := Field.accessorPathsIn 0 c.fields

/-- No two accessors of the fields of the node, or inside two of them, have one path. A field may be
named like the accessors of a dynamic reference beside it, and the elements of a sequence may have
the views of a group. -/
structure Separate (c : Container) : Prop where
  slots : ∀ p ∈ c.fields.zipIdx, p.1.isDynamic → ∀ f ∈ c.fields, ¬ f.TakesSlot p.2
  elements : ∀ s ∈ c.fields, ∀ g ∈ c.fields, s.SharesViews g →
    ∀ p ∈ s.insidePaths, p ∉ g.insidePaths

instance (c : Container) : Decidable c.Separate :=
  decidable_of_iff
    ((∀ p ∈ c.fields.zipIdx, p.1.isDynamic → ∀ f ∈ c.fields, ¬ f.TakesSlot p.2) ∧
      ∀ s ∈ c.fields, ∀ g ∈ c.fields, s.SharesViews g → ∀ p ∈ s.insidePaths, p ∉ g.insidePaths)
    ⟨fun ⟨h, h'⟩ => ⟨h, h'⟩, fun h => ⟨h.slots, h.elements⟩⟩

end Container

/-! ## The paths of a node -/

namespace Field

theorem isDynamic_of_mem_insidePaths {field : Field} {p : AccessorPath}
    (h : p ∈ field.insidePaths) : field.isDynamic = false := by
  cases field with
  | leaf head content => cases h
  | composite head kind typeRef fields => rfl

/-- The views of what is inside a field have its name, with an ending for a sequence. -/
theorem viewName_eq (field : Field) :
    field.viewName =
      if field.isSequence then field.head.name ++ "_element" else field.head.name := by
  cases field with
  | leaf head content => rfl
  | composite head kind typeRef fields => cases kind <;> rfl

theorem viewName_eq_of_sharesViews {s g : Field} (h : s.SharesViews g) :
    s.viewName = g.viewName := by
  obtain ⟨hseq, hgroup, hname⟩ := h
  rw [s.viewName_eq, g.viewName_eq, if_pos hseq, hgroup, hname]
  rfl

/-- Fields with different names have views of one name only if one of them is a sequence. -/
theorem sharesViews_of_viewName_eq {f g : Field} (hname : f.head.name ≠ g.head.name)
    (hview : f.viewName = g.viewName) : f.SharesViews g ∨ g.SharesViews f := by
  rw [f.viewName_eq, g.viewName_eq] at hview
  cases hf : f.isSequence <;> cases hg : g.isSequence <;>
    simp only [hf, hg, if_true, if_false, Bool.false_eq_true, String.append_left_inj] at hview
  case false.false => exact absurd hview hname
  case false.true => exact .inr ⟨hg, hf, hview⟩
  case true.false => exact .inl ⟨hf, hg, hview.symm⟩
  case true.true => exact absurd hview hname

theorem accessorPathsIn_eq_flatMap (index : Nat) (fields : List Field) :
    accessorPathsIn index fields =
      (fields.zipIdx index).flatMap fun p => p.1.accessorPaths p.2 := by
  induction fields generalizing index with
  | nil => rfl
  | cons field fields ih => rw [accessorPathsIn, ih, List.zipIdx_cons, List.flatMap_cons]

end Field

namespace Container

variable {c : Container}

def insidePaths (c : Container) : List AccessorPath :=
  c.fields.flatMap fun f => f.insidePaths.map (AccessorPath.under f.viewName)

theorem accessorPaths_perm (c : Container) :
    c.accessorPaths.Perm
      ((c.fields.zipIdx.map fun p => ⟨[], p.1.accessorName p.2⟩) ++ c.insidePaths) := by
  have hinside : c.insidePaths = c.fields.zipIdx.flatMap fun p =>
      p.1.insidePaths.map (AccessorPath.under p.1.viewName) := by
    rw [insidePaths, ← List.zipIdx_map_fst 0 c.fields, List.flatMap_map, List.zipIdx_map_fst]
  rw [hinside, accessorPaths, Field.accessorPathsIn_eq_flatMap, List.map_eq_flatMap]
  simp only [Field.accessorPaths_eq]
  exact (List.flatMap_append_perm _ _ _).symm

/-- The accessors of the fields themselves have distinct names, unless one is named like those of a
dynamic reference. -/
theorem Named.nodup_accessorNames_iff (h : c.Named) :
    (c.fields.zipIdx.map fun p => p.1.accessorName p.2).Nodup ↔
      ∀ p ∈ c.fields.zipIdx, p.1.isDynamic → ∀ f ∈ c.fields, ¬ f.TakesSlot p.2 := by
  constructor
  · rintro hnodup p hp hdynamic f hf ⟨hstatic, hname⟩
    obtain ⟨j, hj⟩ := List.mem_iff_getElem?.mp hf
    have hmem : (f, j) ∈ c.fields.zipIdx := List.mk_mem_zipIdx_iff_getElem?.mpr hj
    have hsame : p.1.accessorName p.2 = f.accessorName j := by
      simp [Field.accessorName, hdynamic, hstatic, hname]
    have hfield := List.inj_on_of_nodup_map hnodup hp hmem hsame
    rw [hfield] at hdynamic
    simp [hstatic] at hdynamic
  · intro hslots
    rw [List.Nodup, List.pairwise_map]
    refine h.pairwise_apart.imp_of_mem ?_
    rintro p q hp hq ⟨hindex, hname⟩
    have hdigits : toString p.2 ≠ toString q.2 := fun heq =>
      hindex (slot_injective (congrArg ("templateref" ++ ·) heq))
    have hpslot := hslots p hp
    have hqslot := hslots q hq
    unfold Field.accessorName
    cases hpd : p.1.isDynamic <;> cases hqd : q.1.isDynamic
    case false.false => simpa using hname hpd hqd
    case false.true =>
      simpa using fun heq => hqslot hqd p.1 (List.fst_mem_of_mem_zipIdx hp) ⟨hpd, heq⟩
    case true.false =>
      simpa using fun heq => hpslot hpd q.1 (List.fst_mem_of_mem_zipIdx hq) ⟨hqd, heq.symm⟩
    case true.true => simpa using hdigits

/-- What is inside one field has no path in common with what is inside another, unless a group has
the views of the elements of a sequence. -/
theorem Named.nodup_insidePaths_iff (h : c.Named) :
    c.insidePaths.Nodup ↔
      (∀ s ∈ c.fields, ∀ g ∈ c.fields, s.SharesViews g →
        ∀ p ∈ s.insidePaths, p ∉ g.insidePaths) ∧
      ∀ f ∈ c.fields, f.insidePaths.Nodup := by
  rw [insidePaths, List.Nodup, List.pairwise_flatMap]
  constructor
  · rintro ⟨hfields, hpairwise⟩
    refine ⟨fun s hs g hg hshares p hp hp' => ?_, fun f hf => List.Nodup.of_map _ (hfields f hf)⟩
    have hsg : s ≠ g := by
      rintro rfl
      exact absurd hshares.1 (by simp [hshares.2.1])
    have : Std.Symm fun f g : Field => ∀ x ∈ f.insidePaths.map (AccessorPath.under f.viewName),
        ∀ y ∈ g.insidePaths.map (AccessorPath.under g.viewName), x ≠ y :=
      ⟨fun _ _ hxy y hy x hx => (hxy x hx y hy).symm⟩
    exact hpairwise.forall hs hg hsg _ (List.mem_map_of_mem hp) _ (List.mem_map_of_mem hp')
      (AccessorPath.under_inj.mpr ⟨Field.viewName_eq_of_sharesViews hshares, rfl⟩)
  · rintro ⟨helements, hfields⟩
    constructor
    · intro f hf
      exact List.Nodup.map (fun p q hpq => (AccessorPath.under_inj.mp hpq).2) (hfields f hf)
    · refine h.pairwise_fields.imp_of_mem fun {f g} hf hg hfg x hx y hy heq => ?_
      obtain ⟨p, hp, rfl⟩ := List.mem_map.mp hx
      obtain ⟨q, hq, rfl⟩ := List.mem_map.mp hy
      obtain ⟨hview, rfl⟩ := AccessorPath.under_inj.mp heq
      have hname := hfg (Field.isDynamic_of_mem_insidePaths hp)
        (Field.isDynamic_of_mem_insidePaths hq)
      rcases Field.sharesViews_of_viewName_eq hname hview with hshares | hshares
      · exact helements f hf g hg hshares p hp hq
      · exact helements g hg f hf hshares p hq hp

theorem Named.nodup_accessorPaths_iff (h : c.Named) :
    c.accessorPaths.Nodup ↔ c.Separate ∧ ∀ f ∈ c.fields, f.insidePaths.Nodup := by
  have hnames : (c.fields.zipIdx.map fun p =>
      (⟨[], p.1.accessorName p.2⟩ : AccessorPath)).Nodup ↔
        (c.fields.zipIdx.map fun p => p.1.accessorName p.2).Nodup := by
    rw [← List.nodup_map_iff (f := fun name => (⟨[], name⟩ : AccessorPath))
      (fun name name' heq => congrArg AccessorPath.name heq), List.map_map]
    rfl
  rw [c.accessorPaths_perm.nodup_iff, List.nodup_append, hnames, h.nodup_accessorNames_iff,
    h.nodup_insidePaths_iff]
  constructor
  · rintro ⟨hslots, ⟨helements, hfields⟩, _⟩
    exact ⟨⟨hslots, helements⟩, hfields⟩
  · rintro ⟨hseparate, hfields⟩
    refine ⟨hseparate.slots, ⟨hseparate.elements, hfields⟩, fun x hx y hy heq => ?_⟩
    -- An accessor of a field itself is not inside a view.
    obtain ⟨p, _, rfl⟩ := List.mem_map.mp hx
    obtain ⟨f, _, hy⟩ := List.mem_flatMap.mp hy
    obtain ⟨q, _, rfl⟩ := List.mem_map.mp hy
    exact absurd (congrArg AccessorPath.views heq) (by simp [AccessorPath.under])

/-- Nothing inside a composite that reduces to a reference has accessors. -/
theorem separate_of_soleReference {name : String} {kind : CompositeKind} {fields : List Field}
    (h : (soleReference? fields).isSome) : (Container.mk name kind fields).Separate := by
  obtain ⟨head, r, rfl⟩ := eq_singleton_of_soleReference h
  refine ⟨fun p hp hdynamic f hf hslot => ?_, fun s hs g _ _ p hp => ?_⟩
  · have hfirst := List.mem_singleton.mp (List.fst_mem_of_mem_zipIdx hp)
    rw [hfirst, ← List.mem_singleton.mp hf, hslot.1] at hdynamic
    cases hdynamic
  · obtain rfl := List.mem_singleton.mp hs
    cases hp

end Container

/-! ## Templates -/

theorem Field.nodup_insidePaths_composite_iff (head : FieldHead) (kind : CompositeKind)
    (typeRef : Option TypeRef) (fields : List Field)
    (h : (Container.mk head.name kind fields).Named) :
    (composite head kind typeRef fields).insidePaths.Nodup ↔
      (Container.mk head.name kind fields).Separate ∧
        ∀ field ∈ fields, field.insidePaths.Nodup := by
  rw [insidePaths]
  split
  · next hsole =>
      simp only [List.nodup_nil, true_iff]
      refine ⟨Container.separate_of_soleReference hsole, ?_⟩
      obtain ⟨refHead, r, rfl⟩ := eq_singleton_of_soleReference hsole
      simp [insidePaths]
  · exact h.nodup_accessorPaths_iff

/-- What is inside each of the fields has distinct paths, just if no two names in them meet. -/
theorem Field.forall_nodup_insidePaths_iff {fields : List Field}
    (h : ∀ c ∈ Field.containersIn fields, c.Named) :
    (∀ field ∈ fields, field.insidePaths.Nodup) ↔
      ∀ c ∈ Field.containersIn fields, c.Separate :=
  Field.forall_iff_forall_containers (fun _ _ => List.nodup_nil)
    Field.nodup_insidePaths_composite_iff h

theorem Template.nodup_accessorPaths_iff {t : Template} (h : ∀ c ∈ t.containers, c.Named) :
    (Field.accessorPathsIn 0 t.fields).Nodup ↔ ∀ c ∈ t.containers, c.Separate := by
  obtain ⟨hown, hinside⟩ := List.forall_mem_cons.mp h
  rw [Template.containers, List.forall_mem_cons, ← Field.forall_nodup_insidePaths_iff hinside]
  exact hown.nodup_accessorPaths_iff

/-! ## Plain paths -/

theorem colon_not_mem_of_isPlainIdentifier {s : String} (h : isPlainIdentifier s) :
    ':' ∉ s.toList := by
  refine colon_not_mem_of_isIdentifier ?_
  simp only [isPlainIdentifier, Bool.and_eq_true] at h
  exact h.1

theorem colon_not_mem_nestedMessage (index : Nat) :
    ':' ∉ ("nested_message" ++ toString index).toList := by
  rw [Nat.toString_eq_repr, Nat.repr_eq_ofList_toDigits, String.toList_append, List.mem_append]
  rintro (h | h)
  · exact absurd h (by decide)
  · rw [String.toList_ofList] at h
    have hdigit := Nat.isDigit_of_mem_toDigits (by omega) (by omega) h
    exact absurd hdigit (by decide)

namespace Field

variable {field : Field}

theorem colon_not_mem_accessorName
    (h : field.isDynamic = false → isPlainIdentifier field.head.name) (index : Nat) :
    ':' ∉ (field.accessorName index).toList := by
  unfold accessorName
  split
  case isTrue => exact colon_not_mem_nestedMessage index
  case isFalse hstatic => exact colon_not_mem_of_isPlainIdentifier (h (by simpa using hstatic))

theorem colon_not_mem_viewName (h : isPlainIdentifier field.head.name) :
    ':' ∉ field.viewName.toList := by
  have hname := colon_not_mem_of_isPlainIdentifier h
  rw [viewName_eq]
  split
  · simp [hname]
  · exact hname

end Field

mutual

theorem Field.plain_insidePaths {field : Field} (h : ∀ c ∈ field.containers, c.Named) :
    ∀ p ∈ field.insidePaths, p.Plain := by
  cases field with
  | leaf head content => simp [Field.insidePaths]
  | composite head kind typeRef fields =>
      rw [Field.containers, List.forall_mem_cons] at h
      rw [Field.insidePaths]
      split
      · simp
      · exact Field.plain_accessorPathsIn 0 h.1.fields h.2

theorem Field.plain_accessorPathsIn (index : Nat) {fields : List Field}
    (hown : ∀ f ∈ fields, f.isDynamic = false → isPlainIdentifier f.head.name)
    (h : ∀ c ∈ Field.containersIn fields, c.Named) :
    ∀ p ∈ Field.accessorPathsIn index fields, p.Plain := by
  cases fields with
  | nil => simp [Field.accessorPathsIn]
  | cons field fields =>
      rw [List.forall_mem_cons] at hown
      rw [Field.containersIn, List.forall_mem_append] at h
      rw [Field.accessorPathsIn, List.forall_mem_append, Field.accessorPaths_eq,
        List.forall_mem_append, List.forall_mem_singleton, List.forall_mem_map]
      have hinside := Field.plain_insidePaths h.1
      refine ⟨⟨⟨by simp, Field.colon_not_mem_accessorName hown.1 index⟩, fun p hp => ?_⟩,
        Field.plain_accessorPathsIn (index + 1) hown.2 h.2⟩
      have hstatic := Field.isDynamic_of_mem_insidePaths hp
      exact (hinside p hp).under (Field.colon_not_mem_viewName (hown.1 hstatic))

end

/-- The accessors of a template with plain and distinct names have distinct qualified names just if
no two names in the template meet. -/
theorem Template.nodup_qualifiedNames_iff {t : Template} (hread : ∀ f ∈ t.fields, f.IsRead)
    (h : ∀ c ∈ t.containers, c.Named) (unit : String) (known : Registry) (cx : Context) :
    (((documentTemplate unit known cx t).filterMap Definition.accessor?).map
      Accessor.qualifiedName).Nodup ↔ ∀ c ∈ t.containers, c.Separate := by
  obtain ⟨hown, hinside⟩ := List.forall_mem_cons.mp h
  have hemits := emits_fieldsDefinitions unit known (.push .empty t.name) (cx.inherit t.attrs) 0
    hread
  rw [documentTemplate, List.filterMap_append, Accessors.filterMap_templateDefinitions,
    List.nil_append, hemits.nodup_iff (colon_not_mem_of_isPlainIdentifier hown.own)
      (Field.plain_accessorPathsIn 0 hown.fields hinside),
    Template.nodup_accessorPaths_iff h]

end FastSchema
