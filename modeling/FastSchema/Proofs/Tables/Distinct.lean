import FastSchema.Proofs.Tables.Naming
import Mathlib.Data.List.Pairwise

/-! # Distinct names of statics

The statics of a function have distinct names if the labels in each node are distinct and no
underscore at the end of a name is taken for part of the two that follow it. -/

namespace FastSchema

open Cpp (Joinable SymbolPath)

/-! ## Names inside composites -/

theorem Role.joinable_name (r : Role) : Joinable ("_" ++ r.name) := by
  cases r <;> decide

theorem Label.underscore_mem_text (l : Label) : '_' ∈ l.text.toList := by
  simp [l.text_eq]

theorem Field.underscore_mem_of_mem_namesIn {index : Nat} {fields : List Field} {s : String}
    (h : s ∈ Field.namesIn index fields) : '_' ∈ s.toList := by
  induction fields generalizing index with
  | nil => cases h
  | cons field fields ih =>
      rw [Field.namesIn, List.mem_append, List.mem_append, List.mem_map, List.mem_map] at h
      rcases h with (⟨r, _, rfl⟩ | ⟨l, _, rfl⟩) | h
      · simp
      · exact l.underscore_mem_text
      · exact ih h

/-- No name inside a field is what a label has after its stem. -/
theorem Field.ne_roleName_of_mem_innerNames {field : Field} {s : String}
    (h : s ∈ field.innerNames) (r : Role) : s ≠ r.name := by
  have hlabel : ∀ {labels : List Label}, s ∈ labels.map Label.text → '_' ∈ s.toList := by
    intro labels hs
    obtain ⟨l, _, rfl⟩ := List.mem_map.mp hs
    exact l.underscore_mem_text
  have hname : '_' ∈ s.toList → s ≠ r.name := fun hs heq =>
    r.underscore_not_mem_name (heq ▸ hs)
  cases field with
  | leaf head content => cases h
  | composite head kind typeRef fields =>
      rw [innerNames, List.mem_append] at h
      rcases h with h | h
      · exact hname (hlabel h)
      · split at h
        · cases h
        · rcases List.mem_append.mp h with h | h
          · exact hname (underscore_mem_of_mem_namesIn h)
          · rw [List.mem_singleton.mp h]
            cases r <;> decide

theorem Field.isDynamic_of_mem_innerNames {field : Field} {s : String}
    (h : s ∈ field.innerNames) : field.isDynamic = false := by
  cases field with
  | leaf head content => cases h
  | composite head kind typeRef fields => rfl

theorem Field.namesIn_eq_flatMap (index : Nat) (fields : List Field) :
    Field.namesIn index fields = (fields.zipIdx index).flatMap fun p => p.1.names p.2 := by
  induction fields generalizing index with
  | nil => rfl
  | cons field fields ih => rw [Field.namesIn, ih, List.zipIdx_cons, List.flatMap_cons]; rfl

/-! ## Parts -/

theorem joinable_partName {part : String} (h : part ∈ partNames) (r : Role) :
    Joinable ("_" ++ (⟨part, r⟩ : Label).text) := by
  simp only [partNames, decimalParts, List.mem_cons, List.not_mem_nil, or_false] at h
  rcases h with rfl | rfl | rfl <;> cases r <;> decide

theorem partName_ne_slot {part : String} (h : part ∈ partNames) (index : Nat) :
    part ≠ "templateref" ++ toString index := by
  intro heq
  have hfirst : part.toList.head? = some 't' := by
    rw [heq]
    simp
  simp only [partNames, decimalParts, List.mem_cons, List.not_mem_nil, or_false] at h
  rcases h with rfl | rfl | rfl <;> exact absurd hfirst (by decide)

theorem Field.stem_notin_partNames {f : Field} {index : Nat} {l : Label}
    (h : l ∈ f.otherLabels index) : l.stem ∉ partNames := by
  intro hstem
  rcases Field.of_mem_otherLabels h with ⟨_, part, _, heq⟩ | heq
  · have hunderscore := underscore_not_mem_partName hstem
    rw [heq] at hunderscore
    simp at hunderscore
  · exact partName_ne_slot hstem index heq

/-- Among the names in a node, that of a part is only the one of a field that is named so. -/
theorem Field.mem_ownLabels_of_mem_namesIn {fields : List Field} {index : Nat} {part : String}
    {r : Role} (hpart : part ∈ partNames)
    (h : (⟨part, r⟩ : Label).text ∈ Field.namesIn index fields) :
    ⟨part, r⟩ ∈ fields.flatMap Field.ownLabels := by
  rw [Field.namesIn_eq_flatMap] at h
  obtain ⟨p, hp, h⟩ := List.mem_flatMap.mp h
  rcases List.mem_append.mp h with h | h
  · obtain ⟨s, _, heq⟩ := List.mem_map.mp h
    have hname := underscore_not_mem_partName hpart
    rw [Label.text_eq] at heq
    rw [(Cpp.eq_of_separator_eq_suffix (Cpp.joinable_of_not_mem hname) r.joinable_name heq).1]
      at hname
    simp at hname
  · obtain ⟨l, hl, heq⟩ := List.mem_map.mp h
    obtain rfl := Label.text_injective heq
    rcases List.mem_append.mp hl with hl | hl
    · exact absurd hpart (Field.stem_notin_partNames hl)
    · exact List.mem_flatMap.mpr ⟨p.1, List.fst_mem_of_mem_zipIdx hp, hl⟩

theorem Field.mem_insideLabels_of_mem_innerNames {field : Field} {part : String} {r : Role}
    (hpart : part ∈ partNames) (h : (⟨part, r⟩ : Label).text ∈ field.innerNames) :
    ⟨field.head.name ++ "__" ++ part, r⟩ ∈ field.insideLabels := by
  cases field with
  | leaf head content => cases h
  | composite head kind typeRef fields =>
      rw [innerNames, List.mem_append] at h
      rcases h with h | h
      · obtain ⟨l, hl, heq⟩ := List.mem_map.mp h
        obtain rfl := Label.text_injective heq
        have hname := underscore_not_mem_partName hpart
        rw [show part = _ from CompositeKind.stem_of_mem_labels hl] at hname
        simp at hname
      · split at h
        · cases h
        · rcases List.mem_append.mp h with h | h
          · exact List.mem_map.mpr ⟨_, mem_ownLabels_of_mem_namesIn hpart h, rfl⟩
          · have hunderscore := Label.underscore_mem_text ⟨part, r⟩
            rw [List.mem_singleton.mp h] at hunderscore
            exact absurd hunderscore (by decide)

theorem Field.text_mem_namesIn {fields : List Field} {l : Label} (index : Nat)
    (h : l ∈ fields.flatMap Field.ownLabels) : l.text ∈ Field.namesIn index fields := by
  induction fields generalizing index with
  | nil => cases h
  | cons field fields ih =>
      rw [Field.namesIn, List.mem_append, List.mem_append]
      rcases List.mem_append.mp (List.flatMap_cons ▸ h) with h | h
      · exact .inl (.inr (List.mem_map_of_mem (List.mem_append_right _ h)))
      · exact .inr (ih (index + 1) h)

theorem ownLabels_eq_nil_of_soleReference {fields : List Field}
    (h : (soleReference? fields).isSome) : fields.flatMap Field.ownLabels = [] := by
  obtain ⟨head, r, rfl⟩ := eq_singleton_of_soleReference h
  rfl

/-- The labels inside a field are names inside it. -/
theorem Field.exists_of_mem_insideLabels {field : Field} {l : Label}
    (h : l ∈ field.insideLabels) :
    ∃ s ∈ field.innerNames, l.text = field.head.name ++ "__" ++ s := by
  cases field with
  | leaf head content => cases h
  | composite head kind typeRef fields =>
      obtain ⟨m, hm, rfl⟩ := List.mem_map.mp h
      refine ⟨m.text, ?_, by simp only [Label.text, Field.head, String.append_assoc]⟩
      rw [innerNames, List.mem_append]
      right
      split
      · next hsole =>
          rw [ownLabels_eq_nil_of_soleReference hsole] at hm
          cases hm
      · exact List.mem_append_left _ (text_mem_namesIn 0 hm)

/-! ## The names of a node -/

theorem joinable_of_isPlainIdentifier {s : String} (h : isPlainIdentifier s) : Joinable s := by
  simp only [isPlainIdentifier, Bool.and_eq_true, Bool.not_eq_true'] at h
  exact h.2

namespace Container

variable {c : Container}

/-- The names inside the composites of a node. -/
def innerNames (c : Container) : List String :=
  c.fields.flatMap fun f => f.innerNames.map (f.head.name ++ "__" ++ ·)

theorem names_perm (c : Container) :
    c.names.Perm (c.innerNames ++ c.labels.map Label.text ++ ["subinstructions"]) := by
  have hinner : c.innerNames =
      c.fields.zipIdx.flatMap fun p => p.1.innerNames.map (p.1.head.name ++ "__" ++ ·) := by
    rw [innerNames, ← List.zipIdx_map_fst 0 c.fields, List.flatMap_map, List.zipIdx_map_fst]
  rw [names, hinner, labels, List.map_append, Field.namesIn_eq_flatMap, List.map_flatMap]
  exact (((List.flatMap_append_perm _ _ _).symm.append_left _).trans
    (List.perm_append_comm_assoc _ _ _)).append_right _

/-- A label under another name is that of a part, which is put after a name, or that of a
reference. -/
theorem Named.of_mem_otherLabels (h : c.Named) {l : Label} (hl : l ∈ c.otherLabels) :
    (∃ x part, Joinable x ∧ part ∈ partNames ∧ l.stem = x ++ "_" ++ part) ∨
      ∃ index : Nat, l.stem = "templateref" ++ toString index := by
  rcases List.mem_append.mp hl with hl | hl
  · exact .inl ⟨c.name, "length", joinable_of_isPlainIdentifier h.own, List.mem_cons_self,
      CompositeKind.stem_of_mem_labels hl⟩
  · obtain ⟨p, hp, hl⟩ := List.mem_flatMap.mp hl
    rcases Field.of_mem_otherLabels hl with ⟨hsplit, part, hpart, hstem⟩ | hstem
    · exact .inl ⟨p.1.head.name, part, joinable_of_isPlainIdentifier
        (h.fields p.1 (List.fst_mem_of_mem_zipIdx hp) (Field.isDynamic_of_isSplit hsplit)),
        List.mem_cons_of_mem _ hpart, hstem⟩
    · exact .inr ⟨p.2, hstem⟩

theorem Named.text_ne_inner (h : c.Named) (hu : c.Unambiguous) {l : Label} (hl : l ∈ c.labels)
    {f : Field} (hf : f ∈ c.fields) {s : String} (hs : s ∈ f.innerNames) :
    l.text ≠ f.head.name ++ "__" ++ s := by
  intro heq
  -- What stands after a stem that is a name is not the name of a static.
  have hname : ¬ Joinable l.stem := by
    intro hstem
    rw [l.text_eq] at heq
    exact Field.ne_roleName_of_mem_innerNames hs _
      (Cpp.eq_of_separator_eq_suffix hstem l.role.joinable_name heq.symm).2
  rcases List.mem_append.mp (c.labels_perm.mem_iff.mp hl) with hl | hl
  · rcases h.of_mem_otherLabels hl with ⟨x, part, hx, hpart, hstem⟩ | ⟨index, hstem⟩
    · have htext : l.text = x ++ "_" ++ (⟨part, l.role⟩ : Label).text := by
        simp only [Label.text, hstem, String.append_assoc]
      obtain ⟨rfl, rfl⟩ := Cpp.eq_of_separator_eq_suffix hx (joinable_partName hpart l.role)
        (heq.symm.trans htext)
      have hinside := Field.mem_insideLabels_of_mem_innerNames hpart hs
      have hsame : (⟨f.head.name ++ "__" ++ part, l.role⟩ : Label) = l := by
        refine Label.text_injective ?_
        rw [heq]
        simp only [Label.text, String.append_assoc]
      exact hu.parts f hf l (hsame ▸ hinside) hl
    · rw [hstem] at hname
      exact hname (Cpp.joinable_of_not_mem (underscore_not_mem_slot index))
  · obtain ⟨g, hg, hl⟩ := List.mem_flatMap.mp hl
    obtain ⟨hdynamic, hstem⟩ := Field.of_mem_ownLabels hl
    rw [hstem] at hname
    exact hname (joinable_of_isPlainIdentifier (h.fields g hg hdynamic))

theorem Unambiguous.inner_ne_inner (hu : c.Unambiguous) (h : c.Named) {f g : Field}
    (hf : f ∈ c.fields) (hg : g ∈ c.fields) (hne : f.head.name ≠ g.head.name) {s r : String}
    (hs : s ∈ f.innerNames) (hr : r ∈ g.innerNames) :
    f.head.name ++ "__" ++ s ≠ g.head.name ++ "__" ++ r := by
  intro heq
  have hjoinable : ∀ e ∈ c.fields, ∀ q ∈ e.innerNames, Joinable e.head.name := fun e he q hq =>
    joinable_of_isPlainIdentifier (h.fields e he (Field.isDynamic_of_mem_innerNames hq))
  rcases Cpp.eq_or_of_separator_eq (hjoinable f hf s hs) (hjoinable g hg r hr) heq with
    ⟨hname, _⟩ | ⟨hname, rfl⟩ | ⟨hname, rfl⟩
  · exact hne hname
  · exact hu.joins f hf g hg hname r hr hs
  · exact hu.joins g hg f hf hname s hs hr

theorem Unambiguous.nodup_innerNames (hu : c.Unambiguous) (h : c.Named)
    (hfields : ∀ f ∈ c.fields, f.innerNames.Nodup) : c.innerNames.Nodup := by
  refine List.pairwise_flatMap.mpr ⟨fun f hf => ?_, h.pairwise_fields.imp_of_mem ?_⟩
  · exact (hfields f hf).map fun s r hsr => (String.append_right_inj _).mp hsr
  · intro f g hf hg hfg x hx y hy
    obtain ⟨s, hs, rfl⟩ := List.mem_map.mp hx
    obtain ⟨r, hr, rfl⟩ := List.mem_map.mp hy
    exact hu.inner_ne_inner h hf hg (hfg (Field.isDynamic_of_mem_innerNames hs)
      (Field.isDynamic_of_mem_innerNames hr)) hs hr

/-- The array of a node has the only name in it without an underscore. -/
theorem underscore_mem_of_mem {x : String} (h : x ∈ c.innerNames ++ c.labels.map Label.text) :
    '_' ∈ x.toList := by
  rcases List.mem_append.mp h with h | h
  · obtain ⟨f, _, h⟩ := List.mem_flatMap.mp h
    obtain ⟨s, _, rfl⟩ := List.mem_map.mp h
    simp
  · obtain ⟨l, _, rfl⟩ := List.mem_map.mp h
    exact l.underscore_mem_text

/-- If the statics inside a node have distinct names, then no two names run into one another. -/
theorem unambiguous_of_nodup (hinner : c.innerNames.Nodup) (hlabels : c.labels.Nodup)
    (hne : ∀ x ∈ c.innerNames, ∀ y ∈ c.labels.map Label.text, x ≠ y) (h : c.Named) :
    c.Unambiguous where
  labels := h.nodup_labels_iff.mp hlabels
  parts f hf l hl hother := by
    obtain ⟨s, hs, htext⟩ := Field.exists_of_mem_insideLabels hl
    refine hne l.text ?_ l.text ?_ rfl
    · exact List.mem_flatMap.mpr ⟨f, hf, List.mem_map.mpr ⟨s, hs, htext.symm⟩⟩
    · exact List.mem_map_of_mem (c.labels_perm.mem_iff.mpr (List.mem_append_left _ hother))
  joins f hf g hg hname s hs hjoin := by
    have hpairwise := (List.pairwise_flatMap.mp hinner).2
    have hfg : f ≠ g := by
      rintro rfl
      simpa using congrArg String.length hname
    have : Std.Symm fun f g : Field => ∀ x ∈ f.innerNames.map (f.head.name ++ "__" ++ ·),
        ∀ y ∈ g.innerNames.map (g.head.name ++ "__" ++ ·), x ≠ y :=
      ⟨fun _ _ hxy y hy x hx => (hxy x hx y hy).symm⟩
    refine hpairwise.forall hf hg hfg _ (List.mem_map_of_mem hjoin) _ (List.mem_map_of_mem hs) ?_
    simp only [hname, String.append_assoc]
    rfl

/-- The statics inside a node have distinct names if and only if no two names run into one another
and those inside each of its composites have. -/
theorem Named.nodup_names_iff (h : c.Named) :
    c.names.Nodup ↔ c.Unambiguous ∧ ∀ f ∈ c.fields, f.innerNames.Nodup := by
  rw [c.names_perm.nodup_iff, List.nodup_append, List.nodup_append]
  constructor
  · rintro ⟨⟨hinner, hlabels, hne⟩, _⟩
    refine ⟨unambiguous_of_nodup hinner hlabels.of_map hne h, fun f hf => ?_⟩
    exact List.Nodup.of_map _ ((List.pairwise_flatMap.mp hinner).1 f hf)
  · rintro ⟨hu, hfields⟩
    refine ⟨⟨hu.nodup_innerNames h hfields,
      (h.nodup_labels_iff.mpr hu.labels).map Label.text_injective, ?_⟩, List.nodup_singleton _, ?_⟩
    · intro x hx y hy heq
      obtain ⟨f, hf, hx⟩ := List.mem_flatMap.mp hx
      obtain ⟨s, hs, rfl⟩ := List.mem_map.mp hx
      obtain ⟨l, hl, rfl⟩ := List.mem_map.mp hy
      exact h.text_ne_inner hu hl hf hs heq.symm
    · intro x hx y hy heq
      have hunderscore := underscore_mem_of_mem hx
      rw [heq, List.mem_singleton.mp hy] at hunderscore
      exact absurd hunderscore (by decide)

theorem unambiguous_of_soleReference {name : String} {kind : CompositeKind} {fields : List Field}
    (h : (soleReference? fields).isSome) : (Container.mk name kind fields).Unambiguous := by
  obtain ⟨head, r, rfl⟩ := eq_singleton_of_soleReference h
  constructor <;> simp [ownLabels, Field.ownLabels, Field.insideLabels, Field.innerNames]

end Container

/-! ## Templates -/

theorem Field.nodup_innerNames_composite_iff (head : FieldHead) (kind : CompositeKind)
    (typeRef : Option TypeRef) (fields : List Field)
    (h : (Container.mk head.name kind fields).Named) :
    (composite head kind typeRef fields).innerNames.Nodup ↔
      (Container.mk head.name kind fields).Unambiguous ∧
        ∀ field ∈ fields, field.innerNames.Nodup := by
  rw [innerNames]
  split
  · next hsole =>
      -- Nothing inside a composite that reduces to a reference is declared.
      simp only [List.append_nil, (kind.nodup_labels head.name).map Label.text_injective, true_iff]
      refine ⟨Container.unambiguous_of_soleReference hsole, ?_⟩
      obtain ⟨refHead, r, rfl⟩ := eq_singleton_of_soleReference hsole
      simp [innerNames]
  · rw [← List.append_assoc]
    exact h.nodup_names_iff

theorem Field.forall_nodup_innerNames_iff {fields : List Field}
    (h : ∀ c ∈ Field.containersIn fields, c.Named) :
    (∀ field ∈ fields, field.innerNames.Nodup) ↔
      ∀ c ∈ Field.containersIn fields, c.Unambiguous :=
  Field.forall_iff_forall_containers (fun _ _ => List.nodup_nil)
    Field.nodup_innerNames_composite_iff h

/-- The names of the statics of a template: those of its fields, its array and its instruction. -/
def Template.statics (t : Template) : List String :=
  (Container.mk t.name .group t.fields).names.map (t.name ++ "__" ++ ·) ++ ["the_instruction"]

namespace Tables

theorem declared_ofTemplate (unit : String) {known : Registry} {cx : Context} {index : Nat}
    {t : Template} {record : TemplateInstruction} (h : t.instruction known cx index = .ok record) :
    declared (Function.ofTemplate unit record).lines =
      t.statics := by
  obtain ⟨_, hname, hfields⟩ := Template.instruction_eq_ok h
  have hsymbol : (SymbolPath.empty.push t.name).symbol = (t.name ++ "__" ++ ·) := by
    funext s
    rw [SymbolPath.symbol_push]
    exact String.empty_append
  simp only [Function.lines, Function.ofTemplate, hname, linesOf_append, linesOf_cons, linesOf_nil,
    declared_append, declared_nil, declared_array, templateStatement, declared_closeTemplate,
    declared_recordsStatements unit _ hfields, arraySymbol, hsymbol]
  simp [Template.statics, Container.names, CompositeKind.labels]

end Tables

/-- The statics of a template with plain and distinct names have distinct names if and only if no
two names run into one another. -/
theorem Template.nodup_statics_iff {t : Template} (h : ∀ c ∈ t.containers, c.Named) :
    t.statics.Nodup ↔ ∀ c ∈ t.containers, c.Unambiguous := by
  obtain ⟨hown, hinside⟩ := List.forall_mem_cons.mp h
  rw [Template.containers, List.forall_mem_cons, ← Field.forall_nodup_innerNames_iff hinside,
    ← hown.nodup_names_iff, Template.statics, List.nodup_append]
  constructor
  · exact fun hnodup => hnodup.1.of_map
  · intro hnames
    refine ⟨hnames.map fun s r hsr => (String.append_right_inj _).mp hsr,
      List.nodup_singleton _, ?_⟩
    -- The instruction of the template itself is not named after the template.
    rintro _ hs _ hthe rfl
    obtain ⟨s, _, hs⟩ := List.mem_map.mp hs
    refine Cpp.not_joinable_append t.name s ?_
    rw [hs, List.mem_singleton.mp hthe]
    decide

end FastSchema
