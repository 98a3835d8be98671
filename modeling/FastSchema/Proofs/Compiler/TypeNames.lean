import FastSchema.Proofs.Compiler.Order

/-! # Type names of templates

A reference is written with the name of the type that it leads to, which is made of the unit and the
name of the template. The namespace is left out, so it cannot tell two templates apart. -/

namespace FastSchema

/-! ## Identifiers -/

def isIdentifier (s : String) : Bool :=
  match s.toList with
  | [] => false
  | first :: rest => (first.isAlpha || first = '_') && rest.all fun c => c.isAlphanum || c = '_'

theorem colon_not_mem_of_isIdentifier {s : String} (h : isIdentifier s) : ':' ∉ s.toList := by
  unfold isIdentifier at h
  split at h
  · cases h
  · next first rest hs =>
      rw [hs, List.mem_cons, not_or]
      rw [Bool.and_eq_true, List.all_eq_true] at h
      obtain ⟨hfirst, hrest⟩ := h
      refine ⟨?_, fun hmem => ?_⟩
      · rintro rfl
        revert hfirst
        decide
      · have hcolon := hrest ':' hmem
        revert hcolon
        decide

/-- What stands before the first colon of a qualified name is its unit. -/
theorem qualified_inj {unit unit' name name' : String} (h : ':' ∉ unit.toList)
    (h' : ':' ∉ unit'.toList) :
    unit ++ "::" ++ name = unit' ++ "::" ++ name' ↔ unit = unit' ∧ name = name' := by
  constructor
  · intro heq
    have hlists : unit.toList ++ ':' :: ':' :: name.toList =
        unit'.toList ++ ':' :: ':' :: name'.toList := by
      simpa using congrArg String.toList heq
    have hunit : unit.toList = unit'.toList := by
      rcases List.append_eq_append_iff.mp hlists with ⟨more, hunit', hrest⟩ | ⟨more, hunit, hrest⟩
      · cases more with
        | nil => simpa using hunit'.symm
        | cons c more =>
            obtain ⟨rfl, _⟩ := List.cons.inj hrest
            exact absurd (hunit' ▸ by simp) h'
      · cases more with
        | nil => simpa using hunit
        | cons c more =>
            obtain ⟨rfl, _⟩ := List.cons.inj hrest
            exact absurd (hunit ▸ by simp) h
    rw [hunit] at hlists
    have hname : name.toList = name'.toList := by simpa using hlists
    exact ⟨String.toList_injective hunit, String.toList_injective hname⟩
  · rintro ⟨rfl, rfl⟩
    rfl

/-! ## Type names -/

/-- The type names of two targets are the same in a unit only if the targets have one unit and one
name. -/
theorem Target.typeName_eq_iff {t t' : Target} (hunit : isIdentifier t.unit)
    (hname : isIdentifier t.name) (hunit' : isIdentifier t'.unit) (hname' : isIdentifier t'.name)
    (current : String) :
    t.typeName current = t'.typeName current ↔ t.unit = t'.unit ∧ t.name = t'.name := by
  have hcolon : ∀ u n : String, ':' ∈ (u ++ "::" ++ n).toList := by simp
  have hplain := colon_not_mem_of_isIdentifier hname
  have hplain' := colon_not_mem_of_isIdentifier hname'
  unfold typeName
  by_cases ht : t.unit = current
  · rw [if_pos ht, ht]
    by_cases ht' : t'.unit = current
    · rw [if_pos ht', ht']
      simp
    · rw [if_neg ht']
      exact iff_of_false (fun heq => hplain (heq ▸ hcolon _ _)) fun h => ht' h.1.symm
  · rw [if_neg ht]
    by_cases ht' : t'.unit = current
    · rw [if_pos ht', ht']
      exact iff_of_false (fun heq => hplain' (heq ▸ hcolon _ _)) fun h => ht h.1
    · rw [if_neg ht']
      have hunits := colon_not_mem_of_isIdentifier hunit
      exact qualified_inj hunits (colon_not_mem_of_isIdentifier hunit')

namespace Call

/-- If the call loads a document, its unit and the templates have C identifiers as names. -/
def Identified (call : Call) : Prop :=
  ∀ doc, call.load = .ok doc → isIdentifier call.unit ∧ ∀ t ∈ doc.templates, isIdentifier t.name

/-- What is registered in a run has its unit and its name from one of the calls. -/
theorem isIdentifier_of_lookup {calls : List Call} (h : ∀ call ∈ calls, call.Identified)
    {q : QualifiedName} {unit : String} (hq : (run calls).lookup q = some unit) :
    isIdentifier unit ∧ isIdentifier q.name := by
  rw [lookup_run, Option.map_eq_some_iff] at hq
  obtain ⟨call, hfind, rfl⟩ := hq
  have hdefines : call.Defines q := by simpa using List.find?_some hfind
  obtain ⟨doc, hload, t, ht, hname, _⟩ := hdefines
  obtain ⟨hunit, htemplates⟩ := h call (List.mem_of_find?_eq_some hfind) doc hload
  exact ⟨hunit, hname ▸ htemplates t ht⟩

/-- Two registered names have the same type name exactly if they belong to one unit and differ in
nothing but the namespace. -/
theorem typeName_eq_iff_of_run {calls : List Call} (h : ∀ call ∈ calls, call.Identified)
    {q q' : QualifiedName} {t t' : Target} (hq : (run calls).target? q = some t)
    (hq' : (run calls).target? q' = some t') (current : String) :
    t.typeName current = t'.typeName current ↔
      (run calls).lookup q = (run calls).lookup q' ∧ q.name = q'.name := by
  obtain ⟨unit, hunit, rfl⟩ := Option.map_eq_some_iff.mp hq
  obtain ⟨unit', hunit', rfl⟩ := Option.map_eq_some_iff.mp hq'
  obtain ⟨hidentifier, hname⟩ := isIdentifier_of_lookup h hunit
  obtain ⟨hidentifier', hname'⟩ := isIdentifier_of_lookup h hunit'
  rw [Target.typeName_eq_iff hidentifier hname hidentifier' hname', hunit, hunit',
    Option.some.injEq]

/-- Calls of two units. The first unit has templates of one name in two namespaces, the other one
has a template of that name, too. -/
def namesakeCalls : List Call :=
  [.document "u" ⟨.empty, [⟨"T", .ofList [("ns", "a")], none, []⟩,
     ⟨"T", .ofList [("ns", "b")], none, []⟩]⟩ "",
   .document "v" ⟨.empty, [⟨"T", .ofList [("ns", "c")], none, []⟩]⟩ ""]

theorem identified_namesakeCalls : ∀ call ∈ namesakeCalls, call.Identified := by
  have hnames : isIdentifier "u" ∧ isIdentifier "v" ∧ isIdentifier "T" := by decide
  intro call hcall doc hload
  simp only [namesakeCalls, List.mem_cons, List.not_mem_nil, or_false] at hcall
  rcases hcall with rfl | rfl <;> cases hload
  · exact ⟨hnames.1, by simp [hnames.2.2]⟩
  · exact ⟨hnames.2.1, by simp [hnames.2.2]⟩

theorem target?_namesakeCalls :
    (run namesakeCalls).target? ⟨"a", "T"⟩ = some ⟨"T", "a", "u"⟩ ∧
    (run namesakeCalls).target? ⟨"b", "T"⟩ = some ⟨"T", "b", "u"⟩ ∧
    (run namesakeCalls).target? ⟨"c", "T"⟩ = some ⟨"T", "c", "v"⟩ := by
  simp only [run, namesakeCalls, List.foldl_cons, List.foldl_nil, after, compile,
    Compile.outcome_document_eq]
  decide

theorem typeName_eq_iff_of_namesakeCalls : ∃ t t' t'',
    (run namesakeCalls).target? ⟨"a", "T"⟩ = some t ∧
    (run namesakeCalls).target? ⟨"b", "T"⟩ = some t' ∧
    (run namesakeCalls).target? ⟨"c", "T"⟩ = some t'' ∧
    ∀ current, t.typeName current = t'.typeName current ∧
      t.typeName current ≠ t''.typeName current := by
  obtain ⟨ha, hb, hc⟩ := target?_namesakeCalls
  refine ⟨_, _, _, ha, hb, hc, fun current => ⟨?_, fun heq => ?_⟩⟩
  · exact (typeName_eq_iff_of_run identified_namesakeCalls ha hb current).mpr ⟨rfl, rfl⟩
  · have hunits := ((typeName_eq_iff_of_run identified_namesakeCalls ha hc current).mp heq).1
    have hdistinct : (run namesakeCalls).lookup ⟨"a", "T"⟩ ≠
        (run namesakeCalls).lookup ⟨"c", "T"⟩ := by decide
    exact hdistinct hunits

/-- Not every two registered names have different type names, even if all calls succeed. -/
theorem not_distinct_typeNames :
    ¬ ∀ calls : List Call, Succeeds (answers calls) → (∀ call ∈ calls, call.Identified) →
      ∀ (current : String) (q q' : QualifiedName) (t t' : Target),
        (run calls).target? q = some t → (run calls).target? q' = some t' → q ≠ q' →
          t.typeName current ≠ t'.typeName current := by
  intro hdistinct
  have hsucceeds : Succeeds (answers namesakeCalls) := by
    simp only [answers, answersFrom, namesakeCalls, Succeeds, compile, after,
      Compile.outcome_document_eq, List.forall_mem_cons]
    exact ⟨⟨_, rfl⟩, ⟨_, rfl⟩, by simp⟩
  obtain ⟨ha, hb, _⟩ := target?_namesakeCalls
  have hne : (⟨"a", "T"⟩ : QualifiedName) ≠ ⟨"b", "T"⟩ := by decide
  exact hdistinct namesakeCalls hsucceeds identified_namesakeCalls "u" _ _ _ _ ha hb hne rfl

end Call

end FastSchema
