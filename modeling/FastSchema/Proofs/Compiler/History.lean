import FastSchema.Proofs.Compiler.Refinement

/-! # The registry over a run

A run is a list of calls of one compiler. Whatever the calls answer, the registry that they leave
says which of their documents was the first to define a name. -/

namespace FastSchema

/-- A call of the compiler, with the text of a document or with a document at hand. -/
inductive Call where
  | source (unit text : String)
  | document (unit : String) (doc : Document) (digest : String)

namespace Call

def unit : Call → String
  | .source unit _ => unit
  | .document unit _ _ => unit

def digest : Call → String
  | .source _ text => Sha256.ofText text
  | .document _ _ digest => digest

def load : Call → Except Fault Document
  | .source _ text => Document.parse text
  | .document _ doc _ => .ok doc

def compile : Call → Compile CompiledUnit
  | .source unit text => Compile.source unit text
  | .document unit doc digest => Compile.document unit doc digest

def Defines (call : Call) (q : QualifiedName) : Prop :=
  ∃ doc, call.load = .ok doc ∧ doc.Defines q

instance (call : Call) (q : QualifiedName) : Decidable (call.Defines q) :=
  match h : call.load with
  | .ok doc => decidable_of_iff (doc.Defines q) (by simp [Defines, h])
  | .error _ => isFalse (by simp [Defines, h])

/-! ## One call -/

theorem outcome_compile_of_error {call : Call} {fault : Fault} (h : call.load = .error fault)
    (registry : Registry) : call.compile.outcome registry = (.error fault, registry) := by
  cases call with
  | source unit text =>
      have hparse : Document.parse text = .error fault := h
      simp only [compile, Compile.source, Fallible.outcome_bind, Fallible.outcome_lift, hparse]
  | document unit doc digest => cases h

theorem outcome_compile_of_ok {call : Call} {doc : Document} (h : call.load = .ok doc)
    (registry : Registry) :
    call.compile.outcome registry =
      (Compile.document call.unit doc call.digest).outcome registry := by
  cases call with
  | source unit text =>
      have hparse : Document.parse text = .ok doc := h
      simp only [compile, Compile.source, Fallible.outcome_bind, Fallible.outcome_lift, hparse,
        Call.unit, Call.digest]
  | document unit _ digest =>
      cases h
      rfl

/-- A text that cannot be loaded is malformed or has the wrong root. -/
theorem isLoadFault_of_load {call : Call} {fault : Fault} (h : call.load = .error fault) :
    fault.isLoadFault := by
  cases call with
  | source unit text =>
      change ((Xml.parse text).mapError fun cause => Fault.load (.malformed cause)) >>=
        Document.ofXml = .error fault at h
      cases hxml : Xml.parse text with
      | error cause =>
          rw [hxml] at h
          cases h
          rfl
      | ok root =>
          rw [hxml] at h
          change Document.ofXml root = .error fault at h
          unfold Document.ofXml at h
          split at h
          · cases h
          · split at h
            · cases h
            · cases h
              rfl
  | document unit doc digest => cases h

def after (registry : Registry) (call : Call) : Registry :=
  (call.compile.outcome registry).2

/-- A call adds what its document defines, apart from names that are taken. -/
theorem lookup_after (registry : Registry) (call : Call) (q : QualifiedName) :
    (after registry call).lookup q =
      (registry.lookup q).or (if call.Defines q then some call.unit else none) := by
  unfold after
  cases h : call.load with
  | error fault =>
      -- A document that is not loaded defines nothing.
      have hnone : ¬ call.Defines q := by simp [Defines, h]
      rw [outcome_compile_of_error h, if_neg hnone, Option.or_none]
  | ok doc =>
      have hdefines : call.Defines q ↔ doc.Defines q := by simp [Defines, h]
      rw [outcome_compile_of_ok h, Compile.outcome_document_eq,
        Registry.lookup_registerDocument]
      simp only [hdefines]

/-! ## Runs -/

def run (calls : List Call) : Registry := calls.foldl after .empty

theorem lookup_foldl_after (registry : Registry) (calls : List Call) (q : QualifiedName) :
    (calls.foldl after registry).lookup q =
      (registry.lookup q).or ((calls.find? fun call => call.Defines q).map unit) := by
  induction calls generalizing registry with
  | nil => simp
  | cons call calls ih =>
      rw [List.foldl_cons, ih, lookup_after, Option.or_assoc]
      by_cases h : call.Defines q
      · simp [h]
      · simp [h]

/-- A name belongs to the first call that defines it. -/
theorem lookup_run (calls : List Call) (q : QualifiedName) :
    (run calls).lookup q = (calls.find? fun call => call.Defines q).map unit := by
  rw [run, lookup_foldl_after, Registry.lookup_empty, Option.none_or]

/-- What a document may refer to after a run: its own templates and those of earlier documents. -/
theorem isSome_lookup_registerDocument_run {calls : List Call} {unit : String} {doc : Document}
    {q : QualifiedName} :
    (((run calls).registerDocument unit doc).lookup q).isSome ↔
      doc.Defines q ∨ ∃ earlier ∈ calls, earlier.Defines q := by
  have hrun : ((run calls).lookup q).isSome ↔ ∃ earlier ∈ calls, earlier.Defines q := by
    simp [lookup_run]
  rw [Registry.lookup_registerDocument, ← hrun]
  cases (run calls).lookup q <;> simp

/-- What is known after a run, and what a further call makes of it. A call that loads its document
leaves the registry of the scan before the walks, whether it succeeds or not. -/
structure RunSpec (calls : List Call) : Prop where
  lookup_eq_some_iff : ∀ q unit, (run calls).lookup q = some unit ↔
    ∃ before call rest, calls = before ++ call :: rest ∧ call.Defines q ∧ call.unit = unit ∧
      ∀ earlier ∈ before, ¬ earlier.Defines q
  lookup_kept : ∀ more q unit, (run calls).lookup q = some unit →
    (run (calls ++ more)).lookup q = some unit
  load_failure : ∀ (call : Call) fault, call.load = .error fault → fault.isLoadFault ∧
    call.compile.outcome (run calls) = (.error fault, run calls)
  loaded : ∀ (call : Call) doc, call.load = .ok doc →
    call.compile.outcome (run calls) =
        ((doc.metadata call.unit call.digest ((run calls).registerDocument call.unit doc)).map
          CompiledUnit.ofMetadata, (run calls).registerDocument call.unit doc) ∧
      ∀ fault, (call.compile.outcome (run calls)).1 = .error fault →
        fault.code.phase = .derive ∨ fault.code.phase = .resolve
  resolve_iff : ∀ (call : Call) doc, call.load = .ok doc → ∀ cx r q, r.qualifiedName? cx = some q →
    ((∃ target, ((run calls).registerDocument call.unit doc).resolve cx r = .ok (some target)) ↔
      doc.Defines q ∨ ∃ earlier ∈ calls, earlier.Defines q)
  unresolved_iff : ∀ (call : Call) doc, call.load = .ok doc → ∀ q,
    q.unresolved ∈ doc.faults ((run calls).registerDocument call.unit doc) ↔
      q ∈ doc.referencedNames ∧ ¬ doc.Defines q ∧ ∀ earlier ∈ calls, ¬ earlier.Defines q

/-- The registry of a run is known from the documents that its calls load. -/
theorem run_spec (calls : List Call) : RunSpec calls where
  lookup_eq_some_iff q unit := by
    rw [lookup_run, Option.map_eq_some_iff]
    constructor
    · rintro ⟨call, hfind, hunit⟩
      obtain ⟨hdefines, before, rest, hcalls, hearlier⟩ := List.find?_eq_some_iff_append.mp hfind
      exact ⟨before, call, rest, hcalls, of_decide_eq_true hdefines, hunit, fun c hc =>
        by simpa using hearlier c hc⟩
    · rintro ⟨before, call, rest, hcalls, hdefines, hunit, hearlier⟩
      refine ⟨call, List.find?_eq_some_iff_append.mpr ⟨decide_eq_true hdefines, before, rest,
        hcalls, fun c hc => by simpa using hearlier c hc⟩, hunit⟩
  lookup_kept more q unit h := by
    rw [run, List.foldl_append, lookup_foldl_after]
    change ((run calls).lookup q).or _ = _
    rw [h, Option.some_or]
  load_failure call fault h := ⟨isLoadFault_of_load h, outcome_compile_of_error h _⟩
  loaded call doc h := by
    have hout := (outcome_compile_of_ok h (run calls)).trans
      (Compile.outcome_document_eq call.unit doc call.digest (run calls))
    refine ⟨hout, fun fault hfault => ?_⟩
    rw [hout] at hfault
    have hfirst := (stopsAt_error_iff (doc.stopsAt_metadata _ _ _) fault).mp
      (Fallible.map_eq_error hfault)
    exact Document.phase_of_mem_faults (List.mem_of_head? hfirst)
  resolve_iff call doc h cx r q hq := by
    rw [Registry.resolve_eq_some_iff hq]
    exact isSome_lookup_registerDocument_run
  unresolved_iff call doc h q := by
    rw [Document.unresolved_mem_faults_iff, ← Option.not_isSome_iff_eq_none,
      isSome_lookup_registerDocument_run, not_or]
    simp

end Call

end FastSchema
