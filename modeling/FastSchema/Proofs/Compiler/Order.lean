import FastSchema.Proofs.Compiler.Report
import FastSchema.Proofs.Instruction.Dependence

/-! # The order of a run

In a run without failures every call answers what it would answer against the registry that the run
leaves. If each name belongs to one unit only, that registry does not depend on the order, so
neither does any answer. -/

namespace FastSchema.Call

/-! ## Answers of a run -/

def answersFrom (registry : Registry) : List Call → List (Call × Except Fault CompiledUnit)
  | [] => []
  | call :: calls =>
    (call, (call.compile.outcome registry).1) :: answersFrom (after registry call) calls

/-- The calls of a run of a fresh compiler, each with what it answers. -/
def answers (calls : List Call) : List (Call × Except Fault CompiledUnit) :=
  answersFrom .empty calls

def Succeeds (answers : List (Call × Except Fault CompiledUnit)) : Prop :=
  ∀ p ∈ answers, ∃ compiled, p.2 = .ok compiled

/-- What a call answers if all its references are resolved against the given registry. -/
def answerWith (known : Registry) (call : Call) : Except Fault CompiledUnit := do
  let doc ← call.load
  (doc.metadata call.unit call.digest known).map CompiledUnit.ofMetadata

theorem answerWith_congr {known₁ known₂ : Registry} (h : ∀ q, known₁.lookup q = known₂.lookup q)
    (call : Call) : call.answerWith known₁ = call.answerWith known₂ := by
  unfold answerWith
  cases call.load with
  | error fault => rfl
  | ok doc =>
      rw [Fallible.ok_bind, Fallible.ok_bind,
        Document.metadata_congr call.unit call.digest fun q _ => h q]

/-- What is registered stays registered in all that follows. -/
theorem lookup_foldl_after_of_eq_some {registry : Registry} {q : QualifiedName} {unit : String}
    (h : registry.lookup q = some unit) (calls : List Call) :
    (calls.foldl after registry).lookup q = some unit := by
  rw [lookup_foldl_after, h, Option.some_or]

/-- A call that succeeds would answer the same if more names were registered. -/
theorem outcome_compile_eq_answerWith {call : Call} {registry known : Registry}
    {compiled : CompiledUnit} (h : (call.compile.outcome registry).1 = .ok compiled)
    (hkept : ∀ q unit, (after registry call).lookup q = some unit → known.lookup q = some unit) :
    (call.compile.outcome registry).1 = call.answerWith known := by
  cases hload : call.load with
  | error fault =>
      rw [outcome_compile_of_error hload] at h
      cases h
  | ok doc =>
      have hout := (outcome_compile_of_ok hload registry).trans
        (Compile.outcome_document_eq call.unit doc call.digest registry)
      have hafter : after registry call = registry.registerDocument call.unit doc :=
        congrArg Prod.snd hout
      rw [hout] at h
      obtain ⟨m, hm, rfl⟩ := Fallible.map_eq_ok h
      -- The document has found every name that it refers to, and finds the same unit later.
      have hagree : Registry.AgreeOn doc.referencedNames
          (registry.registerDocument call.unit doc) known := by
        intro q hq
        obtain ⟨unit, hunit⟩ :=
          Option.isSome_iff_exists.mp (Document.isSome_lookup_of_metadata hm hq)
        rw [hunit, hkept q unit (hafter ▸ hunit)]
      rw [hout, answerWith, hload, Fallible.ok_bind,
        Document.metadata_congr call.unit call.digest hagree]

/-- In a run without failures the registry at its end gives every answer. -/
theorem answersFrom_eq_map {registry : Registry} {calls : List Call}
    (h : Succeeds (answersFrom registry calls)) :
    answersFrom registry calls =
      calls.map fun call => (call, call.answerWith (calls.foldl after registry)) := by
  induction calls generalizing registry with
  | nil => rfl
  | cons call calls ih =>
      obtain ⟨compiled, hcompiled⟩ := h (call, (call.compile.outcome registry).1) (by
        simp [answersFrom])
      have hrest : Succeeds (answersFrom (after registry call) calls) := fun p hp =>
        h p (by simp [answersFrom, hp])
      have hcall := outcome_compile_eq_answerWith hcompiled fun q unit hq =>
        lookup_foldl_after_of_eq_some hq calls
      rw [answersFrom, ih hrest, hcall, List.map_cons, List.foldl_cons]

/-- What a call is compiled into if all its references are resolved against the given registry. -/
def compiledWith (known : Registry) (call : Call) : CompiledUnit :=
  match call.answerWith known with
  | .ok compiled => compiled
  | .error _ => default

theorem answers_eq_map {calls : List Call} (h : Succeeds (answers calls)) :
    answers calls = calls.map fun call => (call, .ok (call.compiledWith (run calls))) := by
  have hanswers : answers calls =
      calls.map fun call => (call, call.answerWith (run calls)) := answersFrom_eq_map h
  rw [hanswers]
  refine List.map_congr_left fun call hcall => ?_
  obtain ⟨compiled, hcompiled⟩ := h (call, call.answerWith (run calls)) (by
    rw [hanswers]
    exact List.mem_map_of_mem hcall)
  have hok : call.answerWith (run calls) = .ok compiled := hcompiled
  rw [compiledWith, hok]

/-! ## Runs in which every name has one owner -/

/-- All calls that define a name compile into the same unit. -/
def SingleOwner (calls : List Call) : Prop :=
  ∀ q, ∀ call ∈ calls, ∀ other ∈ calls, call.Defines q → other.Defines q →
    call.unit = other.unit

theorem SingleOwner.perm {calls₁ calls₂ : List Call} (h : SingleOwner calls₁)
    (hperm : calls₁.Perm calls₂) : SingleOwner calls₂ :=
  fun q call hcall other hother =>
    h q call (hperm.mem_iff.mpr hcall) other (hperm.mem_iff.mpr hother)

/-- A name that has one owner is mapped to it, whichever call defines it first. -/
theorem SingleOwner.lookup_run {calls : List Call} (h : SingleOwner calls) {call : Call}
    (hcall : call ∈ calls) {q : QualifiedName} (hq : call.Defines q) :
    (run calls).lookup q = some call.unit := by
  rw [Call.lookup_run]
  cases hfind : calls.find? fun call => call.Defines q with
  | none =>
      have hnone := List.find?_eq_none.mp hfind call hcall
      simp [hq] at hnone
  | some first =>
      have hfirst : first.Defines q := by simpa using List.find?_some hfind
      rw [Option.map_some,
        h q first (List.mem_of_find?_eq_some hfind) call hcall hfirst hq]

/-- The registry that a run leaves does not depend on the order of its calls. -/
theorem SingleOwner.lookup_run_perm {calls₁ calls₂ : List Call} (h : SingleOwner calls₁)
    (hperm : calls₁.Perm calls₂) (q : QualifiedName) :
    (run calls₁).lookup q = (run calls₂).lookup q := by
  by_cases hdefined : ∃ call ∈ calls₁, call.Defines q
  · obtain ⟨call, hcall, hq⟩ := hdefined
    rw [h.lookup_run hcall hq, (h.perm hperm).lookup_run (hperm.mem_iff.mp hcall) hq]
  · -- Neither run registers the name.
    have hnone : ∀ {calls : List Call}, (∀ call ∈ calls, call ∈ calls₁) →
        (run calls).lookup q = none := by
      intro calls hsub
      rw [Call.lookup_run, Option.map_eq_none_iff, List.find?_eq_none]
      intro call hcall hq
      exact hdefined ⟨call, hsub call hcall, of_decide_eq_true hq⟩
    rw [hnone fun _ hc => hc, hnone fun _ hc => hperm.mem_iff.mpr hc]

theorem distinct_run (calls : List Call) : (run calls).Distinct := by
  have hstep : ∀ (registry : Registry) (call : Call), registry.Distinct →
      (after registry call).Distinct := by
    intro registry call h
    unfold after
    cases hload : call.load with
    | error fault =>
        rw [outcome_compile_of_error hload]
        exact h
    | ok doc =>
        rw [outcome_compile_of_ok hload, Compile.outcome_document_eq]
        exact Registry.distinct_registerDocument h call.unit doc
  have hrun : ∀ (registry : Registry), registry.Distinct →
      (calls.foldl after registry).Distinct := by
    induction calls with
    | nil => exact fun _ h => h
    | cons call calls ih => exact fun registry h => ih _ (hstep registry call h)
  exact hrun .empty (by simp [Registry.Distinct, Registry.empty])

/-- Two orders of the same calls, both without failures, compile each call into the same unit and
leave the same registry, if no name is defined under two units. -/
theorem compiled_eq_of_perm {calls₁ calls₂ : List Call} (hperm : calls₁.Perm calls₂)
    (howner : SingleOwner calls₁) (h₁ : Succeeds (answers calls₁))
    (h₂ : Succeeds (answers calls₂)) :
    (∃ compiled : Call → CompiledUnit,
      answers calls₁ = calls₁.map (fun call => (call, .ok (compiled call))) ∧
      answers calls₂ = calls₂.map (fun call => (call, .ok (compiled call)))) ∧
    (∀ q, (run calls₁).lookup q = (run calls₂).lookup q) ∧
    (run calls₁).units.Perm (run calls₂).units := by
  have hlookup := howner.lookup_run_perm hperm
  have hcompiled : ∀ call : Call,
      call.compiledWith (run calls₂) = call.compiledWith (run calls₁) := by
    intro call
    rw [compiledWith, compiledWith, answerWith_congr fun q => (hlookup q).symm]
  refine ⟨⟨fun call => call.compiledWith (run calls₁), answers_eq_map h₁, ?_⟩, hlookup,
    Registry.units_perm_of_lookup_eq (distinct_run _) (distinct_run _) hlookup⟩
  rw [answers_eq_map h₂]
  simp only [hcompiled]

/-- Calls of two units. The first defines its template twice, in documents that differ. -/
def exampleCalls : List Call :=
  [.document "orders" (Compile.orderDocument .empty) "01",
   .document "orders" (Compile.orderDocument (.ofList [("presence", "optional")])) "02",
   .document "quotes" ⟨.empty, [⟨"Quote", .empty, none,
     [.leaf ⟨"", .empty⟩ (.reference ⟨some "Quote", none⟩)]⟩]⟩ "03"]

theorem singleOwner_exampleCalls : SingleOwner exampleCalls := by
  have hdefines : ∀ call ∈ exampleCalls, ∀ q, call.Defines q →
      call.unit = if q.name = "Order" then "orders" else "quotes" := by
    intro call hcall q hq
    simp only [exampleCalls, List.mem_cons, List.not_mem_nil, or_false] at hcall
    rcases hcall with rfl | rfl | rfl <;>
      · obtain ⟨doc, hload, t, ht, hname, _⟩ := hq
        cases hload
        obtain rfl := List.mem_singleton.mp ht
        rw [← hname]
        rfl
  intro q call hcall other hother hq hq'
  rw [hdefines call hcall q hq, hdefines other hother q hq']

theorem compiled_eq_of_exampleCalls :
    Succeeds (answers exampleCalls) ∧ Succeeds (answers exampleCalls.reverse) ∧
      (run exampleCalls).units ≠ (run exampleCalls.reverse).units ∧
      (∃ compiled : Call → CompiledUnit,
        answers exampleCalls = exampleCalls.map (fun call => (call, .ok (compiled call))) ∧
        answers exampleCalls.reverse =
          exampleCalls.reverse.map (fun call => (call, .ok (compiled call)))) ∧
      (run exampleCalls).units.Perm (run exampleCalls.reverse).units := by
  have h₁ : Succeeds (answers exampleCalls) := by
    simp only [answers, answersFrom, exampleCalls, Succeeds, compile, after,
      Compile.outcome_document_eq, List.forall_mem_cons]
    exact ⟨⟨_, rfl⟩, ⟨_, rfl⟩, ⟨_, rfl⟩, by simp⟩
  have h₂ : Succeeds (answers exampleCalls.reverse) := by
    simp only [answers, answersFrom, exampleCalls, Succeeds, compile, after, List.reverse_cons,
      List.reverse_nil, List.nil_append, List.cons_append, Compile.outcome_document_eq,
      List.forall_mem_cons]
    exact ⟨⟨_, rfl⟩, ⟨_, rfl⟩, ⟨_, rfl⟩, by simp⟩
  -- The registries list their names in different orders, but hold the same entries.
  have hunits : (run exampleCalls).units ≠ (run exampleCalls.reverse).units := by
    simp only [run, exampleCalls, compile, after, List.reverse_cons, List.reverse_nil,
      List.nil_append, List.cons_append, List.foldl_cons, List.foldl_nil,
      Compile.outcome_document_eq]
    decide
  obtain ⟨hcompiled, _, hperm⟩ :=
    compiled_eq_of_perm exampleCalls.reverse_perm.symm singleOwner_exampleCalls h₁ h₂
  exact ⟨h₁, h₂, hunits, hcompiled, hperm⟩

end FastSchema.Call
