import FastSchema.Proofs.Compiler.Order
import FastSchema.Proofs.Compiler.Symbols
import FastSchema.Proofs.Instruction.Targets

/-! # Linking the units of a run

A target in a report is a template of the same run: the call that registered its name has compiled
it, under the unit that the target says and no later than the report. -/

namespace FastSchema.Call

open Tables (Function Shows)

/-! ## Single answers -/

/-- A call answers against the registry that the calls before it leave. -/
theorem getElem?_answersFrom (registry : Registry) (calls : List Call) (k : Nat) :
    (answersFrom registry calls)[k]? = calls[k]?.map fun call =>
      (call, (call.compile.outcome ((calls.take k).foldl after registry)).1) := by
  induction calls generalizing registry k with
  | nil => rfl
  | cons call calls ih =>
      cases k with
      | zero => rfl
      | succ k =>
          rw [answersFrom, List.getElem?_cons_succ, List.getElem?_cons_succ, ih,
            List.take_succ_cons, List.foldl_cons]

theorem getElem?_answers (calls : List Call) (k : Nat) :
    (answers calls)[k]? = calls[k]?.map fun call =>
      (call, (call.compile.outcome (run (calls.take k))).1) :=
  getElem?_answersFrom .empty calls k

/-- The references of a call are resolved against the registry that the call leaves. -/
theorem metadata_of_answers {calls : List Call} {k : Nat} {call : Call} {compiled : CompiledUnit}
    (h : (answers calls)[k]? = some (call, .ok compiled)) :
    ∃ doc, call.load = .ok doc ∧
      doc.metadata call.unit call.digest (run (calls.take (k + 1))) = .ok compiled.metadata := by
  rw [getElem?_answers, Option.map_eq_some_iff] at h
  obtain ⟨found, hfound, h⟩ := h
  rw [Prod.mk.injEq] at h
  obtain ⟨rfl, hanswer⟩ := h
  obtain ⟨doc, hload, hm⟩ := metadata_of_compile hanswer
  have hrun : run (calls.take (k + 1)) =
      (run (calls.take k)).registerDocument found.unit doc := by
    rw [run, List.take_add_one, hfound, Option.toList_some, List.foldl_append, List.foldl_cons,
      List.foldl_nil, after, outcome_compile_of_ok hload, Compile.outcome_document_eq]
    rfl
  exact ⟨doc, hload, hrun ▸ hm⟩

/-- A registered name was defined by some call, which has kept it since. -/
theorem exists_definer_of_lookup {calls : List Call} {k : Nat} {q : QualifiedName} {unit : String}
    (h : (run (calls.take (k + 1))).lookup q = some unit) :
    ∃ j definer, j ≤ k ∧ calls[j]? = some definer ∧ definer.unit = unit ∧ definer.Defines q := by
  rw [lookup_run, Option.map_eq_some_iff] at h
  obtain ⟨definer, hfind, hunit⟩ := h
  have hdefines : definer.Defines q := by simpa using List.find?_some hfind
  obtain ⟨j, hj, hget⟩ := List.mem_iff_getElem.mp (List.mem_of_find?_eq_some hfind)
  rw [List.length_take] at hj
  rw [List.getElem_take] at hget
  exact ⟨j, definer, by omega, by rw [← hget, List.getElem?_eq_getElem], hunit, hdefines⟩

/-! ## Targets -/

/-- The answer of the call has the template that the target stands for: the document of the call
defines it, and the table file contains the function that answers its instruction. -/
structure Emits (call : Call) (compiled : CompiledUnit) (target : Target) : Prop where
  unit : call.unit = target.unit
  template : ∃ doc, call.load = .ok doc ∧
    ∃ t ∈ doc.templates, t.name = target.name ∧ doc.namespaceOf t = target.ns
  function : ∃ f ∈ compiled.metadata.functions, f.name = target.name ∧
    Shows compiled.tables f.text

/-- A call that succeeds has all templates of its document. -/
theorem emits_of_defines {call : Call} {registry : Registry} {compiled : CompiledUnit}
    (h : (call.compile.outcome registry).1 = .ok compiled) {target : Target}
    (hunit : call.unit = target.unit) (hdefines : call.Defines ⟨target.ns, target.name⟩) :
    call.Emits compiled target := by
  obtain ⟨doc, hload, t, ht, hname, hns⟩ := hdefines
  obtain ⟨i, hi⟩ := List.getElem?_of_mem ht
  obtain ⟨f, hf, hfname, hshows, _⟩ := declared_of_compile h hload hi
  exact ⟨hunit, ⟨doc, hload, t, ht, hname, hns⟩,
    f, List.mem_of_getElem? hf, hfname.trans hname, hshows⟩

/-- In a run without failures every target in a report is emitted by the same call or by an earlier
one. -/
theorem emits_of_mem_targets {calls : List Call} (h : Succeeds (answers calls)) {k : Nat}
    {call : Call} {compiled : CompiledUnit}
    (hk : (answers calls)[k]? = some (call, .ok compiled)) {target : Target}
    (ht : target ∈ compiled.metadata.targets) :
    ∃ j definer other, j ≤ k ∧ (answers calls)[j]? = some (definer, .ok other) ∧
      definer.Emits other target := by
  obtain ⟨doc, hload, hm⟩ := metadata_of_answers hk
  have hlookup := ((Document.links_metadata hm).lookup_of_mem ht).2
  obtain ⟨j, definer, hj, hget, hunit, hdefines⟩ := exists_definer_of_lookup hlookup
  have hanswer : (answers calls)[j]? =
      some (definer, (definer.compile.outcome (run (calls.take j))).1) := by
    rw [getElem?_answers, hget]
    rfl
  obtain ⟨other, hother⟩ : ∃ other,
      (definer.compile.outcome (run (calls.take j))).1 = .ok other :=
    h _ (List.mem_of_getElem? hanswer)
  rw [hother] at hanswer
  exact ⟨j, definer, other, hj, hanswer, emits_of_defines hother hunit hdefines⟩

/-- Three calls. The second refers to the template of the first and to a later one of its own; the
third defines the template of the first once more and refers to it. -/
def linkedCalls : List Call :=
  [.document "parties" ⟨.ofList [("ns", "p")], [⟨"Party", .empty, none, []⟩]⟩ "",
   .document "orders" ⟨.empty,
    [⟨"Order", .empty, none,
      [.composite ⟨"Buyer", .ofList [("ns", "p")]⟩ .group none
         [.leaf ⟨"", .empty⟩ (.reference ⟨some "Party", none⟩)],
       .leaf ⟨"", .empty⟩ (.reference ⟨some "Leg", none⟩)]⟩,
     ⟨"Leg", .empty, none, []⟩]⟩ "",
   .document "copies" ⟨.ofList [("ns", "p")],
    [⟨"Party", .empty, none, [.leaf ⟨"", .empty⟩ (.reference ⟨some "Party", none⟩)]⟩]⟩ ""]

theorem emits_of_linkedCalls :
    Succeeds (answers linkedCalls) ∧
    (∃ call compiled, (answers linkedCalls)[1]? = some (call, .ok compiled) ∧
      compiled.metadata.targets = [⟨"Party", "p", "parties"⟩, ⟨"Leg", "", "orders"⟩] ∧
      ∀ target ∈ compiled.metadata.targets, ∃ j definer other, j ≤ 1 ∧
        (answers linkedCalls)[j]? = some (definer, .ok other) ∧ definer.Emits other target) ∧
    ∃ call compiled, (answers linkedCalls)[2]? = some (call, .ok compiled) ∧
      compiled.metadata.targets = [⟨"Party", "p", "parties"⟩] ∧
      ∀ target ∈ compiled.metadata.targets, ∃ j definer other, j ≤ 2 ∧
        (answers linkedCalls)[j]? = some (definer, .ok other) ∧ definer.Emits other target := by
  have hsucceeds : Succeeds (answers linkedCalls) := by
    simp only [answers, answersFrom, linkedCalls, Succeeds, compile, after,
      Compile.outcome_document_eq, List.forall_mem_cons]
    exact ⟨⟨_, rfl⟩, ⟨_, rfl⟩, ⟨_, rfl⟩, by simp⟩
  obtain ⟨call, compiled, hanswer, htargets⟩ : ∃ call compiled,
      (answers linkedCalls)[1]? = some (call, .ok compiled) ∧
        compiled.metadata.targets = [⟨"Party", "p", "parties"⟩, ⟨"Leg", "", "orders"⟩] := by
    simp only [answers, answersFrom, linkedCalls, compile, after, Compile.outcome_document_eq]
    exact ⟨_, _, rfl, rfl⟩
  obtain ⟨copy, copied, hcopy, hcopied⟩ : ∃ call compiled,
      (answers linkedCalls)[2]? = some (call, .ok compiled) ∧
        compiled.metadata.targets = [⟨"Party", "p", "parties"⟩] := by
    simp only [answers, answersFrom, linkedCalls, compile, after, Compile.outcome_document_eq]
    exact ⟨_, _, rfl, rfl⟩
  exact ⟨hsucceeds,
    ⟨call, compiled, hanswer, htargets, fun _ ht => emits_of_mem_targets hsucceeds hanswer ht⟩,
    ⟨copy, copied, hcopy, hcopied, fun _ ht => emits_of_mem_targets hsucceeds hcopy ht⟩⟩

end FastSchema.Call
