import FastSchema.Proofs.Walk.Monitor
import FastSchema.Proofs.Walk.Trace

/-! # A walk stops at the first fault

A pass that is stopped by a call has made the calls of a walk that is not stopped, up to that one.
Nodes that were entered are then not left, and neither their siblings, nor later templates, nor the
end of the document are reached. -/

namespace FastSchema

/-! ## A pass that records its calls -/

def VisitorCall.answer (d : Descend) : (call : VisitorCall) → call.Answer
  | enterDocument _ _ => ()
  | exitDocument _ _ => ()
  | enterTemplate _ _ _ => d
  | exitTemplate _ _ _ _ => ()
  | enterComposite _ _ _ => d
  | exitComposite _ _ _ _ => ()
  | visitLeaf _ _ _ _ => ()

/-- What a pass does at a call, given the calls before it or their number. -/
structure CallRecorder where
  descend : Array VisitorCall → VisitorCall → Descend
  fault? : Nat → Option Fault

namespace CallRecorder

/-- Notes a call, and stops there with the fault if there is one. -/
def note (r : CallRecorder) (call : VisitorCall) : Fallible (Array VisitorCall) call.Answer := do
  let before ← get
  modify (·.push call)
  match r.fault? before.size with
  | some fault => throw fault
  | none => return call.answer (r.descend before call)

def visitor (r : CallRecorder) : Visitor (Fallible (Array VisitorCall)) where
  enterDocument doc cx := r.note (.enterDocument doc cx)
  exitDocument doc cx := r.note (.exitDocument doc cx)
  enterTemplate t cx index := r.note (.enterTemplate t cx index)
  exitTemplate t cx numFields index := r.note (.exitTemplate t cx numFields index)
  enterComposite c cx index := r.note (.enterComposite c cx index)
  exitComposite c cx numFields index := r.note (.exitComposite c cx numFields index)
  visitLeaf head content cx index := r.note (.visitLeaf head content cx index)

def trace (r : CallRecorder) (doc : Document) : Except Fault Unit × Array VisitorCall :=
  (r.visitor.walk doc).outcome #[]

/-- The recorder that visits the same children and is never stopped. -/
def unstopped (r : CallRecorder) : CallRecorder := { r with fault? := fun _ => none }

theorem perform_visitor (r : CallRecorder) (call : VisitorCall) :
    r.visitor.perform call = r.note call := by
  cases call <;> rfl

theorem outcome_note (r : CallRecorder) (call : VisitorCall) (noted : Array VisitorCall) :
    (r.note call).outcome noted =
      (match r.fault? noted.size with
        | some fault => .error fault
        | none => .ok (call.answer (r.descend noted call)), noted.push call) := by
  rw [note, Fallible.outcome_bind, Fallible.outcome_get]
  simp only [Fallible.outcome_bind, Fallible.outcome_modify]
  cases r.fault? noted.size <;> rfl

end CallRecorder

/-! ## Cutting a computation short -/

section

variable {α : Type} {k : Nat} {fault : Fault}

/-- Of `y`, which notes what it does and is not stopped, `x` does as much as comes before the note
of number `k`, and is stopped with the fault once it has made that note. -/
def Cuts (k : Nat) (fault : Fault) {β : Type} (x y : Fallible (Array α) β) : Prop :=
  ∀ noted, ∃ b more, y.outcome noted = (.ok b, noted ++ more) ∧
    (noted.size + more.size ≤ k → x.outcome noted = (.ok b, noted ++ more)) ∧
    (noted.size ≤ k → k < noted.size + more.size →
      x.outcome noted = (.error fault, (noted ++ more).take (k + 1)))

theorem take_append_of_le_size {xs ys : Array α} {n : Nat} (h : n ≤ xs.size) :
    (xs ++ ys).take n = xs.take n := by
  have hwithin : n - xs.size = 0 := Nat.sub_eq_zero_of_le h
  rw [Array.take_eq_extract, Array.take_eq_extract, Array.extract_append, hwithin,
    Array.extract_empty_of_stop_le_start (Nat.zero_le _), Array.append_empty]

theorem cuts_pure {β : Type} (b : β) :
    Cuts k fault (pure b : Fallible (Array α) β) (pure b) :=
  fun noted => ⟨b, #[], by simp, by simp, fun hle hlt => absurd hlt (by simpa using hle)⟩

theorem Cuts.bind {β γ : Type} {x y : Fallible (Array α) β} {f g : β → Fallible (Array α) γ}
    (hx : Cuts k fault x y) (hf : ∀ b, Cuts k fault (f b) (g b)) :
    Cuts k fault (x >>= f) (y >>= g) := by
  intro noted
  obtain ⟨b, more, hy, hrun, hstop⟩ := hx noted
  obtain ⟨c, later, hg, hrun', hstop'⟩ := hf b (noted ++ more)
  rw [Array.size_append] at hrun' hstop'
  refine ⟨c, more ++ later, ?_, fun hle => ?_, fun hle hlt => ?_⟩
  · rw [Fallible.outcome_bind, hy, ← Array.append_assoc]
    exact hg
  · rw [Array.size_append] at hle
    rw [Fallible.outcome_bind, hrun (by omega), ← Array.append_assoc]
    exact hrun' (by omega)
  · rw [Array.size_append] at hlt
    rw [Fallible.outcome_bind, ← Array.append_assoc]
    by_cases hfirst : k < noted.size + more.size
    · -- The first computation is stopped already, so the second is not begun.
      have hwithin : k + 1 ≤ (noted ++ more).size := by rw [Array.size_append]; omega
      rw [hstop hle hfirst, take_append_of_le_size hwithin]
    · rw [hrun (by omega)]
      exact hstop' (by omega) (by omega)

theorem composable_cuts :
    Composable (@Cuts α k fault :
      ∀ {β : Type}, Fallible (Array α) β → Fallible (Array α) β → Prop) where
  pure := cuts_pure
  bind := Cuts.bind

/-- One step, that makes a note and is stopped by it or not. -/
theorem cuts_note {β : Type} {x y : Fallible (Array α) β} (event : α) (answer : Array α → β)
    (hy : ∀ noted, y.outcome noted = (.ok (answer noted), noted.push event))
    (hrun : ∀ noted, noted.size < k → x.outcome noted = (.ok (answer noted), noted.push event))
    (hstop : ∀ noted, noted.size = k → x.outcome noted = (.error fault, noted.push event)) :
    Cuts k fault x y := by
  intro noted
  refine ⟨answer noted, #[event], by rw [hy, Array.push_eq_append], fun hle => ?_,
    fun hle hlt => ?_⟩
  · rw [hrun noted hle, Array.push_eq_append]
  · have hsize : noted.size = k := by simp at hlt; omega
    rw [hstop noted hsize, Array.take_eq_extract, Array.push_eq_append,
      Array.extract_eq_self_of_le (by simp [hsize])]

/-- What a computation leaves that is cut within what it would note. -/
theorem Cuts.outcome_eq {β : Type} {x y : Fallible (Array α) β} (h : Cuts k fault x y)
    (hk : k < (y.outcome #[]).2.size) :
    x.outcome #[] = (.error fault, (y.outcome #[]).2.take (k + 1)) := by
  obtain ⟨b, more, hy, -, hstop⟩ := h #[]
  rw [hy] at hk ⊢
  exact hstop (Nat.zero_le k) (by simpa using hk)

end

/-! ## The calls that are made before a fault -/

namespace CallRecorder

variable {r : CallRecorder} {k : Nat} {fault : Fault}

theorem cuts_perform (hfault : r.fault? k = some fault) (hfirst : ∀ i < k, r.fault? i = none)
    (call : VisitorCall) :
    Cuts k fault (r.visitor.perform call) (r.unstopped.visitor.perform call) := by
  rw [perform_visitor, perform_visitor]
  apply cuts_note call (fun noted => call.answer (r.descend noted call))
  · intro noted
    rw [outcome_note]
    rfl
  · intro noted hlt
    rw [outcome_note, hfirst noted.size hlt]
  · intro noted hsize
    rw [outcome_note, hsize, hfault]

theorem trace_eq_take (hfault : r.fault? k = some fault) (hfirst : ∀ i < k, r.fault? i = none)
    (doc : Document) (hk : k < (r.unstopped.trace doc).2.size) :
    r.trace doc = (.error fault, (r.unstopped.trace doc).2.take (k + 1)) :=
  (composable_cuts.walk (cuts_perform hfault hfirst) doc).outcome_eq hk

theorem trace_unstopped_fst (r : CallRecorder) (doc : Document) :
    (r.unstopped.trace doc).1 = .ok () := by
  -- It is what the recorder that is stopped at once is compared with.
  let stopped : CallRecorder := { r with fault? := fun _ => some (.internal (.stopped 0)) }
  have hcuts : Cuts 0 _ (stopped.visitor.walk doc) (r.unstopped.visitor.walk doc) :=
    composable_cuts.walk (cuts_perform rfl fun i hi => absurd hi (Nat.not_lt_zero i)) doc
  obtain ⟨b, more, hrun, -⟩ := hcuts #[]
  rw [trace, hrun]

end CallRecorder

namespace Recorder

variable {r : Recorder} {k : Nat}

theorem outcome_note (event : Event) (noted : Array Event) :
    (r.note event).outcome noted =
      (if r.stopsAt noted.size then .error (.internal (.stopped noted.size)) else .ok noted.size,
        noted.push event) := by
  rw [note, Fallible.outcome_bind, Fallible.outcome_get]
  simp only [Fallible.outcome_bind, Fallible.outcome_modify]
  cases r.stopsAt noted.size <;> rfl

theorem cuts_note (hstops : r.stopsAt k = true) (hfirst : ∀ i < k, r.stopsAt i = false)
    (event : Event) :
    Cuts k (.internal (.stopped k)) (r.note event) ((choosing r.descend).note event) := by
  apply FastSchema.cuts_note event Array.size
  · exact fun noted => rfl
  · intro noted hlt
    rw [outcome_note, hfirst noted.size hlt, if_neg (by simp)]
  · intro noted hsize
    rw [outcome_note, hsize, hstops, if_pos rfl]

theorem cuts_perform (hstops : r.stopsAt k = true) (hfirst : ∀ i < k, r.stopsAt i = false)
    (call : VisitorCall) :
    Cuts k (.internal (.stopped k)) (r.visitor.perform call)
      ((choosing r.descend).visitor.perform call) := by
  have hnote := cuts_note hstops hfirst
  cases call with
  | enterDocument doc cx => exact cuts_pure ()
  | exitDocument doc cx => exact cuts_pure ()
  | enterTemplate t cx index => exact (hnote _).bind fun before => cuts_pure _
  | exitTemplate t cx numFields index => exact (hnote _).bind fun before => cuts_pure ()
  | enterComposite c cx index => exact (hnote _).bind fun before => cuts_pure _
  | exitComposite c cx numFields index => exact (hnote _).bind fun before => cuts_pure ()
  | visitLeaf head content cx index => exact (hnote _).bind fun before => cuts_pure ()

theorem trace_eq_take (hstops : r.stopsAt k = true) (hfirst : ∀ i < k, r.stopsAt i = false)
    (doc : Document) (hk : k < ((choosing r.descend).trace doc).2.size) :
    r.trace doc =
      (.error (.internal (.stopped k)), ((choosing r.descend).trace doc).2.take (k + 1)) :=
  (composable_cuts.walk (cuts_perform hstops hfirst) doc).outcome_eq hk

end Recorder

/-- How walks over a document are stopped. A pass makes the calls up to its first fault and no
other, and answers with this very fault; what it visits may depend on all the calls before. -/
structure FailFastSpec (doc : Document) : Prop where
  unstopped : ∀ r : CallRecorder, (r.unstopped.trace doc).1 = .ok ()
  calls : ∀ (r : CallRecorder) (k : Nat) (fault : Fault), k < (r.unstopped.trace doc).2.size →
    r.fault? k = some fault → (∀ i < k, r.fault? i = none) →
      r.trace doc = (.error fault, (r.unstopped.trace doc).2.take (k + 1))
  events : ∀ (r : Recorder) (k : Nat), k < ((Recorder.choosing r.descend).trace doc).2.size →
    r.stopsAt k = true → (∀ i < k, r.stopsAt i = false) →
      r.trace doc = (.error (.internal (.stopped k)),
        ((Recorder.choosing r.descend).trace doc).2.take (k + 1))

/-- A walk stops at the first fault, wherever in the document that is. -/
theorem failFast_spec (doc : Document) : FailFastSpec doc where
  unstopped r := r.trace_unstopped_fst doc
  calls _ _ _ hk hfault hfirst := CallRecorder.trace_eq_take hfault hfirst doc hk
  events _ _ hk hstops hfirst := Recorder.trace_eq_take hstops hfirst doc hk

end FastSchema
