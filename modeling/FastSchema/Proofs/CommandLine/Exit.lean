import FastSchema.Proofs.CommandLine.Runs

/-! # Exit codes

A run that compiles documents exits with zero only if it did not fail. So the exit code alone tells
whether everything was compiled and written, or found as it should be. -/

namespace FastSchema.CommandLine

/-! ## Failures -/

/-- Only a request for help ends a run early without a failing exit code. -/
theorem Failure.exitCode_ne_zero {failure : Failure} (h : ∀ error, failure ≠ .usage error) :
    failure.exitCode ≠ 0 := by
  cases failure with
  | usage error => exact (h error rfl).elim
  | compile path fault =>
      simp only [exitCode, Fault.exitCode]
      split_ifs <;> simp
  | _ => simp [exitCode]

namespace Run

variable {σ α β : Type}

/-- The exit code shows every failure of the run. -/
def Loud (x : Run (StateM σ) α) : Prop :=
  ∀ s failure, (outcome x s).1 = .error failure → failure.exitCode ≠ 0

namespace Loud

theorem pure (a : α) : Loud (Pure.pure a : Run (StateM σ) α) := by
  intro s failure h
  cases h

theorem throw {failure : Failure} (h : failure.exitCode ≠ 0) :
    Loud (MonadExcept.throw failure : Run (StateM σ) α) := by
  intro s found hfound
  obtain rfl : failure = found := Except.error.inj hfound
  exact h

theorem lift (x : StateM σ α) : Loud (liftM x : Run (StateM σ) α) := by
  intro s failure h
  cases h

theorem require {failure : Disk.Failure → Failure} (h : ∀ cause, (failure cause).exitCode ≠ 0)
    (step : StateM σ (Except Disk.Failure α)) : Loud (Run.require failure step) := by
  intro s found hfound
  rw [outcome_require] at hfound
  rcases hstep : step.run s with ⟨cause | a, after⟩ <;> rw [hstep] at hfound
  · obtain rfl : failure cause = found := Except.error.inj hfound
    exact h cause
  · cases hfound

theorem bind {x : Run (StateM σ) α} {f : α → Run (StateM σ) β} (hx : Loud x)
    (hf : ∀ a, Loud (f a)) : Loud (x >>= f) := by
  intro s failure h
  rw [outcome_bind] at h
  rcases hrun : outcome x s with ⟨found | a, between⟩
  · rw [hrun] at h
    obtain rfl : found = failure := Except.error.inj h
    exact hx s found (by rw [hrun])
  · rw [hrun] at h
    exact hf a between failure h

theorem map (f : α → β) {x : Run (StateM σ) α} (hx : Loud x) : Loud (f <$> x) := by
  rw [← bind_pure_comp]
  exact hx.bind fun a => pure (f a)

end Loud

end Run

section

variable {σ : Type} (disk : Disk (StateM σ))

theorem loud_checkOutput (path : Disk.Path) (text : String) :
    Run.Loud (checkOutput disk path text) := by
  refine (Run.Loud.require (fun _ => Failure.exitCode_ne_zero (by simp)) _).bind fun bytes => ?_
  split
  · exact .throw (Failure.exitCode_ne_zero (by simp))
  · split_ifs
    · exact .throw (Failure.exitCode_ne_zero (by simp))
    · exact .pure _

theorem loud_writeOutput (path : Disk.Path) (text : String) :
    Run.Loud (writeOutput disk path text) := by
  have hwrite : Run.Loud (Run.require (.outputNotWritten path)
      (disk.write path (Text.utf8 text))) :=
    .require (fun _ => Failure.exitCode_ne_zero (by simp)) _
  unfold writeOutput
  split
  · exact (Run.Loud.require (fun _ => Failure.exitCode_ne_zero (by simp)) _).bind fun _ => hwrite
  · exact (Run.Loud.pure ()).bind fun _ => hwrite

theorem loud_settle (check : Bool) (files : List (Disk.Path × String)) :
    Run.Loud (settle disk check files) := by
  induction files with
  | nil => exact .pure _
  | cons file rest ih =>
      obtain ⟨path, text⟩ := file
      unfold settle
      cases check with
      | false => exact (loud_writeOutput disk path text).bind fun _ => ih
      | true => exact (loud_checkOutput disk path text).bind fun _ => ih

theorem loud_compileAll (options : Options) (outDir : Disk.Path) (registry : Registry)
    (paths : List Disk.Path) : Run.Loud (compileAll disk options outDir registry paths) := by
  induction paths generalizing registry with
  | nil => exact .pure _
  | cons path paths ih =>
      refine (Run.Loud.lift _).bind fun content => ?_
      split
      · exact .throw (Failure.exitCode_ne_zero (by simp))
      · exact (loud_settle disk _ _).bind fun _ => ih _

theorem loud_readManifest (path : Disk.Path) : Run.Loud (readManifest disk path) := by
  refine (Run.Loud.require (fun _ => Failure.exitCode_ne_zero (by simp)) _).bind fun bytes => ?_
  split
  · exact .throw (Failure.exitCode_ne_zero (by simp))
  · split_ifs
    · exact (Run.Loud.throw (Failure.exitCode_ne_zero (by simp))).bind fun _ => .pure _
    · exact .pure _

theorem loud_compileWith (options : Options) : Run.Loud (compileWith disk options) := by
  unfold compileWith
  extract_lets proceed
  have hproceed (manifest : Option Manifest) : Run.Loud (proceed manifest) := by
    simp only [proceed]
    split_ifs
    · exact (Run.Loud.throw (Failure.exitCode_ne_zero (by simp))).bind fun _ =>
        loud_compileAll disk _ _ _ _
    · exact loud_compileAll disk _ _ _ _
  split
  · exact ((loud_readManifest disk _).map some).bind hproceed
  · exact (Run.Loud.pure none).bind hproceed

end

theorem exitCode_ofFailure (failure : Failure) :
    (Outcome.ofFailure failure).exitCode = failure.exitCode := by
  unfold Outcome.ofFailure
  split <;> rfl

theorem Run.Loud.exitCode_eq_zero_iff {σ : Type} {x : Run (StateM σ) Unit} (h : Loud x) (s : σ) :
    (Outcome.ofResult (outcome x s).1).exitCode = 0 ↔ (outcome x s).1 = .ok () := by
  cases hresult : (outcome x s).1 with
  | ok => simp [Outcome.ofResult, Outcome.success]
  | error failure =>
      simp only [Outcome.ofResult, exitCode_ofFailure, reduceCtorEq, iff_false]
      exact h s failure hresult

end FastSchema.CommandLine
