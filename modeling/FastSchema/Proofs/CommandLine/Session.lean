import FastSchema.CommandLine.Program
import FastSchema.Disk.FileSystem

/-! # Sessions

A run reads, compiles and writes one document after the other. On a file system that is a value this
is a session: a list of documents that were compiled and written, and the way in which it ends. -/

namespace FastSchema.CommandLine

open Disk (FileSystem)

/-! ## Runs on a state -/

namespace Run

variable {σ α β : Type}

def outcome (x : Run (StateM σ) α) (s : σ) : Except Failure α × σ :=
  StateT.run (ExceptT.run x) s

@[simp] theorem outcome_pure (a : α) (s : σ) :
    outcome (pure a) s = (.ok a, s) := rfl

@[simp] theorem outcome_throw (failure : Failure) (s : σ) :
    outcome (throw failure : Run (StateM σ) α) s = (.error failure, s) := rfl

@[simp] theorem outcome_lift (x : StateM σ α) (s : σ) :
    outcome (liftM x) s = (.ok (x.run s).1, (x.run s).2) := rfl

theorem outcome_require (failure : Disk.Failure → Failure)
    (step : StateM σ (Except Disk.Failure α)) (s : σ) :
    outcome (require failure step) s =
      match step.run s with
      | (.ok a, after) => (.ok a, after)
      | (.error cause, after) => (.error (failure cause), after) := by
  have hrun : outcome (require failure step) s =
      (((step.run s).1.mapError failure : Except Failure α), (step.run s).2) := rfl
  rw [hrun]
  rcases step.run s with ⟨_ | _, after⟩ <;> rfl

theorem outcome_bind (x : Run (StateM σ) α) (f : α → Run (StateM σ) β) (s : σ) :
    outcome (x >>= f) s =
      match outcome x s with
      | (.ok a, between) => outcome (f a) between
      | (.error failure, after) => (.error failure, after) := by
  simp only [outcome, ExceptT.run, StateT.run, bind, ExceptT.bind, ExceptT.mk, StateT.bind]
  rcases x s with ⟨_ | _, after⟩ <;> rfl

theorem outcome_map (f : α → β) (x : Run (StateM σ) α) (s : σ) :
    outcome (f <$> x) s = ((outcome x s).1.map f, (outcome x s).2) := by
  rw [← bind_pure_comp, outcome_bind]
  rcases outcome x s with ⟨_ | _, after⟩ <;> rfl

end Run

/-! ## Runs on a file system -/

@[simp] theorem run_read (p : Disk.Path) (fs : FileSystem) :
    (FileSystem.disk.read p).run fs = (fs.read p, fs) := rfl

@[simp] theorem run_createDirs (p : Disk.Path) (fs : FileSystem) :
    (FileSystem.disk.createDirs p).run fs = fs.createDirs p := rfl

theorem run_write (p : Disk.Path) (content : List UInt8) (fs : FileSystem) :
    (FileSystem.disk.write p content).run fs =
      match fs.write p content with
      | .ok after => (.ok (), after)
      | .error cause => (.error cause, fs) := rfl

/-! ## Files that are written -/

def prepare (fs : FileSystem) (path : Disk.Path) : Except Disk.Failure Unit × FileSystem :=
  match path.parent? with
  | some parent => fs.createDirs parent
  | none => (.ok (), fs)

/-- Writing a file, whose directory need not exist, succeeds or fails in one of two ways. -/
inductive Writes (fs : FileSystem) (path : Disk.Path) (text : String) :
    Except Failure Unit → FileSystem → Prop where
  | done {ready after : FileSystem} (hprepare : prepare fs path = (.ok (), ready))
      (hwrite : ready.write path (Text.utf8 text) = .ok after) :
      Writes fs path text (.ok ()) after
  | noDirectory {parent : Disk.Path} {cause : Disk.Failure} {after : FileSystem}
      (hparent : path.parent? = some parent)
      (hcreate : fs.createDirs parent = (.error cause, after)) :
      Writes fs path text (.error (.directoryNotCreated parent cause)) after
  | noFile {ready : FileSystem} {cause : Disk.Failure}
      (hprepare : prepare fs path = (.ok (), ready))
      (hwrite : ready.write path (Text.utf8 text) = .error cause) :
      Writes fs path text (.error (.outputNotWritten path cause)) ready

/-- Files are written in order, up to the first one that cannot be. -/
inductive Settles : FileSystem → List (Disk.Path × String) → Except Failure Unit → FileSystem →
    Prop where
  | nil (fs : FileSystem) : Settles fs [] (.ok ()) fs
  | cons {fs between after : FileSystem} {path : Disk.Path} {text : String}
      {rest : List (Disk.Path × String)} {result : Except Failure Unit}
      (hfirst : Writes fs path text (.ok ()) between) (hrest : Settles between rest result after) :
      Settles fs ((path, text) :: rest) result after
  | stop {fs after : FileSystem} {path : Disk.Path} {text : String}
      {rest : List (Disk.Path × String)} {failure : Failure}
      (hfirst : Writes fs path text (.error failure) after) :
      Settles fs ((path, text) :: rest) (.error failure) after

theorem writes_of_prepare {fs ready : FileSystem} {path : Disk.Path} (text : String)
    (hprepare : prepare fs path = (.ok (), ready)) :
    let write := Run.outcome (Run.require (.outputNotWritten path)
      (FileSystem.disk.write path (Text.utf8 text))) ready
    Writes fs path text write.1 write.2 := by
  simp only [Run.outcome_require, run_write]
  cases hwrite : ready.write path (Text.utf8 text) with
  | ok after => exact .done hprepare hwrite
  | error cause => exact .noFile hprepare hwrite

theorem writes_writeOutput (fs : FileSystem) (path : Disk.Path) (text : String) :
    let run := Run.outcome (writeOutput FileSystem.disk path text) fs
    Writes fs path text run.1 run.2 := by
  unfold writeOutput
  cases hparent : path.parent? with
  | none =>
      have hprepare : prepare fs path = (.ok (), fs) := by simp [prepare, hparent]
      exact writes_of_prepare text hprepare
  | some parent =>
      rw [Run.outcome_bind, Run.outcome_require, run_createDirs]
      rcases hcreate : fs.createDirs parent with ⟨cause | ⟨⟩, after⟩
      · exact .noDirectory hparent hcreate
      · have hprepare : prepare fs path = (.ok (), after) := by simp [prepare, hparent, hcreate]
        exact writes_of_prepare text hprepare

theorem settles_settle (fs : FileSystem) (files : List (Disk.Path × String)) :
    let run := Run.outcome (settle FileSystem.disk false files) fs
    Settles fs files run.1 run.2 := by
  induction files generalizing fs with
  | nil => exact .nil fs
  | cons file rest ih =>
      obtain ⟨path, text⟩ := file
      have hfirst := writes_writeOutput fs path text
      simp only [settle, Run.outcome_bind, Bool.false_eq_true, if_false]
      rcases hrun : Run.outcome (writeOutput FileSystem.disk path text) fs with
        ⟨failure | ⟨⟩, between⟩
      · rw [hrun] at hfirst
        exact .stop hfirst
      · rw [hrun] at hfirst
        exact .cons hfirst (ih between)

/-! ## Documents that are compiled -/

/-- Documents are compiled in order with the registry that those before them leave. Each is read
after the files of those before it were written. -/
inductive Session (outDir : Disk.Path) (metadata : Bool) :
    Registry → FileSystem → List (Disk.Path × CompiledUnit) → Registry → FileSystem → Prop where
  | nil (registry : Registry) (fs : FileSystem) : Session outDir metadata registry fs [] registry fs
  | cons {registry between registry' : Registry} {fs fs' after : FileSystem} {path : Disk.Path}
      {unit : CompiledUnit} {done : List (Disk.Path × CompiledUnit)}
      (hcompile : (Compile.file path (fs.read path)).outcome registry = (.ok unit, between))
      (hwrite : Settles fs (outputs outDir metadata unit) (.ok ()) fs')
      (hrest : Session outDir metadata between fs' done registry' after) :
      Session outDir metadata registry fs ((path, unit) :: done) registry' after

/-- A session ends when no document is left, at the first one that cannot be compiled, or at the
first one whose files cannot be written. -/
inductive Ending (outDir : Disk.Path) (metadata : Bool) (registry : Registry) (fs : FileSystem) :
    List Disk.Path → Except Failure Unit → FileSystem → Prop where
  | finished : Ending outDir metadata registry fs [] (.ok ()) fs
  | faulty {path : Disk.Path} {later : List Disk.Path} {fault : Fault}
      (hcompile : ((Compile.file path (fs.read path)).outcome registry).1 = .error fault) :
      Ending outDir metadata registry fs (path :: later) (.error (.compile path fault)) fs
  | unwritten {path : Disk.Path} {later : List Disk.Path} {unit : CompiledUnit} {failure : Failure}
      {after : FileSystem}
      (hcompile : ((Compile.file path (fs.read path)).outcome registry).1 = .ok unit)
      (hwrite : Settles fs (outputs outDir metadata unit) (.error failure) after) :
      Ending outDir metadata registry fs (path :: later) (.error failure) after

/-- A run that writes is a session with an ending. -/
theorem session_compileAll {options : Options} (hcheck : options.check = false) (outDir : Disk.Path)
    (registry : Registry) (fs : FileSystem) (paths : List Disk.Path) :
    let run := Run.outcome (compileAll FileSystem.disk options outDir registry paths) fs
    ∃ done rest registry' fs', paths = done.map Prod.fst ++ rest ∧
      Session outDir options.metadata registry fs done registry' fs' ∧
      Ending outDir options.metadata registry' fs' rest run.1 run.2 := by
  induction paths generalizing registry fs with
  | nil => exact ⟨[], [], registry, fs, rfl, .nil registry fs, .finished⟩
  | cons path paths ih =>
      simp only [compileAll, Run.outcome_bind, Run.outcome_lift, run_read]
      rcases hcompile : (Compile.file path (fs.read path)).outcome registry with
        ⟨fault | unit, between⟩
      · refine ⟨[], path :: paths, registry, fs, rfl, .nil registry fs, .faulty ?_⟩
        rw [hcompile]
      · have hwrite := settles_settle fs (outputs outDir options.metadata unit)
        simp only [Run.outcome_bind, hcheck]
        rcases hsettle : Run.outcome (settle FileSystem.disk false
          (outputs outDir options.metadata unit)) fs with ⟨failure | ⟨⟩, fs'⟩
        · rw [hsettle] at hwrite
          refine ⟨[], path :: paths, registry, fs, rfl, .nil registry fs, .unwritten ?_ hwrite⟩
          rw [hcompile]
        · rw [hsettle] at hwrite
          obtain ⟨done, rest, registry', after, rfl, hsession, hending⟩ := ih between fs'
          exact ⟨(path, unit) :: done, rest, registry', after, rfl,
            .cons hcompile hwrite hsession, hending⟩

/-! ## Files that are only read -/

theorem outcome_checkOutput (fs : FileSystem) (path : Disk.Path) (text : String) :
    (Run.outcome (checkOutput FileSystem.disk path text) fs).2 = fs := by
  unfold checkOutput
  simp only [Run.outcome_bind, Run.outcome_require, run_read]
  cases fs.read path with
  | error cause => rfl
  | ok bytes =>
      simp only
      cases Text.ofUtf8? bytes with
      | none => rfl
      | some found =>
          simp only
          split <;> rfl

theorem outcome_settle_check (fs : FileSystem) (files : List (Disk.Path × String)) :
    (Run.outcome (settle FileSystem.disk true files) fs).2 = fs := by
  induction files with
  | nil => rfl
  | cons file rest ih =>
      obtain ⟨path, text⟩ := file
      have hfirst := outcome_checkOutput fs path text
      simp only [settle, Run.outcome_bind, if_true]
      rcases hrun : Run.outcome (checkOutput FileSystem.disk path text) fs with
        ⟨failure | ⟨⟩, between⟩
      · rw [hrun] at hfirst
        exact hfirst
      · rw [hrun] at hfirst
        obtain rfl : between = fs := hfirst
        exact ih

/-- A run that checks changes nothing. -/
theorem outcome_compileAll_check {options : Options} (hcheck : options.check = true)
    (outDir : Disk.Path) (registry : Registry) (fs : FileSystem) (paths : List Disk.Path) :
    (Run.outcome (compileAll FileSystem.disk options outDir registry paths) fs).2 = fs := by
  induction paths generalizing registry with
  | nil => rfl
  | cons path paths ih =>
      simp only [compileAll, Run.outcome_bind, Run.outcome_lift, run_read]
      rcases (Compile.file path (fs.read path)).outcome registry with ⟨fault | unit, between⟩
      · rfl
      · have hsettle := outcome_settle_check fs (outputs outDir options.metadata unit)
        simp only [Run.outcome_bind, hcheck]
        rcases hrun : Run.outcome (settle FileSystem.disk true
          (outputs outDir options.metadata unit)) fs with ⟨failure | ⟨⟩, fs'⟩
        · rw [hrun] at hsettle
          exact hsettle
        · rw [hrun] at hsettle
          obtain rfl : fs' = fs := hsettle
          exact ih between

end FastSchema.CommandLine
