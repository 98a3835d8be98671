import FastSchema.Proofs.CommandLine.Effects

/-! # Runs of the program

What a run may change, and what it leaves if it can write its files. -/

namespace FastSchema.CommandLine

open Disk (FileSystem)

/-! ## The plan of a run -/

def manifestAt (fs : FileSystem) (path : Disk.Path) : Except Failure Manifest :=
  match fs.read path with
  | .error cause => .error (.manifestUnreadable path cause)
  | .ok bytes =>
    match Manifest.parse bytes with
    | none => .error (.manifestMalformed path)
    | some manifest =>
      if manifest.isSupported then .ok (manifest.locate path)
      else .error (.manifestVersion manifest.version)

namespace Options

def manifestIn (options : Options) (fs : FileSystem) : Except Failure (Option Manifest) :=
  match options.manifest with
  | some path => (manifestAt fs ⟨path⟩).map some
  | none => .ok none

/-- The documents of a run, those of the manifest first, and the directory for the output. -/
def plan (options : Options) (fs : FileSystem) : Except Failure (List Disk.Path × Disk.Path) :=
  match options.manifestIn fs with
  | .error failure => .error failure
  | .ok manifest =>
    let inputs := (manifest.map Manifest.inputs).getD [] ++ options.inputs
    let outDir := (options.outDir.or (manifest.bind Manifest.outDir)).getD "."
    if inputs.isEmpty then .error .noInputs else .ok (inputs.map Disk.Path.mk, ⟨outDir⟩)

end Options

theorem outcome_readManifest (fs : FileSystem) (path : Disk.Path) :
    Run.outcome (readManifest FileSystem.disk path) fs = (manifestAt fs path, fs) := by
  unfold readManifest manifestAt
  rw [Run.outcome_bind, Run.outcome_require, run_read]
  cases fs.read path with
  | error cause => rfl
  | ok bytes =>
      simp only
      cases Manifest.parse bytes with
      | none => rfl
      | some manifest =>
          cases hsupported : manifest.isSupported <;> simp [hsupported]

theorem outcome_compileWith (options : Options) (fs : FileSystem) :
    Run.outcome (compileWith FileSystem.disk options) fs =
      match options.plan fs with
      | .error failure => (.error failure, fs)
      | .ok (inputs, outDir) =>
        Run.outcome (compileAll FileSystem.disk options outDir .empty inputs) fs := by
  unfold compileWith Options.plan Options.manifestIn
  cases options.manifest with
  | none =>
      simp only [Run.outcome_bind, Run.outcome_pure]
      split_ifs <;> rfl
  | some path =>
      simp only [Run.outcome_bind, Run.outcome_map, outcome_readManifest]
      cases manifestAt fs ⟨path⟩ with
      | error failure => rfl
      | ok manifest =>
          simp only [Except.map]
          split_ifs <;> rfl

/-! ## Runs -/

def Outcome.ofResult : Except Failure Unit → Outcome
  | .ok () => .success ""
  | .error failure => .ofFailure failure

theorem run_on_eq {σ : Type} (disk : Disk (StateM σ)) (args : List String) (s : σ) :
    (run disk args).run s =
      match Options.start.parse args with
      | .error error => (.ofFailure (.usage error), s)
      | .ok options =>
        if options.catalogue then (.success Code.catalogue, s)
        else
          let result := Run.outcome (compileWith disk options) s
          (.ofResult result.1, result.2) := by
  unfold run
  cases Options.start.parse args with
  | error error => rfl
  | ok options =>
      simp only
      split_ifs with hcatalogue
      · rfl
      · unfold Run.outcome
        rw [StateT.run_bind]
        rcases StateT.run (compileWith disk options).run s with
          ⟨failure | ⟨⟩, after⟩ <;> rfl

theorem run_eq (args : List String) (fs : FileSystem) :
    (run FileSystem.disk args).run fs =
      match Options.start.parse args with
      | .error error => (.ofFailure (.usage error), fs)
      | .ok options =>
        if options.catalogue then (.success Code.catalogue, fs)
        else
          let result := Run.outcome (compileWith FileSystem.disk options) fs
          (.ofResult result.1, result.2) :=
  run_on_eq FileSystem.disk args fs

/-- The files of a document cannot be written, although it and all before it are compiled. -/
def WriteFails (outDir : Disk.Path) (metadata : Bool) (fs : FileSystem)
    (inputs : List Disk.Path) : Prop :=
  ∃ done path later registry between unit failure after,
    inputs = done.map Prod.fst ++ path :: later ∧
      Session outDir metadata .empty fs done registry between ∧
      ((Compile.file path (between.read path)).outcome registry).1 = .ok unit ∧
      Settles between (outputs outDir metadata unit) (.error failure) after

/-- What a run of the program has to leave. Unless it may write files and has documents to compile
it changes nothing; else the documents are compiled up to the first that cannot be, and the exit
code tells why the run ended. -/
structure ProgramSpec (args : List String) (fs : FileSystem) (outcome : Outcome)
    (after : FileSystem) : Prop where
  usage : ∀ error, Options.start.parse args = .error error → after = fs
  readOnly : ∀ options, Options.start.parse args = .ok options →
    options.check ∨ options.catalogue → after = fs
  unplanned : ∀ options failure, Options.start.parse args = .ok options → ¬ options.catalogue →
    options.plan fs = .error failure → after = fs ∧ outcome = .ofFailure failure
  completed : ∀ options inputs outDir, Options.start.parse args = .ok options →
    ¬ options.check → ¬ options.catalogue → options.plan fs = .ok (inputs, outDir) →
    ¬ WriteFails outDir options.metadata fs inputs →
    ∃ done rest registry, inputs = done.map Prod.fst ++ rest ∧
      Session outDir options.metadata .empty fs done registry after ∧
      Effects outDir options.metadata fs done after ∧
      (rest = [] ∧ outcome = .success "" ∨
        ∃ path later fault, rest = path :: later ∧
          ((Compile.file path (after.read path)).outcome registry).1 = .error fault ∧
          outcome = .ofFailure (.compile path fault) ∧
          outcome.exitCode = if fault.isLoadFault then 3 else 2)

theorem program_spec (args : List String) (fs : FileSystem) :
    ProgramSpec args fs ((run FileSystem.disk args).run fs).1
      ((run FileSystem.disk args).run fs).2 := by
  have hrun := run_eq args fs
  refine ⟨?_, ?_, ?_, ?_⟩
  · intro error hparse
    simp only [hrun, hparse]
  · intro options hparse hreadOnly
    simp only [hrun, hparse]
    split_ifs with hcatalogue
    · rfl
    · have hcheck : options.check = true := by simpa [hcatalogue] using hreadOnly
      simp only [outcome_compileWith]
      split
      · rfl
      · exact outcome_compileAll_check hcheck _ _ _ _
  · intro options failure hparse hcatalogue hplan
    simp only [hrun, hparse, if_neg hcatalogue, outcome_compileWith, hplan]
    exact ⟨trivial, rfl⟩
  · intro options inputs outDir hparse hcheck hcatalogue hplan hwrites
    simp only [hrun, hparse, if_neg hcatalogue, outcome_compileWith, hplan]
    obtain ⟨done, rest, registry, fs', hinputs, hsession, hending⟩ :=
      session_compileAll (by simpa using hcheck) outDir .empty fs inputs
    generalize Run.outcome (compileAll FileSystem.disk options outDir .empty inputs) fs =
      result at hending
    obtain ⟨answer, after⟩ := result
    refine ⟨done, rest, registry, hinputs, ?_⟩
    cases hending with
    | finished => exact ⟨hsession, hsession.effects, .inl ⟨rfl, rfl⟩⟩
    | faulty hcompile =>
        exact ⟨hsession, hsession.effects, .inr ⟨_, _, _, rfl, hcompile, rfl, rfl⟩⟩
    | unwritten hcompile hwrite =>
        exact (hwrites ⟨done, _, _, registry, fs', _, _, _, hinputs, hsession, hcompile,
          hwrite⟩).elim

end FastSchema.CommandLine
