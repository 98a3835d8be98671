import FastSchema.Proofs.CommandLine.Runs

/-! # What a run reads and writes

A disk may keep account of the files that are read and written. A run that succeeds does the same
on it, and the account shows the sources of the run and the files of its units. -/

namespace FastSchema

open Disk (FileSystem)

namespace CommandLine

/-! ## Accounts -/

/-- A file that is read, or written with some content. -/
inductive Access where
  | read (path : Disk.Path)
  | write (path : Disk.Path) (content : List UInt8)
deriving DecidableEq, Repr, Inhabited

/-- A file system with an account of what happened to it. -/
abbrev Accounted := FileSystem × List Access

def noting {α : Type} (accesses : List Access) (step : StateM FileSystem α) :
    StateM Accounted α := fun s =>
  let (a, after) := step.run s.1
  (a, (after, s.2 ++ accesses))

/-- The disk that is a file system and keeps account. -/
def recorder : Disk (StateM Accounted) where
  read p := noting [.read p] (FileSystem.disk.read p)
  createDirs p := noting [] (FileSystem.disk.createDirs p)
  write p content := noting [.write p content] (FileSystem.disk.write p content)

def accesses (args : List String) (fs : FileSystem) : List Access :=
  ((run recorder args).run (fs, [])).2.2

namespace Access

def read? : Access → Option Disk.Path
  | read path => some path
  | write _ _ => none

def write? : Access → Option (Disk.Path × List UInt8)
  | read _ => none
  | write path content => some (path, content)

end Access

/-- No file is both read and written. -/
def Separate (fs : FileSystem) (account : List Access) : Prop :=
  ∀ source ∈ account.filterMap Access.read?, ∀ file ∈ account.filterMap Access.write?,
    ¬ fs.SameFile source file.1

/-- No file is written with two contents. -/
def Consistent (fs : FileSystem) (account : List Access) : Prop :=
  ∀ file ∈ account.filterMap Access.write?, ∀ file' ∈ account.filterMap Access.write?,
    fs.SameFile file.1 file'.1 → file.2 = file'.2

instance (fs : FileSystem) (account : List Access) : Decidable (Separate fs account) :=
  inferInstanceAs (Decidable (∀ _ ∈ _, ∀ _ ∈ _, ¬ _))

theorem consistent_iff_pairwise {fs : FileSystem} {account : List Access} :
    Consistent fs account ↔ (account.filterMap Access.write?).Pairwise
      fun file file' => fs.SameFile file.1 file'.1 → file.2 = file'.2 := by
  refine ⟨List.pairwise_of_forall_mem_list, fun h file hfile file' hfile' => ?_⟩
  have hflip := h.imp fun hsame hflip => (hsame (FileSystem.SameFile.symm hflip)).symm
  exact h.forall_of_forall_of_flip (fun _ _ _ => rfl) hflip hfile hfile'

instance (fs : FileSystem) (account : List Access) : Decidable (Consistent fs account) :=
  decidable_of_iff _ consistent_iff_pairwise.symm

/-! ## Keeping account -/

theorem run_recorder_read (p : Disk.Path) (fs : FileSystem) (account : List Access) :
    (recorder.read p).run (fs, account) = (fs.read p, (fs, account ++ [.read p])) := rfl

theorem run_recorder_createDirs (p : Disk.Path) (fs : FileSystem) (account : List Access) :
    (recorder.createDirs p).run (fs, account) =
      ((fs.createDirs p).1, ((fs.createDirs p).2, account)) := by
  change ((fs.createDirs p).1, ((fs.createDirs p).2, account ++ [])) = _
  rw [List.append_nil]

theorem run_recorder_write {fs after : FileSystem} {p : Disk.Path} {content : List UInt8}
    (h : fs.write p content = .ok after) (account : List Access) :
    (recorder.write p content).run (fs, account) =
      (.ok (), (after, account ++ [.write p content])) := by
  have hwrite : (FileSystem.disk.write p content).run fs = (.ok (), after) := by
    rw [run_write, h]
  change (((FileSystem.disk.write p content).run fs).1,
    (((FileSystem.disk.write p content).run fs).2, account ++ [Access.write p content])) = _
  rw [hwrite]

theorem Writes.recorded {fs after : FileSystem} {path : Disk.Path} {text : String}
    (h : Writes fs path text (.ok ()) after) (account : List Access) :
    Run.outcome (writeOutput recorder path text) (fs, account) =
      (.ok (), (after, account ++ [.write path (Text.utf8 text)])) := by
  cases h with
  | done hprepare hwrite =>
      rename_i ready
      have hlast : Run.outcome (Run.require (.outputNotWritten path)
          (recorder.write path (Text.utf8 text))) (ready, account) =
          (.ok (), (after, account ++ [.write path (Text.utf8 text)])) := by
        rw [Run.outcome_require, run_recorder_write hwrite]
      unfold writeOutput
      unfold prepare at hprepare
      cases hparent : path.parent? with
      | none =>
          simp only [hparent, Prod.mk.injEq, true_and] at hprepare
          obtain rfl : fs = ready := hprepare
          exact hlast
      | some parent =>
          simp only [hparent] at hprepare
          rw [Run.outcome_bind, Run.outcome_require, run_recorder_createDirs, hprepare]
          exact hlast

def writeEntries (files : List (Disk.Path × String)) : List Access :=
  files.map fun f => .write f.1 (Text.utf8 f.2)

theorem Settles.recorded {fs after : FileSystem} {files : List (Disk.Path × String)}
    (h : Settles fs files (.ok ()) after) (account : List Access) :
    Run.outcome (settle recorder false files) (fs, account) =
      (.ok (), (after, account ++ writeEntries files)) := by
  induction files generalizing fs account with
  | nil =>
      cases h
      simp [settle, writeEntries]
  | cons file rest ih =>
      cases h with
      | cons hfirst hrest =>
          simp only [settle, Run.outcome_bind, Bool.false_eq_true, if_false, hfirst.recorded,
            ih hrest]
          simp [writeEntries]

def sessionEntries (outDir : Disk.Path) (metadata : Bool)
    (done : List (Disk.Path × CompiledUnit)) : List Access :=
  done.flatMap fun d => .read d.1 :: writeEntries (outputs outDir metadata d.2)

theorem Session.recorded {options : Options} (hcheck : options.check = false)
    {outDir : Disk.Path} {registry registry' : Registry} {fs after : FileSystem}
    {done : List (Disk.Path × CompiledUnit)}
    (h : Session outDir options.metadata registry fs done registry' after)
    (account : List Access) :
    Run.outcome (compileAll recorder options outDir registry (done.map Prod.fst)) (fs, account) =
      (.ok (), (after, account ++ sessionEntries outDir options.metadata done)) := by
  generalize hmetadata : options.metadata = metadata at h
  induction h generalizing account with
  | nil registry fs => simp [compileAll, sessionEntries]
  | cons hcompile hwrite hrest ih =>
      simp only [List.map_cons, compileAll, Run.outcome_bind, Run.outcome_lift, run_recorder_read,
        hcompile, hcheck, hmetadata, hwrite.recorded, ih]
      simp [sessionEntries]

theorem recorded_readManifest {fs : FileSystem} {path : Disk.Path} {manifest : Manifest}
    (h : manifestAt fs path = .ok manifest) (account : List Access) :
    Run.outcome (readManifest recorder path) (fs, account) =
      (.ok manifest, (fs, account ++ [.read path])) := by
  unfold manifestAt at h
  unfold readManifest
  rw [Run.outcome_bind, Run.outcome_require, run_recorder_read]
  cases hread : fs.read path with
  | error cause => simp [hread] at h
  | ok bytes =>
      simp only [hread] at h ⊢
      cases hparse : Manifest.parse bytes with
      | none => simp [hparse] at h
      | some found =>
          simp only [hparse] at h ⊢
          split_ifs at h with hsupported
          obtain rfl : found.locate path = manifest := Except.ok.inj h
          simp [hsupported]

/-! ## Runs that succeed -/

/-- A run that generates and succeeds is a session over the documents that it plans to compile. -/
theorem exists_session {options : Options} (hcheck : options.check = false)
    {fs after : FileSystem}
    (h : Run.outcome (compileWith FileSystem.disk options) fs = (.ok (), after)) :
    ∃ outDir done registry, options.plan fs = .ok (done.map Prod.fst, outDir) ∧
      Session outDir options.metadata .empty fs done registry after := by
  rw [outcome_compileWith] at h
  cases hplan : options.plan fs with
  | error failure => simp [hplan] at h
  | ok plan =>
      obtain ⟨inputs, outDir⟩ := plan
      simp only [hplan] at h
      obtain ⟨done, rest, registry, fs', rfl, hsession, hending⟩ :=
        session_compileAll hcheck outDir .empty fs inputs
      rw [h] at hending
      cases hending with
      | finished => exact ⟨outDir, done, registry, by simp, hsession⟩

def runEntries (options : Options) (outDir : Disk.Path)
    (done : List (Disk.Path × CompiledUnit)) : List Access :=
  options.manifest.toList.map (fun path => .read ⟨path⟩) ++
    sessionEntries outDir options.metadata done

theorem recorded_compileWith {options : Options} (hcheck : options.check = false)
    {fs after : FileSystem} {outDir : Disk.Path} {done : List (Disk.Path × CompiledUnit)}
    {registry : Registry} (hplan : options.plan fs = .ok (done.map Prod.fst, outDir))
    (hsession : Session outDir options.metadata .empty fs done registry after) :
    Run.outcome (compileWith recorder options) (fs, []) =
      (.ok (), (after, runEntries options outDir done)) := by
  unfold Options.plan Options.manifestIn at hplan
  unfold compileWith runEntries
  cases hmanifest : options.manifest with
  | none =>
      simp only [hmanifest] at hplan
      split_ifs at hplan with hempty
      simp only [Except.ok.injEq, Prod.mk.injEq] at hplan
      simp only [Run.outcome_bind, Run.outcome_pure, if_neg hempty, hplan.1, hplan.2]
      rw [hsession.recorded hcheck]
      rfl
  | some path =>
      simp only [hmanifest] at hplan
      cases hread : manifestAt fs ⟨path⟩ with
      | error failure => simp [hread, Except.map] at hplan
      | ok manifest =>
          simp only [hread, Except.map] at hplan
          split_ifs at hplan with hempty
          simp only [Except.ok.injEq, Prod.mk.injEq] at hplan
          simp only [Run.outcome_bind, Run.outcome_map, recorded_readManifest hread, Except.map,
            if_neg hempty, hplan.1, hplan.2]
          rw [hsession.recorded hcheck]
          rfl

theorem accesses_of_error {args : List String} {error : UsageError}
    (hparse : Options.start.parse args = .error error) (fs : FileSystem) :
    accesses args fs = [] := by
  rw [accesses, run_on_eq]
  simp only [hparse]

theorem accesses_of_session {args : List String} {options : Options}
    (hparse : Options.start.parse args = .ok options) (hcatalogue : options.catalogue = false)
    (hcheck : options.check = false) {fs after : FileSystem} {outDir : Disk.Path}
    {done : List (Disk.Path × CompiledUnit)} {registry : Registry}
    (hplan : options.plan fs = .ok (done.map Prod.fst, outDir))
    (hsession : Session outDir options.metadata .empty fs done registry after) :
    accesses args fs = runEntries options outDir done := by
  rw [accesses, run_on_eq]
  simp only [hparse, hcatalogue, Bool.false_eq_true, if_false,
    recorded_compileWith hcheck hplan hsession]

/-! ## What the account shows -/

/-- The files of documents that are compiled, with their texts, in the order they are written. -/
def sessionFiles (outDir : Disk.Path) (metadata : Bool)
    (done : List (Disk.Path × CompiledUnit)) : List (Disk.Path × String) :=
  done.flatMap fun d => outputs outDir metadata d.2

theorem sessionFiles_cons (outDir : Disk.Path) (metadata : Bool) (d : Disk.Path × CompiledUnit)
    (done : List (Disk.Path × CompiledUnit)) :
    sessionFiles outDir metadata (d :: done) =
      outputs outDir metadata d.2 ++ sessionFiles outDir metadata done := rfl

section

variable (options : Options) (outDir : Disk.Path) (done : List (Disk.Path × CompiledUnit))

theorem reads_runEntries :
    (runEntries options outDir done).filterMap Access.read? =
      options.manifest.toList.map Disk.Path.mk ++ done.map Prod.fst := by
  have hmanifest (paths : List String) :
      (paths.map fun path => Access.read ⟨path⟩).filterMap Access.read? =
        paths.map Disk.Path.mk := by
    simp [List.filterMap_map, Function.comp_def, Access.read?, List.filterMap_eq_map']
  have hfiles (files : List (Disk.Path × String)) :
      (writeEntries files).filterMap Access.read? = [] := by
    simp [writeEntries, Access.read?]
  have hsession : (sessionEntries outDir options.metadata done).filterMap Access.read? =
      done.map Prod.fst := by
    induction done with
    | nil => rfl
    | cons d done ih =>
        rw [sessionEntries] at ih ⊢
        rw [List.flatMap_cons, List.cons_append, List.filterMap_cons, List.filterMap_append,
          hfiles, ih]
        rfl
  rw [runEntries, List.filterMap_append, hmanifest, hsession]

theorem writes_runEntries :
    (runEntries options outDir done).filterMap Access.write? =
      (sessionFiles outDir options.metadata done).map fun f => (f.1, Text.utf8 f.2) := by
  have hmanifest (paths : List String) :
      (paths.map fun path => Access.read ⟨path⟩).filterMap Access.write? = [] := by
    simp [Access.write?]
  have hfiles (files : List (Disk.Path × String)) :
      (writeEntries files).filterMap Access.write? =
        files.map fun f => (f.1, Text.utf8 f.2) := by
    simp [writeEntries, List.filterMap_map, Function.comp_def, Access.write?,
      List.filterMap_eq_map']
  rw [runEntries, List.filterMap_append, hmanifest, List.nil_append, sessionEntries]
  induction done with
  | nil => rfl
  | cons d done ih =>
      rw [List.flatMap_cons, sessionFiles_cons, List.map_append, List.cons_append,
        List.filterMap_cons, List.filterMap_append, hfiles, ih]
      rfl

end

end CommandLine

end FastSchema
