import FastSchema.Proofs.CommandLine.Account
import FastSchema.Proofs.CommandLine.Exit
import FastSchema.Proofs.CommandLine.Options
import FastSchema.Proofs.Text.Utf8

/-! # Checking what was generated

A run with `--check` after a run that generated compiles the same documents, as long as these were
not overwritten. It accepts the files unless one of them was written with two contents, of which
only the last is found. -/

namespace FastSchema

open Disk (FileSystem Place)

theorem Compile.exists_content_of_file {path : Disk.Path}
    {content : Except Disk.Failure (List UInt8)} {registry between : Registry}
    {unit : CompiledUnit}
    (h : (file path content).outcome registry = (.ok unit, between)) :
    ∃ bytes, content = .ok bytes := by
  cases content with
  | ok bytes => exact ⟨bytes, rfl⟩
  | error failure =>
      unfold file at h
      rw [Fallible.outcome_bind, Fallible.outcome_lift] at h
      cases hname : path.unitName with
      | error fault => simp [hname] at h
      | ok name =>
          simp only [hname] at h
          cases h

namespace CommandLine

/-! ## What is left of the sources -/

namespace Settles

variable {fs after : FileSystem} {files : List (Disk.Path × String)}

/-- A file that is not overwritten can be read as before. -/
theorem read_kept (h : Settles fs files (.ok ()) after) {source : Disk.Path}
    {content : List UInt8} (hread : fs.read source = .ok content)
    (hkept : ∀ f ∈ files, ¬ after.SameFile source f.1) : after.read source = .ok content := by
  obtain ⟨place, hplace, hfile⟩ := Disk.FileSystem.read_eq_ok_iff.mp hread
  have hafter : after.resolve source = .ok place := h.grows.resolve hplace
  have hsame : after.file? place = fs.file? place :=
    h.file?_eq fun f hf hf' => hkept f hf ⟨place, hafter, hf'⟩
  exact Disk.FileSystem.read_of_file? hafter (hsame.trans hfile)

theorem exists_resolve (h : Settles fs files (.ok ()) after) :
    ∀ f ∈ files, ∃ place, after.resolve f.1 = .ok place := by
  induction files generalizing fs with
  | nil => simp
  | cons file rest ih =>
      cases h with
      | cons hfirst hrest =>
          obtain ⟨-, place, hplace, -⟩ := hfirst.spec
          rw [List.forall_mem_cons]
          exact ⟨⟨place, hrest.grows.resolve hplace⟩, ih hrest⟩

/-- What is written somewhere is in the end what one of the writes has put there. -/
theorem exists_file? (h : Settles fs files (.ok ()) after) {place : Place}
    (hplace : ∃ f ∈ files, after.resolve f.1 = .ok place) :
    ∃ f ∈ files, after.resolve f.1 = .ok place ∧ after.file? place = some (Text.utf8 f.2) := by
  induction files generalizing fs with
  | nil => simp at hplace
  | cons file rest ih =>
      cases h with
      | cons hfirst hrest =>
          by_cases hlater : ∃ f ∈ rest, after.resolve f.1 = .ok place
          · obtain ⟨f, hf, hfound⟩ := ih hrest hlater
            exact ⟨f, List.mem_cons_of_mem _ hf, hfound⟩
          · -- Nothing goes there later, so what the first write has put there stays.
            rename_i between path text
            simp only [List.mem_cons, exists_eq_or_imp, or_iff_left hlater] at hplace
            obtain ⟨-, found, hfound, hfile⟩ := hfirst.spec
            obtain rfl : found = place :=
              Except.ok.inj ((hrest.grows.resolve hfound).symm.trans hplace)
            have hkept : after.file? found = between.file? found :=
              hrest.file?_eq fun f hf hf' => hlater ⟨f, hf, hf'⟩
            rw [hfile, if_pos rfl] at hkept
            exact ⟨(path, text), by simp, hplace, hkept⟩

/-- Every file holds its text in the end if and only if none is written with two texts. -/
theorem forall_read_iff (h : Settles fs files (.ok ()) after) :
    (∀ f ∈ files, after.read f.1 = .ok (Text.utf8 f.2)) ↔
      ∀ f ∈ files, ∀ f' ∈ files, after.SameFile f.1 f'.1 → Text.utf8 f.2 = Text.utf8 f'.2 := by
  constructor
  · rintro hread f hf f' hf' ⟨place, hplace, hplace'⟩
    obtain ⟨found, hfound, hfile⟩ := Disk.FileSystem.read_eq_ok_iff.mp (hread f hf)
    obtain ⟨found', hfound', hfile'⟩ := Disk.FileSystem.read_eq_ok_iff.mp (hread f' hf')
    obtain rfl : found = place := Except.ok.inj (hfound.symm.trans hplace)
    obtain rfl : found' = found := Except.ok.inj (hfound'.symm.trans hplace')
    exact Option.some.inj (hfile.symm.trans hfile')
  · intro hsame f hf
    obtain ⟨place, hplace⟩ := h.exists_resolve f hf
    obtain ⟨f', hf', hplace', hfile⟩ := h.exists_file? ⟨f, hf, hplace⟩
    rw [hsame f hf f' hf' ⟨place, hplace, hplace'⟩]
    exact Disk.FileSystem.read_of_file? hplace hfile

end Settles

/-! ## Checking -/

theorem checkOutput_eq_ok_iff {fs : FileSystem} {path : Disk.Path} {text : String} :
    (Run.outcome (checkOutput FileSystem.disk path text) fs).1 = .ok () ↔
      fs.read path = .ok (Text.utf8 text) := by
  unfold checkOutput
  rw [Run.outcome_bind, Run.outcome_require, run_read]
  cases fs.read path with
  | error cause => simp
  | ok bytes =>
      simp only [Except.ok.injEq, ← Text.ofUtf8?_eq_some_iff]
      cases Text.ofUtf8? bytes with
      | none => simp
      | some found =>
          simp only [Option.some.injEq]
          split_ifs with hne
          · simp [hne]
          · simpa using hne

theorem settle_check_eq_ok_iff {fs : FileSystem} {files : List (Disk.Path × String)} :
    (Run.outcome (settle FileSystem.disk true files) fs).1 = .ok () ↔
      ∀ f ∈ files, fs.read f.1 = .ok (Text.utf8 f.2) := by
  induction files with
  | nil => simp [settle]
  | cons file rest ih =>
      obtain ⟨path, text⟩ := file
      have hfirst := outcome_checkOutput fs path text
      rw [List.forall_mem_cons, ← ih, ← checkOutput_eq_ok_iff]
      simp only [settle, Run.outcome_bind, if_true]
      rcases hrun : Run.outcome (checkOutput FileSystem.disk path text) fs with
        ⟨failure | ⟨⟩, between⟩
      · simp
      · rw [hrun] at hfirst
        obtain rfl : between = fs := hfirst
        simp

/-- The documents of a session are accepted if all files hold what was generated from them. -/
theorem Session.check_eq_ok_iff {options : Options} {outDir : Disk.Path}
    {registry registry' : Registry} {fs after : FileSystem}
    {done : List (Disk.Path × CompiledUnit)}
    (h : Session outDir options.metadata registry fs done registry' after)
    (hkept : ∀ d ∈ done, ∀ f ∈ sessionFiles outDir options.metadata done,
      ¬ after.SameFile d.1 f.1) :
    (Run.outcome (compileAll FileSystem.disk options.checking outDir registry
        (done.map Prod.fst)) after).1 = .ok () ↔
      ∀ f ∈ sessionFiles outDir options.metadata done,
        after.read f.1 = .ok (Text.utf8 f.2) := by
  have hmetadata : options.checking.metadata = options.metadata := rfl
  have hcheck : options.checking.check = true := rfl
  generalize options.metadata = metadata at h hkept hmetadata ⊢
  induction h with
  | nil registry fs => simp [compileAll, sessionFiles]
  | cons hcompile hwrite hrest ih =>
      rename_i registry between registry' fs fs' after path unit done
      have hall := (Session.cons hcompile hwrite hrest).settles
      rw [List.forall_mem_cons] at hkept
      -- The document is still there, so the same unit is compiled again.
      obtain ⟨bytes, hread⟩ := Compile.exists_content_of_file hcompile
      have hagain : after.read path = fs.read path := by
        rw [hread]
        exact hall.read_kept hread hkept.1
      have hlater := ih fun d hd f hf => hkept.2 d hd f (List.mem_append_right _ hf)
      have hsettle := outcome_settle_check after (outputs outDir metadata unit)
      rw [sessionFiles_cons, List.forall_mem_append]
      refine Iff.trans ?_ (and_congr settle_check_eq_ok_iff hlater)
      simp only [List.map_cons, compileAll, Run.outcome_bind, Run.outcome_lift, run_read, hagain,
        hcompile, hcheck, hmetadata]
      rcases hrun : Run.outcome (settle FileSystem.disk true (outputs outDir metadata unit)) after
        with ⟨failure | ⟨⟩, between⟩
      · simp
      · rw [hrun] at hsettle
        obtain rfl : between = after := hsettle
        simp

/-! ## Generating and checking -/

theorem plan_congr {options : Options} {fs after : FileSystem}
    (h : ∀ path, options.manifest = some path → after.read ⟨path⟩ = fs.read ⟨path⟩) :
    options.checking.plan after = options.plan fs := by
  have hmanifest : options.checking.manifestIn after = options.manifestIn fs := by
    change options.manifestIn after = options.manifestIn fs
    unfold Options.manifestIn
    cases hpath : options.manifest with
    | none => rfl
    | some path => simp only [manifestAt, h path hpath]
  unfold Options.plan
  rw [hmanifest]
  rfl

theorem exists_read_of_plan {options : Options} {fs : FileSystem}
    {plan : List Disk.Path × Disk.Path} (hplan : options.plan fs = .ok plan) {path : String}
    (hpath : options.manifest = some path) : ∃ bytes, fs.read ⟨path⟩ = .ok bytes := by
  cases hread : fs.read ⟨path⟩ with
  | ok bytes => exact ⟨bytes, rfl⟩
  | error cause =>
      simp [Options.plan, Options.manifestIn, hpath, manifestAt, hread, Except.map] at hplan

theorem separate_runEntries_iff {options : Options} {outDir : Disk.Path}
    {done : List (Disk.Path × CompiledUnit)} {fs : FileSystem} :
    Separate fs (runEntries options outDir done) ↔
      (∀ path, options.manifest = some path →
        ∀ f ∈ sessionFiles outDir options.metadata done,
          ¬ fs.SameFile ⟨path⟩ f.1) ∧
      ∀ d ∈ done, ∀ f ∈ sessionFiles outDir options.metadata done,
        ¬ fs.SameFile d.1 f.1 := by
  unfold Separate
  rw [reads_runEntries, writes_runEntries]
  simp only [List.forall_mem_append, List.forall_mem_map, Option.mem_toList]

theorem consistent_runEntries_iff {options : Options} {outDir : Disk.Path}
    {done : List (Disk.Path × CompiledUnit)} {fs : FileSystem} :
    Consistent fs (runEntries options outDir done) ↔
      ∀ f ∈ sessionFiles outDir options.metadata done,
        ∀ f' ∈ sessionFiles outDir options.metadata done,
          fs.SameFile f.1 f'.1 → Text.utf8 f.2 = Text.utf8 f'.2 := by
  unfold Consistent
  rw [writes_runEntries]
  simp only [List.forall_mem_map]

/-- Checking changes nothing, and accepts what a session wrote that overwrote none of its sources
and wrote no file with two contents. -/
theorem check_compileWith {options : Options} {fs after : FileSystem} {outDir : Disk.Path}
    {done : List (Disk.Path × CompiledUnit)} {registry : Registry}
    (hplan : options.plan fs = .ok (done.map Prod.fst, outDir))
    (hsession : Session outDir options.metadata .empty fs done registry after)
    (hseparate : Separate after (runEntries options outDir done)) :
    let checked := Run.outcome (compileWith FileSystem.disk options.checking) after
    checked.2 = after ∧
      (checked.1 = .ok () ↔ Consistent after (runEntries options outDir done)) := by
  obtain ⟨hmanifest, hdocuments⟩ := separate_runEntries_iff.mp hseparate
  -- The manifest is still there, so the same documents are compiled.
  have hplan' : options.checking.plan after = .ok (done.map Prod.fst, outDir) := by
    rw [plan_congr, hplan]
    intro path hpath
    obtain ⟨bytes, hread⟩ := exists_read_of_plan hplan hpath
    rw [hread]
    exact hsession.settles.read_kept hread (hmanifest path hpath)
  simp only [outcome_compileWith, hplan']
  refine ⟨outcome_compileAll_check rfl _ _ _ _, ?_⟩
  rw [hsession.check_eq_ok_iff hdocuments, consistent_runEntries_iff]
  exact hsession.settles.forall_read_iff

/-- After a run that generates, succeeds and overwrites none of its sources, the same arguments with
`--check` change nothing and succeed if and only if no file was written with two contents. -/
theorem check_spec {before later : List String} {fs : FileSystem}
    (hopen : Options.start.Open before)
    (hcheck : "--check" ∉ Options.leading (before ++ later))
    (hcatalogue : "--diagnostics-md" ∉ Options.leading (before ++ later))
    (hexit : ((run FileSystem.disk (before ++ later)).run fs).1.exitCode = 0)
    (hseparate : Separate ((run FileSystem.disk (before ++ later)).run fs).2
      (accesses (before ++ later) fs)) :
    let after := ((run FileSystem.disk (before ++ later)).run fs).2
    let checked := (run FileSystem.disk (before ++ "--check" :: later)).run after
    checked.2 = after ∧
      (checked.1.exitCode = 0 ↔ Consistent after (accesses (before ++ later) fs)) := by
  have hparsed := Options.parse_insert_check hopen hcheck
  simp only [run_eq, hparsed] at hexit hseparate ⊢
  cases hparse : Options.start.parse (before ++ later) with
  | error error =>
      simp only [hparse] at hexit
      simp [accesses_of_error hparse, Except.map, hexit, Consistent]
  | ok options =>
      have hgenerates : options.check = false := Options.Flag.isSet_eq_false .check hcheck hparse
      have hplain : options.catalogue = false :=
        Options.Flag.isSet_eq_false .catalogue hcatalogue hparse
      have hplain' : options.checking.catalogue = false := hplain
      simp only [hparse, Except.map, hplain, hplain', Bool.false_eq_true, if_false]
        at hexit hseparate ⊢
      rw [(loud_compileWith FileSystem.disk _).exitCode_eq_zero_iff] at hexit ⊢
      obtain ⟨outDir, done, registry, hplan, hsession⟩ :=
        exists_session hgenerates (Prod.ext hexit rfl)
      rw [accesses_of_session hparse hplain hgenerates hplan hsession] at hseparate ⊢
      exact check_compileWith hplan hsession hseparate

/-- A directory with two documents of one name, of which only the first has a template. -/
def namesakes : FileSystem where
  workingDirectory := .ofNames ["w"]
  entries := [(.ofNames ["w"], .directory), (.ofNames ["w", "b"], .directory),
    (.ofNames ["w", "a.xml"], .file (Text.utf8 "<template name=\"A\"/>")),
    (.ofNames ["w", "b", "a.xml"], .file (Text.utf8 "<templates/>"))]

theorem accepted_of_namesakes :
    let after := ((run FileSystem.disk ["a.xml", "--out-dir", "out"]).run namesakes).2
    let checked := (run FileSystem.disk ["a.xml", "--check", "--out-dir", "out"]).run after
    checked.2 = after ∧ checked.1.exitCode = 0 := by
  have hopen : Options.start.Open ["a.xml"] := ⟨by decide, fun option h => nomatch h⟩
  have hspec := @check_spec ["a.xml"] ["--out-dir", "out"] namesakes hopen (by decide) (by decide)
    (by decide +kernel) (by decide +kernel)
  simp only [List.cons_append, List.nil_append] at hspec
  exact ⟨hspec.1, hspec.2.mpr (by decide +kernel)⟩

/-- Of two documents of one name the second overwrites what was generated from the first, which is
then not accepted. -/
theorem not_accepted_of_namesakes :
    ¬ ∀ (args : List String) (fs : FileSystem), "--check" ∉ args → "--diagnostics-md" ∉ args →
      let generated := (run FileSystem.disk args).run fs
      generated.1.exitCode = 0 → Separate generated.2 (accesses args fs) →
        let checked := (run FileSystem.disk ("--check" :: args)).run generated.2
        checked.1.exitCode = 0 ∧ checked.2 = generated.2 := by
  intro h
  have haccepted := h ["a.xml", "b/a.xml"] namesakes (by decide) (by decide) (by decide +kernel)
    (by decide +kernel)
  have hrefused : ((run FileSystem.disk ["--check", "a.xml", "b/a.xml"]).run
      ((run FileSystem.disk ["a.xml", "b/a.xml"]).run namesakes).2).1.exitCode ≠ 0 := by
    decide +kernel
  exact hrefused haccepted.1

end CommandLine

end FastSchema
