import FastSchema.Proofs.CommandLine.Session
import FastSchema.Proofs.Compiler.Report
import FastSchema.Proofs.Disk.Names
import Mathlib.Tactic.ByContra

/-! # What a session does to the files

A session changes no other files than those named for its units. Units of one name are written to
the same files, and the last of them stays. -/

namespace FastSchema

open Disk (FileSystem Place)
open Disk.FileSystem (Grows)

/-! ## Names of files -/

namespace CompiledUnit

def texts (metadata : Bool) (unit : CompiledUnit) : List (String × String) :=
  [(".inl", unit.accessors), (".cpp", unit.tables)] ++
    if metadata then [(".metadata.json", unit.metadata.text)] else []

def path (outDir : Disk.Path) (unit : CompiledUnit) (extension : String) : Disk.Path :=
  outDir.join ⟨unit.unit ++ extension⟩

theorem outputs_eq (outDir : Disk.Path) (metadata : Bool) (unit : CompiledUnit) :
    CommandLine.outputs outDir metadata unit =
      (unit.texts metadata).map fun t => (unit.path outDir t.1, t.2) := by
  cases metadata <;> rfl

def extensions : List String := [".inl", ".cpp", ".metadata.json"]

theorem extensions_texts (metadata : Bool) (unit : CompiledUnit) :
    (unit.texts metadata).map Prod.fst = extensions.take (if metadata then 3 else 2) := by
  cases metadata <;> rfl

theorem mem_extensions {metadata : Bool} {unit : CompiledUnit} {t : String × String}
    (ht : t ∈ unit.texts metadata) : t.1 ∈ extensions := by
  have hmem : t.1 ∈ (unit.texts metadata).map Prod.fst := List.mem_map_of_mem ht
  rw [extensions_texts] at hmem
  exact List.mem_of_mem_take hmem

/-- The texts of a unit go to different files. -/
theorem extension_ne_of_later {metadata : Bool} {unit : CompiledUnit}
    {earlier later : List (String × String)} {t t' : String × String}
    (h : unit.texts metadata = earlier ++ t :: later) (ht' : t' ∈ later) : t.1 ≠ t'.1 := by
  have hall : extensions.Nodup := by decide
  have hnodup : ((unit.texts metadata).map Prod.fst).Nodup := by
    rw [extensions_texts]
    exact hall.sublist (List.take_sublist _ _)
  rw [h, List.map_append, List.map_cons] at hnodup
  have hfresh := (List.nodup_cons.mp (List.nodup_append.mp hnodup).2.1).1
  intro heq
  exact hfresh (heq ▸ List.mem_map_of_mem ht')

/-- No extension is the end of another, as they end in different characters. -/
theorem eq_of_append_extension {a b e e' : String} (he : e ∈ extensions) (he' : e' ∈ extensions)
    (h : a ++ e = b ++ e') : a = b ∧ e = e' := by
  have hlast (a : String) : ∀ e ∈ extensions,
      (a ++ e).toList.getLast? = e.toList.getLast? := by
    simp [extensions, List.getLast?_append]
  have hdistinct : ∀ e ∈ extensions, ∀ e' ∈ extensions,
      e.toList.getLast? = e'.toList.getLast? → e = e' := by
    decide
  have hextension : e = e' := by
    refine hdistinct e he e' he' ?_
    rw [← hlast a e he, ← hlast b e' he', h]
  subst hextension
  have hlists := congrArg String.toList h
  rw [String.toList_append, String.toList_append] at hlists
  exact ⟨String.toList_injective (List.append_cancel_right hlists), rfl⟩

theorem isName_append_extension {unit : String} (hunit : '/' ∉ unit.toList) {e : String}
    (he : e ∈ extensions) : Disk.Path.IsName (unit ++ e) := by
  have hextensions : ∀ e ∈ extensions, 4 ≤ e.toList.length ∧ '/' ∉ e.toList := by decide
  obtain ⟨hlong, hslash⟩ := hextensions e he
  have hlength : 4 ≤ (unit ++ e).toList.length := by
    rw [String.toList_append, List.length_append]
    omega
  refine ⟨?_, ?_, ?_⟩
  · simp [hunit, hslash]
  · intro hidle
    simp only [Disk.Path.isIdle, Bool.or_eq_true, decide_eq_true_eq] at hidle
    rcases hidle with h | h <;> simp [h] at hlength
  · intro h
    simp [h] at hlength

/-- Two files of units lie at one place only if they have one name. -/
theorem eq_of_resolve_path {fs : FileSystem} {outDir : Disk.Path} {unit unit' : CompiledUnit}
    {e e' : String} {place : Place} (hunit : '/' ∉ unit.unit.toList)
    (hunit' : '/' ∉ unit'.unit.toList) (he : e ∈ extensions) (he' : e' ∈ extensions)
    (h : fs.resolve (unit.path outDir e) = .ok place)
    (h' : fs.resolve (unit'.path outDir e') = .ok place) : unit.unit = unit'.unit ∧ e = e' := by
  have hname : unit.unit ++ e = unit'.unit ++ e' :=
    FileSystem.name_eq_of_resolve_join (isName_append_extension hunit he)
      (isName_append_extension hunit' he') h h'
  exact eq_of_append_extension he he' hname

end CompiledUnit

/-- A unit has the name that its file gives it. -/
theorem Compile.unitName_of_file {path : Disk.Path} {content : Except Disk.Failure (List UInt8)}
    {registry between : Registry} {unit : CompiledUnit}
    (h : (file path content).outcome registry = (.ok unit, between)) :
    path.unitName = .ok unit.unit := by
  unfold file at h
  rw [Fallible.outcome_bind, Fallible.outcome_lift] at h
  cases hname : path.unitName with
  | error fault => simp [hname] at h
  | ok name =>
      simp only [hname] at h
      split at h
      · cases h
      · rename_i text _
        rw [Fallible.outcome_adapt] at h
        have hcompile : ((Call.source name text).compile.outcome registry).1 = .ok unit := by
          change ((source name text).outcome registry).1 = .ok unit
          rcases hsource : (source name text).outcome registry with ⟨fault | compiled, after⟩
          · simp [hsource] at h
          · simp only [hsource, Prod.mk.injEq, Except.ok.injEq] at h
            rw [h.1]
        rw [Call.unit_of_compile hcompile]
        rfl

namespace CommandLine

/-! ## Writing -/

theorem prepare_spec (fs : FileSystem) (path : Disk.Path) :
    Grows fs (prepare fs path).2 ∧ (prepare fs path).2.file? = fs.file? := by
  unfold prepare
  split
  · exact fs.createDirs_spec _
  · exact ⟨.refl fs, rfl⟩

/-- Writing a file changes what is at its place, and nothing else. -/
theorem Writes.spec {fs after : FileSystem} {path : Disk.Path} {text : String}
    (h : Writes fs path text (.ok ()) after) :
    Grows fs after ∧ ∃ place, after.resolve path = .ok place ∧
      ∀ q, after.file? q = if q = place then some (Text.utf8 text) else fs.file? q := by
  cases h with
  | done hprepare hwrite =>
      obtain ⟨hready, hfiles⟩ := prepare_spec fs path
      rw [hprepare] at hready hfiles
      obtain ⟨hgrows, place, hplace, hfile⟩ := Disk.FileSystem.write_spec hwrite
      refine ⟨hready.trans hgrows, place, hgrows.resolve hplace, fun q => ?_⟩
      rw [hfile, hfiles]

namespace Settles

variable {fs between after : FileSystem} {files files' : List (Disk.Path × String)}

theorem append (h : Settles fs files (.ok ()) between) {result : Except Failure Unit}
    (h' : Settles between files' result after) : Settles fs (files ++ files') result after := by
  induction files generalizing fs with
  | nil =>
      cases h
      exact h'
  | cons file rest ih =>
      cases h with
      | cons hfirst hrest => exact .cons hfirst (ih hrest)

theorem exists_between (h : Settles fs (files ++ files') (.ok ()) after) :
    ∃ between, Settles fs files (.ok ()) between ∧ Settles between files' (.ok ()) after := by
  induction files generalizing fs with
  | nil => exact ⟨_, .nil _, h⟩
  | cons file rest ih =>
      cases h with
      | cons hfirst hrest =>
          obtain ⟨between, hbefore, hafter⟩ := ih hrest
          exact ⟨between, .cons hfirst hbefore, hafter⟩

theorem grows (h : Settles fs files (.ok ()) after) : Grows fs after := by
  induction files generalizing fs with
  | nil =>
      cases h
      exact .refl _
  | cons file rest ih =>
      cases h with
      | cons hfirst hrest => exact hfirst.spec.1.trans (ih hrest)

/-- What lies at the place of none of the files is left as it was. -/
theorem file?_eq (h : Settles fs files (.ok ()) after) {q : Place}
    (hq : ∀ f ∈ files, after.resolve f.1 ≠ .ok q) : after.file? q = fs.file? q := by
  induction files generalizing fs with
  | nil =>
      cases h
      rfl
  | cons file rest ih =>
      cases h with
      | cons hfirst hrest =>
          rw [List.forall_mem_cons] at hq
          obtain ⟨-, place, hplace, hfile⟩ := hfirst.spec
          have hne : q ≠ place := by
            rintro rfl
            exact hq.1 (hrest.grows.resolve hplace)
          rw [ih hrest hq.2, hfile, if_neg hne]

/-- A file holds its text if nothing is written to the same place afterwards. -/
theorem read_eq {path : Disk.Path} {text : String}
    (h : Settles fs (files ++ (path, text) :: files') (.ok ()) after)
    (hlast : ∀ f ∈ files', ∀ q, after.resolve path = .ok q → after.resolve f.1 ≠ .ok q) :
    after.read path = .ok (Text.utf8 text) := by
  obtain ⟨between, -, hafter⟩ := exists_between h
  cases hafter with
  | cons hfirst hrest =>
      obtain ⟨-, place, hplace, hfile⟩ := hfirst.spec
      have hresolve : after.resolve path = .ok place := hrest.grows.resolve hplace
      have hkept := hrest.file?_eq fun f hf => hlast f hf place hresolve
      rw [hfile, if_pos rfl] at hkept
      exact FileSystem.read_of_file? hresolve hkept

end Settles

/-! ## Sessions -/

namespace Session

variable {outDir : Disk.Path} {metadata : Bool} {registry registry' : Registry}
  {fs after : FileSystem} {done : List (Disk.Path × CompiledUnit)}

/-- A session writes the files of its units, one after the other. -/
theorem settles (h : Session outDir metadata registry fs done registry' after) :
    Settles fs (done.flatMap fun d => outputs outDir metadata d.2) (.ok ()) after := by
  induction h with
  | nil registry fs => exact .nil fs
  | cons hcompile hwrite hrest ih => exact hwrite.append ih

theorem unitName (h : Session outDir metadata registry fs done registry' after) :
    ∀ d ∈ done, d.1.unitName = .ok d.2.unit := by
  induction h with
  | nil registry fs => simp
  | cons hcompile hwrite hrest ih =>
      rw [List.forall_mem_cons]
      exact ⟨Compile.unitName_of_file hcompile, ih⟩

end Session

/-- What a session does to the files: it changes those of its units only, and those of the last unit
of a name hold its texts. -/
structure Effects (outDir : Disk.Path) (metadata : Bool) (before : FileSystem)
    (done : List (Disk.Path × CompiledUnit)) (after : FileSystem) : Prop where
  named : ∀ d ∈ done, d.1.unitName = .ok d.2.unit
  changed : ∀ place, after.file? place ≠ before.file? place →
    ∃ d ∈ done, ∃ t ∈ d.2.texts metadata, after.resolve (d.2.path outDir t.1) = .ok place
  content : ∀ earlier d later, done = earlier ++ d :: later →
    (∀ d' ∈ later, d'.2.unit ≠ d.2.unit) → ∀ t ∈ d.2.texts metadata,
      after.read (d.2.path outDir t.1) = .ok (Text.utf8 t.2)

theorem Session.effects {outDir : Disk.Path} {metadata : Bool} {registry registry' : Registry}
    {fs after : FileSystem} {done : List (Disk.Path × CompiledUnit)}
    (h : Session outDir metadata registry fs done registry' after) :
    Effects outDir metadata fs done after := by
  have hslash : ∀ d ∈ done, '/' ∉ d.2.unit.toList := fun d hd =>
    Disk.Path.slash_notMem_of_unitName (h.unitName d hd)
  refine ⟨h.unitName, fun place hne => ?_, fun earlier d later hdone hlater t ht => ?_⟩
  · by_contra hnone
    refine hne (h.settles.file?_eq fun f hf hplace => hnone ?_)
    obtain ⟨d, hd, hf⟩ := List.mem_flatMap.mp hf
    rw [CompiledUnit.outputs_eq] at hf
    obtain ⟨t, ht, rfl⟩ := List.mem_map.mp hf
    exact ⟨d, hd, t, ht, hplace⟩
  · -- What is written after the file belongs to the same unit or to one of another name.
    obtain ⟨ts, ts', hts⟩ := List.append_of_mem ht
    have hsettles := h.settles
    rw [hdone, List.flatMap_append, List.flatMap_cons, CompiledUnit.outputs_eq, hts,
      List.map_append, List.map_cons, List.append_assoc, List.cons_append,
      ← List.append_assoc] at hsettles
    refine hsettles.read_eq fun f hf q hq hq' => ?_
    have hd : '/' ∉ d.2.unit.toList := hslash d (by simp [hdone])
    rcases List.mem_append.mp hf with hf | hf
    · obtain ⟨t', ht', rfl⟩ := List.mem_map.mp hf
      have hmem : t' ∈ d.2.texts metadata := by simp [hts, ht']
      have hextension : t.1 = t'.1 := (CompiledUnit.eq_of_resolve_path hd hd
        (CompiledUnit.mem_extensions ht) (CompiledUnit.mem_extensions hmem) hq hq').2
      exact CompiledUnit.extension_ne_of_later hts ht' hextension
    · obtain ⟨d', hd', hf⟩ := List.mem_flatMap.mp hf
      rw [CompiledUnit.outputs_eq] at hf
      obtain ⟨t', ht', rfl⟩ := List.mem_map.mp hf
      have hunits : d.2.unit = d'.2.unit := (CompiledUnit.eq_of_resolve_path hd
        (hslash d' (by simp [hdone, hd'])) (CompiledUnit.mem_extensions ht)
        (CompiledUnit.mem_extensions ht') hq hq').1
      exact hlater d' hd' hunits.symm

end CommandLine

end FastSchema
