import FastSchema.Disk.FileSystem
import FastSchema.Proofs.Fallible
import Mathlib.Tactic.SplitIfs

/-! # File systems that only grow

Writing a file and creating directories leave every directory in its place. So a path that could be
followed leads to the same place ever after, and what a file holds changes only where it is
written. -/

namespace FastSchema.Disk.FileSystem

/-! ## Files -/

/-- The content of the file at a place. -/
def file? (fs : FileSystem) (place : Place) : Option (List UInt8) :=
  match fs.lookup place with
  | some (.file content) => some content
  | _ => none

theorem file?_eq_none_of_directory {fs : FileSystem} {place : Place}
    (h : fs.lookup place = some .directory) : fs.file? place = none := by
  simp [file?, h]

theorem file?_eq_none_of_lookup {fs : FileSystem} {place : Place} (h : fs.lookup place = none) :
    fs.file? place = none := by
  simp [file?, h]

theorem read_of_file? {fs : FileSystem} {p : Path} {place : Place} {content : List UInt8}
    (hplace : fs.resolve p = .ok place) (hfile : fs.file? place = some content) :
    fs.read p = .ok content := by
  have hlookup : fs.lookup place = some (.file content) := by
    unfold file? at hfile
    split at hfile
    case h_1 found hfound =>
      obtain rfl : found = content := Option.some.inj hfile
      exact hfound
    case h_2 => cases hfile
  unfold read
  simp only [hplace, bind, Except.bind, hlookup]
  rfl

theorem read_eq_ok_iff {fs : FileSystem} {p : Path} {content : List UInt8} :
    fs.read p = .ok content ↔
      ∃ place, fs.resolve p = .ok place ∧ fs.file? place = some content := by
  refine ⟨fun h => ?_, fun ⟨place, hplace, hfile⟩ => read_of_file? hplace hfile⟩
  obtain ⟨place, hresolve, h⟩ := Fallible.bind_eq_ok h
  refine ⟨place, hresolve, ?_⟩
  split at h
  case h_1 found hlookup =>
    cases h
    simp [file?, hlookup]
  case h_2 => cases h
  case h_3 => cases h

/-- Two paths lead to one place. -/
def SameFile (fs : FileSystem) (p q : Path) : Prop :=
  ∃ place, fs.resolve p = .ok place ∧ fs.resolve q = .ok place

theorem SameFile.symm {fs : FileSystem} {p q : Path} (h : fs.SameFile p q) : fs.SameFile q p :=
  let ⟨place, hp, hq⟩ := h
  ⟨place, hq, hp⟩

instance (fs : FileSystem) (p q : Path) : Decidable (fs.SameFile p q) :=
  match h : fs.resolve p, h' : fs.resolve q with
  | .ok place, .ok place' =>
    if heq : place = place' then isTrue ⟨place, h, heq ▸ h'⟩
    else isFalse fun ⟨_, hp, hq⟩ =>
      heq (Except.ok.inj ((h.symm.trans hp).trans (hq.symm.trans h')))
  | .error _, _ => isFalse fun ⟨_, hp, _⟩ => nomatch h.symm.trans hp
  | .ok _, .error _ => isFalse fun ⟨_, _, hq⟩ => nomatch h'.symm.trans hq

/-- Putting a directory where there is nothing changes no file. -/
theorem file?_set_directory {fs : FileSystem} {place : Place} (h : fs.lookup place = none) :
    (fs.set place .directory).file? = fs.file? := by
  have hroot : place ≠ .root := by
    rintro rfl
    rw [lookup_root] at h
    cases h
  funext q
  by_cases hq : q = place
  · subst hq
    have hnew : (fs.set q .directory).lookup q = some .directory := by
      rw [lookup_set fs hroot, if_pos rfl]
    rw [file?_eq_none_of_directory hnew, file?_eq_none_of_lookup h]
  · unfold file?
    rw [lookup_set fs hroot, if_neg hq]

/-- Putting a file somewhere changes what is there, and nothing else. -/
theorem file?_set_file (fs : FileSystem) {place : Place} (hroot : place ≠ .root)
    (content : List UInt8) (q : Place) :
    (fs.set place (.file content)).file? q = if q = place then some content else fs.file? q := by
  unfold file?
  rw [lookup_set fs hroot]
  by_cases hq : q = place
  · simp [hq]
  · simp [hq]

theorem resolve_eq_ok_iff {fs : FileSystem} {p : Path} {place : Place} :
    fs.resolve p = .ok place ↔
      '\x00' ∉ p.text.toList ∧ p.text ≠ "" ∧ ¬ maxPathSize < p.text.utf8ByteSize ∧
        fs.follow (fs.start p) p.segments = .ok place := by
  unfold resolve
  simp only [List.contains_iff_mem]
  split_ifs with hnul hempty hlong <;> simp [*]

/-! ## Growth -/

/-- Every directory is still there, and relative paths start from the same one. -/
structure Grows (before after : FileSystem) : Prop where
  workingDirectory : after.workingDirectory = before.workingDirectory
  directory : ∀ place, before.lookup place = some .directory →
    after.lookup place = some .directory

namespace Grows

variable {fs before between after : FileSystem}

theorem refl (fs : FileSystem) : Grows fs fs := ⟨rfl, fun _ h => h⟩

theorem trans (h : Grows before between) (h' : Grows between after) : Grows before after :=
  ⟨h'.workingDirectory.trans h.workingDirectory,
    fun place hplace => h'.directory place (h.directory place hplace)⟩

theorem set {place : Place} (h : fs.lookup place ≠ some .directory) (entry : Entry) :
    Grows fs (fs.set place entry) := by
  have hroot : place ≠ .root := by
    rintro rfl
    exact h fs.lookup_root
  refine ⟨rfl, fun q hq => ?_⟩
  have hne : q ≠ place := by
    rintro rfl
    exact h hq
  rw [lookup_set fs hroot, if_neg hne]
  exact hq

/-- A path that can be followed leads to the same place later. -/
theorem follow (h : Grows before after) {place target : Place} {segments : List String}
    (hfollow : before.follow place segments = .ok target) :
    after.follow place segments = .ok target := by
  induction segments generalizing place with
  | nil => exact hfollow
  | cons segment segments ih =>
      rw [FileSystem.follow] at hfollow ⊢
      cases hlookup : before.lookup place with
      | none => simp [hlookup] at hfollow
      | some entry =>
          cases entry with
          | file content => simp [hlookup] at hfollow
          | directory =>
              simp only [hlookup] at hfollow
              simp only [h.directory place hlookup]
              cases hstep : step place segment with
              | error e => simp [hstep] at hfollow
              | ok next =>
                  simp only [hstep] at hfollow
                  exact ih hfollow

theorem resolve (h : Grows before after) {p : Path} {place : Place}
    (hresolve : before.resolve p = .ok place) : after.resolve p = .ok place := by
  rw [resolve_eq_ok_iff] at hresolve ⊢
  obtain ⟨hnul, hempty, hlong, hfollow⟩ := hresolve
  have hstart : after.start p = before.start p := by
    rw [start, start, h.workingDirectory]
  rw [hstart]
  exact ⟨hnul, hempty, hlong, h.follow hfollow⟩

end Grows

/-! ## Writing -/

theorem write_eq_ok {fs after : FileSystem} {p : Path} {content : List UInt8}
    (h : fs.write p content = .ok after) :
    ∃ place, fs.resolve p = .ok place ∧ fs.lookup place ≠ some .directory ∧
      after = fs.set place (.file content) := by
  obtain ⟨place, hresolve, h⟩ := Fallible.bind_eq_ok h
  split_ifs at h with hdirectory
  · cases h
  · cases h
    exact ⟨place, hresolve, hdirectory, rfl⟩

/-- What a write that succeeds does to a file system. -/
theorem write_spec {fs after : FileSystem} {p : Path} {content : List UInt8}
    (h : fs.write p content = .ok after) :
    Grows fs after ∧ ∃ place, fs.resolve p = .ok place ∧
      ∀ q, after.file? q = if q = place then some content else fs.file? q := by
  obtain ⟨place, hresolve, hdirectory, rfl⟩ := write_eq_ok h
  have hroot : place ≠ .root := by
    rintro rfl
    exact hdirectory fs.lookup_root
  exact ⟨.set hdirectory _, place, hresolve, fs.file?_set_file hroot content⟩

/-! ## Creating directories -/

theorem createDir_eq_ok {fs after : FileSystem} {p : Path} (h : fs.createDir p = .ok after) :
    ∃ place, fs.lookup place = none ∧ after = fs.set place .directory := by
  obtain ⟨place, _, h⟩ := Fallible.bind_eq_ok h
  split_ifs at h with hlookup
  · cases h
  · cases h
    exact ⟨place, by simpa using hlookup, rfl⟩

theorem set_directory_spec {fs : FileSystem} {place : Place} (h : fs.lookup place = none) :
    Grows fs (fs.set place .directory) ∧ (fs.set place .directory).file? = fs.file? :=
  ⟨.set (by simp [h]) _, file?_set_directory h⟩

theorem createMissing_spec (fs : FileSystem) (place : Place) (segments : List String) :
    Grows fs (fs.createMissing place segments).2 ∧
      (fs.createMissing place segments).2.file? = fs.file? := by
  induction segments generalizing fs place with
  | nil => exact ⟨.refl fs, rfl⟩
  | cons segment segments ih =>
      rw [createMissing]
      cases hstep : step place segment with
      | error e => exact ⟨.refl fs, rfl⟩
      | ok next =>
          simp only
          cases hlookup : fs.lookup next with
          | none =>
              obtain ⟨hgrows, hfiles⟩ := set_directory_spec hlookup
              obtain ⟨hgrows', hfiles'⟩ := ih (fs.set next .directory) next
              exact ⟨hgrows.trans hgrows', hfiles'.trans hfiles⟩
          | some entry =>
              cases entry with
              | directory => exact ih fs next
              | file content => exact ⟨.refl fs, rfl⟩

/-- Creating directories changes no file, whether it succeeds or not. -/
theorem createDirs_spec (fs : FileSystem) (p : Path) :
    Grows fs (fs.createDirs p).2 ∧ (fs.createDirs p).2.file? = fs.file? := by
  unfold createDirs
  split
  · exact ⟨.refl fs, rfl⟩
  · split
    · rename_i after hcreate
      obtain ⟨place, hlookup, rfl⟩ := createDir_eq_ok hcreate
      exact set_directory_spec hlookup
    · split
      · exact createMissing_spec fs _ _
      · exact ⟨.refl fs, rfl⟩
    · exact ⟨.refl fs, rfl⟩

end FastSchema.Disk.FileSystem
