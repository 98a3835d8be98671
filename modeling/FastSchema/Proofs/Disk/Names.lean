import FastSchema.Compiler
import FastSchema.Proofs.Disk.Growth

/-! # Where files in a directory lie

The place that a path leads to ends in the last name of the path. So two files of different names
never lie at one place, whatever the directory is. -/

namespace FastSchema.Disk

/-! ## Segments -/

namespace Path

theorem splitSlash_ne_nil (cs : List Char) : splitSlash cs ≠ [] := by
  cases cs with
  | nil => simp [splitSlash]
  | cons c cs =>
      rw [splitSlash]
      split
      · simp
      · split <;> simp

theorem splitSlash_cons_of_ne {c : Char} (h : c ≠ '/') {cs part : List Char}
    {parts : List (List Char)} (hparts : splitSlash cs = part :: parts) :
    splitSlash (c :: cs) = (c :: part) :: parts := by
  rw [splitSlash, if_neg h, hparts]

/-- No slash is left in a part. -/
theorem slash_notMem_of_mem_splitSlash {cs part : List Char} (h : part ∈ splitSlash cs) :
    '/' ∉ part := by
  induction cs generalizing part with
  | nil =>
      obtain rfl : part = [] := by simpa [splitSlash] using h
      simp
  | cons c cs ih =>
      by_cases hc : c = '/'
      · rw [splitSlash, if_pos hc, List.mem_cons] at h
        rcases h with rfl | h
        · simp
        · exact ih h
      · obtain ⟨first, parts, hparts⟩ := List.exists_cons_of_ne_nil (splitSlash_ne_nil cs)
        rw [splitSlash_cons_of_ne hc hparts, List.mem_cons] at h
        have hfirst : '/' ∉ first := ih (by simp [hparts])
        rcases h with rfl | h
        · simp [Ne.symm hc, hfirst]
        · exact ih (by simp [hparts, h])

theorem splitSlash_of_notMem {cs : List Char} (h : '/' ∉ cs) : splitSlash cs = [cs] := by
  induction cs with
  | nil => rfl
  | cons c cs ih =>
      rw [List.mem_cons, not_or] at h
      exact splitSlash_cons_of_ne (Ne.symm h.1) (ih h.2)

theorem splitSlash_append_slash (cs cs' : List Char) :
    splitSlash (cs ++ '/' :: cs') = splitSlash cs ++ splitSlash cs' := by
  induction cs with
  | nil => simp [splitSlash]
  | cons c cs ih =>
      by_cases hc : c = '/'
      · simp [splitSlash, hc, ih]
      · obtain ⟨first, parts, hparts⟩ := List.exists_cons_of_ne_nil (splitSlash_ne_nil cs)
        rw [hparts, List.cons_append] at ih
        rw [List.cons_append, splitSlash_cons_of_ne hc ih, splitSlash_cons_of_ne hc hparts,
          List.cons_append]

/-- A segment that leads from a directory to an entry in it. -/
structure IsName (name : String) : Prop where
  noSlash : '/' ∉ name.toList
  notIdle : ¬ isIdle name
  notUp : name ≠ ".."

theorem getLast?_segments_of_slash {p : Path} {before name : List Char}
    (hp : p.text.toList = before ++ '/' :: name) (hname : '/' ∉ name) :
    p.segments.getLast? = some (String.ofList name) := by
  have hlast (cs : List Char) :
      ((splitSlash (cs ++ '/' :: name)).map String.ofList).getLast? =
        some (String.ofList name) := by
    simp [splitSlash_append_slash, splitSlash_of_notMem hname]
  unfold segments
  simp only [hp]
  split
  · cases before with
    | nil => simp [splitSlash_of_notMem hname]
    | cons c before => exact hlast before
  · exact hlast before

/-- The path to a file in a directory ends in the name of the file. -/
theorem getLast?_segments_join (directory : Path) {name : String} (h : IsName name) :
    (directory.join ⟨name⟩).segments.getLast? = some name := by
  have hname : String.ofList name.toList = name := String.ofList_toList
  have hrelative : isAbsolute ⟨name⟩ = false := by
    unfold isAbsolute
    cases hlist : name.toList with
    | nil => rfl
    | cons c cs =>
        have hc : c ≠ '/' := by
          rintro rfl
          exact h.noSlash (by simp [hlist])
        simpa using hc
  rw [join, if_neg (by simp [hrelative])]
  split
  case isTrue hend =>
    simp only [Bool.or_eq_true, decide_eq_true_eq] at hend
    rcases hend with hempty | hslash
    · simp only [hempty, String.empty_append]
      simp [segments, hrelative, splitSlash_of_notMem h.noSlash]
    · obtain ⟨before, hbefore⟩ := List.getLast?_eq_some_iff.mp hslash
      have htext : (directory.text ++ name).toList = before ++ '/' :: name.toList := by
        simp [hbefore]
      rw [getLast?_segments_of_slash htext h.noSlash, hname]
  case isFalse =>
    have htext : (directory.text ++ "/" ++ name).toList =
        directory.text.toList ++ '/' :: name.toList := by
      simp
    rw [getLast?_segments_of_slash htext h.noSlash, hname]

end Path

/-! ## Places -/

open Disk.Path (IsName splitSlash splitSlash_append_slash splitSlash_of_notMem)

/-- A place shows the name of the entry that lies there. -/
theorem Place.name_eq_of_child_eq {place place' : Place} {name name' : String}
    (hname : '/' ∉ name.toList) (hname' : '/' ∉ name'.toList)
    (h : place.child name = place'.child name') : name = name' := by
  have hparts (p : Place) {n : String} (hn : '/' ∉ n.toList) :
      (splitSlash (p.child n).text.toList).getLast? = some n.toList := by
    have htext : (p.child n).text.toList = p.text.toList ++ '/' :: n.toList := by
      simp [child]
    rw [htext, splitSlash_append_slash, splitSlash_of_notMem hn, List.getLast?_append]
    rfl
  have hlast := hparts place hname
  rw [h, hparts place' hname'] at hlast
  exact String.toList_injective (Option.some.inj hlast).symm

namespace FileSystem

theorem step_of_isName {place next : Place} {name : String} (h : IsName name)
    (hstep : step place name = .ok next) : next = place.child name := by
  rw [step, if_neg h.notIdle, if_neg h.notUp] at hstep
  split at hstep
  · cases hstep
  · exact (Except.ok.inj hstep).symm

theorem exists_child_of_follow {fs : FileSystem} {place target : Place} {segments : List String}
    {name : String} (hname : IsName name) (hlast : segments.getLast? = some name)
    (h : fs.follow place segments = .ok target) : ∃ directory : Place,
      target = directory.child name := by
  induction segments generalizing place with
  | nil => cases hlast
  | cons segment segments ih =>
      rw [follow] at h
      cases hlookup : fs.lookup place with
      | none => simp [hlookup] at h
      | some entry =>
          cases entry with
          | file content => simp [hlookup] at h
          | directory =>
              simp only [hlookup] at h
              cases hstep : step place segment with
              | error e => simp [hstep] at h
              | ok next =>
                  simp only [hstep] at h
                  cases segments with
                  | nil =>
                      obtain rfl : segment = name := by simpa using hlast
                      obtain rfl : next = target := Except.ok.inj h
                      exact ⟨place, step_of_isName hname hstep⟩
                  | cons segment' segments =>
                      rw [List.getLast?_cons_cons] at hlast
                      exact ih hlast h

/-- Files of different names in a directory lie at different places. -/
theorem name_eq_of_resolve_join {fs : FileSystem} {directory : Path} {name name' : String}
    {place : Place} (hname : IsName name) (hname' : IsName name')
    (h : fs.resolve (directory.join ⟨name⟩) = .ok place)
    (h' : fs.resolve (directory.join ⟨name'⟩) = .ok place) : name = name' := by
  have hchild {n : String} (hn : IsName n)
      (hplace : fs.resolve (directory.join ⟨n⟩) = .ok place) :
      ∃ d : Place, place = d.child n := by
    have hlast := Path.getLast?_segments_join directory hn
    obtain ⟨-, -, -, hfollow⟩ := resolve_eq_ok_iff.mp hplace
    exact exists_child_of_follow hn hlast hfollow
  obtain ⟨d, hd⟩ := hchild hname h
  obtain ⟨d', hd'⟩ := hchild hname' h'
  exact Place.name_eq_of_child_eq hname.noSlash hname'.noSlash (hd.symm.trans hd')

end FileSystem

/-! ## Unit names -/

theorem Path.slash_notMem_of_fileName? {p : Path} {name : String} (h : p.fileName? = some name) :
    '/' ∉ name.toList := by
  unfold fileName? at h
  rw [Option.filter_eq_some_iff] at h
  have hmem : name ∈ p.segments := (List.mem_filter.mp (List.mem_of_getLast? h.1)).1
  unfold segments at hmem
  obtain ⟨part, hpart, rfl⟩ := List.mem_map.mp hmem
  rw [String.toList_ofList]
  exact slash_notMem_of_mem_splitSlash hpart

/-- The name of a unit is part of the name of a file. -/
theorem Path.slash_notMem_of_unitName {p : Path} {unit : String} (h : p.unitName = .ok unit) :
    '/' ∉ unit.toList := by
  unfold unitName at h
  split at h
  case h_1 found hstem =>
    obtain rfl : found = unit := Except.ok.inj h
    unfold stem? at hstem
    obtain ⟨name, hfile, hname⟩ := Option.map_eq_some_iff.mp hstem
    have hslash : '/' ∉ name.toList := slash_notMem_of_fileName? hfile
    dsimp only at hname
    split at hname
    · exact hname ▸ hslash
    · subst hname
      rw [String.toList_ofList, List.mem_reverse]
      intro hmem
      have hmem := (List.dropWhile_sublist _).mem (List.mem_of_mem_drop hmem)
      exact hslash (List.mem_reverse.mp hmem)
  case h_2 => cases h

end FastSchema.Disk
