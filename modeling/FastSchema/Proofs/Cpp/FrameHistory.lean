import FastSchema.Proofs.Cpp.FrameMatching
import Mathlib.Data.List.Nodup

/-! # Histories of frames

What the open frames hold, and what closing a frame answers, is known from the steps that were
taken: a frame has the entries that were added while it was the innermost. Steps, and with them the
frames that they open and the entries that they add, are told apart by their positions. -/

namespace FastSchema.Cpp.FrameStack

/-- The frames before step `i`. -/
def before (steps : List Step) (i : Nat) : FrameStack := run (steps.take i)

def entryAt? (steps : List Step) (a : Nat) : Option Entry := steps[a]?.bind Step.entry?

/-- The steps before step `i` that add an entry while the frame opened by step `o` is the
innermost. -/
def added (steps : List Step) (i o : Nat) : List Nat :=
  (List.range i).filter fun a => (entryAt? steps a).isSome ∧ Innermost steps o a

/-- The entries of these steps, in the order of the steps. -/
def contents (steps : List Step) (i o : Nat) : List Entry :=
  (added steps i o).filterMap (entryAt? steps)

/-- The frame opened by step `o` has not been closed before step `i`. -/
def OpenBefore (steps : List Step) (i o : Nat) : Prop :=
  steps[o]? = some .openFrame ∧ ∀ c < i, ¬ Closes steps o c

instance (steps : List Step) (i o : Nat) : Decidable (OpenBefore steps i o) :=
  inferInstanceAs (Decidable (_ ∧ _))

/-- The steps that open the frames which are open before step `i`, the innermost first. -/
def opened (steps : List Step) (i : Nat) : List Nat :=
  ((List.range i).filter fun o => OpenBefore steps i o).reverse

/-! ## One step -/

variable {steps : List Step} {i o : Nat}

theorem before_succ {step : Step} (hstep : steps[i]? = some step) :
    before steps (i + 1) = (before steps i).apply step := by
  rw [before, List.take_add_one, hstep, run, List.foldl_append]
  rfl

theorem entryAt?_of_getElem? {step : Step} (hstep : steps[i]? = some step) :
    entryAt? steps i = step.entry? := by
  rw [entryAt?, hstep, Option.bind_some]

theorem added_succ (steps : List Step) (i o : Nat) : added steps (i + 1) o =
    added steps i o ++
      if (entryAt? steps i).isSome ∧ Innermost steps o i then [i] else [] := by
  rw [added, List.range_succ, List.filter_append, List.filter_cons, List.filter_nil, added]
  simp only [decide_eq_true_eq]

theorem contents_succ (steps : List Step) (i o : Nat) : contents steps (i + 1) o =
    contents steps i o ++ if Innermost steps o i then (entryAt? steps i).toList else [] := by
  rw [contents, added_succ, List.filterMap_append, contents]
  by_cases h : Innermost steps o i <;> cases hentry : entryAt? steps i <;> simp [h, hentry]

theorem contents_succ_of_not_innermost (h : ¬ Innermost steps o i) :
    contents steps (i + 1) o = contents steps i o := by
  rw [contents_succ, if_neg h, List.append_nil]

theorem contents_succ_of_entryAt?_eq_none (h : entryAt? steps i = none) (o : Nat) :
    contents steps (i + 1) o = contents steps i o := by
  rw [contents_succ, h, Option.toList_none, ite_self, List.append_nil]

theorem openBefore_succ :
    OpenBefore steps (i + 1) o ↔ ¬ Closes steps o i ∧ OpenBefore steps i o := by
  rw [OpenBefore, OpenBefore, Nat.forall_lt_succ_right]
  constructor
  · rintro ⟨hopens, hearlier, hlast⟩
    exact ⟨hlast, hopens, hearlier⟩
  · rintro ⟨hlast, hopens, hearlier⟩
    exact ⟨hopens, hearlier, hlast⟩

theorem openBefore_succ_self : OpenBefore steps (i + 1) i ↔ steps[i]? = some .openFrame := by
  constructor
  · exact And.left
  · intro hstep
    refine ⟨hstep, fun c hc hcloses => ?_⟩
    have hlt := hcloses.2.2.1
    omega

theorem opened_succ (steps : List Step) (i : Nat) : opened steps (i + 1) =
    (if steps[i]? = some .openFrame then [i] else []) ++
      (opened steps i).filter fun o => ¬ Closes steps o i := by
  rw [opened, List.range_succ, List.filter_append, List.reverse_append, opened,
    List.filter_reverse, List.filter_filter, List.filter_cons, List.filter_nil]
  simp only [openBefore_succ_self, openBefore_succ, Bool.decide_and, decide_eq_true_eq]
  by_cases h : steps[i]? = some .openFrame <;> simp [h]

/-! ## Open frames -/

/-- The frames opened by the steps `os` are open before step `i`, the innermost first: each was the
innermost when the one inside it was opened. -/
def Nested (steps : List Step) : Nat → List Nat → Prop
  | i, [] => ∀ o, ¬ Innermost steps o i
  | i, o :: os => Innermost steps o i ∧ Nested steps o os

theorem Nested.congr {j : Nat} {os : List Nat} (h : Nested steps i os)
    (hsame : ∀ o, Innermost steps o j ↔ Innermost steps o i) : Nested steps j os := by
  cases os with
  | nil =>
      intro o ho
      exact h o ((hsame o).mp ho)
  | cons o os => exact ⟨(hsame o).mpr h.1, h.2⟩

theorem Nested.head?_eq_some_iff {os : List Nat} (h : Nested steps i os) :
    os.head? = some o ↔ Innermost steps o i := by
  cases os with
  | nil => simpa using h o
  | cons p os =>
      rw [List.head?_cons, Option.some.injEq]
      constructor
      · rintro rfl
        exact h.1
      · exact h.1.unique

theorem Nested.lt_of_mem {os : List Nat} (h : Nested steps i os) (ho : o ∈ os) : o < i := by
  induction os generalizing i with
  | nil => cases ho
  | cons p os ih =>
      have hp := h.1.2.1
      rcases List.mem_cons.mp ho with rfl | hmem
      · exact hp
      · exact Nat.lt_trans (ih h.2 hmem) hp

/-- Only the first of the open frames is the innermost. -/
theorem Nested.not_innermost {p : Nat} {os : List Nat} (h : Nested steps i (p :: os))
    (ho : o ∈ os) : ¬ Innermost steps o i := by
  intro hinnermost
  have hlt := h.2.lt_of_mem ho
  have heq := h.1.unique hinnermost
  omega

theorem not_closes {step : Step} (hstep : steps[i]? = some step) (hne : step ≠ .closeFrame)
    (o : Nat) : ¬ Closes steps o i := by
  intro hcloses
  exact hne (Option.some.inj (hstep.symm.trans hcloses.1))

theorem opened_succ_of_openFrame (hstep : steps[i]? = some .openFrame) :
    opened steps (i + 1) = i :: opened steps i := by
  rw [opened_succ, if_pos hstep]
  simp [not_closes hstep nofun]

theorem opened_succ_of_append {entry : Entry} (hstep : steps[i]? = some (.append entry)) :
    opened steps (i + 1) = opened steps i := by
  rw [opened_succ]
  simp [not_closes hstep nofun, hstep]

theorem opened_succ_of_closeFrame (hnested : Nested steps i (opened steps i))
    (hstep : steps[i]? = some .closeFrame) : opened steps (i + 1) = (opened steps i).tail := by
  rw [opened_succ, hstep, if_neg (by simp), List.nil_append]
  cases hopened : opened steps i with
  | nil => rfl
  | cons o os =>
      rw [hopened] at hnested
      have hcloses : Closes steps o i := ⟨hstep, hnested.1⟩
      have hrest : os.filter (fun p => ¬ Closes steps p i) = os := by
        apply List.filter_eq_self.mpr
        intro p hp
        have hnot := hnested.not_innermost hp
        simp [Closes, hnot]
      rw [List.filter_cons, if_neg (by simpa using hcloses), hrest, List.tail_cons]

/-- The frames that have not been closed lie in one another. -/
theorem nested_opened (hi : i ≤ steps.length) : Nested steps i (opened steps i) := by
  induction i with
  | zero =>
      intro o ho
      cases ho.2.1
  | succ i ih =>
      have hnested := ih (by omega)
      obtain ⟨step, hstep⟩ : ∃ step, steps[i]? = some step := ⟨_, List.getElem?_eq_getElem hi⟩
      cases step with
      | openFrame =>
          rw [opened_succ_of_openFrame hstep]
          exact ⟨(innermost_succ_of_openFrame hstep).mpr rfl, hnested⟩
      | append entry =>
          rw [opened_succ_of_append hstep]
          exact hnested.congr fun o => innermost_succ_of_append hstep
      | closeFrame =>
          rw [opened_succ_of_closeFrame hnested hstep]
          cases hopened : opened steps i with
          | nil =>
              intro o ho
              obtain ⟨p, hp, -⟩ := exists_innermost_of_closeFrame hstep ho
              rw [hopened] at hnested
              exact hnested p hp
          | cons p os =>
              rw [hopened] at hnested
              exact hnested.2.congr fun o => innermost_succ_of_closes ⟨hstep, hnested.1⟩

/-! ## What they hold -/

/-- The frame opened by step `o`, with what is added to it before step `i`. -/
def frameAt (steps : List Step) (i o : Nat) : Frame := ⟨(contents steps i o).toArray⟩

theorem frameAt_succ_of_entryAt?_eq_none (h : entryAt? steps i = none) :
    frameAt steps (i + 1) = frameAt steps i := by
  funext o
  rw [frameAt, contents_succ_of_entryAt?_eq_none h, frameAt]

theorem frameAt_succ_of_append {entry : Entry} (hstep : steps[i]? = some (.append entry))
    (h : Innermost steps o i) :
    frameAt steps (i + 1) o = ⟨(frameAt steps i o).entries.push entry⟩ := by
  have hentry : entryAt? steps i = some entry := entryAt?_of_getElem? hstep
  rw [frameAt, contents_succ, if_pos h, hentry, frameAt]
  simp

theorem frameAt_self (steps : List Step) (i : Nat) : frameAt steps i i = Frame.empty := by
  have hadded : added steps i i = [] := by
    apply List.filter_eq_nil_iff.mpr
    intro a ha
    have hlt := List.mem_range.mp ha
    have hnot : ¬ Innermost steps i a := fun h => by
      have hopened := h.2.1
      omega
    simp [hnot]
  rw [frameAt, contents, hadded]
  rfl

/-- Before each step, the open frames hold what was added while they were the innermost. -/
theorem frames_before (hi : i ≤ steps.length) :
    (before steps i).frames = (opened steps i).map (frameAt steps i) := by
  induction i with
  | zero => rfl
  | succ i ih =>
      have hframes := ih (by omega)
      have hnested : Nested steps i (opened steps i) := nested_opened (by omega)
      obtain ⟨step, hstep⟩ : ∃ step, steps[i]? = some step := ⟨_, List.getElem?_eq_getElem hi⟩
      cases step with
      | openFrame =>
          have hentry : entryAt? steps i = none := entryAt?_of_getElem? hstep
          rw [before_succ hstep, frames_apply_openFrame, hframes, opened_succ_of_openFrame hstep,
            frameAt_succ_of_entryAt?_eq_none hentry, List.map_cons, frameAt_self]
      | append entry =>
          rw [before_succ hstep, frames_apply_append, hframes, opened_succ_of_append hstep]
          cases hopened : opened steps i with
          | nil => rfl
          | cons o os =>
              rw [hopened] at hnested
              have hrest : os.map (frameAt steps (i + 1)) = os.map (frameAt steps i) := by
                apply List.map_congr_left
                intro p hp
                rw [frameAt, contents_succ_of_not_innermost (hnested.not_innermost hp), frameAt]
              rw [List.map_cons, List.modifyHead_cons, List.map_cons, hrest,
                frameAt_succ_of_append hstep hnested.1]
      | closeFrame =>
          have hentry : entryAt? steps i = none := entryAt?_of_getElem? hstep
          rw [before_succ hstep, frames_apply_closeFrame, hframes,
            opened_succ_of_closeFrame hnested hstep, frameAt_succ_of_entryAt?_eq_none hentry,
            List.map_tail]

/-- Nothing is added to a frame that has been closed. -/
theorem contents_of_closes {c : Nat} (h : Closes steps o c) (hi : c ≤ i) :
    contents steps i o = contents steps c o := by
  induction i with
  | zero =>
      obtain rfl := Nat.le_zero.mp hi
      rfl
  | succ i ih =>
      rcases Nat.le_succ_iff.mp hi with hle | rfl
      · rw [← ih hle]
        by_cases hc : c = i
        · have hentry : entryAt? steps i = none := entryAt?_of_getElem? (hc ▸ h.1)
          exact contents_succ_of_entryAt?_eq_none hentry o
        · apply contents_succ_of_not_innermost
          intro hinnermost
          have hbefore := h.le_of_innermost hinnermost
          omega
      · rfl

theorem mem_added {a : Nat} :
    a ∈ added steps i o ↔ a < i ∧ (entryAt? steps a).isSome ∧ Innermost steps o a := by
  simp [added]

theorem mem_opened : o ∈ opened steps i ↔ o < i ∧ OpenBefore steps i o := by
  simp [opened]

theorem nodup_opened (steps : List Step) (i : Nat) : (opened steps i).Nodup := by
  apply List.nodup_reverse.mpr
  exact List.nodup_range.filter _

theorem head?_frames_before (hi : i ≤ steps.length) (f : Frame) :
    (before steps i).frames.head? = some f ↔
      ∃ o, Innermost steps o i ∧ frameAt steps i o = f := by
  rw [frames_before hi, List.head?_map, Option.map_eq_some_iff]
  simp only [(nested_opened hi).head?_eq_some_iff]

/-! ## Histories -/

/-- Step `c` closes a frame, and its answer has the entry that step `a` has added. -/
def ReturnedBy (steps : List Step) (a c : Nat) : Prop :=
  ∃ o, Closes steps o c ∧ a ∈ added steps steps.length o

/-- Of the frames that stay open, counted from the innermost on, frame `k` has the entry that step
`a` has added. -/
def StaysIn (steps : List Step) (a k : Nat) : Prop :=
  ∃ o, (opened steps steps.length)[k]? = some o ∧ a ∈ added steps steps.length o

/-- What the steps answer and leave, where no frame is open at first. An entry that is added is in
the answer of exactly one step, or else in exactly one of the frames that stay open; a step that
fails changes nothing. -/
structure HistorySpec (steps : List Step) : Prop where
  innermost_unique : ∀ i o o', Innermost steps o i → Innermost steps o' i → o = o'
  append_ok_iff : ∀ a entry, steps[a]? = some (.append entry) →
    (((before steps a).append entry).1 = .ok () ↔ ∃ o, Innermost steps o a)
  close_ok_iff : ∀ c f, steps[c]? = some .closeFrame →
    ((before steps c).closeFrame.1 = .ok f ↔ ∃ o, Innermost steps o c ∧
      f.symbols = (contents steps steps.length o).map Entry.symbol ∧
      f.records = (contents steps steps.length o).map Entry.record)
  append_error : ∀ a entry fault, steps[a]? = some (.append entry) →
    ((before steps a).append entry).1 = .error fault →
      fault = .internal (.noOpenFrame entry.symbol) ∧ before steps (a + 1) = before steps a
  close_error : ∀ c fault, steps[c]? = some .closeFrame →
    (before steps c).closeFrame.1 = .error fault →
      fault = .internal .noFrameToClose ∧ before steps (c + 1) = before steps c
  frames_eq : (run steps).frames =
    (opened steps steps.length).map (frameAt steps steps.length)
  kept : ∀ a entry, steps[a]? = some (.append entry) →
    ((before steps a).append entry).1 = .ok () →
      ((∃! c, ReturnedBy steps a c) ∧ ∀ k, ¬ StaysIn steps a k) ∨
        ((∀ c, ¬ ReturnedBy steps a c) ∧ ∃! k, StaysIn steps a k)
  perm : (along taken empty steps).Perm (along answered empty steps ++ (run steps).entries)

theorem append_ok_iff_innermost {a : Nat} {entry : Entry}
    (hstep : steps[a]? = some (.append entry)) :
    ((before steps a).append entry).1 = .ok () ↔ ∃ o, Innermost steps o a := by
  have ha : a ≤ steps.length := Nat.le_of_lt (List.getElem?_eq_some_iff.mp hstep).1
  rw [append_ok_iff]
  simp only [head?_frames_before ha]
  constructor
  · rintro ⟨_, o, ho, -⟩
    exact ⟨o, ho⟩
  · rintro ⟨o, ho⟩
    exact ⟨_, o, ho, rfl⟩

theorem closeFrame_ok_iff_innermost {c : Nat} (hstep : steps[c]? = some .closeFrame) (f : Frame) :
    (before steps c).closeFrame.1 = .ok f ↔
      ∃ o, Innermost steps o c ∧ f = frameAt steps steps.length o := by
  have hc : c ≤ steps.length := Nat.le_of_lt (List.getElem?_eq_some_iff.mp hstep).1
  rw [closeFrame_ok_iff, head?_frames_before hc]
  refine exists_congr fun o => and_congr_right fun ho => ?_
  rw [frameAt, frameAt, contents_of_closes ⟨hstep, ho⟩ hc]
  exact eq_comm

/-- What is added to a frame is in the answer of the one step that closes the frame, or else in the
frame, which stays open. -/
theorem kept_of_innermost {a : Nat} {entry : Entry} (hstep : steps[a]? = some (.append entry))
    (ho : Innermost steps o a) :
    ((∃! c, ReturnedBy steps a c) ∧ ∀ k, ¬ StaysIn steps a k) ∨
      ((∀ c, ¬ ReturnedBy steps a c) ∧ ∃! k, StaysIn steps a k) := by
  have ha : a < steps.length := (List.getElem?_eq_some_iff.mp hstep).1
  have hentry : (entryAt? steps a).isSome := by rw [entryAt?_of_getElem? hstep]; rfl
  have hadded (p : Nat) : a ∈ added steps steps.length p ↔ p = o := by
    rw [mem_added]
    constructor
    · rintro ⟨-, -, hp⟩
      exact hp.unique ho
    · rintro rfl
      exact ⟨ha, hentry, ho⟩
  by_cases hclosed : ∃ c, Closes steps o c
  · obtain ⟨c, hc⟩ := hclosed
    refine .inl ⟨⟨c, ⟨o, hc, (hadded o).mpr rfl⟩, ?_⟩, ?_⟩
    · rintro c' ⟨p, hp, hmem⟩
      obtain rfl := (hadded p).mp hmem
      exact hp.unique hc
    · rintro k ⟨p, hk, hmem⟩
      obtain rfl := (hadded p).mp hmem
      have hlength : c < steps.length := (List.getElem?_eq_some_iff.mp hc.1).1
      exact (mem_opened.mp (List.mem_of_getElem? hk)).2.2 c hlength hc
  · have hopen : o ∈ opened steps steps.length :=
      mem_opened.mpr ⟨Nat.lt_trans ho.2.1 ha, ho.1, fun c _ hc => hclosed ⟨c, hc⟩⟩
    obtain ⟨k, hk⟩ := List.getElem?_of_mem hopen
    refine .inr ⟨?_, ⟨k, ⟨o, hk, (hadded o).mpr rfl⟩, ?_⟩⟩
    · rintro c ⟨p, hp, hmem⟩
      obtain rfl := (hadded p).mp hmem
      exact hclosed ⟨c, hp⟩
    · rintro k' ⟨p, hk', hmem⟩
      obtain rfl := (hadded p).mp hmem
      have hlt : k' < (opened steps steps.length).length :=
        (List.getElem?_eq_some_iff.mp hk').1
      exact (List.getElem?_inj hlt (nodup_opened steps steps.length)).mp (hk'.trans hk.symm)

/-- Entries are neither lost nor doubled, however frames are opened and closed. -/
theorem history_spec (steps : List Step) : HistorySpec steps where
  innermost_unique _ _ _ h h' := h.unique h'
  append_ok_iff _ _ hstep := append_ok_iff_innermost hstep
  close_ok_iff c f hstep := by
    rw [closeFrame_ok_iff_innermost hstep]
    simp only [frameAt, Frame.eq_mk_iff]
  append_error a entry fault hstep h := by
    obtain ⟨hfault, hsame⟩ := append_eq_error h
    exact ⟨hfault, (before_succ hstep).trans hsame⟩
  close_error c fault hstep h := by
    obtain ⟨hfault, hsame⟩ := closeFrame_eq_error h
    exact ⟨hfault, (before_succ hstep).trans hsame⟩
  frames_eq := by
    have hframes := frames_before (Nat.le_refl steps.length)
    rwa [before, List.take_length] at hframes
  kept a entry hstep h := by
    obtain ⟨o, ho⟩ := (append_ok_iff_innermost hstep).mp h
    exact kept_of_innermost hstep ho
  perm := perm_run steps

/-- The first step fails. The frame that is opened by the second one is the innermost before and
after the other one is open, and it stays open. -/
example (entry : Entry) :
    let steps := [.closeFrame, .openFrame, .append entry, .openFrame, .append entry, .closeFrame,
      .append entry]
    (added steps 7 1, added steps 7 3, opened steps 7) = ([2, 6], [4], [1]) := rfl

end FastSchema.Cpp.FrameStack
