import FastSchema.Proofs.Cpp.FrameSteps

/-! # Matching the openings and closings of frames

A run of steps may close more frames than it opens, or leave some of them open. Which frame is the
innermost before a step is read off the steps alone: it is the last one opened such that, since
then, whatever was opened has been closed again. -/

namespace FastSchema.Cpp.FrameStack

/-! ## Levels -/

/-- The number of frames that are open after the steps, where `n` are open before them. There is
none if a frame is closed while no frame is open. -/
def level : Nat → List Step → Option Nat
  | n, [] => some n
  | n, .openFrame :: steps => level (n + 1) steps
  | n, .append _ :: steps => level n steps
  | 0, .closeFrame :: _ => none
  | n + 1, .closeFrame :: steps => level n steps

theorem level_append (n : Nat) (first rest : List Step) :
    level n (first ++ rest) = (level n first).bind fun m => level m rest := by
  induction first generalizing n with
  | nil => rfl
  | cons step first ih =>
      cases step with
      | openFrame => exact ih (n + 1)
      | append entry => exact ih n
      | closeFrame =>
          cases n with
          | zero => rfl
          | succ n => exact ih n

theorem level_add {n m : Nat} {steps : List Step} (h : level n steps = some m) (k : Nat) :
    level (n + k) steps = some (m + k) := by
  induction steps generalizing n with
  | nil =>
      obtain rfl := Option.some.inj h
      rfl
  | cons step steps ih =>
      cases step with
      | openFrame =>
          have hsteps := ih (n := n + 1) h
          rw [Nat.add_right_comm] at hsteps
          exact hsteps
      | append entry => exact ih (n := n) h
      | closeFrame =>
          cases n with
          | zero => cases h
          | succ n =>
              rw [Nat.add_right_comm]
              exact ih (n := n) h

/-- Every frame that the steps open is closed by them, and no other frame is. -/
def Balanced (steps : List Step) : Prop := level 0 steps = some 0

instance (steps : List Step) : Decidable (Balanced steps) := inferInstanceAs (Decidable (_ = _))

theorem Balanced.level_eq {steps : List Step} (h : Balanced steps) (n : Nat) :
    level n steps = some n := by
  have hadd := level_add h n
  rwa [Nat.zero_add] at hadd

theorem balanced_append_entry_iff {steps : List Step} {entry : Entry} :
    Balanced (steps ++ [.append entry]) ↔ Balanced steps := by
  rw [Balanced, level_append, Balanced]
  cases level 0 steps <;> rfl

/-- A frame after balanced steps, with balanced steps in it. -/
theorem Balanced.frame {outer inner : List Step} (h : Balanced outer) (h' : Balanced inner) :
    Balanced (outer ++ .openFrame :: (inner ++ [.closeFrame])) := by
  rw [Balanced, level_append, h]
  change level 1 (inner ++ [.closeFrame]) = some 0
  rw [level_append, h'.level_eq 1]
  rfl

theorem eq_of_level_closeFrame {n m : Nat} (h : level m [.closeFrame] = some n) : m = n + 1 := by
  cases m with
  | zero => cases h
  | succ m => exact congrArg Nat.succ (Option.some.inj h)

/-- Where a frame is left open, the last such frame has been opened before balanced steps. -/
theorem exists_openFrame {steps : List Step} {n : Nat} (h : level 0 steps = some (n + 1)) :
    ∃ outer inner, steps = outer ++ .openFrame :: inner ∧ level 0 outer = some n ∧
      Balanced inner := by
  induction hlength : steps.length using Nat.strongRecOn generalizing steps n with
  | ind length ih =>
      obtain rfl | ⟨front, last, rfl⟩ := steps.eq_nil_or_concat
      · cases h
      · rw [List.concat_eq_append] at h hlength ⊢
        rw [level_append] at h
        obtain ⟨m, hfront, hlast⟩ := Option.bind_eq_some_iff.mp h
        rw [List.length_append, List.length_singleton] at hlength
        cases last with
        | openFrame =>
            have hm : m = n := Nat.succ.inj (Option.some.inj hlast)
            exact ⟨front, [], rfl, hm ▸ hfront, rfl⟩
        | append entry =>
            have hm : m = n + 1 := Option.some.inj hlast
            obtain ⟨outer, inner, rfl, houter, hinner⟩ :=
              ih front.length (by omega) (hm ▸ hfront) rfl
            exact ⟨outer, inner ++ [.append entry], by simp, houter,
              balanced_append_entry_iff.mpr hinner⟩
        | closeFrame =>
            -- The frame that is closed here is the last one left open by the steps before, and the
            -- one that is looked for is the last one left open before that frame was opened.
            have hm : m = n + 2 := eq_of_level_closeFrame hlast
            obtain ⟨outer, inner, rfl, houter, hinner⟩ :=
              ih front.length (by omega) (hm ▸ hfront) rfl
            simp only [List.length_append, List.length_cons] at hlength
            obtain ⟨around, between, rfl, haround, hbetween⟩ :=
              ih outer.length (by omega) houter rfl
            exact ⟨around, between ++ .openFrame :: (inner ++ [.closeFrame]), by simp, haround,
              hbetween.frame hinner⟩

/-! ## The innermost frame -/

def between (steps : List Step) (o i : Nat) : List Step := (steps.take i).drop (o + 1)

/-- Of the frames that are open before step `i`, the innermost is the one opened by step `o`. -/
def Innermost (steps : List Step) (o i : Nat) : Prop :=
  steps[o]? = some .openFrame ∧ o < i ∧ Balanced (between steps o i)

/-- Step `c` closes the frame opened by step `o`. -/
def Closes (steps : List Step) (o c : Nat) : Prop :=
  steps[c]? = some .closeFrame ∧ Innermost steps o c

instance (step : Option Step) : Decidable (step = some .openFrame) :=
  match step with
  | some .openFrame => isTrue rfl
  | some (.append _) | some .closeFrame | none => isFalse nofun

instance (step : Option Step) : Decidable (step = some .closeFrame) :=
  match step with
  | some .closeFrame => isTrue rfl
  | some (.append _) | some .openFrame | none => isFalse nofun

instance (steps : List Step) (o i : Nat) : Decidable (Innermost steps o i) :=
  inferInstanceAs (Decidable (_ ∧ _ ∧ _))

instance (steps : List Step) (o c : Nat) : Decidable (Closes steps o c) :=
  inferInstanceAs (Decidable (_ ∧ _))

variable {steps : List Step} {o i : Nat}

theorem between_succ_self (steps : List Step) (i : Nat) : between steps i (i + 1) = [] := by
  apply List.drop_eq_nil_of_le
  exact List.length_take_le (i + 1) steps

theorem between_eq_append {m : Nat} {step : Step} (ho : o < m) (hm : m < i)
    (hstep : steps[m]? = some step) :
    between steps o i = between steps o m ++ step :: between steps m i := by
  have hget : (steps.take i)[m]? = some step := by rwa [List.getElem?_take_of_lt hm]
  obtain ⟨hlt, hvalue⟩ := List.getElem?_eq_some_iff.mp hget
  have hfront : (steps.take i).take m = steps.take m := by
    rw [List.take_take, Nat.min_eq_left (Nat.le_of_lt hm)]
  have hlength : o + 1 ≤ ((steps.take i).take m).length := by
    rw [List.length_take]
    omega
  calc (steps.take i).drop (o + 1)
      = ((steps.take i).take m ++ (steps.take i).drop m).drop (o + 1) := by
        rw [List.take_append_drop]
    _ = ((steps.take i).take m).drop (o + 1) ++ (steps.take i).drop m :=
        List.drop_append_of_le_length hlength
    _ = between steps o m ++ step :: between steps m i := by
        rw [hfront, List.drop_eq_getElem_cons hlt, hvalue]
        rfl

theorem between_succ {step : Step} (ho : o < i) (hstep : steps[i]? = some step) :
    between steps o (i + 1) = between steps o i ++ [step] := by
  rw [between_eq_append ho (Nat.lt_succ_self i) hstep, between_succ_self]

/-- A step between two others has a position. -/
theorem exists_between_of_eq_append {outer inner : List Step} {step : Step}
    (h : between steps o i = outer ++ step :: inner) :
    ∃ m, o < m ∧ m < i ∧ steps[m]? = some step ∧ between steps o m = outer ∧
      between steps m i = inner := by
  have hget : (between steps o i)[outer.length]? = some step := by rw [h]; simp
  rw [between, List.getElem?_drop, List.getElem?_take] at hget
  have hi : o + 1 + outer.length < i := by
    by_cases hi : o + 1 + outer.length < i
    · exact hi
    · rw [if_neg hi] at hget
      cases hget
  rw [if_pos hi] at hget
  have ho : o < o + 1 + outer.length := by omega
  have hsplit := between_eq_append ho hi hget
  have hlength : (between steps o (o + 1 + outer.length)).length = outer.length := by
    have hbound := (List.getElem?_eq_some_iff.mp hget).1
    rw [between, List.length_drop, List.length_take]
    omega
  obtain ⟨houter, hinner⟩ := List.append_inj (hsplit.symm.trans h) hlength
  exact ⟨_, ho, hi, hget, houter, (List.cons.inj hinner).2⟩

theorem Innermost.unique {o' : Nat} (h : Innermost steps o i) (h' : Innermost steps o' i) :
    o = o' := by
  have hnot : ∀ {p q : Nat}, Innermost steps p i → Innermost steps q i → ¬ p < q := by
    intro p q hp hq hlt
    have hbalanced := hp.2.2
    rw [between_eq_append hlt hq.2.1 hq.1, Balanced, level_append] at hbalanced
    obtain ⟨m, -, hlevel⟩ := Option.bind_eq_some_iff.mp hbalanced
    change level (m + 1) (between steps q i) = some 0 at hlevel
    rw [hq.2.2.level_eq] at hlevel
    cases hlevel
  have hle := hnot h h'
  have hge := hnot h' h
  omega

/-- A frame that is opened is the innermost. -/
theorem innermost_succ_of_openFrame (hstep : steps[i]? = some .openFrame) :
    Innermost steps o (i + 1) ↔ o = i := by
  have hself : Innermost steps i (i + 1) := by
    refine ⟨hstep, Nat.lt_succ_self i, ?_⟩
    rw [between_succ_self]
    rfl
  constructor
  · intro h
    exact h.unique hself
  · rintro rfl
    exact hself

theorem Innermost.lt_of_succ {step : Step} (h : Innermost steps o (i + 1))
    (hstep : steps[i]? = some step) (hne : step ≠ .openFrame) : o < i := by
  have hoi : o ≠ i := by
    rintro rfl
    exact hne (Option.some.inj (hstep.symm.trans h.1))
  have hlt := h.2.1
  omega

/-- Adding an entry neither opens nor closes a frame. -/
theorem innermost_succ_of_append {entry : Entry} (hstep : steps[i]? = some (.append entry)) :
    Innermost steps o (i + 1) ↔ Innermost steps o i := by
  constructor
  · intro h
    have ho := h.lt_of_succ hstep nofun
    have hbalanced := h.2.2
    rw [between_succ ho hstep, balanced_append_entry_iff] at hbalanced
    exact ⟨h.1, ho, hbalanced⟩
  · rintro ⟨hopens, ho, hbalanced⟩
    refine ⟨hopens, by omega, ?_⟩
    rw [between_succ ho hstep, balanced_append_entry_iff]
    exact hbalanced

/-- A frame that becomes the innermost because another one is closed was the innermost when that one
was opened. -/
theorem exists_innermost_of_closeFrame (hstep : steps[i]? = some .closeFrame)
    (h : Innermost steps o (i + 1)) : ∃ p, Innermost steps p i ∧ Innermost steps o p := by
  have hbalanced := h.2.2
  rw [between_succ (h.lt_of_succ hstep nofun) hstep, Balanced, level_append] at hbalanced
  obtain ⟨m, hlevel, hlast⟩ := Option.bind_eq_some_iff.mp hbalanced
  have hm : m = 0 + 1 := eq_of_level_closeFrame hlast
  obtain ⟨outer, inner, hsplit, houter, hinner⟩ := exists_openFrame (hm ▸ hlevel)
  obtain ⟨p, hop, hpi, hopened, rfl, rfl⟩ := exists_between_of_eq_append hsplit
  exact ⟨p, ⟨hopened, hpi, hinner⟩, h.1, hop, houter⟩

/-- Where the innermost frame is closed, the one that was the innermost before it was opened is the
innermost again. -/
theorem innermost_succ_of_closes {p : Nat} (h : Closes steps p i) :
    Innermost steps o (i + 1) ↔ Innermost steps o p := by
  obtain ⟨hstep, hp⟩ := h
  constructor
  · intro ho
    obtain ⟨q, hq, hoq⟩ := exists_innermost_of_closeFrame hstep ho
    rwa [hp.unique hq]
  · rintro ⟨hopens, hop, hbalanced⟩
    obtain ⟨hopened, hpi, hinner⟩ := hp
    refine ⟨hopens, by omega, ?_⟩
    rw [between_eq_append hop (by omega) hopened, between_succ hpi hstep]
    exact hbalanced.frame hinner

/-- Once a frame has been closed it is never the innermost again. -/
theorem Closes.le_of_innermost {c : Nat} (h : Closes steps o c) (hi : Innermost steps o i) :
    i ≤ c := by
  apply Nat.le_of_not_lt
  intro hlt
  have hbalanced := hi.2.2
  rw [between_eq_append h.2.2.1 hlt h.1, Balanced, level_append, h.2.2.2] at hbalanced
  cases hbalanced

theorem Closes.unique {c c' : Nat} (h : Closes steps o c) (h' : Closes steps o c') : c = c' := by
  have hle := h.le_of_innermost h'.2
  have hge := h'.le_of_innermost h.2
  omega

end FastSchema.Cpp.FrameStack
