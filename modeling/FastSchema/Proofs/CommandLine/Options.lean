import FastSchema.CommandLine.Options
import Mathlib.Tactic.SplitIfs

/-! # Arguments that do not depend on each other

An argument is complete, takes the next one as its value, or ends the options. What arguments set
does not depend on a flag that is not among them, so the flag may be put wherever an option may
stand. -/

namespace FastSchema.CommandLine.Options

/-! ## One argument after the other -/

theorem splitValue_eq_none {argument option : String}
    (h : splitValue argument.toList = (option, none)) : option = argument := by
  unfold splitValue at h
  rw [Prod.mk.injEq] at h
  obtain ⟨hoption, hvalue⟩ := h
  have hrest : argument.toList.dropWhile (· ≠ '=') = [] := by
    split at hvalue
    case h_1 => cases hvalue
    case h_2 hdrop => exact hdrop
  have hall := List.takeWhile_append_dropWhile (p := (· ≠ '=')) (l := argument.toList)
  rw [hrest, List.append_nil] at hall
  rw [← hoption, hall, String.ofList_toList]

theorem takesValue_iff {argument : String} :
    takesValue argument ↔ argument = "--manifest" ∨ argument = "--out-dir" := by
  simp [takesValue]

theorem parse_end (o : Options) (rest : List String) :
    o.parse ("--" :: rest) = o.addInputs rest := by
  rw [parse, if_pos rfl]

/-- An argument that is complete is taken in before the others. -/
theorem parse_cons {argument : String} (hend : argument ≠ "--") (hvalue : ¬ takesValue argument)
    (o : Options) (rest : List String) :
    o.parse (argument :: rest) = o.parse [argument] >>= fun o => o.parse rest := by
  rw [parse, parse, if_neg hend, if_neg hend]
  split
  case h_1 tail hlist =>
    rcases hsplit : splitValue argument.toList with ⟨option, _ | value⟩
    · obtain rfl : option = argument := splitValue_eq_none hsplit
      simp only [if_neg hvalue]
      cases o.setFlag option <;> rfl
    · simp only
      split_ifs
      · cases o.setValue option value <;> rfl
      · rfl
      · rfl
  case h_2 c cs hne hlist => cases o.setShort (c :: cs) <;> rfl
  case h_3 hne hne' => cases o.addInput argument <;> rfl

theorem parse_singleton {argument : String} (hvalue : takesValue argument) (o : Options) :
    o.parse [argument] = .error (.missingValue argument) := by
  rcases takesValue_iff.mp hvalue with rfl | rfl <;> rfl

theorem parse_cons_value {argument : String} (hvalue : takesValue argument) (o : Options)
    (value : String) (rest : List String) :
    o.parse (argument :: value :: rest) =
      if isOption value then .error (.missingValue argument)
      else o.setValue argument value >>= fun o => o.parse rest := by
  rcases takesValue_iff.mp hvalue with rfl | rfl <;> rfl

/-- Induction along the way in which arguments are taken in. -/
@[elab_as_elim]
theorem arguments_induction {motive : List String → Prop} (nil : motive [])
    (stop : ∀ rest, motive ("--" :: rest))
    (cons : ∀ argument rest, argument ≠ "--" → ¬ takesValue argument → motive rest →
      motive (argument :: rest))
    (alone : ∀ argument, takesValue argument → motive [argument])
    (value : ∀ argument value rest, takesValue argument → motive rest →
      motive (argument :: value :: rest)) : ∀ args, motive args
  | [] => nil
  | [argument] =>
    if hend : argument = "--" then hend ▸ stop []
    else if hvalue : takesValue argument then alone argument hvalue
    else cons argument [] hend hvalue nil
  | argument :: next :: rest =>
    if hend : argument = "--" then hend ▸ stop (next :: rest)
    else if hvalue : takesValue argument then
      value argument next rest hvalue (arguments_induction nil stop cons alone value rest)
    else cons argument (next :: rest) hend hvalue
      (arguments_induction nil stop cons alone value (next :: rest))

/-- Another option may follow: the options have not ended, and none of them lacks its value. -/
def Open (o : Options) (args : List String) : Prop :=
  "--" ∉ args ∧ ∀ option, o.parse args ≠ .error (.missingValue option)

theorem ne_end_of_takesValue {argument : String} (h : takesValue argument) : argument ≠ "--" := by
  rintro rfl
  cases h

theorem parse_append {o : Options} {args : List String} (h : o.Open args) (later : List String) :
    o.parse (args ++ later) = o.parse args >>= fun o => o.parse later := by
  obtain ⟨hend, hvalues⟩ := h
  induction args using arguments_induction generalizing o with
  | nil => rfl
  | stop rest => simp at hend
  | alone argument hvalue => exact (hvalues argument (parse_singleton hvalue o)).elim
  | cons argument rest hne hvalue ih =>
      rw [List.cons_append, parse_cons hne hvalue o (rest ++ later), parse_cons hne hvalue o rest]
      rw [parse_cons hne hvalue] at hvalues
      cases hfirst : o.parse [argument] with
      | error e => rfl
      | ok o' =>
          rw [hfirst] at hvalues
          exact ih (List.not_mem_of_not_mem_cons hend) hvalues
  | value argument value rest hvalue ih =>
      rw [List.cons_append, List.cons_append, parse_cons_value hvalue, parse_cons_value hvalue]
      rw [parse_cons_value hvalue] at hvalues
      split_ifs with hoption
      · rfl
      · rw [if_neg hoption] at hvalues
        cases hset : o.setValue argument value with
        | error e => rfl
        | ok o' =>
            rw [hset] at hvalues
            exact ih (fun hmem => hend (by simp [hmem])) hvalues

/-! ## Flags that are not among the arguments -/

def leading (args : List String) : List String := args.takeWhile (· ≠ "--")

/-- An update that no option but one has to do with. -/
structure Independent (name : String) (update : Options → Options) : Prop where
  addInput : ∀ o path, (update o).addInput path = (o.addInput path).map update
  setValue : ∀ o option value,
    (update o).setValue option value = (o.setValue option value).map update
  setFlag : ∀ o option, option ≠ name →
    (update o).setFlag option = (o.setFlag option).map update

namespace Independent

variable {name : String} {update : Options → Options}

theorem setShort (cs : List Char) (o : Options) :
    (update o).setShort cs = (o.setShort cs).map update := by
  induction cs using setShort.induct with
  | case1 => rfl
  | case2 cs ih => exact ih
  | case3 cs => rfl
  | case4 c cs hv hh => simp only [Options.setShort]; rfl

theorem parse_singleton (h : Independent name update) {argument : String}
    (hend : argument ≠ "--") (hvalue : ¬ takesValue argument) (hne : argument ≠ name)
    (o : Options) : (update o).parse [argument] = (o.parse [argument]).map update := by
  rw [Options.parse, Options.parse, if_neg hend, if_neg hend]
  split
  case h_1 tail hlist =>
    rcases hsplit : splitValue argument.toList with ⟨option, _ | value⟩
    · obtain rfl : option = argument := splitValue_eq_none hsplit
      simp only [if_neg hvalue, h.setFlag o option hne]
      cases o.setFlag option <;> rfl
    · simp only [h.setValue o option value]
      split_ifs
      · cases o.setValue option value <;> rfl
      · rfl
      · rfl
  case h_2 c cs hlong hlist =>
    rw [setShort]
    cases o.setShort (c :: cs) <;> rfl
  case h_3 hlong hshort =>
    rw [h.addInput]
    cases o.addInput argument <;> rfl

theorem addInputs (h : Independent name update) (paths : List String) (o : Options) :
    (update o).addInputs paths = (o.addInputs paths).map update := by
  unfold Options.addInputs
  induction paths generalizing o with
  | nil => rfl
  | cons path paths ih =>
      rw [List.foldlM_cons, List.foldlM_cons, h.addInput]
      cases o.addInput path with
      | error e => rfl
      | ok o' => exact ih o'

theorem parse (h : Independent name update) {args : List String} (hargs : name ∉ leading args)
    (o : Options) : (update o).parse args = (o.parse args).map update := by
  induction args using arguments_induction generalizing o with
  | nil => rfl
  | stop rest =>
      rw [parse_end, parse_end]
      exact h.addInputs rest o
  | alone argument hvalue =>
      rw [Options.parse_singleton hvalue, Options.parse_singleton hvalue]
      rfl
  | cons argument rest hend hvalue ih =>
      have hleading : leading (argument :: rest) = argument :: leading rest := by
        simp [leading, hend]
      rw [hleading, List.mem_cons, not_or] at hargs
      rw [parse_cons hend hvalue (update o) rest, parse_cons hend hvalue o rest,
        h.parse_singleton hend hvalue (Ne.symm hargs.1)]
      cases o.parse [argument] with
      | error e => rfl
      | ok o' => exact ih hargs.2 o'
  | value argument value rest hvalue ih =>
      rw [parse_cons_value hvalue, parse_cons_value hvalue]
      split_ifs with hoption
      · rfl
      · have hend : value ≠ "--" := by
          rintro rfl
          exact hoption rfl
        have hleading :
            leading (argument :: value :: rest) = argument :: value :: leading rest := by
          simp [leading, ne_end_of_takesValue hvalue, hend]
        rw [hleading] at hargs
        rw [h.setValue]
        cases o.setValue argument value with
        | error e => rfl
        | ok o' => exact ih (fun hmem => hargs (by simp [hmem])) o'

end Independent

/-- An option without a value that a run is told by what to do. -/
inductive Flag where
  | check
  | catalogue

namespace Flag

def name : Flag → String
  | check => "--check"
  | catalogue => "--diagnostics-md"

def isSet (o : Options) : Flag → Bool
  | check => o.check
  | catalogue => o.catalogue

def set (flag : Flag) (b : Bool) (o : Options) : Options :=
  match flag with
  | check => { o with check := b }
  | catalogue => { o with catalogue := b }

section

variable (flag : Flag) (b : Bool) (o : Options)

@[simp] theorem inputs_set : (flag.set b o).inputs = o.inputs := by cases flag <;> rfl

@[simp] theorem manifest_set : (flag.set b o).manifest = o.manifest := by cases flag <;> rfl

@[simp] theorem outDir_set : (flag.set b o).outDir = o.outDir := by cases flag <;> rfl

@[simp] theorem metadata_set : (flag.set b o).metadata = o.metadata := by cases flag <;> rfl

end

theorem independent (flag : Flag) (b : Bool) : Independent flag.name (flag.set b) where
  addInput o path := by
    simp only [addInput, inputs_set]
    split_ifs <;> cases flag <;> rfl
  setValue o option value := by
    simp only [setValue, manifest_set, outDir_set]
    split_ifs <;> cases flag <;> rfl
  setFlag o option hne := by
    cases flag with
    | check =>
        have hcatalogue : (check.set b o).catalogue = o.catalogue := rfl
        rw [name] at hne
        simp only [setFlag, if_neg hne, metadata_set, hcatalogue]
        split_ifs <;> rfl
    | catalogue =>
        have hcheck : (catalogue.set b o).check = o.check := rfl
        rw [name] at hne
        simp only [setFlag, if_neg hne, metadata_set, hcheck]
        split_ifs <;> rfl

end Flag

/-- A flag that is not among the arguments is not set. -/
theorem Independent.eq_of_parse {name : String} {update : Options → Options}
    (h : Independent name update) {args : List String} (hargs : name ∉ leading args)
    {o options : Options} (ho : update o = o) (hparse : o.parse args = .ok options) :
    update options = options := by
  have hupdate := h.parse hargs o
  rw [ho, hparse] at hupdate
  exact (Except.ok.inj hupdate).symm

theorem Flag.isSet_eq_false (flag : Flag) {args : List String} (hargs : flag.name ∉ leading args)
    {options : Options} (hparse : start.parse args = .ok options) : flag.isSet options = false := by
  have hstart : flag.set false start = start := by cases flag <;> rfl
  have hupdate := (flag.independent false).eq_of_parse hargs hstart hparse
  rw [← hupdate]
  cases flag <;> rfl

theorem leading_append {args : List String} (h : "--" ∉ args) (later : List String) :
    leading (args ++ later) = args ++ leading later :=
  List.takeWhile_append_of_pos fun argument hmem => by
    simp only [ne_eq, decide_eq_true_eq]
    rintro rfl
    exact h hmem

def checking (o : Options) : Options := { o with check := true }

/-- The option `--check` does the same wherever it stands. -/
theorem parse_insert_check {args later : List String} (h : start.Open args)
    (hargs : "--check" ∉ leading (args ++ later)) :
    start.parse (args ++ "--check" :: later) = (start.parse (args ++ later)).map checking := by
  rw [leading_append h.1, List.mem_append, not_or] at hargs
  rw [parse_append h, parse_append h]
  cases hparse : start.parse args with
  | error e => rfl
  | ok o =>
      have hcheck : o.check = false := by
        refine Flag.isSet_eq_false .check ?_ hparse
        rw [← List.append_nil args, leading_append h.1]
        simpa [leading, Flag.name] using hargs.1
      have hflag : o.parse ["--check"] = .ok o.checking := by
        have hset : o.setFlag "--check" = .ok o.checking := by simp [setFlag, hcheck, checking]
        change o.setFlag "--check" >>= (fun o => o.parse []) = _
        rw [hset]
        rfl
      have hlater : o.checking.parse later = (o.parse later).map checking :=
        (Flag.independent .check true).parse hargs.2 o
      change o.parse ("--check" :: later) = (o.parse later).map checking
      rw [parse_cons (by decide) (by decide), hflag, ← hlater]
      rfl

end FastSchema.CommandLine.Options
