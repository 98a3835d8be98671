/-!
# Attributes by name

The attributes of a schema element as a finite map from names to values. Inserting a name that is
already there changes its value.
-/

namespace FastSchema

/-- A finite map from attribute names to values. -/
structure Attributes where
  entries : List (String × String)
  nodup : (entries.map Prod.fst).Nodup
deriving DecidableEq

namespace Attributes

def empty : Attributes := ⟨[], by simp⟩

instance : Inhabited Attributes := ⟨empty⟩

instance : Repr Attributes := ⟨fun a n => reprPrec a.entries n⟩

def get? (a : Attributes) (key : String) : Option String :=
  a.entries.lookup key

def getD (a : Attributes) (key : String) : String :=
  (a.get? key).getD ""

/-- The entries with `key` set to `value`, in place if it occurs and else at the end. -/
def set (key value : String) : List (String × String) → List (String × String)
  | [] => [(key, value)]
  | e :: es => if e.1 = key then (key, value) :: es else e :: set key value es

theorem mem_keys_set {k key value : String} {es : List (String × String)} :
    k ∈ (set key value es).map Prod.fst ↔ k = key ∨ k ∈ es.map Prod.fst := by
  induction es with
  | nil => simp [set]
  | cons e es ih =>
    by_cases h : e.1 = key
    · simp [set, h]
    · rw [set, if_neg h, List.map_cons, List.mem_cons, ih, List.map_cons, List.mem_cons,
        or_left_comm]

theorem nodup_set {key value : String} {es : List (String × String)}
    (h : (es.map Prod.fst).Nodup) : ((set key value es).map Prod.fst).Nodup := by
  induction es with
  | nil => simp [set]
  | cons e es ih =>
    rw [List.map_cons, List.nodup_cons] at h
    by_cases he : e.1 = key
    · rw [set, if_pos he, List.map_cons, List.nodup_cons]
      exact ⟨he ▸ h.1, h.2⟩
    · rw [set, if_neg he, List.map_cons, List.nodup_cons]
      refine ⟨fun hm => ?_, ih h.2⟩
      rcases mem_keys_set.mp hm with heq | hm
      · exact he heq
      · exact h.1 hm

def insert (a : Attributes) (key value : String) : Attributes :=
  ⟨set key value a.entries, nodup_set a.nodup⟩

/-- The map with the given bindings; of two bindings for one name the later counts. -/
def ofList (bindings : List (String × String)) : Attributes :=
  bindings.foldl (fun a b => a.insert b.1 b.2) empty

@[simp] theorem get?_empty (key : String) : empty.get? key = none := rfl

theorem get?_insert (a : Attributes) (key value k : String) :
    (a.insert key value).get? k = if k = key then some value else a.get? k := by
  show List.lookup k (set key value a.entries) = _
  unfold get?
  induction a.entries with
  | nil =>
    by_cases h : k = key
    · simp [set, h]
    · simp [set, List.lookup_cons, h, beq_false_of_ne h]
  | cons e es ih =>
    obtain ⟨key', value'⟩ := e
    by_cases h : k = key'
    · subst h
      by_cases he : k = key <;> simp [set, he]
    · have hb : (k == key') = false := beq_false_of_ne h
      by_cases he : key' = key
      · subst he
        simp [set, List.lookup_cons, h, hb]
      · simp [set, List.lookup_cons, he, hb, ih]

end Attributes

end FastSchema
