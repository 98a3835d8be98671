import FastSchema.Schema.Basic
import Mathlib.Data.List.Lex
import Mathlib.Order.WithBot

/-! # Stops in a document

A walk reaches every node and leaves those that have fields. Such a stop is given by the location of
the node, and stops are ordered as the document is read: a node comes before its fields, these come
one after the other, and the end of the node comes after them. -/

namespace FastSchema

/-- The node at a location is reached, or left after its fields. -/
inductive Stop where
  | reach (location : List Nat)
  | leave (location : List Nat)
deriving DecidableEq

namespace Stop

def location : Stop → List Nat
  | reach location => location
  | leave location => location

/-- Where the stop stands in the document. The end of a node stands after all its fields. -/
def place : Stop → List (WithTop Nat)
  | reach location => location.map WithTop.some
  | leave location => location.map WithTop.some ++ [⊤]

def Before (s t : Stop) : Prop := s.place < t.place

def under (i : Nat) : Stop → Stop
  | reach location => reach (i :: location)
  | leave location => leave (i :: location)

@[simp] theorem location_under (i : Nat) (s : Stop) : (s.under i).location = i :: s.location := by
  cases s <;> rfl

theorem place_under (i : Nat) (s : Stop) : (s.under i).place = WithTop.some i :: s.place := by
  cases s <;> rfl

theorem under_injective {i j : Nat} {s t : Stop} (h : s.under i = t.under j) : i = j ∧ s = t := by
  cases s <;> cases t <;> simp_all [under]

theorem exists_eq_under {s : Stop} {i : Nat} {rest : List Nat} (h : s.location = i :: rest) :
    ∃ t : Stop, s = t.under i ∧ t.location = rest := by
  cases s with
  | reach location =>
      cases h
      exact ⟨reach rest, rfl, rfl⟩
  | leave location =>
      cases h
      exact ⟨leave rest, rfl, rfl⟩

theorem before_under {i : Nat} {s t : Stop} (h : s.Before t) : (s.under i).Before (t.under i) := by
  unfold Before
  rw [place_under, place_under]
  exact List.cons_lt_cons_iff.mpr (.inr ⟨rfl, h⟩)

theorem under_before_under {i j : Nat} (h : i < j) (s t : Stop) :
    (s.under i).Before (t.under j) := by
  unfold Before
  rw [place_under, place_under]
  exact List.cons_lt_cons_iff.mpr (.inl (WithTop.coe_lt_coe.mpr h))

theorem reach_before_under (i : Nat) (s : Stop) : (reach []).Before (s.under i) := by
  unfold Before
  rw [place_under]
  exact List.nil_lt_cons _ _

theorem under_before_leave (i : Nat) (s : Stop) : (s.under i).Before (leave []) := by
  unfold Before
  rw [place_under]
  exact List.cons_lt_cons_iff.mpr (.inl (WithTop.coe_lt_top i))

theorem not_before_reach_nil (s : Stop) : ¬ s.Before (reach []) := List.not_lt_nil _

theorem under_before_under_iff {i j : Nat} {s t : Stop} :
    (s.under i).Before (t.under j) ↔ i < j ∨ i = j ∧ s.Before t := by
  unfold Before
  rw [place_under, place_under, List.cons_lt_cons_iff, WithTop.coe_lt_coe, WithTop.coe_inj]

theorem reach_before_leave (location : List Nat) : (reach location).Before (leave location) := by
  induction location with
  | nil => exact List.nil_lt_cons _ _
  | cons i location ih => exact before_under (i := i) ih

/-- The stop is at a node inside the one at the location. -/
def Inside (location : List Nat) (s : Stop) : Prop :=
  ∃ i rest, s.location = location ++ i :: rest

/-- Between reaching a node and leaving it lie the stops at the nodes inside it. -/
theorem between_iff (location : List Nat) (s : Stop) :
    (reach location).Before s ∧ s.Before (leave location) ↔ s.Inside location := by
  induction location generalizing s with
  | nil =>
      cases hs : s.location with
      | nil =>
          have hinside : ¬ s.Inside [] := by simp [Inside, hs]
          have hreach : ¬ (reach []).Before (reach []) := not_before_reach_nil _
          have hleave : ¬ (leave []).Before (leave []) := lt_irrefl _
          cases s with
          | reach _ =>
              cases hs
              simp [hinside, hreach]
          | leave _ =>
              cases hs
              simp [hinside, hleave]
      | cons i rest =>
          obtain ⟨t, rfl, -⟩ := exists_eq_under hs
          simp [Inside, reach_before_under, under_before_leave]
  | cons j location ih =>
      have hreach : reach (j :: location) = (reach location).under j := rfl
      have hleave : leave (j :: location) = (leave location).under j := rfl
      cases hs : s.location with
      | nil =>
          have hinside : ¬ s.Inside (j :: location) := by simp [Inside, hs]
          cases s with
          | reach _ =>
              cases hs
              simp [hinside, not_before_reach_nil]
          | leave _ =>
              cases hs
              have hlate : ¬ (leave []).Before (leave (j :: location)) :=
                lt_asymm (under_before_leave j (leave location))
              simp [hinside, hlate]
      | cons i rest =>
          obtain ⟨t, rfl, -⟩ := exists_eq_under hs
          rw [hreach, hleave, under_before_under_iff, under_before_under_iff]
          have hinside : (t.under i).Inside (j :: location) ↔ i = j ∧ t.Inside location := by
            simp [Inside]
          rw [hinside, ← ih]
          constructor
          · rintro ⟨hji | ⟨rfl, hafter⟩, hij | ⟨hij, hbefore⟩⟩
            · omega
            · omega
            · omega
            · exact ⟨rfl, hafter, hbefore⟩
          · rintro ⟨rfl, hafter, hbefore⟩
            exact ⟨.inr ⟨rfl, hafter⟩, .inr ⟨rfl, hbefore⟩⟩

end Stop

/-! ## The stops of a document, in order -/

namespace Stop

/-- The stops of nodes beside each other, the first of them at position `i`. Those of each node are
located from that node on. -/
def siblings (i : Nat) : List (List Stop) → List Stop
  | [] => []
  | stops :: rest => stops.map (under i) ++ siblings (i + 1) rest

def around (fields : List (List Stop)) : List Stop :=
  reach [] :: (siblings 0 fields ++ [leave []])

theorem mem_siblings {i : Nat} {parts : List (List Stop)} {s : Stop} :
    s ∈ siblings i parts ↔
      ∃ (j : Nat) (part : List Stop), parts[j]? = some part ∧ ∃ t ∈ part, t.under (i + j) = s := by
  induction parts generalizing i with
  | nil => simp [siblings]
  | cons part parts ih =>
      rw [siblings, List.mem_append, List.mem_map, ih]
      constructor
      · rintro (⟨t, ht, rfl⟩ | ⟨j, later, hlater, t, ht, rfl⟩)
        · exact ⟨0, part, rfl, t, ht, rfl⟩
        · exact ⟨j + 1, later, hlater, t, ht, by rw [Nat.add_right_comm, Nat.add_assoc]⟩
      · rintro ⟨_ | j, later, hlater, t, ht, rfl⟩
        · cases hlater
          exact .inl ⟨t, ht, rfl⟩
        · exact .inr ⟨j, later, hlater, t, ht, by rw [Nat.add_right_comm, Nat.add_assoc]⟩

theorem under_mem_siblings {i : Nat} {parts : List (List Stop)} {t : Stop} :
    t.under i ∈ siblings 0 parts ↔ ∃ part : List Stop, parts[i]? = some part ∧ t ∈ part := by
  rw [mem_siblings]
  constructor
  · rintro ⟨j, part, hpart, u, hu, heq⟩
    obtain ⟨hij, rfl⟩ := under_injective heq
    rw [Nat.zero_add] at hij
    exact ⟨part, hij ▸ hpart, hu⟩
  · rintro ⟨part, hpart, ht⟩
    exact ⟨i, part, hpart, t, ht, by rw [Nat.zero_add]⟩

theorem location_ne_nil_of_mem_siblings {i : Nat} {parts : List (List Stop)} {s : Stop}
    (h : s ∈ siblings i parts) : s.location ≠ [] := by
  obtain ⟨j, part, -, t, -, rfl⟩ := mem_siblings.mp h
  simp

theorem pairwise_siblings {parts : List (List Stop)} (i : Nat)
    (h : ∀ part ∈ parts, part.Pairwise Before) : (siblings i parts).Pairwise Before := by
  induction parts generalizing i with
  | nil => exact List.Pairwise.nil
  | cons part parts ih =>
      rw [siblings, List.pairwise_append, List.pairwise_map]
      refine ⟨(h part (by simp)).imp before_under,
        ih (i + 1) fun later hl => h later (by simp [hl]), fun s hs t ht => ?_⟩
      -- Stops at a node come before those at its later siblings.
      obtain ⟨u, -, rfl⟩ := List.mem_map.mp hs
      obtain ⟨j, later, -, v, -, rfl⟩ := mem_siblings.mp ht
      exact under_before_under (by omega) u v

theorem pairwise_around {parts : List (List Stop)} (h : ∀ part ∈ parts, part.Pairwise Before) :
    (around parts).Pairwise Before := by
  have hunder : ∀ s ∈ siblings 0 parts, ∃ i t, s = under i t := by
    intro s hs
    obtain ⟨j, part, -, t, -, rfl⟩ := mem_siblings.mp hs
    exact ⟨_, t, rfl⟩
  rw [around, List.pairwise_cons, List.pairwise_append]
  refine ⟨fun s hs => ?_, pairwise_siblings 0 h, List.pairwise_singleton _ _, fun s hs t ht => ?_⟩
  · rcases List.mem_append.mp hs with hs | hs
    · obtain ⟨i, t, rfl⟩ := hunder s hs
      exact reach_before_under i t
    · obtain rfl := List.mem_singleton.mp hs
      exact reach_before_leave []
  · obtain ⟨i, u, rfl⟩ := hunder s hs
    obtain rfl := List.mem_singleton.mp ht
    exact under_before_leave i u

end Stop

mutual

/-- The stops at a field and inside it, located from the field on. -/
def Field.stops : Field → List Stop
  | .leaf _ _ => [.reach []]
  | .composite _ _ _ fields => Stop.around (Field.stopsEach fields)

def Field.stopsEach : List Field → List (List Stop)
  | [] => []
  | field :: fields => Field.stops field :: Field.stopsEach fields

end

theorem Field.stopsEach_eq_map (fields : List Field) : stopsEach fields = fields.map stops := by
  induction fields with
  | nil => rfl
  | cons field fields ih => rw [stopsEach, ih, List.map_cons]

def Template.stops (t : Template) : List Stop := Stop.around (Field.stopsEach t.fields)

/-- The stops of a document, in the order of a walk. -/
def Document.stops (doc : Document) : List Stop :=
  Stop.siblings 0 (doc.templates.map Template.stops)

mutual

theorem Field.pairwise_stops (field : Field) : field.stops.Pairwise Stop.Before := by
  cases field with
  | leaf head content => exact List.pairwise_singleton _ _
  | composite head kind typeRef fields =>
      exact Stop.pairwise_around (Field.pairwise_stopsEach fields)

theorem Field.pairwise_stopsEach (fields : List Field) :
    ∀ part ∈ Field.stopsEach fields, part.Pairwise Stop.Before := by
  cases fields with
  | nil => simp [Field.stopsEach]
  | cons field fields =>
      rw [Field.stopsEach, List.forall_mem_cons]
      exact ⟨Field.pairwise_stops field, Field.pairwise_stopsEach fields⟩

end

/-- No stop is made twice, and all are made in the order in which the document is read. -/
theorem Document.pairwise_stops (doc : Document) : doc.stops.Pairwise Stop.Before := by
  apply Stop.pairwise_siblings
  intro part hpart
  obtain ⟨t, -, rfl⟩ := List.mem_map.mp hpart
  exact Stop.pairwise_around (Field.pairwise_stopsEach t.fields)

end FastSchema
