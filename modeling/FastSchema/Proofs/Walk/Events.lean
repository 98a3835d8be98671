import FastSchema.Proofs.Walk.Stops
import FastSchema.Walk.Context
import FastSchema.Walk.Trace

/-! # The events of a walk

Each stop of a document has an event, which tells about the node at the location and about the nodes
around it. A recursion over the document lists the same events one after the other. -/

namespace FastSchema

/-! ## Nodes and their surroundings -/

namespace Located

def name : Located → String
  | .template t => t.name
  | .field f => f.head.name

def kind : Located → NodeKind
  | .template _ => .template
  | .field (.leaf _ content) => content.nodeKind
  | .field (.composite _ kind _ _) => kind.nodeKind

def fields? : Located → Option (List Field)
  | .template t => some t.fields
  | .field (.leaf _ _) => none
  | .field (.composite _ _ _ fields) => some fields

end Located

/-- The value of an attribute at the first of the given nodes that carries it, empty values
included, or else the empty text. -/
def Attributes.nearest (key : String) (line : List Attributes) : String :=
  (line.findSome? (·.get? key)).getD ""

/-- The naming context that nodes around each other make up, the innermost first. -/
def Context.nearest (line : List Attributes) : Context where
  ns := Attributes.nearest "ns" line
  templateNs := Attributes.nearest "templateNs" line
  dictionary := Attributes.nearest "dictionary" line

theorem Attributes.nearest_cons (key : String) (attrs : Attributes) (line : List Attributes) :
    nearest key (attrs :: line) = (attrs.get? key).getD (nearest key line) := by
  unfold nearest
  rw [List.findSome?_cons]
  cases attrs.get? key with
  | none => rfl
  | some value => rfl

/-- Handing the context down from node to node is searching it outwards. -/
theorem Context.inherit_nearest (line : List Attributes) (attrs : Attributes) :
    (nearest line).inherit attrs = nearest (attrs :: line) := by
  simp only [inherit, nearest, Attributes.nearest_cons]

theorem Context.nearest_document (doc : Document) : nearest [doc.attrs] = doc.context := by
  rw [Document.context, ← inherit_nearest]
  rfl

/-- The attributes of the fields that the positions lead through, the innermost first. -/
def Field.line (fields : List Field) : List Nat → List Attributes
  | [] => []
  | i :: rest =>
    match fields[i]? with
    | some field => Field.line field.children rest ++ [field.head.attrs]
    | none => []

/-- The attributes of the node at a location and of the nodes around it, the innermost first and
those of the document last. -/
def Document.line (doc : Document) : List Nat → List Attributes
  | [] => [doc.attrs]
  | i :: rest =>
    match doc.templates[i]? with
    | some t => Field.line t.fields rest ++ [t.attrs, doc.attrs]
    | none => [doc.attrs]

/-! ## The events at the stops -/

/-- The event of a stop at the node, which has the given position and context. Only nodes with
fields are left. -/
def Located.event? (node : Located) (index : Nat) (cx : Context) : Stop → Option Event
  | .reach _ =>
    some ⟨if node.fields?.isSome then .enter else .visit, node.kind, node.name, index, cx⟩
  | .leave _ =>
    node.fields?.map fun fields => ⟨.exit fields.length, node.kind, node.name, index, cx⟩

/-- The event of a stop at a node of the document, if there is such a node. Its index is the last of
the positions that lead to the node, its context that of the nodes on the way. -/
def Document.event? (doc : Document) (stop : Stop) : Option Event := do
  let (node, _) ← doc.locate? stop.location
  let index ← stop.location.getLast?
  node.event? index (.nearest (doc.line stop.location)) stop

/-- The event of a stop at a field, located from the node that has the given fields. -/
def Field.event? (around : List Attributes) (fields : List Field) (stop : Stop) :
    Option Event := do
  let (field, _) ← Field.locate? (.nearest around) fields stop.location
  let index ← stop.location.getLast?
  Located.event? (.field field) index (.nearest (Field.line fields stop.location ++ around)) stop

@[simp] theorem Located.event?_under (node : Located) (index : Nat) (cx : Context) (i : Nat)
    (s : Stop) : node.event? index cx (s.under i) = node.event? index cx s := by
  cases s <;> rfl

theorem Field.event?_under (around : List Attributes) (fields : List Field) (i : Nat) (s : Stop) :
    Field.event? around fields (s.under i) =
      fields[i]? >>= fun field =>
        if s.location = [] then
          Located.event? (.field field) i (.nearest (field.head.attrs :: around)) s
        else Field.event? (field.head.attrs :: around) field.children s := by
  rw [Field.event?, Stop.location_under, Field.locate?, Field.line]
  cases fields[i]? with
  | none => rfl
  | some field =>
      cases hs : s.location with
      | nil => simp [Field.line]
      | cons j rest =>
          have hindex : (i :: j :: rest).getLast? = (j :: rest).getLast? := List.getLast?_cons_cons
          simp [Field.event?, hs, hindex, Context.inherit_nearest]

theorem Document.event?_under (doc : Document) (i : Nat) (s : Stop) :
    doc.event? (s.under i) =
      doc.templates[i]? >>= fun t =>
        if s.location = [] then
          Located.event? (.template t) i (.nearest [t.attrs, doc.attrs]) s
        else Field.event? [t.attrs, doc.attrs] t.fields s := by
  rw [Document.event?, Stop.location_under, Document.locate?, Document.line]
  cases doc.templates[i]? with
  | none => rfl
  | some t =>
      cases hs : s.location with
      | nil => simp [Field.line]
      | cons j rest =>
          have hindex : (i :: j :: rest).getLast? = (j :: rest).getLast? := List.getLast?_cons_cons
          have hcontext : doc.contextOf t = .nearest [t.attrs, doc.attrs] := by
            rw [Document.contextOf, ← Context.nearest_document, Context.inherit_nearest]
          simp [Field.event?, hs, hindex, hcontext, Option.bind_assoc]

theorem Located.mem_around_iff {node : Located} {fields : List Field}
    (hfields : node.fields? = some fields) (index : Nat) (line : List Attributes) (s : Stop)
    (hinside : s ∈ Stop.siblings 0 (Field.stopsEach fields) ↔ (Field.event? line fields s).isSome) :
    s ∈ Stop.around (Field.stopsEach fields) ↔
      (if s.location = [] then node.event? index (.nearest line) s
        else Field.event? line fields s).isSome := by
  rw [Stop.around, List.mem_cons, List.mem_append, List.mem_singleton, hinside]
  cases hs : s.location with
  | nil =>
      have hmem : s = .reach [] ∨ s = .leave [] := by
        cases s with
        | reach _ => exact .inl (congrArg Stop.reach hs)
        | leave _ => exact .inr (congrArg Stop.leave hs)
      have hevent : (node.event? index (.nearest line) s).isSome := by
        cases s <;> simp [Located.event?, hfields]
      simp only [if_true, hevent, iff_true]
      exact hmem.imp_right .inr
  | cons i rest =>
      have hreach : s ≠ .reach [] := by
        rintro rfl
        cases hs
      have hleave : s ≠ .leave [] := by
        rintro rfl
        cases hs
      simp [hreach, hleave]

theorem Field.mem_stops_leaf_iff (head : FieldHead) (content : Leaf) (index : Nat)
    (line : List Attributes) (s : Stop) :
    s ∈ (Field.leaf head content).stops ↔
      (if s.location = [] then Located.event? (.field (.leaf head content)) index (.nearest line) s
        else Field.event? line [] s).isSome := by
  have hnone : Field.event? line [] s = none := by
    rw [Field.event?]
    cases s.location <;> rfl
  rw [Field.stops, List.mem_singleton, hnone]
  cases s with
  | reach location => cases location <;> simp [Stop.location, Located.event?]
  | leave location => cases location <;> simp [Stop.location, Located.event?, Located.fields?]

/-- Every stop at a field has its place among the stops of the fields. -/
theorem Field.mem_siblings_iff (line : List Attributes) (fields : List Field) (s : Stop) :
    s ∈ Stop.siblings 0 (Field.stopsEach fields) ↔ (Field.event? line fields s).isSome := by
  induction hs : s.location generalizing line fields s with
  | nil =>
      have hnone : Field.event? line fields s = none := by simp [Field.event?, hs, Field.locate?]
      simp only [hnone, Option.isSome_none, Bool.false_eq_true, iff_false]
      exact fun hmem => Stop.location_ne_nil_of_mem_siblings hmem hs
  | cons i rest ih =>
      obtain ⟨t, rfl, ht⟩ := Stop.exists_eq_under hs
      rw [Stop.under_mem_siblings, Field.event?_under, Field.stopsEach_eq_map, List.getElem?_map]
      cases hfield : fields[i]? with
      | none => simp
      | some field =>
          simp only [Option.map_some, Option.some.injEq, exists_eq_left']
          cases field with
          | leaf head content =>
              exact Field.mem_stops_leaf_iff head content i (head.attrs :: line) t
          | composite head kind typeRef inner =>
              exact Located.mem_around_iff rfl i (head.attrs :: line) t
                (ih (head.attrs :: line) inner t ht)

/-- A document has exactly the stops that have an event. -/
theorem Document.mem_stops_iff (doc : Document) (s : Stop) :
    s ∈ doc.stops ↔ (doc.event? s).isSome := by
  cases hs : s.location with
  | nil =>
      have hnone : doc.event? s = none := by simp [Document.event?, hs, Document.locate?]
      simp only [hnone, Option.isSome_none, Bool.false_eq_true, iff_false]
      exact fun hmem => Stop.location_ne_nil_of_mem_siblings hmem hs
  | cons i rest =>
      obtain ⟨t, rfl, -⟩ := Stop.exists_eq_under hs
      rw [Document.stops, Stop.under_mem_siblings, Document.event?_under, List.getElem?_map]
      cases htemplate : doc.templates[i]? with
      | none => simp
      | some template =>
          simp only [Option.map_some, Option.some.injEq, exists_eq_left']
          exact Located.mem_around_iff rfl i [template.attrs, doc.attrs] t
            (Field.mem_siblings_iff _ _ t)

/-! ## The events of a walk, in order -/

def Event.bracket (kind : NodeKind) (name : String) (index : Nat) (cx : Context) (numFields : Nat)
    (inner : List Event) : List Event :=
  ⟨.enter, kind, name, index, cx⟩ :: (inner ++ [⟨.exit numFields, kind, name, index, cx⟩])

mutual

/-- The events of a field at position `index` in a node with context `cx`. -/
def Field.events (cx : Context) (index : Nat) : Field → List Event
  | .leaf head content => [⟨.visit, content.nodeKind, head.name, index, cx.inherit head.attrs⟩]
  | .composite head kind _ fields =>
    Event.bracket kind.nodeKind head.name index (cx.inherit head.attrs) fields.length
      (Field.eventsFrom (cx.inherit head.attrs) 0 fields)

def Field.eventsFrom (cx : Context) (index : Nat) : List Field → List Event
  | [] => []
  | field :: fields => Field.events cx index field ++ Field.eventsFrom cx (index + 1) fields

end

def Template.events (cx : Context) (index : Nat) (t : Template) : List Event :=
  Event.bracket .template t.name index (cx.inherit t.attrs) t.fields.length
    (Field.eventsFrom (cx.inherit t.attrs) 0 t.fields)

def Template.eventsFrom (cx : Context) (index : Nat) : List Template → List Event
  | [] => []
  | t :: ts => t.events cx index ++ Template.eventsFrom cx (index + 1) ts

/-- The events of a walk over the document that leaves nothing out. -/
def Document.events (doc : Document) : List Event :=
  Template.eventsFrom doc.context 0 doc.templates

/-- The stops at a node with fields have the events of that node, if those at its fields have the
events of the fields. -/
theorem Located.map_event?_around {node : Located} {fields : List Field}
    (hfields : node.fields? = some fields) (index : Nat) (line : List Attributes)
    {inner : List Event}
    (hinner : (Stop.siblings 0 (Field.stopsEach fields)).map (Field.event? line fields) =
      inner.map some) :
    ((Stop.around (Field.stopsEach fields)).map fun s =>
        if s.location = [] then node.event? index (.nearest line) s
        else Field.event? line fields s) =
      (Event.bracket node.kind node.name index (.nearest line) fields.length inner).map some := by
  have hdeep : ((Stop.siblings 0 (Field.stopsEach fields)).map fun s =>
      if s.location = [] then node.event? index (.nearest line) s
      else Field.event? line fields s) = inner.map some := by
    rw [← hinner]
    exact List.map_congr_left fun s hs => if_neg (Stop.location_ne_nil_of_mem_siblings hs)
  rw [Stop.around, List.map_cons, List.map_append, hdeep]
  simp [Event.bracket, Stop.location, Located.event?, hfields]

mutual

theorem Field.map_event?_stops (line : List Attributes) (index : Nat) (field : Field) :
    (field.stops.map fun s =>
        if s.location = [] then
          Located.event? (.field field) index (.nearest (field.head.attrs :: line)) s
        else Field.event? (field.head.attrs :: line) field.children s) =
      (field.events (.nearest line) index).map some := by
  cases field with
  | leaf head content =>
      rw [Field.events, Context.inherit_nearest]
      rfl
  | composite head kind typeRef fields =>
      rw [Field.events, Context.inherit_nearest]
      exact Located.map_event?_around rfl index (head.attrs :: line)
        (Field.map_event?_siblings (head.attrs :: line) [] fields)

theorem Field.map_event?_siblings (line : List Attributes) (before fields : List Field) :
    (Stop.siblings before.length (Field.stopsEach fields)).map
        (Field.event? line (before ++ fields)) =
      (Field.eventsFrom (.nearest line) before.length fields).map some := by
  cases fields with
  | nil => rfl
  | cons field fields =>
      have hfirst : (before ++ field :: fields)[before.length]? = some field := by simp
      have hrest := Field.map_event?_siblings line (before ++ [field]) fields
      rw [List.append_assoc, List.singleton_append, List.length_append, List.length_singleton]
        at hrest
      rw [Field.stopsEach, Stop.siblings, Field.eventsFrom, List.map_append, List.map_append,
        hrest, List.map_map, ← Field.map_event?_stops line before.length field]
      congr 1
      apply List.map_congr_left
      intro s _
      rw [Function.comp_apply, Field.event?_under, hfirst]
      rfl

end

theorem Document.map_event?_siblings (doc : Document) (before ts : List Template)
    (hts : doc.templates = before ++ ts) :
    (Stop.siblings before.length (ts.map Template.stops)).map doc.event? =
      (Template.eventsFrom doc.context before.length ts).map some := by
  induction ts generalizing before with
  | nil => rfl
  | cons t ts ih =>
      have hfirst : doc.templates[before.length]? = some t := by simp [hts]
      have hrest := ih (before ++ [t]) (by rw [hts, List.append_assoc, List.singleton_append])
      rw [List.length_append, List.length_singleton] at hrest
      rw [List.map_cons, Stop.siblings, Template.eventsFrom, List.map_append, List.map_append,
        hrest, List.map_map]
      congr 1
      have hcontext : doc.context.inherit t.attrs = .nearest [t.attrs, doc.attrs] := by
        rw [← Context.nearest_document, Context.inherit_nearest]
      have hfields := Field.map_event?_siblings [t.attrs, doc.attrs] [] t.fields
      have hnode : (Located.template t).fields? = some t.fields := rfl
      rw [Template.events, hcontext]
      refine Eq.trans (List.map_congr_left fun s _ => ?_)
        (Located.map_event?_around hnode before.length [t.attrs, doc.attrs] hfields)
      rw [Function.comp_apply, Document.event?_under, hfirst]
      rfl

/-- The events of a walk are those of the stops, one for each. -/
theorem Document.map_event?_stops (doc : Document) :
    doc.stops.map doc.event? = doc.events.map some :=
  doc.map_event?_siblings [] doc.templates rfl

end FastSchema
