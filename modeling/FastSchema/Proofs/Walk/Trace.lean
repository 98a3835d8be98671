import FastSchema.Proofs.Fallible
import FastSchema.Proofs.Walk.Events

/-! # The trace of a walk

A recording pass that leaves out the children of some nodes notes what one that leaves out nothing
notes, but for the events strictly inside those nodes. The latter notes one event at each stop of
the document, in the order in which the document is read. -/

namespace FastSchema

/-- A recorder that decides at each node whether to visit its children, and is never stopped. What
it decides may depend on all that it has noted so far, since the document and the number of events
determine that. -/
def Recorder.choosing (choose : Nat → Event → Descend) : Recorder := ⟨choose, fun _ => false⟩

def Document.fullTrace (doc : Document) : List Event :=
  ((Recorder.choosing fun _ _ => .children).trace doc).2.toList

/-- Leaves out the events strictly between the entering and the leaving of each node that is to be
skipped when it is entered, given how many events have been kept until then. Inside such a node
`opened` is the number of nodes, itself included, that are still to be left. -/
def prune (choose : Nat → Event → Descend) : (kept opened : Nat) → List Event → List Event
  | _, _, [] => []
  | kept, 0, event :: events =>
    let skipped := event.moment = .enter ∧ choose kept event = .skip
    event :: prune choose (kept + 1) (if skipped then 1 else 0) events
  | kept, opened + 1, event :: events =>
    match event.moment with
    | .enter => prune choose kept (opened + 2) events
    | .visit => prune choose kept (opened + 1) events
    | .exit _ =>
      if opened = 0 then event :: prune choose (kept + 1) 0 events
      else prune choose kept opened events

/-! ## Pruning -/

section

variable (choose : Nat → Event → Descend)

/-- Of a node inside a skipped one nothing is kept, if nothing of its fields is. -/
theorem prune_bracket_inside {inner : List Event}
    (hinner : ∀ kept opened rest,
      prune choose kept (opened + 1) (inner ++ rest) = prune choose kept (opened + 1) rest)
    (kind : NodeKind) (name : String) (index : Nat) (cx : Context) (numFields kept opened : Nat)
    (rest : List Event) :
    prune choose kept (opened + 1) (Event.bracket kind name index cx numFields inner ++ rest) =
      prune choose kept (opened + 1) rest := by
  rw [Event.bracket, List.cons_append, List.append_assoc, prune]
  simp only [hinner]
  rw [List.singleton_append, prune]
  simp

mutual

theorem prune_events_inside (cx : Context) (index : Nat) (field : Field) (kept opened : Nat)
    (rest : List Event) :
    prune choose kept (opened + 1) (field.events cx index ++ rest) =
      prune choose kept (opened + 1) rest := by
  cases field with
  | leaf head content => rfl
  | composite head kind typeRef fields =>
      exact prune_bracket_inside choose
        (fun kept opened rest => prune_eventsFrom_inside _ 0 fields kept opened rest)
        _ _ _ _ _ _ _ _

theorem prune_eventsFrom_inside (cx : Context) (index : Nat) (fields : List Field)
    (kept opened : Nat) (rest : List Event) :
    prune choose kept (opened + 1) (Field.eventsFrom cx index fields ++ rest) =
      prune choose kept (opened + 1) rest := by
  cases fields with
  | nil => rfl
  | cons field fields =>
      rw [Field.eventsFrom, List.append_assoc, prune_events_inside cx index field,
        prune_eventsFrom_inside cx (index + 1) fields]

end

/-- Nothing is left out where nothing is skipped. -/
theorem prune_children (kept : Nat) (events : List Event) :
    prune (fun _ _ => .children) kept 0 events = events := by
  induction events generalizing kept with
  | nil => rfl
  | cons event events ih => simp [prune, ih]

/-! ## Recording -/

/-- Once `x` has run, what is noted and the pruning of all that is still to come make up what they
made up before, when the given events were still to come as well. -/
def Records (x : Fallible (Array Event) Unit) (events : List Event) : Prop :=
  ∀ noted, ∃ noted', x.outcome noted = (.ok (), noted') ∧
    ∀ rest, noted'.toList ++ prune choose noted'.size 0 rest =
      noted.toList ++ prune choose noted.size 0 (events ++ rest)

theorem records_pure : Records choose (pure ()) [] := fun noted => ⟨noted, rfl, fun _ => rfl⟩

variable {choose}

theorem Records.bind {x y : Fallible (Array Event) Unit} {events later : List Event}
    (hx : Records choose x events) (hy : Records choose y later) :
    Records choose (x >>= fun _ => y) (events ++ later) := by
  intro noted
  obtain ⟨noted₁, hout₁, hrest₁⟩ := hx noted
  obtain ⟨noted₂, hout₂, hrest₂⟩ := hy noted₁
  refine ⟨noted₂, ?_, fun rest => ?_⟩
  · rw [Fallible.outcome_bind, hout₁]
    exact hout₂
  · rw [hrest₂, hrest₁, List.append_assoc]

theorem outcome_note (event : Event) (noted : Array Event) :
    ((Recorder.choosing choose).note event).outcome noted =
      (.ok noted.size, noted.push event) := rfl

/-- An event that does not enter a node is noted. -/
theorem records_note {event : Event} (h : event.moment ≠ .enter) :
    Records choose (do
      let _ ← (Recorder.choosing choose).note event) [event] := by
  intro noted
  refine ⟨noted.push event, rfl, fun rest => ?_⟩
  simp [prune, h]

/-- A node is noted as its bracket, if its fields are noted wherever they are visited and nothing of
them is kept inside a skipped node. -/
theorem records_bracket {body : Fallible (Array Event) Unit} {inner : List Event}
    (hbody : Records choose body inner)
    (hinside : ∀ kept opened rest,
      prune choose kept (opened + 1) (inner ++ rest) = prune choose kept (opened + 1) rest)
    (kind : NodeKind) (name : String) (index : Nat) (cx : Context) (numFields : Nat) :
    Records choose (do
        let descend ← (do
          let event : Event := ⟨.enter, kind, name, index, cx⟩
          return choose (← (Recorder.choosing choose).note event) event)
        if descend = .children then body
        let _ ← (Recorder.choosing choose).note ⟨.exit numFields, kind, name, index, cx⟩)
      (Event.bracket kind name index cx numFields inner) := by
  intro noted
  let entered : Event := ⟨.enter, kind, name, index, cx⟩
  let left : Event := ⟨.exit numFields, kind, name, index, cx⟩
  have hleft : left.moment ≠ .enter := by simp [left]
  have hshape (rest : List Event) :
      Event.bracket kind name index cx numFields inner ++ rest =
        entered :: (inner ++ left :: rest) := by simp [Event.bracket, entered, left]
  cases hd : choose noted.size entered with
  | children =>
      obtain ⟨noted₁, hout, hrest⟩ := hbody (noted.push entered)
      obtain ⟨noted₂, hout', hrest'⟩ :=
        (records_note hleft : Records choose _ _) noted₁
      refine ⟨noted₂, ?_, fun rest => ?_⟩
      · simp only [Fallible.outcome_bind, outcome_note, Fallible.outcome_pure]
        simp only [entered] at hd hout
        simp only [hd, if_true, Fallible.outcome_bind, hout]
        exact hout'
      · rw [hrest', List.singleton_append, hrest, hshape, prune]
        simp [hd]
  | skip =>
      obtain ⟨noted₂, hout', hrest'⟩ :=
        (records_note hleft : Records choose _ _) (noted.push entered)
      refine ⟨noted₂, ?_, fun rest => ?_⟩
      · simp only [Fallible.outcome_bind, outcome_note, Fallible.outcome_pure]
        simp only [entered] at hd hout'
        simp only [hd]
        exact hout'
      · have hentered : entered.moment = .enter := rfl
        rw [hrest', hshape, prune]
        simp only [hentered, hd, and_self, if_true, hinside]
        simp [prune, left]

mutual

theorem records_walkField (cx : Context) (index : Nat) (field : Field) :
    Records choose ((Recorder.choosing choose).visitor.walkField cx index field)
      (field.events cx index) := by
  cases field with
  | leaf head content => exact records_note (by simp)
  | composite head kind typeRef fields =>
      exact records_bracket (records_walkFields (cx.inherit head.attrs) 0 fields)
        (fun kept opened rest => prune_eventsFrom_inside choose _ 0 fields kept opened rest)
        kind.nodeKind head.name index (cx.inherit head.attrs) fields.length

theorem records_walkFields (cx : Context) (index : Nat) (fields : List Field) :
    Records choose ((Recorder.choosing choose).visitor.walkFields cx index fields)
      (Field.eventsFrom cx index fields) := by
  cases fields with
  | nil => exact records_pure choose
  | cons field fields =>
      exact (records_walkField cx index field).bind (records_walkFields cx (index + 1) fields)

end

theorem records_walkTemplate (cx : Context) (index : Nat) (t : Template) :
    Records choose ((Recorder.choosing choose).visitor.walkTemplate cx index t)
      (t.events cx index) :=
  records_bracket (records_walkFields (cx.inherit t.attrs) 0 t.fields)
    (fun kept opened rest => prune_eventsFrom_inside choose _ 0 t.fields kept opened rest)
    .template t.name index (cx.inherit t.attrs) t.fields.length

theorem records_walkTemplates (cx : Context) (index : Nat) (ts : List Template) :
    Records choose ((Recorder.choosing choose).visitor.walkTemplates cx index ts)
      (Template.eventsFrom cx index ts) := by
  induction ts generalizing index with
  | nil => exact records_pure choose
  | cons t ts ih => exact (records_walkTemplate cx index t).bind (ih (index + 1))

theorem trace_choosing (doc : Document) :
    (Recorder.choosing choose).trace doc = (.ok (), (prune choose 0 0 doc.events).toArray) := by
  have hwalk : Records choose ((Recorder.choosing choose).visitor.walk doc) doc.events := by
    have htemplates : Records choose _ _ := records_walkTemplates doc.context 0 doc.templates
    have hall := (records_pure choose).bind (htemplates.bind (records_pure choose))
    rwa [List.nil_append, List.append_nil] at hall
  obtain ⟨noted, hout, hrest⟩ := hwalk #[]
  have hnoted : noted.toList = prune choose 0 0 doc.events := by simpa [prune] using hrest []
  rw [Recorder.trace, hout, ← hnoted, Array.toArray_toList]

end

theorem Document.fullTrace_eq (doc : Document) : doc.fullTrace = doc.events := by
  rw [fullTrace, trace_choosing, prune_children]

/-! ## What a trace shows -/

/-- The stops are those of the document, made in the order in which it is read. Between the two
stops at a node with fields are just those inside it. -/
structure Document.Tour (doc : Document) (stops : List Stop) : Prop where
  ordered : stops.Pairwise Stop.Before
  complete : ∀ s, s ∈ stops ↔ (doc.event? s).isSome
  bracketed : ∀ location node cx fields, doc.locate? location = some (node, cx) →
    node.fields? = some fields → ∃ before inside after,
      stops = before ++ .reach location :: (inside ++ .leave location :: after) ∧
        (∀ s ∈ inside, s.Inside location) ∧ ∀ s ∈ before ++ after, ¬ s.Inside location

/-- In an ordered list of stops the ends of a node enclose what is inside it. -/
theorem Stop.exists_bracket {stops : List Stop} (hordered : stops.Pairwise Before)
    {location : List Nat} (hreach : reach location ∈ stops) (hleave : leave location ∈ stops) :
    ∃ before inside after,
      stops = before ++ reach location :: (inside ++ leave location :: after) ∧
        (∀ s ∈ inside, s.Inside location) ∧ ∀ s ∈ before ++ after, ¬ s.Inside location := by
  have hends := reach_before_leave location
  obtain ⟨before, rest, rfl⟩ := List.append_of_mem hreach
  obtain ⟨-, hrest, hbefore⟩ := List.pairwise_append.mp hordered
  have hrest := List.pairwise_cons.mp hrest
  have hlater : leave location ∈ rest := by
    rcases List.mem_append.mp hleave with h | h
    · exact (lt_asymm hends (hbefore _ h _ List.mem_cons_self)).elim
    · exact (List.mem_cons.mp h).resolve_left (fun h => by cases h)
  obtain ⟨inside, after, rfl⟩ := List.append_of_mem hlater
  obtain ⟨-, hafter, hinside⟩ := List.pairwise_append.mp hrest.2
  refine ⟨before, inside, after, rfl, fun s hs => ?_, fun s hs hin => ?_⟩
  · exact (between_iff location s).mp
      ⟨hrest.1 s (List.mem_append_left _ hs), hinside s hs _ List.mem_cons_self⟩
  · obtain ⟨hreached, hleft⟩ := (between_iff location s).mpr hin
    rcases List.mem_append.mp hs with hs | hs
    · exact lt_asymm hreached (hbefore s hs _ List.mem_cons_self)
    · exact lt_asymm hleft ((List.pairwise_cons.mp hafter).1 s hs)

theorem Document.tour_stops (doc : Document) : doc.Tour doc.stops := by
  refine ⟨doc.pairwise_stops, doc.mem_stops_iff, fun location node cx fields hnode hfields => ?_⟩
  have hindex : ∃ index, location.getLast? = some index := by
    cases location with
    | nil => cases hnode
    | cons i rest => exact ⟨_, List.getLast?_eq_some_getLast (List.cons_ne_nil i rest)⟩
  obtain ⟨index, hindex⟩ := hindex
  have hevent (s : Stop) (hs : s.location = location) : s ∈ doc.stops := by
    rw [doc.mem_stops_iff, Document.event?, hs, hnode]
    cases s <;> simp [hindex, Located.event?, hfields]
  exact Stop.exists_bracket doc.pairwise_stops (hevent _ rfl) (hevent _ rfl)

/-- What recorders note on walks over a document: the full trace, without the events strictly
between the entering and the leaving of each node that they skip. -/
structure TraceSpec (doc : Document) : Prop where
  pruned : ∀ choose, (Recorder.choosing choose).trace doc =
    (.ok (), (prune choose 0 0 doc.fullTrace).toArray)
  full : ∃ stops, doc.Tour stops ∧ doc.fullTrace.map some = stops.map doc.event?

/-- The walk over a document is a tour of its nodes, less what is skipped. -/
theorem trace_spec (doc : Document) : TraceSpec doc where
  pruned choose := by rw [doc.fullTrace_eq, trace_choosing]
  full := ⟨doc.stops, doc.tour_stops, by rw [doc.fullTrace_eq, doc.map_event?_stops]⟩

end FastSchema
