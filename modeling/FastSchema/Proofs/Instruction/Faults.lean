import FastSchema.Proofs.Instruction.Recursion

/-! # Which fault comes first

All faults of a document, in the order in which the recursion meets them and whether it gets that
far or not. The recursion stops with the first of them. -/

namespace FastSchema

variable {α β : Type}

/-! ## The fault that a computation stops with -/

def fault? : Except Fault α → Option Fault
  | .ok _ => none
  | .error fault => some fault

def faultsOf (x : Except Fault α) : List Fault := (fault? x).toList

/-- The computation stops with the first of the faults; if there is none it does not stop. -/
def StopsAt (x : Except Fault α) (faults : List Fault) : Prop := fault? x = faults.head?

theorem stopsAt_pure (a : α) : StopsAt (pure a) [] := rfl

theorem stopsAt_faultsOf (x : Except Fault α) : StopsAt x (faultsOf x) := by
  cases x <;> rfl

theorem mem_faultsOf {x : Except Fault α} {fault : Fault} :
    fault ∈ faultsOf x ↔ x = .error fault := by
  cases x <;> simp [faultsOf, fault?, eq_comm]

theorem StopsAt.bind {x : Except Fault α} {f : α → Except Fault β} {first rest : List Fault}
    (hx : StopsAt x first) (hf : ∀ a, StopsAt (f a) rest) : StopsAt (x >>= f) (first ++ rest) := by
  cases x with
  | error fault =>
      have hfirst : first.head? = some fault := hx.symm
      simp [StopsAt, fault?, hfirst]
  | ok a =>
      obtain rfl : first = [] := List.head?_eq_none_iff.mp hx.symm
      exact hf a

theorem StopsAt.map {x : Except Fault α} {faults : List Fault} (h : StopsAt x faults)
    (f : α → β) : StopsAt (x.map f) faults := by
  cases x <;> exact h

theorem StopsAt.bind_pure {x : Except Fault α} {faults : List Fault} (h : StopsAt x faults)
    (f : α → β) : StopsAt (x >>= fun a => pure (f a)) faults := by
  simpa using h.bind fun a => stopsAt_pure (f a)

theorem stopsAt_error_iff {x : Except Fault α} {faults : List Fault} (h : StopsAt x faults)
    (fault : Fault) : x = .error fault ↔ faults.head? = some fault := by
  rw [← h]
  cases x <;> simp [fault?]

/-! ## Faults of a document -/

/-- The faults of the initial value of an operator. -/
def initialFaults (operator : Option Operator) (read : String → Except Fault α) : List Fault :=
  faultsOf ((OperatorRecord.ofOperator operator).initialAs read)

def idFaults (owner : String) (attrs : Attributes) : List Fault := faultsOf (parseId owner attrs)

def lengthFaults : Option Length → List Fault
  | none => []
  | some l => idFaults (l.attrs.getD "name") l.attrs

def Leaf.faults (known : Registry) (cx : Context) (head : FieldHead) : Leaf → List Fault
  | .integer type operator => initialFaults operator (parseInteger head.name type)
  | .string _ length =>
    match head.charset with
    | .unicode => lengthFaults length
    | .ascii => []
  | .decimal (.whole operator) => initialFaults operator Decimal.parse
  | .decimal (.split mantissa exponent) =>
    initialFaults mantissa (parseMantissa head.name) ++
      initialFaults exponent (parseExponent head.name)
  | .byteVector operator length => initialFaults operator ByteVector.parse ++ lengthFaults length
  | .reference r => faultsOf (known.resolve cx r)

/-- The faults of the length of a sequence, its initial value before its id. -/
def CompositeKind.faults : CompositeKind → List Fault
  | .group => []
  | .sequence none => []
  | .sequence (some l) =>
    let name := l.attrs.getD "name"
    initialFaults l.operator (parseInteger name .uint32) ++ idFaults name l.attrs

mutual

/-- The faults of a field in a node with context `cx`. The id comes last, after all that is inside
the field. -/
def Field.faults (known : Registry) (cx : Context) : Field → List Fault
  | .leaf head content =>
    content.faults known (cx.inherit head.attrs) head ++ idFaults head.name head.attrs
  | .composite head kind _ fields =>
    let inner := cx.inherit head.attrs
    let inside :=
      match soleReference? fields with
      | some r => faultsOf (known.resolve inner r)
      | none => Field.faultsIn known inner fields
    kind.faults ++ (inside ++ idFaults head.name head.attrs)

def Field.faultsIn (known : Registry) (cx : Context) : List Field → List Fault
  | [] => []
  | field :: fields => Field.faults known cx field ++ Field.faultsIn known cx fields

end

/-- The faults of a template in a document with context `cx`, that of its id last. -/
def Template.faults (known : Registry) (cx : Context) (t : Template) : List Fault :=
  Field.faultsIn known (cx.inherit t.attrs) t.fields ++ idFaults t.name t.attrs

def Document.faults (doc : Document) (known : Registry) : List Fault :=
  doc.templates.flatMap (Template.faults known doc.context)

/-! ## The recursion stops with the first -/

theorem FieldHead.stopsAt_record (head : FieldHead) (index : Nat) :
    StopsAt (head.record index) (idFaults head.name head.attrs) :=
  (stopsAt_faultsOf _).map _

theorem stopsAt_ofLength (length : Option Length) :
    StopsAt (LengthRecord.ofLength length) (lengthFaults length) := by
  cases length with
  | none => rfl
  | some l => exact (stopsAt_faultsOf _).map _

theorem Leaf.stopsAt_payload (known : Registry) (cx : Context) (head : FieldHead)
    (content : Leaf) :
    StopsAt (content.payload (known.resolve cx) head) (content.faults known cx head) := by
  cases content with
  | integer type operator => exact (stopsAt_faultsOf _).bind_pure _
  | string operator length =>
      unfold Leaf.payload Leaf.faults
      cases head.charset with
      | unicode => exact (stopsAt_ofLength length).bind_pure _
      | ascii => exact stopsAt_pure _
  | decimal shape =>
      cases shape with
      | whole operator => exact (stopsAt_faultsOf _).bind_pure _
      | split mantissa exponent =>
          exact (stopsAt_faultsOf _).bind fun initial => (stopsAt_faultsOf _).bind_pure _
  | byteVector operator length =>
      refine (stopsAt_faultsOf _).bind fun initial => ?_
      cases length with
      | none => exact stopsAt_pure _
      | some l => exact ((stopsAt_faultsOf _).map _).bind_pure _
  | reference r => exact (stopsAt_faultsOf _).bind_pure _

theorem CompositeKind.stopsAt_record (kind : CompositeKind) (head : FieldHead) :
    StopsAt (kind.record head) kind.faults := by
  cases kind with
  | group => rfl
  | sequence length =>
      cases length with
      | none => rfl
      | some l =>
          refine StopsAt.map ?_ _
          exact (stopsAt_faultsOf _).bind fun initial => (stopsAt_faultsOf _).bind_pure _

mutual

/-- The recursion over a field stops with its first fault. -/
theorem Field.stopsAt_instruction (known : Registry) (cx : Context) (index : Nat)
    (field : Field) : StopsAt (field.instruction known cx index) (field.faults known cx) := by
  cases field with
  | leaf head content =>
      rw [Field.instruction, Field.faults]
      exact (content.stopsAt_payload known _ head).bind fun payload =>
        (head.stopsAt_record index).bind_pure _
  | composite head kind typeRef fields =>
      rw [Field.instruction, Field.faults]
      refine (kind.stopsAt_record head).bind fun record => ?_
      cases soleReference? fields with
      | some r =>
          exact (stopsAt_faultsOf _).bind fun target => (head.stopsAt_record index).bind_pure _
      | none =>
          exact (Field.stopsAt_instructions known _ 0 fields).bind fun children =>
            (head.stopsAt_record index).bind_pure _

theorem Field.stopsAt_instructions (known : Registry) (cx : Context) (index : Nat)
    (fields : List Field) :
    StopsAt (Field.instructions known cx index fields) (Field.faultsIn known cx fields) := by
  cases fields with
  | nil =>
      rw [Field.instructions, Field.faultsIn]
      exact stopsAt_pure _
  | cons field fields =>
      rw [Field.instructions, Field.faultsIn]
      exact (Field.stopsAt_instruction known cx index field).bind fun record =>
        (Field.stopsAt_instructions known cx (index + 1) fields).bind_pure _

end

theorem Template.stopsAt_instruction (known : Registry) (cx : Context) (index : Nat)
    (t : Template) : StopsAt (t.instruction known cx index) (t.faults known cx) :=
  (Field.stopsAt_instructions known _ 0 t.fields).bind fun _ => (stopsAt_faultsOf _).map _

theorem Template.stopsAt_instructions (known : Registry) (cx : Context) (index : Nat)
    (ts : List Template) :
    StopsAt (Template.instructions known cx index ts) (ts.flatMap (Template.faults known cx)) := by
  induction ts generalizing index with
  | nil => exact stopsAt_pure _
  | cons t ts ih =>
      exact (t.stopsAt_instruction known cx index).bind fun record => (ih (index + 1)).bind_pure _

/-- A document has no report exactly if it has a fault, and then the first one is reported. -/
theorem Document.stopsAt_metadata (doc : Document) (unit digest : String) (known : Registry) :
    StopsAt (doc.metadata unit digest known) (doc.faults known) :=
  (Template.stopsAt_instructions known doc.context 0 doc.templates).bind_pure _

end FastSchema
