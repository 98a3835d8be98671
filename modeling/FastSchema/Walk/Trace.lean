import FastSchema.Fault.Fallible
import FastSchema.Walk.Visitor

/-!
# Traces of a walk

A recorder notes every call it gets and may be told to leave out children or to stop with a fault
at an event.
-/

namespace FastSchema

/-- The kinds of nodes that a walk meets. -/
inductive NodeKind where
  | template
  | group
  | sequence
  | string
  | integer
  | decimal
  | byteVector
  | reference
deriving DecidableEq, Repr, Inhabited

def CompositeKind.nodeKind : CompositeKind → NodeKind
  | .group => .group
  | .sequence _ => .sequence

def Leaf.nodeKind : Leaf → NodeKind
  | .integer _ _ => .integer
  | .string _ _ => .string
  | .decimal _ => .decimal
  | .byteVector _ _ => .byteVector
  | .reference _ => .reference

/-- Entering a node, leaving it, or visiting a leaf. -/
inductive Moment where
  | enter
  | exit (numFields : Nat)
  | visit
deriving DecidableEq, Repr, Inhabited

structure Event where
  moment : Moment
  kind : NodeKind
  name : String
  index : Nat
  context : Context
deriving DecidableEq, Repr, Inhabited

/-- What a recorder does at an event, given how many events came before it. -/
structure Recorder where
  descend : Nat → Event → Descend
  stopsAt : Nat → Bool

namespace Recorder

/-- Notes an event, and stops there if so told. -/
def note (r : Recorder) (event : Event) : Fallible (Array Event) Nat := do
  let before := (← get).size
  modify (·.push event)
  if r.stopsAt before then throw (.internal (.stopped before))
  return before

def visitor (r : Recorder) : Visitor (Fallible (Array Event)) where
  enterDocument _ _ := pure ()
  exitDocument _ _ := pure ()
  enterTemplate t cx index := do
    let event : Event := ⟨.enter, .template, t.name, index, cx⟩
    return r.descend (← r.note event) event
  exitTemplate t cx numFields index := do
    let _ ← r.note ⟨.exit numFields, .template, t.name, index, cx⟩
  enterComposite c cx index := do
    let event : Event := ⟨.enter, c.kind.nodeKind, c.head.name, index, cx⟩
    return r.descend (← r.note event) event
  exitComposite c cx numFields index := do
    let _ ← r.note ⟨.exit numFields, c.kind.nodeKind, c.head.name, index, cx⟩
  visitLeaf head content cx index := do
    let _ ← r.note ⟨.visit, content.nodeKind, head.name, index, cx⟩

def trace (r : Recorder) (doc : Document) : Except Fault Unit × Array Event :=
  (r.visitor.walk doc).outcome #[]

end Recorder

end FastSchema
