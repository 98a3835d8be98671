import FastSchema.Fault

/-!
# Qualified scopes of nested views

Each field or template has a read view and a write view, nested in those of the node around it.
The stack holds the names of the open nodes; a view is qualified by all of them.
-/

namespace FastSchema.Cpp

/-- The two views of a node, for reading and for writing. -/
inductive View where
  | cref
  | mref
deriving DecidableEq, Repr, Inhabited

def View.name : View → String
  | .cref => "cref"
  | .mref => "mref"

/-- The names of the open nodes, the innermost first. -/
structure ScopeStack where
  segments : List String
deriving DecidableEq, Repr, Inhabited

namespace ScopeStack

def empty : ScopeStack := ⟨[]⟩

def push (s : ScopeStack) (name : String) : ScopeStack :=
  ⟨name :: s.segments⟩

/-- Removes the top segment, which has to be `name`. Another segment is removed all the same. -/
def pop (s : ScopeStack) (name : String) : Except Fault Unit × ScopeStack :=
  match s.segments with
  | [] => (.error (.internal (.emptyScope name)), s)
  | top :: below =>
    (if top = name then .ok () else .error (.internal (.scopeMismatch name top)), ⟨below⟩)

def depth (s : ScopeStack) : Nat := s.segments.length

/-- The name of a node in front of what its view contains. -/
def segment (view : View) (name : String) : String :=
  name ++ "_" ++ view.name ++ "::"

/-- The scope of the innermost open view, from the outermost on. -/
def qualifier (s : ScopeStack) (view : View) : String :=
  String.join (s.segments.reverse.map (segment view))

@[simp] theorem segments_push (s : ScopeStack) (name : String) :
    (s.push name).segments = name :: s.segments := rfl

@[simp] theorem pop_push (s : ScopeStack) (name : String) :
    (s.push name).pop name = (.ok (), s) := by
  simp [pop, push]

theorem qualifier_push (s : ScopeStack) (name : String) (view : View) :
    (s.push name).qualifier view = s.qualifier view ++ segment view name := by
  rw [qualifier, segments_push, List.reverse_cons, List.map_append, String.join_append, qualifier]
  simp

end ScopeStack

end FastSchema.Cpp
