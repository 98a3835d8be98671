import FastSchema.Cpp.ScopeStack
import FastSchema.Cpp.Writer

/-!
# Definitions of an accessor file

The accessor file of a unit defines the constructors of its views and, for every field, a function
that reads it and possibly one that writes it. Here are the definitions and how they are written.
-/

namespace FastSchema.Accessors

open Cpp (View Writer runtime punctuate)

/-- How an accessor gets at the field at a position: by a cast of the field or of the first field
inside it, or by constructing a view of it. -/
inductive Access where
  | cast (index : Nat)
  | castFirst (index : Nat)
  | construct (index : Nat)
deriving DecidableEq, Repr, Inhabited

/-- A function that answers a view of a field; `scope` is that of the view which has the field. -/
structure Accessor where
  view : View
  scope : String
  name : String
  type : String
  access : Access
deriving DecidableEq, Repr, Inhabited

inductive Definition where
  | openNamespace (unit : String)
  | closeNamespace
  | constructor (qualified : String) (params : List String) (init : String) (body : List String)
  | method (type qualified qualifier : String) (body : List String)
  | accessor (accessor : Accessor)
deriving DecidableEq, Repr, Inhabited

namespace Accessor

/-- The expression that the accessor answers. -/
def expression (a : Accessor) : String :=
  match a.access with
  | .cast index => "static_cast<" ++ a.type ++ ">((*this)[" ++ toString index ++ "])"
  | .castFirst index =>
    "static_cast<" ++ a.type ++ ">( " ++ runtime ("aggregate_" ++ a.view.name) ++ "((*this)[" ++
      toString index ++ "])[0] )"
  | .construct index => a.type ++ "((*this)[" ++ toString index ++ "])"

def verb (a : Accessor) : String :=
  match a.view with
  | .cref => "get_"
  | .mref => "set_"

def qualifiedName (a : Accessor) : String :=
  a.scope ++ a.verb ++ a.name

end Accessor

namespace Definition

def writeMethod (type qualified qualifier : String) (body : List String) (w : Writer) : Writer :=
  (((w.blank.line ("inline " ++ type)).line
    (qualified ++ "()" ++ qualifier)).openBlock.lines body).closeBlock

def write : Definition → Writer → Writer
  | .openNamespace unit, w => (w.line ("namespace " ++ unit)).line "\x7b"
  | .closeNamespace, w => w.blank.line "\x7d"
  | .constructor qualified params init body, w =>
    let w := (w.blank.line "inline").line (qualified ++ "(")
    let w := w.lines ((punctuate ")" params).map ("  " ++ ·))
    ((w.line ("  : " ++ init)).openBlock.lines body).closeBlock
  | .method type qualified qualifier body, w => writeMethod type qualified qualifier body w
  | .accessor a, w =>
    writeMethod a.type a.qualifiedName " const" ["return " ++ a.expression ++ ";"] w

end Definition

/-! ## Views and their constructors -/

def aggregateStorage : String :=
  runtime "detail::field_storage_helper::storage_ptr_of(other)->of_group.content_"

def templateDefinitions (name : String) : List Definition :=
  let cref := name ++ "_cref"
  let mref := name ++ "_mref"
  let narrowed := "static_cast<instruction_cptr>(other.instruction())"
  let conversion (type method qualifier alloc : String) : Definition :=
    .method (name ++ "::" ++ type) (name ++ "::" ++ method) qualifier
      ["return " ++ name ++ "::" ++ type ++ "(" ++ alloc ++
        "my_storage_.of_group.content_, instruction());"]
  [.constructor (cref ++ "::" ++ cref)
      ["const " ++ runtime "value_storage* storage_array",
       "instruction_cptr            instruction"]
      (runtime "aggregate_cref(storage_array, instruction)") [],
   .constructor (cref ++ "::" ++ cref) ["const " ++ runtime "field_cref& other"]
      (runtime "aggregate_cref(" ++ aggregateStorage ++ ", " ++ narrowed ++ ")") [],
   .constructor (mref ++ "::" ++ mref)
      [runtime "allocator*     alloc", runtime "value_storage* storage_array",
       "instruction_cptr      instruction"]
      (mref ++ "_base(alloc, storage_array, instruction)") [],
   .constructor (mref ++ "::" ++ mref) ["const " ++ runtime "field_mref_base& other"]
      (mref ++ "_base(other.allocator(), " ++ aggregateStorage ++ ", " ++ narrowed ++ ")") [],
   .constructor (name ++ "::" ++ name) [runtime "allocator* alloc"]
      (runtime "message_type(alloc, instruction(), this->data())") [],
   .constructor (name ++ "::" ++ name)
      ["const " ++ cref ++ "& other", runtime "allocator* alloc"]
      (runtime "message_type(alloc, instruction())")
      ["this->instruction()->copy_construct_value(my_storage_, this->data(), alloc, " ++
        "other.field_storage(0));"],
   conversion "cref_type" "ref" " const" "",
   conversion "cref_type" "cref" " const" "",
   conversion "mref_type" "ref" "" "alloc_, ",
   conversion "mref_type" "mref" "" "alloc_, "]

/-- The constructors of the views of a group; `scope` qualifies the views around it. -/
def groupDefinitions (scope : View → String) (name : String) : List Definition :=
  let cref := scope .cref ++ name ++ "_cref"
  let mref := scope .mref ++ name ++ "_mref"
  [.constructor (cref ++ "::" ++ name ++ "_cref")
      ["const " ++ runtime "value_storage*   storage", cref ++ "::instruction_cptr instruction"]
      (runtime "group_cref(storage, instruction)") [],
   .constructor (cref ++ "::" ++ name ++ "_cref") ["const " ++ runtime "field_cref& other"]
      (runtime "group_cref(other)") [],
   .constructor (mref ++ "::" ++ name ++ "_mref")
      [runtime "allocator*      alloc", runtime "value_storage*  storage",
       mref ++ "::instruction_cptr instruction"]
      (mref ++ "_base(alloc, storage, instruction)") [],
   .constructor (mref ++ "::" ++ name ++ "_mref") ["const " ++ runtime "field_mref_base& other"]
      (mref ++ "_base(other)") []]

def elementDefinitions (scope : View → String) (name : String) : List Definition :=
  let cref := scope .cref ++ name ++ "_element_cref"
  let mref := scope .mref ++ name ++ "_element_mref"
  [.constructor (cref ++ "::" ++ name ++ "_element_cref")
      ["const " ++ runtime "value_storage*   storage", cref ++ "::instruction_cptr instruction"]
      (cref ++ "_base(storage, instruction)") [],
   .constructor (mref ++ "::" ++ name ++ "_element_mref")
      [runtime "allocator*       alloc", runtime "value_storage*   storage",
       mref ++ "::instruction_cptr instruction"]
      (mref ++ "_base(alloc, storage, instruction)") []]

end FastSchema.Accessors
