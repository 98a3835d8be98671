import FastSchema.Accessors.Builder
import FastSchema.Metadata.Basic
import FastSchema.Proofs.Cpp.ScopeStack
import FastSchema.Proofs.Cpp.Writer

/-! # The accessors of a metadata report

Which accessors a report asks for and what they say, read off its records alone. A flattened
composite has no records inside it. -/

namespace FastSchema

open Cpp (View)
open Accessors (Access Accessor Definition)

/-! ## Records in their views -/

/-- The name under which the views of what is inside a composite are nested. -/
def CompositeRecord.innerName (name : String) : CompositeRecord → String
  | .group => name
  | .sequence _ => name ++ "_element"

/-- A field record and the names of the views around it, the outermost first. -/
structure Site where
  views : List String
  record : FieldInstruction

mutual

/-- The record and the records inside it, each before those inside it. -/
def FieldInstruction.sites (views : List String) : FieldInstruction → List Site
  | .leaf head payload => [⟨views, .leaf head payload⟩]
  | .owning head kind typeRef fields =>
    ⟨views, .owning head kind typeRef fields⟩ ::
      FieldInstruction.sitesIn (views ++ [kind.innerName head.name]) fields
  | .flattened head kind typeRef body => [⟨views, .flattened head kind typeRef body⟩]

def FieldInstruction.sitesIn (views : List String) : List FieldInstruction → List Site
  | [] => []
  | record :: records =>
    FieldInstruction.sites views record ++ FieldInstruction.sitesIn views records

end

def Metadata.sites (m : Metadata) : List Site :=
  m.templates.flatMap fun t => FieldInstruction.sitesIn [t.name] t.fields

/-! ## Names and types -/

/-- The kind of the operator, for a payload that has a single one. -/
def LeafPayload.operatorKind? : LeafPayload → Option OperatorKind
  | .integer _ op _ => some op.kind
  | .decimal op _ => some op.kind
  | .splitDecimal _ _ _ _ => none
  | .string _ op _ _ => some op.kind
  | .byteVector op _ _ => some op.kind
  | .reference _ => none

/-- A mandatory leaf whose single operator is `constant`. -/
def FieldInstruction.isFixed : FieldInstruction → Bool
  | .leaf head payload =>
    head.presence = .mandatory && payload.operatorKind? = some .constant
  | .owning _ _ _ _ => false
  | .flattened _ _ _ _ => false

def FieldInstruction.accessorName : FieldInstruction → String
  | .leaf _ (.reference (some target)) => target.name
  | .leaf head (.reference none) => "nested_message" ++ toString head.index
  | .leaf head _ => head.name
  | .owning head _ _ _ => head.name
  | .flattened head _ _ _ => head.name

def Cpp.View.verb : View → String
  | .cref => "get_"
  | .mref => "set_"

def Cpp.View.scope (view : View) (views : List String) : String :=
  String.join (views.map fun name => name ++ view.suffix ++ "::")

/-- The type of a leaf without the suffix of its view. -/
def LeafPayload.typeStem (unit : String) : LeafPayload → String
  | .integer type _ _ =>
    "mfast::" ++ (if type.signed then "int" else "uint") ++ toString type.width.bits
  | .decimal _ _ => "mfast::decimal"
  | .splitDecimal _ _ _ _ => "mfast::decimal"
  | .string .ascii _ _ _ => "mfast::ascii_string"
  | .string .unicode _ _ _ => "mfast::unicode_string"
  | .byteVector _ _ _ => "mfast::byte_vector"
  | .reference (some target) => target.typeName unit
  | .reference none => "mfast::nested_message"

/-! ## Texts -/

/-- A function of a generated file: an empty line, its declaration, and its body in braces. -/
def functionText (declaration body : List String) : String :=
  "\n" ++ String.join (declaration.map fun s => s ++ "\n") ++ "\x7b\n" ++
    String.join (body.map fun s => "  " ++ s ++ "\n") ++ "\x7d\n"

def fieldText (index : Nat) : String := "(*this)[" ++ toString index ++ "]"

namespace Site

/-- A composite has a view of its own among those of the node around it. -/
def type (unit : String) (view : View) (site : Site) : String :=
  match site.record with
  | .leaf _ payload => payload.typeStem unit ++ view.suffix
  | .owning head _ _ _ => view.scope site.views ++ head.name ++ view.suffix
  | .flattened head _ _ _ => view.scope site.views ++ head.name ++ view.suffix

/-- What an accessor of the record answers. Only a group with a slot for any message stores its
content one level down. -/
def value (unit : String) (view : View) (site : Site) : String :=
  let type := site.type unit view
  let field := fieldText site.record.head.index
  match site.record with
  | .leaf _ (.reference none) => type ++ "(" ++ field ++ ")"
  | .flattened _ .group _ (.slot _) =>
    "static_cast<" ++ type ++ ">( mfast::aggregate" ++ view.suffix ++ "(" ++ field ++ ")[0] )"
  | _ => "static_cast<" ++ type ++ ">(" ++ field ++ ")"

/-- The accessor that answers the given view of the record's field. -/
def text (unit : String) (view : View) (site : Site) : String :=
  functionText
    ["inline " ++ site.type unit view,
      view.scope site.views ++ view.verb ++ site.record.accessorName ++ "() const"]
    ["return " ++ site.value unit view ++ ";"]

end Site

/-! ## Parts of an accessor file -/

/-- An accessor of a record, or the text of something else. -/
inductive Part where
  | getter (site : Site)
  | setter (site : Site)
  | support (text : String)

namespace Part

def text (unit : String) : Part → String
  | .getter site => site.text unit .cref
  | .setter site => site.text unit .mref
  | .support text => text

def isAccessor : Part → Bool
  | .support _ => false
  | _ => true

end Part

/-- The accessors of the record: for reading and, unless its value is fixed, for writing. -/
def Site.parts (site : Site) : List Part :=
  .getter site :: if site.record.isFixed then [] else [.setter site]

/-- What stands beside the accessors: the braces of the namespace, constructors, which have no type
and of which only that for a copy of a message has a body, and the conversions of messages. -/
inductive Support (m : Metadata) : String → Prop where
  | opening : Support m ("namespace " ++ m.unit ++ "\n\x7b\n")
  | closing : Support m "\n\x7d\n"
  | constructor (view : View) (views : List String) (name init : String) (params : List String) :
    Support m (functionText ("inline" :: (view.scope views ++ name ++ "::" ++ name ++ "(") ::
      params.map ("  " ++ ·) ++ ["  : " ++ init]) [])
  | copy (name init : String) (params : List String)
      (hname : name ∈ m.templates.map TemplateInstruction.name) :
    Support m (functionText ("inline" :: (name ++ "::" ++ name ++ "(") ::
      params.map ("  " ++ ·) ++ ["  : " ++ init])
        ["this->instruction()->copy_construct_value(my_storage_, this->data(), alloc, " ++
          "other.field_storage(0));"])
  | conversion (name type method qualifier alloc : String)
      (hname : name ∈ m.templates.map TemplateInstruction.name)
      (htype : type ∈ ["cref_type", "mref_type"]) (hmethod : method ∈ ["ref", "cref", "mref"])
      (hqualifier : qualifier ∈ ["", " const"]) (halloc : alloc ∈ ["", "alloc_, "]) :
    Support m (functionText ["inline " ++ (name ++ "::" ++ type),
      name ++ "::" ++ method ++ "()" ++ qualifier]
        ["return " ++ name ++ "::" ++ type ++ "(" ++ alloc ++
          "my_storage_.of_group.content_, instruction());"])

namespace Site

def access (site : Site) : Access :=
  match site.record with
  | .leaf head (.reference none) => .construct head.index
  | .flattened head .group _ (.slot _) => .castFirst head.index
  | record => .cast record.head.index

def accessor (unit : String) (view : View) (site : Site) : Accessor :=
  ⟨view, view.scope site.views, site.record.accessorName, site.type unit view, site.access⟩

def accessors (unit : String) (site : Site) : List Accessor :=
  site.accessor unit .cref ::
    if site.record.isFixed then [] else [site.accessor unit .mref]

end Site

namespace Accessors

def constructorsIn (views : List String) (name : String) : CompositeRecord → List Definition
  | .group => groupDefinitions (·.scope views) name
  | .sequence _ => elementDefinitions (·.scope views) name

mutual

/-- The definitions of a record inside the given views. -/
def recordDefinitions (unit : String) (views : List String) : FieldInstruction → List Definition
  | .leaf head payload =>
    (Site.accessors unit ⟨views, .leaf head payload⟩).map .accessor
  | .owning head kind typeRef fields =>
    (Site.accessors unit ⟨views, .owning head kind typeRef fields⟩).map .accessor ++
      (constructorsIn views head.name kind ++
        recordsDefinitions unit (views ++ [kind.innerName head.name]) fields)
  | .flattened head kind typeRef body =>
    (Site.accessors unit ⟨views, .flattened head kind typeRef body⟩).map .accessor

def recordsDefinitions (unit : String) (views : List String) :
    List FieldInstruction → List Definition
  | [] => []
  | record :: records =>
    recordDefinitions unit views record ++ recordsDefinitions unit views records

end

/-- The definitions of the accessor file of a unit. -/
def fileDefinitions (m : Metadata) : List Definition :=
  .openNamespace m.unit ::
    m.templates.flatMap (fun t => templateDefinitions t.name ++
      recordsDefinitions m.unit [t.name] t.fields) ++
    [.closeNamespace]

def Definition.accessor? : Definition → Option Accessor
  | .accessor a => some a
  | _ => none

@[simp] theorem filterMap_templateDefinitions (name : String) :
    (templateDefinitions name).filterMap Definition.accessor? = [] := rfl

def textOf (definitions : List Definition) : String :=
  (definitions.foldl (fun w d => d.write w) Cpp.Writer.empty).text

end Accessors

end FastSchema
