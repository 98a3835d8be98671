import FastSchema.Metadata.Basic
import FastSchema.Proofs.Json.Injective
import FastSchema.Proofs.Literal.Integer

/-! # Records of different contents

Records with the same JSON value are equal. Only for integers is there a condition: a number does
not show whether it is kept as a signed or an unsigned value, so this has to follow from the type
that is written beside it. -/

namespace FastSchema

open Function (Injective)

/-! ## Names and numbers -/

theorem OperatorKind.name_injective : Injective OperatorKind.name := by
  intro k l h
  cases k <;> cases l <;> simp_all [name]

theorem Presence.name_injective : Injective Presence.name := by
  intro p q h
  cases p <;> cases q <;> simp_all [name]

theorem Charset.name_injective : Injective Charset.name := by
  intro c d h
  cases c <;> cases d <;> simp_all [name]

theorem Width.bits_injective : Injective Width.bits := by
  intro v w h
  cases v <;> cases w <;> simp_all [bits]

theorem UInt32.natCast_toNat_inj {a b : UInt32} (h : (a.toNat : Int) = b.toNat) : a = b :=
  UInt32.toNat_inj.mp (by omega)

/-! ## Members -/

namespace Json

variable {α : Type} {key : String} {toJson : α → Json}

/-- The next member, if there is one, has another key. -/
def NotNext (key : String) (members : List (String × Json)) : Prop :=
  ∀ m ∈ members.head?, m.1 ≠ key

theorem notNext_nil : NotNext key [] := by simp [NotNext]

theorem notNext_cons {k : String} (h : k ≠ key) (v : Json) (members : List (String × Json)) :
    NotNext key ((k, v) :: members) := by
  simpa [NotNext] using h

theorem notNext_optional (toJson : α → Json) {k : String} (h : k ≠ key) (a : Option α)
    {members : List (String × Json)} (hmembers : NotNext key members) :
    NotNext key (optional k toJson a ++ members) := by
  cases a with
  | none => exact hmembers
  | some x => exact notNext_cons h _ members

/-- A member that may be missing is told from what follows it by its key. -/
theorem cancel_optional {a b : Option α} {members members' : List (String × Json)}
    (hinj : ∀ x ∈ a, ∀ y ∈ b, toJson x = toJson y → x = y)
    (hkey : NotNext key members) (hkey' : NotNext key members')
    (h : optional key toJson a ++ members = optional key toJson b ++ members') :
    a = b ∧ members = members' := by
  cases a with
  | none =>
      cases b with
      | none => exact ⟨rfl, h⟩
      | some y =>
          obtain rfl : members = (key, toJson y) :: members' := h
          exact (hkey _ rfl rfl).elim
  | some x =>
      cases b with
      | none =>
          obtain rfl : (key, toJson x) :: members = members' := h
          exact (hkey' _ rfl rfl).elim
      | some y =>
          obtain ⟨hxy, hmembers⟩ := List.cons.inj h
          have hvalue : x = y := hinj x rfl y rfl (Prod.mk.inj hxy).2
          exact ⟨congrArg some hvalue, hmembers⟩

theorem cancel_optional_last {a b : Option α}
    (hinj : ∀ x ∈ a, ∀ y ∈ b, toJson x = toJson y → x = y)
    (h : optional key toJson a = optional key toJson b) : a = b := by
  rw [← List.append_nil (optional key toJson a), ← List.append_nil (optional key toJson b)] at h
  exact (cancel_optional hinj notNext_nil notNext_nil h).1

theorem inj_of_mem (hinj : Injective toJson) (a b : Option α) :
    ∀ x ∈ a, ∀ y ∈ b, toJson x = toJson y → x = y := fun _ _ _ _ hxy => hinj hxy

theorem optional_injective (hinj : Injective toJson) : Injective (optional key toJson) :=
  fun a b h => cancel_optional_last (inj_of_mem hinj a b) h

theorem string_injective : Injective Json.string := fun _ _ h => Json.string.inj h

def kind? : Json → Option String
  | object (("kind", string kind) :: _) => some kind
  | _ => none

end Json

open Json (cancel_optional cancel_optional_last inj_of_mem optional_injective notNext_nil
  notNext_cons notNext_optional)

/-! ## Parts of records -/

theorem OperatorContext.toJson_injective : Injective OperatorContext.toJson := by
  intro c d h
  cases c
  cases d
  simp_all [toJson]

theorem LengthRecord.toJson_injective : Injective LengthRecord.toJson := by
  intro l m h
  obtain ⟨id, name, ns⟩ := l
  obtain ⟨id', name', ns'⟩ := m
  simp only [toJson, Json.object.injEq, List.cons.injEq, Prod.mk.injEq, Json.number.injEq,
    Json.string.injEq, true_and, and_true] at h
  obtain ⟨hid, rfl, rfl⟩ := h
  rw [UInt32.natCast_toNat_inj hid]

theorem TypeRef.toJson_injective : Injective TypeRef.toJson := by
  intro t u h
  cases t
  cases u
  simp_all [toJson]

theorem Target.toJson_injective : Injective Target.toJson := by
  intro t u h
  cases t
  cases u
  simp_all [toJson]

theorem Decimal.toJson_injective : Injective Decimal.toJson := by
  intro d e h
  obtain ⟨mantissa, exponent⟩ := d
  obtain ⟨mantissa', exponent'⟩ := e
  simp only [toJson, Json.object.injEq, List.cons.injEq, Prod.mk.injEq, Json.number.injEq,
    true_and, and_true] at h
  rw [Int64.toInt_inj.mp h.1, Int32.toInt_inj.mp h.2]

theorem OperatorRecord.toJson_injective : Injective OperatorRecord.toJson := by
  intro op op' h
  obtain ⟨kind, context, initial⟩ := op
  obtain ⟨kind', context', initial'⟩ := op'
  simp only [toJson, Json.object.injEq, List.cons_append, List.nil_append, List.cons.injEq,
    Prod.mk.injEq, Json.string.injEq, true_and] at h
  obtain ⟨hkind, hmembers⟩ := h
  have hnext (i : Option String) :
      Json.NotNext "context" (Json.optional "initial_value" Json.string i) := by
    simpa using notNext_optional Json.string (by decide) i notNext_nil
  obtain ⟨rfl, hlast⟩ := cancel_optional (inj_of_mem OperatorContext.toJson_injective _ _)
    (hnext initial) (hnext initial') hmembers
  have hinitial : initial = initial' := optional_injective Json.string_injective hlast
  rw [OperatorKind.name_injective hkind, hinitial]

theorem RecordHead.toJson_inj {head head' : RecordHead} {payload payload' : Json}
    (h : head.toJson payload = head'.toJson payload') : head = head' ∧ payload = payload' := by
  obtain ⟨index, presence, id, name, ns, dictionary⟩ := head
  obtain ⟨index', presence', id', name', ns', dictionary'⟩ := head'
  simp only [toJson, Json.object.injEq, List.cons.injEq, Prod.mk.injEq, Json.number.injEq,
    Json.string.injEq, true_and, and_true] at h
  obtain ⟨hindex, hpresence, hid, rfl, rfl, rfl, rfl⟩ := h
  have hindex : index = index' := by omega
  rw [hindex, Presence.name_injective hpresence, UInt32.natCast_toNat_inj hid]
  exact ⟨rfl, rfl⟩

theorem FlatBody.toJson_injective : Injective FlatBody.toJson := by
  intro b c h
  cases b with
  | borrowed target =>
      cases c with
      | borrowed target' =>
          have htarget : target.toJson = target'.toJson := by simpa [toJson] using h
          rw [Target.toJson_injective htarget]
      | slot presence => simp [toJson] at h
  | slot presence =>
      cases c with
      | borrowed target => simp [toJson] at h
      | slot presence' =>
          have hpresence : presence.name = presence'.name := by simpa [toJson] using h
          rw [Presence.name_injective hpresence]

/-! ## Integers -/

theorem integerMembers_inj {t t' : IntType} {op op' : OperatorRecord}
    {initial initial' : Option IntValue} (hadmits : t.Admits initial)
    (hadmits' : t'.Admits initial')
    (h : integerMembers t op initial = integerMembers t' op' initial') :
    t = t' ∧ op = op' ∧ initial = initial' := by
  obtain ⟨signed, width⟩ := t
  obtain ⟨signed', width'⟩ := t'
  simp only [integerMembers, List.cons_append, List.nil_append, List.cons.injEq, Prod.mk.injEq,
    Json.bool.injEq, Json.number.injEq, true_and] at h
  obtain ⟨rfl, hbits, hop, h⟩ := h
  have hwidth : width = width' := Width.bits_injective (by omega)
  have hinitial : initial = initial' := by
    refine cancel_optional_last (fun v hv w hw hvw => ?_) h
    have hform : v.isSigned = w.isSigned := (hadmits v hv).1.trans (hadmits' w hw).1.symm
    exact IntValue.toInt_inj hform (Json.number.inj hvw)
  rw [hwidth, OperatorRecord.toJson_injective hop, hinitial]
  exact ⟨rfl, rfl, rfl⟩

theorem SequenceLength.toJson_inj {l m : SequenceLength} (hl : IntType.uint32.Admits l.initial)
    (hm : IntType.uint32.Admits m.initial) (h : l.toJson = m.toJson) : l = m := by
  obtain ⟨head, op, initial⟩ := l
  obtain ⟨head', op', initial'⟩ := m
  obtain ⟨rfl, hpayload⟩ := RecordHead.toJson_inj h
  obtain ⟨-, rfl, rfl⟩ := integerMembers_inj hl hm (Json.object.inj hpayload)
  rfl

/-! ## Payloads -/

/-- The initial value and the length, each of which may be missing, are the last members of the
payloads that have a length. -/
theorem cancel_length {α : Type} {toJson : α → Json} {initial initial' : Option α}
    {length length' : Option LengthRecord}
    (hinj : ∀ x ∈ initial, ∀ y ∈ initial', toJson x = toJson y → x = y)
    (h : Json.optional "initial" toJson initial ++
        Json.optional "length" LengthRecord.toJson length =
      Json.optional "initial" toJson initial' ++
        Json.optional "length" LengthRecord.toJson length') :
    initial = initial' ∧ length = length' := by
  have hnext (l : Option LengthRecord) :
      Json.NotNext "initial" (Json.optional "length" LengthRecord.toJson l) := by
    simpa using notNext_optional LengthRecord.toJson (by decide) l notNext_nil
  obtain ⟨hinitial, hlast⟩ := cancel_optional hinj (hnext length) (hnext length') h
  exact ⟨hinitial, optional_injective LengthRecord.toJson_injective hlast⟩

/-- The integers of the payload are values of their types. -/
def LeafPayload.Admitted : LeafPayload → Prop
  | .integer type _ initial => type.Admits initial
  | _ => True

def LeafPayload.kindName : LeafPayload → String
  | .integer _ _ _ => "integer"
  | .decimal _ _ => "decimal"
  | .splitDecimal _ _ _ _ => "split_decimal"
  | .string _ _ _ _ => "string"
  | .byteVector _ _ _ => "byte_vector"
  | .reference _ => "template_ref"

theorem LeafPayload.kind?_toJson (p : LeafPayload) : p.toJson.kind? = some p.kindName := by
  cases p <;> rfl

theorem Json.bytes_injective :
    Injective fun bytes : List UInt8 => Json.array (bytes.map fun b => Json.number b.toNat) := by
  intro bs cs h
  refine (List.map_inj_right fun b c hbc => ?_).mp (Json.array.inj h)
  have hvalue : (b.toNat : Int) = c.toNat := Json.number.inj hbc
  exact UInt8.toNat_inj.mp (by omega)

theorem LeafPayload.toJson_inj {p q : LeafPayload} (hp : p.Admitted) (hq : q.Admitted)
    (h : p.toJson = q.toJson) : p = q := by
  have hkind : p.kindName = q.kindName := by
    have hkind := congrArg Json.kind? h
    rw [kind?_toJson, kind?_toJson] at hkind
    exact Option.some.inj hkind
  cases p with
  | integer type op initial =>
      cases q with
      | integer type' op' initial' =>
          obtain ⟨rfl, rfl, rfl⟩ := integerMembers_inj hp hq (Json.object.inj h)
          rfl
      | _ => simp [kindName] at hkind
  | decimal op initial =>
      cases q with
      | decimal op' initial' =>
          simp only [toJson, Json.object.injEq, List.cons_append, List.nil_append,
            List.cons.injEq, Prod.mk.injEq, true_and] at h
          obtain ⟨hop, hmembers⟩ := h
          have hinitial := optional_injective Decimal.toJson_injective hmembers
          rw [OperatorRecord.toJson_injective hop, hinitial]
      | _ => simp [kindName] at hkind
  | splitDecimal mop minitial eop einitial =>
      cases q with
      | splitDecimal mop' minitial' eop' einitial' =>
          simp only [toJson, Json.object.injEq, List.cons_append, List.nil_append,
            List.append_assoc, List.cons.injEq, Prod.mk.injEq, true_and] at h
          obtain ⟨hmop, hmembers⟩ := h
          obtain ⟨rfl, hrest⟩ := cancel_optional
            (fun m _ n _ hmn => Int64.toInt_inj.mp (Json.number.inj hmn))
            (notNext_cons (by decide) _ _) (notNext_cons (by decide) _ _) hmembers
          simp only [List.cons.injEq, Prod.mk.injEq, true_and] at hrest
          obtain ⟨heop, hlast⟩ := hrest
          have heinitial := cancel_optional_last
            (fun m _ n _ hmn => Int32.toInt_inj.mp (Json.number.inj hmn)) hlast
          rw [OperatorRecord.toJson_injective hmop, OperatorRecord.toJson_injective heop,
            heinitial]
      | _ => simp [kindName] at hkind
  | string charset op initial length =>
      cases q with
      | string charset' op' initial' length' =>
          simp only [toJson, Json.object.injEq, List.cons_append, List.nil_append,
            List.cons.injEq, Prod.mk.injEq, Json.string.injEq, true_and] at h
          obtain ⟨hcharset, hop, hmembers⟩ := h
          obtain ⟨rfl, hlength⟩ := cancel_length (inj_of_mem Json.string_injective _ _) hmembers
          rw [Charset.name_injective hcharset, OperatorRecord.toJson_injective hop, hlength]
      | _ => simp [kindName] at hkind
  | byteVector op initial length =>
      cases q with
      | byteVector op' initial' length' =>
          simp only [toJson, Json.object.injEq, List.cons_append, List.nil_append,
            List.cons.injEq, Prod.mk.injEq, true_and] at h
          obtain ⟨hop, hmembers⟩ := h
          obtain ⟨rfl, hlength⟩ := cancel_length (inj_of_mem Json.bytes_injective _ _) hmembers
          rw [OperatorRecord.toJson_injective hop, hlength]
      | _ => simp [kindName] at hkind
  | reference target =>
      cases q with
      | reference target' =>
          simp only [toJson, Json.object.injEq, List.cons_append, List.nil_append,
            List.cons.injEq, true_and] at h
          rw [optional_injective Target.toJson_injective h]
      | _ => simp [kindName] at hkind

/-! ## Composites -/

/-- The initial value of the length of a sequence is a value of its type. -/
def CompositeRecord.Admitted : CompositeRecord → Prop
  | .group => True
  | .sequence length => IntType.uint32.Admits length.initial

def CompositeRecord.kindName : CompositeRecord → String
  | .group => "group"
  | .sequence _ => "sequence"

theorem CompositeRecord.kind?_toJson (kind : CompositeRecord) (body : Json)
    (typeRef : Option TypeRef) : (kind.toJson body typeRef).kind? = some kind.kindName := by
  cases kind <;> rfl

theorem LeafPayload.kindName_ne (p : LeafPayload) (kind : CompositeRecord) :
    p.kindName ≠ kind.kindName := by
  cases p <;> cases kind <;> simp [kindName, CompositeRecord.kindName]

theorem LeafPayload.toJson_ne (p : LeafPayload) (kind : CompositeRecord) (body : Json)
    (typeRef : Option TypeRef) : p.toJson ≠ kind.toJson body typeRef := by
  intro h
  have hkind := congrArg Json.kind? h
  rw [kind?_toJson, kind.kind?_toJson] at hkind
  exact p.kindName_ne kind (Option.some.inj hkind)

theorem CompositeRecord.toJson_inj {kind kind' : CompositeRecord} {body body' : Json}
    {typeRef typeRef' : Option TypeRef} (hadmitted : kind.Admitted) (hadmitted' : kind'.Admitted)
    (h : kind.toJson body typeRef = kind'.toJson body' typeRef') :
    kind = kind' ∧ body = body' ∧ typeRef = typeRef' := by
  have htypeRef : Injective (Json.optional "type_ref" TypeRef.toJson) :=
    optional_injective TypeRef.toJson_injective
  cases kind with
  | group =>
      cases kind' with
      | group =>
          simp only [toJson, Json.object.injEq, List.cons_append, List.nil_append,
            List.cons.injEq, Prod.mk.injEq, true_and] at h
          exact ⟨rfl, h.1, htypeRef h.2⟩
      | sequence length => simp [toJson] at h
  | sequence length =>
      cases kind' with
      | group => simp [toJson] at h
      | sequence length' =>
          simp only [toJson, Json.object.injEq, List.cons_append, List.nil_append,
            List.cons.injEq, Prod.mk.injEq, true_and] at h
          obtain ⟨hlength, hbody, hlast⟩ := h
          rw [SequenceLength.toJson_inj hadmitted hadmitted' hlength]
          exact ⟨rfl, hbody, htypeRef hlast⟩

/-! ## Fields -/

mutual

def FieldInstruction.Admitted : FieldInstruction → Prop
  | .leaf _ payload => payload.Admitted
  | .owning _ kind _ fields => kind.Admitted ∧ FieldInstruction.AllAdmitted fields
  | .flattened _ kind _ _ => kind.Admitted

def FieldInstruction.AllAdmitted : List FieldInstruction → Prop
  | [] => True
  | field :: fields => FieldInstruction.Admitted field ∧ FieldInstruction.AllAdmitted fields

end

namespace FieldInstruction

/-- The JSON value of a body is that of fields or that of what stands in their place. -/
theorem owned_ne_flat (items : List Json) (body : FlatBody) :
    Json.object [("kind", .string "owned"), ("fields", .array items)] ≠ body.toJson := by
  cases body <;> simp [FlatBody.toJson]

mutual

theorem toJson_inj {field field' : FieldInstruction} (hfield : field.Admitted)
    (hfield' : field'.Admitted) (h : field.toJson = field'.toJson) : field = field' := by
  cases field with
  | leaf head payload =>
      rw [Admitted] at hfield
      cases field' with
      | leaf head' payload' =>
          rw [Admitted] at hfield'
          rw [toJson, toJson] at h
          obtain ⟨rfl, hpayload⟩ := RecordHead.toJson_inj h
          rw [LeafPayload.toJson_inj hfield hfield' hpayload]
      | owning head' kind typeRef fields =>
          rw [toJson, toJson] at h
          exact (payload.toJson_ne _ _ _ (RecordHead.toJson_inj h).2).elim
      | flattened head' kind typeRef body =>
          rw [toJson, toJson] at h
          exact (payload.toJson_ne _ _ _ (RecordHead.toJson_inj h).2).elim
  | owning head kind typeRef fields =>
      rw [Admitted] at hfield
      cases field' with
      | leaf head' payload =>
          rw [toJson, toJson] at h
          exact (payload.toJson_ne _ _ _ (RecordHead.toJson_inj h).2.symm).elim
      | owning head' kind' typeRef' fields' =>
          rw [Admitted] at hfield'
          rw [toJson, toJson] at h
          obtain ⟨rfl, hpayload⟩ := RecordHead.toJson_inj h
          obtain ⟨rfl, hbody, rfl⟩ :=
            CompositeRecord.toJson_inj hfield.1 hfield'.1 hpayload
          have hitems : listToJson fields = listToJson fields' := by simpa using hbody
          rw [listToJson_inj hfield.2 hfield'.2 hitems]
      | flattened head' kind' typeRef' body =>
          rw [Admitted] at hfield'
          rw [toJson, toJson] at h
          obtain ⟨rfl, hpayload⟩ := RecordHead.toJson_inj h
          obtain ⟨-, hbody, -⟩ := CompositeRecord.toJson_inj hfield.1 hfield' hpayload
          exact (owned_ne_flat _ _ hbody).elim
  | flattened head kind typeRef body =>
      rw [Admitted] at hfield
      cases field' with
      | leaf head' payload =>
          rw [toJson, toJson] at h
          exact (payload.toJson_ne _ _ _ (RecordHead.toJson_inj h).2.symm).elim
      | owning head' kind' typeRef' fields =>
          rw [Admitted] at hfield'
          rw [toJson, toJson] at h
          obtain ⟨rfl, hpayload⟩ := RecordHead.toJson_inj h
          obtain ⟨-, hbody, -⟩ := CompositeRecord.toJson_inj hfield hfield'.1 hpayload
          exact (owned_ne_flat _ _ hbody.symm).elim
      | flattened head' kind' typeRef' body' =>
          rw [Admitted] at hfield'
          rw [toJson, toJson] at h
          obtain ⟨rfl, hpayload⟩ := RecordHead.toJson_inj h
          obtain ⟨rfl, hbody, rfl⟩ := CompositeRecord.toJson_inj hfield hfield' hpayload
          rw [FlatBody.toJson_injective hbody]

theorem listToJson_inj {fields fields' : List FieldInstruction} (hfields : AllAdmitted fields)
    (hfields' : AllAdmitted fields') (h : listToJson fields = listToJson fields') :
    fields = fields' := by
  cases fields with
  | nil =>
      cases fields' with
      | nil => rfl
      | cons field' fields' => simp [listToJson] at h
  | cons field fields =>
      cases fields' with
      | nil => simp [listToJson] at h
      | cons field' fields' =>
          rw [AllAdmitted] at hfields hfields'
          rw [listToJson, listToJson] at h
          obtain ⟨hfield, hrest⟩ := List.cons.inj h
          rw [toJson_inj hfields.1 hfields'.1 hfield,
            listToJson_inj hfields.2 hfields'.2 hrest]

end

end FieldInstruction

/-! ## Reports -/

theorem TemplateInstruction.toJson_inj {t u : TemplateInstruction}
    (ht : FieldInstruction.AllAdmitted t.fields) (hu : FieldInstruction.AllAdmitted u.fields)
    (h : t.toJson = u.toJson) : t = u := by
  obtain ⟨index, id, name, ns, templateNs, dictionary, reset, typeRef, fields⟩ := t
  obtain ⟨index', id', name', ns', templateNs', dictionary', reset', typeRef', fields'⟩ := u
  simp only [toJson, Json.object.injEq, List.cons_append, List.nil_append, List.cons.injEq,
    Prod.mk.injEq, Json.number.injEq, Json.string.injEq, Json.bool.injEq, true_and] at h
  obtain ⟨hindex, hid, rfl, rfl, rfl, rfl, rfl, hmembers⟩ := h
  obtain ⟨rfl, hlast⟩ := cancel_optional (inj_of_mem TypeRef.toJson_injective _ _)
    (notNext_cons (by decide) _ _) (notNext_cons (by decide) _ _) hmembers
  have hitems : FieldInstruction.listToJson fields = FieldInstruction.listToJson fields' := by
    simpa using hlast
  have hfields : fields = fields' := FieldInstruction.listToJson_inj ht hu hitems
  have hindex : index = index' := by omega
  rw [hindex, UInt32.natCast_toNat_inj hid, hfields]

theorem TemplateInstruction.map_toJson_inj {ts us : List TemplateInstruction}
    (hts : ∀ t ∈ ts, FieldInstruction.AllAdmitted t.fields)
    (hus : ∀ u ∈ us, FieldInstruction.AllAdmitted u.fields)
    (h : ts.map toJson = us.map toJson) : ts = us := by
  induction ts generalizing us with
  | nil => exact (List.map_eq_nil_iff.mp h.symm).symm
  | cons t ts ih =>
      cases us with
      | nil => cases h
      | cons u us =>
          obtain ⟨hhead, htail⟩ := List.cons.inj h
          rw [List.forall_mem_cons] at hts hus
          rw [toJson_inj hts.1 hus.1 hhead, ih hts.2 hus.2 htail]

/-- All integers in the report are values of their types. -/
def Metadata.Admitted (m : Metadata) : Prop :=
  ∀ t ∈ m.templates, FieldInstruction.AllAdmitted t.fields

namespace Metadata

theorem toJson_inj {m n : Metadata} (hm : m.Admitted) (hn : n.Admitted)
    (h : m.toJson = n.toJson) : m = n := by
  obtain ⟨unit, ns, templateNs, dictionary, digest, templates⟩ := m
  obtain ⟨unit', ns', templateNs', dictionary', digest', templates'⟩ := n
  simp only [toJson, Json.object.injEq, List.cons.injEq, Prod.mk.injEq, Json.string.injEq,
    Json.array.injEq, true_and, and_true] at h
  obtain ⟨rfl, rfl, rfl, rfl, rfl, htemplates⟩ := h
  have heq : templates = templates' := TemplateInstruction.map_toJson_inj hm hn htemplates
  rw [heq]

/-- Reports with the same text are equal. -/
theorem text_inj {m n : Metadata} (hm : m.Admitted) (hn : n.Admitted) (h : m.text = n.text) :
    m = n := by
  have hpretty : m.toJson.pretty = n.toJson.pretty := by
    have hlists := congrArg String.toList h
    simp only [text, String.toList_append] at hlists
    exact String.toList_injective (List.append_cancel_right hlists)
  exact toJson_inj hm hn (Json.pretty_injective hpretty)

end Metadata

end FastSchema
