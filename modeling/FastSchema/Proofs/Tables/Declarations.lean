import FastSchema.Proofs.Tables.Arrays

/-! # Declaration before use

In the body of a function every static is declared before the first line that refers to it. What is
written for a record needs nothing from outside: it declares all that it refers to itself. -/

namespace FastSchema.Tables

open Cpp (SymbolPath)

/-! ## Lines that refer back -/

def declared (lines : List Line) : List String := lines.filterMap Line.declares

/-- Each line refers to a static that is known or is declared on a line before it. -/
def RefersBack (known : List String) : List Line → Prop
  | [] => True
  | line :: lines =>
    (∀ symbol, line.refers = some symbol → symbol ∈ known) ∧
      RefersBack (known ++ line.declares.toList) lines

@[simp] theorem declared_nil : declared [] = [] := rfl

theorem declared_append (first rest : List Line) :
    declared (first ++ rest) = declared first ++ declared rest := List.filterMap_append

theorem declared_cons (line : Line) (lines : List Line) :
    declared (line :: lines) = line.declares.toList ++ declared lines := by
  cases h : line.declares <;> simp [declared, h]

theorem RefersBack.mono {known more : List String} {lines : List Line}
    (h : RefersBack known lines) (hsub : known ⊆ more) : RefersBack more lines := by
  induction lines generalizing known more with
  | nil => trivial
  | cons line lines ih =>
      refine ⟨fun symbol hrefers => hsub (h.1 symbol hrefers), ih h.2 ?_⟩
      exact List.append_subset.mpr ⟨List.subset_append_of_subset_left _ hsub,
        List.subset_append_right _ _⟩

theorem refersBack_append {known : List String} {first rest : List Line} :
    RefersBack known (first ++ rest) ↔
      RefersBack known first ∧ RefersBack (known ++ declared first) rest := by
  induction first generalizing known with
  | nil => simp [RefersBack, declared]
  | cons line lines ih =>
      rw [List.cons_append, RefersBack, RefersBack, ih, declared_cons, List.append_assoc, and_assoc]

theorem refersBack_of_forall {known : List String} {lines : List Line}
    (h : ∀ line ∈ lines, ∀ symbol, line.refers = some symbol → symbol ∈ known) :
    RefersBack known lines := by
  induction lines generalizing known with
  | nil => trivial
  | cons line lines ih =>
      refine ⟨h line List.mem_cons_self, ih fun later hlater symbol hrefers => ?_⟩
      exact List.mem_append_left _ (h later (List.mem_cons_of_mem _ hlater) symbol hrefers)

/-- In lines that need nothing from outside, each reference has its declaration on a line before
it. -/
theorem RefersBack.exists_declares {before after : List Line} {line : Line} {symbol : String}
    (h : RefersBack [] (before ++ line :: after)) (hrefers : line.refers = some symbol) :
    ∃ earlier ∈ before, earlier.declares = some symbol := by
  have hknown := (refersBack_append.mp h).2.1 symbol hrefers
  simpa [declared] using hknown

/-! ## Statements -/

theorem linesOf_append (first rest : List Statement) :
    linesOf (first ++ rest) = linesOf first ++ linesOf rest := List.flatMap_append

@[simp] theorem linesOf_nil : linesOf [] = [] := rfl

theorem linesOf_cons (st : Statement) (statements : List Statement) :
    linesOf (st :: statements) = st.lines ++ linesOf statements := List.flatMap_cons

@[simp] theorem linesOf_singleton (st : Statement) : linesOf [st] = st.lines := by
  simp [linesOf]

/-- The statements need nothing from outside. -/
def SelfContained (statements : List Statement) : Prop := RefersBack [] (linesOf statements)

theorem SelfContained.append {first rest : List Statement} (h : SelfContained first)
    (hrest : RefersBack (declared (linesOf first)) (linesOf rest)) :
    SelfContained (first ++ rest) := by
  rw [SelfContained, linesOf_append]
  exact refersBack_append.mpr ⟨h, hrest⟩

theorem SelfContained.append_self {first rest : List Statement} (h : SelfContained first)
    (hrest : SelfContained rest) : SelfContained (first ++ rest) :=
  h.append (hrest.mono (List.nil_subset _))

theorem selfContained_flatMap {α : Type} {f : α → List Statement} {xs : List α}
    (h : ∀ x ∈ xs, SelfContained (f x)) : SelfContained (xs.flatMap f) := by
  induction xs with
  | nil => trivial
  | cons x xs ih =>
      rw [List.flatMap_cons]
      exact (h x List.mem_cons_self).append_self
        (ih fun y hy => h y (List.mem_cons_of_mem _ hy))

/-- The arguments refer to known statics only. -/
def ArgumentsKnown (known : List String) (args : List Argument) : Prop :=
  ∀ arg ∈ args, ∀ symbol, arg.expr.refers? = some symbol → symbol ∈ known

theorem ArgumentsKnown.mono {known more : List String} {args : List Argument}
    (h : ArgumentsKnown known args) (hsub : known ⊆ more) : ArgumentsKnown more args :=
  fun arg harg symbol hrefers => hsub (h arg harg symbol hrefers)

theorem Plain.argumentsKnown {args : List Argument} (h : Plain args) (known : List String) :
    ArgumentsKnown known args := by
  intro arg harg symbol hrefers
  rw [h arg harg] at hrefers
  cases hrefers

theorem argumentsKnown_append {known : List String} {first rest : List Argument} :
    ArgumentsKnown known (first ++ rest) ↔
      ArgumentsKnown known first ∧ ArgumentsKnown known rest := List.forall_mem_append

theorem argumentsKnown_cons {known : List String} {arg : Argument} {args : List Argument} :
    ArgumentsKnown known (arg :: args) ↔
      (∀ symbol, arg.expr.refers? = some symbol → symbol ∈ known) ∧ ArgumentsKnown known args :=
  List.forall_mem_cons

theorem declared_argumentLines (args : List Argument) : declared (argumentLines args) = [] := by
  refine List.filterMap_eq_nil_iff.mpr fun line hline => ?_
  obtain ⟨arg, _, after, rfl⟩ := exists_of_mem_argumentLines hline
  rfl

theorem ArgumentsKnown.refersBack {known : List String} {args : List Argument}
    (h : ArgumentsKnown known args) : RefersBack known (argumentLines args) := by
  refine refersBack_of_forall fun line hline symbol hrefers => ?_
  obtain ⟨arg, harg, after, rfl⟩ := exists_of_mem_argumentLines hline
  exact h arg harg symbol hrefers

@[simp] theorem declared_static (declarator symbol : String) (args : List Argument) :
    declared (Statement.static declarator symbol args).lines = [symbol] := by
  simp only [Statement.lines, declared_cons, declared_append, declared_argumentLines]
  rfl

@[simp] theorem declared_array (symbol : String) (entries : List String) :
    declared (Statement.array symbol entries).lines = [symbol] := by
  cases entries with
  | nil => rfl
  | cons entry entries =>
      have hentries : declared ((entry :: entries).map fun e =>
          Line.referring (some e) ("  &" ++ e ++ ",")) = [] := by
        simp [declared, Line.referring, Line.code]
      simp only [Statement.lines, declared_append, declared_cons, hentries]
      rfl

@[simp] theorem declared_closeTemplate (name : String) (args : List Argument) :
    declared (Statement.closeTemplate name args).lines = ["the_instruction"] := by
  simp only [Statement.lines, declared_cons, declared_append, declared_argumentLines]
  rfl

theorem refersBack_static {known : List String} {args : List Argument}
    (h : ArgumentsKnown known args) (declarator symbol : String) :
    RefersBack known (Statement.static declarator symbol args).lines := by
  have hlines : (Statement.static declarator symbol args).lines =
      [.code declarator, .declaring symbol (symbol ++ "(")] ++ argumentLines args ++ [.blank] :=
    rfl
  rw [hlines, refersBack_append, refersBack_append]
  refine ⟨⟨refersBack_of_forall ?_, h.refersBack.mono (List.subset_append_left _ _)⟩,
    refersBack_of_forall ?_⟩
  · simp [Line.code, Line.declaring]
  · simp [Line.blank]

theorem refersBack_array {known entries : List String} (h : entries ⊆ known) (symbol : String) :
    RefersBack known (Statement.array symbol entries).lines := by
  refine refersBack_of_forall fun line hline name hrefers => ?_
  cases entries with
  | nil =>
      obtain rfl := List.mem_singleton.mp hline
      cases hrefers
  | cons entry entries =>
      simp only [Statement.lines, List.cons_append, List.mem_cons, List.mem_append, List.mem_map,
        List.not_mem_nil, or_false] at hline
      rcases hline with rfl | ⟨e, he, rfl⟩ | rfl | rfl
      · cases hrefers
      · cases hrefers
        exact h (List.mem_cons.mpr he)
      · cases hrefers
      · cases hrefers

/-! ## Records -/

def contextSymbols (path : SymbolPath) (stem : String) (op : OperatorRecord) : List String :=
  (op.context.map fun _ => path.symbol (stem ++ "_opContext")).toList

@[simp] theorem declared_contextStatements (path : SymbolPath) (stem : String)
    (op : OperatorRecord) :
    declared (linesOf (contextStatements path stem op)) = contextSymbols path stem op := by
  unfold contextStatements contextSymbols
  cases op.context <;> rfl

theorem selfContained_contextStatements (path : SymbolPath) (stem : String)
    (op : OperatorRecord) : SelfContained (contextStatements path stem op) := by
  refine refersBack_of_forall ?_
  unfold contextStatements
  cases op.context <;> simp [linesOf, Statement.lines, Line.declaring, Line.code]

/-- The argument for a context refers to what is declared right before. -/
theorem mem_contextSymbols_of_refers {path : SymbolPath} {stem : String} {op : OperatorRecord}
    {symbol : String} (h : (contextExpr path stem op).refers? = some symbol) :
    symbol ∈ contextSymbols path stem op := by
  unfold contextExpr at h
  unfold contextSymbols
  cases hcontext : op.context with
  | none =>
      rw [hcontext] at h
      cases h
  | some context =>
      rw [hcontext] at h
      cases h
      simp

theorem selfContained_context_static {path : SymbolPath} {stem : String} {op : OperatorRecord}
    {args : List Argument} (h : ArgumentsKnown (contextSymbols path stem op) args)
    (declarator symbol : String) :
    SelfContained (contextStatements path stem op ++ [.static declarator symbol args]) := by
  refine (selfContained_contextStatements path stem op).append ?_
  rw [declared_contextStatements, linesOf_singleton]
  exact refersBack_static h declarator symbol

theorem LeafLayout.selfContained {path : SymbolPath} {head : RecordHead} {payload : LeafPayload}
    {statements : List Statement} (h : LeafLayout path head payload statements) :
    SelfContained statements := by
  cases h with
  | value declarator hop hrest =>
      refine selfContained_context_static ?_ _ _
      rw [argumentsKnown_append, argumentsKnown_cons]
      exact ⟨(plain_headArguments _ _).argumentsKnown _,
        fun _ hrefers => mem_contextSymbols_of_refers hrefers, hrest.argumentsKnown _⟩
  | @split mantissaOp _ exponentOp _ kind mantissa exponent hkind hmantissa hexponent =>
      have hfirst : SelfContained (contextStatements path (head.name ++ "_mantissa") mantissaOp ++
          [.static "static mantissa_field_instruction"
            (path.symbol (head.name ++ "_mantissa" ++ "_instruction"))
            [kind, .noted "mantissa opContext"
              (contextExpr path (head.name ++ "_mantissa") mantissaOp), mantissa]]) := by
        refine selfContained_context_static ?_ _ _
        simp only [argumentsKnown_cons, hkind, hmantissa]
        exact ⟨by simp, fun _ hrefers => mem_contextSymbols_of_refers hrefers, by simp,
          List.forall_mem_nil _⟩
      -- The own instruction refers to the mantissa and to the context of the exponent.
      refine SelfContained.append (hfirst.append_self (selfContained_contextStatements _ _ _)) ?_
      rw [linesOf_singleton]
      refine refersBack_static ?_ _ _
      simp only [linesOf_append, declared_append, declared_contextStatements, linesOf_singleton,
        declared_static, argumentsKnown_append, argumentsKnown_cons, hexponent]
      refine ⟨(plain_headArguments _ _).argumentsKnown _, fun _ hrefers => ?_,
        fun _ hrefers => ?_, by simp, List.forall_mem_nil _⟩
      · exact List.mem_append_right _ (mem_contextSymbols_of_refers hrefers)
      · cases hrefers
        simp
  | reference target declarator hrest =>
      rw [SelfContained, linesOf_singleton]
      exact refersBack_static (argumentsKnown_cons.mpr ⟨by simp [Argument.bare, Expr.refers?],
        hrest.argumentsKnown _⟩) _ _

theorem selfContained_leadStatements (inside : SymbolPath) (name : String)
    (kind : CompositeRecord) : SelfContained (leadStatements inside name kind) := by
  cases kind with
  | group => trivial
  | sequence length =>
      refine selfContained_context_static ?_ _ _
      rw [argumentsKnown_append, argumentsKnown_cons, argumentsKnown_cons]
      exact ⟨(plain_headArguments _ _).argumentsKnown _,
        fun _ hrefers => mem_contextSymbols_of_refers hrefers,
        by simp [Argument.noted, Expr.refers?], List.forall_mem_nil _⟩

/-- What the instruction of a sequence refers to besides its fields is declared before them. -/
theorem argumentsKnown_kindArguments (inside : SymbolPath) (name : String)
    (kind : CompositeRecord) :
    ArgumentsKnown (declared (linesOf (leadStatements inside name kind)))
      (kindArguments inside name kind) := by
  cases kind with
  | group => exact List.forall_mem_nil _
  | sequence length =>
      refine argumentsKnown_cons.mpr ⟨fun symbol hrefers => ?_, List.forall_mem_nil _⟩
      cases hrefers
      simp [leadStatements, lengthStatements, linesOf_append, declared_append]

theorem recordSymbol_mem_declared (unit : String) (path : SymbolPath)
    (record : FieldInstruction) :
    recordSymbol path record ∈ declared (linesOf (recordStatements unit path record)) := by
  obtain ⟨before, declarator, rest, h⟩ := own_recordStatements unit path record
  simp [h, linesOf_append, declared_append]

/-! ## Nodes -/

theorem refersBack_compositeStatement {known : List String} {inside outside : SymbolPath}
    {head : RecordHead} {kind : CompositeRecord} {typeRef : Option TypeRef}
    {body : List Argument} (hbody : ArgumentsKnown known body)
    (hkind : ArgumentsKnown known (kindArguments inside head.name kind)) :
    RefersBack known (compositeStatement inside outside head kind typeRef body).lines := by
  obtain ⟨declarator, hstatic⟩ :=
    compositeStatement_eq_static inside outside head kind typeRef body
  rw [hstatic]
  refine refersBack_static ?_ _ _
  simp only [argumentsKnown_append, argumentsKnown_cons]
  exact ⟨⟨⟨(plain_headArguments _ _).argumentsKnown _, by simp [Argument.noted, Expr.refers?],
    List.forall_mem_nil _⟩, hbody⟩, hkind, (plain_typeRefArguments _).argumentsKnown _⟩

theorem refersBack_closeTemplate {known : List String} {args : List Argument}
    (h : ArgumentsKnown known args) (name : String) :
    RefersBack known (Statement.closeTemplate name args).lines := by
  have hlines : (Statement.closeTemplate name args).lines =
      [.declaring "the_instruction"
        ("const static " ++ name ++ "::instruction_type the_instruction(")] ++
      argumentLines args ++
      [.blank, .referring (some "the_instruction") "return &the_instruction;"] := rfl
  rw [hlines, refersBack_append, refersBack_append]
  refine ⟨⟨refersBack_of_forall ?_, h.refersBack.mono (List.subset_append_left _ _)⟩,
    refersBack_of_forall ?_⟩
  · simp [Line.code, Line.declaring]
  · simp [Line.blank, Line.referring, declared, Line.declaring]

theorem argumentsKnown_ownArguments {known : List String} {array : String} (h : array ∈ known)
    (numFields : Nat) : ArgumentsKnown known (ownArguments array numFields) := by
  refine argumentsKnown_cons.mpr ⟨fun symbol hrefers => ?_, ?_⟩
  · cases hrefers
    exact h
  · exact argumentsKnown_cons.mpr ⟨by simp [Argument.noted, Expr.refers?], List.forall_mem_nil _⟩

theorem plain_flatArguments (unit : String) (body : FlatBody) :
    Plain (flatArguments unit body) := by
  cases body <;> simp [Plain, flatArguments, Argument.bare, Argument.noted, Expr.refers?]

theorem Node.array_mem_declared_content (unit : String) {n : Node}
    {fields : List FieldInstruction} (h : n.fields? = some fields) :
    n.array ∈ declared (linesOf (n.content unit)) := by
  simp [Node.content, h, linesOf_append, declared_append]

theorem Node.selfContained_lead (n : Node) : SelfContained n.lead := by
  cases n with
  | template t => trivial
  | owning outside head kind typeRef fields => exact selfContained_leadStatements _ _ kind
  | flattened outside head kind typeRef body => exact selfContained_leadStatements _ _ kind

/-- The entries of an array are declared by the fields before it. -/
theorem Node.selfContained_content {unit : String} {n : Node} (h : ∀ fields,
    n.fields? = some fields → ∀ record ∈ fields,
      SelfContained (recordStatements unit n.inside record)) :
    SelfContained (n.content unit) := by
  unfold Node.content
  cases hfields : n.fields? with
  | none => trivial
  | some fields =>
      refine (selfContained_flatMap (h fields hfields)).append ?_
      rw [linesOf_singleton]
      refine refersBack_array (fun entry hentry => ?_) _
      obtain ⟨record, hrecord, rfl⟩ := List.mem_map.mp hentry
      have hdeclared := recordSymbol_mem_declared unit n.inside record
      simp only [declared, linesOf, List.flatMap_assoc, List.filterMap_flatMap, List.mem_flatMap]
        at hdeclared ⊢
      exact ⟨record, hrecord, hdeclared⟩

/-- A block needs nothing from outside if its fields do not. -/
theorem Node.selfContained_block {unit : String} {n : Node} (h : ∀ fields,
    n.fields? = some fields → ∀ record ∈ fields,
      SelfContained (recordStatements unit n.inside record)) :
    SelfContained (n.block unit) := by
  refine SelfContained.append (n.selfContained_lead.append_self (Node.selfContained_content h)) ?_
  rw [linesOf_append, declared_append, linesOf_singleton]
  have hlead := List.subset_append_left (declared (linesOf n.lead))
    (declared (linesOf (n.content unit)))
  cases n with
  | template t =>
      have harray := Node.array_mem_declared_content unit (n := .template t) rfl
      refine refersBack_closeTemplate (argumentsKnown_append.mpr
        ⟨argumentsKnown_append.mpr ⟨?_, argumentsKnown_ownArguments
          (List.mem_append_right _ harray) _⟩, argumentsKnown_cons.mpr ⟨?_, ?_⟩⟩) _
      · simp [ArgumentsKnown, Argument.noted, Expr.refers?]
      · simp [Argument.noted, Expr.refers?]
      · exact (plain_typeRefArguments _).argumentsKnown _
  | owning outside head kind typeRef fields =>
      have harray := Node.array_mem_declared_content unit
        (n := .owning outside head kind typeRef fields) rfl
      exact refersBack_compositeStatement
        (argumentsKnown_ownArguments (List.mem_append_right _ harray) _)
        ((argumentsKnown_kindArguments _ _ kind).mono hlead)
  | flattened outside head kind typeRef body =>
      exact refersBack_compositeStatement ((plain_flatArguments unit body).argumentsKnown _)
        ((argumentsKnown_kindArguments _ _ kind).mono hlead)

mutual

theorem selfContained_recordStatements (unit : String) (path : SymbolPath)
    (record : FieldInstruction) : SelfContained (recordStatements unit path record) := by
  cases record with
  | leaf head payload =>
      rw [recordStatements]
      exact (leafLayout unit path head payload).selfContained
  | owning head kind typeRef fields =>
      rw [recordStatements_owning]
      refine Node.selfContained_block fun own hown => ?_
      obtain rfl : fields = own := by simpa [Node.fields?] using hown
      exact selfContained_of_mem_records unit (path.push head.name) fields
  | flattened head kind typeRef body =>
      rw [recordStatements_flattened]
      exact Node.selfContained_block fun own hown => by cases hown

theorem selfContained_of_mem_records (unit : String) (path : SymbolPath)
    (records : List FieldInstruction) :
    ∀ record ∈ records, SelfContained (recordStatements unit path record) := by
  cases records with
  | nil => simp
  | cons record records =>
      rw [List.forall_mem_cons]
      exact ⟨selfContained_recordStatements unit path record,
        selfContained_of_mem_records unit path records⟩

end

/-- The body of a function needs nothing from outside. -/
theorem selfContained_ofTemplate (unit : String) (t : TemplateInstruction) :
    SelfContained (Function.ofTemplate unit t).statements := by
  rw [statements_ofTemplate]
  refine Node.selfContained_block fun own hown => ?_
  obtain rfl : t.fields = own := by simpa [Node.fields?] using hown
  exact selfContained_of_mem_records unit _ t.fields

end FastSchema.Tables
