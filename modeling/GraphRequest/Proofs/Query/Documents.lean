import GraphRequest.Proofs.Document.Faithful
import GraphRequest.Proofs.Document.Readback
import GraphRequest.Proofs.Query.Numbering
import GraphRequest.Proofs.Selection.Rendering

/-!
# The document of a plan

The text that a plan is written as is a document of the grammar: one operation with a variable for
every bound argument, and in it one root field with the arguments and the selections of the plan. So
every reader that implements the grammar reads it, and reads nothing else.

* `BaseType.typeText`: the written type of a base type.
* `Bindings.Typed`: every variable is declared with the text of a type.
* `isName_operationName`: the name of the operation is a name of the language.
* `document_of_compileBy`: what the compiled query of a request holds.
-/

namespace GraphRequest

open Document
open Document.Token (Spells isName closed_nil closed_cons spells_intercalate)

/-! ### Types -/

/-- Whether the type at the base of a written type goes by a name. -/
def Document.TypeText.isNamed : TypeText → Bool
  | .named name => isName name.toList
  | .list item => item.isNamed
  | .nonNull type => type.isNamed

theorem Document.TypeText.spells {t : TypeText} (h : t.isNamed = true) :
    Spells t.tokens t.text.toList := by
  induction t with
  | named name => exact Token.spells_text h
  | list item ih =>
    have text : (TypeText.list item).text.toList = '[' :: (item.text.toList ++ [']']) := by
      simp [TypeText.text]
    rw [text]
    exact .punctuator rfl ((ih h).append (.punctuator rfl .nil) (closed_cons rfl _))
  | nonNull type ih =>
    have text : (TypeText.nonNull type).text.toList = type.text.toList ++ ['!'] := by
      simp [TypeText.text]
    rw [text]
    exact (ih h).append (.punctuator rfl .nil) (closed_cons rfl _)

namespace BaseType

/-- The written form of a base type inside any mark that excludes null. -/
def nullableText (b : BaseType) : TypeText :=
  if b.isList then
    .list (if b.isItemNonNull then .nonNull (.named b.name.text) else .named b.name.text)
  else .named b.name.text

/-- The written type of a base type. -/
def typeText (b : BaseType) : TypeText :=
  if b.isNonNull then .nonNull b.nullableText else b.nullableText

theorem nullableWire_of_str {b : BaseType} {name : String} (h : b.name = .str name) :
    b.nullableWire = .str b.nullableText.text := by
  unfold nullableWire nullableText
  rw [h]
  cases b.isList with
  | false => rfl
  | true => cases b.isItemNonNull <;> simp [TypeText.text, String.append_assoc]

/-- A base type with a text as its name is written as its type. -/
theorem wire_of_str {b : BaseType} {name : String} (h : b.name = .str name) :
    b.wire = .ok (.str b.typeText.text) := by
  unfold wire typeText
  rw [nullableWire_of_str h]
  cases b.isNonNull <;> rfl

theorem typeText_isValid (b : BaseType) : b.typeText.isValid = true := by
  unfold typeText nullableText
  cases b.isNonNull <;> cases b.isList <;> cases b.isItemNonNull <;> rfl

theorem typeText_isNamed {b : BaseType} (h : b.name.isName = true) : b.typeText.isNamed = true := by
  obtain ⟨name, hname, named⟩ := Value.isName_iff.1 h
  unfold typeText nullableText
  rw [hname]
  cases b.isNonNull <;> cases b.isList <;> cases b.isItemNonNull <;> exact named

end BaseType

/-! ### Declarations -/

/-- A declared type is the text of a type. -/
def DeclaredType.IsType (d : DeclaredType) : Prop :=
  ∃ t : TypeText, d = .text t.text ∧ t.isValid = true ∧ t.isNamed = true

/-- A variable for an argument that goes by names is declared with the text that the type of the
argument is written as. -/
theorem DeclaredType.text_of_ofArgument {a : ArgumentDef} {type : DeclaredType}
    (named : a.isNamed = true) (h : ofArgument a = .ok type) :
    ∃ base : BaseType, base.name.isName = true ∧ a.type.wire = .ok (.str base.typeText.text) ∧
      type = .text base.typeText.text := by
  obtain ⟨base, returned, h⟩ := bind_eq_ok.1 h
  simp only [ArgumentDef.isNamed, Bool.and_eq_true] at named
  have base_named := TypeRef.isName_base named.2 returned
  obtain ⟨name, hname, _⟩ := Value.isName_iff.1 base_named
  have written := BaseType.wire_of_str hname
  simp only [BaseType.growingName?_of_str hname, written, bind, Except.bind] at h
  cases h
  refine ⟨base, base_named, ?_, rfl⟩
  rw [TypeRef.wire, returned]
  exact written

theorem DeclaredType.isType_of_ofArgument {a : ArgumentDef} {type : DeclaredType}
    (named : a.isNamed = true) (h : ofArgument a = .ok type) : type.IsType := by
  obtain ⟨base, base_named, _, rfl⟩ := text_of_ofArgument named h
  exact ⟨base.typeText, rfl, base.typeText_isValid, BaseType.typeText_isNamed base_named⟩

/-- Every variable is declared with the text of a type. -/
def Bindings.Typed (b : Bindings) : Prop := ∀ d ∈ b.declarations, d.type.IsType

theorem Bindings.typed_stable : Stable (fun a => a.isNamed = true) Typed where
  report := fun b d h => h
  bind := by
    intro b a v name b' named run h
    obtain ⟨type, made, declarations⟩ := bind_declarations run
    intro d hd
    rw [declarations, declare] at hd
    split at hd
    · rcases List.mem_append.1 hd with hd | hd
      · exact h d hd
      · rw [List.mem_singleton.1 hd]
        exact DeclaredType.isType_of_ofArgument named made
    · exact h d hd

theorem Schema.offers_of_isNamed {s : Schema} (h : s.isNamed = true) :
    s.Offers fun a => a.isNamed = true := by
  intro t ht f hf a ha
  have type_named : t.isNamed = true := List.all_eq_true.1 h t ht
  exact FieldDef.isNamed_of_mem (TypeDef.isNamed_of_mem type_named hf) ha

theorem Schema.typed_of_plan {s : Schema} {r : Request} {p : Plan} (named : s.isNamed = true)
    (h : s.plan r = .ok p) : p.bindings.Typed := by
  apply invariant_of_plan Bindings.typed_stable (offers_of_isNamed named) h
  intro d hd
  cases hd

/-- A declaration of a variable without default value and directives. -/
def Document.VariableDefinition.IsPlain (v : VariableDefinition) : Prop :=
  v.default = none ∧ v.directives = []

/-- What the compiler notes down for a variable that a document declares. -/
def Document.VariableDefinition.declaration (v : VariableDefinition) : Declaration :=
  ⟨v.name, .text v.type.text⟩

/-- Declarations with the texts of types are those of some variables of a document. -/
theorem exists_variableDefinitions {declarations : List Declaration}
    (typed : ∀ d ∈ declarations, d.type.IsType) :
    ∃ vs : List VariableDefinition, declarations = vs.map VariableDefinition.declaration ∧
      ∀ v ∈ vs, v.IsPlain ∧ v.type.isValid = true ∧ v.type.isNamed = true := by
  induction declarations with
  | nil =>
    refine ⟨[], rfl, ?_⟩
    intro v hv
    cases hv
  | cons d ds ih =>
    obtain ⟨vs, same, plain⟩ := ih fun d' hd' => typed d' (.tail d hd')
    obtain ⟨t, ht, valid, named⟩ := typed d (.head _)
    refine ⟨⟨d.name, t, none, []⟩ :: vs, ?_, ?_⟩
    · rw [List.map_cons, ← same, VariableDefinition.declaration, ← ht]
    · intro v hv
      rcases List.mem_cons.1 hv with rfl | hv
      · exact ⟨⟨rfl, rfl⟩, valid, named⟩
      · exact plain v hv

/-- The declaration of a variable as text. -/
def declarationText (name type : String) : String := "$" ++ name ++ ": " ++ type

theorem spells_declarationText {v : VariableDefinition} (plain : v.IsPlain)
    (named : isName v.name.toList = true) (typed : v.type.isNamed = true) :
    Spells v.tokens (declarationText v.name v.type.text).toList := by
  have text : (declarationText v.name v.type.text).toList
      = '$' :: (v.name.toList ++ ':' :: ' ' :: v.type.text.toList) := by
    simp [declarationText]
  have tokens : v.tokens
      = .punctuator '$' :: .name v.name :: .punctuator ':' :: v.type.tokens := by
    rw [VariableDefinition.tokens, plain.1, plain.2]
    simp [defaultTokens, directiveTokens]
  rw [text, tokens]
  refine .punctuator rfl (Spells.text named (closed_cons rfl _) ?_)
  exact .punctuator rfl (.ignored rfl (TypeText.spells typed))

/-- A text that spells a token is not empty. -/
theorem ne_empty_of_spells {t : Token} {ts : List Token} {s : String}
    (h : Spells (t :: ts) s.toList) : s ≠ "" := by
  intro empty
  have read := h.ofChars?
  rw [empty] at read
  cases read

/-- The declarations of variables in parentheses, if there are any. -/
theorem spells_declarations {vs : List VariableDefinition} {text : String}
    (same : text = ", ".intercalate (vs.map fun v => declarationText v.name v.type.text))
    (each : ∀ v ∈ vs, Spells v.tokens (declarationText v.name v.type.text).toList) :
    Spells (declarationTokens vs) (if text == "" then "" else "(" ++ text ++ ")").toList ∧
      Token.Closed (if text == "" then "" else "(" ++ text ++ ")").toList := by
  have inside : Spells (vs.flatMap VariableDefinition.tokens) text.toList := by
    rw [same]
    exact spells_intercalate (by decide) (by decide) each
  cases vs with
  | nil =>
    have empty : text = "" := same
    rw [empty]
    exact ⟨.nil, closed_nil⟩
  | cons v vs =>
    have present : ¬ (text == "") = true := by
      rw [beq_iff_eq]
      exact ne_empty_of_spells inside
    rw [if_neg present, String.toList_append, String.toList_append, List.append_assoc]
    refine ⟨?_, closed_cons rfl _⟩
    exact .punctuator rfl (inside.append (.punctuator rfl .nil) (closed_cons rfl _))

/-! ### The name of the operation -/

theorem isNameChar_toUpper {c : Char} (h : Token.isNameChar c = true) :
    Token.isNameChar c.toUpper = true := by
  have bounds := Token.toNat_of_isNameChar h
  have each : ∀ n : Fin 128, Token.isNameChar (Char.ofNat n) = true →
      Token.isNameChar (Char.ofNat n).toUpper = true := by decide +kernel
  have same : Char.ofNat c.toNat = c := Char.ofNat_toNat c
  have upper := each ⟨c.toNat, by omega⟩
  rw [same] at upper
  exact upper h

theorem isNameChar_upperFirst {cs : List Char} (h : ∀ c ∈ cs, Token.isNameChar c = true) :
    ∀ c ∈ Text.upperFirst cs, Token.isNameChar c = true := by
  cases cs with
  | nil =>
    intro c hc
    cases hc
  | cons d cs =>
    have first := h d (.head _)
    have bounds := Token.toNat_of_isNameChar first
    intro c hc
    rw [Text.upperFirst, Text.upperChar_of_ascii (by omega)] at hc
    rcases List.mem_append.1 hc with hc | hc
    · rw [List.mem_singleton.1 hc]
      exact isNameChar_toUpper first
    · exact h c (.tail d hc)

/-- The parts between underscores have no other characters than the text. -/
theorem mem_of_mem_partsOf {cs part : List Char} (h : part ∈ Assembly.partsOf cs) :
    ∀ c ∈ part, c ∈ cs := by
  induction cs generalizing part with
  | nil =>
    rw [Assembly.partsOf, List.mem_singleton] at h
    rw [h]
    intro c hc
    cases hc
  | cons d cs ih =>
    intro c hc
    unfold Assembly.partsOf at h
    split at h
    · rcases List.mem_cons.1 h with rfl | h
      · cases hc
      · exact .tail d (ih h c hc)
    · split at h
      · rw [List.mem_singleton.1 h] at hc
        rw [List.mem_singleton.1 hc]
        exact .head _
      · rename_i p ps parts
        rcases List.mem_cons.1 h with rfl | h
        · rcases List.mem_cons.1 hc with rfl | hc
          · exact .head _
          · exact .tail d (ih (parts ▸ List.mem_cons_self) c hc)
        · exact .tail d (ih (parts ▸ List.mem_cons_of_mem p h) c hc)

/-- The name of the operation is a name of the language, also when the field is named by
underscores. -/
theorem isName_operationName (o : OperationType) {field : String}
    (named : isName field.toList = true) :
    isName (Assembly.operationName o.text field).toList = true := by
  obtain ⟨_, _, _, _, chars⟩ := Token.isNameStart_and_isNameChar_of_isName named
  have pascal : ∀ c ∈ Assembly.pascalChars field.toList, Token.isNameChar c = true := by
    intro c hc
    obtain ⟨part, hp, hc⟩ := List.mem_flatMap.1 hc
    exact isNameChar_upperFirst (fun d hd => chars d (mem_of_mem_partsOf hp d hd)) c hc
  have keyword : isName (Text.capitalize o.text).toList = true := by cases o <;> decide +kernel
  obtain ⟨c, cs, text, start, keyword_chars⟩ :=
    Token.isNameStart_and_isNameChar_of_isName keyword
  rw [Assembly.operationName, String.toList_append, String.toList_ofList, text, List.cons_append,
    isName, start, Bool.true_and, List.all_eq_true]
  intro d hd
  rcases List.mem_append.1 hd with hd | hd
  · exact keyword_chars d (text ▸ .tail c hd)
  · exact pascal d hd

/-! ### Documents -/

namespace Plan

/-- The operation of a plan, given the declarations of its variables. -/
def definition (p : Plan) (vs : List VariableDefinition) : Definition :=
  .operation p.operation.text (some p.parts.operationName) vs [] [p.rootItem.selection]

/-- The root field is written as the selection that it is. -/
theorem fieldText_parts (p : Plan) : p.parts.fieldText = p.rootItem.text := by
  have head : p.parts.fieldHead = Item.headText none p.field p.arguments := by
    unfold Assembly.Parts.fieldHead Item.headText
    show p.field ++ (if (p.arguments.map BoundArgument.text).isEmpty then _ else _) = _
    rw [List.isEmpty_map]
    rfl
  have items : p.parts.items = p.items.map Item.text := rfl
  rw [Assembly.Parts.fieldText, head, items, List.isEmpty_map]
  obtain ⟨empty, root⟩ | ⟨present, root⟩ := p.rootItem_eq
  · rw [root, empty]
    rfl
  · rw [root, if_neg (mt List.isEmpty_iff.1 present), Item.text, Item.texts_eq_map]

/-- The operation before its braces: its keyword, its name and its variables. -/
theorem spells_header {p : Plan} {vs : List VariableDefinition}
    (field : isName p.field.toList = true)
    (same : p.bindings.declarations = vs.map VariableDefinition.declaration)
    (each : ∀ v ∈ vs, Spells v.tokens (declarationText v.name v.type.text).toList) :
    Spells (.name p.operation.text :: .name p.parts.operationName :: declarationTokens vs)
      p.parts.header.toList := by
  have declarations : p.parts.declarations
      = ", ".intercalate (vs.map fun v => declarationText v.name v.type.text) := by
    show p.bindings.declarationsText = _
    rw [Bindings.declarationsText, same, List.map_map]
    rfl
  obtain ⟨declared, closed⟩ := spells_declarations declarations each
  have named := isName_operationName p.operation field
  have text : p.parts.header.toList = p.operation.text.toList ++ ' ' ::
      (p.parts.operationName.toList ++ (if p.parts.declarations == "" then ""
        else "(" ++ p.parts.declarations ++ ")").toList) := by
    have keyword : p.parts.keyword = p.operation.text := rfl
    have space : " ".toList = [' '] := by decide
    simp only [Assembly.Parts.header, keyword, String.toList_append, List.append_assoc, space,
      List.cons_append, List.nil_append]
  rw [text]
  have keyword : isName p.operation.text.toList = true := by cases p.operation <;> decide
  refine Spells.text keyword (closed_cons rfl _) (.ignored rfl ?_)
  exact Spells.text named closed declared

/-- The text of a plan spells its operation, when its parts do. -/
theorem spells_text {p : Plan} {vs : List VariableDefinition}
    (field : isName p.field.toList = true)
    (same : p.bindings.declarations = vs.map VariableDefinition.declaration)
    (each : ∀ v ∈ vs, Spells v.tokens (declarationText v.name v.type.text).toList)
    (root : Spells p.rootItem.selection.tokens p.rootItem.text.toList) :
    Spells (tokens [p.definition vs]) (p.parts.text []).toList := by
  have each_root : ∀ i ∈ [p.rootItem], Spells i.selection.tokens i.text.toList := by
    intro i hi
    rw [List.mem_singleton.1 hi]
    exact root
  have block := spells_blockText (spells_header field same each) each_root
  have text : (p.parts.text []).toList
      = (Item.blockText p.parts.header ([p.rootItem].map Item.text)).toList ++ ['\n'] := by
    rw [Assembly.Parts.text, String.intercalate_singleton, String.toList_append,
      Assembly.Parts.operationText, fieldText_parts]
    rfl
  rw [text]
  have last : Spells [] ['\n'] := .ignored rfl .nil
  have whole := block.append last (closed_cons rfl _)
  simp only [List.flatMap_singleton, List.append_nil] at whole
  simp only [tokens, definition, List.flatMap_singleton, Definition.tokens, bodyTokens,
    selectionTokens, directiveTokens, List.flatMap_nil, List.nil_append, List.append_nil]
  exact whole

/-- An operation is one of the grammar, when its variables and its selections are. -/
theorem isValid_operation (o : OperationType) (name : Option String)
    {vs : List VariableDefinition} (plain : ∀ v ∈ vs, v.IsPlain)
    (typed : ∀ v ∈ vs, v.type.isValid = true) {ss : List Selection} (present : ss ≠ [])
    (valid : selectionsValid ss = true) :
    (Definition.operation o.text name vs [] ss).isValid = true := by
  have keyword : isOperationKeyword o.text = true := by cases o <;> decide
  have declared : vs.all VariableDefinition.isValid = true := by
    apply List.all_eq_true.2
    intro v hv
    rw [VariableDefinition.isValid, typed v hv, (plain v hv).1, (plain v hv).2]
    rfl
  simp only [Definition.isValid, keyword, declared, valid, List.isEmpty_eq_false_iff.2 present,
    List.all_nil, Bool.not_false, Bool.and_true]

/-- The operation of a plan is one of the grammar, when its parts are. -/
theorem isValid_definition {p : Plan} {vs : List VariableDefinition}
    (plain : ∀ v ∈ vs, v.IsPlain) (typed : ∀ v ∈ vs, v.type.isValid = true)
    (root : p.rootItem.selection.isValid = true) : Document.isValid [p.definition vs] = true := by
  have body : selectionsValid [p.rootItem.selection] = true := by
    rw [selectionsValid, root]
    rfl
  have operation := isValid_operation p.operation (some p.parts.operationName) plain typed
    (List.cons_ne_nil _ _) body
  rw [Document.isValid, definition, List.all_cons, operation]
  rfl

end Plan

/-- The arguments that the root field is passed, and their variables, go by names. -/
theorem Request.argumentsNamed_of_bindRoot {r : Request} {f : FieldDef} {b b' : Bindings}
    {bound : List BoundArgument} (named : f.isNamed = true)
    (h : Step.Runs (r.bindRoot f) b bound b') (counted : 0 ≤ b.counter) : ArgumentsNamed bound := by
  obtain ⟨kept, numbered⟩ := sublist_of_bindEach h counted
  intro a ha
  refine ⟨?_, ?_⟩
  · obtain ⟨c, hc, same⟩ := List.mem_map.1 (kept.subset (List.mem_map.2 ⟨a, ha, rfl⟩))
    obtain ⟨name, hname, is_name⟩ := ArgumentDef.exists_name (FieldDef.isNamed_of_mem named hc)
    rw [hname] at same
    have same : name = a.name := same
    rw [← same]
    exact is_name
  · obtain ⟨n, hn, same⟩ := numbered a ha
    rw [same]
    exact variableName_isName hn

namespace Schema

variable {s : Schema} {r : Request} {p : Plan}

/-- What compiles to a valid document does so by every reader that accepts all ways to write a
document. -/
theorem compileBy_of_accepts {read : String → Option Document} (grammar : Accepts read)
    {q : CompiledQuery} (valid : isValid q.document = true)
    (compiled : s.compileBy readText? r = .ok q) : s.compileBy read r = .ok q := by
  obtain ⟨p, text, document, planned, written, reads, rfl⟩ := plan_of_compileBy compiled
  exact compileBy_of_plan planned written (grammar.of_readText? valid reads)

/-- The root field of a plan goes by a name, is written as the selection that it is, and is a
selection of the grammar. -/
theorem rootItem_of_plan (named : s.isNamed = true)
    (structured : ∀ e, s.Meets r e → e.isRaw = false)
    (aliases : ∀ e, s.Meets r e → ∀ a ∈ e.alias?, isName a.toList = true)
    (planned : s.plan r = .ok p) :
    isName p.field.toList = true ∧ Spells p.rootItem.selection.tokens p.rootItem.text.toList ∧
      p.rootItem.selection.isValid = true := by
  obtain ⟨root, b₁, resolved, field_eq, found, arguments, counted, below⟩ :=
    root_of_plan named planned
  have first : (0 : Int) ≤ r.counter := Int.natCast_nonneg _
  have field_named : isName p.field.toList = true := field_eq ▸ isName_of_field named found
  have arguments_named :=
    Request.argumentsNamed_of_bindRoot (isNamed_of_field named found) arguments first
  obtain ⟨base, _, made⟩ := made_of_planned structured aliases resolved below counted
  have no_alias : ∀ a ∈ (none : Option String), isName a.toList = true := by
    intro a ha
    cases ha
  refine ⟨field_named, ?_⟩
  obtain ⟨_, same⟩ | ⟨present, same⟩ := p.rootItem_eq
  · rw [same]
    exact ⟨spells_leaf no_alias field_named arguments_named, isValid_leaf _ _ _⟩
  · rw [same]
    have spelled : ∀ i ∈ p.items, Spells i.selection.tokens i.text.toList :=
      fun i hi => (made i hi).spells first named
    have valid : ∀ i ∈ p.items, i.selection.isValid = true :=
      fun i hi => (made i hi).isValid_selection
    exact ⟨spells_field no_alias field_named arguments_named spelled,
      isValid_field _ _ _ present valid⟩

/-- The variables of a plan are declared in the order they are bound in, each with a type and
nothing else. -/
theorem variables_of_plan (named : s.isNamed = true) (planned : s.plan r = .ok p) :
    ∃ vs : List VariableDefinition,
      p.bindings.declarations = vs.map VariableDefinition.declaration ∧
      Keyed.keys p.bindings.variableMap = vs.map VariableDefinition.name ∧
      (∀ v ∈ vs, v.IsPlain) ∧ (∀ v ∈ vs, v.type.isValid = true) ∧
      ∀ v ∈ vs, Spells v.tokens (declarationText v.name v.type.text).toList := by
  have numbered := numbered_of_plan planned
  obtain ⟨vs, same, plain⟩ := exists_variableDefinitions (typed_of_plan named planned)
  have names : p.bindings.declarations.map Declaration.name = vs.map VariableDefinition.name := by
    rw [same, List.map_map]
    rfl
  have bound : Keyed.keys p.bindings.variableMap = vs.map VariableDefinition.name := by
    rw [numbered.variableMap_eq, numbered.bound, ← numbered.declared, names]
  refine ⟨vs, same, bound, fun v hv => (plain v hv).1, fun v hv => (plain v hv).2.1, ?_⟩
  intro v hv
  have member : v.name ∈ vs.map VariableDefinition.name := List.mem_map.2 ⟨v, hv, rfl⟩
  rw [← names, numbered.declared] at member
  obtain ⟨n, le, _, name⟩ := Bindings.mem_namesBetween member
  refine spells_declarationText (plain v hv).1 ?_ (plain v hv).2.2
  rw [name]
  exact variableName_isName (by omega)

/-- A request without raw text and fragments, against a schema of names, compiles to one operation
with one root field: its variables are declared in the order they were bound in and with the types
noted down for them, and its selection is that of the plan, with the same names, aliases, arguments,
order and nesting. -/
theorem document_of_compileBy {read : String → Option Document} (grammar : Implements read)
    (named : s.isNamed = true) (structured : ∀ e, s.Meets r e → e.isRaw = false)
    (aliases : ∀ e, s.Meets r e → ∀ a ∈ e.alias?, isName a.toList = true)
    (alone : Assembly.fragmentTexts r.fragments = .ok []) (planned : s.plan r = .ok p) :
    ∃ (q : CompiledQuery) (vs : List VariableDefinition), s.compileBy read r = .ok q ∧
      q.keyword = r.action.operationType.text ∧ q.field = p.field ∧
      q.operationName = Assembly.operationName q.keyword p.field ∧
      q.document = [.operation q.keyword (some q.operationName) vs [] [p.rootItem.selection]] ∧
      Keyed.keys q.variableValues = vs.map VariableDefinition.name ∧
      p.bindings.declarations = vs.map VariableDefinition.declaration ∧
      ∀ v ∈ vs, v.IsPlain := by
  obtain ⟨field_named, root, root_valid⟩ := rootItem_of_plan named structured aliases planned
  obtain ⟨vs, same, bound, plain, typed, each⟩ := variables_of_plan named planned
  have valid : Document.isValid [p.definition vs] = true :=
    Plan.isValid_definition plain typed root_valid
  have reads := grammar _ _ valid (Plan.spells_text field_named same each root).ofChars?
  have written := Assembly.documentText_of_ok p.parts alone
  obtain ⟨_, _, _, operation, _, _, _⟩ := planned_of_plan planned
  have keyword : p.operation.text = r.action.operationType.text :=
    congrArg OperationType.text operation
  exact ⟨_, vs, compileBy_of_plan planned written reads, keyword, rfl, rfl, rfl, bound, same, plain⟩

/-- Three users with two posts each are written and read as such. -/
theorem document_of_compileBy_users : ∃ p q vs, Sample.schema.plan Sample.request = .ok p ∧
    Sample.schema.compileBy readText? Sample.request = .ok q ∧
    q.document = [.operation "query" (some "QueryUsers") vs [] [p.rootItem.selection]] := by
  obtain ⟨p, planned, field⟩ := Sample.exists_plan
  have aliases : ∀ e, Sample.schema.Meets Sample.request e →
      ∀ a ∈ e.alias?, isName a.toList = true := by
    intro e h
    have named : e.alias?.all (fun a => isName a.toList) = true := by
      refine h.passes (p := fun e => e.alias?.all fun a => isName a.toList) (by decide +kernel) ?_
      intro e he
      cases he
    intro a ha
    rw [ha] at named
    exact named
  obtain ⟨q, vs, compiled, keyword, _, name, document, _⟩ :=
    document_of_compileBy implements_readText? Sample.isNamed_schema Sample.structured_request
      aliases (by decide +kernel) planned
  have query : q.keyword = "query" := keyword
  have users : Assembly.operationName "query" "users" = "QueryUsers" := by decide +kernel
  rw [name, query, field, users] at document
  exact ⟨p, q, vs, planned, compiled, document⟩

end Schema

end GraphRequest
