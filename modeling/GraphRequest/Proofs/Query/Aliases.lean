import GraphRequest.Proofs.Query.RawTexts

/-!
# Aliases in documents

An alias is written in front of the name of its field as it is given. Should it be a name, up to
white space around it, the document has one field for it, with that alias. Anything else may still
leave a document behind, but not the one that is meant: the aliases in a document are names, and the
rest of the text that was given as an alias is read as something else, as further fields or as
further operations.

* `Document.NamesAliases`: the aliases in the documents that a reader reads are names.
* `Schema.meant_iff_named`: when the document of a request is the one that is meant.
-/

namespace GraphRequest

open Document
open Document.Token (Lexes isName isName_of_lexes trim)

namespace Document

/-! ### The aliases of a document -/

mutual

/-- The aliases in a selection. -/
def Selection.aliases : Selection → List String
  | .field aliasName _ _ _ none => aliasName.toList
  | .field aliasName _ _ _ (some body) => aliasName.toList ++ selectionAliases body
  | .spread _ _ => []
  | .inline _ _ body => selectionAliases body

/-- The aliases in selections. -/
def selectionAliases : List Selection → List String
  | [] => []
  | s :: ss => s.aliases ++ selectionAliases ss

end

/-- The aliases in a definition. -/
def Definition.aliases : Definition → List String
  | .operation _ _ _ _ body => selectionAliases body
  | .fragment _ _ _ body => selectionAliases body

theorem name_mem_nameTokens {a name : String} {aliasName : Option String}
    (mem : a ∈ aliasName.toList) : .name a ∈ nameTokens aliasName name := by
  rw [Option.mem_toList] at mem
  rw [mem]
  exact .head _

mutual

/-- An alias is one of the tokens that its selection is written with. -/
theorem Selection.name_mem_tokens {a : String} (s : Selection) (mem : a ∈ s.aliases) :
    .name a ∈ s.tokens := by
  match s with
  | .field aliasName name arguments directives none =>
    exact List.mem_append_left _ (name_mem_nameTokens mem)
  | .field aliasName name arguments directives (some body) =>
    rcases List.mem_append.1 mem with mem | mem
    · exact List.mem_append_left _ (name_mem_nameTokens mem)
    · have below := name_mem_selectionTokens body mem
      simp [Selection.tokens, below]
  | .inline condition directives body =>
    have below := name_mem_selectionTokens body mem
    simp [Selection.tokens, below]

theorem name_mem_selectionTokens {a : String} (ss : List Selection)
    (mem : a ∈ selectionAliases ss) : .name a ∈ selectionTokens ss := by
  match ss with
  | s :: ss =>
    rcases List.mem_append.1 mem with mem | mem
    · exact List.mem_append_left _ (s.name_mem_tokens mem)
    · exact List.mem_append_right _ (name_mem_selectionTokens ss mem)

end

theorem Definition.Spans.name_mem {d : Definition} {us : List Token} {a : String}
    (h : d.Spans us) (mem : a ∈ d.aliases) : .name a ∈ us := by
  have within {body : List Selection} (mem : a ∈ selectionAliases body) :
      Token.name a ∈ bodyTokens body :=
    .tail _ (List.mem_append_left _ (name_mem_selectionTokens body mem))
  cases h with
  | short body => exact within mem
  | whole =>
    cases d with
    | operation => simp [Definition.tokens, within mem]
    | fragment => simp [Definition.tokens, within mem]

theorem name_mem_spans {d : Document} {spans : List (List Token)}
    (spanned : List.Forall₂ Definition.Spans d spans) {x : Definition} {a : String} (hx : x ∈ d)
    (mem : a ∈ x.aliases) : .name a ∈ spans.flatten := by
  induction spanned with
  | nil => cases hx
  | cons span _ ih =>
    rw [List.flatten_cons]
    rcases List.mem_cons.1 hx with rfl | hx
    · exact List.mem_append_left _ (span.name_mem mem)
    · exact List.mem_append_right _ (ih hx)

/-- A reader takes names for aliases, and nothing else. -/
def NamesAliases (read : String → Option Document) : Prop :=
  ∀ text d, read text = some d → ∀ x ∈ d, ∀ a ∈ x.aliases, isName a.toList = true

/-- The reader without a bound on the nesting takes names for aliases. -/
theorem namesAliases_readText? : NamesAliases readText? := by
  intro text d h x hx a ha
  obtain ⟨ts, lexed, reads⟩ := Option.bind_eq_some_iff.1 h
  obtain ⟨spans, spanned, rfl⟩ := readTokens?_faithful reads
  exact isName_of_lexes (Token.ofChars?_eq_some.1 lexed) (name_mem_spans spanned hx ha)

end Document

namespace Item

/-! ### The aliases of a selection -/

mutual

/-- The aliases in a selection. -/
def aliases : Item → List String
  | .raw _ => []
  | .field aliasName _ _ none => aliasName.toList
  | .field aliasName _ _ (some items) => aliasName.toList ++ aliasesAll items

/-- The aliases in selections. -/
def aliasesAll : List Item → List String
  | [] => []
  | i :: is => aliases i ++ aliasesAll is

end

theorem aliasesAll_eq_flatMap (items : List Item) : aliasesAll items = items.flatMap aliases := by
  induction items with
  | nil => rfl
  | cons i is ih => rw [aliasesAll, ih, List.flatMap_cons]

variable {read : Nat → String → List Selection}

theorem selectionAliases_append (ss ss' : List Selection) :
    selectionAliases (ss ++ ss') = selectionAliases ss ++ selectionAliases ss' := by
  induction ss with
  | nil => rfl
  | cons s ss ih => rw [List.cons_append, selectionAliases, selectionAliases, ih, List.append_assoc]

theorem trim_mem_toList {a : String} {aliasName : Option String} (mem : a ∈ aliasName.toList) :
    trim a ∈ (aliasName.map trim).toList := by
  rw [Option.mem_toList] at mem
  rw [mem]
  exact .head _

mutual

/-- The aliases of a selection are among those of the selections that it stands for. -/
theorem trim_mem_expand (i : Item) (n : Nat) {a : String} (mem : a ∈ i.aliases) :
    trim a ∈ selectionAliases (i.expand read n) := by
  match i with
  | .field aliasName name arguments none =>
    exact List.mem_append_left _ (trim_mem_toList mem)
  | .field aliasName name arguments (some items) =>
    refine List.mem_append_left _ ?_
    rcases List.mem_append.1 mem with mem | mem
    · exact List.mem_append_left _ (trim_mem_toList mem)
    · exact List.mem_append_right _ (trim_mem_expandAll items (n + 1) mem)

theorem trim_mem_expandAll (items : List Item) (n : Nat) {a : String}
    (mem : a ∈ aliasesAll items) : trim a ∈ selectionAliases (expandAll read n items) := by
  match items with
  | i :: is =>
    rw [expandAll, selectionAliases_append]
    rcases List.mem_append.1 mem with mem | mem
    · exact List.mem_append_left _ (trim_mem_expand i n mem)
    · exact List.mem_append_right _ (trim_mem_expandAll is n mem)

end

/-- What can be read stays so when its aliases and its raw texts pass other tests. -/
theorem Readable.imp {aliased aliased' raws raws' : String → Prop} {i : Item}
    (h : i.Readable aliased raws) (texts : ∀ t, raws t → raws' t)
    (aliases : ∀ a ∈ i.aliases, aliased' a) : i.Readable aliased' raws' := by
  induction h with
  | raw given => exact .raw (texts _ given)
  | leaf _ named arguments_named =>
    exact .leaf (fun a ha => aliases a (Option.mem_toList.2 ha)) named arguments_named
  | block _ named arguments_named present _ ih =>
    have own := fun a ha => aliases a (List.mem_append_left _ (Option.mem_toList.2 ha))
    refine .block own named arguments_named present fun i hi => ih i hi fun a ha => ?_
    refine aliases a (List.mem_append_right _ ?_)
    rw [aliasesAll_eq_flatMap]
    exact List.mem_flatMap_of_mem hi ha

end Item

namespace Schema

variable {s : Schema} {r : Request} {q : CompiledQuery} {p : Plan}

/-- The document of a plan without raw texts and fragments, all of whose aliases are names up to
white space: it is the one that is meant. -/
theorem document_of_named {aliased : String → Prop} {read : String → Option Document}
    (grammar : Accepts read) (named : s.isNamed = true) (field : isName p.field.toList = true)
    (readable : p.rootItem.Readable aliased fun _ => False)
    (aliases : ∀ a ∈ p.rootItem.aliases, isName (trim a).toList = true)
    (alone : Assembly.fragmentTexts r.fragments = .ok []) (planned : s.plan r = .ok p) :
    ∃ (q : CompiledQuery) (vs : List VariableDefinition), s.compileBy read r = .ok q ∧
      q.document = [.operation q.keyword (some q.operationName) vs [] p.rootItem.meant] ∧
      p.bindings.declarations = vs.map VariableDefinition.declaration ∧ ∀ v ∈ vs, v.IsPlain := by
  have appended : r.Appends [] := ⟨[], [], alone, .nil, rfl, by decide⟩
  have trimmed : p.rootItem.Readable (fun a => isName (trim a).toList = true) IsSelections :=
    readable.imp (fun _ => False.elim) aliases
  have same : p.rootItem.moved 1 = p.rootItem.meant :=
    (trimmed.moved_eq_iff 1).2 fun t ht => (readable.of_mem_raws 1 t ht).elim
  obtain ⟨q, vs, compiled, _, _, document, declared, plain⟩ :=
    document_of_readable grammar named field trimmed appended planned
  exact ⟨q, vs, compiled, same ▸ document, declared, plain⟩

/-- A request without raw text and fragments that compiles, whatever reader of the grammar says
which text is a document: its document has one operation, with one field for each field of the plan,
under the alias given for it up to white space, if and only if every alias of the plan is a name up
to white space. For the aliases in the document are names, so that any other alias is not among
them. -/
theorem meant_iff_named {read : String → Option Document} (grammar : Accepts read)
    (names : NamesAliases read) (named : s.isNamed = true)
    (structured : ∀ e, s.Meets r e → e.isRaw = false)
    (alone : Assembly.fragmentTexts r.fragments = .ok []) (compiled : s.compileBy read r = .ok q) :
    ∃ (p : Plan) (vs : List VariableDefinition), s.plan r = .ok p ∧ (∀ v ∈ vs, v.IsPlain) ∧
      p.bindings.declarations = vs.map VariableDefinition.declaration ∧
      (∀ d ∈ q.document, ∀ a ∈ d.aliases, isName a.toList = true) ∧
      (q.document = [.operation q.keyword (some q.operationName) vs [] p.rootItem.meant] ↔
        ∀ a ∈ p.rootItem.aliases, isName (trim a).toList = true) ∧
      ((∀ a ∈ p.rootItem.aliases, ∃ d ∈ q.document, trim a ∈ d.aliases) ↔
        ∀ a ∈ p.rootItem.aliases, isName (trim a).toList = true) := by
  obtain ⟨p, text, document, planned, written, reads, rfl⟩ := plan_of_compileBy compiled
  have names := names text document reads
  obtain ⟨field, readable⟩ :
      isName p.field.toList = true ∧ p.rootItem.Readable (fun _ => True) fun _ => False :=
    readable_of_plan named (fun e met => e.not_mem_rawText? (structured e met))
      (fun _ _ _ _ => trivial) planned
  have named_of_found (found : ∀ a ∈ p.rootItem.aliases, ∃ d ∈ document, trim a ∈ d.aliases) :
      ∀ a ∈ p.rootItem.aliases, isName (trim a).toList = true := by
    intro a ha
    obtain ⟨d, hd, mem⟩ := found a ha
    exact names d hd _ mem
  have found_of_meant {keyword name : String} {vs : List VariableDefinition}
      (same : document = [.operation keyword (some name) vs [] p.rootItem.meant]) :
      ∀ a ∈ p.rootItem.aliases, ∃ d ∈ document, trim a ∈ d.aliases := by
    intro a ha
    rw [same]
    exact ⟨_, .head _, p.rootItem.trim_mem_expand 0 ha⟩
  by_cases aliases : ∀ a ∈ p.rootItem.aliases, isName (trim a).toList = true
  · obtain ⟨q, vs, compiled', same, declared, plain⟩ :=
      document_of_named grammar named field readable aliases alone planned
    cases (compileBy_of_plan planned written reads).symm.trans compiled'
    exact ⟨p, vs, planned, plain, declared, names, iff_of_true same aliases,
      iff_of_true (found_of_meant same) aliases⟩
  · obtain ⟨vs, declared, _, plain, _, _⟩ := variables_of_plan named planned
    exact ⟨p, vs, planned, plain, declared, names,
      iff_of_false (fun same => aliases (named_of_found (found_of_meant same))) aliases,
      iff_of_false (fun found => aliases (named_of_found found)) aliases⟩

end Schema

namespace Sample

/-- The request for the ids of users under an alias. -/
def underAlias (aliasName : String) : Option Request := (Request.ofValue (.obj [
  ("operation", .str "query"), ("collection", .str "users"),
  ("returning", .obj [("id", .obj [("alias", .str aliasName)])])])).toOption

/-- A request for ids under a name with white space around it. -/
def spaced : Request := (underAlias "\n label ").get (by decide +kernel)

/-- A request for ids under an alias that closes the selections and opens another operation. -/
def smuggling : Request := (underAlias "x \x7d \x7d query Q \x7b users \x7b y").get
  (by decide +kernel)

end Sample

namespace Schema

/-- White space around an alias is not read. -/
theorem meant_iff_named_label : ∃ (q : CompiledQuery) (p : Plan) (vs : List VariableDefinition),
    Accepts readText? ∧ NamesAliases readText? ∧
    Sample.schema.compileBy readText? Sample.spaced = .ok q ∧
    Sample.schema.plan Sample.spaced = .ok p ∧ p.rootItem.aliases = ["\n label "] ∧
    q.document = [.operation q.keyword (some q.operationName) vs [] p.rootItem.meant] := by
  obtain ⟨p, q, planned, compiled, aliases⟩ : ∃ p q,
      Sample.schema.plan Sample.spaced = .ok p ∧
      Sample.schema.compileBy readText? Sample.spaced = .ok q ∧
      p.rootItem.aliases = ["\n label "] := exists_of_run? (by decide +kernel)
  have structured : ∀ e, Sample.schema.Meets Sample.spaced e → e.isRaw = false :=
    structured_of_wanted rfl (by decide +kernel)
  obtain ⟨p', vs, planned', _, _, _, iff, _⟩ := meant_iff_named accepts_readText?
    namesAliases_readText? Sample.isNamed_schema structured (by decide +kernel) compiled
  cases planned.symm.trans planned'
  refine ⟨q, p, vs, accepts_readText?, namesAliases_readText?, compiled, planned, aliases,
    iff.2 ?_⟩
  rw [aliases, List.forall_mem_singleton]
  decide +kernel

/-- An alias that closes the selections leaves two operations behind, with another alias than the
one given, whatever reader of the grammar says which text is a document. -/
theorem smuggled_operation : ∃ (q : CompiledQuery) (p : Plan),
    (∀ read, Accepts read → Sample.schema.compileBy read Sample.smuggling = .ok q) ∧
    Sample.schema.plan Sample.smuggling = .ok p ∧ Sample.schema.isNamed = true ∧
    (∀ e, Sample.schema.Meets Sample.smuggling e → e.isRaw = false) ∧
    Assembly.fragmentTexts Sample.smuggling.fragments = .ok [] ∧
    p.rootItem.aliases = ["x \x7d \x7d query Q \x7b users \x7b y"] ∧
    q.document.map Definition.aliases = [[], ["y"]] := by
  obtain ⟨p, q, planned, compiled, read⟩ : ∃ p q,
      Sample.schema.plan Sample.smuggling = .ok p ∧
      Sample.schema.compileBy readText? Sample.smuggling = .ok q ∧
      (p.rootItem.aliases, q.document.map Definition.aliases, isValid q.document) =
        (["x \x7d \x7d query Q \x7b users \x7b y"], [[], ["y"]], true) :=
    exists_of_run? (by decide +kernel)
  obtain ⟨aliases, read⟩ := Prod.mk.inj read
  obtain ⟨left, valid⟩ := Prod.mk.inj read
  exact ⟨q, p, fun _ grammar => compileBy_of_accepts grammar valid compiled, planned,
    Sample.isNamed_schema, structured_of_wanted rfl (by decide +kernel), by decide +kernel, aliases,
    left⟩

end Schema

end GraphRequest
