import GraphRequest.Proofs.Query.Documents
import GraphRequest.Proofs.Query.Envelopes
import GraphRequest.Proofs.Selection.Expanded
import GraphRequest.Proofs.Selection.Merged

/-!
# Raw texts in documents

A request may want raw texts. Each of them should be in the document as the selections that it is by
itself. The document puts two spaces in front of its lines for every level that it stands at, also
in front of the lines of a block string, and of what follows a character inside a string that ends a
line for the compiler only. So the raw text is taken over as it is if and only if its strings keep
their values on the way.

* `Request.Appends`: the fragments of a request make up definitions.
* `Schema.document_of_readable`: the document of a plan with raw texts.
* `Schema.meant_iff_steady`: when the document selects what the raw texts are by themselves.
-/

namespace GraphRequest

open Document Step
open Document.Token (Spells Lexes Matches isName trim closed_cons ofChars?_eq_some)

/-- The fragments of a request make up definitions of the grammar. -/
def Request.Appends (r : Request) (ds : Document) : Prop :=
  ∃ texts spans, Assembly.fragmentTexts r.fragments = .ok texts ∧
    List.Forall₂ Definition.Spans ds spans ∧ ds.all Definition.isValid = true ∧
    Token.ofChars? ("\n\n".intercalate texts).toList = some spans.flatten

namespace Plan

/-- The text of a plan with fragments has the tokens of its operation and of the fragments. -/
theorem lexes_text {p : Plan} {vs : List VariableDefinition} {ss : List Selection}
    {texts : List String} {us : List Token}
    (header : Spells (.name p.operation.text :: .name p.parts.operationName ::
      declarationTokens vs) p.parts.header.toList)
    (root : Lexes (Text.indentChars^[1] p.rootItem.text.toList) (selectionTokens ss))
    (fragments : Lexes ("\n\n".intercalate texts).toList us) :
    Lexes (p.parts.text texts).toList (Definition.tokens
      (.operation p.operation.text (some p.parts.operationName) vs [] ss) ++ us) := by
  have operation : Lexes p.parts.operationText.toList (Definition.tokens
      (.operation p.operation.text (some p.parts.operationName) vs [] ss)) := by
    have below : Lexes (Text.indentChars^[1] ("\n".intercalate [p.rootItem.text]).toList)
        (selectionTokens ss) := by
      rwa [String.intercalate_singleton]
    have block := lexes_blockText 0 header below
    rw [← fieldText_parts] at block
    exact block
  cases texts with
  | nil =>
    have whole : (p.parts.text []).toList = p.parts.operationText.toList ++ ['\n'] := by
      rw [Assembly.Parts.text, String.intercalate_singleton, String.toList_append]
      rfl
    rw [whole]
    exact operation.append_break fragments
  | cons t texts =>
    have whole : (p.parts.text (t :: texts)).toList = p.parts.operationText.toList ++
        '\n' :: '\n' :: (("\n\n".intercalate (t :: texts)).toList ++ ['\n']) := by
      rw [Assembly.Parts.text, String.intercalate_cons_cons]
      simp
    have ended := fragments.append_break .nil
    rw [List.append_nil] at ended
    rw [whole]
    exact operation.append_break (.ignored rfl ended)

end Plan

namespace Schema

variable {s : Schema} {r : Request} {p : Plan} {ds : Document}

/-- The root field of a plan against a schema of names can be read. -/
theorem readable_of_plan {aliased raws : String → Prop} (named : s.isNamed = true)
    (texts : ∀ e, s.Meets r e → ∀ t ∈ e.rawText?, raws t)
    (aliases : ∀ e, s.Meets r e → ∀ a ∈ e.alias?, aliased a) (planned : s.plan r = .ok p) :
    isName p.field.toList = true ∧ p.rootItem.Readable aliased raws := by
  obtain ⟨root, b₁, resolved, field_eq, found, arguments, counted, below⟩ :=
    root_of_plan named planned
  have first : (0 : Int) ≤ r.counter := Int.natCast_nonneg _
  have field_named : isName p.field.toList = true := field_eq ▸ isName_of_field named found
  have arguments_named :=
    Request.argumentsNamed_of_bindRoot (isNamed_of_field named found) arguments first
  obtain ⟨base, _, arises⟩ := arises_of_planned texts aliases resolved below counted
  have unnamed : ∀ a ∈ (none : Option String), aliased a := nofun
  refine ⟨field_named, ?_⟩
  obtain ⟨_, same⟩ | ⟨present, same⟩ := p.rootItem_eq
  · exact same ▸ .leaf unnamed field_named arguments_named
  · exact same ▸ .block unnamed field_named arguments_named present
      fun i hi => (arises i hi).readable first named

/-- The document of a plan whose aliases are names, up to white space around them, and whose raw
texts are selections: one operation that selects what is read of the root field, and behind it the
definitions that the fragments make up. -/
theorem document_of_readable {read : String → Option Document} (grammar : Accepts read)
    (named : s.isNamed = true) (field : isName p.field.toList = true)
    (readable : p.rootItem.Readable (fun a => isName (trim a).toList = true) IsSelections)
    (appended : r.Appends ds) (planned : s.plan r = .ok p) :
    ∃ (q : CompiledQuery) (vs : List VariableDefinition), s.compileBy read r = .ok q ∧
      q.keyword = r.action.operationType.text ∧
      q.operationName = Assembly.operationName q.keyword p.field ∧
      q.document = .operation q.keyword (some q.operationName) vs [] (p.rootItem.moved 1) :: ds ∧
      p.bindings.declarations = vs.map VariableDefinition.declaration ∧
      ∀ v ∈ vs, v.IsPlain := by
  obtain ⟨texts, spans, made, spanned, valid_fragments, lexed⟩ := appended
  obtain ⟨vs, same, _, plain, typed, each⟩ := variables_of_plan named planned
  obtain ⟨present, valid_root⟩ := readable.isValid_moved 1
  have valid : Document.isValid
      (.operation p.operation.text (some p.parts.operationName) vs [] (p.rootItem.moved 1) :: ds)
        = true := by
    rw [Document.isValid, List.all_cons, valid_fragments,
      Plan.isValid_operation _ _ plain typed present valid_root]
    rfl
  have lexes := Plan.lexes_text (Plan.spells_header field same each) (readable.lexes_moved 1)
    (ofChars?_eq_some.1 lexed)
  have reads := grammar _ _ (_ :: spans) valid (.cons (.whole _) spanned)
    (ofChars?_eq_some.2 lexes)
  have written := Assembly.documentText_of_ok p.parts made
  obtain ⟨_, _, _, operation, _, _, _⟩ := planned_of_plan planned
  have keyword : p.operation.text = r.action.operationType.text :=
    congrArg OperationType.text operation
  exact ⟨_, vs, compileBy_of_plan planned written reads, keyword, rfl, rfl, same, plain⟩

/-! ### Lists of raw texts -/

/-- The raw texts that are met, without the blanks at their ends, are selections when they are
selections as they are given. -/
theorem isSelections_of_rawText
    (texts : ∀ text, s.Meets r (.raw text) → Text.isBlankText text = false → IsSelections text) :
    ∀ e, s.Meets r e → ∀ t ∈ e.rawText?, IsSelections t := by
  intro e met t ht
  cases e with
  | raw text =>
    rw [Option.mem_def, Entry.rawText?] at ht
    split at ht
    · cases ht
    · rename_i visible
      cases ht
      exact (texts text met (Bool.eq_false_iff.2 visible)).strip.1
  | _ => cases ht

/-- A request for a list of raw texts, one of them not blank, is a query without an aggregate whose
root field takes selections. -/
structure ListsRaws (s : Schema) (r : Request) (texts : List String) : Prop where
  query : r.action.isMutation = false
  unmerged : r.aggregate = none ∨ r.aggregate = some []
  wanted : r.wanted = some (.list (texts.map .raw))
  visible : ∃ text ∈ texts, Text.isBlankText text = false
  selectable : ∃ root base t, s.resolve r = .ok root ∧ root.field.base = .ok base ∧
    s.selectable base.name = .ok (some t)

theorem wantedEntries_of_listsRaws {texts : List String} (lists : s.ListsRaws r texts) :
    r.wantedEntries = texts.map .raw := by
  rw [Request.wantedEntries, lists.wanted]
  rfl

/-- Compiling a request for a list of raw texts comes upon nothing else. -/
theorem raw_of_meets {texts : List String} {e : Entry} (lists : s.ListsRaws r texts)
    (met : s.Meets r e) : ∃ text ∈ texts, e = .raw text := by
  cases met with
  | wanted on listed reaches =>
    rw [wantedEntries_of_listsRaws lists] at listed
    obtain ⟨text, mem, rfl⟩ := List.mem_map.1 listed
    cases reaches with
    | self => exact ⟨text, mem, rfl⟩
    | descend _ _ _ wants => cases wants.isRaw_eq
  | aggregate on entry reaches =>
    rw [aggregateEntry_of_plain lists.unmerged] at entry
    cases entry

/-- Raw texts compile to themselves on any type, but for the blank ones. -/
theorem items_of_compileAll_raws {texts : List String} {type : Value} {path : List String}
    {b b' : Bindings} {items : List Item}
    (h : Runs (s.compileAll (texts.map .raw) type path) b items b') :
    items = (texts.filterMap fun text => (Entry.raw text).rawText?).map .raw := by
  induction texts generalizing b items with
  | nil => exact (Entry.runs_compileAll_nil.1 h).1
  | cons text texts ih =>
    obtain ⟨o, rest, b₁, first, others, rfl⟩ := runs_compileAll_cons.1 h
    obtain ⟨rfl, rfl⟩ := runs_pure.1 first
    rw [ih others, Entry.rawItem_eq, List.filterMap_cons]
    cases (Entry.raw text).rawText? <;> rfl

/-- The selections of raw texts are those that each text is by itself, one after the other. -/
theorem expandAll_raws {texts : List String}
    (valid : ∀ text ∈ texts, Text.isBlankText text = false → IsSelections text) (n : Nat) :
    Item.expandAll (fun _ => selectionsOf) n
        ((texts.filterMap fun text => (Entry.raw text).rawText?).map .raw)
      = texts.flatMap selectionsOf := by
  induction texts with
  | nil => rfl
  | cons text texts ih =>
    have others := ih fun t ht => valid t (.tail _ ht)
    rw [List.filterMap_cons, List.flatMap_cons, Entry.rawText?]
    cases blank : Text.isBlankText text with
    | true =>
      rw [selectionsOf_of_isBlankText blank]
      exact others
    | false =>
      rw [← (valid text (.head _) blank).strip.2, ← others]
      rfl

theorem rawsAll_raws (texts : List String) (n : Nat) :
    Item.rawsAll n (texts.map .raw) = texts.map fun text => (n, text) := by
  induction texts with
  | nil => rfl
  | cons text texts ih =>
    rw [List.map_cons, List.map_cons, Item.rawsAll, ih]
    rfl

/-- The selection of a plan for a list of raw texts is compiled from the texts alone. -/
theorem runs_of_listsRaws {texts : List String} (lists : s.ListsRaws r texts)
    (planned : s.plan r = .ok p) : ∃ type path b b', s.SelectsOn r type ∧
      Runs (s.compileAll (texts.map .raw) type path) b p.items b' := by
  obtain ⟨root, base, t, resolved, returned, selectable⟩ := lists.selectable
  obtain ⟨root', b₁, resolved', _, _, _, below⟩ := planned_of_plan planned
  cases resolved.symm.trans resolved'
  generalize p.items = items, p.bindings = bindings at below ⊢
  cases below with
  | enveloped envelope compiles =>
    have single : Naming.isBulk r.action root.name = false := by simp [Naming.isBulk, lists.query]
    cases (runs_envelope_of_single (nameText_of_resolve resolved) single envelope).1
  | plain envelope returned' compiles =>
    cases returned.symm.trans returned'
    cases runs_compileRoot compiles with
    | leaf unselectable =>
      rw [unselectable] at selectable
      cases selectable
    | wanted _ _ compiles =>
      unfold compileWanted at compiles
      rw [lists.wanted] at compiles
      exact ⟨_, _, _, _, .root resolved envelope returned, compiles⟩
    | merged _ _ entry =>
      rw [aggregateEntry_of_plain lists.unmerged] at entry
      cases entry

/-- What the root field of a plan for a list of raw texts is meant to select, and the raw texts in
it. -/
theorem rootItem_of_listsRaws
    (valid : ∀ text, s.Meets r (.raw text) → Text.isBlankText text = false → IsSelections text)
    {texts : List String} (lists : s.ListsRaws r texts) (planned : s.plan r = .ok p) :
    p.rootItem.meant = [.field none p.field (p.arguments.map BoundArgument.argument) []
      (some (texts.flatMap selectionsOf))] ∧
    p.rootItem.raws 1
      = (texts.filterMap fun text => (Entry.raw text).rawText?).map fun text => (2, text) := by
  obtain ⟨type, path, b, b', on, compiles⟩ := runs_of_listsRaws lists planned
  have items := items_of_compileAll_raws compiles
  have wanted := wantedEntries_of_listsRaws lists
  have each : ∀ text ∈ texts, Text.isBlankText text = false → IsSelections text := by
    intro text mem
    have listed : Entry.raw text ∈ r.wantedEntries := wanted ▸ List.mem_map_of_mem mem
    exact valid text (.wanted on listed (.self type _))
  obtain ⟨empty, _⟩ | ⟨_, same⟩ := p.rootItem_eq
  · obtain ⟨text, mem, visible⟩ := lists.visible
    rw [items, List.map_eq_nil_iff, List.filterMap_eq_nil_iff] at empty
    have dropped := empty text mem
    rw [Entry.rawText?, visible] at dropped
    cases dropped
  · rw [same, items]
    refine ⟨?_, rawsAll_raws _ 2⟩
    rw [← expandAll_raws each 1]
    rfl

/-! ### What is meant and what is read -/

/-- The document of a request for raw texts that are selections by themselves: what it selects are
the selections of the moved texts, which have the tokens of those that are meant up to the values of
strings. They are those that are meant if and only if every raw text keeps its tokens, strings
included, at the depth it stands at. What is meant of a list of raw texts is the selections of each
of them by itself, one after the other. -/
theorem meant_iff_steady {read : String → Option Document} (grammar : Accepts read)
    (named : s.isNamed = true)
    (valid : ∀ text, s.Meets r (.raw text) → Text.isBlankText text = false → IsSelections text)
    (aliases : ∀ e, s.Meets r e → ∀ a ∈ e.alias?, isName (trim a).toList = true)
    (appended : r.Appends ds) (planned : s.plan r = .ok p) :
    ∃ (q : CompiledQuery) (vs : List VariableDefinition), s.compileBy read r = .ok q ∧
      (∀ v ∈ vs, v.IsPlain) ∧
      q.document = .operation q.keyword (some q.operationName) vs [] (p.rootItem.moved 1) :: ds ∧
      List.Forall₂ Matches (selectionTokens p.rootItem.meant)
        (selectionTokens (p.rootItem.moved 1)) ∧
      (q.document = .operation q.keyword (some q.operationName) vs [] p.rootItem.meant :: ds ↔
        ∀ t ∈ p.rootItem.raws 1, Steady t.1 t.2) ∧
      ∀ texts, s.ListsRaws r texts →
        p.rootItem.meant = [.field none p.field (p.arguments.map BoundArgument.argument) []
          (some (texts.flatMap selectionsOf))] ∧
        p.rootItem.raws 1
          = (texts.filterMap fun text => (Entry.raw text).rawText?).map fun text => (2, text) := by
  obtain ⟨field, readable⟩ :=
    readable_of_plan named (isSelections_of_rawText valid) aliases planned
  obtain ⟨q, vs, compiled, _, _, document, _, plain⟩ :=
    document_of_readable grammar named field readable appended planned
  refine ⟨q, vs, compiled, plain, document, readable.matches_moved 1, ?_,
    fun texts lists => rootItem_of_listsRaws valid lists planned⟩
  rw [← readable.moved_eq_iff 1, document]
  simp

end Schema

namespace Sample

/-- Two raw texts, the first of which spreads a fragment. -/
def snippets : List String := ["posts(note: \"a\") \x7b ...Titles \x7d", "id"]

/-- A request for users by these texts. -/
def spread : Request := (Request.ofValue (.obj [("operation", .str "query"),
  ("collection", .str "users"), ("returning", .arr (snippets.map .str)),
  ("fragments", .arr [.str "fragment Titles on Post \x7b title \x7d"])])).toOption.get
    (by decide +kernel)

/-- The definition that the fragment makes up. -/
def titles : Definition := .fragment "Titles" "Post" [] [.field none "title" [] [] none]

/-- A raw text with a line separator inside a string. -/
def note : String := "posts(note: \"a\u2028b\") \x7b title \x7d"

/-- A request for users by this raw text. -/
def separated : Request := (Request.ofValue (.obj [("operation", .str "query"),
  ("collection", .str "users"), ("returning", .arr [.str note])])).toOption.get (by decide +kernel)

theorem listsRaws_of_wanted {r : Request} {texts : List String}
    (query : r.action.isMutation = false) (unmerged : r.aggregate = none)
    (wanted : r.wanted = some (.list (texts.map .raw)))
    (visible : texts.any (!Text.isBlankText ·) = true)
    (selectable : ((returnedBy r).toOption.map fun p => p.2.2.isSome) = some true) :
    schema.ListsRaws r texts := by
  obtain ⟨root, base, type, resolved, returned, found, some'⟩ := exists_returned selectable
  obtain ⟨t, rfl⟩ := Option.isSome_iff_exists.1 some'
  obtain ⟨text, mem, here⟩ := List.any_eq_true.1 visible
  exact ⟨query, .inl unmerged, wanted, ⟨text, mem, by simpa using here⟩, root, base, t, resolved,
    returned, found⟩

theorem isSelections_snippets : ∀ text ∈ snippets, IsSelections text := by
  intro text mem
  rcases List.mem_cons.1 mem with rfl | mem
  · exact ⟨[.field none "posts" [("note", .string "a")] [] (some [.spread "Titles" []])],
      List.cons_ne_nil _ _, rfl, by decide +kernel⟩
  · rw [List.mem_singleton.1 mem]
    exact ⟨[.field none "id" [] [] none], List.cons_ne_nil _ _, rfl, by decide +kernel⟩

theorem steady_snippets {n : Nat} : ∀ text ∈ snippets, Steady n text := by
  intro text mem
  obtain ⟨_, _, tokens⟩ := isSelections_iff.1 (isSelections_snippets text mem)
  have inline : snippets.all (fun text => text.toList.all (!Text.isLineEnd ·)) = true := by
    decide +kernel
  exact steady_of_isLineEnd (Token.eq_false_of_all (List.all_eq_true.1 inline text mem)) tokens n

end Sample

namespace Schema

/-- The document for the two raw texts selects what they are by themselves. -/
theorem meant_iff_steady_titles : ∃ (q : CompiledQuery) (vs : List VariableDefinition) (p : Plan),
    Sample.schema.plan Sample.spread = .ok p ∧
    Sample.schema.compileBy readText? Sample.spread = .ok q ∧
    q.document = [.operation q.keyword (some q.operationName) vs []
      [.field none p.field (p.arguments.map BoundArgument.argument) []
        (some (Sample.snippets.flatMap selectionsOf))], Sample.titles] := by
  obtain ⟨p, planned, _⟩ : ∃ p, Sample.schema.plan Sample.spread = .ok p ∧ p.field = "users" :=
    exists_of_toOption_map (by decide +kernel)
  have lists : Sample.schema.ListsRaws Sample.spread Sample.snippets :=
    Sample.listsRaws_of_wanted rfl rfl rfl (by decide +kernel) (by decide +kernel)
  have valid : ∀ text, Sample.schema.Meets Sample.spread (.raw text) →
      Text.isBlankText text = false → IsSelections text := by
    intro text met _
    obtain ⟨_, mem, same⟩ := raw_of_meets lists met
    cases same
    exact Sample.isSelections_snippets text mem
  have aliases : ∀ e, Sample.schema.Meets Sample.spread e →
      ∀ a ∈ e.alias?, isName (trim a).toList = true := by
    intro e met
    obtain ⟨text, _, rfl⟩ := raw_of_meets lists met
    exact nofun
  have appended : Sample.spread.Appends [Sample.titles] :=
    ⟨["fragment Titles on Post \x7b title \x7d"], [Sample.titles.tokens], by decide +kernel,
      .cons (.whole _) .nil, rfl, by decide +kernel⟩
  obtain ⟨q, vs, compiled, _, _, _, iff, below⟩ := meant_iff_steady accepts_readText?
    Sample.isNamed_schema valid aliases appended planned
  obtain ⟨meant, raws⟩ := below _ lists
  have steady : ∀ t ∈ p.rootItem.raws 1, Steady t.1 t.2 := by
    have same : Sample.snippets.filterMap (fun text => (Entry.raw text).rawText?)
        = Sample.snippets := by decide +kernel
    rw [raws, same]
    intro t ht
    obtain ⟨text, mem, rfl⟩ := List.mem_map.1 ht
    exact Sample.steady_snippets text mem
  exact ⟨q, vs, p, planned, compiled, meant ▸ iff.2 steady⟩

/-- A line separator inside a string of a raw text ends a line for the compiler, which puts spaces
behind it: the document holds another string, whatever reader of the grammar reads it. -/
theorem padded_note : ∃ q,
    (∀ read, Accepts read → Sample.schema.compileBy read Sample.separated = .ok q) ∧
    Sample.schema.ListsRaws Sample.separated [Sample.note] ∧ IsSelections Sample.note ∧
    .string "a\u2028b" ∈ selectionTokens (selectionsOf Sample.note) ∧
    .string "a\u2028b" ∉ tokens q.document ∧ .string "a\u2028    b" ∈ tokens q.document := by
  have lists : Sample.schema.ListsRaws Sample.separated [Sample.note] :=
    Sample.listsRaws_of_wanted rfl rfl rfl (by decide +kernel) (by decide +kernel)
  have valid : IsSelections Sample.note :=
    ⟨[.field none "posts" [("note", .string "a\u2028b")] []
      (some [.field none "title" [] [] none])], List.cons_ne_nil _ _, rfl, by decide +kernel⟩
  obtain ⟨q, compiled, found⟩ : ∃ q, Sample.schema.compileBy readText? Sample.separated = .ok q ∧
      ((tokens q.document).contains (.string "a\u2028b"),
        (tokens q.document).contains (.string "a\u2028    b"), isValid q.document) =
        (false, true, true) := exists_compileBy_of_run? (by decide +kernel)
  obtain ⟨lost, others⟩ := Prod.mk.inj found
  obtain ⟨made, document⟩ := Prod.mk.inj others
  have whole :
      (selectionTokens (selectionsOf Sample.note)).contains (.string "a\u2028b") = true := by
    decide +kernel
  refine ⟨q, fun _ grammar => compileBy_of_accepts grammar document compiled, lists, valid,
    List.contains_iff_mem.1 whole, fun mem => ?_, List.contains_iff_mem.1 made⟩
  rw [List.contains_iff_mem.2 mem] at lost
  cases lost

end Schema

end GraphRequest
