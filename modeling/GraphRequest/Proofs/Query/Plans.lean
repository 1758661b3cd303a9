import GraphRequest.Query.Generate
import GraphRequest.Proofs.Query.Failures
import GraphRequest.Proofs.Schema.Introspected
import GraphRequest.Proofs.Selection.Characters
import GraphRequest.Proofs.Selection.Roots

/-!
# What planning a request does

A plan binds the arguments of the root field and then compiles the root selection, on the type that
the root field returns or, in an envelope, on the type of the rows.

* `planned_of_plan`: the two ways in which a plan comes about.
* `plan_of_compileBy`: what a compiled query takes over from its plan.
* `sameOutcome_of_plans`: two requests compile alike when their texts are read alike.
* `Schema.exists_of_run?`: what holds of a plan and its compiled query can be evaluated.
* `Schema.Meets`: the entries that compiling a request comes upon.
-/

namespace GraphRequest

open Step

namespace Plan

/-- The root field of a plan, with its arguments and selections. -/
def rootItem (p : Plan) : Item :=
  .field none p.field p.arguments (if p.items.isEmpty then none else some p.items)

/-- The root field has a body when something is selected below it. -/
theorem rootItem_eq (p : Plan) :
    p.items = [] ∧ p.rootItem = .field none p.field p.arguments none ∨
      p.items ≠ [] ∧ p.rootItem = .field none p.field p.arguments (some p.items) := by
  unfold rootItem
  cases p.items with
  | nil => exact .inl ⟨rfl, rfl⟩
  | cons i items => exact .inr ⟨List.cons_ne_nil _ _, rfl⟩

/-- The compiled query for a plan whose text is read as a document. -/
def compiled (p : Plan) (document : Document) : CompiledQuery where
  documentText := Document.text document
  document
  variableValues := p.bindings.variableMap
  field := p.field
  nextCounter := p.bindings.counter
  keyword := p.operation.text
  operationName := p.parts.operationName
  diagnostics := p.bindings.diagnostics

end Plan

namespace Assembly

theorem documentText_of_error {fragments : List Value} {fault : ShapeFault}
    (parts : Parts) (h : fragmentTexts fragments = .error fault) :
    documentText parts fragments = .error (.shape fault) := by
  rw [documentText, h]
  rfl

theorem documentText_of_ok {fragments : List Value} {texts : List String} (parts : Parts)
    (h : fragmentTexts fragments = .ok texts) :
    documentText parts fragments = .ok (parts.text texts) := by
  rw [documentText, h]
  rfl

end Assembly

namespace Schema

/-! ### Plans -/

/-- How the selection of a plan comes about: on the type of the rows and in an envelope, or on the
type that the root field returns. -/
inductive Planned (s : Schema) (r : Request) (root : RootField) (b : Bindings) :
    List Item → Bindings → Prop
  | enveloped {e : Envelope} {items : List Item} {b₁ b' : Bindings}
      (envelope : Runs (s.envelope (some r.action) root.field) b (some e) b₁)
      (compiles : Runs (s.compileRoot r e.row false [root.name]) b₁ items b') :
      Planned s r root b (Envelope.wrap items) b'
  | plain {base : BaseType} {items : List Item} {b₁ b' : Bindings}
      (envelope : Runs (s.envelope (some r.action) root.field) b none b₁)
      (returned : root.field.base = .ok base)
      (compiles : Runs (s.compileRoot r base.name r.isAggregate [root.name]) b₁ items b') :
      Planned s r root b items b'

variable {s : Schema} {r : Request}

theorem planned_of_runs {root : RootField} {b b' : Bindings} {items : List Item}
    (h : Runs (s.planItems r root) b items b') : Planned s r root b items b' := by
  obtain ⟨o, b₁, envelope, h₁⟩ := runs_bind.1 h
  cases o with
  | none =>
    obtain ⟨base, b₂, hb, h₂⟩ := runs_bind.1 h₁
    obtain ⟨returned, rfl⟩ := runs_of.1 hb
    exact .plain envelope returned h₂
  | some e =>
    obtain ⟨ws, b₂, compiles, h₂⟩ := runs_bind.1 h₁
    obtain ⟨rfl, rfl⟩ := runs_pure.1 h₂
    exact .enveloped envelope compiles

/-- A plan binds the arguments of the resolved root field and then compiles its selection. -/
theorem planned_of_plan {p : Plan} (h : s.plan r = .ok p) :
    ∃ root b₁, s.resolve r = .ok root ∧ p.operation = r.action.operationType ∧
      p.field = root.name ∧
      Runs (r.bindRoot root.field) (Bindings.start r.counter) p.arguments b₁ ∧
      Planned s r root b₁ p.items p.bindings := by
  unfold plan at h
  cases hr : s.resolve r with
  | error e =>
    rw [hr] at h
    cases h
  | ok root =>
    rw [hr] at h
    cases hp : (s.planRoot r root).result (Bindings.start r.counter) with
    | error e =>
      simp only [hp, bind, Except.bind] at h
      cases h
    | ok q =>
      obtain ⟨⟨arguments, items⟩, bindings⟩ := q
      simp only [hp, bind, Except.bind] at h
      cases h
      obtain ⟨arguments', b₁, ha, h₁⟩ := runs_bind.1 hp
      obtain ⟨items', b₂, hi, h₂⟩ := runs_bind.1 h₁
      obtain ⟨same, rfl⟩ := runs_pure.1 h₂
      cases same
      exact ⟨root, b₁, rfl, rfl, rfl, ha, planned_of_runs hi⟩

theorem plan_of_resolve_error {f : Failure} (h : s.resolve r = .error f) :
    s.plan r = .error f := by
  unfold plan
  rw [h]
  rfl

theorem plan_of_resolve {root : RootField} (h : s.resolve r = .ok root) :
    s.plan r = ((s.planRoot r root).result (Bindings.start r.counter)).map fun p =>
      ⟨r.action.operationType, root.name, p.1.1, p.1.2, p.2⟩ := by
  unfold plan
  rw [h]
  cases result : (s.planRoot r root).result (Bindings.start r.counter) with
  | error f => simp only [bind, Except.bind, result, Except.map]
  | ok p => simp only [bind, Except.bind, result, Except.map]

theorem compileBy_of_unplanned {read : String → Option Document} {f : Failure}
    (unplanned : s.plan r = .error f) : s.compileBy read r = .error f := by
  rw [compileBy, unplanned]
  rfl

/-- What is left to do once a request is planned: the text is written and read as a document. -/
theorem compileBy_of_planned {read : String → Option Document} {p : Plan}
    (planned : s.plan r = .ok p) :
    s.compileBy read r = Assembly.documentText p.parts r.fragments >>= fun text =>
      match read text with
      | none => .error (.malformed text p.bindings.variableMap)
      | some document => .ok (p.compiled document) := by
  rw [compileBy, planned]
  rfl

/-- A plan whose text is read as a document is a compiled query. -/
theorem compileBy_of_plan {read : String → Option Document} {p : Plan} {text : String}
    {document : Document} (planned : s.plan r = .ok p)
    (written : Assembly.documentText p.parts r.fragments = .ok text)
    (reads : read text = some document) :
    s.compileBy read r = .ok (p.compiled document) := by
  rw [compileBy_of_planned planned, written]
  simp only [bind, Except.bind, reads]

theorem compileBy_of_unwritten {read : String → Option Document} {p : Plan} {f : Failure}
    (planned : s.plan r = .ok p)
    (unwritten : Assembly.documentText p.parts r.fragments = .error f) :
    s.compileBy read r = .error f := by
  rw [compileBy_of_planned planned, unwritten]
  rfl

theorem compileBy_of_unread {read : String → Option Document} {p : Plan} {text : String}
    (planned : s.plan r = .ok p) (written : Assembly.documentText p.parts r.fragments = .ok text)
    (unread : read text = none) :
    s.compileBy read r = .error (.malformed text p.bindings.variableMap) := by
  rw [compileBy_of_planned planned, written]
  simp only [bind, Except.bind, unread]

/-- A compiled query is the plan of its request with a document that its text was read as. -/
theorem plan_of_compileBy {read : String → Option Document} {q : CompiledQuery}
    (h : s.compileBy read r = .ok q) :
    ∃ p text document, s.plan r = .ok p ∧
      Assembly.documentText p.parts r.fragments = .ok text ∧ read text = some document ∧
      q = p.compiled document := by
  cases planned : s.plan r with
  | error f =>
    rw [compileBy_of_unplanned planned] at h
    cases h
  | ok p =>
    rw [compileBy_of_planned planned] at h
    obtain ⟨text, written, h⟩ := bind_eq_ok.1 h
    split at h
    · cases h
    · rename_i document reads
      cases h
      exact ⟨p, text, document, rfl, written, reads, rfl⟩

/-- The texts of two plans are both documents or both none, whatever fragments they come with: the
two requests compile alike, as far as the compiled queries are related. -/
theorem sameOutcome_of_plans {read : String → Option Document} {r' : Request} {p p' : Plan}
    {T : CompiledQuery → CompiledQuery → Prop} (planned : s.plan r = .ok p)
    (planned' : s.plan r' = .ok p') (fragments : r'.fragments = r.fragments)
    (related : ∀ texts, Option.Rel (fun d d' => T (p.compiled d) (p'.compiled d'))
      (read (p.parts.text texts)) (read (p'.parts.text texts))) :
    Failure.SameOutcome T (s.compileBy read r) (s.compileBy read r') := by
  cases copied : Assembly.fragmentTexts r.fragments with
  | error fault =>
    rw [compileBy_of_unwritten planned (Assembly.documentText_of_error _ copied),
      compileBy_of_unwritten planned' (Assembly.documentText_of_error _ (fragments ▸ copied))]
    exact .failed rfl
  | ok texts =>
    have written := Assembly.documentText_of_ok p.parts copied
    have written' := Assembly.documentText_of_ok p'.parts (fragments ▸ copied)
    have both := related texts
    generalize reads : read (p.parts.text texts) = document at both
    generalize reads' : read (p'.parts.text texts) = document' at both
    cases both with
    | none =>
      rw [compileBy_of_unread planned written reads, compileBy_of_unread planned' written' reads']
      exact .failed (show FailureKind.malformed = .malformed from rfl)
    | some same =>
      rw [compileBy_of_plan planned written reads, compileBy_of_plan planned' written' reads']
      exact .succeeded same

/-! ### Evaluation -/

/-- The plan of a request and its compiled query, if there are any. The document is read from its
characters, so that this can be evaluated without putting strings together. -/
def run? (s : Schema) (r : Request) : Option (Plan × CompiledQuery) := do
  let p ← (s.plan r).toOption
  let document ← p.read? r.fragments
  some (p, p.compiled document)

/-- A request that runs is planned and compiled. -/
theorem of_run? {p : Plan} {q : CompiledQuery} (h : s.run? r = some (p, q)) :
    s.plan r = .ok p ∧ s.compileBy Document.readText? r = .ok q := by
  obtain ⟨p', planned, h⟩ := Option.bind_eq_some_iff.1 h
  obtain ⟨document, reads, h⟩ := Option.bind_eq_some_iff.1 h
  cases h
  have planned : s.plan r = .ok p := eq_ok_of_toOption planned
  obtain ⟨texts, made, reads⟩ := Option.bind_eq_some_iff.1 reads
  have written := Assembly.documentText_of_ok p.parts (eq_ok_of_toOption made)
  have same : Document.readText? (p.parts.text texts) = some document := by
    rw [Document.readText?, p.toList_text texts]
    exact reads
  exact ⟨planned, compileBy_of_plan planned written same⟩

/-- What holds of the plan and of the compiled query of a request can be evaluated. -/
theorem exists_of_run? {β : Type} {f : Plan → CompiledQuery → β} {b : β}
    (h : (s.run? r).map (fun x => f x.1 x.2) = some b) :
    ∃ p q, s.plan r = .ok p ∧ s.compileBy Document.readText? r = .ok q ∧ f p q = b := by
  obtain ⟨⟨p, q⟩, ran, holds⟩ := Option.map_eq_some_iff.1 h
  obtain ⟨planned, compiled⟩ := of_run? ran
  exact ⟨p, q, planned, compiled, holds⟩

theorem exists_compileBy_of_run? {β : Type} {f : CompiledQuery → β} {b : β}
    (h : (s.run? r).map (fun x => f x.2) = some b) :
    ∃ q, s.compileBy Document.readText? r = .ok q ∧ f q = b := by
  obtain ⟨_, q, _, compiled, holds⟩ := exists_of_run? (f := fun _ q => f q) h
  exact ⟨q, compiled, holds⟩

/-- The field that a request resolves to is one of the root type of its operation. -/
theorem resolve_eq_ok {root : RootField} (h : s.resolve r = .ok root) :
    s.root r.action.operationType = some root.rootType ∧
      ∃ t, s.type? root.rootType = some t ∧ t.field? (.str root.name) = some root.field := by
  unfold resolve at h
  split at h
  · cases h
  · rename_i rootType hroot
    split at h
    · cases h
    · rename_i t ht
      split at h
      · cases h
      · rename_i name field hfind
        cases h
        obtain ⟨candidate, _, hc⟩ := List.exists_of_findSome?_eq_some hfind
        obtain ⟨found, hfound, hpair⟩ := Option.map_eq_some_iff.1 hc
        cases hpair
        exact ⟨hroot, t, ht, hfound⟩

/-! ### Entries -/

/-- The types on which the wanted fields of a request are looked up. -/
inductive SelectsOn (s : Schema) (r : Request) : Value → Prop
  | rows {root : RootField} {e : Envelope} {b b' : Bindings} (resolved : s.resolve r = .ok root)
      (envelope : Runs (s.envelope (some r.action) root.field) b (some e) b') : SelectsOn s r e.row
  | root {root : RootField} {base : BaseType} {b b' : Bindings}
      (resolved : s.resolve r = .ok root)
      (envelope : Runs (s.envelope (some r.action) root.field) b none b')
      (returned : root.field.base = .ok base) : SelectsOn s r base.name

/-- The entries that compiling a request comes upon: those of its wanted fields and of its
aggregate, at any depth. -/
inductive Meets (s : Schema) (r : Request) : Entry → Prop
  | wanted {type : Value} {e d : Entry} (on : s.SelectsOn r type) (mem : e ∈ r.wantedEntries)
      (reaches : Entry.Reaches s type e d) : Meets s r d
  | aggregate {type : Value} {e d : Entry} (on : s.SelectsOn r type)
      (entry : aggregateEntry r = .ok (some e)) (reaches : Entry.Reaches s type e d) : Meets s r d

/-- A test that passes on all entries of a request passes on those that compiling it comes upon. -/
theorem Meets.passes {p : Entry → Bool} {e : Entry} (h : s.Meets r e)
    (wanted : Entry.holdsAll p r.wantedEntries = true)
    (aggregate : ∀ e, aggregateEntry r = .ok (some e) → e.holds p = true) : p e = true := by
  cases h with
  | wanted on mem reaches =>
    exact Entry.holds_self (reaches.holds (Entry.holds_of_mem wanted mem))
  | aggregate on entry reaches => exact Entry.holds_self (reaches.holds (aggregate _ entry))

/-- A request without an aggregate holds no raw text when none is wanted at any depth. -/
theorem structured_of_wanted (unmerged : aggregateEntry r = .ok none)
    (wanted : Entry.holdsAll (fun e => !e.isRaw) r.wantedEntries = true) :
    ∀ e, s.Meets r e → e.isRaw = false := by
  intro e met
  have structured : (!e.isRaw) = true := by
    refine met.passes (p := fun e => !e.isRaw) wanted ?_
    intro e he
    rw [unmerged] at he
    cases he
  simpa using structured

end Schema

/-! ### A request -/

namespace Sample

/-- The request that a value describes for the small schema. -/
def users : Value :=
  .obj [("operation", .str "query"), ("collection", .str "users"), ("limit", .int 3),
    ("returning", .obj [("posts", .obj [("limit", .int 2), ("title", .bool true)])])]

/-- A request for three users with two posts each. -/
def request : Request := (Request.ofValue users).toOption.get (by decide +kernel)

theorem structured_request : ∀ e, schema.Meets request e → e.isRaw = false :=
  Schema.structured_of_wanted rfl (by decide +kernel)

theorem exists_plan : ∃ p, schema.plan request = .ok p ∧ p.field = "users" :=
  exists_of_toOption_map (by decide +kernel)

theorem exists_compileBy : ∃ q, schema.compileBy Document.readText? request = .ok q ∧
    Keyed.keys q.variableValues = ["v1", "v2"] :=
  Schema.exists_compileBy_of_run? (by decide +kernel)

/-- The root field of a request, and the type that it returns if that takes a selection. -/
def returnedBy (r : Request) : Except Failure (RootField × BaseType × Option TypeDef) := do
  let root ← schema.resolve r
  let base ← root.field.base
  let type ← schema.selectable base.name
  .ok (root, base, type)

theorem exists_returned {β : Type} {r : Request} {f : RootField × BaseType × Option TypeDef → β}
    {b : β} (h : (returnedBy r).toOption.map f = some b) :
    ∃ root base type, schema.resolve r = .ok root ∧ root.field.base = .ok base ∧
      schema.selectable base.name = .ok type ∧ f (root, base, type) = b := by
  obtain ⟨⟨root, base, type⟩, made, holds⟩ := exists_of_toOption_map h
  obtain ⟨_, resolved, made⟩ := bind_eq_ok.1 made
  obtain ⟨_, returned, made⟩ := bind_eq_ok.1 made
  obtain ⟨_, selectable, made⟩ := bind_eq_ok.1 made
  cases made
  exact ⟨root, base, type, resolved, returned, selectable, holds⟩

end Sample

end GraphRequest
