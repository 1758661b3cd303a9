import GraphRequest.Proofs.Document.Renamed
import GraphRequest.Proofs.Query.Failures
import GraphRequest.Proofs.Query.Plans
import GraphRequest.Proofs.Selection.Safe

/-!
# Polling for what is listened to

A query may be sent again and again in place of a subscription. Where the two root types declare the
fields that may serve a request alike, nothing that compiling does tells the two operations apart,
so that both fail alike or both have the same plan, and documents that differ in nothing but the
keyword and the name of the operation. Which texts are documents is left to a reader that does not
tell the operations apart, either.

* `Schema.Mirrors`: the root types of queries and of subscriptions declare fields alike.
* `bindEach_variant`: the root arguments of both variants are bound in the same way.
* `Plan.Listens`, `CompiledQuery.Listens`: what the two operations have in common.
* `compile_variants`: the plans and the compiled queries of both.
-/

namespace GraphRequest

open Document (readText?)
open Step

/-- What a schema says of a field, wherever it is declared. -/
def FieldDef.descriptor (f : FieldDef) : Value × TypeRef × List (Value × TypeRef) :=
  (f.name, f.type, f.arguments.map fun a => (a.name, a.type))

/-- No type of an argument has a list in place of its name, which grows whenever it is written. -/
def FieldDef.Steady (f : FieldDef) : Prop :=
  ∀ a ∈ f.arguments, ∀ base, a.type.base = .ok base → base.growingName? = none

/-- The types of arguments with texts for names are steady. -/
theorem FieldDef.steady_of_namesPass {f : FieldDef}
    (textual : f.namesPass Value.isTextOrNull = true) : f.Steady := by
  intro a ha base hb
  have argument := (FieldDef.namesPass_iff.1 textual).2.2 a ha
  rw [ArgumentDef.namesPass, Bool.and_eq_true] at argument
  obtain ⟨name, hname⟩ := TypeRef.exists_text_of_base argument.2 hb
  exact BaseType.growingName?_of_str hname

namespace Request

theorem plainValue_withAction (r : Request) (name : Value) :
    (r.withAction .subscription).plainValue name = (r.withAction .query).plainValue name := rfl

variable {f g : FieldDef}

theorem parts_descriptor (same : g.descriptor = f.descriptor) :
    g.name = f.name ∧ g.type = f.type ∧
      g.arguments.map (fun a => (a.name, a.type)) = f.arguments.map fun a => (a.name, a.type) := by
  obtain ⟨name, rest⟩ := Prod.mk.inj same
  obtain ⟨type, arguments⟩ := Prod.mk.inj rest
  exact ⟨name, type, arguments⟩

theorem declares_of_descriptor (same : g.descriptor = f.descriptor) (name : String) :
    g.declares name = f.declares name := by
  have names (h : FieldDef) : h.declares name =
      (h.arguments.map fun a => (a.name, a.type)).any fun a => a.1.equals (.str name) := by
    rw [List.any_map, Bool.eq_iff_iff, List.any_eq_true]
    exact List.find?_isSome
  rw [names, names, (parts_descriptor same).2.2]

theorem rootValue_variant (r : Request) (same : g.descriptor = f.descriptor) (name : Value) :
    (r.withAction .subscription).rootValue g name = (r.withAction .query).rootValue f name := by
  have text : g.nameText = f.nameText := by
    rw [FieldDef.nameText, FieldDef.nameText, (parts_descriptor same).1]
  rw [rootValue_congr _ text (declares_of_descriptor same), rootValue, plainValue_withAction]
  rfl

theorem bindArgument_of_steady {a a' : ArgumentDef} (type : a'.type = a.type)
    (steady : ∀ base, a.type.base = .ok base → base.growingName? = none) (v : Value) :
    bindArgument a' v = bindArgument a v := by
  have declared : DeclaredType.ofArgument a' = DeclaredType.ofArgument a := by
    unfold DeclaredType.ofArgument
    rw [type]
    cases hb : a.type.base with
    | error fault => rfl
    | ok base => simp only [bind, Except.bind, steady base hb]
  unfold bindArgument Bindings.bind
  rw [declared]

theorem bindEach_variant (r : Request) (same : g.descriptor = f.descriptor)
    {arguments others : List ArgumentDef}
    (alike : others.map (fun a => (a.name, a.type)) = arguments.map fun a => (a.name, a.type))
    (steady : ∀ a ∈ arguments, ∀ base, a.type.base = .ok base → base.growingName? = none) :
    (r.withAction .subscription).bindEach g others =
      (r.withAction .query).bindEach f arguments := by
  induction arguments generalizing others with
  | nil =>
    cases others with
    | nil => rfl
    | cons a' rest => cases alike
  | cons a rest ih =>
    cases others with
    | nil => cases alike
    | cons a' rest' =>
      obtain ⟨head, tail⟩ := List.cons.inj alike
      obtain ⟨name, type⟩ := Prod.mk.inj head
      have others := ih tail fun b hb => steady b (.tail _ hb)
      unfold bindEach
      rw [name, rootValue_variant r same, others]
      refine congrArg _ (funext fun o => ?_)
      cases o with
      | none => rfl
      | some v =>
        dsimp only
        rw [bindArgument_of_steady type (steady a (.head _))]

end Request

namespace Schema

/-- The root types of queries and of subscriptions declare the same of the fields that may serve a
request when it reads, each of them alike, and no type of their arguments grows. -/
structure Mirrors (s : Schema) (r : Request) (queries subscriptions : TypeDef) : Prop where
  queryRoot : s.type? s.queryRoot = some queries
  subscriptionRoot : ∃ name, s.subscriptionRoot = some name ∧ s.type? name = some subscriptions
  same : ∀ c ∈ (r.withAction .query).candidates,
    (subscriptions.field? (.str c)).map FieldDef.descriptor =
      (queries.field? (.str c)).map FieldDef.descriptor
  steady : ∀ c ∈ (r.withAction .query).candidates, ∀ f ∈ queries.field? (.str c), f.Steady

variable {s : Schema} {r : Request} {queries subscriptions : TypeDef}

/-- The first candidate that a type declares. -/
def firstDeclared (t : TypeDef) (candidates : List String) : Option (String × FieldDef) :=
  candidates.findSome? fun name => (t.field? (.str name)).map (name, ·)

theorem firstDeclared_of_same {t u : TypeDef} {candidates : List String}
    (same : ∀ c ∈ candidates, (u.field? (.str c)).map FieldDef.descriptor =
      (t.field? (.str c)).map FieldDef.descriptor) :
    (firstDeclared t candidates = none ∧ firstDeclared u candidates = none) ∨
      ∃ name f g, name ∈ candidates ∧ t.field? (.str name) = some f ∧
        firstDeclared t candidates = some (name, f) ∧
        firstDeclared u candidates = some (name, g) ∧ g.descriptor = f.descriptor := by
  induction candidates with
  | nil => exact .inl ⟨rfl, rfl⟩
  | cons c rest ih =>
    have here := same c (.head _)
    cases declared : t.field? (.str c) with
    | some f =>
      rw [declared] at here
      obtain ⟨g, hg, alike⟩ := Option.map_eq_some_iff.1 here
      refine .inr ⟨c, f, g, .head _, declared, ?_, ?_, alike⟩
      · rw [firstDeclared, List.findSome?_cons, declared]
        rfl
      · rw [firstDeclared, List.findSome?_cons, hg]
        rfl
    | none =>
      rw [declared] at here
      have absent : u.field? (.str c) = none := Option.map_eq_none_iff.1 here
      have first : firstDeclared t (c :: rest) = firstDeclared t rest := by
        rw [firstDeclared, List.findSome?_cons, declared]
        rfl
      have second : firstDeclared u (c :: rest) = firstDeclared u rest := by
        rw [firstDeclared, List.findSome?_cons, absent]
        rfl
      rw [first, second]
      obtain none | ⟨name, f, g, mem, found⟩ := ih fun c' hc' => same c' (.tail _ hc')
      · exact .inl none
      · exact .inr ⟨name, f, g, .tail _ mem, found⟩

section

variable {root : Value} {t : TypeDef} (known : s.root r.action.operationType = some root)
  (listed : s.type? root = some t)

include known listed

theorem resolve_of_firstDeclared_none (none : firstDeclared t r.candidates = none) :
    s.resolve r = .error (.unresolved r.candidates (some root)) := by
  rw [firstDeclared] at none
  simp only [resolve, known, listed, none]

theorem resolve_of_firstDeclared {name : String} {f : FieldDef}
    (first : firstDeclared t r.candidates = some (name, f)) :
    s.resolve r = .ok ⟨name, f, root, r.candidates⟩ := by
  rw [firstDeclared] at first
  simp only [resolve, known, listed, first]

end

/-- Both variants resolve to no field, or to fields of one name that are declared alike. -/
theorem resolve_variants (mirrors : s.Mirrors r queries subscriptions) :
    (∃ root root', s.resolve (r.withAction .query) =
        .error (.unresolved (r.withAction .query).candidates root) ∧
      s.resolve (r.withAction .subscription) =
        .error (.unresolved (r.withAction .query).candidates root')) ∨
    ∃ root root' : RootField, s.resolve (r.withAction .query) = .ok root ∧
      s.resolve (r.withAction .subscription) = .ok root' ∧ root'.name = root.name ∧
      root'.field.descriptor = root.field.descriptor ∧ root.field.Steady := by
  obtain ⟨name, hname, listed⟩ := mirrors.subscriptionRoot
  have queried : s.root (r.withAction .query).action.operationType = some s.queryRoot := rfl
  have heard : s.root (r.withAction .subscription).action.operationType = some name := hname
  obtain ⟨none, none'⟩ | ⟨c, f, g, mem, found, first, second, alike⟩ :=
    firstDeclared_of_same mirrors.same
  · exact .inl ⟨_, _, resolve_of_firstDeclared_none queried mirrors.queryRoot none,
      resolve_of_firstDeclared_none heard listed none'⟩
  · exact .inr ⟨_, _, resolve_of_firstDeclared queried mirrors.queryRoot first,
      resolve_of_firstDeclared heard listed second, rfl, alike, mirrors.steady c mem f found⟩

/-- Steps towards the plans of both variants are the same. -/
theorem planRoot_variant {root root' : RootField} (name : root'.name = root.name)
    (same : root'.field.descriptor = root.field.descriptor) (steady : root.field.Steady) :
    s.planRoot (r.withAction .subscription) root' = s.planRoot (r.withAction .query) root := by
  obtain ⟨_, type, arguments⟩ := Request.parts_descriptor same
  have bound : (r.withAction .subscription).bindRoot root'.field =
      (r.withAction .query).bindRoot root.field :=
    Request.bindEach_variant r same arguments steady
  have items : s.planItems (r.withAction .subscription) root' =
      s.planItems (r.withAction .query) root := by
    show (Step.of root'.field.type.base >>= fun base =>
        s.compileRoot (r.withAction .subscription) base.name r.isAggregate [root'.name]) =
      (Step.of root.field.type.base >>= fun base =>
        s.compileRoot (r.withAction .query) base.name r.isAggregate [root.name])
    rw [type, name]
    rfl
  unfold planRoot
  rw [bound, items]

/-- Both variants fail alike, or they have the same plan up to the operation. -/
theorem plan_variants (mirrors : s.Mirrors r queries subscriptions) :
    (∃ f g, s.plan (r.withAction .query) = .error f ∧
      s.plan (r.withAction .subscription) = .error g ∧ f.kind = g.kind) ∨
    ∃ p, s.plan (r.withAction .query) = .ok p ∧ p.operation = .query ∧
      s.plan (r.withAction .subscription) = .ok { p with operation := .subscription } := by
  obtain ⟨_, _, first, second⟩ | ⟨root, root', first, second, name, same, steady⟩ :=
    resolve_variants mirrors
  · exact .inl ⟨_, _, plan_of_resolve_error first, plan_of_resolve_error second, rfl⟩
  · have one := plan_of_resolve first
    have two := plan_of_resolve second
    rw [planRoot_variant name same steady, name] at two
    have counter : (r.withAction .subscription).counter = (r.withAction .query).counter := rfl
    rw [counter] at two
    cases result : (s.planRoot (r.withAction .query) root).result
      (Bindings.start (r.withAction .query).counter) with
    | error f =>
      rw [result] at one two
      exact .inl ⟨f, f, one, two, rfl⟩
    | ok p =>
      rw [result] at one two
      exact .inr ⟨_, one, rfl, two⟩

end Schema

/-! ### Documents -/

/-- A plan listens to what another one polls: they differ in the operation, and the texts of their
documents in how they begin. -/
structure Plan.Listens (p p' : Plan) : Prop where
  polls : p.operation = .query
  listens : p' = { p with operation := .subscription }
  texts : ∀ fragments, ∃ tail, p.parts.text fragments = "query Query" ++ tail ∧
    p'.parts.text fragments = "subscription Subscription" ++ tail

/-- A compiled query listens to what another one polls: they differ in the keyword and the name of
the operation. -/
structure CompiledQuery.Listens (q q' : CompiledQuery) : Prop where
  keyword : q.keyword = "query"
  operationName : q.operationName = Assembly.operationName "query" q.field
  listens : ∃ name, q' = { q with
    documentText := Document.text (q.document.renamed "subscription" name)
    document := q.document.renamed "subscription" name
    keyword := "subscription"
    operationName := Assembly.operationName "subscription" q.field }

/-- What comes of a plan that listens is what comes of the one that polls, with the document under
another keyword and another name. -/
theorem Plan.Listens.compiled {p p' : Plan} (h : p.Listens p') (document : Document)
    (name : String) :
    (p.compiled document).Listens (p'.compiled (document.renamed "subscription" name)) := by
  have polls := h.polls
  have same := h.listens
  subst same
  refine ⟨?_, ?_, ⟨name, rfl⟩⟩
  · show p.operation.text = "query"
    rw [polls]
    rfl
  · show p.parts.operationName = Assembly.operationName "query" p.field
    rw [Plan.parts, polls]
    rfl

namespace Schema

variable {s : Schema} {r : Request} {queries subscriptions : TypeDef}

/-- The text of a document begins with the keyword and the name of the operation; what follows does
not depend on the keyword. -/
theorem text_of_parts (field : String) (arguments items : List String) (b : Bindings)
    (fragments : List String) : ∃ tail : String, ∀ keyword : String,
      (Assembly.parts keyword field arguments items b).text fragments =
        keyword ++ " " ++ Text.capitalize keyword ++ tail := by
  refine ⟨String.ofList (Assembly.pascalChars field.toList) ++
    (if b.declarationsText == "" then "" else "(" ++ b.declarationsText ++ ")") ++ " \x7b\n" ++
    Text.indent ("\n".intercalate
      [(Assembly.parts "" field arguments items b).fieldText]) ++ "\n\x7d" ++
    (match fragments with
      | [] => ""
      | f :: fs => "\n\n" ++ "\n\n".intercalate (f :: fs)) ++ "\n", fun keyword => ?_⟩
  have behind (head : String) : "\n\n".intercalate (head :: fragments) = head ++
      (match fragments with
        | [] => ""
        | f :: fs => "\n\n" ++ "\n\n".intercalate (f :: fs)) := by
    cases fragments with
    | nil => rw [String.intercalate_singleton, String.append_empty]
    | cons f fs => rw [String.intercalate_cons_cons, String.append_assoc]
  rw [Assembly.Parts.text, behind]
  simp only [Assembly.Parts.operationText, Item.blockText, Assembly.Parts.header, Assembly.parts,
    Assembly.operationName, Assembly.Parts.fieldText, Assembly.Parts.fieldHead,
    String.append_assoc]

theorem listens_of_query {p : Plan} (operation : p.operation = .query) :
    p.Listens { p with operation := .subscription } where
  polls := operation
  listens := rfl
  texts fragments := by
    obtain ⟨tail, text⟩ := text_of_parts p.field (p.arguments.map BoundArgument.text)
      (p.items.map Item.text) p.bindings fragments
    have capitalized : "query" ++ " " ++ Text.capitalize "query" = "query Query" ∧
        "subscription" ++ " " ++ Text.capitalize "subscription" = "subscription Subscription" := by
      decide +kernel
    refine ⟨tail, ?_, ?_⟩
    · rw [Plan.parts, operation, ← capitalized.1]
      exact text "query"
    · rw [← capitalized.2]
      exact text "subscription"

section

variable {read : String → Option Document} (evenHanded : Document.EvenHanded read)

include evenHanded

/-- The document of a plan that listens is the one of the plan that polls, under another keyword and
another name. -/
theorem exists_read_listens {p p' : Plan} (listens : p.Listens p') (fragments : List String) :
    ∃ name : String, read (p'.parts.text fragments) =
      (read (p.parts.text fragments)).map (Document.renamed "subscription" name) := by
  obtain ⟨tail, first, second⟩ := listens.texts fragments
  rw [first, second]
  exact ⟨_, evenHanded.read_renamed "subscription" "Query" "Subscription" tail (by decide)
    (by decide) (by decide) (by decide)⟩

/-- The documents of both plans are written and read, or neither of them is. -/
theorem sameOutcome_listens {p p' : Plan} (first : s.plan (r.withAction .query) = .ok p)
    (second : s.plan (r.withAction .subscription) = .ok p') (listens : p.Listens p') :
    Failure.SameOutcome CompiledQuery.Listens (s.compileBy read (r.withAction .query))
      (s.compileBy read (r.withAction .subscription)) := by
  refine sameOutcome_of_plans first second rfl fun texts => ?_
  obtain ⟨name, both⟩ := exists_read_listens evenHanded listens texts
  rw [both]
  cases read (p.parts.text texts) with
  | none => exact .none
  | some document => exact .some (listens.compiled document name)

end

/-- Both variants fail alike, or they have the same plan up to the operation: the same root field
with the same arguments, the same selections, and the same bindings and diagnostics, so that the
texts of their documents differ in the keyword and the name of the operation only. Compiling them
fails alike, too, or gives compiled queries that differ in nothing else, whatever even-handed reader
says which text is a document. -/
theorem compile_variants (mirrors : s.Mirrors r queries subscriptions) :
    Failure.SameOutcome Plan.Listens (s.plan (r.withAction .query))
        (s.plan (r.withAction .subscription)) ∧
      ∀ read, Document.EvenHanded read →
        Failure.SameOutcome CompiledQuery.Listens (s.compileBy read (r.withAction .query))
          (s.compileBy read (r.withAction .subscription)) := by
  obtain ⟨f, g, first, second, alike⟩ | ⟨p, first, operation, second⟩ := plan_variants mirrors
  · refine ⟨?_, fun read _ => ?_⟩
    · rw [first, second]
      exact .failed alike
    · rw [compileBy_of_unplanned first, compileBy_of_unplanned second]
      exact .failed alike
  · have listens := listens_of_query operation
    refine ⟨?_, fun read evenHanded => sameOutcome_listens evenHanded first second listens⟩
    rw [first, second]
    exact .succeeded listens

end Schema

/-! ### A schema to listen to -/

namespace Sample

/-- The small schema with a root type of subscriptions that declares what the one of queries
does. -/
def listening : Schema :=
  { schema with
    types := schema.types ++
      [⟨.object, .str "Subscription", ((schema.type? (.str "Query")).map (·.fields)).getD []⟩]
    subscriptionRoot := some (.str "Subscription") }

end Sample

namespace Schema

/-- A request for an update of users can be polled for instead, or listened to. -/
theorem compile_variants_users : ∃ queries subscriptions : TypeDef,
    Sample.listening.Mirrors (Sample.request.withAction .update) queries subscriptions ∧
    Document.EvenHanded readText? ∧ ∃ q q' : CompiledQuery,
      Sample.listening.compileBy readText? (Sample.request.withAction .query) = .ok q ∧
      Sample.listening.compileBy readText? (Sample.request.withAction .subscription) = .ok q' ∧
      q.field = "users" ∧ q.Listens q' := by
  have textual : Sample.listening.namesPass Value.isTextOrNull = true := by decide +kernel
  have candidates : ((Sample.request.withAction .update).withAction .query).candidates =
      ["users"] := by decide +kernel
  obtain ⟨queries, listed⟩ : ∃ t, Sample.listening.type? Sample.listening.queryRoot = some t :=
    ⟨_, rfl⟩
  obtain ⟨subscriptions, heard⟩ :
      ∃ t, Sample.listening.type? (.str "Subscription") = some t := ⟨_, rfl⟩
  have mirrors : Sample.listening.Mirrors (Sample.request.withAction .update) queries
      subscriptions := by
    refine ⟨listed, ⟨_, rfl, heard⟩, ?_, ?_⟩
    · rw [candidates]
      intro c hc
      rw [List.mem_singleton.1 hc]
      cases listed
      cases heard
      rfl
    · intro c _ f hf
      exact FieldDef.steady_of_namesPass (namesPass_of_field? textual listed hf)
  refine ⟨queries, subscriptions, mirrors, Document.evenHanded_readText?, ?_⟩
  obtain ⟨q, compiled, field⟩ : ∃ q,
      Sample.listening.compileBy readText? (Sample.request.withAction .query) = .ok q ∧
      q.field = "users" := exists_compileBy_of_run? (by decide +kernel)
  have outcome : Failure.SameOutcome CompiledQuery.Listens
      (Sample.listening.compileBy readText? (Sample.request.withAction .query))
      (Sample.listening.compileBy readText? (Sample.request.withAction .subscription)) :=
    (compile_variants mirrors).2 readText? Document.evenHanded_readText?
  rw [compiled] at outcome
  generalize Sample.listening.compileBy readText? (Sample.request.withAction .subscription) =
    result at outcome ⊢
  cases outcome with
  | succeeded listens => exact ⟨q, _, compiled, rfl, field, listens⟩

end Schema

end GraphRequest
