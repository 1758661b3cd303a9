import GraphRequest.Proofs.Document.Rereading
import GraphRequest.Proofs.Query.Declarations
import GraphRequest.Proofs.Query.Documents
import GraphRequest.Proofs.Query.Failures

/-!
# Requests numbered from a later number on

A request whose first variable has a later number compiles to the same document with later
variables. It resolves to the same field, fails in the same way or not at all, reports the same and
binds the same values in the same order; in the texts that are put together only the numbers of the
references to variables change.

* `plan_shifted`: the plan of such a request has shifted variables.
* `Plan.Written.laterText`: the text of its document differs in the numbers of references only.
* `compile_shifted`: what the plans and the compiled queries of both requests have in common.
-/

namespace GraphRequest

open Document.Token Step

variable {k : Nat}

/-! ### Plans -/

namespace Request

/-- The same request with its first variable having a number that is greater by some number. -/
def shifted (r : Request) (k : Nat) : Request := { r with counter := r.counter + k }

theorem bindEach_shifted (r : Request) (f : FieldDef) (arguments : List ArgumentDef) :
    (r.shifted k).bindEach f arguments = r.bindEach f arguments := by
  induction arguments with
  | nil => rfl
  | cons a rest ih =>
    unfold bindEach
    rw [ih]
    rfl

end Request

/-- The plan with all variables shifted. -/
def Plan.shift (k : Nat) (p : Plan) : Plan :=
  { p with
    arguments := p.arguments.map (BoundArgument.shift k)
    items := p.items.map (Item.shift k)
    bindings := p.bindings.shift k }

namespace Schema

variable {s : Schema} {r : Request}

theorem planRoot_shifted (root : RootField) :
    s.planRoot (r.shifted k) root = s.planRoot r root := by
  unfold planRoot Request.bindRoot
  rw [Request.bindEach_shifted]
  rfl

/-- A later request has the plan with shifted variables, or it fails in the same way. -/
theorem plan_shifted : s.plan (r.shifted k) = (s.plan r).map (Plan.shift k) := by
  cases resolved : s.resolve r with
  | error fault =>
    have resolved' : s.resolve (r.shifted k) = .error fault := resolved
    rw [plan_of_resolve_error resolved, plan_of_resolve_error resolved']
    rfl
  | ok root =>
    have resolved' : s.resolve (r.shifted k) = .ok root := resolved
    have start : Bindings.start (r.shifted k).counter = (Bindings.start r.counter).shift k := by
      rw [Bindings.shift_start]
      rfl
    obtain ⟨same, _⟩ := shifts_planRoot (k := k) s r root r.counter _ (Bindings.numbered_start _)
    rw [plan_of_resolve resolved, plan_of_resolve resolved', planRoot_shifted, start, same]
    cases (s.planRoot r root).result (Bindings.start r.counter) <;> rfl

end Schema

/-! ### Documents -/

/-- What the document of a plan is written from passes a test. -/
structure Plan.Written (p : Char → Bool) (plan : Plan) : Prop where
  named : allPass p plan.field = true
  passed : ∀ a ∈ plan.arguments, a.Written p
  selected : ∀ i ∈ plan.items, i.Written p
  declares : plan.bindings.Declares p

section

variable {p : Char → Bool} (plain : ∀ c, c ≠ '$' → p c = true)

theorem FieldDef.written_of_bindRoot {f : FieldDef}
    (names : f.namesPass (Value.textPasses p) = true) {r : Request} {b b' : Bindings}
    {bound : List BoundArgument} (h : Runs (r.bindRoot f) b bound b') (hb : 0 ≤ b.counter) :
    ∀ a ∈ bound, a.Written p := by
  obtain ⟨kept, numbered⟩ := Request.sublist_of_bindEach h hb
  intro a ha
  refine ⟨?_, numbered a ha⟩
  obtain ⟨c, hc, same⟩ := List.mem_map.1 (kept.subset (List.mem_map.2 ⟨a, ha, rfl⟩))
  have argument := (FieldDef.namesPass_iff.1 names).2.2 c hc
  rw [ArgumentDef.namesPass, Bool.and_eq_true] at argument
  rw [← same]
  exact argument.1

include plain

/-- The document of a plan is written from names of the schema and from texts of the request. -/
theorem Schema.written_of_plan {s : Schema} {r : Request}
    (names : s.namesPass (Value.textPasses p) = true)
    (texts : ∀ e, s.Meets r e → e.textsPass p = true) {plan : Plan} (h : s.plan r = .ok plan) :
    plan.Written p := by
  have offers : s.Offers fun a => a.namesPass (Value.textPasses p) = true := by
    intro t ht f hf a ha
    have type := TypeDef.namesPass_iff.1 (List.all_eq_true.1 names t ht)
    exact (FieldDef.namesPass_iff.1 (type.2 f hf)).2.2 a ha
  have first : 0 ≤ (Bindings.start r.counter).counter := Int.natCast_nonneg _
  have declares := invariant_of_plan (Bindings.declares_stable plain) offers h
    ⟨first, List.forall_mem_nil _⟩
  obtain ⟨root, b₁, resolved, _, field, passes, planned⟩ := planned_of_plan h
  obtain ⟨_, t, listed, found⟩ := resolve_eq_ok resolved
  have fieldNames := namesPass_of_field? names listed found
  have hb₁ : 0 ≤ b₁.counter :=
    Request.keeps_bindEach (Bindings.counter_stable 0) r _ (fun _ _ => trivial) _ _ _ passes first
  refine ⟨?_, FieldDef.written_of_bindRoot fieldNames passes first,
    written_of_planned plain names texts resolved planned hb₁, declares⟩
  have named := (FieldDef.namesPass_iff.1 fieldNames).1
  rw [(TypeDef.field?_eq_some found).2] at named
  rw [field]
  exact named

/-- A text in parentheses, if there is any. -/
theorem laterText_enclosed {s t : String} (h : LaterText p k s t) :
    LaterText p k (if s == "" then "" else "(" ++ s ++ ")")
      (if t == "" then "" else "(" ++ t ++ ")") := by
  have enclosed (s : String) : (if s == "" then "" else "(" ++ s ++ ")").toList =
      if s.toList.head? = none then [] else '(' :: (s.toList ++ [')']) := by
    by_cases empty : s = ""
    · rw [empty]
      rfl
    · rw [if_neg (mt beq_iff_eq.1 empty),
        if_neg (mt List.head?_eq_none_iff.1 (mt String.toList_eq_nil_iff.1 empty))]
      simp
  unfold LaterText
  rw [enclosed, enclosed, h.head?_eq]
  split
  · exact .nil
  · exact .char (plain '(' (by decide))
      (h.append (.char (plain ')' (by decide)) .nil) (closed_cons (by decide) _))

namespace Plan.Written

variable {plan : Plan}

omit plain in
theorem rootItem (h : plan.Written p) : plan.rootItem.Written p := by
  refine Schema.written_field nofun h.named h.passed ?_
  split
  · exact nofun
  · rintro _ ⟨⟩
    exact h.selected

theorem laterText_fieldText (h : plan.Written p) :
    LaterText p k plan.parts.fieldText (plan.shift k).parts.fieldText := by
  have shifted : (plan.shift k).rootItem = plan.rootItem.shift k := by
    unfold Plan.rootItem Plan.shift
    rw [Item.shift_field]
    cases plan.items <;> rfl
  rw [fieldText_parts, fieldText_parts, shifted]
  exact Item.Written.laterText plain h.rootItem

theorem laterText_header (h : plan.Written p)
    (name : allPass p plan.parts.operationName = true) :
    LaterText p k plan.parts.header (plan.shift k).parts.header := by
  have text (parts : Assembly.Parts) : parts.header.toList = parts.keyword.toList ++ ([' '] ++
      (parts.operationName.toList ++ (if parts.declarations == "" then ""
        else "(" ++ parts.declarations ++ ")").toList)) := by
    simp [Assembly.Parts.header]
  have keyword : ∀ c ∈ plan.parts.keyword.toList, p c = true := by
    refine pass_of_not_mem plain ?_
    show '$' ∉ plan.operation.text.toList
    cases plan.operation <;> decide
  have declared := laterText_enclosed plain (laterText_declarations (k := k) plain h.declares)
  unfold LaterText
  rw [text, text]
  refine Renumbered.prepend (Renumbered.prepend ?_ (pass_of_not_mem plain (by decide))) keyword
  exact declared.prepend (List.all_eq_true.1 name)

/-- The text of the document with later variables. -/
theorem laterText (h : plan.Written p) (name : allPass p plan.parts.operationName = true)
    {fragments : List String} (copied : ∀ f ∈ fragments, allPass p f = true) :
    LaterText p k (plan.parts.text fragments) ((plan.shift k).parts.text fragments) := by
  have root : List.Forall₂
      (fun first later : Assembly.Parts => LaterText p k first.fieldText later.fieldText)
      [plan.parts] [(plan.shift k).parts] := .cons (laterText_fieldText plain h) .nil
  have operation := laterText_blockText plain (laterText_header (k := k) plain h name) root
  have behind : List.Forall₂ (LaterText p k) fragments fragments :=
    List.forall₂_same.2 fun f hf => laterText_self (copied f hf)
  have all := renumbered_intercalate "\n\n" (f := id) (g := id)
    (pass_of_not_mem plain (by decide)) (closed_cons (by decide) ['\n']) (by decide)
    (List.Forall₂.cons operation behind)
  rw [List.map_id, List.map_id] at all
  unfold LaterText Assembly.Parts.text
  rw [String.toList_append, String.toList_append]
  exact all.append (laterText_self (allPass_of_not_mem plain (by decide)))
    (closed_cons (by decide) [])

end Plan.Written

end

/-! ### Both requests -/

/-- A text with a number added to that of every variable it refers to. -/
def shiftReferences (k : Nat) (s : String) : String := String.ofList (shiftRefs k s.toList)

/-- The parts of a document with a number added to those of all references to variables. -/
def Assembly.Parts.shiftReferences (k : Nat) (p : Parts) : Parts :=
  { p with
    declarations := GraphRequest.shiftReferences k p.declarations
    arguments := p.arguments.map (GraphRequest.shiftReferences k)
    items := p.items.map (GraphRequest.shiftReferences k) }

/-- A plan is another one with variables that have later numbers. -/
structure Plan.Follows (k : Nat) (p p' : Plan) : Prop where
  parts : p'.parts = p.parts.shiftReferences k
  diagnostics : p'.bindings.diagnostics = p.bindings.diagnostics
  values : p'.bindings.variableValues.map Prod.snd = p.bindings.variableValues.map Prod.snd
  counter : p'.bindings.counter = p.bindings.counter + k

/-- A compiled query is another one with variables that have later numbers. -/
structure CompiledQuery.Follows (k : Nat) (q q' : CompiledQuery) : Prop where
  field : q'.field = q.field
  keyword : q'.keyword = q.keyword
  operationName : q'.operationName = q.operationName
  diagnostics : q'.diagnostics = q.diagnostics
  values : q'.variableValues.map Prod.snd = q.variableValues.map Prod.snd
  counter : q'.nextCounter = q.nextCounter + k

/-- The only dollar signs of a text with later variables are those of its references, where the
other characters are no dollar signs. -/
theorem LaterText.eq_shiftReferences {s t : String} (h : LaterText (· != '$') k s t) :
    t = shiftReferences k s := by
  have chars := (h.mono fun c copied => bne_iff_ne.1 copied).eq_shiftRefs
  rw [shiftReferences, ← chars, String.ofList_toList]

theorem Bindings.values_shift (b : Bindings) :
    (b.shift k).variableValues.map Prod.snd = b.variableValues.map Prod.snd := by
  show (b.variableValues.map _).map Prod.snd = _
  rw [List.map_map]
  rfl

theorem Plan.Written.follows {plan : Plan} (h : plan.Written (· != '$')) :
    plan.Follows k (plan.shift k) where
  parts := by
    have plain : ∀ c : Char, c ≠ '$' → (c != '$') = true := fun c => bne_iff_ne.2
    have arguments : (plan.shift k).arguments.map BoundArgument.text =
        (plan.arguments.map BoundArgument.text).map (shiftReferences k) := by
      show (plan.arguments.map (BoundArgument.shift k)).map BoundArgument.text = _
      rw [List.map_map, List.map_map]
      exact List.map_congr_left fun a ha => ((h.passed a ha).laterText plain).eq_shiftReferences
    have items : (plan.shift k).items.map Item.text =
        (plan.items.map Item.text).map (shiftReferences k) := by
      show (plan.items.map (Item.shift k)).map Item.text = _
      rw [List.map_map, List.map_map]
      exact List.map_congr_left fun i hi => ((h.selected i hi).laterText plain).eq_shiftReferences
    have declarations : (plan.bindings.shift k).declarationsText =
        shiftReferences k plan.bindings.declarationsText :=
      (laterText_declarations plain h.declares).eq_shiftReferences
    unfold Plan.parts
    rw [arguments, items]
    show Assembly.parts _ _ _ _ (plan.bindings.shift k) = _
    rw [Assembly.parts, declarations]
    rfl
  diagnostics := rfl
  values := plan.bindings.values_shift
  counter := rfl

namespace Schema

variable {s : Schema} {r : Request}

/-- The text of a plan with later variables, whatever characters it is written with. -/
theorem renumbered_shift {plan : Plan} (h : s.plan r = .ok plan) (fragments : List String) :
    LaterText (fun _ => true) k (plan.parts.text fragments)
      ((plan.shift k).parts.text fragments) := by
  have all (t : String) : allPass (fun _ => true) t = true := List.all_eq_true.2 fun _ _ => rfl
  have texts (e : Entry) : e.textsPass (fun _ => true) = true := by
    unfold Entry.textsPass
    split
    · exact all _
    · cases e.alias? with
      | none => rfl
      | some a => exact all a
  have written := written_of_plan (p := fun _ => true) (fun _ _ => rfl)
    (namesPass_of_forall fun v => all v.text) (fun e _ => texts e) h
  exact Plan.Written.laterText (fun _ _ => rfl) written (all _)
    (fun f _ => all f : ∀ f ∈ fragments, _)

section

variable {read : String → Option Document} (lexical : Document.Lexical read)

include lexical

/-- The documents of both plans are written and read, or neither of them is. -/
theorem sameOutcome_compileBy {plan : Plan} (planned : s.plan r = .ok plan)
    (later : s.plan (r.shifted k) = .ok (plan.shift k)) :
    Failure.SameOutcome (CompiledQuery.Follows k) (s.compileBy read r)
      (s.compileBy read (r.shifted k)) := by
  have follows (d d' : Document) : (plan.compiled d).Follows k ((plan.shift k).compiled d') := by
    have numbered := numbered_of_plan planned
    have first : (0 : Int) ≤ r.counter := Int.natCast_nonneg _
    refine ⟨rfl, rfl, rfl, rfl, ?_, rfl⟩
    show (plan.bindings.shift k).variableMap.map Prod.snd = plan.bindings.variableMap.map Prod.snd
    rw [numbered.variableMap_eq, (numbered.shift first k).variableMap_eq]
    exact plan.bindings.values_shift
  refine sameOutcome_of_plans planned later rfl fun texts => ?_
  have both := lexical.isSome_renumbered (renumbered_shift (k := k) planned texts)
  cases reads : read (plan.parts.text texts) with
  | none =>
    rw [reads] at both
    rw [Option.not_isSome_iff_eq_none.1 (Bool.eq_false_iff.1 both.symm)]
    exact .none
  | some document =>
    rw [reads] at both
    obtain ⟨document', reads'⟩ := Option.isSome_iff_exists.1 both.symm
    rw [reads']
    exact .some (follows document document')

end

/-- A request whose first variable has a later number resolves to the same field. Planning it fails
in the same way as for the first request, or it succeeds for both, and then all that differs are the
numbers of the variables. The same holds of compiling it, whatever reader that goes by tokens says
which text is a document: raw texts and fragments may hold anything, as long as it is no dollar
sign. -/
theorem compile_shifted (names : s.namesPass (Value.textPasses (· != '$')) = true)
    (texts : ∀ e, s.Meets r e → e.textsPass (· != '$') = true) (k : Nat) :
    s.resolve (r.shifted k) = s.resolve r ∧
      Failure.SameOutcome (Plan.Follows k) (s.plan r) (s.plan (r.shifted k)) ∧
      ∀ read, Document.Lexical read →
        Failure.SameOutcome (CompiledQuery.Follows k) (s.compileBy read r)
          (s.compileBy read (r.shifted k)) := by
  refine ⟨rfl, ?_⟩
  have later := plan_shifted (s := s) (r := r) (k := k)
  cases planned : s.plan r with
  | error f =>
    rw [planned] at later
    refine ⟨?_, fun read _ => ?_⟩
    · rw [later]
      exact .failed rfl
    · rw [compileBy_of_unplanned planned, compileBy_of_unplanned later]
      exact .failed rfl
  | ok plan =>
    rw [planned] at later
    have written := written_of_plan (fun _ => bne_iff_ne.2) names texts planned
    refine ⟨?_, fun read lexical => sameOutcome_compileBy lexical planned later⟩
    rw [later]
    exact .succeeded written.follows

/-- The users with their posts are asked for with the same variables from the tenth on. -/
theorem compile_shifted_users :
    Sample.schema.namesPass (Value.textPasses (· != '$')) = true ∧
      (∀ e, Sample.schema.Meets Sample.request e → e.textsPass (· != '$') = true) ∧
      Document.Lexical Document.readText? ∧
      ∃ q q', Sample.schema.compileBy Document.readText? Sample.request = .ok q ∧
        Sample.schema.compileBy Document.readText? (Sample.request.shifted 9) = .ok q' ∧
        q.Follows 9 q' := by
  have names : Sample.schema.namesPass (Value.textPasses (· != '$')) = true := by decide +kernel
  have texts : ∀ e, Sample.schema.Meets Sample.request e → e.textsPass (· != '$') = true := by
    intro e h
    refine h.passes (by decide +kernel) ?_
    intro e he
    cases he
  refine ⟨names, texts, Document.lexical_readText?, ?_⟩
  obtain ⟨q, compiled, _⟩ := Sample.exists_compileBy
  obtain ⟨_, _, both⟩ := compile_shifted names texts 9
  have outcome := both _ Document.lexical_readText?
  rw [compiled] at outcome
  generalize Sample.schema.compileBy Document.readText? (Sample.request.shifted 9) = result
    at outcome ⊢
  cases outcome with
  | succeeded related => exact ⟨q, _, compiled, rfl, related⟩

end Schema

end GraphRequest
