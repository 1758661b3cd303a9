import GraphRequest.Proofs.Query.Plans

/-!
# Invariants of compiling

Compiling touches the bindings in two ways only: it adds diagnostics and it binds arguments that the
schema declares. A relation between bindings that both respect, and that chains, therefore holds
between the bindings before and after a step; an invariant that both preserve is such a relation,
and so it holds after a whole plan.

* `Bindings.Tracks`, `Bindings.Allows`: relations that reporting and binding respect.
* `Step.Within`: a relation that every successful run of a step stays within.
* `within_rootValue`, `within_bindEach`, `within_compileRoot`, `within_envelope`: the parts of a
  plan.
* `keeps_rootValue`: finding the value of a root argument binds nothing.
* `Schema.invariant_of_plan`: what both operations preserve holds of the bindings of a plan.
-/

namespace GraphRequest

open Step

/-- An invariant that adding a diagnostic and binding one of some arguments preserve. -/
structure Bindings.Stable (A : ArgumentDef → Prop) (I : Bindings → Prop) : Prop where
  report : ∀ (b : Bindings) (d : Diagnostic), I b → I (b.report d)
  bind : ∀ (b : Bindings) (a : ArgumentDef) (v : Value) (name : String) (b' : Bindings),
    A a → b.bind a v = .ok (name, b') → I b → I b'

/-- A relation between bindings that chains and that reporting a problem of some kinds respects. -/
structure Bindings.Tracks (C : DiagnosticCode → Prop) (R : Bindings → Bindings → Prop) : Prop where
  refl : ∀ b, R b b
  trans : ∀ {b b' b'' : Bindings}, R b b' → R b' b'' → R b b''
  report : ∀ (b : Bindings) (d : Diagnostic), C d.code → R b (b.report d)

/-- A relation between bindings that chains and that reporting a problem of some kinds and binding
one of some arguments respect. -/
structure Bindings.Allows (A : ArgumentDef → Prop) (C : DiagnosticCode → Prop)
    (R : Bindings → Bindings → Prop) : Prop extends Bindings.Tracks C R where
  bind : ∀ (b : Bindings) (a : ArgumentDef) (v : Value) (name : String) (b' : Bindings),
    A a → b.bind a v = .ok (name, b') → R b b'

/-- All arguments that a schema declares are among some arguments. -/
def Schema.Offers (s : Schema) (A : ArgumentDef → Prop) : Prop :=
  ∀ t ∈ s.types, ∀ f ∈ t.fields, ∀ a ∈ f.arguments, A a

theorem Schema.offers_true (s : Schema) : s.Offers fun _ => True :=
  fun _ _ _ _ _ _ => trivial

theorem Schema.Offers.of_field {s : Schema} {A : ArgumentDef → Prop} (h : s.Offers A)
    {type : Value} {name : String} {f : FieldDef}
    (found : s.field type (.str name) = .ok (some f)) : ∀ a ∈ f.arguments, A a := by
  obtain ⟨t, ht, hf⟩ := field_eq_some found
  exact h t (mem_of_type? ht) f (TypeDef.field?_eq_some hf).1

variable {A : ArgumentDef → Prop} {C : DiagnosticCode → Prop} {R : Bindings → Bindings → Prop}
  {I : Bindings → Prop}

/-- That an invariant passes from the bindings before to those after is a relation that chains. -/
theorem Bindings.tracks_of_report (report : ∀ b d, I b → I (b.report d)) :
    Tracks (fun _ => True) fun b b' => I b → I b' where
  refl _ hb := hb
  trans first second hb := second (first hb)
  report b d _ := report b d

theorem Bindings.Stable.allows (hI : Stable A I) :
    Allows A (fun _ => True) fun b b' => I b → I b' where
  toTracks := tracks_of_report hI.report
  bind := hI.bind

/-! ### Steps -/

namespace Step

variable {α β : Type}

/-- The bindings before and after every successful run of a step are related. -/
def Within (R : Bindings → Bindings → Prop) (x : Step α) : Prop := ∀ b a b', Runs x b a b' → R b b'

variable (hR : Bindings.Tracks C R)

include hR

theorem within_pure (a : α) : Within R (pure a : Step α) := by
  intro b c b' h
  rw [(runs_pure.1 h).2]
  exact hR.refl _

theorem within_bind {x : Step α} {f : α → Step β} (hx : Within R x) (hf : ∀ a, Within R (f a)) :
    Within R (x >>= f) := by
  intro b c b'' h
  obtain ⟨a, b', h₁, h₂⟩ := runs_bind.1 h
  exact hR.trans (hx b a b' h₁) (hf a b' c b'' h₂)

theorem within_of (r : Except Failure α) : Within R (of r) := by
  intro b a b' h
  rw [(runs_of.1 h).2]
  exact hR.refl _

theorem within_ofShape (r : Except ShapeFault α) : Within R (ofShape r) := within_of hR _

theorem within_report {code : DiagnosticCode} (h : C code) (message : String)
    (path : List String) : Within R (report code message path) := by
  intro b u b' run
  rw [runs_report.1 run]
  exact hR.report b _ h

omit hR in
theorem within_bindArgument (hR : Bindings.Allows A C R) {a : ArgumentDef} (h : A a) (v : Value) :
    Within R (bindArgument a v) :=
  fun b name b' run => hR.bind b a v name b' h (runs_bindArgument.1 run)

end Step

/-! ### Root arguments -/

/-- The problems that binding the root arguments reports. -/
def DiagnosticCode.IsOfPayload (code : DiagnosticCode) : Prop :=
  code = .ambiguousInsert ∨ code = .unmatchedInsert

namespace Request

section

variable (hR : Bindings.Tracks C R) (codes : ∀ code, code.IsOfPayload → C code)

include hR codes

theorem within_payloadValue (r : Request) (f : FieldDef) (plural : Bool) :
    Within R (r.payloadValue f plural) := by
  refine within_bind hR (within_ofShape hR _) fun field => ?_
  have rows : Within R (do
      let rows ← ofShape r.rowsValue
      return some rows) := within_bind hR (within_ofShape hR _) fun _ => within_pure hR _
  cases plural with
  | true =>
    simp only [if_true]
    split
    · exact within_bind hR (within_report hR (codes _ (.inl rfl)) _ _) fun _ => rows
    · exact rows
  | false =>
    simp only [Bool.false_eq_true, if_false]
    split
    · exact within_pure hR _
    · refine within_bind hR (within_ofShape hR _) fun row => ?_
      cases row with
      | some row => exact within_pure hR _
      | none =>
        refine within_bind hR (within_ofShape hR _) fun count => ?_
        exact within_bind hR (within_report hR (codes _ (.inr rfl)) _ _) fun _ => within_pure hR _

theorem within_payloadFor (r : Request) (f : FieldDef) (name : Value) :
    Within R (r.payloadFor f name) := by
  unfold payloadFor
  split
  · exact within_pure hR _
  · split
    · exact within_payloadValue hR codes r f true
    · split
      · exact within_payloadValue hR codes r f false
      · exact within_pure hR _

/-- Finding the value of a root argument binds nothing; it can only report. -/
theorem within_rootValue (r : Request) (f : FieldDef) (name : Value) :
    Within R (r.rootValue f name) := by
  refine within_bind hR (within_ofShape hR _) fun v => ?_
  cases v with
  | some v => exact within_pure hR _
  | none =>
    dsimp only
    split
    · exact within_pure hR _
    · refine within_bind hR (within_payloadFor hR codes r f name) fun v => ?_
      cases v with
      | some v => exact within_pure hR _
      | none =>
        dsimp only
        split
        · exact within_pure hR _
        · exact within_ofShape hR _

end

/-- Of its field, the value of a root argument depends on the name only, and on which arguments are
declared. -/
theorem rootValue_congr (r : Request) {f g : FieldDef} (text : g.nameText = f.nameText)
    (declares : ∀ name, g.declares name = f.declares name) (name : Value) :
    r.rootValue g name = r.rootValue f name := by
  have key : r.keyValue? g name = r.keyValue? f name := by
    unfold keyValue?
    rw [text]
  have payload : r.payloadValue g = r.payloadValue f := by
    unfold payloadValue
    rw [text, declares, declares]
  unfold rootValue payloadFor
  rw [key, payload]

theorem within_bindEach (hR : Bindings.Allows A C R) (codes : ∀ code, code.IsOfPayload → C code)
    (r : Request) (f : FieldDef) {arguments : List ArgumentDef} (offered : ∀ a ∈ arguments, A a) :
    Within R (r.bindEach f arguments) := by
  induction arguments with
  | nil => exact within_pure hR.toTracks _
  | cons a rest ih =>
    have others := ih fun a' ha' => offered a' (.tail a ha')
    refine within_bind hR.toTracks (within_rootValue hR.toTracks codes r f a.name) fun v => ?_
    cases v with
    | none => exact others
    | some v =>
      have here := within_bindArgument hR (offered a (.head _)) v
      refine within_bind hR.toTracks here fun name => ?_
      exact within_bind hR.toTracks others fun _ => within_pure hR.toTracks _

/-- Finding the value of a root argument keeps what reporting keeps. -/
theorem keeps_rootValue (hI : ∀ b d, I b → I (b.report d)) (r : Request) (f : FieldDef)
    (name : Value) : Keeps I (r.rootValue f name) :=
  within_rootValue (Bindings.tracks_of_report hI) (fun _ _ => trivial) r f name

theorem keeps_bindEach (hI : Bindings.Stable A I) (r : Request) (f : FieldDef)
    {arguments : List ArgumentDef} (offered : ∀ a ∈ arguments, A a) :
    Keeps I (r.bindEach f arguments) :=
  within_bindEach hI.allows (fun _ _ => trivial) r f offered

end Request

/-! ### Selections -/

/-- The problems that compiling a selection reports. -/
def DiagnosticCode.IsOfSelection (code : DiagnosticCode) : Prop :=
  code = .unknownField ∨ code = .unknownArgument

theorem FieldDef.within_bindNestedFrom (hR : Bindings.Allows A C R) (code : C .unknownArgument)
    {f : FieldDef} (offered : ∀ a ∈ f.arguments, A a) (path done : List String)
    (arguments : Fields) : Within R (f.bindNestedFrom path done arguments) := by
  induction arguments generalizing done with
  | nil => exact within_pure hR.toTracks _
  | cons p rest ih =>
    obtain ⟨name, v⟩ := p
    unfold bindNestedFrom
    split
    · exact ih done
    · split
      · exact within_bind hR.toTracks (within_report hR.toTracks code _ _) fun _ => ih done
      · rename_i a found
        have declared := offered a (argument?_eq_some found).1
        refine within_bind hR.toTracks (within_bindArgument hR declared v) fun _ => ?_
        exact within_bind hR.toTracks (ih (name :: done)) fun _ => within_pure hR.toTracks _

theorem FieldDef.keeps_bindNestedFrom (hI : Bindings.Stable A I) {f : FieldDef}
    (offered : ∀ a ∈ f.arguments, A a) (path done : List String) (arguments : Fields) :
    Keeps I (f.bindNestedFrom path done arguments) :=
  within_bindNestedFrom hI.allows trivial offered path done arguments

namespace Schema

theorem within_compileAll (hR : Bindings.Tracks C R) {s : Schema} {es : List Entry}
    {parent : Value} {path : List String} (h : ∀ e ∈ es, Within R (e.compile s parent path)) :
    Within R (s.compileAll es parent path) := by
  induction es with
  | nil => exact within_pure hR _
  | cons e es ih =>
    refine within_bind hR (h e (.head _)) fun item => ?_
    exact within_bind hR (ih fun e' he' => h e' (.tail _ he')) fun _ => within_pure hR _

section

variable (hR : Bindings.Allows A C R) (codes : ∀ code, code.IsOfSelection → C code) {s : Schema}
  (offers : s.Offers A)

include hR codes offers

/-- Compiling an entry respects the relation, by induction on the size of the entry. -/
theorem within_compile (e : Entry) (parent : Value) (path : List String) :
    Within R (e.compile s parent path) := by
  induction e using (measure (sizeOf : Entry → Nat)).wf.induction generalizing parent path with
  | h e ih =>
    have unknownField : C .unknownField := codes _ (.inl rfl)
    have unknownArgument : C .unknownArgument := codes _ (.inr rfl)
    intro b o b' run
    cases Entry.compiled_of_runs run with
    | raw text => exact hR.refl _
    | unknown structured named missing code place => exact hR.report b _ (code ▸ unknownField)
    | off => exact hR.refl _
    | field named found returned wants binds compiles bodied =>
      have offered := offers.of_field found
      refine hR.trans
        (FieldDef.within_bindNestedFrom hR unknownArgument offered _ _ _ _ _ _ binds) ?_
      refine within_compileAll hR.toTracks (fun c hc => ?_) _ _ _ compiles
      exact ih c (wants.sizeOf_lt hc) _ _
    | bare found returned undeclared code place bodied =>
      exact hR.report b _ (code ▸ unknownArgument)
    | columns found returned declared listed binds =>
      have offered := offers.of_field found
      exact FieldDef.within_bindNestedFrom hR unknownArgument offered _ _ _ _ _ _ binds

theorem within_entries (es : List Entry) (parent : Value) (path : List String) :
    Within R (s.compileAll es parent path) :=
  within_compileAll hR.toTracks fun e _ => within_compile hR codes offers e parent path

theorem within_compileRoot (r : Request) (type : Value) (aggregate : Bool)
    (path : List String) : Within R (s.compileRoot r type aggregate path) := by
  have wanted : Within R (s.compileWanted r type aggregate path) := by
    intro b items b' run
    obtain ⟨_, _, _, compiles, _⟩ := runs_compileWanted run
    exact within_entries hR codes offers _ _ _ _ _ _ compiles
  intro b items b' run
  cases runs_compileRoot run with
  | leaf unselectable left =>
    obtain rfl | ⟨d, code, _, rfl⟩ := left
    · exact hR.refl _
    · exact hR.report b d (code ▸ codes _ (.inl rfl))
  | wanted selectable unmerged compiles => exact wanted _ _ _ compiles
  | merged selectable aggregated entry compiles adds =>
    exact hR.trans (wanted _ _ _ compiles) (within_entries hR codes offers _ _ _ _ _ _ adds)

end

theorem within_envelope (hR : Bindings.Tracks C R) (code : C .missingEnvelope) (s : Schema)
    (a : Action) (f : FieldDef) : Within R (s.envelope (some a) f) := by
  intro b o b' run
  obtain ⟨_, rfl | ⟨d, same, rfl⟩⟩ | ⟨_, _, _, _, _, _, _, _, _, rfl⟩ := runs_envelope run
  · exact hR.refl _
  · exact hR.report b d (same ▸ code)
  · exact hR.refl _

/-- Compiling an entry preserves the invariant. -/
theorem keeps_compile (hI : Bindings.Stable A I) {s : Schema} (offers : s.Offers A) (e : Entry)
    (parent : Value) (path : List String) : Keeps I (e.compile s parent path) :=
  within_compile hI.allows (fun _ _ => trivial) offers e parent path

theorem keeps_entries (hI : Bindings.Stable A I) {s : Schema} (offers : s.Offers A)
    (es : List Entry) (parent : Value) (path : List String) :
    Keeps I (s.compileAll es parent path) :=
  within_entries hI.allows (fun _ _ => trivial) offers es parent path

theorem keeps_compileRoot (hI : Bindings.Stable A I) {s : Schema} (offers : s.Offers A)
    (r : Request) (type : Value) (aggregate : Bool) (path : List String) :
    Keeps I (s.compileRoot r type aggregate path) :=
  within_compileRoot hI.allows (fun _ _ => trivial) offers r type aggregate path

theorem keeps_envelope (hI : ∀ b d, I b → I (b.report d)) (s : Schema) (a : Action) (f : FieldDef) :
    Keeps I (s.envelope (some a) f) :=
  within_envelope (Bindings.tracks_of_report hI) trivial s a f

theorem keeps_planned (hI : Bindings.Stable A I) {s : Schema} (offers : s.Offers A) {r : Request}
    {root : RootField} {b b' : Bindings} {items : List Item} (h : Planned s r root b items b')
    (hb : I b) : I b' := by
  cases h with
  | enveloped envelope compiles =>
    exact keeps_compileRoot hI offers r _ _ _ _ _ _ compiles
      (keeps_envelope hI.report s _ _ _ _ _ envelope hb)
  | plain envelope returned compiles =>
    exact keeps_compileRoot hI offers r _ _ _ _ _ _ compiles
      (keeps_envelope hI.report s _ _ _ _ _ envelope hb)

/-- What adding diagnostics and binding the arguments of a schema preserve holds of the bindings of
a plan. -/
theorem invariant_of_plan (hI : Bindings.Stable A I) {s : Schema} (offers : s.Offers A)
    {r : Request} {p : Plan} (h : s.plan r = .ok p) (start : I (Bindings.start r.counter)) :
    I p.bindings := by
  obtain ⟨root, b₁, resolved, _, _, arguments, planned⟩ := planned_of_plan h
  obtain ⟨_, t, ht, hf⟩ := resolve_eq_ok resolved
  have offered := offers t (mem_of_type? ht) root.field (TypeDef.field?_eq_some hf).1
  exact keeps_planned hI offers planned
    (Request.keeps_bindEach hI r _ offered _ _ _ arguments start)

end Schema

end GraphRequest
