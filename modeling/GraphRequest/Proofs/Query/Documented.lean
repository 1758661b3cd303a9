import GraphRequest.Proofs.Query.Refusals
import GraphRequest.Proofs.Selection.Safe

/-!
# Compiling fails only in documented ways

A request that is constructed and well typed, compiled against a schema that was read from an answer
with texts for names, compiles or fails in a documented way. The checks of the request and of the
schema rule out every misuse and every fault of shape.

* `Request.Constructed`, `Request.WellTyped`: what is assumed of the request.
* `onlyReports_rootValue`: whether there is a value for a root argument is settled by the request
  and the field.
* `safe_bindEach`: every source of a root argument has a shape that it can be read from.
* `compiles_or_documented`: the whole of compiling.
-/

namespace GraphRequest

open Document (readText?)
open Step Failure

/-! ### Requests -/

namespace Request

/-- What constructing a request ensures: its wanted fields are those that it describes. -/
def Constructed (r : Request) : Prop := Returning.ofValue r.returning = .ok r.wanted

/-- The types of the fields of a request. What is not said of a field is any data. -/
structure WellTyped (r : Request) : Prop where
  pkColumns : r.pkColumns = .null ∨ ∃ columns, r.pkColumns = .obj columns
  arguments : ∃ arguments, r.arguments = .obj arguments
  objects : r.objects = .null ∨ ∃ rows, r.objects = .arr rows
  fragments : ∀ f ∈ r.fragments, ∃ text, f = .str text
  returning : r.returning.everywhere Value.listsColumns = true
  aggregate : ∀ fields ∈ r.aggregate, (Value.obj fields).everywhere Value.listsColumns = true

variable {r : Request}

/-- The fields of a request that are taken over as they were given, and those that are read from
what was given. -/
structure TakenFrom (r : Request) (known : Fields) : Prop where
  pkColumns : r.pkColumns = (known.lookup "pk_columns").getD .null
  arguments : r.arguments = (known.lookup "arguments").getD (.obj [])
  objects : r.objects = (known.lookup "objects").getD .null
  returning : r.returning = (known.lookup "returning").getD .null
  fragments : ((known.lookup "fragments").getD (.arr [])).elements = .ok r.fragments
  aggregate : readAggregate ((known.lookup "aggregate").getD .null) = .ok r.aggregate
  wanted : Returning.ofValue ((known.lookup "returning").getD .null) = .ok r.wanted

theorem takenFrom_of_ofKnown {known : Fields} (h : ofKnown known = .ok r) : r.TakenFrom known := by
  obtain ⟨action, _, h⟩ := bind_eq_ok.1 h
  obtain ⟨collection, _, h⟩ := bind_eq_ok.1 h
  obtain ⟨counter, _, h⟩ := bind_eq_ok.1 h
  obtain ⟨aggregate, haggregate, h⟩ := bind_eq_ok.1 h
  obtain ⟨fragments, hfragments, h⟩ := bind_eq_ok.1 h
  obtain ⟨wanted, hwanted, h⟩ := bind_eq_ok.1 h
  cases h
  exact ⟨rfl, rfl, rfl, rfl, ofShape_eq_ok.1 hfragments, ofRequest_eq_ok.1 haggregate,
    ofRequest_eq_ok.1 hwanted⟩

/-- The keys of an object that a request is read from are gathered first. -/
theorem known_of_ofFields {fields : Fields} (h : ofFields fields = .ok r) :
    ∃ known unknown, gather [] [] fields = .ok (known, unknown) ∧ ofKnown known = .ok r := by
  obtain ⟨⟨known, unknown⟩, gathered, h⟩ := bind_eq_ok.1 h
  refine ⟨known, unknown, ofRequest_eq_ok.1 gathered, ?_⟩
  dsimp only at h
  split at h
  · cases h
  · split at h
    · cases h
    · exact h

/-- A request that is read from a value is constructed. -/
theorem constructed_of_ofValue {v : Value} (h : ofValue v = .ok r) : r.Constructed := by
  cases v with
  | obj fields =>
    obtain ⟨known, unknown, _, made⟩ := known_of_ofFields h
    have taken := takenFrom_of_ofKnown made
    rw [Constructed, taken.returning]
    exact taken.wanted
  | _ => cases h

theorem listsColumns_wanted (constructed : r.Constructed) (typed : r.WellTyped) :
    Entry.holdsAll Entry.listsColumns r.wantedEntries = true := by
  have below := (Entry.listsColumns_of_value typed.returning).2
  unfold Constructed at constructed
  unfold wantedEntries
  cases given : r.returning with
  | null =>
    rw [given] at constructed
    rw [← Except.ok.inj constructed]
    rfl
  | str s =>
    rw [given] at constructed
    rw [← Except.ok.inj constructed]
    exact Entry.listsColumns_ofWords s
  | arr items =>
    rw [given] at constructed below
    cases read : Entry.ofItems items with
    | error fault =>
      rw [Returning.ofValue, read] at constructed
      cases constructed
    | ok es =>
      rw [Returning.ofValue, read] at constructed
      rw [← Except.ok.inj constructed]
      exact below es read
  | obj fields =>
    rw [given] at constructed below
    cases read : Entry.ofFields fields with
    | error fault =>
      rw [Returning.ofValue, read] at constructed
      cases constructed
    | ok es =>
      rw [Returning.ofValue, read] at constructed
      rw [← Except.ok.inj constructed]
      exact below es read
  | _ =>
    rw [given] at constructed
    cases constructed

/-- The entry for an aggregate is read from the aggregate. -/
theorem read_of_aggregateEntry {e : Entry} (h : Schema.aggregateEntry r = .ok (some e)) :
    ∃ fields, r.aggregate = some fields ∧ Entry.ofPair "aggregate" (.obj fields) = .ok e := by
  unfold Schema.aggregateEntry at h
  split at h
  · rename_i f fs given
    cases read : Entry.ofPair "aggregate" (.obj (f :: fs)) with
    | error fault =>
      rw [read] at h
      cases h
    | ok e' =>
      rw [read] at h
      cases h
      exact ⟨f :: fs, given, read⟩
  · cases h

theorem listsColumns_aggregate (typed : r.WellTyped) {e : Entry}
    (h : Schema.aggregateEntry r = .ok (some e)) : e.holds Entry.listsColumns = true := by
  obtain ⟨fields, given, read⟩ := read_of_aggregateEntry h
  exact (Entry.listsColumns_of_value (typed.aggregate _ given)).1 "aggregate" e read

/-- An aggregate that cannot be read is a fault of the request. -/
theorem request_of_aggregateEntry {f : Failure} (h : Schema.aggregateEntry r = .error f) :
    ∃ fault, f = .request fault := by
  unfold Schema.aggregateEntry at h
  split at h
  · cases read : Entry.ofPair "aggregate" (.obj _) with
    | error fault =>
      rw [read] at h
      cases h
      exact ⟨fault, rfl⟩
    | ok e =>
      rw [read] at h
      cases h
  · cases h

/-! ### Root arguments -/

/-- The sources of root arguments have shapes that values can be read from. -/
structure TypedSources (r : Request) : Prop where
  pkColumns : r.pkColumns = .null ∨ ∃ columns, r.pkColumns = .obj columns
  arguments : ∃ arguments, r.arguments = .obj arguments
  objects : r.objects = .null ∨ ∃ rows, r.objects = .arr rows

theorem WellTyped.sources (typed : r.WellTyped) : r.TypedSources :=
  ⟨typed.pkColumns, typed.arguments, typed.objects⟩

theorem exists_rowsValue (typed : r.TypedSources) : ∃ v, r.rowsValue = .ok v := by
  unfold rowsValue
  obtain none | ⟨rows, some⟩ := typed.objects
  · rw [none]
    exact ⟨_, rfl⟩
  · rw [some]
    exact ⟨_, rfl⟩

theorem exists_rowValue (typed : r.TypedSources) : ∃ o, r.rowValue? = .ok o := by
  unfold rowValue?
  split
  · exact ⟨_, rfl⟩
  · obtain none | ⟨rows, some⟩ := typed.objects
    · contradiction
    · rw [some]
      unfold onlyRow?
      show ∃ o, (if rows.length = 1 then Except.ok rows.head? else Except.ok none) = .ok o
      split
      · exact ⟨_, rfl⟩
      · exact ⟨_, rfl⟩
  · exact ⟨_, rfl⟩

theorem exists_rowCount (typed : r.TypedSources) : ∃ n, r.rowCount = .ok n := by
  unfold rowCount
  obtain none | ⟨rows, some⟩ := typed.objects
  · rw [none]
    exact ⟨0, rfl⟩
  · rw [some]
    split
    · exact ⟨_, rfl⟩
    · exact ⟨_, rfl⟩

/-- An object has an entry under every text that is among its keys, and no other name that is a
text or null is among them. -/
theorem exists_entry (fields : Fields) {name : Value} (textual : name.isTextOrNull = true) :
    ∃ o, (do
      if ← (Value.obj fields).has name then
        let v ← (Value.obj fields).item name
        Except.ok (some v)
      else Except.ok none : Except ShapeFault (Option Value)) = .ok o := by
  cases name with
  | str key =>
    rw [Value.has_obj_str]
    cases found : fields.lookup key with
    | none => exact ⟨none, rfl⟩
    | some v =>
      refine ⟨some v, ?_⟩
      show (Value.obj fields).item (.str key) >>= _ = _
      rw [Value.item, found]
      rfl
  | null => exact ⟨none, rfl⟩
  | _ => cases textual

variable {F : Failure → Prop} {f : FieldDef} {field : String} (named : f.name = .str field)

include named

theorem nameText_eq : f.nameText = .ok field := by
  rw [FieldDef.nameText, named]

theorem exists_keyValue (typed : r.TypedSources) {name : Value}
    (textual : name.isTextOrNull = true) : ∃ o, r.keyValue? f name = .ok o := by
  unfold keyValue?
  obtain none | ⟨columns, some⟩ := typed.pkColumns
  · rw [none]
    exact ⟨_, rfl⟩
  · rw [some]
    dsimp only
    split
    · exact ⟨_, rfl⟩
    · rw [nameText_eq named]
      show ∃ o, (if Naming.isByKey field = true then _ else Except.ok none) = Except.ok o
      split
      · exact exists_entry columns textual
      · exact ⟨_, rfl⟩

theorem onlyReports_payloadValue (typed : r.TypedSources) (plural : Bool) :
    OnlyReports (r.payloadValue f plural) := by
  refine onlyReports_bind (settles_ofShape (nameText_eq named)) ?_
  obtain ⟨rows, hrows⟩ := exists_rowsValue typed
  have list : OnlyReports (do
      let rows ← Step.ofShape r.rowsValue
      return some rows) := onlyReports_bind (settles_ofShape hrows) (onlyReports_pure _)
  cases plural with
  | true =>
    simp only [if_true]
    split
    · exact onlyReports_bind (settles_report _ _ _) list
    · exact list
  | false =>
    simp only [Bool.false_eq_true, if_false]
    split
    · exact onlyReports_pure _
    · obtain ⟨o, row⟩ := exists_rowValue typed
      refine onlyReports_bind (settles_ofShape row) ?_
      cases o with
      | some v => exact onlyReports_pure _
      | none =>
        obtain ⟨count, hcount⟩ := exists_rowCount typed
        refine onlyReports_bind (settles_ofShape hcount) ?_
        exact onlyReports_bind (settles_report _ _ _) (onlyReports_pure _)

theorem onlyReports_payloadFor (typed : r.TypedSources) (name : Value) :
    OnlyReports (r.payloadFor f name) := by
  unfold payloadFor
  split
  · exact onlyReports_pure _
  · split
    · exact onlyReports_payloadValue named typed true
    · split
      · exact onlyReports_payloadValue named typed false
      · exact onlyReports_pure _

/-- Whether the request has a value for an argument, and which, does not depend on what was gathered
before. -/
theorem onlyReports_rootValue (typed : r.TypedSources) {name : Value}
    (textual : name.isTextOrNull = true) : OnlyReports (r.rootValue f name) := by
  obtain ⟨o, keyed⟩ := exists_keyValue named typed textual
  refine onlyReports_bind (settles_ofShape keyed) ?_
  cases o with
  | some v => exact onlyReports_pure _
  | none =>
    dsimp only
    split
    · exact onlyReports_pure _
    · obtain ⟨rows, notes, payload⟩ := onlyReports_payloadFor named typed name
      refine onlyReports_bind payload ?_
      cases rows with
      | some v => exact onlyReports_pure _
      | none =>
        dsimp only
        split
        · exact onlyReports_pure _
        · obtain ⟨arguments, given⟩ := typed.arguments
          obtain ⟨v, further⟩ := exists_entry arguments textual
          refine ⟨v, [], settles_ofShape ?_⟩
          rw [furtherValue?, given]
          exact further

/-- Binding arguments with texts for names is safe. -/
theorem safe_bindEach (admitted : Admitted F) (typed : r.WellTyped) {arguments : List ArgumentDef}
    (textual : ∀ a ∈ arguments, a.namesPass Value.isTextOrNull = true) :
    Safe F (r.bindEach f arguments) := by
  induction arguments with
  | nil => exact safe_pure _
  | cons a rest ih =>
    have others := ih fun a' ha' => textual a' (.tail _ ha')
    have here := textual a (.head _)
    have name := (Bool.and_eq_true_iff.1 here).1
    obtain ⟨_, _, settles⟩ := onlyReports_rootValue named typed.sources name
    refine safe_bind settles.safe fun _ o _ _ => ?_
    cases o with
    | none => exact others
    | some v =>
      have declared := ArgumentDef.failsOnly_type admitted here
      refine safe_bind (safe_bindArgument declared v) fun _ _ _ _ => ?_
      exact safe_bind others fun _ _ _ _ => safe_pure _

end Request

namespace Schema

variable {s : Schema} {r : Request} {F : Failure → Prop} (admitted : Admitted F)

/-! ### Root selections -/

section

variable (textual : s.namesPass Value.isTextOrNull = true) (constructed : r.Constructed)
  (typed : r.WellTyped)

include admitted textual constructed typed

theorem safe_compileWanted {type : Value} (key : type.isKey = true)
    (wanted : ∀ e ∈ r.wantedEntries, ∀ fault, Entry.Refused s fault type e → F (.request fault))
    (aggregate : Bool) (path : List String) :
    Safe F (s.compileWanted r type aggregate path) := by
  have lists := Request.listsColumns_wanted constructed typed
  have defaults := safe_of (failsOnly_rootDefaults admitted textual key aggregate)
  unfold Request.wantedEntries at lists wanted
  unfold compileWanted
  cases given : r.wanted with
  | none => exact defaults
  | some returning =>
    rw [given] at lists wanted
    cases returning with
    | list es => exact safe_entries admitted textual lists key wanted path
    | tree es =>
      exact safe_bind defaults fun _ _ _ _ =>
        safe_mergeInto admitted textual lists key wanted path _

theorem safe_compileRoot {type : Value} (key : type.isKey = true)
    (wanted : ∀ e ∈ r.wantedEntries, ∀ fault, Entry.Refused s fault type e → F (.request fault))
    {aggregate : Bool}
    (aggregated : aggregate = true → ∀ t, s.selectable type = .ok (some t) →
      ∀ fault, s.RefusesAggregate r fault type → F (.request fault))
    (path : List String) : Safe F (s.compileRoot r type aggregate path) := by
  refine safe_bind (safe_of (failsOnly_selectable s key)) fun _ o _ ho => ?_
  obtain ⟨selectable, rfl⟩ := runs_of.1 ho
  cases o with
  | none =>
    dsimp only
    split
    · exact safe_bind (safe_report _ _ _) fun _ _ _ _ => safe_pure _
    · exact safe_pure _
  | some t =>
    have fields := safe_compileWanted admitted textual constructed typed key wanted aggregate path
    refine safe_bind fields fun _ items _ _ => ?_
    cases aggregate with
    | false => exact safe_pure _
    | true =>
      have allowed := aggregated rfl t selectable
      have entry : FailsOnly F (aggregateEntry r) := by
        intro f failed
        obtain ⟨fault, rfl⟩ := Request.request_of_aggregateEntry failed
        exact allowed fault (.inl failed)
      refine safe_bind (safe_of entry) fun _ o _ ho => ?_
      obtain ⟨asked, rfl⟩ := runs_of.1 ho
      cases o with
      | none => exact safe_pure _
      | some e =>
        have lists := Request.listsColumns_aggregate typed asked
        have listing : Entry.holdsAll Entry.listsColumns [e] = true := by
          rw [Entry.holdsAll, lists]
          rfl
        refine safe_mergeInto admitted textual listing key ?_ path items
        intro e' he' fault refused
        cases List.mem_singleton.1 he'
        exact allowed fault (.inr ⟨e, asked, refused⟩)

end

variable {f : FieldDef}

theorem namesPass_of_rowsFieldOf {p : Value → Bool} {t : TypeDef} (h : t.namesPass p = true)
    (found : rowsFieldOf t = some f) : f.namesPass p = true := by
  unfold rowsFieldOf at found
  split at found
  · exact (TypeDef.namesPass_iff.1 h).2 f (TypeDef.field?_eq_some found).1
  · cases found

include admitted

theorem safe_envelope (ftextual : f.namesPass Value.isTextOrNull = true) {field : String}
    (named : f.name = .str field) (a : Action) : Safe F (s.envelope (some a) f) := by
  unfold envelope
  split
  · exact safe_pure _
  · refine safe_bind (safe_ofShape (Request.nameText_eq named)) fun _ name _ _ => ?_
    split
    · exact safe_pure _
    · refine safe_bind (safe_of (TypeRef.failsOnly_base admitted f.type)) fun _ base _ hb => ?_
      have key := isKey_of_base ftextual (runs_of.1 hb).1
      refine safe_bind (safe_of (failsOnly_typeNamed s key)) fun _ payload _ _ => ?_
      split
      · exact safe_bind (safe_report _ _ _) fun _ _ _ _ => safe_pure _
      · rename_i rows _
        refine safe_bind (safe_of (TypeRef.failsOnly_base admitted rows.type)) fun _ _ _ _ => ?_
        exact safe_pure _

/-! ### Compiling -/

theorem failsOnly_resolve (roots : s.HasRoots) (r : Request) : FailsOnly F (s.resolve r) := by
  intro fault failed
  unfold resolve at failed
  split at failed
  · cases failed
    exact admitted.unresolved _ _
  · rename_i rootType root
    obtain ⟨t, listed⟩ := roots _ _ root
    rw [listed] at failed
    dsimp only at failed
    split at failed
    · cases failed
      exact admitted.unresolved _ _
    · cases failed

theorem safe_planItems (textual : s.namesPass Value.isTextOrNull = true)
    (constructed : r.Constructed) (typed : r.WellTyped)
    (refuses : ∀ fault, s.Refuses r fault → F (.request fault)) {root : RootField}
    (resolved : s.resolve r = .ok root) : Safe F (s.planItems r root) := by
  obtain ⟨_, t, listed, found⟩ := resolve_eq_ok resolved
  have ftextual := namesPass_of_field? textual listed found
  have named := (TypeDef.field?_eq_some found).2
  refine safe_bind (safe_envelope admitted ftextual named r.action) fun b o b' ran => ?_
  cases o with
  | none =>
    have base := safe_of (TypeRef.failsOnly_base admitted root.field.type)
    refine safe_bind base fun _ base _ hb => ?_
    have returned : root.field.base = .ok base := (runs_of.1 hb).1
    refine safe_compileRoot admitted textual constructed typed (isKey_of_base ftextual returned)
      ?_ ?_ _
    · intro e he fault refused
      exact refuses fault (.wanted (.root resolved ran returned) he refused)
    · intro _ t selectable fault refused
      exact refuses fault (.aggregate resolved ran returned selectable refused)
  | some e =>
    have key : e.row.isKey = true := by
      obtain ⟨none, _⟩ | ⟨base, t, rows, row, returned, payload, hrows, hrow, same, _⟩ :=
        runs_envelope ran
      · cases none
      · cases same
        have ttextual := namesPass_of_type? textual (type?_of_typeNamed payload)
        exact isKey_of_base (namesPass_of_rowsFieldOf ttextual hrows) hrow
    have rows : Safe F (s.compileRoot r e.row false [root.name]) := by
      refine safe_compileRoot admitted textual constructed typed key ?_ ?_ _
      · intro e' he fault refused
        exact refuses fault (.wanted (.rows resolved ran) he refused)
      · intro aggregated
        cases aggregated
    exact safe_bind rows fun _ _ _ _ => safe_pure _

theorem failsOnly_plan (textual : s.namesPass Value.isTextOrNull = true) (roots : s.HasRoots)
    (constructed : r.Constructed) (typed : r.WellTyped)
    (refuses : ∀ fault, s.Refuses r fault → F (.request fault)) : FailsOnly F (s.plan r) := by
  refine failsOnly_bind (failsOnly_resolve admitted roots r) fun root resolved => ?_
  obtain ⟨_, t, listed, found⟩ := resolve_eq_ok resolved
  have ftextual := namesPass_of_field? textual listed found
  have named := (TypeDef.field?_eq_some found).2
  have arguments : Safe F (r.bindRoot root.field) :=
    Request.safe_bindEach named admitted typed (FieldDef.namesPass_iff.1 ftextual).2.2
  have items := safe_planItems admitted textual constructed typed refuses resolved
  have safe : Safe F (s.planRoot r root) := by
    refine safe_bind arguments fun _ _ _ _ => ?_
    exact safe_bind items fun _ _ _ _ => safe_pure _
  refine failsOnly_bind (safe _) fun p _ => ?_
  exact failsOnly_ok _

omit admitted in
theorem exists_fragmentTexts {fragments : List Value} (texts : ∀ f ∈ fragments, ∃ s, f = .str s) :
    ∃ written, Assembly.fragmentTexts fragments = .ok written := by
  induction fragments with
  | nil => exact ⟨[], rfl⟩
  | cons f rest ih =>
    obtain ⟨text, rfl⟩ := texts f (.head _)
    obtain ⟨others, written⟩ := ih fun g hg => texts g (.tail _ hg)
    refine ⟨if Text.isBlankText text then others else Text.strip text :: others, ?_⟩
    rw [Assembly.fragmentTexts, written]
    rfl

/-- A plan with texts for fragments is written, and what is written is read or is no document. -/
theorem failsOnly_assembleBy (read : String → Option Document) (p : Plan) {fragments : List Value}
    (texts : ∀ f ∈ fragments, ∃ s, f = .str s) : FailsOnly F (p.assembleBy read fragments) := by
  obtain ⟨written, hwritten⟩ := exists_fragmentTexts texts
  have text := Assembly.documentText_of_ok p.parts hwritten
  unfold Plan.assembleBy Assembly.assembleBy
  refine failsOnly_bind (r := Assembly.documentText p.parts fragments) ?_ fun t _ => ?_
  · rw [text]
    exact failsOnly_ok _
  · cases read t with
    | none => exact failsOnly_error (admitted.malformed _ _)
    | some document => exact failsOnly_ok _

omit admitted

theorem documented_plan (textual : s.namesPass Value.isTextOrNull = true) (roots : s.HasRoots)
    (constructed : r.Constructed) (typed : r.WellTyped) : Documented (s.plan r) :=
  failsOnly_plan admitted_documented textual roots constructed typed fun _ _ => .tail _ (.head _)

theorem documented_assembleBy (read : String → Option Document) (p : Plan) {fragments : List Value}
    (texts : ∀ f ∈ fragments, ∃ s, f = .str s) : Documented (p.assembleBy read fragments) :=
  failsOnly_assembleBy admitted_documented read p texts

/-- Against a schema that was read from an introspection answer with texts for names, a request that
is constructed and well typed compiles, or it fails in a documented way, whichever texts are
documents. -/
theorem compiles_or_documented {answer : Value} (introspected : ofIntrospection answer = .ok s)
    (names : answer.namesPass Value.isTextOrNull = true) (constructed : r.Constructed)
    (typed : r.WellTyped) (read : String → Option Document) :
    (∃ q, s.compileBy read r = .ok q) ∨
      ∃ f, s.compileBy read r = .error f ∧ f.kind ∈ documentedKinds := by
  obtain ⟨textual, roots⟩ := namesPass_of_ofIntrospection rfl names introspected
  have documented : Documented (s.compileBy read r) := by
    refine documented_bind (documented_plan textual roots constructed typed) fun p _ => ?_
    exact documented_assembleBy _ p typed.fragments
  cases result : s.compileBy read r with
  | ok q => exact .inl ⟨q, rfl⟩
  | error f => exact .inr ⟨f, rfl, documented f result⟩

/-- The request for users and their posts is constructed and well typed. -/
theorem compiles_or_documented_users :
    Sample.answer.namesPass Value.isTextOrNull = true ∧ Sample.request.Constructed ∧
      Sample.request.WellTyped ∧
      ((∃ q, Sample.schema.compileBy readText? Sample.request = .ok q) ∨
        ∃ f, Sample.schema.compileBy readText? Sample.request = .error f ∧
          f.kind ∈ documentedKinds) := by
  have names : Sample.answer.namesPass Value.isTextOrNull = true := by decide +kernel
  have constructed : Sample.request.Constructed :=
    Request.constructed_of_ofValue (v := Sample.users) rfl
  have typed : Sample.request.WellTyped := by
    refine ⟨.inl rfl, ⟨[], rfl⟩, .inl rfl, ?_, by decide +kernel, ?_⟩
    · exact List.forall_mem_nil _
    · intro fields given
      cases given
  exact ⟨names, constructed, typed,
    compiles_or_documented Sample.ofIntrospection_answer names constructed typed readText?⟩

end Schema

end GraphRequest
