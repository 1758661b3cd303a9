import GraphRequest.Proofs.Query.Documented

/-!
# Requests that are accepted

Reading a request checks its fields and parses what it wants. Two things are put off until a schema
is at hand: keys of nested fields that have no fixed meaning, and the aggregate. An accepted request
is therefore refused later on if such a part can be neither an argument nor a field, and only then.

* `Request.TypedFields`: the types of the fields that a request is read from.
* `Schema.Compiling`: how compiling an accepted request can end.
* `Request.refused_or_accepted`: a request is refused when it is read, or it is compiled in one of
  these ways against every schema.
-/

namespace GraphRequest

open Document (readText?)
open Failure

namespace Request

/-- The types of the fields that a request is read from. What is not said of a field is any data. -/
structure TypedFields (fields : Fields) : Prop where
  pkColumns : ∀ v, ("pk_columns", v) ∈ fields → v = .null ∨ ∃ columns, v = .obj columns
  arguments : ∀ v, ("arguments", v) ∈ fields → ∃ arguments, v = .obj arguments
  objects : ∀ v, ("objects", v) ∈ fields → v = .null ∨ ∃ rows, v = .arr rows
  fragments : ∀ v, ("fragments", v) ∈ fields →
    ∃ texts : List String, v.elements = .ok (texts.map .str)
  returning : ∀ v, ("returning", v) ∈ fields → v.everywhere Value.listsColumns = true
  aggregate : ∀ v, ("aggregate", v) ∈ fields → v.everywhere Value.listsColumns = true

/-! ### Gathered fields -/

/-- A field other than those with other spellings is only given by its own name. -/
theorem eq_of_fieldOf {key field : String} (h : fieldOf key = field)
    (spelled : ["collection", "set_values", "incoming_var_counter"].contains field = false) :
    key = field := by
  unfold fieldOf at h
  split at h
  · subst h
    cases spelled
  · split at h
    · subst h
      cases spelled
    · split at h
      · subst h
        cases spelled
      · exact h

/-- What is gathered was given under a key that stands for its field. -/
theorem mem_of_gather {known known' : Fields} {unknown unknown' : List String} {fields : Fields}
    (h : gather known unknown fields = .ok (known', unknown')) {field : String} {v : Value}
    (mem : (field, v) ∈ known') :
    (field, v) ∈ known ∨ ∃ key, (key, v) ∈ fields ∧ fieldOf key = field := by
  induction fields generalizing known unknown with
  | nil =>
    cases h
    exact .inl mem
  | cons entry rest ih =>
    obtain ⟨key, w⟩ := entry
    dsimp only [gather] at h
    split at h
    · obtain before | ⟨key', later, stands⟩ := ih h
      · exact .inl before
      · exact .inr ⟨key', .tail _ later, stands⟩
    · split at h
      · cases h
      · obtain before | ⟨key', later, stands⟩ := ih h
        · obtain before | here := List.mem_append.1 before
          · exact .inl before
          · cases List.mem_singleton.1 here
            exact .inr ⟨key, .head _, rfl⟩
        · exact .inr ⟨key', .tail _ later, stands⟩

/-- A field that is gathered was given, if it has no other spelling. -/
theorem mem_of_lookup_gathered {fields known : Fields} {unknown : List String}
    (gathered : gather [] [] fields = .ok (known, unknown)) {field : String} {v : Value}
    (found : known.lookup field = some v)
    (spelled : ["collection", "set_values", "incoming_var_counter"].contains field = false) :
    (field, v) ∈ fields := by
  obtain before | ⟨key, mem, stands⟩ := mem_of_gather gathered (Value.mem_of_lookup found)
  · cases before
  · rwa [← eq_of_fieldOf stands spelled]

/-- What holds of a field wherever it is given, and of what stands for it otherwise, holds of what
is taken for it. -/
theorem holds_of_gathered {p : Value → Prop} {fields known : Fields} {unknown : List String}
    (gathered : gather [] [] fields = .ok (known, unknown)) {field : String} {d : Value}
    (given : ∀ v, (field, v) ∈ fields → p v) (otherwise : p d)
    (spelled : ["collection", "set_values", "incoming_var_counter"].contains field = false) :
    p ((known.lookup field).getD d) := by
  cases found : known.lookup field with
  | none => exact otherwise
  | some v => exact given v (mem_of_lookup_gathered gathered found spelled)

/-! ### Reading a request -/

variable {fields : Fields}

/-- Reading a request from typed fields fails in no other way than by refusing it. -/
theorem failsOnly_ofFields (typed : TypedFields fields) :
    FailsOnly (fun f => ∃ fault, f = .request fault) (ofFields fields) := by
  have refused {α : Type} (x : Except RequestFault α) :
      FailsOnly (fun f => ∃ fault, f = .request fault) (ofRequest x) :=
    failsOnly_ofRequest fun fault _ => ⟨fault, rfl⟩
  refine failsOnly_bind (refused _) fun p gathered => ?_
  obtain ⟨known, unknown⟩ := p
  dsimp only
  split
  · exact failsOnly_error ⟨_, rfl⟩
  · split
    · exact failsOnly_error ⟨_, rfl⟩
    · refine failsOnly_bind (refused _) fun _ _ => ?_
      refine failsOnly_bind (refused _) fun _ _ => ?_
      refine failsOnly_bind (refused _) fun _ _ => ?_
      refine failsOnly_bind (refused _) fun _ _ => ?_
      have listed := holds_of_gathered (ofRequest_eq_ok.1 gathered) typed.fragments
        (d := .arr []) ⟨[], rfl⟩ (by decide)
      obtain ⟨texts, listed⟩ := listed
      rw [listed]
      refine failsOnly_bind (failsOnly_ok _) fun _ _ => ?_
      refine failsOnly_bind (refused _) fun _ _ => ?_
      exact failsOnly_ok _

/-- A request that is read from typed fields is well typed. -/
theorem wellTyped_of_ofFields (typed : TypedFields fields) {r : Request}
    (h : ofFields fields = .ok r) : r.WellTyped := by
  obtain ⟨known, unknown, gathered, made⟩ := known_of_ofFields h
  have taken := takenFrom_of_ofKnown made
  refine ⟨?_, ?_, ?_, ?_, ?_, ?_⟩
  · rw [taken.pkColumns]
    exact holds_of_gathered gathered typed.pkColumns (.inl rfl) (by decide)
  · rw [taken.arguments]
    exact holds_of_gathered gathered typed.arguments ⟨[], rfl⟩ (by decide)
  · rw [taken.objects]
    exact holds_of_gathered gathered typed.objects (.inl rfl) (by decide)
  · obtain ⟨texts, listed⟩ := holds_of_gathered gathered typed.fragments
      (d := .arr []) ⟨[], rfl⟩ (by decide)
    rw [Except.ok.inj (taken.fragments.symm.trans listed)]
    intro f hf
    obtain ⟨text, _, rfl⟩ := List.mem_map.1 hf
    exact ⟨text, rfl⟩
  · rw [taken.returning]
    exact holds_of_gathered gathered typed.returning rfl (by decide)
  · have lists := holds_of_gathered gathered typed.aggregate (d := .null) rfl (by decide)
    intro columns given
    have read := taken.aggregate
    rw [Option.mem_def.1 given] at read
    revert lists read
    cases (known.lookup "aggregate").getD .null with
    | obj columns' =>
      rintro lists ⟨⟩
      exact lists
    | _ => nofun

end Request

/-! ### Compiling an accepted request -/

namespace Schema

/-- How compiling an accepted request against a schema can end: with a query, none of its parts
being refused; with a fault of one of its parts; or with a fault of the schema, no field for the
request, or a text that is no document. -/
inductive Compiling (read : String → Option Document) (s : Schema) (r : Request) : Prop
  | compiled {q : CompiledQuery} (compiles : s.compileBy read r = .ok q)
      (unrefused : ∀ fault, ¬ s.Refuses r fault) : Compiling read s r
  | refused {fault : RequestFault} (fails : s.compileBy read r = .error (.request fault))
      (refuses : s.Refuses r fault) : Compiling read s r
  | failed {f : Failure} (fails : s.compileBy read r = .error f)
      (kind : f.kind = .schema ∨ f.kind = .unresolved ∨ f.kind = .malformed) : Compiling read s r

/-- The failures that are left for a request which is constructed and well typed. -/
def Left (s : Schema) (r : Request) (f : Failure) : Prop :=
  (∃ fault, f = .request fault ∧ s.Refuses r fault) ∨
    f.kind = .schema ∨ f.kind = .unresolved ∨ f.kind = .malformed

variable {s : Schema} {r : Request}

theorem admitted_left : Admitted (s.Left r) where
  schema _ := .inr (.inl rfl)
  unresolved _ _ := .inr (.inr (.inl rfl))
  malformed _ _ := .inr (.inr (.inr rfl))

theorem compiling_of_wellTyped (read : String → Option Document) {answer : Value}
    (introspected : ofIntrospection answer = .ok s)
    (names : answer.namesPass Value.isTextOrNull = true) (constructed : r.Constructed)
    (typed : r.WellTyped) : s.Compiling read r := by
  obtain ⟨textual, roots⟩ := namesPass_of_ofIntrospection rfl names introspected
  have planned := failsOnly_plan (admitted_left (r := r)) textual roots constructed typed
    fun fault refuses => .inl ⟨fault, rfl, refuses⟩
  have left : FailsOnly (s.Left r) (s.compileBy read r) :=
    failsOnly_bind planned fun p _ => failsOnly_assembleBy admitted_left _ p typed.fragments
  cases result : s.compileBy read r with
  | ok q =>
    refine .compiled result fun fault refuses => ?_
    obtain ⟨p, _, _, plan, _⟩ := plan_of_compileBy result
    exact not_plan_of_refuses (fieldsOnSelectable_of_ofIntrospection introspected) refuses plan
  | error f =>
    obtain ⟨fault, rfl, refuses⟩ | kind := left f result
    · exact .refused result refuses
    · exact .failed result kind

end Schema

/-! ### Requests with parts that are read late -/

namespace Sample

/-- The fields of a request for users, with further ones. -/
def asking (more : Fields) : Fields :=
  [("operation", Value.str "query"), ("collection", .str "users")] ++ more

/-- The fields of a request for users that wants a number below their posts. -/
def askingNumber : Fields :=
  asking [("returning", .obj [("posts", .obj [("bogus", .int 5)])])]

/-- A request for users that wants a number below their posts. -/
def numberRequest : Request := (Request.ofFields askingNumber).toOption.get (by decide +kernel)

theorem ofValue_askingNumber : Request.ofValue (.obj askingNumber) = .ok numberRequest := by rfl

/-- The posts have no argument of that name, and a number is no field of theirs. -/
theorem compileBy_numberRequest (read : String → Option Document) :
    schema.compileBy read numberRequest = .error (.request (.badFieldValue "bogus" (.int 5))) := by
  rfl

theorem typedFields_askingNumber : Request.TypedFields askingNumber := by
  have only {p : Value → Prop} {field : String} (returned : field = "returning" →
      p (.obj [("posts", .obj [("bogus", .int 5)])]))
      (named : field ≠ "operation" ∧ field ≠ "collection") :
      ∀ v, (field, v) ∈ askingNumber → p v := by
    intro v mem
    rcases List.mem_cons.1 mem with first | mem
    · exact absurd (congrArg Prod.fst first) named.1
    · rcases List.mem_cons.1 mem with second | mem
      · exact absurd (congrArg Prod.fst second) named.2
      · cases List.mem_singleton.1 mem
        exact returned rfl
  refine ⟨?_, ?_, ?_, ?_, ?_, ?_⟩
  · exact only (fun h => absurd h (by decide)) (by decide)
  · exact only (fun h => absurd h (by decide)) (by decide)
  · exact only (fun h => absurd h (by decide)) (by decide)
  · exact only (fun h => absurd h (by decide)) (by decide)
  · exact only (fun _ => by decide +kernel) (by decide)
  · exact only (fun h => absurd h (by decide)) (by decide)

/-- A request for users with a number for its further arguments. -/
def listedRequest : Request :=
  (Request.ofFields (asking [("arguments", .int 5)])).toOption.get (by decide +kernel)

/-- An introspection answer with a type that is named by a list. -/
def listNamedAnswer : Value :=
  .obj [("queryType", .obj [("name", .str "Query")]), ("types", .arr [
    object "Query" [
      member "users" (.obj [("kind", .str "OBJECT"), ("name", .arr [.str "User"])]) []]])]

/-- The schema of that answer. -/
def listNamed : Schema := (Schema.ofIntrospection listNamedAnswer).toOption.get (by decide +kernel)

/-- A request for users. -/
def plainRequest : Request := (Request.ofFields (asking [])).toOption.get (by decide +kernel)

end Sample

namespace Request

/-- A request with typed fields is refused when it is read, or it is accepted with its wanted fields
parsed. Compiling it against a schema with texts for names then ends in one of few ways, whichever
texts are documents, and it is refused only for a part that could not be read without the
schema. -/
theorem refused_or_accepted {fields : Fields} (typed : TypedFields fields) :
    (∃ fault, ofValue (.obj fields) = .error (.request fault)) ∨
      ∃ r, ofValue (.obj fields) = .ok r ∧ r.Constructed ∧
        ∀ read answer s, Schema.ofIntrospection answer = .ok s →
          answer.namesPass Value.isTextOrNull = true → Schema.Compiling read s r := by
  cases read : ofValue (.obj fields) with
  | error f =>
    obtain ⟨fault, rfl⟩ := failsOnly_ofFields typed f read
    exact .inl ⟨fault, rfl⟩
  | ok r =>
    have constructed := constructed_of_ofValue read
    have accepted := wellTyped_of_ofFields typed read
    refine .inr ⟨r, rfl, constructed, fun read answer s introspected names => ?_⟩
    exact Schema.compiling_of_wellTyped read introspected names constructed accepted

/-- A number below a field is let through when the request is read, and is refused later. -/
theorem refused_or_accepted_askingNumber :
    TypedFields Sample.askingNumber ∧
      ∃ r, ofValue (.obj Sample.askingNumber) = .ok r ∧
        Sample.schema.Refuses r (.badFieldValue "bogus" (.int 5)) := by
  have typed := Sample.typedFields_askingNumber
  refine ⟨typed, Sample.numberRequest, Sample.ofValue_askingNumber, ?_⟩
  obtain ⟨fault, refused⟩ | ⟨r, accepted, _, compiling⟩ := refused_or_accepted typed
  · cases refused.symm.trans Sample.ofValue_askingNumber
  · cases accepted.symm.trans Sample.ofValue_askingNumber
    have fails := Sample.compileBy_numberRequest readText?
    cases compiling readText? _ _ Sample.ofIntrospection_answer (by decide +kernel) with
    | compiled compiles => cases compiles.symm.trans fails
    | refused fails' refuses =>
      cases fails'.symm.trans fails
      exact refuses
    | failed fails' kind =>
      cases fails'.symm.trans fails
      obtain none | none | none := kind <;> cases none

/-- Accepted requests are refused or break down later: for a number below a field, for further
arguments that are no object, and against a schema with a type that is named by a list. -/
theorem accepted_too_early :
    (ofValue (.obj Sample.askingNumber) = .ok Sample.numberRequest ∧
        ∀ read, Sample.schema.compileBy read Sample.numberRequest =
          .error (.request (.badFieldValue "bogus" (.int 5)))) ∧
      (ofValue (.obj (Sample.asking [("arguments", .int 5)])) = .ok Sample.listedRequest ∧
        ∀ read, Sample.schema.compileBy read Sample.listedRequest = .error (.shape .wrongKind)) ∧
      ofValue (.obj (Sample.asking [])) = .ok Sample.plainRequest ∧
        Schema.ofIntrospection Sample.listNamedAnswer = .ok Sample.listNamed ∧
        ∀ read, Sample.listNamed.compileBy read Sample.plainRequest =
          .error (.shape .wrongKind) :=
  ⟨⟨Sample.ofValue_askingNumber, Sample.compileBy_numberRequest⟩, ⟨rfl, fun _ => rfl⟩, rfl, rfl,
    fun _ => rfl⟩

end Request

end GraphRequest
