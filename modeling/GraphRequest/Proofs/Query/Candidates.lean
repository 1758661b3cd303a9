import GraphRequest.Outcome
import GraphRequest.Proofs.Query.Bodies

/-!
# What serves a request for an aggregate or for one row

A request for an aggregate, or for one row by its primary key, has a special root field, and after
it the collection itself as the last resort. The special field is taken whenever the root type
declares it. Answers are read by the name of the field: the field by key answers with the row, the
collection with a list, which is handed on as it stands.

* `Request.candidates_of_special`: the special field and the collection are the only candidates.
* `special_of_resolve`: when the special field is taken, and what it takes from the key columns.
* `extract_keyed_iff`: when the row that was asked for is what is taken from the answer.
-/

namespace GraphRequest

open Document (readText?)
open Step

namespace Request

/-- Whether a request asks for one row by its primary key. -/
def isKeyed (r : Request) : Bool := !r.isAggregate && !r.pkColumns.isNull && r.action != .insert

/-- The field for one row by its primary key. -/
def keyField (r : Request) : String := r.action.opening ++ r.collection ++ Naming.keyEnding

/-- The field for the aggregate of the collection. -/
def aggregateField (r : Request) : String := r.collection ++ Naming.aggregateEnding

/-- A field takes the values of the key columns: each argument named after one of them does. -/
def TakesKeys (r : Request) (f : FieldDef) : Prop :=
  ∀ columns, r.pkColumns = .obj columns → ∀ column v, columns.lookup column = some v →
    column ≠ "pk_columns" → r.rootValue f (.str column) = pure (some v)

variable {r : Request}

theorem keyField_ne_collection (r : Request) : r.keyField ≠ r.collection := by
  intro same
  have length := congrArg String.length same
  have ending := Naming.length_keyEnding
  rw [keyField, String.length_append, String.length_append] at length
  omega

theorem aggregateField_ne_collection (r : Request) : r.aggregateField ≠ r.collection := by
  intro same
  have length := congrArg String.length same
  have ending := Naming.length_aggregateEnding
  rw [aggregateField, String.length_append] at length
  omega

theorem isByKey_keyField (r : Request) : Naming.isByKey r.keyField = true :=
  Naming.endsIn_append _ _

/-- A special field and the collection itself are candidates in this order. -/
theorem candidates_of_special {special : String} (only : r.specialCandidates = [special])
    (other : special ≠ r.collection) : r.candidates = [special, r.collection] := by
  rw [candidates, only, List.singleton_append, List.eraseDups_cons, List.filter_cons_of_pos,
    List.filter_nil, List.eraseDups_cons, List.filter_nil, List.eraseDups_nil]
  simpa using Ne.symm other

theorem candidates_of_isAggregate (aggregate : r.isAggregate = true) :
    r.candidates = [r.aggregateField, r.collection] :=
  candidates_of_special (by rw [specialCandidates, if_pos aggregate, aggregateField])
    r.aggregateField_ne_collection

theorem candidates_of_isKeyed (keyed : r.isKeyed = true) :
    r.candidates = [r.keyField, r.collection] := by
  rw [isKeyed, Bool.and_assoc, Bool.and_eq_true, Bool.not_eq_true'] at keyed
  refine candidates_of_special ?_ r.keyField_ne_collection
  rw [specialCandidates, keyed.1, if_neg Bool.false_ne_true, if_pos keyed.2, keyField]

/-- A field with the name of one by key takes the values of the key columns. -/
theorem takesKeys_of_isByKey {f : FieldDef} {name : String} (named : f.nameText = .ok name)
    (byKey : Naming.isByKey name = true) : r.TakesKeys f := by
  intro columns given column v held other
  have has : r.pkColumns.has (.str column) = .ok true := by
    rw [given, Value.has, held, Option.isSome_some]
  have item : r.pkColumns.item (.str column) = .ok v := by
    rw [given]
    simp only [Value.item, held]
  have found : r.keyValue? f (.str column) = .ok (some v) := by
    have unlike : (Value.str column == .str "pk_columns") = false := by simpa using other
    rw [keyValue?, given]
    rw [given] at has item
    simp only [unlike, Bool.false_eq_true, if_false, named, has, item, byKey, bind, Except.bind,
      if_true]
  rw [rootValue, found]
  rfl

end Request

namespace Schema

variable {s : Schema} {r : Request} {root : RootField}

/-- With a special field and the collection for candidates, the special field is taken just if the
root type declares it. -/
theorem name_of_resolve_special {special : String}
    (candidates : r.candidates = [special, r.collection]) (resolved : s.resolve r = .ok root) :
    ∃ t, s.root r.action.operationType = some root.rootType ∧ s.type? root.rootType = some t ∧
      t.field? (.str root.name) = some root.field ∧
      root.name = if t.declares special then special else r.collection := by
  obtain ⟨known, t, listed, found⟩ := resolve_eq_ok resolved
  refine ⟨t, known, listed, found, ?_⟩
  simp only [resolve, known, listed, candidates] at resolved
  cases declared : t.field? (.str special) with
  | some f =>
    rw [List.findSome?_cons, declared] at resolved
    rw [TypeDef.declares, declared, Option.isSome_some, if_pos rfl]
    exact congrArg RootField.name (Except.ok.inj resolved).symm
  | none =>
    rw [List.findSome?_cons, declared, Option.map_none] at resolved
    rw [TypeDef.declares, declared, Option.isSome_none, if_neg Bool.false_ne_true]
    cases last : t.field? (.str r.collection) with
    | none =>
      simp only [List.findSome?_cons, last, Option.map_none, List.findSome?_nil] at resolved
      cases resolved
    | some f =>
      simp only [List.findSome?_cons, last, Option.map_some] at resolved
      exact congrArg RootField.name (Except.ok.inj resolved).symm

/-- A request for an aggregate is served by the field for it, and a request by key by the field for
one row, which takes the key columns, whenever the root type declares that field. A request by key
falls back to the collection itself alone, never to the field that changes any number of rows. -/
theorem special_of_resolve (resolved : s.resolve r = .ok root) :
    ∃ t, s.root r.action.operationType = some root.rootType ∧ s.type? root.rootType = some t ∧
      t.field? (.str root.name) = some root.field ∧
      (r.isAggregate = true → t.declares r.aggregateField = true →
        root.name = r.aggregateField ∧ root.name ≠ r.collection) ∧
      (r.isKeyed = true →
        (if t.declares r.keyField then
          root.name = r.keyField ∧ root.isByKey = true ∧ r.TakesKeys root.field
        else root.name = r.collection) ∧
        (r.action.isMutation = true → root.name ≠ r.action.opening ++ r.collection)) := by
  obtain ⟨known, t, listed, found⟩ := resolve_eq_ok resolved
  refine ⟨t, known, listed, found, ?_, ?_⟩
  · intro aggregate declared
    obtain ⟨t', _, listed', _, named⟩ :=
      name_of_resolve_special (Request.candidates_of_isAggregate aggregate) resolved
    cases listed.symm.trans listed'
    rw [if_pos declared] at named
    exact ⟨named, named ▸ r.aggregateField_ne_collection⟩
  · intro keyed
    obtain ⟨t', _, listed', _, named⟩ :=
      name_of_resolve_special (Request.candidates_of_isKeyed keyed) resolved
    cases listed.symm.trans listed'
    have ending := Naming.length_keyEnding
    by_cases declared : t.declares r.keyField = true
    · rw [if_pos declared] at named ⊢
      have byKey : root.isByKey = true := by rw [RootField.isByKey, named, r.isByKey_keyField]
      refine ⟨⟨named, byKey, Request.takesKeys_of_isByKey (nameText_of_resolve resolved) byKey⟩,
        fun _ bulk => ?_⟩
      have length := congrArg String.length (named.symm.trans bulk)
      rw [Request.keyField, String.length_append] at length
      omega
    · rw [if_neg declared] at named ⊢
      refine ⟨named, fun change bulk => ?_⟩
      have opens := Action.length_opening change
      have length := congrArg String.length (named.symm.trans bulk)
      rw [String.length_append] at length
      omega

end Schema

namespace Sample

/-- The users with a field for one of them by key. -/
def keyedAnswer : Value :=
  .obj [("queryType", .obj [("name", .str "Query")]), ("types", .arr [
    object "Query" [
      member "users" (wrapped "NON_NULL" (wrapped "LIST" (plain "OBJECT" "User"))) [],
      member "users_by_pk" (plain "OBJECT" "User") [member "id" (plain "SCALAR" "Int") []]],
    object "User" [member "id" (wrapped "NON_NULL" (plain "SCALAR" "Int")) []]])]

/-- The schema of the users with a field by key. -/
def keyed : Schema := (Schema.ofIntrospection keyedAnswer).toOption.get (by decide +kernel)

/-- The request for the user with the first key. -/
def byKey : Request := (Request.ofValue (.obj [("operation", .str "query"),
  ("collection", .str "users"), ("pk_columns", .obj [("id", .int 1)])])).toOption.get
    (by decide +kernel)

/-- The request for the aggregate of the phases. -/
def phaseAggregate : Request := (Request.ofValue (.obj [("operation", .str "query"),
  ("collection", .str "phase"), ("aggregate", .obj [])])).toOption.get (by decide +kernel)

theorem exists_resolve_byKey : ∃ root, keyed.resolve byKey = .ok root ∧
    (root.name, (keyed.type? root.rootType).map fun t => t.declares byKey.keyField) =
      ("users_by_pk", some true) :=
  exists_of_toOption_map (by decide +kernel)

end Sample

namespace Schema

/-- A user by key is served by the field for it, whose argument takes the key. -/
theorem special_of_resolve_byKey : ∃ root, Sample.keyed.resolve Sample.byKey = .ok root ∧
    root.name = "users_by_pk" ∧
    Sample.byKey.rootValue root.field (.str "id") = pure (some (.int 1)) := by
  obtain ⟨root, resolved, holds⟩ := Sample.exists_resolve_byKey
  obtain ⟨name, holds⟩ := Prod.mk.inj holds
  obtain ⟨t, _, listed, _, _, special⟩ := special_of_resolve resolved
  rw [listed] at holds
  have declared := (special (by decide +kernel)).1
  rw [if_pos (Option.some.inj holds)] at declared
  exact ⟨root, resolved, name, declared.2.2 _ rfl "id" (.int 1) rfl (by decide)⟩

/-- Where the root type declares no special field, the collection itself serves a request for its
aggregate, and a request by key, none of whose arguments takes the key. -/
theorem unrestricted_phases_and_users :
    (∃ root, Sample.changing.resolve Sample.phaseAggregate = .ok root ∧
      Sample.phaseAggregate.isAggregate = true ∧ root.name = Sample.phaseAggregate.collection) ∧
    ∃ root, Sample.schema.resolve Sample.byKey = .ok root ∧ Sample.byKey.isKeyed = true ∧
      root.name = Sample.byKey.collection ∧ root.isByKey = false ∧
      Sample.byKey.keyValue? root.field (.str "id") = .ok none := by
  obtain ⟨root, resolved, name⟩ : ∃ root,
      Sample.changing.resolve Sample.phaseAggregate = .ok root ∧
      root.name = Sample.phaseAggregate.collection := exists_of_toOption_map (by decide +kernel)
  obtain ⟨root', resolved', holds⟩ : ∃ root, Sample.schema.resolve Sample.byKey = .ok root ∧
      (root.name, root.isByKey, (Sample.byKey.keyValue? root.field (.str "id")).toOption) =
        ("users", false, some none) := exists_of_toOption_map (by decide +kernel)
  obtain ⟨name', byKey, unkeyed⟩ := by simpa only [Prod.mk.injEq] using holds
  refine ⟨⟨root, resolved, by decide +kernel, name⟩, root', resolved', by decide +kernel, name',
    byKey, ?_⟩
  cases value : Sample.byKey.keyValue? root'.field (.str "id") with
  | error fault =>
    rw [value] at unkeyed
    cases unkeyed
  | ok o =>
    rw [value] at unkeyed
    exact congrArg Except.ok (Option.some.inj unkeyed)

end Schema

/-! ### Answers to requests by key -/

namespace Request

/-- The first of the rows that match, or null when there is none. -/
def rowOf (rows : List Fields) : Value := (rows.head?.map Value.obj).getD .null

/-- What a server answers under a root field of a request by key: the row for the field by key, the
list of the rows that match for the collection itself. -/
def keyedAnswer (r : Request) (field : String) (rows : List Fields) : Value :=
  if field = r.keyField then rowOf rows else .arr (rows.map .obj)

end Request

namespace Outcome

variable {field collection : String} {data : Fields} {v : Value}

/-- What stands under the root field is taken as it is. -/
theorem extract_of_given (given : data.lookup field = some v) (present : v ≠ .null) :
    extract field collection false (.obj data) = .ok v := by
  have member : Failure.ofShape ((Value.obj data).member? field) = .ok (some v) := by
    rw [Value.member?, given]
    rfl
  simp only [extract, Value.isNull, Bool.or_self, Bool.false_eq_true, if_false, member, bind,
    Except.bind]

/-- Where null stands under a field by key, the one row under the collection is taken. -/
theorem extract_of_null (byKey : Naming.isByKey field = true)
    (given : data.lookup field = some .null) :
    extract field collection false (.obj data) =
      .ok (((data.lookup collection).map oneRow).getD .null) := by
  have member : Failure.ofShape ((Value.obj data).member? field) = .ok (some .null) := by
    rw [Value.member?, given]
    rfl
  have other : Failure.ofShape ((Value.obj data).member? collection) =
      .ok (data.lookup collection) := rfl
  simp only [extract, Value.isNull, Bool.or_self, Bool.false_eq_true, if_false, member, other, bind,
    Except.bind]
  cases data.lookup collection with
  | none => rfl
  | some v =>
    cases v <;>
      simp only [ofCollection, byKey, if_true, Option.map_some, Option.getD_some, oneRow]

end Outcome

namespace Schema

variable {s : Schema} {r : Request}

/-- When at most one row matches, the row itself is taken from the answer to a request by key just
if the root type declares the field for one row, and no other rows stand under the collection in
place of a missing one. A list, as the collection itself answers, is handed on as it stands. -/
theorem extract_keyed_iff {read : String → Option Document} {q : CompiledQuery}
    {rows : List Fields} {data : Fields} (compiled : s.compileBy read r = .ok q)
    (keyed : r.isKeyed = true) (single : rows.length ≤ 1)
    (answered : data.lookup q.field = some (r.keyedAnswer q.field rows)) :
    ∃ root t, s.resolve r = .ok root ∧ q.field = root.name ∧
      s.root r.action.operationType = some root.rootType ∧ s.type? root.rootType = some t ∧
      (Outcome.extract q.field r.collection r.isAggregate (.obj data) = .ok (Request.rowOf rows) ↔
        t.declares r.keyField = true ∧
          (rows = [] → ∀ v, data.lookup r.collection = some v → Outcome.oneRow v = .null)) ∧
      (t.declares r.keyField = false →
        Outcome.extract q.field r.collection r.isAggregate (.obj data) =
          .ok (.arr (rows.map .obj))) := by
  obtain ⟨p, _, _, planned, _, _, rfl⟩ := plan_of_compileBy compiled
  obtain ⟨root, _, resolved, _, field, _⟩ := planned_of_plan planned
  obtain ⟨t, known, listed, _, named⟩ :=
    name_of_resolve_special (Request.candidates_of_isKeyed keyed) resolved
  have plain : r.isAggregate = false := by
    rw [Request.isKeyed, Bool.and_assoc, Bool.and_eq_true, Bool.not_eq_true'] at keyed
    exact keyed.1
  rw [← field] at named
  dsimp only [Plan.compiled] at answered ⊢
  refine ⟨root, t, resolved, field, known, listed, ?_⟩
  rw [plain]
  cases declared : t.declares r.keyField with
  | true =>
    rw [declared, if_pos rfl] at named
    rw [Request.keyedAnswer, if_pos named] at answered
    refine ⟨?_, nofun⟩
    rw [eq_self_iff_true, true_and]
    match rows, single with
    | [row], _ =>
      rw [Outcome.extract_of_given answered nofun]
      exact iff_of_true rfl nofun
    | [], _ =>
      rw [Outcome.extract_of_null (named ▸ r.isByKey_keyField) answered]
      cases data.lookup r.collection with
      | none => exact iff_of_true rfl fun _ _ => nofun
      | some v => simp [Request.rowOf]
  | false =>
    rw [declared, if_neg Bool.false_ne_true] at named
    have bare : p.field ≠ r.keyField := by
      rw [named]
      exact r.keyField_ne_collection.symm
    rw [Request.keyedAnswer, if_neg bare] at answered
    rw [Outcome.extract_of_given answered nofun]
    refine ⟨iff_of_false ?_ nofun, fun _ => rfl⟩
    intro same
    match rows with
    | [] => cases same
    | _ :: _ => cases same

/-- The user with the first key is taken from the answer of the field by key. -/
theorem extract_keyed_iff_byKey : ∃ q, Sample.keyed.compileBy readText? Sample.byKey = .ok q ∧
    Outcome.extract q.field "users" false (.obj [("users_by_pk", .obj [("id", .int 1)])]) =
      .ok (.obj [("id", .int 1)]) := by
  obtain ⟨q, compiled, field⟩ : ∃ q, Sample.keyed.compileBy readText? Sample.byKey = .ok q ∧
      q.field = "users_by_pk" := exists_compileBy_of_run? (by decide +kernel)
  have answered : ([("users_by_pk", .obj [("id", .int 1)])] : Fields).lookup q.field =
      some (Sample.byKey.keyedAnswer q.field [[("id", .int 1)]]) := by
    rw [field]
    decide +kernel
  have single : ([[("id", .int 1)]] : List Fields).length ≤ 1 := Nat.le_refl 1
  obtain ⟨root, t, resolved, _, _, listed, taken, _⟩ :=
    extract_keyed_iff compiled (by decide +kernel) single answered
  obtain ⟨root', resolved', holds⟩ := Sample.exists_resolve_byKey
  cases resolved.symm.trans resolved'
  rw [listed] at holds
  exact ⟨q, compiled, taken.2 ⟨Option.some.inj (Prod.mk.inj holds).2, nofun⟩⟩

/-- Where users have no field by key, the list that the collection answers with is handed on, not
the one user in it. -/
theorem extract_list_of_users : ∃ q, Sample.schema.compileBy readText? Sample.byKey = .ok q ∧
    Sample.byKey.isKeyed = true ∧ q.field = Sample.byKey.collection ∧
    Outcome.extract q.field Sample.byKey.collection Sample.byKey.isAggregate
        (.obj [(q.field, Sample.byKey.keyedAnswer q.field [[("id", .int 1)]])]) =
      .ok (.arr [.obj [("id", .int 1)]]) ∧
    Value.arr [.obj [("id", .int 1)]] ≠ Request.rowOf [[("id", .int 1)]] := by
  obtain ⟨q, compiled, field⟩ : ∃ q, Sample.schema.compileBy readText? Sample.byKey = .ok q ∧
      q.field = Sample.byKey.collection := exists_compileBy_of_run? (by decide +kernel)
  refine ⟨q, compiled, by decide +kernel, field, ?_, nofun⟩
  rw [field]
  rfl

end Schema

end GraphRequest
