import GraphRequest.Schema.Introspection

/-!
# Schemas read from introspection

What reading an introspection answer ensures of every type of the schema, how fields are found on
types, and schemas whose names are names of the query language.

* `ofIntrospection_eq_ok`: what it takes to read an answer.
* `TypeDef.Sound`, `sound_of_ofIntrospection`: only types that take a selection have fields, and the
  arguments of a field have different names.
* `field_of_typeNamed`: a field of a type that was found is the one looked up by its name.
* `isNamed`: whether all names of a schema are names of the query language.
-/

namespace GraphRequest

/-! ### What reading ensures -/

/-- What reading an introspection answer ensures of a type. -/
structure TypeDef.Sound (t : TypeDef) : Prop where
  leaf : t.isSelectable = false → t.fields = []
  distinct : ∀ f ∈ t.fields, f.arguments.Pairwise fun a b => b.name.equals a.name = false

/-- Arguments that pass the check have names that differ from each other and from those seen. -/
theorem FieldDef.distinct_of_checkArguments {field : Value} {seen : List Value}
    {arguments : List ArgumentDef} (h : checkArguments field seen arguments = .ok ()) :
    (∀ a ∈ arguments, ∀ v ∈ seen, a.name.equals v = false) ∧
      arguments.Pairwise fun a b => b.name.equals a.name = false := by
  induction arguments generalizing seen with
  | nil =>
    refine ⟨?_, .nil⟩
    intro a ha
    cases ha
  | cons a rest ih =>
    simp only [checkArguments] at h
    split at h
    · cases h
    · split at h
      · cases h
      · rename_i unseen
        obtain ⟨others, distinct⟩ := ih h
        have first : ∀ v ∈ seen, a.name.equals v = false := by
          intro v hv
          cases same : a.name.equals v with
          | false => rfl
          | true => exact absurd (List.any_eq_true.2 ⟨v, hv, same⟩) unseen
        refine ⟨?_, List.pairwise_cons.2 ⟨?_, distinct⟩⟩
        · intro b hb v hv
          rcases List.mem_cons.1 hb with rfl | hb
          · exact first v hv
          · exact others b hb v (.tail _ hv)
        · intro b hb
          exact others b hb a.name (.head _)

theorem FieldDef.distinct_of_ofValue {owner v : Value} {f : FieldDef}
    (h : FieldDef.ofValue owner v = .ok f) :
    f.arguments.Pairwise fun a b => b.name.equals a.name = false := by
  unfold ofValue at h
  split at h
  · cases h
  · rename_i name type _
    obtain ⟨described, _, h⟩ := bind_eq_ok.1 h
    obtain ⟨arguments, _, h⟩ := bind_eq_ok.1 h
    obtain ⟨type', _, h⟩ := bind_eq_ok.1 h
    obtain ⟨_, checked, h⟩ := bind_eq_ok.1 h
    cases h
    exact (distinct_of_checkArguments checked).2

theorem TypeDef.sound_of_ofValue {v : Value} {t : TypeDef} (h : TypeDef.ofValue v = .ok t) :
    t.Sound := by
  obtain ⟨⟨kind, name⟩, _, h⟩ := bind_eq_ok.1 h
  dsimp only at h
  cases selectable : kind.isSelectable with
  | false =>
    rw [selectable, if_neg (by decide)] at h
    cases h
    refine ⟨fun _ => rfl, ?_⟩
    intro f hf
    cases hf
  | true =>
    rw [selectable, if_pos rfl] at h
    obtain ⟨described, _, h⟩ := bind_eq_ok.1 h
    obtain ⟨fields, made, h⟩ := bind_eq_ok.1 h
    split at h
    · cases h
      refine ⟨fun leaf => ?_, ?_⟩
      · rw [isSelectable, selectable] at leaf
        cases leaf
      · intro f hf
        obtain ⟨w, _, hw⟩ := mem_of_mapM_eq_ok made hf
        exact FieldDef.distinct_of_ofValue hw
    · cases h

/-- The key under which an answer names the root type of an operation. -/
def OperationType.rootKey : OperationType → String
  | .query => "queryType"
  | .mutation => "mutationType"
  | .subscription => "subscriptionType"

theorem Value.given_of_isTruthy {v : Value} (h : v.isTruthy = true) : v.given = some v := by
  cases v with
  | null => cases h
  | _ => rfl

namespace Schema

theorem mem_of_mem_insert {types : List TypeDef} {t u : TypeDef} (h : u ∈ insert types t) :
    u = t ∨ u ∈ types := by
  induction types with
  | nil => exact .inl (List.mem_singleton.1 h)
  | cons v types ih =>
    simp only [insert] at h
    split at h
    · rcases List.mem_cons.1 h with rfl | h
      · exact .inl rfl
      · exact .inr (.tail _ h)
    · rcases List.mem_cons.1 h with rfl | h
      · exact .inr (.head _)
      · exact (ih h).imp_right (.tail _)

/-- What holds of every type that was read holds of every type of the schema. -/
theorem forall_of_readTypes {P : TypeDef → Prop}
    (read : ∀ v t, TypeDef.ofValue v = .ok t → P t) {types made : List TypeDef}
    {described : List Value} (h : readTypes types described = .ok made)
    (before : ∀ t ∈ types, P t) : ∀ t ∈ made, P t := by
  induction described generalizing types with
  | nil =>
    cases h
    exact before
  | cons v rest ih =>
    obtain ⟨t, ht, h⟩ := bind_eq_ok.1 h
    split at h
    · apply ih h
      intro u hu
      rcases mem_of_mem_insert hu with rfl | hu
      · exact read v u ht
      · exact before u hu
    · cases h

/-- What it takes to read an answer: the types that it lists are read, the root types are those that
it names, with one for queries, and each of them passes the check. -/
theorem ofIntrospection_eq_ok {v : Value} {s : Schema} (h : ofIntrospection v = .ok s) :
    ∃ fields described, payload v = .ok fields ∧
      Failure.ofShape ((fields.lookup "types").getD .null).elements = .ok described ∧
      readTypes [] described = .ok s.types ∧
      (∀ o : OperationType, ∃ name, rootName fields o.rootKey = .ok name ∧
        s.root o = name.given ∧ (o = .query → name.isTruthy = true)) ∧
      ∀ o, s.checkRoot (s.root o) = .ok () := by
  obtain ⟨fields, opened, h⟩ := bind_eq_ok.1 h
  obtain ⟨query, queries, h⟩ := bind_eq_ok.1 h
  split at h
  · cases h
  · rename_i named
    have truthy : query.isTruthy = true := by simpa using named
    obtain ⟨described, listed, h⟩ := bind_eq_ok.1 h
    obtain ⟨types, made, h⟩ := bind_eq_ok.1 h
    obtain ⟨mutation, mutations, h⟩ := bind_eq_ok.1 h
    obtain ⟨subscription, subscriptions, h⟩ := bind_eq_ok.1 h
    obtain ⟨_, first, h⟩ := bind_eq_ok.1 h
    obtain ⟨_, second, h⟩ := bind_eq_ok.1 h
    obtain ⟨_, third, h⟩ := bind_eq_ok.1 h
    cases h
    refine ⟨fields, described, opened, listed, made, fun o => ?_, fun o => ?_⟩
    · cases o with
      | query => exact ⟨query, queries, (Value.given_of_isTruthy truthy).symm, fun _ => truthy⟩
      | mutation => exact ⟨mutation, mutations, rfl, nofun⟩
      | subscription => exact ⟨subscription, subscriptions, rfl, nofun⟩
    · cases o with
      | query => exact first
      | mutation => exact second
      | subscription => exact third

/-- Every type of a schema that was read from an introspection answer is sound. -/
theorem sound_of_ofIntrospection {v : Value} {s : Schema} (h : ofIntrospection v = .ok s) :
    ∀ t ∈ s.types, t.Sound := by
  obtain ⟨_, _, _, _, made, _⟩ := ofIntrospection_eq_ok h
  exact forall_of_readTypes (fun _ _ => TypeDef.sound_of_ofValue) made (List.forall_mem_nil _)

end Schema

/-! ### Looking up -/

theorem Value.equals_str {v : Value} {name : String} (h : v.equals (.str name) = true) :
    v = .str name := by
  cases v <;> simp_all [equals, equalsLeaf, number?]

theorem Value.eq_of_str_equals {v : Value} {name : String}
    (h : (Value.str name).equals v = true) : v = .str name := by
  cases v <;> simp_all [equals, equalsLeaf, number?]

theorem Value.equals_str_self (name : String) : (Value.str name).equals (.str name) = true := by
  simp [equals, equalsLeaf, number?]

theorem FieldDef.argument?_eq_some {f : FieldDef} {name : String} {a : ArgumentDef}
    (h : f.argument? (.str name) = some a) : a ∈ f.arguments ∧ a.name = .str name := by
  have same := List.find?_some h
  exact ⟨List.mem_of_find?_eq_some h, Value.equals_str same⟩

theorem FieldDef.declares_of_mem {f : FieldDef} {a : ArgumentDef} {name : String}
    (ha : a ∈ f.arguments) (named : a.name = .str name) : f.declares name = true := by
  refine List.find?_isSome.2 ⟨a, ha, ?_⟩
  rw [named]
  exact Value.equals_str_self name

theorem TypeDef.field?_eq_some {t : TypeDef} {name : String} {f : FieldDef}
    (h : t.field? (.str name) = some f) : f ∈ t.fields ∧ f.name = .str name := by
  have same := List.find?_some h
  exact ⟨List.mem_reverse.1 (List.mem_of_find?_eq_some h), Value.equals_str same⟩

namespace Schema

theorem mem_of_type? {s : Schema} {name : Value} {t : TypeDef} (h : s.type? name = some t) :
    t ∈ s.types := List.mem_of_find?_eq_some h

theorem type?_of_lookup {s : Schema} {name : Value} {o : Option TypeDef}
    (h : s.lookup name = .ok o) : s.type? name = o ∧ name.isKey = true := by
  unfold lookup at h
  split at h
  · rename_i key
    cases h
    exact ⟨rfl, key⟩
  · cases h

/-- A field of a type that was found is the one looked up by its name. -/
theorem field_of_typeNamed {s : Schema} {type : Value} {t : TypeDef}
    (h : s.typeNamed type = .ok (some t)) (name : String) :
    s.field type (.str name) = .ok (t.field? (.str name)) := by
  have found : s.lookup type = .ok (some t) ∧ type ≠ .null := by
    unfold typeNamed at h
    split at h
    · cases h
    · rename_i present
      exact ⟨h, present⟩
  unfold field
  split
  · exact absurd rfl found.2
  · rw [found.1]
    rfl

/-- A field that was found on a type by its name is declared on it. -/
theorem field_eq_some {s : Schema} {type : Value} {name : String} {f : FieldDef}
    (h : s.field type (.str name) = .ok (some f)) :
    ∃ t, s.type? type = some t ∧ t.field? (.str name) = some f := by
  unfold field at h
  split at h
  · cases h
  · obtain ⟨o, found, h⟩ := bind_eq_ok.1 h
    cases o with
    | none => cases h
    | some t =>
      simp only [Value.isKey_str, if_true, Except.ok.injEq] at h
      exact ⟨t, (type?_of_lookup found).1, h⟩

/-- A field and its base type, from the name of the base type where the lookup is evaluated. -/
theorem exists_base_of_field {s : Schema} {type target : Value} {name : String}
    (h : (s.field type (.str name)).toOption.map
      (fun o => o.bind fun f => f.base.toOption.map BaseType.name) = some (some target)) :
    ∃ f base, s.field type (.str name) = .ok (some f) ∧ f.base = .ok base ∧
      base.name = target := by
  obtain ⟨o, found, holds⟩ := exists_of_toOption_map h
  obtain ⟨f, rfl, holds⟩ := Option.bind_eq_some_iff.1 holds
  obtain ⟨base, returned, named⟩ := exists_of_toOption_map holds
  exact ⟨f, base, found, returned, named⟩

end Schema

/-! ### Names -/

/-- Whether a value is a name of the query language. -/
def Value.isName : Value → Bool
  | .str name => Document.Token.isName name.toList
  | _ => false

/-- Whether the base type of a reference, if it has one, goes by a name. -/
def TypeRef.isNamed (t : TypeRef) : Bool :=
  match t.base with
  | .ok base => base.name.isName
  | .error _ => true

/-- Whether an argument and its type go by names. -/
def ArgumentDef.isNamed (a : ArgumentDef) : Bool := a.name.isName && a.type.isNamed

/-- Whether a field, its type and its arguments go by names. -/
def FieldDef.isNamed (f : FieldDef) : Bool :=
  f.name.isName && f.type.isNamed && f.arguments.all ArgumentDef.isNamed

/-- Whether a type and its fields go by names. -/
def TypeDef.isNamed (t : TypeDef) : Bool := t.name.isName && t.fields.all FieldDef.isNamed

/-- Whether all types, fields and arguments of a schema go by names of the query language. -/
def Schema.isNamed (s : Schema) : Bool := s.types.all TypeDef.isNamed

theorem Value.isName_iff {v : Value} :
    v.isName = true ↔ ∃ name, v = .str name ∧ Document.Token.isName name.toList = true := by
  cases v <;> simp [isName]

theorem TypeRef.isName_base {t : TypeRef} {base : BaseType} (h : t.isNamed = true)
    (hb : t.base = .ok base) : base.name.isName = true := by
  simpa only [isNamed, hb] using h

theorem ArgumentDef.exists_name {a : ArgumentDef} (h : a.isNamed = true) :
    ∃ name, a.name = .str name ∧ Document.Token.isName name.toList = true := by
  rw [isNamed, Bool.and_eq_true] at h
  exact Value.isName_iff.1 h.1

theorem FieldDef.isNamed_of_mem {f : FieldDef} (h : f.isNamed = true) {a : ArgumentDef}
    (ha : a ∈ f.arguments) : a.isNamed = true := by
  rw [isNamed, Bool.and_eq_true] at h
  exact List.all_eq_true.1 h.2 a ha

theorem TypeDef.isNamed_of_mem {t : TypeDef} (h : t.isNamed = true) {f : FieldDef}
    (hf : f ∈ t.fields) : f.isNamed = true := by
  rw [isNamed, Bool.and_eq_true] at h
  exact List.all_eq_true.1 h.2 f hf

namespace Schema

variable {s : Schema}

theorem isNamed_of_type? (h : s.isNamed = true) {name : Value} {t : TypeDef}
    (found : s.type? name = some t) : t.isNamed = true :=
  List.all_eq_true.1 h t (mem_of_type? found)

theorem field_of_type? (h : s.isNamed = true) {type : Value} {t : TypeDef}
    (found : s.type? type = some t) (name : String) :
    s.field type (.str name) = .ok (t.field? (.str name)) := by
  have named := isNamed_of_type? h found
  simp only [TypeDef.isNamed, Bool.and_eq_true] at named
  obtain ⟨typeName, htype, _⟩ := Value.isName_iff.1 named.1
  have same : t.name.equals type = true := by
    have := List.find?_some found
    exact this
  rw [htype] at same
  have key : type = .str typeName := Value.eq_of_str_equals same
  refine field_of_typeNamed ?_ name
  rw [key] at found ⊢
  show s.lookup (.str typeName) = _
  rw [lookup, if_pos (Value.isKey_str _), found]

/-- The field that a type declares under a name, and its arguments, go by names. -/
theorem isNamed_of_field (h : s.isNamed = true) {type : Value} {name : String} {f : FieldDef}
    (found : s.field type (.str name) = .ok (some f)) : f.isNamed = true := by
  obtain ⟨t, ht, hf⟩ := field_eq_some found
  exact TypeDef.isNamed_of_mem (isNamed_of_type? h ht) (TypeDef.field?_eq_some hf).1

end Schema

/-! ### A small schema -/

namespace Sample

/-- A described type of a kind with a name. -/
def plain (kind name : String) : Value := .obj [("kind", .str kind), ("name", .str name)]

/-- A described type around another one. -/
def wrapped (kind : String) (type : Value) : Value := .obj [("kind", .str kind), ("ofType", type)]

/-- A described field, or argument, of a type. -/
def member (name : String) (type : Value) (arguments : List Value) : Value :=
  .obj [("name", .str name), ("type", type), ("args", .arr arguments)]

/-- A described object type. -/
def object (name : String) (fields : List Value) : Value :=
  .obj [("kind", .str "OBJECT"), ("name", .str name), ("fields", .arr fields)]

/-- An introspection answer: users with their posts, and the number of users. -/
def answer : Value :=
  .obj [("queryType", .obj [("name", .str "Query")]), ("types", .arr [
    object "Query" [
      member "users" (wrapped "NON_NULL" (wrapped "LIST" (plain "OBJECT" "User")))
        [member "limit" (plain "SCALAR" "Int") []],
      member "users_aggregate" (plain "OBJECT" "UserAggregate") []],
    object "User" [
      member "id" (wrapped "NON_NULL" (plain "SCALAR" "Int")) [],
      member "posts" (wrapped "LIST" (plain "OBJECT" "Post"))
        [member "limit" (plain "SCALAR" "Int") []]],
    object "Post" [member "title" (plain "SCALAR" "String") []],
    object "UserAggregate" [member "aggregate" (plain "OBJECT" "UserAggregateFields") []],
    object "UserAggregateFields" [
      member "count" (plain "SCALAR" "Int")
        [member "columns" (wrapped "LIST" (plain "SCALAR" "String")) []]]])]

/-- The schema of the answer. -/
def schema : Schema := (Schema.ofIntrospection answer).toOption.get (by decide +kernel)

theorem ofIntrospection_answer : Schema.ofIntrospection answer = .ok schema := by rfl

theorem isNamed_schema : schema.isNamed = true := by decide +kernel

/-- An introspection answer with changes: rows of two collections are inserted, those of the second
one by a field that takes no rows. -/
def changingAnswer : Value :=
  .obj [("queryType", .obj [("name", .str "Query")]),
    ("mutationType", .obj [("name", .str "Mutation")]), ("types", .arr [
    object "Query" [member "phase" (plain "OBJECT" "Phase") []],
    object "Mutation" [
      member "insert_phase" (plain "OBJECT" "PhaseMutation")
        [member "objects" (wrapped "LIST" (plain "SCALAR" "String")) []],
      member "insert_phase_one" (plain "OBJECT" "PhaseMutation")
        [member "object" (plain "SCALAR" "String") [],
          member "objects" (wrapped "LIST" (plain "SCALAR" "String")) []],
      member "insert_log" (plain "OBJECT" "PhaseMutation") []],
    object "Phase" [
      member "id" (wrapped "NON_NULL" (plain "SCALAR" "Int")) [],
      member "title" (plain "SCALAR" "String") []],
    object "PhaseMutation" [
      member "affected_rows" (wrapped "NON_NULL" (plain "SCALAR" "Int")) [],
      member "returning" (wrapped "NON_NULL" (wrapped "LIST" (plain "OBJECT" "Phase"))) []]])]

/-- The schema of the answer with changes. -/
def changing : Schema := (Schema.ofIntrospection changingAnswer).toOption.get (by decide +kernel)

theorem ofIntrospection_changingAnswer : Schema.ofIntrospection changingAnswer = .ok changing := by
  rfl

/-- A request that inserts into a collection and wants the title back. -/
def insertion (collection : String) (rows : Fields) : Value :=
  .obj ([("operation", Value.str "insert"), ("collection", .str collection),
    ("returning", .obj [("title", .bool true)])] ++ rows)

end Sample

end GraphRequest
