import GraphRequest.Proofs.Schema.Introspected
import GraphRequest.Value.Arranged

/-!
# Schemas and the order of keys

Reading a schema looks entries up by their keys, so the order of keys in an introspection answer
does not matter: the answer and its arranged form are both refused, or they give the same schema up
to the order of keys in what stands in it in place of a name.

* `Agree`: two results that are both failures, or related to each other.
* `agree_ofIntrospection`: an answer and its arranged form are read alike.
-/

namespace GraphRequest

/-! ### Arranged schemas -/

/-- A type reference whose names are arranged. -/
def TypeRef.arranged : TypeRef → TypeRef
  | ⟨kind, name, ofType⟩ =>
    ⟨kind, name.arranged, match ofType with
      | some t => some t.arranged
      | none => none⟩

/-- An argument whose names are arranged. -/
def ArgumentDef.arranged (a : ArgumentDef) : ArgumentDef :=
  ⟨a.name.arranged, a.type.arranged, ⟨a.site.type.arranged, a.site.field.arranged⟩⟩

/-- A field whose names are arranged. -/
def FieldDef.arranged (f : FieldDef) : FieldDef :=
  ⟨f.name.arranged, f.type.arranged, f.arguments.map ArgumentDef.arranged⟩

/-- A type whose names are arranged. -/
def TypeDef.arranged (t : TypeDef) : TypeDef :=
  ⟨t.kind, t.name.arranged, t.fields.map FieldDef.arranged⟩

/-- A schema whose names are arranged. Names are texts as a rule, and texts have no order. -/
def Schema.arranged (s : Schema) : Schema where
  types := s.types.map TypeDef.arranged
  queryRoot := s.queryRoot.arranged
  mutationRoot := s.mutationRoot.map Value.arranged
  subscriptionRoot := s.subscriptionRoot.map Value.arranged

/-! ### Results that agree -/

/-- Two results agree if both are failures, or if both are successes that are related. -/
inductive Agree {ε α β : Type} (R : α → β → Prop) : Except ε α → Except ε β → Prop
  | ok {a : α} {b : β} (related : R a b) : Agree R (.ok a) (.ok b)
  | error (e e' : ε) : Agree R (.error e) (.error e')

section

variable {ε α β γ δ : Type} {R : α → β → Prop} {S : γ → δ → Prop} {x : Except ε α}
  {y : Except ε β}

theorem Agree.bind {f : α → Except ε γ} {g : β → Except ε δ} (h : Agree R x y)
    (next : ∀ a b, R a b → Agree S (f a) (g b)) : Agree S (x >>= f) (y >>= g) := by
  cases h with
  | ok related => exact next _ _ related
  | error e e' => exact .error e e'

theorem Agree.map {f : α → γ} {g : β → δ} (h : Agree R x y)
    (next : ∀ a b, R a b → S (f a) (g b)) : Agree S (x.map f) (y.map g) := by
  cases h with
  | ok related => exact .ok (next _ _ related)
  | error e e' => exact .error e e'

/-- Reading a list and reading its image agree if they do for each member. -/
theorem agree_mapM_map {r : α → α} {g : γ → γ} {f f' : α → Except ε γ} {as : List α}
    (each : ∀ a ∈ as, Agree (fun c d => d = g c) (f a) (f' (r a))) :
    Agree (fun cs ds => ds = cs.map g) (as.mapM f) ((as.map r).mapM f') := by
  induction as with
  | nil => exact .ok rfl
  | cons a as ih =>
    rw [List.map_cons, List.mapM_cons, List.mapM_cons]
    refine (each a (by simp)).bind ?_
    rintro c _ rfl
    refine (ih fun b hb => each b (by simp [hb])).bind ?_
    rintro cs _ rfl
    exact .ok rfl

end

/-! ### Entries -/

namespace Value

theorem hasDistinctKeys_of_lookup {fields : Fields} {key : String} {v : Value}
    (distinct : (obj fields).hasDistinctKeys = true) (found : fields.lookup key = some v) :
    v.hasDistinctKeys = true := by
  obtain ⟨keys, inside⟩ := hasDistinctKeys_obj.1 distinct
  exact inside (key, v) ((Keyed.lookup_eq_some keys).1 found)

theorem memberOrNone_arranged {v : Value} (distinct : v.hasDistinctKeys = true) (key : String) :
    v.arranged.memberOrNone key = (v.memberOrNone key).map arranged := by
  cases v with
  | obj fields =>
    rw [arranged_obj]
    exact lookup_arrangedFields (hasDistinctKeys_obj.1 distinct).1 key
  | _ => rfl

theorem twoEntries?_arranged {v : Value} (distinct : v.hasDistinctKeys = true)
    (first second : String) : v.arranged.twoEntries? first second =
      (v.twoEntries? first second).map fun p => (p.1.arranged, p.2.arranged) := by
  cases v with
  | obj fields =>
    have keys := (hasDistinctKeys_obj.1 distinct).1
    rw [arranged_obj, twoEntries?, twoEntries?, lookup_arrangedFields keys,
      lookup_arrangedFields keys]
    cases fields.lookup first with
    | none => rfl
    | some a => cases fields.lookup second <;> rfl
  | _ => rfl

/-- Two entries of a value have distinct keys if the value has. -/
theorem hasDistinctKeys_twoEntries? {v a b : Value} {first second : String}
    (distinct : v.hasDistinctKeys = true) (found : v.twoEntries? first second = some (a, b)) :
    a.hasDistinctKeys = true ∧ b.hasDistinctKeys = true := by
  cases v with
  | obj fields =>
    obtain ⟨a', ha, rest⟩ := Option.bind_eq_some_iff.1 found
    obtain ⟨b', hb, same⟩ := Option.bind_eq_some_iff.1 rest
    cases same
    exact ⟨hasDistinctKeys_of_lookup distinct ha, hasDistinctKeys_of_lookup distinct hb⟩
  | _ => cases found

theorem hasDistinctKeys_memberOrNone {v w : Value} {key : String}
    (distinct : v.hasDistinctKeys = true) (found : v.memberOrNone key = some w) :
    w.hasDistinctKeys = true := by
  cases v with
  | obj fields => exact hasDistinctKeys_of_lookup distinct found
  | _ => cases found

end Value

theorem TypeKind.ofValue?_arranged (v : Value) : ofValue? v.arranged = ofValue? v := by
  cases v <;> rfl

/-- The kind that an entry of an object names. -/
theorem TypeKind.bind_lookup_arranged {fields : Fields} (keys : (Keyed.keys fields).Nodup) :
    ((Value.arrangedFields fields).lookup "kind").bind ofValue? =
      (fields.lookup "kind").bind ofValue? := by
  rw [Value.lookup_arrangedFields keys, Option.bind_map]
  exact congrArg _ (funext ofValue?_arranged)

/-! ### Type references -/

theorem TypeRef.ofFields_eq (fields : Fields) :
    ofFields fields = match fields.lookup "ofType" with
      | none => .ok none
      | some v => if v.isNull then .ok none else (ofValue v).map some := by
  induction fields with
  | nil => rfl
  | cons f rest ih =>
    obtain ⟨key, v⟩ := f
    rw [ofFields, List.lookup_cons]
    cases same : key == "ofType" with
    | true =>
      have same' : ("ofType" == key) = true := by
        rw [eq_of_beq same]
        rfl
      rw [same']
      rfl
    | false =>
      have other : ("ofType" == key) = false := by
        apply beq_false_of_ne
        rintro rfl
        cases same
      rw [other, ih]
      rfl

/-- A type reference is read from an arranged description as from the description. -/
theorem TypeRef.agree_ofValue {v : Value} (distinct : v.hasDistinctKeys = true) :
    Agree (fun t u => u = t.arranged) (ofValue v) (ofValue v.arranged) := by
  induction v using Value.inductParts with
  | obj fields ih =>
    obtain ⟨keys, inside⟩ := Value.hasDistinctKeys_obj.1 distinct
    have name : ((Value.arrangedFields fields).lookup "name").getD .null =
        ((fields.lookup "name").getD .null).arranged := by
      rw [Value.lookup_arrangedFields keys]
      cases fields.lookup "name" <;> rfl
    have wrapped : Agree (fun t u => u = t.map arranged) (ofFields fields)
        (ofFields (Value.arrangedFields fields)) := by
      rw [ofFields_eq, ofFields_eq, Value.lookup_arrangedFields keys]
      cases found : fields.lookup "ofType" with
      | none => exact .ok rfl
      | some w =>
        rw [Option.map_some]
        dsimp only
        rw [Value.isNull_arranged]
        split
        · exact .ok rfl
        · have here := (Keyed.lookup_eq_some keys).1 found
          refine (ih _ here (inside _ here)).map ?_
          rintro t _ rfl
          rfl
    rw [Value.arranged_obj, ofValue, ofValue, TypeKind.bind_lookup_arranged keys, name]
    cases (fields.lookup "kind").bind TypeKind.ofValue? with
    | none => exact .error _ _
    | some kind =>
      refine wrapped.bind ?_
      rintro ofType _ rfl
      cases ofType <;> exact .ok rfl
  | arr items ih =>
    rw [Value.arranged_arr]
    exact .error _ _
  | _ => exact .error _ _

/-! ### Lists of descriptions -/

/-- The items of a value and of its arranged form: they are arranged one by one, or they are texts
and describe nothing. -/
inductive Listed : List Value → List Value → Prop
  | items {vs : List Value} (distinct : ∀ v ∈ vs, v.hasDistinctKeys = true) :
      Listed vs (vs.map Value.arranged)
  | texts (name other : String) (names others : List String) :
      Listed ((name :: names).map .str) ((other :: others).map .str)

/-- Texts are their own arranged form. -/
theorem listed_texts (names : List String) : Listed (names.map .str) (names.map .str) := by
  have same : names.map Value.str = (names.map Value.str).map Value.arranged := by
    rw [List.map_map]
    rfl
  have texts : ∀ v ∈ names.map Value.str, v.hasDistinctKeys = true := by
    intro v hv
    obtain ⟨name, _, rfl⟩ := List.mem_map.1 hv
    rfl
  have listed := Listed.items texts
  rw [← same] at listed
  exact listed

theorem agree_elements {v : Value} (distinct : v.hasDistinctKeys = true) :
    Agree Listed v.elements v.arranged.elements := by
  cases v with
  | arr items =>
    rw [Value.arranged_arr]
    exact .ok (.items (Value.hasDistinctKeys_arr.1 distinct))
  | str s =>
    have chars : Value.elements (.str s) =
        .ok ((s.toList.map fun c => String.ofList [c]).map .str) := by
      rw [List.map_map]
      rfl
    have same : (Value.str s).arranged = .str s := rfl
    rw [same, chars]
    exact .ok (listed_texts _)
  | obj fields =>
    have keys (fields : Fields) : (Value.obj fields).elements =
        .ok ((Keyed.keys fields).map .str) := by
      rw [Keyed.keys, List.map_map]
      rfl
    rw [Value.arranged_obj, keys, keys]
    have perm := Value.keys_arrangedFields_perm fields
    cases h : Keyed.keys fields with
    | nil =>
      rw [h] at perm
      rw [perm.eq_nil]
      exact .ok (listed_texts [])
    | cons name names =>
      cases h' : Keyed.keys (Value.arrangedFields fields) with
      | nil =>
        rw [h, h'] at perm
        exact absurd perm.symm.eq_nil (by simp)
      | cons other others => exact .ok (.texts name other names others)
  | _ => exact .error _ _

theorem agree_ofShape {α β : Type} {R : α → β → Prop} {x : Except ShapeFault α}
    {y : Except ShapeFault β} (h : Agree R x y) :
    Agree R (Failure.ofShape x) (Failure.ofShape y) := by
  cases h with
  | ok related => exact .ok related
  | error e e' => exact .error _ _

theorem agree_optionalElements {v : Option Value}
    (distinct : ∀ w ∈ v, w.hasDistinctKeys = true) :
    Agree Listed (Value.optionalElements v) (Value.optionalElements (v.map Value.arranged)) := by
  cases v with
  | none => exact .ok (listed_texts [])
  | some w =>
    rw [Option.map_some, Value.optionalElements, Value.optionalElements, Value.isTruthy_arranged]
    split
    · exact agree_ofShape (agree_elements (distinct w rfl))
    · exact .ok (listed_texts [])

/-- Descriptions that are listed are read alike, if texts are refused. -/
theorem agree_mapM_listed {γ : Type} {g : γ → γ} {f f' : Value → Except Failure γ}
    {vs ws : List Value} (listed : Listed vs ws)
    (each : ∀ v, v.hasDistinctKeys = true → Agree (fun c d => d = g c) (f v) (f' v.arranged))
    (refuses : ∀ s, ∃ e, f (.str s) = .error e) (refuses' : ∀ s, ∃ e, f' (.str s) = .error e) :
    Agree (fun cs ds => ds = cs.map g) (vs.mapM f) (ws.mapM f') := by
  cases listed with
  | items distinct => exact agree_mapM_map fun v hv => each v (distinct v hv)
  | texts name other names others =>
    obtain ⟨e, refused⟩ := refuses name
    obtain ⟨e', refused'⟩ := refuses' other
    rw [List.map_cons, List.map_cons, List.mapM_cons, List.mapM_cons, refused, refused']
    exact .error e e'

/-! ### Arguments and fields -/

theorem ArgumentDef.agree_ofValue {v : Value} (distinct : v.hasDistinctKeys = true)
    (owner field : Value) : Agree (fun a b => b = a.arranged) (ofValue ⟨owner, field⟩ v)
      (ofValue ⟨owner.arranged, field.arranged⟩ v.arranged) := by
  rw [ofValue, ofValue, Value.twoEntries?_arranged distinct]
  cases found : v.twoEntries? "name" "type" with
  | none => exact .error _ _
  | some p =>
    obtain ⟨name, type⟩ := p
    refine (TypeRef.agree_ofValue (Value.hasDistinctKeys_twoEntries? distinct found).2).bind ?_
    rintro t _ rfl
    exact .ok rfl

/-- Arguments have different names just if their arranged forms have. -/
theorem FieldDef.agree_checkArguments (field field' : Value) (seen : List Value)
    (arguments : List ArgumentDef) : Agree (fun _ _ => True) (checkArguments field seen arguments)
      (checkArguments field' seen (arguments.map ArgumentDef.arranged)) := by
  induction arguments generalizing seen with
  | nil => exact .ok trivial
  | cons a rest ih =>
    rw [List.map_cons, checkArguments, checkArguments]
    have key : a.arranged.name.isKey = a.name.isKey := Value.isKey_arranged a.name
    rw [key]
    cases isKey : a.name.isKey with
    | false => exact .error _ _
    | true =>
      have name : a.arranged.name = a.name := Value.arranged_of_isKey isKey
      rw [name]
      simp only [Bool.not_true, Bool.false_eq_true, if_false]
      split
      · exact .error _ _
      · exact ih (a.name :: seen)

theorem FieldDef.agree_ofValue {v : Value} (distinct : v.hasDistinctKeys = true) (owner : Value) :
    Agree (fun f g => g = f.arranged) (ofValue owner v) (ofValue owner.arranged v.arranged) := by
  rw [ofValue, ofValue, Value.twoEntries?_arranged distinct]
  cases found : v.twoEntries? "name" "type" with
  | none => exact .error _ _
  | some p =>
    obtain ⟨name, type⟩ := p
    rw [Option.map_some]
    dsimp only
    rw [Value.memberOrNone_arranged distinct]
    refine (agree_optionalElements fun w hw =>
      Value.hasDistinctKeys_memberOrNone distinct hw).bind ?_
    intro vs ws listed
    refine (agree_mapM_listed listed (fun w hw => ArgumentDef.agree_ofValue hw owner name)
      (fun _ => ⟨_, rfl⟩) fun _ => ⟨_, rfl⟩).bind ?_
    rintro arguments _ rfl
    refine (TypeRef.agree_ofValue (Value.hasDistinctKeys_twoEntries? distinct found).2).bind ?_
    rintro t _ rfl
    refine (agree_checkArguments name name.arranged [] arguments).bind ?_
    intro _ _ _
    exact .ok rfl

/-! ### Types -/

theorem TypeDef.agree_headOf {v : Value} (distinct : v.hasDistinctKeys = true) :
    Agree (fun p q => q = (p.1, p.2.arranged)) (headOf v) (headOf v.arranged) := by
  cases v with
  | obj fields =>
    have keys := (Value.hasDistinctKeys_obj.1 distinct).1
    rw [Value.arranged_obj, headOf, headOf, TypeKind.bind_lookup_arranged keys,
      Value.lookup_arrangedFields keys]
    cases (fields.lookup "kind").bind TypeKind.ofValue? with
    | none => exact .error _ _
    | some kind =>
      cases fields.lookup "name" with
      | none => exact .error _ _
      | some name => exact .ok rfl
  | arr items =>
    rw [Value.arranged_arr]
    exact .error _ _
  | _ => exact .error _ _

theorem TypeDef.agree_ofValue {v : Value} (distinct : v.hasDistinctKeys = true) :
    Agree (fun t u => u = t.arranged) (ofValue v) (ofValue v.arranged) := by
  refine (agree_headOf distinct).bind ?_
  rintro ⟨kind, name⟩ _ rfl
  dsimp only
  split
  · rw [Value.memberOrNone_arranged distinct]
    refine (agree_optionalElements fun w hw =>
      Value.hasDistinctKeys_memberOrNone distinct hw).bind ?_
    intro vs ws listed
    refine (agree_mapM_listed listed (fun w hw => FieldDef.agree_ofValue hw name)
      (fun _ => ⟨_, rfl⟩) fun _ => ⟨_, rfl⟩).bind ?_
    rintro fields _ rfl
    have keys : ((fields.map FieldDef.arranged).all fun f => f.name.isKey) =
        fields.all fun f => f.name.isKey := by
      rw [List.all_map]
      congr 1
      funext f
      exact Value.isKey_arranged f.name
    rw [keys]
    split
    · exact .ok rfl
    · exact .error _ _
  · exact .ok rfl

namespace Schema

/-- All types go by names that can be looked up. -/
def NamedByKeys (types : List TypeDef) : Prop := ∀ t ∈ types, t.name.isKey = true

theorem name_arranged_of_isKey {t : TypeDef} (key : t.name.isKey = true) :
    t.arranged.name = t.name := Value.arranged_of_isKey key

theorem insert_arranged {types : List TypeDef} {t : TypeDef} (keyed : NamedByKeys types)
    (key : t.name.isKey = true) :
    insert (types.map TypeDef.arranged) t.arranged = (insert types t).map TypeDef.arranged := by
  induction types with
  | nil => rfl
  | cons u us ih =>
    rw [List.map_cons, insert, insert, name_arranged_of_isKey (keyed u (by simp)),
      name_arranged_of_isKey key, ih fun w hw => keyed w (by simp [hw])]
    split <;> rfl

theorem namedByKeys_insert {types : List TypeDef} {t : TypeDef} (keyed : NamedByKeys types)
    (key : t.name.isKey = true) : NamedByKeys (insert types t) := by
  intro u hu
  rcases mem_of_mem_insert hu with rfl | hu
  · exact key
  · exact keyed u hu

/-- Types are read alike from descriptions and from their arranged forms. -/
theorem agree_readTypes {types : List TypeDef} {vs ws : List Value} (keyed : NamedByKeys types)
    (listed : Listed vs ws) :
    Agree (fun ts us => us = ts.map TypeDef.arranged ∧ NamedByKeys ts) (readTypes types vs)
      (readTypes (types.map TypeDef.arranged) ws) := by
  cases listed with
  | texts name other names others => exact .error _ _
  | items distinct =>
    induction vs generalizing types with
    | nil => exact .ok ⟨rfl, keyed⟩
    | cons v rest ih =>
      rw [List.map_cons, readTypes, readTypes]
      refine (TypeDef.agree_ofValue (distinct v (by simp))).bind ?_
      rintro t _ rfl
      have same : t.arranged.name.isKey = t.name.isKey := Value.isKey_arranged t.name
      rw [same]
      split
      · rename_i key
        rw [insert_arranged keyed key]
        exact ih (namedByKeys_insert keyed key) fun w hw => distinct w (by simp [hw])
      · exact .error _ _

/-! ### Whole schemas -/

/-- The entries of the schema object among the data of an answer. -/
def payloadOf (data : Fields) : Except Failure Fields :=
  match (data.lookup "__schema").getD (.obj data) with
  | .obj fields =>
    if (fields.lookup "types").isSome then .ok fields else .error (.schema .noTypes)
  | _ => .error (.schema .noTypes)

theorem payload_obj (fields : Fields) :
    payload (.obj fields) = payloadOf (match fields.lookup "data" with
      | some (.obj inner) => inner
      | _ => fields) := by
  unfold payload payloadOf
  dsimp only
  cases fields.lookup "data" with
  | none =>
    dsimp only
    cases fields.lookup "__schema" <;> rfl
  | some v =>
    cases v with
    | obj inner =>
      dsimp only
      cases inner.lookup "__schema" <;> rfl
    | _ =>
      dsimp only
      cases fields.lookup "__schema" <;> rfl

/-- The entries of an object, and those of its arranged form. -/
def ArrangedEntries (fields arranged : Fields) : Prop :=
  arranged = Value.arrangedFields fields ∧ (Value.obj fields).hasDistinctKeys = true

theorem agree_payloadOf {data : Fields} (distinct : (Value.obj data).hasDistinctKeys = true) :
    Agree ArrangedEntries (payloadOf data) (payloadOf (Value.arrangedFields data)) := by
  have keys := (Value.hasDistinctKeys_obj.1 distinct).1
  have inner : ((data.lookup "__schema").getD (.obj data)).hasDistinctKeys = true := by
    cases found : data.lookup "__schema" with
    | none => exact distinct
    | some w => exact Value.hasDistinctKeys_of_lookup distinct found
  have same : ((Value.arrangedFields data).lookup "__schema").getD
      (.obj (Value.arrangedFields data)) =
      ((data.lookup "__schema").getD (.obj data)).arranged := by
    rw [Value.lookup_arrangedFields keys]
    cases data.lookup "__schema" with
    | none => exact (Value.arranged_obj data).symm
    | some w => rfl
  rw [payloadOf, payloadOf, same]
  generalize (data.lookup "__schema").getD (.obj data) = schema at inner
  cases schema with
  | obj fields =>
    have keys := (Value.hasDistinctKeys_obj.1 inner).1
    rw [Value.arranged_obj]
    dsimp only
    rw [Value.lookup_arrangedFields keys, Option.isSome_map]
    split
    · exact .ok ⟨rfl, inner⟩
    · exact .error _ _
  | arr items =>
    rw [Value.arranged_arr]
    exact .error _ _
  | _ => exact .error _ _

/-- The schema object of an answer is found in its arranged form. -/
theorem agree_payload {v : Value} (distinct : v.hasDistinctKeys = true) :
    Agree ArrangedEntries (payload v) (payload v.arranged) := by
  cases v with
  | obj fields =>
    have keys := (Value.hasDistinctKeys_obj.1 distinct).1
    rw [Value.arranged_obj, payload_obj, payload_obj, Value.lookup_arrangedFields keys]
    cases found : fields.lookup "data" with
    | none => exact agree_payloadOf distinct
    | some w =>
      cases w with
      | obj inner =>
        rw [Option.map_some, Value.arranged_obj]
        exact agree_payloadOf (Value.hasDistinctKeys_of_lookup distinct found)
      | arr items =>
        rw [Option.map_some, Value.arranged_arr]
        exact agree_payloadOf distinct
      | _ => exact agree_payloadOf distinct
  | arr items =>
    rw [Value.arranged_arr]
    exact .error _ _
  | _ => exact .error _ _

theorem agree_rootName {fields arranged : Fields} (entries : ArrangedEntries fields arranged)
    (key : String) :
    Agree (fun v w => w = v.arranged) (rootName fields key) (rootName arranged key) := by
  obtain ⟨rfl, distinct⟩ := entries
  have keys := (Value.hasDistinctKeys_obj.1 distinct).1
  rw [rootName, rootName, Value.lookup_arrangedFields keys]
  cases found : fields.lookup key with
  | none => exact .ok rfl
  | some v =>
    rw [Option.map_some]
    dsimp only
    rw [Value.isTruthy_arranged]
    split
    · cases v with
      | obj inner =>
        have keys := (Value.hasDistinctKeys_obj.1
          (Value.hasDistinctKeys_of_lookup distinct found)).1
        rw [Value.arranged_obj, Value.member?, Value.member?, Value.lookup_arrangedFields keys]
        cases inner.lookup "name" <;> exact .ok rfl
      | arr items =>
        rw [Value.arranged_arr]
        exact .error _ _
      | _ => exact .error _ _
    · exact .ok rfl

theorem find?_arranged {types : List TypeDef} (keyed : NamedByKeys types) (name : Value) :
    (types.map TypeDef.arranged).find? (fun t => t.name.equals name) =
      (types.find? fun t => t.name.equals name).map TypeDef.arranged := by
  induction types with
  | nil => rfl
  | cons t types ih =>
    have ih := ih fun u hu => keyed u (by simp [hu])
    rw [List.map_cons, List.find?_cons, List.find?_cons,
      name_arranged_of_isKey (keyed t (by simp)), ih]
    cases t.name.equals name <;> rfl

theorem type?_arranged {s : Schema} (keyed : NamedByKeys s.types) (name : Value) :
    s.arranged.type? name = (s.type? name).map TypeDef.arranged := find?_arranged keyed name

/-- The check of a root type does not depend on the order of keys. -/
theorem agree_checkRoot {s : Schema} (keyed : NamedByKeys s.types) (name : Option Value) :
    Agree (fun _ _ => True) (s.checkRoot name)
      (s.arranged.checkRoot (name.map Value.arranged)) := by
  cases name with
  | none => exact .ok trivial
  | some name =>
    rw [Option.map_some, checkRoot, checkRoot, lookup, lookup, Value.isKey_arranged]
    cases key : name.isKey with
    | false => exact .error _ _
    | true =>
      rw [Value.arranged_of_isKey key, type?_arranged keyed name]
      cases s.type? name with
      | none => exact .error _ _
      | some t =>
        rw [Option.map_some]
        show Agree _ (if t.kind = .object then _ else _) (if t.kind = .object then _ else _)
        split
        · exact .ok trivial
        · exact .error _ _

theorem given_arranged (v : Value) : v.arranged.given = v.given.map Value.arranged := by
  cases v <;> rfl

/-- An answer and its arranged form are read alike. -/
theorem agree_ofIntrospection {v : Value} (distinct : v.hasDistinctKeys = true) :
    Agree (fun s t => t = s.arranged) (ofIntrospection v) (ofIntrospection v.arranged) := by
  refine (agree_payload distinct).bind ?_
  intro fields arranged entries
  refine (agree_rootName entries "queryType").bind ?_
  rintro query _ rfl
  dsimp only
  rw [Value.isTruthy_arranged]
  split
  · exact .error _ _
  · have described : Agree Listed ((fields.lookup "types").getD .null).elements
        ((arranged.lookup "types").getD .null).elements := by
      obtain ⟨rfl, distinct⟩ := entries
      rw [Value.lookup_arrangedFields (Value.hasDistinctKeys_obj.1 distinct).1]
      cases found : fields.lookup "types" with
      | none => exact .error _ _
      | some w => exact agree_elements (Value.hasDistinctKeys_of_lookup distinct found)
    refine (agree_ofShape described).bind ?_
    intro vs ws listed
    have none' : NamedByKeys [] := fun t ht => nomatch ht
    refine (agree_readTypes none' listed).bind ?_
    rintro types _ ⟨rfl, keyed⟩
    refine (agree_rootName entries "mutationType").bind ?_
    rintro mutation _ rfl
    refine (agree_rootName entries "subscriptionType").bind ?_
    rintro subscription _ rfl
    rw [given_arranged, given_arranged]
    have checks (name : Option Value) := agree_checkRoot
      (s := ⟨types, query, mutation.given, subscription.given⟩) keyed name
    refine (checks (some query)).bind ?_
    intro _ _ _
    refine (checks mutation.given).bind ?_
    intro _ _ _
    refine (checks subscription.given).bind ?_
    intro _ _ _
    exact .ok rfl

end Schema

end GraphRequest
