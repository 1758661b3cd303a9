import GraphRequest.Proofs.Schema.Reordered

/-!
# Tests on the names of a schema

A test may be asked of everything that an introspection answer calls a name, and of the names that
compiling a request comes upon in a schema. A schema that is read from an answer takes its names
from there, so that a test passes over from the answer to the schema.

* `Value.namesPass`: a test on the names in an introspection answer.
* `Schema.namesPass`: a test on the names in a schema.
* `namesPass_of_ofIntrospection`: from an answer to the schema that is read from it.
* `Schema.HasRoots`: the root types are listed, as they are once an answer is read.
-/

namespace GraphRequest

variable {p : Value → Bool}

theorem Failure.ofShape_eq_ok {α : Type} {r : Except ShapeFault α} {a : α} :
    Failure.ofShape r = .ok a ↔ r = .ok a := by
  cases r with
  | error e => exact ⟨nofun, nofun⟩
  | ok b => exact ⟨fun h => congrArg _ (Except.ok.inj h), fun h => congrArg _ (Except.ok.inj h)⟩

theorem Failure.ofRequest_eq_ok {α : Type} {r : Except RequestFault α} {a : α} :
    Failure.ofRequest r = .ok a ↔ r = .ok a := by
  cases r with
  | error e => exact ⟨nofun, nofun⟩
  | ok b => exact ⟨fun h => congrArg _ (Except.ok.inj h), fun h => congrArg _ (Except.ok.inj h)⟩

/-! ### Names in answers -/

namespace Value

/-- Whether the member `name` of an object, if it has one, passes a test. -/
def namePasses (p : Value → Bool) : Value → Bool
  | .obj fields => ((fields.lookup "name").map p).getD true
  | _ => true

/-- Whether everything that is called a name in a value passes a test. -/
def namesPass (p : Value → Bool) (v : Value) : Bool := v.everywhere (namePasses p)

theorem mem_of_lookup {fields : Fields} {key : String} {v : Value}
    (found : fields.lookup key = some v) : (key, v) ∈ fields := by
  obtain ⟨before, after, rfl, _⟩ := List.lookup_eq_some_iff.1 found
  exact List.mem_append_right _ (.head _)

theorem namesPass_of_lookup {fields : Fields} (h : (obj fields).namesPass p = true) {key : String}
    {v : Value} (found : fields.lookup key = some v) : v.namesPass p = true :=
  (everywhere_obj.1 h).2 _ (mem_of_lookup found)

theorem passes_of_lookup {fields : Fields} (h : (obj fields).namesPass p = true) {name : Value}
    (found : fields.lookup "name" = some name) : p name = true := by
  have here := (everywhere_obj.1 h).1
  rw [namePasses, found] at here
  exact here

/-- The items of a value have names that pass the test, as the value does. -/
theorem namesPass_of_elements {v : Value} (h : v.namesPass p = true) {items : List Value}
    (listed : v.elements = .ok items) : ∀ w ∈ items, w.namesPass p = true := by
  intro w hw
  cases v with
  | arr all =>
    cases listed
    exact (everywhere_arr.1 h).2 w hw
  | str s =>
    cases listed
    obtain ⟨c, _, rfl⟩ := List.mem_map.1 hw
    rfl
  | obj fields =>
    cases listed
    obtain ⟨f, _, rfl⟩ := List.mem_map.1 hw
    rfl
  | _ => cases listed

theorem namesPass_of_optionalElements {o : Option Value} (h : ∀ v ∈ o, v.namesPass p = true)
    {items : List Value} (listed : optionalElements o = .ok items) :
    ∀ w ∈ items, w.namesPass p = true := by
  intro w hw
  cases o with
  | none =>
    cases listed
    cases hw
  | some v =>
    rw [optionalElements] at listed
    split at listed
    · exact namesPass_of_elements (h v rfl) (Failure.ofShape_eq_ok.1 listed) w hw
    · cases listed
      cases hw

theorem namesPass_of_memberOrNone {v : Value} (h : v.namesPass p = true) (key : String) :
    ∀ w ∈ v.memberOrNone key, w.namesPass p = true := by
  intro w hw
  cases v with
  | obj fields => exact namesPass_of_lookup h hw
  | _ => cases hw

/-- What a description names passes the test, and so do the names in its type. -/
theorem namesPass_of_twoEntries {v name type : Value} (h : v.namesPass p = true)
    (found : v.twoEntries? "name" "type" = some (name, type)) :
    p name = true ∧ type.namesPass p = true := by
  cases v with
  | obj fields =>
    obtain ⟨a, ha, found⟩ := Option.bind_eq_some_iff.1 found
    obtain ⟨b, hb, found⟩ := Option.bind_eq_some_iff.1 found
    cases found
    exact ⟨passes_of_lookup h ha, namesPass_of_lookup h hb⟩
  | _ => cases found

end Value

/-! ### Names in type references -/

namespace TypeRef

/-- Whether all names in a chain of wrappers pass a test. -/
inductive AllNames (p : Value → Bool) : TypeRef → Prop
  | last {kind : TypeKind} {name : Value} (passes : p name = true) : AllNames p ⟨kind, name, none⟩
  | wrap {kind : TypeKind} {name : Value} {t : TypeRef} (passes : p name = true)
      (inner : AllNames p t) : AllNames p ⟨kind, name, some t⟩

theorem AllNames.passes {t : TypeRef} (h : AllNames p t) : p t.name = true := by
  cases h with
  | last passes => exact passes
  | wrap passes inner => exact passes

theorem AllNames.inner {t : TypeRef} (h : AllNames p t) : ∀ u ∈ t.ofType, AllNames p u := by
  intro u hu
  cases h with
  | last passes => cases hu
  | wrap passes inner =>
    cases hu
    exact inner

theorem allNames_peelNonNull {o : Option TypeRef} (h : ∀ t ∈ o, AllNames p t) :
    ∀ t ∈ (peelNonNull o).2, AllNames p t := by
  unfold peelNonNull
  split
  · exact (h _ rfl).inner
  · exact h

theorem allNames_peelList {o : Option TypeRef} (h : ∀ t ∈ o, AllNames p t) :
    ∀ t ∈ (peelList o).2, AllNames p t := by
  unfold peelList
  split
  · exact (h _ rfl).inner
  · exact h

theorem allNames_peelItem {o : Option TypeRef} (h : ∀ t ∈ o, AllNames p t) :
    ∀ t ∈ (peelItem o).2, AllNames p t := allNames_peelNonNull (allNames_peelNonNull h)

/-- The name of a base type stands in the chain. -/
theorem AllNames.passes_base {t : TypeRef} (h : AllNames p t) {base : BaseType}
    (hb : t.base = .ok base) : p base.name = true := by
  have peeled : ∀ u ∈ (if (peelList (peelNonNull (some t)).2).1
      then peelItem (peelList (peelNonNull (some t)).2).2
      else (false, (peelList (peelNonNull (some t)).2).2)).2, AllNames p u := by
    have whole : ∀ u ∈ some t, AllNames p u := by
      intro u hu
      cases hu
      exact h
    have item := allNames_peelList (allNames_peelNonNull whole)
    split
    · exact allNames_peelItem item
    · exact item
  unfold TypeRef.base at hb
  dsimp only at hb
  split at hb
  · rename_i kind name inner last
    split at hb
    · cases hb
    · cases hb
      exact (peeled _ last).passes
  · cases hb

/-- Whether the base type of a reference, if it has one, has a name that passes a test. -/
def namePasses (p : Value → Bool) (t : TypeRef) : Bool :=
  match t.base with
  | .ok base => p base.name
  | .error _ => true

theorem AllNames.namePasses {t : TypeRef} (h : AllNames p t) : t.namePasses p = true := by
  unfold TypeRef.namePasses
  split
  · rename_i base hb
    exact h.passes_base hb
  · rfl

theorem passes_of_base {t : TypeRef} (h : t.namePasses p = true) {base : BaseType}
    (hb : t.base = .ok base) : p base.name = true := by
  simpa only [TypeRef.namePasses, hb] using h

/-- A reference has the names of its description; where a name is left out it is null. -/
theorem allNames_of_ofValue (null : p .null = true) {v : Value} (names : v.namesPass p = true)
    {t : TypeRef} (h : ofValue v = .ok t) : AllNames p t := by
  induction v using Value.inductParts generalizing t with
  | obj fields ih =>
    rw [ofValue] at h
    split at h
    · cases h
    · rename_i kind _
      obtain ⟨inner, wrapped, h⟩ := bind_eq_ok.1 h
      cases h
      have name : p ((fields.lookup "name").getD .null) = true := by
        cases found : fields.lookup "name" with
        | none => exact null
        | some name => exact Value.passes_of_lookup names found
      rw [ofFields_eq] at wrapped
      cases found : fields.lookup "ofType" with
      | none =>
        rw [found] at wrapped
        cases wrapped
        exact .last name
      | some w =>
        rw [found] at wrapped
        dsimp only at wrapped
        split at wrapped
        · cases wrapped
          exact .last name
        · have here := Value.mem_of_lookup found
          cases made : ofValue w with
          | error fault =>
            rw [made] at wrapped
            cases wrapped
          | ok u =>
            rw [made] at wrapped
            cases wrapped
            exact .wrap name (ih _ here (Value.namesPass_of_lookup names found) made)
  | _ => simp [ofValue] at h

end TypeRef

/-! ### Names in schemas -/

/-- Whether the names of an argument and of its type pass a test. -/
def ArgumentDef.namesPass (p : Value → Bool) (a : ArgumentDef) : Bool :=
  p a.name && a.type.namePasses p

/-- Whether the names of a field, of its type and of its arguments pass a test. -/
def FieldDef.namesPass (p : Value → Bool) (f : FieldDef) : Bool :=
  p f.name && f.type.namePasses p && f.arguments.all (ArgumentDef.namesPass p)

/-- Whether the names of a type and of its fields pass a test. -/
def TypeDef.namesPass (p : Value → Bool) (t : TypeDef) : Bool :=
  p t.name && t.fields.all (FieldDef.namesPass p)

/-- Whether the names of all types, fields and arguments of a schema pass a test. -/
def Schema.namesPass (p : Value → Bool) (s : Schema) : Bool := s.types.all (TypeDef.namesPass p)

theorem ArgumentDef.namesPass_of_ofValue (null : p .null = true) {site : Site} {v : Value}
    (names : v.namesPass p = true) {a : ArgumentDef} (h : ofValue site v = .ok a) :
    a.namesPass p = true := by
  unfold ofValue at h
  split at h
  · cases h
  · rename_i name type found
    obtain ⟨t, ht, h⟩ := bind_eq_ok.1 h
    cases h
    obtain ⟨hname, htype⟩ := Value.namesPass_of_twoEntries names found
    exact Bool.and_eq_true_iff.2 ⟨hname, (TypeRef.allNames_of_ofValue null htype ht).namePasses⟩

namespace FieldDef

theorem namesPass_iff {f : FieldDef} : f.namesPass p = true ↔
    p f.name = true ∧ f.type.namePasses p = true ∧ ∀ a ∈ f.arguments, a.namesPass p = true := by
  rw [namesPass, Bool.and_eq_true, Bool.and_eq_true, List.all_eq_true, and_assoc]

theorem namesPass_of_ofValue (null : p .null = true) {owner v : Value}
    (names : v.namesPass p = true) {f : FieldDef} (h : ofValue owner v = .ok f) :
    f.namesPass p = true := by
  unfold ofValue at h
  split at h
  · cases h
  · rename_i name type found
    obtain ⟨described, listed, h⟩ := bind_eq_ok.1 h
    obtain ⟨arguments, made, h⟩ := bind_eq_ok.1 h
    obtain ⟨t, ht, h⟩ := bind_eq_ok.1 h
    obtain ⟨_, _, h⟩ := bind_eq_ok.1 h
    cases h
    obtain ⟨hname, htype⟩ := Value.namesPass_of_twoEntries names found
    refine namesPass_iff.2 ⟨hname, (TypeRef.allNames_of_ofValue null htype ht).namePasses, ?_⟩
    intro a ha
    obtain ⟨w, hw, ofw⟩ := mem_of_mapM_eq_ok made ha
    have part := Value.namesPass_of_optionalElements (Value.namesPass_of_memberOrNone names "args")
      listed w hw
    exact ArgumentDef.namesPass_of_ofValue null part ofw

end FieldDef

namespace TypeDef

theorem namesPass_iff {t : TypeDef} : t.namesPass p = true ↔
    p t.name = true ∧ ∀ f ∈ t.fields, f.namesPass p = true := by
  rw [namesPass, Bool.and_eq_true, List.all_eq_true]

theorem passes_headOf {v : Value} (names : v.namesPass p = true) {kind : TypeKind} {name : Value}
    (h : headOf v = .ok (kind, name)) : p name = true := by
  cases v with
  | obj fields =>
    unfold headOf at h
    dsimp only at h
    split at h
    · rename_i name' _ found
      cases h
      exact Value.passes_of_lookup names found
    · cases h
  | _ => cases h

theorem namesPass_of_ofValue (null : p .null = true) {v : Value} (names : v.namesPass p = true)
    {t : TypeDef} (h : ofValue v = .ok t) : t.namesPass p = true := by
  obtain ⟨⟨kind, name⟩, head, h⟩ := bind_eq_ok.1 h
  dsimp only at h
  have hname := passes_headOf names head
  split at h
  · obtain ⟨described, listed, h⟩ := bind_eq_ok.1 h
    obtain ⟨fields, made, h⟩ := bind_eq_ok.1 h
    split at h
    · cases h
      refine namesPass_iff.2 ⟨hname, ?_⟩
      intro f hf
      obtain ⟨w, hw, ofw⟩ := mem_of_mapM_eq_ok made hf
      have part := Value.namesPass_of_optionalElements
        (Value.namesPass_of_memberOrNone names "fields") listed w hw
      exact FieldDef.namesPass_of_ofValue null part ofw
    · cases h
  · cases h
    exact namesPass_iff.2 ⟨hname, List.forall_mem_nil _⟩

end TypeDef

namespace Schema

/-! ### Looking up -/

variable {s : Schema}

theorem namesPass_of_forall (h : ∀ v, p v = true) : s.namesPass p = true := by
  have types (t : TypeRef) : t.namePasses p = true := by
    unfold TypeRef.namePasses
    split
    · exact h _
    · rfl
  have arguments (a : ArgumentDef) : a.namesPass p = true :=
    Bool.and_eq_true_iff.2 ⟨h _, types _⟩
  have fields (f : FieldDef) : f.namesPass p = true :=
    FieldDef.namesPass_iff.2 ⟨h _, types _, fun a _ => arguments a⟩
  exact List.all_eq_true.2 fun t _ => TypeDef.namesPass_iff.2 ⟨h _, fun f _ => fields f⟩

theorem namesPass_of_type? (h : s.namesPass p = true) {name : Value} {t : TypeDef}
    (found : s.type? name = some t) : t.namesPass p = true :=
  List.all_eq_true.1 h t (mem_of_type? found)

theorem namesPass_of_field? (h : s.namesPass p = true) {type : Value} {t : TypeDef}
    (listed : s.type? type = some t) {name : String} {f : FieldDef}
    (found : t.field? (.str name) = some f) : f.namesPass p = true :=
  (TypeDef.namesPass_iff.1 (namesPass_of_type? h listed)).2 f (TypeDef.field?_eq_some found).1

theorem namesPass_of_field (h : s.namesPass p = true) {type : Value} {name : String}
    {f : FieldDef} (found : s.field type (.str name) = .ok (some f)) : f.namesPass p = true := by
  obtain ⟨t, listed, hf⟩ := field_eq_some found
  exact namesPass_of_field? h listed hf

/-! ### Reading -/

/-- The root type of every operation that a schema has is listed. -/
def HasRoots (s : Schema) : Prop := ∀ o name, s.root o = some name → ∃ t, s.type? name = some t

theorem namesPass_of_payloadOf {data : Fields} (names : (Value.obj data).namesPass p = true)
    {fields : Fields} (h : payloadOf data = .ok fields) :
    (Value.obj fields).namesPass p = true := by
  have schema : ((data.lookup "__schema").getD (.obj data)).namesPass p = true := by
    cases found : data.lookup "__schema" with
    | none => exact names
    | some v => exact Value.namesPass_of_lookup names found
  unfold payloadOf at h
  split at h
  · rename_i opened
    rw [opened] at schema
    split at h
    · cases h
      exact schema
    · cases h
  · cases h

theorem namesPass_of_payload {v : Value} (names : v.namesPass p = true) {fields : Fields}
    (h : payload v = .ok fields) : (Value.obj fields).namesPass p = true := by
  cases v with
  | obj whole =>
    rw [payload_obj] at h
    refine namesPass_of_payloadOf ?_ h
    split
    · rename_i found
      exact Value.namesPass_of_lookup names found
    · exact names
  | _ => cases h

theorem namesPass_of_readTypes (null : p .null = true) {types made : List TypeDef}
    {described : List Value} (names : ∀ v ∈ described, v.namesPass p = true)
    (h : readTypes types described = .ok made) (before : ∀ t ∈ types, t.namesPass p = true) :
    ∀ t ∈ made, t.namesPass p = true := by
  induction described generalizing types with
  | nil =>
    cases h
    exact before
  | cons v rest ih =>
    obtain ⟨t, ht, h⟩ := bind_eq_ok.1 h
    split at h
    · refine ih (fun w hw => names w (.tail _ hw)) h ?_
      intro u hu
      rcases mem_of_mem_insert hu with rfl | hu
      · exact TypeDef.namesPass_of_ofValue null (names v (.head _)) ht
      · exact before u hu
    · cases h

/-- A root type that passes the check is an object type of the schema. -/
theorem checkRoot_eq_ok {name : Value} (h : s.checkRoot (some name) = .ok ()) :
    ∃ t, s.lookup name = .ok (some t) ∧ t.kind = .object := by
  obtain ⟨o, found, h⟩ := bind_eq_ok.1 h
  cases o with
  | none => cases h
  | some t =>
    dsimp only at h
    split at h
    · rename_i kind
      exact ⟨t, found, kind⟩
    · cases h

/-- What an introspection answer ensures of the schema that is read from it. -/
theorem namesPass_of_ofIntrospection (null : p .null = true) {v : Value}
    (names : v.namesPass p = true) (h : ofIntrospection v = .ok s) :
    s.namesPass p = true ∧ s.HasRoots := by
  obtain ⟨fields, described, opened, listed, made, _, checked⟩ := ofIntrospection_eq_ok h
  have parts : ∀ w ∈ described, w.namesPass p = true := by
    refine Value.namesPass_of_elements (v := (fields.lookup "types").getD .null) ?_ ?_
    · cases found : fields.lookup "types" with
      | none => rfl
      | some w => exact Value.namesPass_of_lookup (namesPass_of_payload names opened) found
    · exact Failure.ofShape_eq_ok.1 listed
  refine ⟨List.all_eq_true.2 (namesPass_of_readTypes null parts made (List.forall_mem_nil _)), ?_⟩
  intro o name root
  have check := checked o
  rw [root] at check
  obtain ⟨t, found, _⟩ := checkRoot_eq_ok check
  exact ⟨t, (type?_of_lookup found).1⟩

end Schema

end GraphRequest
