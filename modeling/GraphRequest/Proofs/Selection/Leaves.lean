import GraphRequest.Proofs.Selection.Made

/-!
# Fields that return objects have a body

A field has a body just if it returns an object or an interface; a server refuses all else. Wanted
fields get the body that their type calls for. Default selections are chosen by the names of fields
alone: `id` and its like are written without a body and `aggregate` with one, whatever a schema
makes of these names. Calls of column functions with their columns have no body either.

* `TypeRef.bottom`: the named type below all wrappers of a reference.
* `Item.fits`: whether each field of a selection has a body just if it needs one.
* `Schema.DefaultFits`: the types whose default selection fits.
* `Schema.fits_iff`: which default selections and which calls of column functions fit.
-/

namespace GraphRequest

open Step

/-! ### The type at the bottom of a reference -/

namespace TypeRef

/-- The name at the bottom of a reference, below all its wrappers. -/
def bottom : TypeRef → Value
  | ⟨kind, name, ofType⟩ =>
    match ofType with
    | some t => if kind.isWrapper then t.bottom else name
    | none => name

theorem bottom_of_not_wrapper {kind : TypeKind} (plain : kind.isWrapper = false) (name : Value)
    (ofType : Option TypeRef) : bottom ⟨kind, name, ofType⟩ = name := by
  cases ofType <;> simp [bottom, plain]

/-- A reference from which a mark against null was taken off has the same bottom. -/
theorem bottom_of_peelNonNull {t : Option TypeRef} {u : TypeRef}
    (h : (peelNonNull t).2 = some u) : t.map bottom = some u.bottom := by
  unfold peelNonNull at h
  split at h
  · cases h
    rfl
  · cases h
    rfl

theorem bottom_of_peelList {t : Option TypeRef} {u : TypeRef} (h : (peelList t).2 = some u) :
    t.map bottom = some u.bottom := by
  unfold peelList at h
  split at h
  · cases h
    rfl
  · cases h
    rfl

theorem bottom_of_peelItem {t : Option TypeRef} {u : TypeRef} (h : (peelItem t).2 = some u) :
    t.map bottom = some u.bottom := by
  obtain ⟨v, once, same⟩ := Option.map_eq_some_iff.1 (bottom_of_peelNonNull h)
  rw [bottom_of_peelNonNull once, same]

/-- A reference that has a base type has the name of that type at its bottom. -/
theorem bottom_of_base {t : TypeRef} {base : BaseType} (h : t.base = .ok base) :
    t.bottom = base.name := by
  have inside {u v : Option TypeRef} (outer : (peelNonNull (some t)).2 = u)
      (list : (peelList u).2 = v) {w : TypeRef} (named : v.map bottom = some w.bottom) :
      t.bottom = w.bottom := by
    obtain ⟨v', rfl, same⟩ := Option.map_eq_some_iff.1 named
    obtain ⟨u', rfl, same'⟩ := Option.map_eq_some_iff.1 (bottom_of_peelList list)
    exact (Option.some.inj (bottom_of_peelNonNull outer)).trans (same'.trans same)
  unfold TypeRef.base at h
  dsimp only at h
  split at h
  · rename_i kind name ofType innermost
    split at h
    · cases h
    · rename_i plain
      have plain : kind.isWrapper = false := by simp_all
      cases h
      rw [← bottom_of_not_wrapper plain name ofType]
      refine inside rfl rfl ?_
      split at innermost
      · exact bottom_of_peelItem innermost
      · rw [innermost]
        rfl
  · cases h

end TypeRef

/-! ### Fields that need a body -/

namespace Schema

/-- Whether a type has a field of a name. -/
def has (s : Schema) (type : Value) (name : String) : Bool :=
  match s.field type (.str name) with
  | .ok (some _) => true
  | _ => false

/-- The name of the type at the bottom of what a field returns, null for a field that the type does
not have. -/
def returned (s : Schema) (type : Value) (name : String) : Value :=
  match s.field type (.str name) with
  | .ok (some f) => f.type.bottom
  | _ => .null

/-- Whether values of a type take a selection. -/
def isComposite (s : Schema) (type : Value) : Bool :=
  match s.selectable type with
  | .ok (some _) => true
  | _ => false

/-- Whether a field of a type needs a body. -/
def needsBody (s : Schema) (type : Value) (name : String) : Bool :=
  s.isComposite (s.returned type name)

end Schema

namespace Item

mutual

/-- Whether each field of a selection on a type has a body just if it needs one. -/
def fits (s : Schema) (type : Value) : Item → Bool
  | .raw _ => true
  | .field _ name _ body =>
    match body with
    | none => !s.needsBody type name
    | some items =>
      s.needsBody type name && !items.isEmpty && fitsAll s (s.returned type name) items

/-- Whether all fields of selections on a type have a body just if they need one. -/
def fitsAll (s : Schema) (type : Value) : List Item → Bool
  | [] => true
  | i :: is => fits s type i && fitsAll s type is

end

@[simp] theorem fitsAll_eq_true {s : Schema} {type : Value} {items : List Item} :
    fitsAll s type items = true ↔ ∀ i ∈ items, i.fits s type = true := by
  induction items with
  | nil => simp [fitsAll]
  | cons i is ih => simp [fitsAll, ih]

@[simp] theorem fits_leaf {s : Schema} {type : Value} {name : String} :
    (leaf name).fits s type = true ↔ s.needsBody type name = false := by
  simp [leaf, fits]

end Item

namespace Schema

variable {s : Schema} {type : Value}

/-- A type that is not there has no fields. -/
theorem field_of_typeNamed_none (h : s.typeNamed type = .ok none) (name : String) :
    s.field type (.str name) = .ok none := by
  unfold field
  split
  · rfl
  · rename_i present
    unfold typeNamed at h
    split at h
    · exact absurd rfl present
    · rw [h]
      rfl

theorem has_of_typeNamed {o : Option TypeDef} (h : s.typeNamed type = .ok o) (name : String) :
    s.has type name = (o.map (·.declares name)).getD false := by
  cases o with
  | some t =>
    rw [has, field_of_typeNamed h, Option.map_some, Option.getD_some, TypeDef.declares]
    cases t.field? (.str name) <;> rfl
  | none =>
    rw [has, field_of_typeNamed_none h]
    rfl

theorem returned_of_field {f : FieldDef} {base : BaseType} {name : String}
    (found : s.field type (.str name) = .ok (some f)) (returns : f.base = .ok base) :
    s.returned type name = base.name := by
  rw [returned, found]
  exact TypeRef.bottom_of_base returns

theorem isComposite_of_selectable {o : Option TypeDef} (h : s.selectable type = .ok o) :
    s.isComposite type = o.isSome := by
  rw [isComposite, h]
  cases o <;> rfl

/-! ### Default selections -/

/-- A field if a type has it, the field that every object answers otherwise. -/
def orTypename (s : Schema) (type : Value) (name : String) : String :=
  if s.has type name then name else typenameField

/-- The types whose default selection fits, below the name of an aggregate or any other name: the
field that stands without a body needs none, and the one that stands with a body needs it. -/
def DefaultFits (s : Schema) (type : Value) : Bool → Prop
  | false => s.needsBody type (s.orTypename type "id") = false
  | true =>
    if s.has type "aggregate" then
      s.needsBody type "aggregate" = true ∧
        s.needsBody (s.returned type "aggregate")
          (s.orTypename (s.returned type "aggregate") "count") = false
    else s.needsBody type typenameField = false

/-- The types whose default selection at the root fits: those without fields that need a body among
the ones selected. -/
def RootDefaultFits (s : Schema) (type : Value) : Prop :=
  (∀ name ∈ rootDefaultFields, s.has type name = true → s.needsBody type name = false) ∧
    ((∀ name ∈ rootDefaultFields, s.has type name = false) →
      s.needsBody type typenameField = false)

theorem fits_aggregateDefault {t : TypeDef} {items : List Item}
    (typed : s.typeNamed type = .ok (some t)) (h : s.aggregateDefault t = .ok items) :
    Item.fitsAll s type items = true ↔ s.DefaultFits type true := by
  have has' : s.has type "aggregate" = (t.field? (.str "aggregate")).isSome :=
    has_of_typeNamed typed "aggregate"
  unfold aggregateDefault at h
  rw [DefaultFits, has']
  split at h
  · rename_i missing
    cases h
    simp [missing]
  · rename_i f found
    obtain ⟨base, returns, h⟩ := bind_eq_ok.1 h
    obtain ⟨o, inner, h⟩ := bind_eq_ok.1 h
    cases h
    have below : s.returned type "aggregate" = base.name :=
      returned_of_field ((field_of_typeNamed typed _).trans (by rw [found])) returns
    rw [← has_of_typeNamed inner, found, Option.isSome_some, if_pos rfl, below]
    simp [Item.fits, below, orTypename]

theorem fits_typeDefault {t : TypeDef} {aggregate : Bool} {items : List Item}
    (typed : s.typeNamed type = .ok (some t)) (h : s.typeDefault t aggregate = .ok items) :
    Item.fitsAll s type items = true ↔ s.DefaultFits type aggregate := by
  cases aggregate with
  | true => exact fits_aggregateDefault typed h
  | false =>
    have has' : s.has type "id" = t.declares "id" := has_of_typeNamed typed "id"
    cases h
    simp [DefaultFits, orTypename, has']

theorem fits_rootDefaults {t : TypeDef} {items : List Item}
    (selectable : s.selectable type = .ok (some t)) (h : s.rootDefaults type false = .ok items) :
    Item.fitsAll s type items = true ↔ s.RootDefaultFits type := by
  have has' (name : String) : s.has type name = t.declares name :=
    has_of_typeNamed (selectable_eq_some selectable).1 name
  unfold rootDefaults at h
  rw [selectable] at h
  cases h
  simp only [RootDefaultFits, has', Item.fitsAll_eq_true]
  split
  · rename_i none'
    have missing : ∀ name ∈ rootDefaultFields, t.declares name = false := by
      simpa using List.isEmpty_iff.1 none'
    simp +contextual [missing]
  · rename_i some'
    obtain ⟨name, member, declared⟩ : ∃ name ∈ rootDefaultFields, t.declares name = true := by
      simpa using some'
    simp only [List.forall_mem_map, List.mem_filter, and_imp, Item.fits_leaf]
    constructor
    · intro leaves
      refine ⟨leaves, fun none' => ?_⟩
      rw [none' name member] at declared
      cases declared
    · exact fun fits => fits.1

/-! ### Calls of column functions -/

/-- The fields whose calls with columns fit. A field that takes columns is written without a body,
any other one with the default selection of the type that it returns. -/
def CallFits (s : Schema) (type : Value) (name : String) (f : FieldDef) : Prop :=
  if f.declares "columns" then s.needsBody type name = false
  else s.needsBody type name = true → s.DefaultFits (s.returned type name) false

theorem fits_columns {name : String} {names distinct : Value} {path : List String} {b b' : Bindings}
    {i : Item} (h : Runs ((Entry.columns name names distinct).compile s type path) b (some i) b') :
    ∃ f, s.field type (.str name) = .ok (some f) ∧
      (i.fits s type = true ↔ s.CallFits type name f) := by
  have outcome := Entry.compiled_of_runs h
  cases outcome with
  | field _ _ _ wants => cases wants
  | columns found returns declared =>
    refine ⟨_, found, ?_⟩
    rw [CallFits, if_pos declared]
    simp [Item.fits]
  | bare found returns undeclared code place bodied =>
    refine ⟨_, found, ?_⟩
    have below := returned_of_field found returns
    rw [CallFits, if_neg (by simp [undeclared]), needsBody, below]
    rcases body_eq_ok bodied with ⟨unselectable, rfl⟩ | ⟨t, items, selectable, rfl, default | given⟩
    · simp [Item.fits, needsBody, below, isComposite_of_selectable unselectable]
    · have typed := (selectable_eq_some selectable).1
      have present := List.isEmpty_eq_false_iff.2 (typeDefault_ne_nil default.2)
      have composite := isComposite_of_selectable selectable
      rw [← fits_typeDefault typed default.2]
      simp [Item.fits, needsBody, below, composite, present]
    · exact absurd rfl given.1

/-! ### What fits -/

/-- A default selection consists of fields that have a body just if they need one when, on a type
that takes a selection, the fields that it is made of happen to return what their names suggest; on
any other type it is empty. The same holds of the calls of column functions. -/
theorem fits_iff (s : Schema) (type : Value) :
    (∀ aggregate items, s.defaultSelection type aggregate = .ok items →
      (Item.fitsAll s type items = true ↔
        (s.isComposite type = true → s.DefaultFits type aggregate)) ∧
      (s.isComposite type = false → items = [])) ∧
    (∀ aggregate items, s.rootDefaults type aggregate = .ok items →
      (Item.fitsAll s type items = true ↔
        (s.isComposite type = true →
          if aggregate then s.DefaultFits type true else s.RootDefaultFits type)) ∧
      (s.isComposite type = false → items = [])) ∧
    ∀ name names distinct path b i b',
      Runs ((Entry.columns name names distinct).compile s type path) b (some i) b' →
      ∃ f, s.field type (.str name) = .ok (some f) ∧
        (i.fits s type = true ↔ s.CallFits type name f) := by
  have default (aggregate : Bool) (items : List Item)
      (h : s.defaultSelection type aggregate = .ok items) :
      (Item.fitsAll s type items = true ↔
        (s.isComposite type = true → s.DefaultFits type aggregate)) ∧
      (s.isComposite type = false → items = []) := by
    obtain ⟨o, selectable, h⟩ := bind_eq_ok.1 h
    rw [isComposite_of_selectable selectable]
    cases o with
    | none =>
      cases h
      simp
    | some t =>
      rw [fits_typeDefault (selectable_eq_some selectable).1 h]
      simp
  refine ⟨default, ?_, fun name names distinct path b i b' => fits_columns⟩
  rintro (_ | _) items h
  · obtain ⟨o, selectable, h'⟩ := bind_eq_ok.1 h
    rw [isComposite_of_selectable selectable]
    cases o with
    | none =>
      cases h'
      simp
    | some t =>
      rw [fits_rootDefaults selectable h]
      simp
  · exact default true items h

end Schema

namespace Sample

/-- An introspection answer: boards that are identified by a stamp, with a field that takes columns
and returns a stamp, and with a plain number of them. -/
def boardsAnswer : Value :=
  .obj [("queryType", .obj [("name", .str "Query")]), ("types", .arr [
    object "Query" [
      member "boards" (wrapped "LIST" (plain "OBJECT" "Board")) [],
      member "boards_aggregate" (plain "OBJECT" "BoardAggregate") []],
    object "Board" [
      member "id" (plain "OBJECT" "Stamp") [],
      member "name" (plain "SCALAR" "String") [],
      member "stats" (plain "OBJECT" "Stamp")
        [member "columns" (wrapped "LIST" (plain "SCALAR" "String")) []]],
    object "Stamp" [member "at" (plain "SCALAR" "String") []],
    object "BoardAggregate" [member "aggregate" (plain "SCALAR" "Int") []]])]

/-- The schema of the answer. -/
def boards : Schema := (Schema.ofIntrospection boardsAnswer).toOption.get (by decide +kernel)

end Sample

namespace Schema

/-- What is selected of users and of their number by default fits, and so does the number of users
by a column. -/
theorem fits_iff_users : (∃ items, Sample.schema.rootDefaults (.str "User") false = .ok items ∧
      Item.fitsAll Sample.schema (.str "User") items = true) ∧
    (∃ items, Sample.schema.defaultSelection (.str "UserAggregate") true = .ok items ∧
      Item.fitsAll Sample.schema (.str "UserAggregate") items = true) ∧
    ∃ i b', Runs ((Entry.columns "count" (.arr [.str "id"]) .null).compile Sample.schema
        (.str "UserAggregateFields") []) (Bindings.start 1) (some i) b' ∧
      i.text = "count(columns: $v1)" ∧
      i.fits Sample.schema (.str "UserAggregateFields") = true := by
  obtain ⟨-, root, -⟩ := fits_iff Sample.schema (.str "User")
  obtain ⟨default, -, -⟩ := fits_iff Sample.schema (.str "UserAggregate")
  obtain ⟨-, -, columns⟩ := fits_iff Sample.schema (.str "UserAggregateFields")
  obtain ⟨users, users_eq, _⟩ : ∃ items, Sample.schema.rootDefaults (.str "User") false =
      .ok items ∧ items.length = 1 := exists_of_toOption_map (by decide +kernel)
  obtain ⟨counts, counts_eq, _⟩ : ∃ items, Sample.schema.defaultSelection (.str "UserAggregate")
      true = .ok items ∧ items.length = 1 := exists_of_toOption_map (by decide +kernel)
  obtain ⟨⟨o, b'⟩, run, text⟩ : ∃ p : Option Item × Bindings,
      ((Entry.columns "count" (.arr [.str "id"]) .null).compile Sample.schema
        (.str "UserAggregateFields") []).result (Bindings.start 1) = .ok p ∧
      p.1.map Item.text = some "count(columns: $v1)" := exists_of_toOption_map (by decide +kernel)
  obtain ⟨i, rfl, written⟩ := Option.map_eq_some_iff.1 text
  obtain ⟨f, found, fits⟩ := columns _ _ _ _ _ i b' run
  refine ⟨⟨users, users_eq, ?_⟩, ⟨counts, counts_eq, ?_⟩, i, b', run, written, ?_⟩
  · refine (root false users users_eq).1.2 fun _ => ?_
    constructor <;> decide +kernel
  · refine (default true counts counts_eq).1.2 fun _ => ?_
    rw [DefaultFits, if_pos (by decide +kernel)]
    constructor <;> decide +kernel
  · have plain : Sample.schema.needsBody (.str "UserAggregateFields") "count" = false := by
      decide +kernel
    rw [fits, CallFits]
    simp [plain]

/-- On boards, the default selection leaves the stamp without a body, a call with columns does the
same, and the number of boards gets a body. -/
theorem misfit_boards : (∃ items, Sample.boards.rootDefaults (.str "Board") false = .ok items ∧
      items.map Item.text = ["id", "name"] ∧
      Item.fitsAll Sample.boards (.str "Board") items = false) ∧
    (∃ items, Sample.boards.defaultSelection (.str "Board") false = .ok items ∧
      items.map Item.text = ["id"] ∧ Item.fitsAll Sample.boards (.str "Board") items = false) ∧
    (∃ items, Sample.boards.defaultSelection (.str "BoardAggregate") true = .ok items ∧
      items.map Item.text = ["aggregate \x7b\n  __typename\n\x7d"] ∧
      Item.fitsAll Sample.boards (.str "BoardAggregate") items = false) ∧
    ∃ i b', Runs ((Entry.columns "stats" (.arr [.str "id"]) .null).compile Sample.boards
        (.str "Board") []) (Bindings.start 1) (some i) b' ∧
      i.text = "stats(columns: $v1)" ∧ i.fits Sample.boards (.str "Board") = false := by
  have written {made : Except Failure (List Item)} {type : Value} {texts : List String}
      (h : made.toOption.map (fun items => (items.map Item.text, Item.fitsAll Sample.boards type
        items)) = some (texts, false)) : ∃ items, made = .ok items ∧ items.map Item.text = texts ∧
        Item.fitsAll Sample.boards type items = false := by
    obtain ⟨items, made, holds⟩ := exists_of_toOption_map h
    exact ⟨items, made, Prod.mk.inj holds⟩
  obtain ⟨⟨o, b'⟩, run, holds⟩ : ∃ p : Option Item × Bindings,
      ((Entry.columns "stats" (.arr [.str "id"]) .null).compile Sample.boards (.str "Board")
        []).result (Bindings.start 1) = .ok p ∧
      p.1.map (fun i => (i.text, i.fits Sample.boards (.str "Board"))) =
        some ("stats(columns: $v1)", false) := exists_of_toOption_map (by decide +kernel)
  obtain ⟨i, rfl, misfit⟩ := Option.map_eq_some_iff.1 holds
  refine ⟨written (by decide +kernel), written (by decide +kernel), written (by decide +kernel),
    i, b', run, Prod.mk.inj misfit⟩

end Schema

end GraphRequest
