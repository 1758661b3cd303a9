import GraphRequest.Proofs.Schema.Introspected
import GraphRequest.Value.Parts

/-!
# Introspection answers of the wrong shape

Reading an introspection answer takes it apart as if it had the shape of one. Most parts that are
missing or of another shape are reported with the schema. A few are not looked at before they are
used: an item of the list of types that is no object, a root entry that is none, a member that
cannot be gone through, and a name that cannot be looked up by. An answer with such a part is never
read, but what is reported may be the failed use.

* `Value.isShaped`: the answers without such a part.
* `Reads`: how reading comes out on data that is shaped or not, with a law for each way of putting
  readers together.
* `ofIntrospection_outcome`: the three ways in which reading an answer comes out.
-/

namespace GraphRequest

/-! ### The shape of an answer -/

namespace Value

/-- Whether the name in a description, if there is one, can be looked up by. -/
def isNamedByKey (v : Value) : Bool := (v.memberOrNone "name").all isKey

/-- Whether a member that may be absent or empty can be gone through, all its items being shaped. -/
def isListing (p : Value → Bool) : Option Value → Bool
  | none => true
  | some v => !v.isTruthy || match v.elements with
    | .ok items => items.all p
    | .error _ => false

/-- Whether the description of a field has the right shape as far as it is not looked at first. -/
def isShapedField (v : Value) : Bool :=
  v.isNamedByKey && isListing isNamedByKey (v.memberOrNone "args")

/-- Whether a described type takes a selection. -/
def isSelectableType (v : Value) : Bool :=
  ((v.memberOrNone "kind").bind TypeKind.ofValue?).any TypeKind.isSelectable

/-- Whether the description of a type has the right shape. -/
def isShapedType (v : Value) : Bool :=
  match v with
  | .obj _ =>
    v.isNamedByKey && (!v.isSelectableType || isListing isShapedField (v.memberOrNone "fields"))
  | _ => false

/-- Whether the entry for a root type has the right shape. -/
def isShapedRoot : Option Value → Bool
  | none => true
  | some v => !v.isTruthy || match v with
    | .obj _ => v.isNamedByKey
    | _ => false

/-- Whether the types of a schema can be gone through, all of them being shaped. -/
def isShapedTypes (v : Value) : Bool :=
  match v.elements with
  | .ok items => items.all isShapedType
  | .error _ => false

/-- Whether the parts of an introspection answer that are used unseen have the right shape. -/
def isShaped (v : Value) : Bool :=
  match Schema.payload v with
  | .ok fields =>
    isShapedRoot (fields.lookup "queryType") &&
      isShapedTypes ((fields.lookup "types").getD .null) &&
      isShapedRoot (fields.lookup "mutationType") &&
      isShapedRoot (fields.lookup "subscriptionType")
  | .error _ => true

theorem elements_eq_error {v : Value} {k : ShapeFault} (h : v.elements = .error k) :
    k = .wrongKind := by
  cases v <;> cases h <;> rfl

end Value

/-! ### How reading comes out -/

variable {α β : Type} {P Q : Prop}

/-- How reading data comes out: what is read has the right shape, and a use that fails is one of
data that has not. -/
inductive Reads (shaped : Prop) : Except Failure α → Prop
  | ok (a : α) (h : shaped) : Reads shaped (.ok a)
  | schema (fault : SchemaFault) : Reads shaped (.error (.schema fault))
  | wrongKind (h : ¬ shaped) : Reads shaped (.error (.shape .wrongKind))
  | noMember (h : ¬ shaped) : Reads shaped (.error (.shape .noMember))

namespace Reads

theorem congr {x : Except Failure α} (h : Reads P x) (same : P ↔ Q) : Reads Q x := by
  cases h with
  | ok a h => exact .ok a (same.1 h)
  | schema fault => exact .schema fault
  | wrongKind h => exact .wrongKind (mt same.2 h)
  | noMember h => exact .noMember (mt same.2 h)

/-- Two readers in a row: data is shaped if it is for both. -/
theorem bind {x : Except Failure α} {f : α → Except Failure β} (h : Reads P x)
    (hf : ∀ a, x = .ok a → Reads Q (f a)) : Reads (P ∧ Q) (x >>= f) := by
  cases h with
  | ok a h => exact (hf a rfl).congr ⟨fun hq => ⟨h, hq⟩, And.right⟩
  | schema fault => exact .schema fault
  | wrongKind h => exact .wrongKind (mt And.left h)
  | noMember h => exact .noMember (mt And.left h)

/-- Two readers in a row, of which the second asks for no less than the first. -/
theorem bind_of_imp {x : Except Failure α} {f : α → Except Failure β} (h : Reads P x)
    (stronger : Q → P) (hf : ∀ a, x = .ok a → Reads Q (f a)) : Reads Q (x >>= f) :=
  (h.bind hf).congr (and_iff_right_of_imp stronger)

/-- A reader that uses nothing unseen, before another one. -/
theorem bind_of_true {x : Except Failure α} {f : α → Except Failure β} (h : Reads True x)
    (hf : ∀ a, x = .ok a → Reads Q (f a)) : Reads Q (x >>= f) :=
  h.bind_of_imp (fun _ => trivial) hf

/-- A reader that ends with what another one read. -/
theorem bind_ok {x : Except Failure α} (h : Reads P x) (f : α → β) :
    Reads P (x >>= fun a => .ok (f a)) :=
  (h.bind (Q := True) fun a _ => .ok (f a) trivial).congr (iff_of_eq (and_true P))

theorem map {x : Except Failure α} (h : Reads P x) (f : α → β) : Reads P (x.map f) := by
  cases h with
  | ok a h => exact .ok (f a) h
  | schema fault => exact .schema fault
  | wrongKind h => exact .wrongKind h
  | noMember h => exact .noMember h

/-- A list is shaped when each of its items is. -/
theorem mapM {f : β → Except Failure α} {p : β → Bool} {bs : List β}
    (h : ∀ b ∈ bs, Reads (p b = true) (f b)) : Reads (bs.all p = true) (bs.mapM f) := by
  induction bs with
  | nil => exact .ok [] rfl
  | cons b bs ih =>
    rw [List.mapM_cons, List.all_cons, Bool.and_eq_true]
    refine (h b (.head _)).bind fun a _ => ?_
    have others := ih fun b' hb' => h b' (.tail _ hb')
    exact others.bind_ok (a :: ·)

/-- A member that may be absent or empty, each of whose items is read. -/
theorem optionalElements {f : List Value → Except Failure α} {p : Value → Bool}
    (hf : ∀ items, Reads (items.all p = true) (f items)) (o : Option Value) :
    Reads (Value.isListing p o = true) (Value.optionalElements o >>= f) := by
  cases o with
  | none => exact hf []
  | some v =>
    simp only [Value.optionalElements, Value.isListing]
    cases v.isTruthy with
    | false => exact hf []
    | true =>
      cases found : v.elements with
      | ok items => exact hf items
      | error k =>
        rw [Value.elements_eq_error found]
        exact .wrongKind Bool.false_ne_true

end Reads

/-! ### Parts of an answer -/

/-- A type reference is looked at before it is used, at any depth. -/
theorem TypeRef.reads_ofValue (v : Value) : Reads True (TypeRef.ofValue v) := by
  induction v using Value.inductParts with
  | obj fields ih =>
    have wrapped : ∀ fields : List (String × Value), (∀ f ∈ fields, Reads True (ofValue f.2)) →
        Reads True (ofFields fields) := by
      intro fields ih
      induction fields with
      | nil => exact .ok none trivial
      | cons f rest others =>
        obtain ⟨key, v⟩ := f
        unfold ofFields
        split
        · split
          · exact .ok none trivial
          · exact (ih _ (.head _)).map some
        · exact others fun f hf => ih f (.tail _ hf)
    unfold ofValue
    split
    · exact .schema _
    · exact (wrapped fields ih).bind_of_true fun _ _ => .ok _ trivial
  | _ => exact .schema _

theorem Value.isNamedByKey_of_twoEntries? {v name type : Value}
    (h : v.twoEntries? "name" "type" = some (name, type)) : v.isNamedByKey = name.isKey := by
  unfold twoEntries? at h
  split at h
  · rename_i fields
    obtain ⟨a, first, h⟩ := Option.bind_eq_some_iff.1 h
    obtain ⟨b, second, h⟩ := Option.bind_eq_some_iff.1 h
    cases h
    rw [isNamedByKey, memberOrNone, first, Option.all_some]
  · cases h

theorem ArgumentDef.reads_ofValue (site : Site) (v : Value) :
    Reads True (ArgumentDef.ofValue site v) := by
  unfold ofValue
  split
  · exact .schema _
  · exact (TypeRef.reads_ofValue _).bind_of_true fun _ _ => .ok _ trivial

theorem ArgumentDef.isNamedByKey_of_ofValue {site : Site} {v : Value} {a : ArgumentDef}
    (h : ArgumentDef.ofValue site v = .ok a) : v.isNamedByKey = a.name.isKey := by
  unfold ofValue at h
  split at h
  · cases h
  · rename_i name type entries
    obtain ⟨_, _, h⟩ := bind_eq_ok.1 h
    cases h
    exact Value.isNamedByKey_of_twoEntries? entries

/-- What is read from each item of a list passes a test when the item does. -/
theorem all_of_mapM_eq_ok {f : α → Except Failure β} {p : α → Bool} {q : β → Bool} {as : List α}
    {bs : List β} (h : as.mapM f = .ok bs) (same : ∀ a b, f a = .ok b → p a = q b) :
    as.all p = bs.all q := by
  induction as generalizing bs with
  | nil =>
    cases h
    rfl
  | cons a as ih =>
    rw [List.mapM_cons] at h
    obtain ⟨b, hb, h⟩ := bind_eq_ok.1 h
    obtain ⟨bs, hbs, h⟩ := bind_eq_ok.1 h
    cases h
    rw [List.all_cons, List.all_cons, same a b hb, ih hbs]

theorem FieldDef.reads_checkArguments (field : Value) (seen : List Value)
    (arguments : List ArgumentDef) :
    Reads (arguments.all (·.name.isKey) = true) (checkArguments field seen arguments) := by
  induction arguments generalizing seen with
  | nil => exact .ok () rfl
  | cons a rest ih =>
    unfold checkArguments
    rw [List.all_cons]
    cases key : a.name.isKey with
    | false => exact .wrongKind Bool.false_ne_true
    | true =>
      rw [Bool.not_true, if_neg Bool.false_ne_true, Bool.true_and]
      split
      · exact .schema _
      · exact ih _

theorem FieldDef.reads_ofValue (owner v : Value) :
    Reads (Value.isListing Value.isNamedByKey (v.memberOrNone "args") = true)
      (FieldDef.ofValue owner v) := by
  unfold ofValue
  split
  · exact .schema _
  · rename_i name type _
    refine .optionalElements (fun described => ?_) _
    have arguments : Reads True (described.mapM (ArgumentDef.ofValue ⟨owner, name⟩)) :=
      (Reads.mapM (p := fun _ => true) fun v _ =>
        (ArgumentDef.reads_ofValue _ v).congr (iff_of_true trivial rfl)).congr
          (iff_of_true (List.all_eq_true.2 fun _ _ => rfl) trivial)
    refine arguments.bind_of_true fun arguments made => ?_
    rw [all_of_mapM_eq_ok made fun _ _ => ArgumentDef.isNamedByKey_of_ofValue]
    refine (TypeRef.reads_ofValue type).bind_of_true fun _ _ => ?_
    exact (reads_checkArguments name [] arguments).bind_ok _

theorem FieldDef.isNamedByKey_of_ofValue {owner v : Value} {f : FieldDef}
    (h : FieldDef.ofValue owner v = .ok f) : v.isNamedByKey = f.name.isKey := by
  unfold ofValue at h
  split at h
  · cases h
  · rename_i name type entries
    obtain ⟨_, _, h⟩ := bind_eq_ok.1 h
    obtain ⟨_, _, h⟩ := bind_eq_ok.1 h
    obtain ⟨_, _, h⟩ := bind_eq_ok.1 h
    obtain ⟨_, _, h⟩ := bind_eq_ok.1 h
    cases h
    exact Value.isNamedByKey_of_twoEntries? entries

/-- The description of a type but for its own name, which is used later on. -/
def Value.isShapedBody (v : Value) : Bool :=
  match v with
  | .obj _ => !v.isSelectableType || isListing isShapedField (v.memberOrNone "fields")
  | _ => false

theorem Value.isShapedType_eq (v : Value) :
    v.isShapedType = (v.isShapedBody && v.isNamedByKey) := by
  cases v with
  | obj fields => exact Bool.and_comm _ _
  | _ => rfl

namespace TypeDef

/-- The fields of a type: each of them is shaped, its name last of all. -/
theorem reads_fields (owner : Value) (described : List Value) (make : List FieldDef → TypeDef) :
    Reads (described.all Value.isShapedField = true) (do
      let fields ← described.mapM (FieldDef.ofValue owner)
      if fields.all (·.name.isKey) then .ok (make fields) else .error (.shape .wrongKind)) := by
  have members := Reads.mapM fun v (_ : v ∈ described) => FieldDef.reads_ofValue owner v
  have both : described.all Value.isShapedField = true ↔
      described.all (fun v => Value.isListing Value.isNamedByKey (v.memberOrNone "args")) = true ∧
        described.all Value.isNamedByKey = true := by
    simp only [Value.isShapedField, List.all_eq_true, Bool.and_eq_true]
    exact ⟨fun h => ⟨fun v hv => (h v hv).2, fun v hv => (h v hv).1⟩,
      fun h v hv => ⟨h.2 v hv, h.1 v hv⟩⟩
  refine (members.bind (Q := described.all Value.isNamedByKey = true) fun fields made => ?_).congr
    both.symm
  rw [all_of_mapM_eq_ok made fun _ _ => FieldDef.isNamedByKey_of_ofValue]
  cases fields.all (·.name.isKey) with
  | true => exact .ok _ rfl
  | false => exact .wrongKind Bool.false_ne_true

theorem reads_ofValue (v : Value) : Reads (v.isShapedBody = true) (TypeDef.ofValue v) := by
  unfold ofValue headOf
  split
  · rename_i fields
    split
    · rename_i kind name found _
      have selectable : (Value.obj fields).isSelectableType = kind.isSelectable := by
        rw [Value.isSelectableType, Value.memberOrNone, found, Option.any_some]
      show Reads _ (if kind.isSelectable = true then _ else _)
      unfold Value.isShapedBody
      rw [selectable]
      cases kind.isSelectable with
      | false => exact .ok _ rfl
      | true => exact Reads.optionalElements (fun described => reads_fields name described _) _
    · exact .schema _
  · rename_i other
    have misshapen : v.isShapedBody = false := by
      cases v with
      | obj fields => exact absurd rfl (other fields)
      | _ => rfl
    rw [misshapen]
    exact .wrongKind Bool.false_ne_true

theorem isNamedByKey_of_ofValue {v : Value} {t : TypeDef} (h : TypeDef.ofValue v = .ok t) :
    v.isNamedByKey = t.name.isKey := by
  obtain ⟨⟨kind, name⟩, head, h⟩ := bind_eq_ok.1 h
  have named : v.isNamedByKey = name.isKey := by
    unfold headOf at head
    split at head
    · rename_i fields
      split at head
      · rename_i found
        cases head
        rw [Value.isNamedByKey, Value.memberOrNone, found, Option.all_some]
      · cases head
    · cases head
  rw [named]
  dsimp only at h
  split at h
  · obtain ⟨_, _, h⟩ := bind_eq_ok.1 h
    obtain ⟨_, _, h⟩ := bind_eq_ok.1 h
    split at h
    · cases h
      rfl
    · cases h
  · cases h
    rfl

end TypeDef

/-! ### Whole answers -/

namespace Schema

theorem reads_readTypes (types : List TypeDef) (described : List Value) :
    Reads (described.all Value.isShapedType = true) (readTypes types described) := by
  induction described generalizing types with
  | nil => exact .ok types rfl
  | cons v rest ih =>
    have same : (v :: rest).all Value.isShapedType = true ↔
        v.isShapedBody = true ∧ v.isNamedByKey = true ∧ rest.all Value.isShapedType = true := by
      rw [List.all_cons, Value.isShapedType_eq, Bool.and_eq_true, Bool.and_eq_true, and_assoc]
    refine ((TypeDef.reads_ofValue v).bind fun t made => ?_).congr same.symm
    rw [TypeDef.isNamedByKey_of_ofValue made]
    cases t.name.isKey with
    | true => exact (ih _).congr (and_iff_right rfl).symm
    | false => exact .wrongKind fun h => Bool.false_ne_true h.1

theorem reads_payload (v : Value) : Reads True (payload v) := by
  unfold payload
  split
  · dsimp only
    split
    · split
      · exact .ok _ trivial
      · exact .schema _
    · exact .schema _
  · exact .schema _

/-- The name of a root type is there, and can be looked up by just if its entry is shaped, or the
entry cannot be asked for it. -/
theorem rootName_cases (fields : Fields) (key : String) :
    (∃ name, rootName fields key = .ok name ∧
      Value.isShapedRoot (fields.lookup key) = name.isKey) ∨
    rootName fields key = .error (.shape .noMember) ∧
      Value.isShapedRoot (fields.lookup key) = false := by
  unfold rootName
  cases fields.lookup key with
  | none => exact .inl ⟨.null, rfl, rfl⟩
  | some v =>
    simp only [Value.isShapedRoot]
    cases truthy : v.isTruthy with
    | false => exact .inl ⟨.null, rfl, rfl⟩
    | true =>
      cases v with
      | obj entries =>
        refine .inl ⟨(entries.lookup "name").getD .null, rfl, ?_⟩
        show (entries.lookup "name").all Value.isKey = _
        cases entries.lookup "name" <;> rfl
      | _ => exact .inr ⟨rfl, rfl⟩

/-- The name of a root type, before a reader that asks for no less than a shaped entry. -/
theorem reads_rootName {fields : Fields} {key : String} {f : Value → Except Failure α}
    (stronger : Q → Value.isShapedRoot (fields.lookup key) = true)
    (hf : ∀ name, Value.isShapedRoot (fields.lookup key) = name.isKey → Reads Q (f name)) :
    Reads Q (rootName fields key >>= f) := by
  obtain ⟨name, found, same⟩ | ⟨failed, misshapen⟩ := rootName_cases fields key
  · rw [found]
    exact hf name same
  · rw [failed]
    exact .noMember fun h => Bool.false_ne_true (misshapen.symm.trans (stronger h))

theorem reads_checkRoot (s : Schema) (name : Option Value) :
    Reads (name.all Value.isKey = true) (s.checkRoot name) := by
  cases name with
  | none => exact .ok () rfl
  | some name =>
    rw [Option.all_some]
    simp only [checkRoot, lookup]
    cases name.isKey with
    | false => exact .wrongKind Bool.false_ne_true
    | true =>
      cases s.type? name with
      | none => exact .schema _
      | some t =>
        show Reads (true = true)
          (if t.kind = .object then Except.ok () else .error (.schema (.badRoot name)))
        split
        · exact .ok () rfl
        · exact .schema _

theorem all_isKey_given (v : Value) : v.given.all Value.isKey = v.isKey := by
  cases v <;> rfl

/-- The types of an answer, before a reader that does not ask for them. -/
theorem reads_types {v : Value} {f : List TypeDef → Except Failure α}
    (hf : ∀ types, Reads Q (f types)) :
    Reads (v.isShapedTypes = true ∧ Q)
      (Failure.ofShape v.elements >>= fun described => readTypes [] described >>= f) := by
  unfold Value.isShapedTypes
  cases found : v.elements with
  | ok described => exact (reads_readTypes [] described).bind fun types _ => hf types
  | error k =>
    rw [Value.elements_eq_error found]
    exact .wrongKind fun h => Bool.false_ne_true h.1

theorem reads_ofIntrospection (v : Value) : Reads (v.isShaped = true) (ofIntrospection v) := by
  have unwraps := reads_payload v
  unfold ofIntrospection Value.isShaped
  cases found : payload v with
  | error e =>
    rw [found] at unwraps
    cases unwraps with
    | schema fault => exact .schema fault
    | wrongKind h => exact absurd trivial h
    | noMember h => exact absurd trivial h
  | ok fields =>
    simp only [Bool.and_eq_true]
    refine reads_rootName (fun h => h.1.1.1) fun query keyed => ?_
    rw [keyed]
    split
    · exact .schema _
    · -- The roots are looked up behind the types, so the condition on their names comes last.
      have roots {s : Schema} {mutation subscription : Value} :
          Reads (query.isKey = true ∧ mutation.isKey = true ∧ subscription.isKey = true) (do
            s.checkRoot (some query)
            s.checkRoot mutation.given
            s.checkRoot subscription.given
            .ok s) := by
        refine (reads_checkRoot s (some query)).bind fun _ _ => ?_
        refine ((reads_checkRoot s mutation.given).congr ?_).bind fun _ _ => ?_
        · rw [all_isKey_given]
        · refine ((reads_checkRoot s subscription.given).congr ?_).bind_ok fun _ => s
          rw [all_isKey_given]
      refine (reads_types (Q := query.isKey = true ∧
        Value.isShapedRoot (fields.lookup "mutationType") = true ∧
        Value.isShapedRoot (fields.lookup "subscriptionType") = true) fun types => ?_).congr ?_
      · refine reads_rootName (fun h => h.2.1) fun mutation keyed => ?_
        refine reads_rootName (fun h => h.2.2) fun subscription keyed' => ?_
        rw [keyed, keyed']
        exact roots
      · rw [and_assoc, and_assoc, and_left_comm]

/-- An introspection answer is read and is shaped, or what is wrong with the schema is reported, or
it is not shaped and a use of one of its parts fails. -/
theorem ofIntrospection_outcome (v : Value) :
    ((∃ s, ofIntrospection v = .ok s) ∧ v.isShaped = true) ∨
    (∃ fault, ofIntrospection v = .error (.schema fault)) ∨
    (v.isShaped = false ∧ (ofIntrospection v = .error (.shape .wrongKind) ∨
      ofIntrospection v = .error (.shape .noMember))) := by
  have reads := reads_ofIntrospection v
  generalize ofIntrospection v = x at reads
  cases reads with
  | ok s shaped => exact .inl ⟨⟨s, rfl⟩, shaped⟩
  | schema fault => exact .inr (.inl ⟨fault, rfl⟩)
  | wrongKind misshapen => exact .inr (.inr ⟨Bool.eq_false_iff.2 misshapen, .inl rfl⟩)
  | noMember misshapen => exact .inr (.inr ⟨Bool.eq_false_iff.2 misshapen, .inr rfl⟩)

/-- An answer that lists null among its types. -/
def nullTyped : Value :=
  .obj [("queryType", .obj [("name", .str "Query")]), ("types", .arr [.null])]

/-- A type that is no object is used as one: the answer is neither read nor is the schema reported
to be at fault. -/
theorem escapes_nullTyped : ofIntrospection nullTyped = .error (.shape .wrongKind) ∧
    ¬ ((∃ s, ofIntrospection nullTyped = .ok s) ∨
      ∃ fault, ofIntrospection nullTyped = .error (.schema fault)) := by
  have failed : ofIntrospection nullTyped = .error (.shape .wrongKind) := by rfl
  refine ⟨failed, ?_⟩
  rw [failed]
  rintro (⟨s, read⟩ | ⟨fault, reported⟩)
  · cases read
  · cases reported

end Schema

end GraphRequest
