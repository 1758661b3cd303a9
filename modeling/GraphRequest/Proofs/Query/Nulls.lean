import GraphRequest.Proofs.Query.Payloads
import GraphRequest.Proofs.Query.Visited

/-!
# Null for an argument of the root field

An argument of the root field that the request has no value for is left out. It is null on demand,
when the further arguments of the request say so and no other source has a value for it. Two other
sources let null through: a key column that is null, and a row that is null when it is the only one.

* `Request.otherValue`: the value for an argument from the sources before the further arguments.
* `Request.OnDemand`, `Request.NullKey`, `Request.NullRow`: the ways in which an argument is null.
* `Request.nulls_of_bindRoot`: which of the arguments of a root field are null, and when all of them
  are so on demand.
-/

namespace GraphRequest

open Step

namespace Request

variable {r : Request} {f : FieldDef} {name : Value} {b b' : Bindings} {o : Option Value}

/-! ### The sources before the further arguments -/

/-- The value for an argument of the root field from the sources before the further arguments. -/
def otherValue (r : Request) (f : FieldDef) (name : Value) : Step (Option Value) := do
  match ← Step.ofShape (r.keyValue? f name) with
  | some v => return some v
  | none =>
    if name == .str "_set" && !r.setValues.isNull then return some r.setValues
    match ← r.payloadFor f name with
    | some v => return some v
    | none => return (r.plainValue name).given

/-- The further arguments come last. -/
theorem rootValue_eq (r : Request) (f : FieldDef) (name : Value) :
    r.rootValue f name = r.otherValue f name >>= fun other =>
      match other with
      | some v => pure (some v)
      | none => Step.ofShape (r.furtherValue? name) := by
  unfold rootValue otherValue
  rw [bind_assoc]
  refine bind_congr fun key => ?_
  cases key with
  | some v => exact (pure_bind _ _).symm
  | none =>
    dsimp only
    split
    · exact (pure_bind _ _).symm
    · rw [bind_assoc]
      refine bind_congr fun rows => ?_
      cases rows with
      | some v => exact (pure_bind _ _).symm
      | none => exact (pure_bind _ _).symm

-- The sources may hold data of any shape, and reading one of the wrong shape fails. What can be
-- said of every request is that a run that succeeds would do so behind any other bindings.

theorem uniform_payloadValue (r : Request) (f : FieldDef) (plural : Bool) :
    Uniform (r.payloadValue f plural) := by
  refine uniform_bind (uniform_ofShape _) fun field => ?_
  have list : Uniform (do
      let rows ← Step.ofShape r.rowsValue
      return some rows) := uniform_bind (uniform_ofShape _) fun _ => uniform_pure _
  cases plural with
  | true =>
    simp only [if_true]
    split
    · exact uniform_bind (uniform_report _ _ _) fun _ => list
    · exact list
  | false =>
    simp only [Bool.false_eq_true, if_false]
    split
    · exact uniform_pure _
    · refine uniform_bind (uniform_ofShape _) fun row => ?_
      cases row with
      | some v => exact uniform_pure _
      | none =>
        refine uniform_bind (uniform_ofShape _) fun _ => ?_
        exact uniform_bind (uniform_report _ _ _) fun _ => uniform_pure _

theorem uniform_payloadFor (r : Request) (f : FieldDef) (name : Value) :
    Uniform (r.payloadFor f name) := by
  unfold payloadFor
  split
  · exact uniform_pure _
  · split
    · exact uniform_payloadValue r f true
    · split
      · exact uniform_payloadValue r f false
      · exact uniform_pure _

theorem uniform_otherValue (r : Request) (f : FieldDef) (name : Value) :
    Uniform (r.otherValue f name) := by
  refine uniform_bind (uniform_ofShape _) fun key => ?_
  cases key with
  | some v => exact uniform_pure _
  | none =>
    dsimp only
    split
    · exact uniform_pure _
    · refine uniform_bind (uniform_payloadFor r f name) fun rows => ?_
      cases rows <;> exact uniform_pure _

theorem uniform_rootValue (r : Request) (f : FieldDef) (name : Value) :
    Uniform (r.rootValue f name) := by
  rw [rootValue_eq]
  refine uniform_bind (uniform_otherValue r f name) fun other => ?_
  cases other with
  | some v => exact uniform_pure _
  | none => exact uniform_ofShape _

/-! ### Ways to null -/

/-- The further arguments say that an argument is null, and no other source has a value for it. -/
structure OnDemand (r : Request) (f : FieldDef) (name : Value) : Prop where
  demanded : r.furtherValue? name = .ok (some .null)
  alone : ∃ notes, Settles (r.otherValue f name) none notes

/-- The field is one by key, and the key column that an argument goes by is null. -/
structure NullKey (r : Request) (f : FieldDef) (name : Value) : Prop where
  column : name ≠ .str "pk_columns"
  field : ∃ text, f.nameText = .ok text ∧ Naming.isByKey text = true
  given : r.pkColumns.has name = .ok true
  null : r.pkColumns.item name = .ok .null

/-- The argument takes the one row to insert, and the only row of those given is null. -/
structure NullRow (r : Request) (f : FieldDef) (name : Value) : Prop where
  argument : name = .str "object"
  unkeyed : r.keyValue? f name = .ok none
  keeps : ∃ text, f.nameText = .ok text ∧ givesWay f text = false
  object : r.object = .null
  objects : r.objects = .arr [.null]

theorem keyValue?_eq (present : r.pkColumns ≠ .null) : r.keyValue? f name =
    if name == .str "pk_columns" then .ok (some r.pkColumns)
    else f.nameText >>= fun text =>
      if Naming.isByKey text then r.pkColumns.has name >>= fun given =>
        if given then r.pkColumns.item name >>= fun v => .ok (some v) else .ok none
      else .ok none := by
  unfold Request.keyValue?
  split
  · rename_i absent
    exact absurd absent present
  · rfl

/-- The key columns give an argument null in no other way. -/
theorem nullKey_iff : r.NullKey f name ↔ r.keyValue? f name = .ok (some .null) := by
  constructor
  · rintro ⟨column, ⟨text, named, byKey⟩, given, null⟩
    have present : r.pkColumns ≠ .null := by
      intro absent
      rw [absent] at given
      cases given
    rw [keyValue?_eq present, if_neg (by simpa using column), named, given, null]
    show (if Naming.isByKey text then _ else Except.ok none) = _
    rw [byKey]
    rfl
  · intro h
    have present : r.pkColumns ≠ .null := by
      intro absent
      rw [Request.keyValue?, absent] at h
      cases h
    rw [keyValue?_eq present] at h
    split at h
    · exact absurd (Option.some.inj (Except.ok.inj h)) present
    · rename_i column
      obtain ⟨text, named, h⟩ := bind_eq_ok.1 h
      split at h
      · rename_i byKey
        obtain ⟨has, given, h⟩ := bind_eq_ok.1 h
        split at h
        · rename_i is
          rw [is] at given
          obtain ⟨v, null, h⟩ := bind_eq_ok.1 h
          cases h
          exact ⟨by simpa using column, ⟨text, named, byKey⟩, given, null⟩
        · cases h
      · cases h

theorem onlyRow?_eq_null {rows : Value} :
    onlyRow? rows = .ok (some .null) ↔ rows = .arr [.null] := by
  constructor
  · intro h
    obtain ⟨size, counted, h⟩ := bind_eq_ok.1 h
    split at h
    · rename_i one
      split at h
      · cases h
      · rename_i unkeyed
        obtain ⟨items, listed, h⟩ := bind_eq_ok.1 h
        cases rows with
        | arr items' =>
          cases listed
          cases counted
          obtain ⟨row, rfl⟩ := List.length_eq_one_iff.1 one
          cases h
          rfl
        | str s =>
          cases listed
          have head := Except.ok.inj h
          rw [List.head?_map, Option.map_eq_some_iff] at head
          obtain ⟨c, _, text⟩ := head
          cases text
        | obj fields => exact absurd rfl (unkeyed fields)
        | _ => cases counted
    · cases h
  · rintro rfl
    rfl

/-- The row to insert is null just if it is the only one of a list. -/
theorem rowValue?_eq_null :
    r.rowValue? = .ok (some .null) ↔ r.object = .null ∧ r.objects = .arr [.null] := by
  unfold Request.rowValue?
  split
  · rename_i objects
    simp [objects]
  · rename_i object _
    rw [onlyRow?_eq_null, object]
    exact (and_iff_right rfl).symm
  · rename_i given _
    constructor
    · intro h
      exact absurd (Option.some.inj (Except.ok.inj h)) given
    · rintro ⟨absent, _⟩
      exact absurd absent given

/-- The rows as a list are never null. -/
theorem rowsValue_ne_null : r.rowsValue ≠ .ok .null := by
  unfold Request.rowsValue
  split
  · nofun
  · intro h
    obtain ⟨items, _, h⟩ := bind_eq_ok.1 h
    cases h

/-- A null among the rows to insert is that of the only row. -/
theorem null_of_payloadFor (unkeyed : r.keyValue? f name = .ok none)
    (h : Runs (r.payloadFor f name) b (some .null) b') : r.NullRow f name := by
  unfold payloadFor at h
  split at h
  · cases (runs_pure.1 h).1
  · split at h
    · obtain ⟨rows, listed, same, _⟩ := runs_payloadValue_objects h
      cases same
      exact absurd listed rowsValue_ne_null
    · split at h
      · rename_i one
        obtain ⟨text, named⟩ : ∃ text, f.nameText = .ok text := by
          obtain ⟨text, _, ran, _⟩ := runs_bind.1 h
          exact ⟨text, (runs_ofShape.1 ran).1⟩
        cases runs_payloadValue_object named h with
        | given keeps only =>
          obtain ⟨object, objects⟩ := rowValue?_eq_null.1 only
          exact ⟨eq_of_beq one, unkeyed, ⟨text, named, keeps⟩, object, objects⟩
      · cases (runs_pure.1 h).1

theorem given_ne_null {v : Value} : v.given ≠ some .null := by
  cases v <;> nofun

/-- A null from one of the sources before the further arguments is that of a key column or that of a
row. -/
theorem null_of_otherValue (h : Runs (r.otherValue f name) b (some .null) b') :
    r.NullKey f name ∨ r.NullRow f name := by
  obtain ⟨key, b₁, ran, h⟩ := runs_bind.1 h
  obtain ⟨keyed, rfl⟩ := runs_ofShape.1 ran
  cases key with
  | some v =>
    cases (runs_pure.1 h).1
    exact .inl (nullKey_iff.2 keyed)
  | none =>
    dsimp only at h
    split at h
    · rename_i set
      rw [← Option.some.inj (runs_pure.1 h).1] at set
      simp [Value.isNull] at set
    · obtain ⟨rows, b₂, ran, h⟩ := runs_bind.1 h
      cases rows with
      | some v =>
        cases (runs_pure.1 h).1
        exact .inr (null_of_payloadFor keyed ran)
      | none => exact absurd (runs_pure.1 h).1.symm given_ne_null

/-- A null key column is taken for its argument. -/
theorem NullKey.runs (h : r.NullKey f name) (b : Bindings) :
    Runs (r.otherValue f name) b (some .null) b :=
  runs_bind.2 ⟨some .null, b, runs_ofShape.2 ⟨nullKey_iff.1 h, rfl⟩, runs_pure.2 ⟨rfl, rfl⟩⟩

/-- A null row is taken for its argument. -/
theorem NullRow.runs (h : r.NullRow f name) (b : Bindings) :
    Runs (r.otherValue f name) b (some .null) b := by
  obtain ⟨rfl, unkeyed, ⟨text, named, keeps⟩, object, objects⟩ := h
  have only : r.rowValue? = .ok (some .null) := rowValue?_eq_null.2 ⟨object, objects⟩
  have payload : r.hasPayload = true := by
    rw [hasPayload, objects]
    rfl
  have row : Runs (r.payloadFor f (.str "object")) b (some .null) b := by
    have single : r.payloadFor f (.str "object") = r.payloadValue f false := by
      simp [payloadFor, payload]
    rw [single]
    refine runs_bind.2 ⟨text, b, runs_ofShape.2 ⟨named, rfl⟩, ?_⟩
    simp only [Bool.false_eq_true, if_false]
    rw [givesWay] at keeps
    rw [keeps, if_neg (by decide)]
    exact runs_bind.2 ⟨some .null, b, runs_ofShape.2 ⟨only, rfl⟩, runs_pure.2 ⟨rfl, rfl⟩⟩
  refine runs_bind.2 ⟨none, b, runs_ofShape.2 ⟨unkeyed, rfl⟩, ?_⟩
  exact runs_bind.2 ⟨some .null, b, row, runs_pure.2 ⟨rfl, rfl⟩⟩

theorem runs_of_null (h : r.NullKey f name ∨ r.NullRow f name) (b : Bindings) :
    Runs (r.otherValue f name) b (some .null) b := by
  rcases h with nullKey | nullRow
  · exact nullKey.runs b
  · exact nullRow.runs b

/-- The value for an argument is null in these ways and in no other. -/
theorem null_iff {v : Value} {notes : List Diagnostic}
    (h : Settles (r.rootValue f name) (some v) notes) :
    v = .null ↔ r.OnDemand f name ∨ r.NullKey f name ∨ r.NullRow f name := by
  have run := h (Bindings.start 0)
  rw [rootValue_eq] at run
  obtain ⟨other, b₁, ran, last⟩ := runs_bind.1 run
  constructor
  · rintro rfl
    cases other with
    | some w =>
      cases (runs_pure.1 last).1
      exact .inr (null_of_otherValue ran)
    | none =>
      exact .inl ⟨(runs_ofShape.1 last).1, uniform_otherValue r f name _ _ _ ran⟩
  · rintro (onDemand | null)
    · obtain ⟨notes', alone⟩ := onDemand.alone
      obtain ⟨rfl, _⟩ := alone.eq_of_runs ran
      have further := (runs_ofShape.1 last).1
      cases onDemand.demanded.symm.trans further
      rfl
    · cases Except.ok.inj (ran.symm.trans (runs_of_null null _))
      cases (runs_pure.1 last).1
      rfl

/-- A null on demand is not that of a key column or of a row. -/
theorem OnDemand.not_null (h : r.OnDemand f name) : ¬ (r.NullKey f name ∨ r.NullRow f name) := by
  intro null
  obtain ⟨notes, alone⟩ := h.alone
  cases (alone.eq_of_runs (runs_of_null null (Bindings.start 0))).1

/-- A null key column or a null row is taken for its argument whatever else the request says. -/
theorem settles_of_null (h : r.NullKey f name ∨ r.NullRow f name) :
    ∃ notes, Settles (r.rootValue f name) (some .null) notes := by
  have root : Runs (r.rootValue f name) (Bindings.start 0) (some .null) (Bindings.start 0) := by
    rw [rootValue_eq]
    exact runs_bind.2 ⟨_, _, runs_of_null h _, runs_pure.2 ⟨rfl, rfl⟩⟩
  exact uniform_rootValue r f name _ _ _ root

/-! ### All arguments -/

theorem found_eq {notes : List Diagnostic} (h : Settles (r.rootValue f name) o notes) :
    r.found f name = (o, notes) := by
  have run : (r.rootValue f name).result (Bindings.start 0) = .ok (o, _) := h _
  rw [found, run]
  rfl

variable {arguments : List ArgumentDef} {bound : List BoundArgument}

/-- Binding arguments, if it succeeds, fills the slots that the request has values for, and what it
has for each argument is settled. -/
theorem BoundEach.adds (h : BoundEach r f arguments b bound b') :
    b.Adds (r.slotsAmong f arguments) (r.notesOn f arguments) b' ∧
      bound = Slot.bound b.counter (r.slotsAmong f arguments) ∧
      ∀ a ∈ arguments, OnlyReports (r.rootValue f a.name) := by
  induction h with
  | nil => exact ⟨Bindings.adds_nil _, rfl, nofun⟩
  | @skip a rest bound b b₁ b' unfilled others ih =>
    obtain ⟨notes, settles⟩ := uniform_rootValue _ _ _ _ _ _ unfilled
    obtain ⟨_, rfl⟩ := settles.eq_of_runs unfilled
    obtain ⟨adds, same, settled⟩ := ih
    have slots : r.slotsAmong f (a :: rest) = r.slotsAmong f rest :=
      List.filterMap_cons_none (by rw [slot?, found_eq settles]; rfl)
    have noted : r.notesOn f (a :: rest) = notes ++ r.notesOn f rest := by
      rw [notesOn, List.flatMap_cons, found_eq settles]
      rfl
    rw [slots, noted]
    exact ⟨(b.adds_reports notes).trans adds, same,
      List.forall_mem_cons.2 ⟨⟨none, notes, settles⟩, settled⟩⟩
  | @take a rest bound v used b b₁ b₂ b' filled binds others ih =>
    obtain ⟨notes, settles⟩ := uniform_rootValue _ _ _ _ _ _ filled
    obtain ⟨_, rfl⟩ := settles.eq_of_runs filled
    obtain ⟨adds, same, settled⟩ := ih
    obtain ⟨first, one⟩ := Bindings.adds_of_bind a.name.text binds
    have slots : r.slotsAmong f (a :: rest) = [⟨a.name.text, a, v⟩] ++ r.slotsAmong f rest :=
      List.filterMap_cons_some (by rw [slot?, found_eq settles]; rfl)
    have noted : r.notesOn f (a :: rest) = (notes ++ []) ++ r.notesOn f rest := by
      rw [notesOn, List.flatMap_cons, found_eq settles, List.append_nil]
      rfl
    rw [slots, noted]
    refine ⟨((b.adds_reports notes).trans first).trans adds, ?_,
      List.forall_mem_cons.2 ⟨⟨some v, notes, settles⟩, settled⟩⟩
    rw [Slot.bound_append, same, first.counter]
    exact congrArg (· ++ _) one

theorem mem_slotsAmong {x : Slot} : x ∈ r.slotsAmong f arguments ↔
    ∃ a ∈ arguments, ∃ v, (r.found f a.name).1 = some v ∧ x = ⟨a.name.text, a, v⟩ := by
  rw [slotsAmong, List.mem_filterMap]
  constructor
  · rintro ⟨a, ha, filled⟩
    obtain ⟨v, has, rfl⟩ := Option.map_eq_some_iff.1 filled
    exact ⟨a, ha, v, has, rfl⟩
  · rintro ⟨a, ha, v, has, rfl⟩
    exact ⟨a, ha, Option.map_eq_some_iff.2 ⟨v, has, rfl⟩⟩

/-- The arguments of the root field that are bound, whatever is gathered before: each of them is
null on demand, or because a key column is, or because the only row is, and it has a value
otherwise. All nulls are on demand just if there is no such key column and no such row among the
arguments that the field declares. -/
theorem nulls_of_bindRoot (h : Runs (r.bindRoot f) b bound b') :
    ∃ slots notes, (slots.map Slot.argument).Sublist f.arguments ∧
      bound = Slot.bound b.counter slots ∧ b.Adds slots notes b' ∧
      (∀ x ∈ slots, x.name = x.argument.name.text ∧
        (x.value = .null ↔ r.OnDemand f x.argument.name ∨
          r.NullKey f x.argument.name ∨ r.NullRow f x.argument.name)) ∧
      ((∀ x ∈ slots, x.value = .null → r.OnDemand f x.argument.name) ↔
        ∀ a ∈ f.arguments, ¬ r.NullKey f a.name ∧ ¬ r.NullRow f a.name) := by
  obtain ⟨adds, same, settled⟩ := (boundEach_of_runs h).adds
  have each : ∀ x ∈ r.slotsAmong f f.arguments, x.name = x.argument.name.text ∧
      (x.value = .null ↔ r.OnDemand f x.argument.name ∨
        r.NullKey f x.argument.name ∨ r.NullRow f x.argument.name) := by
    intro x hx
    obtain ⟨a, ha, v, has, rfl⟩ := mem_slotsAmong.1 hx
    obtain ⟨o, notes, settles⟩ := settled a ha
    rw [found_eq settles] at has
    cases has
    exact ⟨rfl, null_iff settles⟩
  refine ⟨_, _, ?_, same, adds, each, ?_, ?_⟩
  · rw [map_argument_slotsAmong]
    exact List.filter_sublist
  · intro demanded a ha
    refine not_or.1 fun null => ?_
    obtain ⟨notes, settles⟩ := settles_of_null null
    have hx : ⟨a.name.text, a, .null⟩ ∈ r.slotsAmong f f.arguments :=
      mem_slotsAmong.2 ⟨a, ha, .null, by rw [found_eq settles], rfl⟩
    exact (demanded _ hx rfl).not_null null
  · intro none' x hx null
    obtain ⟨a, ha, v, has, rfl⟩ := mem_slotsAmong.1 hx
    exact ((each _ hx).2.1 null).resolve_right (not_or.2 (none' a ha))

end Request

namespace Sample

/-- A field for one user by key, of a version that need not be given. -/
def userByKey : FieldDef where
  name := .str "users_by_pk"
  type := .named .object "User"
  arguments := [⟨.str "id", .nonNull (.named .scalar "Int"), default⟩,
    ⟨.str "version", .named .scalar "Int", default⟩]

/-- A request for the user of a key, in any version. -/
def anyVersion (key : Value) : Request := (Request.ofValue (.obj [("operation", .str "query"),
  ("collection", .str "users"), ("pk_columns", .obj [("id", key)]),
  ("arguments", .obj [("version", .null)])])).toOption.get (by rfl)

end Sample

namespace Request

/-- The key is not null, and the version is null on demand. -/
theorem nulls_of_bindRoot_userByKey : ∃ bound b' slots,
    Runs ((Sample.anyVersion (.int 1)).bindRoot Sample.userByKey) (Bindings.start 1) bound b' ∧
      b'.variableValues = [("v1", .int 1), ("v2", .null)] ∧ bound = Slot.bound 1 slots ∧
      ∀ x ∈ slots, x.value = .null →
        (Sample.anyVersion (.int 1)).OnDemand Sample.userByKey x.argument.name := by
  obtain ⟨p, ran, values⟩ : ∃ p, ((Sample.anyVersion (.int 1)).bindRoot Sample.userByKey).result
      (Bindings.start 1) = .ok p ∧ p.2.variableValues = [("v1", .int 1), ("v2", .null)] :=
    exists_of_toOption_map (by decide +kernel)
  obtain ⟨slots, notes, _, same, _, _, demanded⟩ := nulls_of_bindRoot ran
  refine ⟨p.1, p.2, slots, ran, values, same, demanded.2 ?_⟩
  have named (a : ArgumentDef) (ha : a ∈ Sample.userByKey.arguments) :
      a.name = .str "id" ∨ a.name = .str "version" := by
    rcases List.mem_pair.1 ha with rfl | rfl
    · exact .inl rfl
    · exact .inr rfl
  intro a ha
  constructor
  · intro nullKey
    rcases named a ha with name | name <;> rw [name] at nullKey
    · cases nullKey.null
    · cases nullKey.given
  · intro nullRow
    rcases named a ha with name | name <;>
      exact absurd (name.symm.trans nullRow.argument) (by decide)

/-- A key column that is null is passed as null, although the further arguments say nothing of it.
-/
theorem null_undemanded : ∃ bound b',
    Runs ((Sample.anyVersion .null).bindRoot Sample.userByKey) (Bindings.start 1) bound b' ∧
      bound.head? = some ⟨"id", "v1"⟩ ∧ b'.variableMap.lookup "v1" = some .null ∧
      (Sample.anyVersion .null).furtherValue? (.str "id") = .ok none := by
  obtain ⟨p, ran, shape⟩ : ∃ p, ((Sample.anyVersion .null).bindRoot Sample.userByKey).result
      (Bindings.start 1) = .ok p ∧ (p.1.head?, p.2.variableMap.lookup "v1") =
        (some ⟨"id", "v1"⟩, some .null) := exists_of_toOption_map (by decide +kernel)
  obtain ⟨bound, null⟩ := Prod.mk.inj shape
  exact ⟨p.1, p.2, ran, bound, null, by rfl⟩

end Request

end GraphRequest
