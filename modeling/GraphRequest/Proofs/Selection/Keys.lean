import GraphRequest.Proofs.Selection.Leaves
import GraphRequest.Proofs.Selection.Slots

/-!
# What the keys of a nested field are used for

An object below a field mixes arguments of the field with fields below it. Its keys are told apart
twice: when the object is read, by their names alone, and when its field is compiled, by what the
schema says about the field. In the end every key has exactly one use: it names the alias, or holds
the wanted fields, or is an argument and bound to a variable, or is an argument that the field does
not declare and reported, or is a wanted field itself.

* `Use`, `Entry.use`: the uses of a key, and the one that it has on a field.
* `Entry.LastWins`: the entries that are left when later ones override earlier ones in place.
* `Entry.uses_of_compile`: compiling a nested field puts every key to its use.
-/

namespace GraphRequest

open Step

/-- What a key of an object below a field is used for. -/
inductive Use
  /-- It holds the alias of the field. -/
  | aliasName
  /-- It holds the fields wanted below the field. -/
  | selection
  /-- It is an argument of the field. -/
  | argument
  /-- It is an argument that the field does not declare. -/
  | unknown
  /-- It is a field wanted below the field. -/
  | entry
deriving DecidableEq

/-! ### Supplied arguments -/

namespace Slot

/-- A slot as the member of an object that fills it. -/
def member (x : Slot) : String × Value := (x.name, x.value)

theorem bound_eq (n : Int) (slots : List Slot) : bound n slots =
    (slots.map member).mapIdx fun k m => ⟨m.1, Bindings.variableName (n + k)⟩ := by
  apply List.ext_getElem <;> simp [bound, member]

theorem values_eq (n : Int) (slots : List Slot) : values n slots =
    (slots.map member).mapIdx fun k m => (Bindings.variableName (n + k), m.2) := by
  apply List.ext_getElem <;> simp [values, member]

end Slot

namespace FieldDef

variable {f : FieldDef} {arguments : Fields}

/-- Arguments that are supplied once each fill one slot each, if the field declares them. -/
theorem map_member_slotsFrom {done : List String} (distinct : (Keyed.keys arguments).Nodup)
    (new : ∀ name ∈ Keyed.keys arguments, name ∉ done) :
    (f.slotsFrom done arguments).map Slot.member = arguments.filter fun m => f.declares m.1 := by
  induction arguments generalizing done with
  | nil => rfl
  | cons m rest ih =>
    obtain ⟨name, v⟩ := m
    rw [Keyed.keys_cons, List.nodup_cons] at distinct
    have here : name ∉ done := new name (.head _)
    have others (other : String) (h : other ∈ Keyed.keys rest) : other ∉ done :=
      new other (.tail _ h)
    cases found : f.argument? (.str name) with
    | none =>
      have unknown : f.declares name = false := by rw [declares, found]; rfl
      rw [slotsFrom_cons_of_skipped (by rw [admits, unknown]; rfl), ih distinct.2 others,
        List.filter_cons_of_neg (by simp [unknown])]
    | some a =>
      have declared : f.declares name = true := by rw [declares, found]; rfl
      have later (other : String) (h : other ∈ Keyed.keys rest) : other ∉ name :: done := by
        rintro (_ | ⟨_, used⟩)
        · exact distinct.1 h
        · exact others other h used
      rw [slotsFrom_cons_of_admitted found (by simpa using here), List.map_cons,
        ih distinct.2 later, List.filter_cons_of_pos (by simpa using declared)]
      rfl

theorem map_member_slots (distinct : (Keyed.keys arguments).Nodup) :
    (f.slots arguments).map Slot.member = arguments.filter fun m => f.declares m.1 :=
  map_member_slotsFrom distinct fun _ _ => List.not_mem_nil

/-- Some members of an object are passed as arguments, each under its key as the next variable,
which holds its value. Others are reported, each as an argument that the field does not declare.
Nothing else happens. -/
structure BindsMembers (f : FieldDef) (path : List String) (passed unknown : Fields) (b : Bindings)
    (bound : List BoundArgument) (b' : Bindings) : Prop where
  bound : bound = passed.mapIdx fun k m => ⟨m.1, Bindings.variableName (b.counter + k)⟩
  counter : b'.counter = b.counter + passed.length
  values : b'.variableValues = b.variableValues ++
    passed.mapIdx fun k m => (Bindings.variableName (b.counter + k), m.2)
  diagnostics : b'.diagnostics = b.diagnostics ++ unknown.map fun m => f.undeclared path m.1

/-- Of arguments that are supplied once each, those that the field declares are passed and the
others are reported. -/
theorem bindsMembers_of_bindNested {path : List String} {b b' : Bindings}
    {bound : List BoundArgument} (distinct : (Keyed.keys arguments).Nodup)
    (h : Runs (f.bindNested path arguments) b bound b') :
    f.BindsMembers path (arguments.filter fun m => f.declares m.1)
      (arguments.filter fun m => !f.declares m.1) b bound b' := by
  obtain ⟨adds, same⟩ := adds_of_bindNested h
  rw [← map_member_slots distinct]
  refine ⟨?_, ?_, ?_, ?_⟩
  · rw [same, Slot.bound_eq]
  · rw [adds.counter, List.length_map]
  · rw [adds.values, Slot.values_eq]
  · rw [adds.diagnostics, unknownNames, Keyed.keys, List.filter_map, List.map_map]
    rfl

end FieldDef

/-! ### Fresh variables -/

namespace Bindings

/-- Later bindings with more variables, which take up the numbering, and more diagnostics behind the
earlier ones. -/
structure Continues (b b' : Bindings) : Prop where
  le : b.counter ≤ b'.counter
  values : ∃ later, b'.variableValues = b.variableValues ++ later ∧
    Keyed.keys later = namesBetween b.counter b'.counter
  diagnostics : b.diagnostics <+: b'.diagnostics

theorem Continues.trans {b b₁ b' : Bindings} (first : b.Continues b₁) (second : b₁.Continues b') :
    b.Continues b' := by
  obtain ⟨xs, values, names⟩ := first.values
  obtain ⟨ys, values', names'⟩ := second.values
  refine ⟨Int.le_trans first.le second.le, ⟨xs ++ ys, ?_, ?_⟩,
    first.diagnostics.trans second.diagnostics⟩
  · rw [values', values, List.append_assoc]
  · rw [Keyed.keys, List.map_append]
    exact (congrArg₂ (· ++ ·) names names').trans (namesBetween_append first.le second.le)

theorem allows_continues : Allows (fun _ => True) (fun _ => True) Continues where
  refl b := ⟨Int.le_refl _, ⟨[], (List.append_nil _).symm, (namesBetween_self _).symm⟩,
    List.prefix_rfl⟩
  trans := Continues.trans
  report b d _ := ⟨Int.le_refl _, ⟨[], (List.append_nil _).symm, (namesBetween_self _).symm⟩,
    List.prefix_append _ _⟩
  bind b a v name b' _ bound := by
    obtain ⟨rfl, values⟩ := bind_variableValues bound
    have counter := bind_counter bound
    refine ⟨by omega, ⟨_, values, ?_⟩, by simp [bind_diagnostics bound]⟩
    rw [counter, namesBetween_succ (Int.le_refl _), namesBetween_self]
    rfl

theorem variableName_mem {first next n : Int} (h : first ≤ n) (h' : n < next) :
    variableName n ∈ namesBetween first next := by
  have place : first + ((n - first).toNat : Int) = n := by omega
  exact List.mem_map.2 ⟨(n - first).toNat, List.mem_range.2 (by omega), congrArg _ place⟩

/-- A variable that is numbered behind the earlier ones occurs once among the later ones. -/
theorem Continues.count {b b' : Bindings} (h : b.Continues b')
    (earlier : ∀ name ∈ Keyed.keys b.variableValues, ∃ n, n < b.counter ∧ name = variableName n)
    {name : String} (new : name ∈ namesBetween b.counter b'.counter) :
    (Keyed.keys b'.variableValues).count name = 1 := by
  have unused : name ∉ Keyed.keys b.variableValues := by
    intro used
    obtain ⟨m, below, rfl⟩ := earlier name used
    obtain ⟨n, above, _, same⟩ := mem_namesBetween new
    have := variableName_inj same
    omega
  obtain ⟨later, values, names⟩ := h.values
  have keys : Keyed.keys b'.variableValues =
      Keyed.keys b.variableValues ++ namesBetween b.counter b'.counter := by
    rw [← names, values, Keyed.keys, List.map_append]
    rfl
  rw [keys, List.count_append, List.count_eq_zero.2 unused,
    List.count_eq_one_of_mem (namesBetween_nodup _ _) new]

end Bindings

namespace Entry

/-! ### Merged entries -/

/-- The entries left of some entries where a later one for a field overrides an earlier one in
place. -/
structure LastWins (all kept : List Entry) : Prop where
  keys : kept.map key = (all.map key).eraseDups
  last : ∀ c ∈ kept, ∃ before after, all = before ++ c :: after ∧ ∀ d ∈ after, d.key ≠ c.key

theorem lastWins_merged (es : List Entry) : LastWins es (merged es) := by
  have keyed : ∀ p ∈ Keyed.merge (es.map fun e => (e.key, e)), p.1 = p.2.key := by
    intro p hp
    obtain ⟨e, _, rfl⟩ := List.mem_map.1 (Keyed.mem_of_mem_merge hp)
    rfl
  refine ⟨?_, fun c hc => ?_⟩
  · calc (merged es).map key
        = Keyed.keys (Keyed.merge (es.map fun e => (e.key, e))) := by
          rw [merged, List.map_map]
          exact List.map_congr_left fun p hp => (keyed p hp).symm
      _ = (es.map key).eraseDups := by
          rw [Keyed.keys_merge, Keyed.keys, List.map_map]
          rfl
  · obtain ⟨p, hp, rfl⟩ := List.mem_map.1 hc
    obtain ⟨before, after, split, last⟩ := Keyed.last_of_mem_merge hp
    obtain ⟨front, back, rfl, rfl, back_eq⟩ := List.map_eq_append_iff.1 split
    obtain ⟨c, behind, rfl, rfl, rfl⟩ := List.map_eq_cons_iff.1 back_eq
    exact ⟨front, behind, rfl, fun d hd => last _ (List.mem_map.2 ⟨d, hd, rfl⟩)⟩

/-! ### Reading an object -/

/-- A member of an object is about the field of its key, blanks at the ends apart. -/
theorem name?_of_ofPair {given : String} {v : Value} {e : Entry} (h : ofPair given v = .ok e) :
    e.name? = some (Text.strip given) ∧ Text.isBlankText given = false := by
  unfold ofPair at h
  split at h
  · cases h
  · rename_i visible
    refine ⟨?_, by simpa using visible⟩
    cases v with
    | int n => cases h
    | float d => cases h
    | arr items =>
      obtain ⟨children, _, h⟩ := bind_eq_ok.1 h
      cases h
      rfl
    | obj fields =>
      obtain ⟨aliasName, _, h⟩ := bind_eq_ok.1 h
      obtain ⟨returning, _, h⟩ := bind_eq_ok.1 h
      cases h
      rfl
    | _ =>
      cases h
      rfl

theorem key_of_ofPair {given : String} {v : Value} {e : Entry} (h : ofPair given v = .ok e) :
    e.key = Text.strip given :=
  key_of_name? (name?_of_ofPair h).1 (Text.strip_ne_empty (name?_of_ofPair h).2)

/-- The keys without fixed meaning that are arguments, among the members of an object. -/
theorem extraArguments_extrasIn (isArgument : String → Bool) (fields : Fields) :
    Schema.extraArguments isArgument (extrasIn fields) =
      fields.filter fun m => !reservedKeys.contains m.1 && isArgument m.1 := by
  induction fields with
  | nil => rfl
  | cons m rest ih =>
    obtain ⟨key, v⟩ := m
    rw [extrasIn]
    cases reserved : reservedKeys.contains key with
    | true => rw [if_pos rfl, List.filter_cons_of_neg (by rw [reserved]; exact nofun), ih]
    | false =>
      rw [if_neg Bool.false_ne_true]
      cases argument : isArgument key with
      | true =>
        rw [List.filter_cons_of_pos (by rw [reserved, argument]; rfl), ← ih, Schema.extraArguments,
          List.filter_cons_of_pos (by exact argument)]
        rfl
      | false =>
        rw [List.filter_cons_of_neg (by simp [argument]), ← ih, Schema.extraArguments,
          List.filter_cons_of_neg (by simpa [Extra.key] using argument)]
        rfl

/-- The keys without fixed meaning that are no arguments are read as wanted fields, in order. -/
theorem extraEntries_extrasIn {isArgument : String → Bool} {fields : Fields} {es : List Entry}
    (h : extraEntries isArgument (extrasIn fields) = .ok es) :
    List.Forall₂ (fun m e => ofPair m.1 m.2 = .ok e)
      (fields.filter fun m => !reservedKeys.contains m.1 && !isArgument m.1) es := by
  induction fields generalizing es with
  | nil =>
    cases h
    exact .nil
  | cons m rest ih =>
    obtain ⟨key, v⟩ := m
    rw [extrasIn] at h
    cases reserved : reservedKeys.contains key with
    | true =>
      rw [reserved, if_pos rfl] at h
      rw [List.filter_cons_of_neg (by rw [reserved]; exact nofun)]
      exact ih h
    | false =>
      rw [reserved, if_neg Bool.false_ne_true] at h
      simp only [extraEntries] at h
      cases argument : isArgument key with
      | true =>
        rw [argument, if_pos rfl] at h
        rw [List.filter_cons_of_neg (by simp [argument])]
        exact ih h
      | false =>
        rw [argument, if_neg Bool.false_ne_true] at h
        rw [List.filter_cons_of_pos (by rw [reserved, argument]; rfl)]
        split at h
        · cases h
        · rename_i e meaning
          obtain ⟨others, read, h⟩ := bind_eq_ok.1 h
          cases h
          exact .cons meaning (ih read)

/-! ### The use of a key -/

/-- The use of a key of an object below a field. A key that is no argument of every field is one if
the field declares it and the type that the field returns has no field of that name, but never below
the name of an aggregate. -/
def use (name : String) (f : FieldDef) (returned : Option TypeDef) (key : String) : Use :=
  if key == "alias" then .aliasName
  else if key == "returning" then .selection
  else if argumentKeys.contains key then if f.declares key then .argument else .unknown
  else if isArgumentOf name f returned key then .argument
  else .entry

/-- The members of an object with a use, in order. -/
def membersFor (name : String) (f : FieldDef) (returned : Option TypeDef) (u : Use)
    (fields : Fields) : Fields :=
  fields.filter fun m => use name f returned m.1 == u

/-- The members of an object that are passed as arguments: first those under the names that
arguments commonly have, then the others. -/
def passedMembers (name : String) (f : FieldDef) (returned : Option TypeDef) (fields : Fields) :
    Fields :=
  let passed := membersFor name f returned .argument fields
  (passed.filter fun m => argumentKeys.contains m.1) ++
    passed.filter fun m => !argumentKeys.contains m.1

section

variable {name : String} {f : FieldDef} {returned : Option TypeDef} {fields : Fields}

/-- The three kinds of keys: common arguments, the other keys with a fixed meaning, and keys whose
meaning depends on the field. -/
theorem use_cases (name : String) (f : FieldDef) (returned : Option TypeDef) (key : String) :
    argumentKeys.contains key = true ∧ reservedKeys.contains key = true ∧
        use name f returned key = (if f.declares key then .argument else .unknown) ∨
      argumentKeys.contains key = false ∧ reservedKeys.contains key = true ∧
        (use name f returned key = .aliasName ∨ use name f returned key = .selection) ∨
      argumentKeys.contains key = false ∧ reservedKeys.contains key = false ∧
        use name f returned key =
          (if isArgumentOf name f returned key then .argument else .entry) := by
  rw [reservedKeys, List.contains_append]
  by_cases isAlias : key = "alias"
  · subst isAlias
    exact .inr (.inl ⟨by decide, by decide, .inl rfl⟩)
  by_cases isReturning : key = "returning"
  · subst isReturning
    exact .inr (.inl ⟨by decide, by decide, .inr rfl⟩)
  have other : ["alias", "returning"].contains key = false := by simp [isAlias, isReturning]
  rw [other, Bool.or_false, use, if_neg (by simpa using isAlias),
    if_neg (by simpa using isReturning)]
  cases argumentKeys.contains key with
  | true => exact .inl ⟨rfl, rfl, rfl⟩
  | false => exact .inr (.inr ⟨rfl, rfl, rfl⟩)

theorem declares_of_isArgumentOf {key : String} (h : isArgumentOf name f returned key = true) :
    f.declares key = true := by
  simp only [isArgumentOf, Schema.isArgumentKey, Bool.and_eq_true] at h
  exact h.2.1

/-- The members that are supplied as arguments: the common ones, and the others that the field
declares. -/
def suppliedMembers (name : String) (f : FieldDef) (returned : Option TypeDef) (fields : Fields) :
    Fields :=
  (fields.filter fun m => argumentKeys.contains m.1) ++
    fields.filter fun m => !reservedKeys.contains m.1 && isArgumentOf name f returned m.1

/-- Of the supplied members those are passed that the field declares. -/
theorem filter_declares_supplied :
    (suppliedMembers name f returned fields).filter (fun m => f.declares m.1) =
      passedMembers name f returned fields := by
  have common (m : String × Value) : (f.declares m.1 && argumentKeys.contains m.1) =
      (argumentKeys.contains m.1 && use name f returned m.1 == .argument) := by
    obtain ⟨h, _, same⟩ | ⟨h, _, _⟩ | ⟨h, _, _⟩ := use_cases name f returned m.1
    · rw [h, same]
      cases f.declares m.1 <;> rfl
    · rw [h, Bool.and_false, Bool.false_and]
    · rw [h, Bool.and_false, Bool.false_and]
  have further (m : String × Value) : (f.declares m.1 && (!reservedKeys.contains m.1 &&
      isArgumentOf name f returned m.1)) =
      (!argumentKeys.contains m.1 && use name f returned m.1 == .argument) := by
    obtain ⟨h, h', _⟩ | ⟨h, h', same | same⟩ | ⟨h, h', same⟩ := use_cases name f returned m.1
    · rw [h, h', Bool.not_true, Bool.false_and, Bool.and_false, Bool.false_and]
    · rw [h, h', same, Bool.not_true, Bool.false_and, Bool.and_false]
      rfl
    · rw [h, h', same, Bool.not_true, Bool.false_and, Bool.and_false]
      rfl
    · rw [h, h', same]
      cases is : isArgumentOf name f returned m.1 with
      | true => rw [declares_of_isArgumentOf is]; rfl
      | false => rw [Bool.and_false, Bool.and_false]; rfl
  rw [suppliedMembers, List.filter_append, passedMembers, membersFor]
  simp only [List.filter_filter, common, further]

/-- Of the supplied members those are reported that the field does not declare. -/
theorem filter_not_declares_supplied :
    (suppliedMembers name f returned fields).filter (fun m => !f.declares m.1) =
      membersFor name f returned .unknown fields := by
  have common (m : String × Value) : (!f.declares m.1 && argumentKeys.contains m.1) =
      (use name f returned m.1 == .unknown) := by
    obtain ⟨h, _, same⟩ | ⟨h, _, same | same⟩ | ⟨h, _, same⟩ := use_cases name f returned m.1
    · rw [h, same]
      cases f.declares m.1 <;> rfl
    · rw [h, same, Bool.and_false]
      rfl
    · rw [h, same, Bool.and_false]
      rfl
    · rw [h, same, Bool.and_false]
      cases isArgumentOf name f returned m.1 <;> rfl
  have further (m : String × Value) : (!f.declares m.1 && (!reservedKeys.contains m.1 &&
      isArgumentOf name f returned m.1)) = false := by
    cases is : isArgumentOf name f returned m.1 with
    | true => rw [declares_of_isArgumentOf is]; rfl
    | false => rw [Bool.and_false, Bool.and_false]
  rw [suppliedMembers, List.filter_append, membersFor]
  simp only [List.filter_filter, common, further, List.filter_false, List.append_nil]

theorem filter_entry : (fields.filter fun m => !reservedKeys.contains m.1 &&
      !isArgumentOf name f returned m.1) = membersFor name f returned .entry fields := by
  refine List.filter_congr fun m _ => ?_
  obtain ⟨_, h, same⟩ | ⟨_, h, same | same⟩ | ⟨_, h, same⟩ := use_cases name f returned m.1
  · rw [h, same]
    cases f.declares m.1 <;> rfl
  · rw [h, same]
    rfl
  · rw [h, same]
    rfl
  · rw [h, same]
    cases isArgumentOf name f returned m.1 <;> rfl

/-- Members of an object with different keys are supplied under different names. -/
theorem keys_supplied_nodup (distinct : (Keyed.keys fields).Nodup) :
    (Keyed.keys (suppliedMembers name f returned fields)).Nodup := by
  rw [Keyed.keys, suppliedMembers, List.map_append]
  refine ((List.filter_sublist.map _).nodup distinct).append
    ((List.filter_sublist.map _).nodup distinct) ?_
  intro key common further
  obtain ⟨m, hm, rfl⟩ := List.mem_map.1 common
  obtain ⟨m', hm', same⟩ := List.mem_map.1 further
  have reserved := (List.mem_filter.1 hm).2
  have free := (Bool.and_eq_true_iff.1 (List.mem_filter.1 hm').2).1
  rw [same, reservedKeys, List.contains_append, reserved] at free
  cases free

end

/-! ### Compiling a nested field -/

/-- An object below a field is read as the alias, the common arguments, the wanted fields and the
other keys. -/
theorem eq_nested_of_ofPair {given : String} {fields : Fields} {e : Entry}
    (h : ofPair given (.obj fields) = .ok e) : ∃ aliasName returning,
      aliasIn (Text.strip given) fields = .ok aliasName ∧ returningIn fields = .ok returning ∧
      e = .nested (Text.strip given) aliasName (fields.filter fun m => argumentKeys.contains m.1)
        returning (extrasIn fields) := by
  unfold ofPair at h
  split at h
  · cases h
  · obtain ⟨aliasName, aliased, h⟩ := bind_eq_ok.1 h
    obtain ⟨returning, wanted, h⟩ := bind_eq_ok.1 h
    cases h
    exact ⟨aliasName, returning, aliased, wanted, rfl⟩

/-- A nested field that compiles and is declared binds its arguments, compiles what is wanted below
it and gets its body. -/
theorem runs_compile_nested {s : Schema} {name : String} {aliasName : Option String}
    {arguments : Fields} {returning : Option (List Entry)} {extras : List Extra} {parent : Value}
    {path : List String} {f : FieldDef} {b b' : Bindings} {o : Option Item}
    (found : s.field parent (.str name) = .ok (some f))
    (h : Runs ((nested name aliasName arguments returning extras).compile s parent path) b o b') :
    ∃ base returned more children bound b₁ items body,
      f.base = .ok base ∧ s.typeNamed base.name = .ok returned ∧
      extraEntries (isArgumentOf name f returned) extras = .ok more ∧
      (Naming.isAggregate name = true → LastWins (returning.getD [] ++ more) children) ∧
      (Naming.isAggregate name = false → children = returning.getD [] ++ more) ∧
      Runs (f.bindNested (path ++ [name])
        (arguments ++ Schema.extraArguments (isArgumentOf name f returned) extras)) b bound b₁ ∧
      Runs (s.compileAll children base.name (path ++ [name])) b₁ items b' ∧
      s.body items base.name (Naming.isAggregate name) = .ok body ∧
      o = some (.field (usedAlias aliasName) name bound body) := by
  cases compiled_of_runs h with
  | unknown _ named missing =>
    cases named
    cases found.symm.trans missing
  | field named found' returns wants binds compiles bodied =>
    cases named
    cases found.symm.trans found'
    cases wants with
    | nested typed below =>
      obtain ⟨more, extra, below⟩ := bind_eq_ok.1 below
      cases below
      refine ⟨_, _, more, _, _, _, _, _, returns, typed, extra, fun aggregate => ?_,
        fun single => ?_, binds, compiles, bodied, rfl⟩
      · rw [if_pos aggregate]
        exact lastWins_merged _
      · rw [single]
        rfl

/-- Every key of an object below a field that compiles has exactly one use. The arguments among its
members are bound to fresh variables that hold their values, in order, and each argument that the
field does not declare is reported. All other members that neither name an alias nor hold the wanted
fields are themselves read as wanted fields and compiled behind these. Below an aggregate each of
them that is about a field wanted before takes the place of the earlier one. -/
theorem uses_of_compile {s : Schema} {given : String} {fields : Fields} {e : Entry} {parent : Value}
    {path : List String} {f : FieldDef} {b b' : Bindings} {o : Option Item}
    (distinct : (Keyed.keys fields).Nodup) (read : ofPair given (.obj fields) = .ok e)
    (found : s.field parent (.str (Text.strip given)) = .ok (some f))
    (h : Runs (e.compile s parent path) b o b') :
    ∃ name base returned aliasName returning more children bound b₁ items body,
      name = Text.strip given ∧ f.base = .ok base ∧ s.typeNamed base.name = .ok returned ∧
      aliasIn name fields = .ok aliasName ∧ returningIn fields = .ok returning ∧
      f.BindsMembers (path ++ [name]) (passedMembers name f returned fields)
        (membersFor name f returned .unknown fields) b bound b₁ ∧
      b₁.Continues b' ∧
      ((∀ v ∈ Keyed.keys b.variableValues, ∃ n, n < b.counter ∧ v = Bindings.variableName n) →
        ∀ a ∈ bound, (Keyed.keys b'.variableValues).count a.variableName = 1) ∧
      List.Forall₂ (fun m c => ofPair m.1 m.2 = .ok c ∧ c.key = Text.strip m.1)
        (membersFor name f returned .entry fields) more ∧
      (if Naming.isAggregate name then LastWins (returning.getD [] ++ more) children
        else children = returning.getD [] ++ more) ∧
      Runs (s.compileAll children base.name (path ++ [name])) b₁ items b' ∧
      s.body items base.name (Naming.isAggregate name) = .ok body ∧
      o = some (.field (usedAlias aliasName) name bound body) := by
  obtain ⟨aliasName, returning, aliased, wanted, rfl⟩ := eq_nested_of_ofPair read
  obtain ⟨base, returned, more, children, bound, b₁, items, body, returns, typed, extra, merged,
    plain, binds, compiles, bodied, rfl⟩ := runs_compile_nested found h
  generalize Text.strip given = name at *
  have continues : b.Continues b₁ := FieldDef.within_bindNestedFrom Bindings.allows_continues
    trivial (fun _ _ => trivial) _ _ _ _ _ _ binds
  have continues' : b₁.Continues b' := Schema.within_entries Bindings.allows_continues
    (fun _ _ => trivial) s.offers_true _ _ _ _ _ _ compiles
  rw [extraArguments_extrasIn] at binds
  have supplied : (Keyed.keys (suppliedMembers name f returned fields)).Nodup :=
    keys_supplied_nodup distinct
  have members := FieldDef.bindsMembers_of_bindNested supplied binds
  rw [filter_declares_supplied, filter_not_declares_supplied] at members
  refine ⟨name, base, returned, aliasName, returning, more, children, bound, b₁, items, body, rfl,
    returns, typed, aliased, wanted, members, continues', fun earlier a ha => ?_, ?_, ?_,
    compiles, bodied, rfl⟩
  · rw [members.bound] at ha
    obtain ⟨k, hk, rfl⟩ := List.mem_mapIdx.1 ha
    have counter := members.counter
    have le := continues'.le
    refine (continues.trans continues').count earlier (Bindings.variableName_mem ?_ ?_) <;> omega
  · rw [← filter_entry]
    exact (extraEntries_extrasIn extra).imp fun m c read => ⟨read, key_of_ofPair read⟩
  · cases aggregate : Naming.isAggregate name with
    | true => exact merged aggregate
    | false => exact plain aggregate

end Entry

namespace Sample

/-- The statistics of a board by another name: a column, a field below, and an argument that
statistics do not take. -/
def stats : Fields :=
  [("alias", .str "s"), ("limit", .int 3), ("at", .bool true), ("columns", .arr [.str "id"])]

/-- Statistics are a field of boards, on which each of these keys has another use. -/
theorem exists_stats : ∃ f base returned,
    boards.field (.str "Board") (.str "stats") = .ok (some f) ∧ f.base = .ok base ∧
    boards.typeNamed base.name = .ok returned ∧
    stats.map (fun m => Entry.use "stats" f returned m.1) =
      [.aliasName, .unknown, .entry, .argument] := by
  obtain ⟨o, found, below⟩ : ∃ o, boards.field (.str "Board") (.str "stats") = .ok o ∧
      o.map (fun f => f.base.toOption.map fun base =>
        (boards.typeNamed base.name).toOption.map fun returned =>
          stats.map fun m => Entry.use "stats" f returned m.1) =
        some (some (some [.aliasName, .unknown, .entry, .argument])) :=
    exists_of_toOption_map (by decide +kernel)
  obtain ⟨f, rfl, returning⟩ := Option.map_eq_some_iff.1 below
  obtain ⟨base, returns, typing⟩ := exists_of_toOption_map returning
  obtain ⟨returned, typed, uses⟩ := exists_of_toOption_map typing
  exact ⟨f, base, returned, found, returns, typed, uses⟩

theorem exists_compile_stats : ∃ e o b', Entry.ofPair "stats" (.obj stats) = .ok e ∧
    Runs (e.compile boards (.str "Board") []) (Bindings.start 1) o b' ∧
    o.map Item.text = some "s: stats(columns: $v1) \x7b\n  at\n\x7d" := by
  obtain ⟨e, read, compiles⟩ : ∃ e, Entry.ofPair "stats" (.obj stats) = .ok e ∧
      ((e.compile boards (.str "Board") []).result (Bindings.start 1)).toOption.map
        (fun p => p.1.map Item.text) = some (some "s: stats(columns: $v1) \x7b\n  at\n\x7d") :=
    exists_of_toOption_map (by decide +kernel)
  obtain ⟨⟨o, b'⟩, run, text⟩ := exists_of_toOption_map compiles
  exact ⟨e, o, b', read, run, text⟩

end Sample

namespace Entry

/-- The columns are passed, the limit is reported, and the field below is selected. -/
theorem uses_of_compile_stats : ∃ (e : Entry) (o : Option Item) (b₁ b' : Bindings) (f : FieldDef)
    (bound : List BoundArgument), ofPair "stats" (.obj Sample.stats) = .ok e ∧
    Runs (e.compile Sample.boards (.str "Board") []) (Bindings.start 1) o b' ∧
    o.map Item.text = some "s: stats(columns: $v1) \x7b\n  at\n\x7d" ∧
    f.BindsMembers ["stats"] [("columns", .arr [.str "id"])] [("limit", .int 3)]
      (Bindings.start 1) bound b₁ ∧ b₁.Continues b' ∧
    ∀ a ∈ bound, (Keyed.keys b'.variableValues).count a.variableName = 1 := by
  obtain ⟨e, o, b', read, run, text⟩ := Sample.exists_compile_stats
  obtain ⟨f, base, returned, found, returns, typed, uses⟩ := Sample.exists_stats
  have stripped : Text.strip "stats" = "stats" := by decide
  obtain ⟨_, _, _, _, _, _, _, bound, b₁, _, _, rfl, returns', typed', _, _, members, continues,
    fresh, _⟩ := uses_of_compile (by decide) read (by rw [stripped]; exact found) run
  cases returns.symm.trans returns'
  cases typed.symm.trans typed'
  rw [stripped] at members
  simp only [Sample.stats, List.map_cons, List.map_nil, List.cons.injEq, and_true] at uses
  obtain ⟨first, second, third, fourth⟩ := uses
  refine ⟨e, o, b₁, b', f, bound, read, run, text, ?_, continues, fresh nofun⟩
  simpa [passedMembers, membersFor, Sample.stats, first, second, third, fourth, argumentKeys]
    using members

end Entry

end GraphRequest
