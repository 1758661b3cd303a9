import GraphRequest.Proofs.Query.Visited

/-!
# Arguments that are given more than once

The arguments of a field below the root come as a list, in which a name may come more than once and
the field need not declare it. A name that the field declares is bound where it comes first and has
no effect from then on. A name that the field does not declare is reported wherever it comes.

* `FieldDef.TakesFirst`: slots for the first occurrences of the declared names.
* `FieldDef.bindNested_repeated`: another occurrence of a declared name changes nothing.
* `FieldDef.bindNested_takesFirst`: what is bound, what is declared for it and what is reported.
-/

namespace GraphRequest

open Step

/-! ### Types -/

/-- A variable is declared with the written type of an argument. If this type is a name that takes
a mark whenever it is written, it is declared with the name. -/
def DeclaredType.Writes (type : DeclaredType) (a : ArgumentDef) : Prop :=
  ∃ w, a.type.wire = .ok w ∧ (type = .text w.text ∨
    ∃ items, w = .arr (items ++ [Value.str "!"]) ∧ type = .growing items a.mark)

theorem BaseType.wire_of_growingName? {base : BaseType} {items : List Value}
    (h : base.growingName? = some items) : base.wire = .ok (.arr (items ++ [Value.str "!"])) := by
  unfold growingName? at h
  split at h
  · rename_i flags
    obtain ⟨nonNull, unlisted⟩ := Bool.and_eq_true_iff.1 flags
    split at h
    · rename_i _ named
      cases h
      rw [wire, if_pos nonNull, nullableWire, if_neg (by simpa using unlisted), named]
    · cases h
  · cases h

theorem DeclaredType.writes_of_ofArgument {a : ArgumentDef} {type : DeclaredType}
    (h : DeclaredType.ofArgument a = .ok type) : type.Writes a := by
  unfold ofArgument at h
  obtain ⟨base, named, h⟩ := bind_eq_ok.1 h
  have wire : a.type.wire = base.wire := by
    rw [TypeRef.wire, named]
    rfl
  unfold Writes
  rw [wire]
  cases grows : base.growingName? with
  | some items =>
    simp only [grows] at h
    cases h
    exact ⟨_, BaseType.wire_of_growingName? grows, .inr ⟨items, rfl, rfl⟩⟩
  | none =>
    simp only [grows] at h
    obtain ⟨w, written, h⟩ := bind_eq_ok.1 h
    cases h
    exact ⟨w, written, .inl rfl⟩

namespace FieldDef

variable {f : FieldDef} {arguments : Fields}

/-! ### First occurrences -/

/-- Slots for the names among some arguments that the field declares, each where it comes first and
with the value that it has there. -/
structure TakesFirst (f : FieldDef) (arguments : Fields) (slots : List Slot) : Prop where
  names : slots.map Slot.name = ((Keyed.keys arguments).filter f.declares).eraseDups
  distinct : (slots.map Slot.name).Nodup
  declared : ∀ x ∈ slots, f.argument? (.str x.name) = some x.argument
  first : ∀ x ∈ slots, ∃ before after, arguments = before ++ (x.name, x.value) :: after ∧
    x.name ∉ Keyed.keys before

/-- A name that the field declares and that is among the arguments fills a slot. -/
theorem exists_slot? {name : String} (is : f.declares name = true)
    (given : name ∈ Keyed.keys arguments) :
    ∃ x, f.slot? arguments name = some x ∧ x.name = name := by
  obtain ⟨a, found⟩ := Option.isSome_iff_exists.1 is
  obtain ⟨m, member, rfl⟩ := List.mem_map.1 given
  cases value : arguments.lookup m.1 with
  | none => exact absurd (List.lookup_eq_none_iff.1 value m member) (by simp)
  | some v => exact ⟨⟨m.1, a, v⟩, by rw [slot?, found, value]; rfl, rfl⟩

theorem map_name_filterMap_slot? {names : List String}
    (filled : ∀ name ∈ names, ∃ x, f.slot? arguments name = some x ∧ x.name = name) :
    (names.filterMap (f.slot? arguments)).map Slot.name = names := by
  induction names with
  | nil => rfl
  | cons name rest ih =>
    obtain ⟨x, slot, same⟩ := filled name (.head _)
    rw [List.filterMap_cons_some slot, List.map_cons, same, ih fun n hn => filled n (.tail _ hn)]

/-- The value in a slot is the one that its name has where it comes first. -/
theorem first_of_slot? {name : String} {x : Slot} (h : f.slot? arguments name = some x) :
    ∃ before after, arguments = before ++ (x.name, x.value) :: after ∧
      x.name ∉ Keyed.keys before := by
  obtain ⟨a, _, slot⟩ := Option.bind_eq_some_iff.1 h
  obtain ⟨v, value, rfl⟩ := Option.map_eq_some_iff.1 slot
  obtain ⟨before, after, whole, others⟩ := List.lookup_eq_some_iff.1 value
  refine ⟨before, after, whole, fun earlier => ?_⟩
  obtain ⟨m, member, same⟩ := List.mem_map.1 earlier
  have differ := others m member
  rw [same] at differ
  simp at differ

theorem takesFirst_slots (f : FieldDef) (arguments : Fields) :
    f.TakesFirst arguments (f.slots arguments) where
  names := by
    have admits : f.admits [] = f.declares := by
      funext name
      exact Bool.and_true _
    rw [slots, slotsFrom, admits]
    refine map_name_filterMap_slot? fun name member => ?_
    obtain ⟨given, is⟩ := List.mem_filter.1 (List.mem_eraseDups.1 member)
    exact exists_slot? is given
  distinct := f.nodup_names_slots arguments
  declared _ := argument?_of_mem_slots
  first _ hx := by
    obtain ⟨_, _, slot⟩ := List.mem_filterMap.1 hx
    exact first_of_slot? slot

/-! ### Repetitions -/

variable {path : List String}

/-- A declared name that was used before is passed over. -/
theorem bindNestedFrom_repeated {done : List String} {before : Fields} {name : String} (v : Value)
    (after : Fields) (is : f.declares name = true) (used : name ∈ done ∨ name ∈ Keyed.keys before) :
    f.bindNestedFrom path done (before ++ (name, v) :: after) =
      f.bindNestedFrom path done (before ++ after) := by
  -- Until the repetition is reached, its name is among those used before or still to come.
  induction before generalizing done with
  | nil =>
    have contained : done.contains name = true := by simpa [Keyed.keys] using used
    rw [List.nil_append, bindNestedFrom, if_pos contained]
    rfl
  | cons m rest ih =>
    obtain ⟨other, w⟩ := m
    have used : name ∈ done ∨ name = other ∨ name ∈ Keyed.keys rest := by
      simpa [Keyed.keys] using used
    rw [List.cons_append, List.cons_append, bindNestedFrom, bindNestedFrom]
    split
    · rename_i skipped
      refine ih ?_
      rcases used with earlier | rfl | later
      · exact .inl earlier
      · exact .inl (by simpa using skipped)
      · exact .inr later
    · cases found : f.argument? (.str other) with
      | none =>
        have differ : name ≠ other := by
          rintro rfl
          rw [declares, found] at is
          cases is
        dsimp only
        rw [ih (used.imp_right fun later => later.resolve_left differ)]
      | some a =>
        have used : name ∈ other :: done ∨ name ∈ Keyed.keys rest := by
          rcases used with earlier | rfl | later
          · exact .inl (.tail _ earlier)
          · exact .inl (.head _)
          · exact .inr later
        dsimp only
        rw [ih used]

theorem bindNested_repeated {before : Fields} {name : String} (v : Value) (after : Fields)
    (is : f.declares name = true) (used : name ∈ Keyed.keys before) :
    f.bindNested path (before ++ (name, v) :: after) = f.bindNested path (before ++ after) :=
  bindNestedFrom_repeated v after is (.inr used)

/-! ### Binding -/

/-- If the types of its arguments can be written, a field can be given any arguments. -/
theorem exists_bindNestedFrom (renders : ∀ a ∈ f.arguments, ∃ w, a.type.wire = .ok w)
    (path done : List String) (arguments : Fields) (b : Bindings) :
    ∃ bound b', Runs (f.bindNestedFrom path done arguments) b bound b' := by
  induction arguments generalizing done b with
  | nil => exact ⟨[], b, runs_pure.2 ⟨rfl, rfl⟩⟩
  | cons m rest ih =>
    obtain ⟨name, v⟩ := m
    unfold bindNestedFrom
    split
    · exact ih done b
    · cases found : f.argument? (.str name) with
      | none =>
        obtain ⟨bound, b', run⟩ := ih done (b.report (f.undeclared path name))
        exact ⟨bound, b', runs_bind.2 ⟨(), _, runs_report.2 rfl, run⟩⟩
      | some a =>
        obtain ⟨used, b₁, binds⟩ := b.exists_bind (renders a (List.mem_of_find?_eq_some found)) v
        obtain ⟨others, b', run⟩ := ih (name :: done) b₁
        exact ⟨_, b', runs_bind.2 ⟨used, b₁, runs_bindArgument.2 binds,
          runs_bind.2 ⟨others, b', run, runs_pure.2 ⟨rfl, rfl⟩⟩⟩⟩

/-- The variables of slots are numbered from the counter on, so that none of them is declared
already. -/
theorem not_declared_of_mem_bound {b : Bindings} (below : b.Below) {slots : List Slot}
    {c : BoundArgument} (h : c ∈ Slot.bound b.counter slots) :
    c.variableName ∉ b.declarations.map Declaration.name := by
  intro declared
  obtain ⟨k, x, _, rfl⟩ := Slot.mem_bound h
  obtain ⟨d, earlier, same⟩ := List.mem_map.1 declared
  obtain ⟨n, smaller, name⟩ := below d earlier
  have := Bindings.variableName_inj (name.symm.trans same)
  omega

/-- Whatever arguments a field below the root is given, those that it declares are bound where they
come first: in this order, each once, to the value that it has there, by the next variable, which is
new and declared with the type of the argument. A name that the field does not declare is reported
as often as it comes, in order. Another occurrence of a name that it declares does nothing. -/
theorem bindNested_takesFirst (f : FieldDef) (path : List String) (arguments : Fields)
    (renders : ∀ a ∈ f.arguments, ∃ w, a.type.wire = .ok w) {b : Bindings} (below : b.Below) :
    ∃ slots b', f.TakesFirst arguments slots ∧
      Runs (f.bindNested path arguments) b (Slot.bound b.counter slots) b' ∧
      (∀ c ∈ Slot.bound b.counter slots,
        c.variableName ∉ b.declarations.map Declaration.name) ∧
      b'.counter = b.counter + slots.length ∧
      b'.variableValues = b.variableValues ++ Slot.values b.counter slots ∧
      b.DeclaresEach (fun x d => d.type.Writes x.argument) slots b' ∧
      b'.diagnostics = b.diagnostics ++
        ((Keyed.keys arguments).filter fun name => !f.declares name).map (f.undeclared path) ∧
      ∀ before name v after, arguments = before ++ (name, v) :: after →
        f.declares name = true → name ∈ Keyed.keys before →
        f.bindNested path arguments = f.bindNested path (before ++ after) := by
  obtain ⟨bound, b', run⟩ := exists_bindNestedFrom renders path [] arguments b
  obtain ⟨adds, rfl⟩ := adds_of_bindNested run
  refine ⟨f.slots arguments, b', f.takesFirst_slots arguments, run,
    fun c hc => not_declared_of_mem_bound below hc, adds.counter, adds.values, ?_, adds.diagnostics,
    ?_⟩
  · exact (adds.declarations below).mono fun x _ d type => DeclaredType.writes_of_ofArgument type
  · rintro before name v after rfl is used
    exact bindNested_repeated v after is used

end FieldDef

namespace Sample

/-- The field with the posts of a user, of which a limited number can be wanted. -/
def userPosts : FieldDef :=
  ((schema.field (.str "User") (.str "posts")).toOption.join).get (by decide +kernel)

/-- Arguments for posts: each name twice, the second one not declared. -/
def twice : Fields :=
  [("limit", .str "few"), ("after", .str "noon"), ("limit", .str "many"), ("after", .str "tea")]

theorem renders_userPosts : ∀ a ∈ userPosts.arguments, ∃ w, a.type.wire = .ok w := by
  have written : userPosts.arguments.all (fun a => a.type.wire.isOk) = true := by decide +kernel
  intro a ha
  have here := List.all_eq_true.1 written a ha
  cases wire : a.type.wire with
  | error fault =>
    rw [wire] at here
    cases here
  | ok w => exact ⟨w, rfl⟩

end Sample

namespace FieldDef

/-- The limit is bound once, to the first value, and the other name is reported twice. -/
theorem bindNested_takesFirst_posts : ∃ slots b',
    Sample.userPosts.TakesFirst Sample.twice slots ∧
    Runs (Sample.userPosts.bindNested ["users", "posts"] Sample.twice) (Bindings.start 4)
      (Slot.bound 4 slots) b' ∧
    Slot.bound 4 slots = [⟨"limit", "v4"⟩] ∧ b'.variableValues = [("v4", .str "few")] ∧
    b'.diagnostics = ["after", "after"].map (Sample.userPosts.undeclared ["users", "posts"]) := by
  have below : (Bindings.start 4).Below := by
    intro d hd
    cases hd
  obtain ⟨slots, b', first, run, _⟩ := Sample.userPosts.bindNested_takesFirst ["users", "posts"]
    Sample.twice Sample.renders_userPosts below
  obtain ⟨p, ran, values⟩ : ∃ p, (Sample.userPosts.bindNested ["users", "posts"]
      Sample.twice).result (Bindings.start 4) = .ok p ∧
      (p.1, p.2.variableValues, p.2.diagnostics) = ([⟨"limit", "v4"⟩], [("v4", .str "few")],
        ["after", "after"].map (Sample.userPosts.undeclared ["users", "posts"])) :=
    exists_of_toOption_map (by decide +kernel)
  cases Except.ok.inj (ran.symm.trans run)
  simp only [Prod.mk.injEq] at values
  obtain ⟨bound, values, reported⟩ := values
  exact ⟨slots, b', first, run, bound, values, reported⟩

end FieldDef

end GraphRequest
