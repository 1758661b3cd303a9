import GraphRequest.Proofs.Query.Documents
import GraphRequest.Proofs.Selection.Names
import GraphRequest.Proofs.Selection.Passed

/-!
# Slots and their variables

Compiling wanted fields fills the slots of each field before those of the fields below it, and
passes each variable in the selection at the argument of its slot. So the references in the texts of
the selections are, from left to right, the variables that were bound, in the order of their
numbers; none of them is lost with a body that is left out.

* `Bindings.Gathers`: bindings with the variables of slots behind the earlier ones.
* `Entry.Passes`: the slots of an entry and the selection in which they are passed.
* `Schema.gathers_of_compile`: compiling an entry binds and passes its slots.
* `Schema.references_of_compileAll`: the variables and the texts of selections.
-/

namespace GraphRequest

open Step

/-! ### Bindings -/

/-- A declaration gives a variable the type that the argument of a slot is written with. -/
def Slot.DeclaredBy (x : Slot) (d : Declaration) : Prop :=
  ∃ wire, x.argument.type.wire = .ok (.str wire) ∧ d.type = .text wire

namespace Bindings

/-- Later bindings with the variables of slots behind the earlier ones: each slot in turn has the
next number, and its variable has the value and the type of the slot. -/
structure Gathers (b : Bindings) (slots : List Slot) (b' : Bindings) : Prop where
  counter : b'.counter = b.counter + slots.length
  values : b'.variableValues = b.variableValues ++ Slot.values b.counter slots
  declarations : b.Below → ∃ declared, b'.declarations = b.declarations ++ declared ∧
    declared.map Declaration.name = namesBetween b.counter b'.counter ∧
    List.Forall₂ Slot.DeclaredBy slots declared

variable {b b₁ b' : Bindings} {xs ys : List Slot}

theorem gathers_nil (b : Bindings) : b.Gathers [] b where
  counter := (Int.add_zero _).symm
  values := (List.append_nil _).symm
  declarations := fun _ => declaresEach_nil _ b

/-- Diagnostics do not count. -/
theorem Gathers.of_report {d : Diagnostic} (h : (b.report d).Gathers xs b') : b.Gathers xs b' :=
  ⟨h.counter, h.values, h.declarations⟩

theorem Gathers.trans (first : b.Gathers xs b₁) (second : b₁.Gathers ys b') :
    b.Gathers (xs ++ ys) b' := by
  have between := first.counter
  have counter := second.counter
  refine ⟨?_, ?_, fun below => ?_⟩
  · rw [List.length_append]
    omega
  · rw [second.values, first.values, List.append_assoc, Slot.values_append, between]
  · have declared : b.DeclaresEach Slot.DeclaredBy xs b₁ := first.declarations below
    exact declared.trans (second.declarations (declared.below (by omega) below)) (by omega)
      (by omega)

/-- Where the types of the arguments have texts for names, the variables are declared with the
texts of these types. -/
theorem Adds.gathers {ds : List Diagnostic} (h : b.Adds xs ds b')
    (named : ∀ x ∈ xs, x.argument.isNamed = true) : b.Gathers xs b' where
  counter := h.counter
  values := h.values
  declarations := fun below => (h.declarations below).mono fun x hx d typed => by
    obtain ⟨_, _, written, text⟩ := DeclaredType.text_of_ofArgument (named x hx) typed
    exact ⟨_, written, text⟩

end Bindings

/-- Binding the arguments of a field fills its slots. -/
theorem FieldDef.gathers_of_bindNested {f : FieldDef} {path : List String} {arguments : Fields}
    {b b' : Bindings} {bound : List BoundArgument} (named : f.isNamed = true)
    (h : Runs (f.bindNested path arguments) b bound b') :
    b.Gathers (f.slots arguments) b' ∧ bound = Slot.bound b.counter (f.slots arguments) := by
  obtain ⟨adds, same⟩ := adds_of_bindNested h
  refine ⟨adds.gathers fun x hx => ?_, same⟩
  exact isNamed_of_mem named (argument?_eq_some (argument?_of_mem_slots hx)).1

/-! ### Entries -/

namespace Entry

/-- The arguments that the call of a column function supplies. -/
def columnArguments (columns : List Value) (distinct : Value) : Fields :=
  ("columns", .arr columns) ::
    match distinct with
    | .null => []
    | d => [("distinct", d)]

mutual

/-- The selection that an entry makes on a type, if it makes one, with the slots of its fields, from
left to right: the field of the entry is passed its slots, and the slots of the entries below it are
those of its body. -/
inductive Passes (s : Schema) : Value → Entry → Option Item → List Slot → Prop
  | raw (type : Value) (text : String) : Passes s type (.raw text) (rawItem text) []
  | dropped {type : Value} {e : Entry} (dropped : e.Dropped s type) : Passes s type e none []
  | field {type : Value} {e : Entry} {name : String} {f : FieldDef} {base : BaseType}
      {arguments : Fields} {children : List Entry} {bound : List BoundArgument}
      {body : Option (List Item)} {items : List Item} {below : List Slot}
      (named : e.name? = some name) (found : s.field type (.str name) = .ok (some f))
      (returned : f.base = .ok base) (wants : Wants s f base e e.alias? arguments children)
      (passed : bound.map BoundArgument.name = (f.slots arguments).map Slot.name)
      (each : PassesAll s base.name children items below) (held : body = some items ∨ below = []) :
      Passes s type e (some (.field e.alias? name bound body)) (f.slots arguments ++ below)
  | bare {type : Value} {name : String} {names distinct : Value} {f : FieldDef}
      {body : Option (List Item)} (found : s.field type (.str name) = .ok (some f))
      (undeclared : f.declares "columns" = false) :
      Passes s type (.columns name names distinct) (some (.field none name [] body)) []
  | columns {type : Value} {name : String} {names distinct : Value} {f : FieldDef}
      {columns : List Value} {bound : List BoundArgument}
      (found : s.field type (.str name) = .ok (some f)) (declared : f.declares "columns" = true)
      (listed : names.elements = .ok columns)
      (passed : bound.map BoundArgument.name =
        (f.slots (columnArguments columns distinct)).map Slot.name) :
      Passes s type (.columns name names distinct) (some (.field none name bound none))
        (f.slots (columnArguments columns distinct))

/-- The selections that entries make one after the other, with their slots. -/
inductive PassesAll (s : Schema) : Value → List Entry → List Item → List Slot → Prop
  | nil (type : Value) : PassesAll s type [] [] []
  | cons {type : Value} {e : Entry} {es : List Entry} {o : Option Item} {items : List Item}
      {xs ys : List Slot} (first : Passes s type e o xs) (rest : PassesAll s type es items ys) :
      PassesAll s type (e :: es) (o.toList ++ items) (xs ++ ys)

end

end Entry

namespace Schema

variable {s : Schema} {type : Value} {path : List String} {b b' : Bindings}

/-- Compiling entries binds and passes their slots, if compiling each of them does. -/
theorem gathers_of_each {es : List Entry} {items : List Item}
    (each : ∀ e ∈ es, ∀ b o b', Runs (e.compile s type path) b o b' →
      ∃ slots, e.Passes s type o slots ∧ b.Gathers slots b' ∧
        o.toList.flatMap Item.passed = Slot.bound b.counter slots)
    (h : Runs (s.compileAll es type path) b items b') :
    ∃ slots, Entry.PassesAll s type es items slots ∧ b.Gathers slots b' ∧
      items.flatMap Item.passed = Slot.bound b.counter slots := by
  induction es generalizing b items with
  | nil =>
    obtain ⟨rfl, rfl⟩ := Entry.runs_compileAll_nil.1 h
    exact ⟨[], .nil type, Bindings.gathers_nil _, rfl⟩
  | cons e es ih =>
    obtain ⟨o, rest, b₁, ho, hr, rfl⟩ := runs_compileAll_cons.1 h
    obtain ⟨xs, first, gathers, passed⟩ := each e (.head _) b o b₁ ho
    obtain ⟨ys, others, gathers', passed'⟩ := ih (fun e' he' => each e' (.tail _ he')) hr
    refine ⟨xs ++ ys, .cons first others, gathers.trans gathers', ?_⟩
    rw [List.flatMap_append, passed, passed', gathers.counter, Slot.bound_append]

/-- Compiling an entry binds and passes its slots, by induction on the size of the entry: the slots
of a field are filled before those of the entries below it, and where the body of the field is left
out there are none of the latter. -/
theorem gathers_of_compile (leaf : s.FieldsOnSelectable) (named : s.isNamed = true) {e : Entry}
    {o : Option Item} (h : Runs (e.compile s type path) b o b') :
    ∃ slots, e.Passes s type o slots ∧ b.Gathers slots b' ∧
      o.toList.flatMap Item.passed = Slot.bound b.counter slots := by
  induction e using (measure (sizeOf : Entry → Nat)).wf.induction generalizing type path b b' o with
  | h e ih =>
    have compiled := Entry.compiled_of_runs h
    have dropped : o = none → e.Dropped s type := by
      rintro rfl
      obtain ⟨_, dropped⟩ | ⟨_, same, _⟩ := Entry.dropped_or_shown compiled
      · exact dropped
      · cases same
    cases compiled with
    | raw text =>
      refine ⟨[], .raw type text, Bindings.gathers_nil _, ?_⟩
      unfold Entry.rawItem
      split <;> rfl
    | unknown =>
      exact ⟨[], .dropped (dropped rfl), (Bindings.gathers_nil _).of_report, rfl⟩
    | off => exact ⟨[], .dropped (dropped rfl), Bindings.gathers_nil _, rfl⟩
    | @field _ name f base aliasName arguments children bound b₁ _ items body found_name found
        returned wants binds compiles bodied =>
      have f_named := Schema.isNamed_of_field named found
      obtain ⟨gathers, rfl⟩ := FieldDef.gathers_of_bindNested f_named binds
      obtain ⟨below, each, gathers', passed⟩ :=
        gathers_of_each (fun c hc _ _ _ run => ih c (wants.sizeOf_lt hc) run) compiles
      have nothing : items.flatMap Item.passed = [] → below = [] := by
        intro empty
        rw [passed] at empty
        exact Slot.eq_nil_of_bound empty
      have unselectable : s.selectable base.name = .ok none →
          items.flatMap Item.variableNames = [] :=
        fun none' => variableNames_of_selectable_none leaf none' compiles
      have held : body = some items ∨ below = [] := by
        obtain ⟨none', rfl⟩ | ⟨_, _, _, rfl, ⟨rfl, _⟩ | ⟨_, rfl⟩⟩ := body_eq_ok bodied
        · exact .inr (nothing (Item.passed_eq_nil (unselectable none')))
        · exact .inr (nothing rfl)
        · exact .inl rfl
      cases wants.alias?_eq
      refine ⟨_, .field found_name found returned wants (Slot.names_bound _ _) each held,
        gathers.trans gathers', ?_⟩
      rw [Option.toList_some, List.flatMap_singleton, passed_of_body bodied unselectable, passed,
        gathers.counter, Slot.bound_append]
    | bare found returned undeclared code place bodied =>
      refine ⟨[], .bare found undeclared, (Bindings.gathers_nil _).of_report, ?_⟩
      rw [Option.toList_some, List.flatMap_singleton, passed_of_body bodied fun _ => rfl]
      rfl
    | @columns name names distinct f base columns bound _ found returned declared listed binds =>
      have f_named := Schema.isNamed_of_field named found
      obtain ⟨gathers, rfl⟩ := FieldDef.gathers_of_bindNested f_named binds
      refine ⟨_, .columns found declared listed (Slot.names_bound _ _), gathers, ?_⟩
      rw [Option.toList_some, List.flatMap_singleton, Item.passed_leaf]
      rfl

/-- The references in the texts of the selections that entries compile to, from left to right, are
the variables bound meanwhile, each once and in the order of their numbers. Each variable is passed
at the argument of its slot, is declared with the type of that argument, and has the value that the
entries supply for it. -/
theorem references_of_compileAll {v : Value} (introspected : ofIntrospection v = .ok s)
    (named : s.isNamed = true) {es : List Entry} {items : List Item}
    (structured : ∀ e ∈ es, ∀ d, Entry.Reaches s type e d → d.isRaw = false)
    (aliases : ∀ e ∈ es, ∀ d, Entry.Reaches s type e d →
      ∀ a ∈ d.alias?, Document.Token.isName a.toList = true)
    (below : b.Below) (h : Runs (s.compileAll es type path) b items b') :
    ∃ slots declared, Entry.PassesAll s type es items slots ∧
      items.flatMap (fun i => Text.references i.text.toList) =
        Keyed.keys (Slot.values b.counter slots) ∧
      (Keyed.keys (Slot.values b.counter slots)).Nodup ∧
      items.flatMap Item.passed = Slot.bound b.counter slots ∧
      b'.variableValues = b.variableValues ++ Slot.values b.counter slots ∧
      b'.declarations = b.declarations ++ declared ∧
      declared.map Declaration.name = Keyed.keys (Slot.values b.counter slots) ∧
      List.Forall₂ Slot.DeclaredBy slots declared ∧
      b'.counter = b.counter + slots.length := by
  have leaf := fieldsOnSelectable_of_ofIntrospection introspected
  obtain ⟨slots, passes, gathers, passed⟩ :=
    gathers_of_each (fun _ _ _ _ _ run => gathers_of_compile leaf named run) h
  obtain ⟨declared, behind, names, types⟩ := gathers.declarations below
  have made := made_of_compileAll h (Int.le_refl b.counter) structured aliases
  refine ⟨slots, declared, passes, ?_, ?_, passed, gathers.values, behind, ?_, types,
    gathers.counter⟩
  · calc items.flatMap (fun i => Text.references i.text.toList)
        = items.flatMap fun i => i.passed.map BoundArgument.variableName :=
          List.flatMap_congr fun i hi => (made i hi).references named
      _ = (items.flatMap Item.passed).map BoundArgument.variableName := List.map_flatMap.symm
      _ = Keyed.keys (Slot.values b.counter slots) := by rw [passed, Slot.variableNames_bound]
  · rw [Slot.keys_values]
    exact Bindings.namesBetween_nodup _ _
  · rw [names, Slot.keys_values, gathers.counter]

end Schema

namespace Sample

/-- Three users, by another name, with two posts each, and an argument that posts do not take. -/
def usersAndPosts : Entry :=
  .nested "users" (some "first") [("limit", .int 3)]
    (some [.nested "posts" none [("limit", .int 2), ("bogus", .null)] none []]) []

theorem exists_compileAll_usersAndPosts : ∃ p : List Item × Bindings,
    (schema.compileAll [usersAndPosts] (.str "Query") []).result (Bindings.start 1) = .ok p ∧
      (p.1.map Item.text, p.2.variableValues) =
        (["first: users(limit: $v1) \x7b\n  posts(limit: $v2) \x7b\n" ++
          "    __typename\n  \x7d\n\x7d"], [("v1", .int 3), ("v2", .int 2)]) :=
  exists_of_toOption_map (by decide +kernel)

/-- What holds of the users and of all below them holds of the entries that compiling them comes
upon. -/
theorem passes_usersAndPosts {p : Entry → Bool} (h : usersAndPosts.holds p = true) :
    ∀ e ∈ [usersAndPosts], ∀ d, Entry.Reaches schema (.str "Query") e d → p d = true := by
  intro e he d reaches
  rw [List.mem_singleton.1 he] at reaches
  exact Entry.holds_self (reaches.holds h)

end Sample

namespace Schema

/-- The text of three users with two posts each refers to the two numbers in this order, whose
values they are. -/
theorem references_of_compileAll_usersAndPosts : ∃ items b',
    Runs (Sample.schema.compileAll [Sample.usersAndPosts] (.str "Query") []) (Bindings.start 1)
      items b' ∧
    items.flatMap (fun i => Text.references i.text.toList) = ["v1", "v2"] ∧
    b'.variableValues = [("v1", .int 3), ("v2", .int 2)] ∧
    b'.declarations.map Declaration.name = ["v1", "v2"] := by
  obtain ⟨⟨items, b'⟩, runs, holds⟩ := Sample.exists_compileAll_usersAndPosts
  obtain ⟨_, values⟩ := Prod.mk.inj holds
  have structured := Sample.passes_usersAndPosts (p := fun e => !e.isRaw) (by decide +kernel)
  have aliases := Sample.passes_usersAndPosts
    (p := fun e => e.alias?.all fun a => Document.Token.isName a.toList) (by decide +kernel)
  obtain ⟨slots, declared, _, references, _, _, bound, behind, names, _⟩ :=
    references_of_compileAll Sample.ofIntrospection_answer Sample.isNamed_schema
      (fun e he d reaches => by simpa using structured e he d reaches)
      (fun e he d reaches a ha => by
        have named := aliases e he d reaches
        rw [ha] at named
        exact named)
      (fun d hd => absurd hd List.not_mem_nil) runs
  have keys : Keyed.keys (Slot.values 1 slots) = ["v1", "v2"] := by
    rw [← List.nil_append (Slot.values 1 slots)]
    exact congrArg Keyed.keys (bound.symm.trans values)
  refine ⟨items, b', runs, references.trans keys, values, ?_⟩
  rw [behind]
  exact names.trans keys

end Schema

end GraphRequest
