import GraphRequest.Proofs.Query.Supplied

/-!
# The variables of a selection

Compiling binds exactly the variables that the selections it leaves are passed: no selection that an
entry is compiled to is lost below its field. Default selections have no variables.

* `Item.variableNames`: the variables passed to the fields of a selection, and `Item.passed` the
  arguments that they are passed as.
* `bound_of_bindEach`, `bound_of_compileAll`: the variables bound are those of what was compiled.
* `variableNames_of_selectable_none`: on a type that takes no selection nothing with variables
  compiles.
-/

namespace GraphRequest

open Step

namespace Item

mutual

/-- The variables passed to the fields of a selection. -/
def variableNames : Item → List String
  | .raw _ => []
  | .field _ _ arguments body =>
    arguments.map BoundArgument.variableName ++
      match body with
      | none => []
      | some items => variableNamesAll items

/-- The variables passed to the fields of selections. -/
def variableNamesAll : List Item → List String
  | [] => []
  | i :: is => variableNames i ++ variableNamesAll is

end

theorem variableNamesAll_eq_flatMap (items : List Item) :
    variableNamesAll items = items.flatMap variableNames := by
  induction items with
  | nil => rfl
  | cons i items ih => rw [variableNamesAll, List.flatMap_cons, ih]

theorem variableNames_leaf (name : String) : (leaf name).variableNames = [] := rfl

theorem variableNames_block (aliasName : Option String) (name : String)
    (arguments : List BoundArgument) (items : List Item) :
    (field aliasName name arguments (some items)).variableNames
      = arguments.map BoundArgument.variableName ++ items.flatMap variableNames := by
  rw [variableNames, variableNamesAll_eq_flatMap]

mutual

/-- The arguments passed to the fields of a selection. -/
def passed : Item → List BoundArgument
  | .raw _ => []
  | .field _ _ arguments body =>
    arguments ++
      match body with
      | none => []
      | some items => passedAll items

/-- The arguments passed to the fields of selections. -/
def passedAll : List Item → List BoundArgument
  | [] => []
  | i :: is => passed i ++ passedAll is

end

theorem passedAll_eq_flatMap (items : List Item) : passedAll items = items.flatMap passed := by
  induction items with
  | nil => rfl
  | cons i items ih => rw [passedAll, List.flatMap_cons, ih]

theorem passed_block (aliasName : Option String) (name : String) (arguments : List BoundArgument)
    (items : List Item) :
    (field aliasName name arguments (some items)).passed
      = arguments ++ items.flatMap passed := by
  rw [passed, passedAll_eq_flatMap]

theorem passed_leaf (aliasName : Option String) (name : String) (arguments : List BoundArgument) :
    (field aliasName name arguments none).passed = arguments := List.append_nil _

mutual

/-- The variables of a selection are those of the arguments passed in it. -/
theorem variableNames_eq (i : Item) :
    i.variableNames = i.passed.map BoundArgument.variableName := by
  cases i with
  | raw text => rfl
  | field aliasName name arguments body =>
    cases body with
    | none => rw [variableNames, passed, List.append_nil, List.append_nil]
    | some items => rw [variableNames, passed, List.map_append, variableNamesAll_eq items]

theorem variableNamesAll_eq (items : List Item) :
    variableNamesAll items = (passedAll items).map BoundArgument.variableName := by
  cases items with
  | nil => rfl
  | cons i items =>
    rw [variableNamesAll, passedAll, List.map_append, variableNames_eq i,
      variableNamesAll_eq items]

end

theorem flatMap_variableNames (items : List Item) :
    items.flatMap variableNames = (items.flatMap passed).map BoundArgument.variableName := by
  rw [← variableNamesAll_eq_flatMap, variableNamesAll_eq, passedAll_eq_flatMap]

/-- Selections without variables are passed no arguments. -/
theorem passed_eq_nil {items : List Item} (none' : items.flatMap variableNames = []) :
    items.flatMap passed = [] := by
  rwa [flatMap_variableNames, List.map_eq_nil_iff] at none'

end Item

/-- The names of the variables bound so far. -/
def Bindings.names (b : Bindings) : List String := Keyed.keys b.variableValues

theorem Step.names_of_bindArgument {a : ArgumentDef} {v : Value} {name : String}
    {b b' : Bindings} (h : Runs (bindArgument a v) b name b') : b'.names = b.names ++ [name] := by
  obtain ⟨rfl, values⟩ := Bindings.bind_variableValues (runs_bindArgument.1 h)
  rw [Bindings.names, values, Keyed.keys, List.map_append]
  rfl

/-! ### Arguments -/

theorem Request.bound_of_bindEach {r : Request} {f : FieldDef} {arguments : List ArgumentDef}
    {b b' : Bindings} {bound : List BoundArgument}
    (h : Runs (r.bindEach f arguments) b bound b') :
    b'.names = b.names ++ bound.map BoundArgument.variableName := by
  induction arguments generalizing b bound with
  | nil =>
    obtain ⟨rfl, rfl⟩ := runs_pure.1 h
    exact (List.append_nil _).symm
  | cons a rest ih =>
    obtain ⟨o, b₁, ho, h₁⟩ := runs_bind.1 h
    have kept : b₁.names = b.names :=
      keeps_rootValue (I := fun c => c.names = b.names) (fun _ _ hc => hc) r f a.name _ _ _ ho rfl
    cases o with
    | none => rw [ih h₁, kept]
    | some v =>
      obtain ⟨name, b₂, hn, h₂⟩ := runs_bind.1 h₁
      obtain ⟨others, b₃, hr, h₃⟩ := runs_bind.1 h₂
      obtain ⟨rfl, rfl⟩ := runs_pure.1 h₃
      rw [ih hr, names_of_bindArgument hn, kept, List.append_assoc]
      rfl

theorem FieldDef.bound_of_bindNested {f : FieldDef} {path : List String} {arguments : Fields}
    {b b' : Bindings} {bound : List BoundArgument}
    (h : Runs (f.bindNested path arguments) b bound b') :
    b'.names = b.names ++ bound.map BoundArgument.variableName := by
  obtain ⟨adds, rfl⟩ := adds_of_bindNested h
  rw [Bindings.names, adds.values, Slot.variableNames_bound, Keyed.keys, List.map_append]
  rfl

namespace Schema

variable {s : Schema} {type : Value} {path : List String} {b b' : Bindings}

/-! ### Default selections -/

theorem variableNames_of_typeDefault {t : TypeDef} {aggregate : Bool} {items : List Item}
    (h : s.typeDefault t aggregate = .ok items) : items.flatMap Item.variableNames = [] := by
  unfold typeDefault at h
  split at h
  · unfold aggregateDefault at h
    split at h
    · cases h
      rfl
    · obtain ⟨base, _, h⟩ := bind_eq_ok.1 h
      obtain ⟨o, _, h⟩ := bind_eq_ok.1 h
      cases h
      rfl
  · cases h
    rfl

theorem variableNames_of_rootDefaults {aggregate : Bool} {items : List Item}
    (h : s.rootDefaults type aggregate = .ok items) : items.flatMap Item.variableNames = [] := by
  cases aggregate with
  | true =>
    obtain ⟨o, _, h⟩ := bind_eq_ok.1 h
    cases o with
    | none =>
      cases h
      rfl
    | some t => exact variableNames_of_typeDefault h
  | false =>
    obtain ⟨o, _, h⟩ := bind_eq_ok.1 h
    cases o with
    | none =>
      cases h
      rfl
    | some t =>
      cases h
      apply List.flatMap_eq_nil_iff.2
      intro i hi
      obtain ⟨name, _, rfl⟩ := List.mem_map.1 hi
      rfl

/-! ### Requested fields -/

/-- Only types that take a selection have fields. -/
def FieldsOnSelectable (s : Schema) : Prop :=
  ∀ t ∈ s.types, t.isSelectable = false → t.fields = []

theorem fieldsOnSelectable_of_ofIntrospection {v : Value} (h : ofIntrospection v = .ok s) :
    s.FieldsOnSelectable := fun t ht => (sound_of_ofIntrospection h t ht).leaf

theorem selectable_of_field (leaf : s.FieldsOnSelectable) {name : String} {f : FieldDef}
    (found : s.field type (.str name) = .ok (some f)) : s.selectable type ≠ .ok none := by
  intro unselectable
  obtain ⟨t, ht, hf⟩ := field_eq_some found
  obtain ⟨o, typed, filtered⟩ := bind_eq_ok.1 unselectable
  have same : o = some t := by
    unfold typeNamed at typed
    split at typed
    · cases found
    · rw [← (type?_of_lookup typed).1, ht]
  have filtered : o.filter TypeDef.isSelectable = none := Except.ok.inj filtered
  cases selectable : t.isSelectable with
  | false =>
    have member := (TypeDef.field?_eq_some hf).1
    rw [leaf t (mem_of_type? ht) selectable] at member
    cases member
  | true =>
    rw [same, Option.filter, if_pos selectable] at filtered
    cases filtered

/-- On a type that takes no selection there are no fields, so nothing with variables compiles. -/
theorem variableNames_of_selectable_none (leaf : s.FieldsOnSelectable)
    (unselectable : s.selectable type = .ok none) {es : List Entry} {items : List Item}
    (h : Runs (s.compileAll es type path) b items b') : items.flatMap Item.variableNames = [] := by
  apply List.flatMap_eq_nil_iff.2
  refine forall_of_runs_compileAll (I := fun _ => True) (fun _ _ _ _ _ _ _ => trivial) ?_ h trivial
  intro e _ b₁ i b₂ run _
  have outcome := Entry.compiled_of_runs run
  generalize made : some i = o at outcome
  cases outcome with
  | raw text =>
    unfold Entry.rawItem at made
    split at made
    · cases made
    · cases made
      rfl
  | unknown => cases made
  | off => cases made
  | field named found => exact absurd unselectable (selectable_of_field leaf found)
  | bare found => exact absurd unselectable (selectable_of_field leaf found)
  | columns found => exact absurd unselectable (selectable_of_field leaf found)

/-- The body of a field is passed the arguments of the selections compiled for it: where a body is
left out or consists of default selections, they have none. -/
theorem passed_of_body {items : List Item} {aggregate : Bool} {body : Option (List Item)}
    {aliasName : Option String} {name : String} {arguments : List BoundArgument}
    (h : s.body items type aggregate = .ok body)
    (unselectable : s.selectable type = .ok none → items.flatMap Item.variableNames = []) :
    (Item.field aliasName name arguments body).passed = arguments ++ items.flatMap Item.passed := by
  obtain ⟨leaf, rfl⟩ | ⟨t, below, _, rfl, ⟨rfl, default⟩ | ⟨_, rfl⟩⟩ := body_eq_ok h
  · rw [Item.passed_eq_nil (unselectable leaf)]
    rfl
  · rw [Item.passed_block, Item.passed_eq_nil (variableNames_of_typeDefault default)]
    rfl
  · exact Item.passed_block aliasName name arguments below

theorem variableNames_of_body {items : List Item} {aggregate : Bool} {body : Option (List Item)}
    {aliasName : Option String} {name : String} {arguments : List BoundArgument}
    (h : s.body items type aggregate = .ok body)
    (unselectable : s.selectable type = .ok none → items.flatMap Item.variableNames = []) :
    (Item.field aliasName name arguments body).variableNames
      = arguments.map BoundArgument.variableName ++ items.flatMap Item.variableNames := by
  rw [Item.variableNames_eq, passed_of_body h unselectable, List.map_append,
    Item.flatMap_variableNames]

/-- Compiling entries one after the other binds the variables of their selections, if compiling each
of them does. -/
theorem bound_of_each {es : List Entry} {items : List Item}
    (each : ∀ e ∈ es, ∀ b o b', Runs (e.compile s type path) b o b' →
      b'.names = b.names ++ o.toList.flatMap Item.variableNames)
    (h : Runs (s.compileAll es type path) b items b') :
    b'.names = b.names ++ items.flatMap Item.variableNames := by
  induction es generalizing b items with
  | nil =>
    obtain ⟨rfl, rfl⟩ := Entry.runs_compileAll_nil.1 h
    exact (List.append_nil _).symm
  | cons e es ih =>
    obtain ⟨o, rest, b₁, ho, hr, rfl⟩ := runs_compileAll_cons.1 h
    rw [ih (fun e' he' => each e' (.tail _ he')) hr, each e (.head _) b o b₁ ho,
      List.flatMap_append, List.append_assoc]

/-- Compiling an entry binds the variables of its selection, by induction on the size of the entry:
the variables of a field are those of its arguments and then those of the entries below it. -/
theorem bound_of_compile (leaf : s.FieldsOnSelectable) {e : Entry} {o : Option Item}
    (h : Runs (e.compile s type path) b o b') :
    b'.names = b.names ++ o.toList.flatMap Item.variableNames := by
  induction e using (measure (sizeOf : Entry → Nat)).wf.induction generalizing type path b b' o with
  | h e ih =>
    cases Entry.compiled_of_runs h with
    | raw text =>
      unfold Entry.rawItem
      split <;> exact (List.append_nil _).symm
    | unknown => exact (List.append_nil _).symm
    | off => exact (List.append_nil _).symm
    | @field _ name f base aliasName arguments children bound b₁ _ items body named found returned
        wants binds compiles bodied =>
      have below : b'.names = b₁.names ++ items.flatMap Item.variableNames := by
        refine bound_of_each ?_ compiles
        intro c hc b₂ o b₃ run
        exact ih c (wants.sizeOf_lt hc) run
      have unselectable : s.selectable base.name = .ok none →
          items.flatMap Item.variableNames = [] :=
        fun none' => variableNames_of_selectable_none leaf none' compiles
      rw [below, FieldDef.bound_of_bindNested binds, List.append_assoc]
      show _ = _ ++ ([Item.field aliasName name bound body].flatMap Item.variableNames)
      rw [List.flatMap_singleton, variableNames_of_body bodied unselectable]
    | bare found returned undeclared code place bodied =>
      show b.names = _ ++ [Item.field none _ [] _].flatMap Item.variableNames
      rw [List.flatMap_singleton, variableNames_of_body bodied fun _ => rfl]
      exact (List.append_nil _).symm
    | @columns name names distinct f base columns bound _ found returned declared listed binds =>
      rw [FieldDef.bound_of_bindNested binds]
      show _ = _ ++ ([Item.field none name bound none].flatMap Item.variableNames)
      rw [List.flatMap_singleton, Item.variableNames, List.append_nil]

/-- Compiling entries binds the variables of their selections. -/
theorem bound_of_compileAll (leaf : s.FieldsOnSelectable) {es : List Entry} {items : List Item}
    (h : Runs (s.compileAll es type path) b items b') :
    b'.names = b.names ++ items.flatMap Item.variableNames :=
  bound_of_each (fun _ _ _ _ _ run => bound_of_compile leaf run) h

/-- The wanted fields of a request bind the variables of the selections made for them. -/
theorem bound_of_compileWanted (leaf : s.FieldsOnSelectable) {r : Request} {aggregate : Bool}
    {items : List Item} (h : Runs (s.compileWanted r type aggregate path) b items b') :
    b'.names = b.names ++ items.flatMap Item.variableNames := by
  obtain ⟨defaults, more, made, compiles, rfl⟩ := runs_compileWanted h
  have none' : (beside r.wantedEntries defaults).flatMap Item.variableNames = [] := by
    apply List.flatMap_eq_nil_iff.2
    intro i hi
    rcases made with rfl | made
    · cases mem_of_mem_beside hi
    · exact List.flatMap_eq_nil_iff.1 (variableNames_of_rootDefaults made) i (mem_of_mem_beside hi)
  rw [bound_of_compileAll leaf compiles, List.flatMap_append, none', List.nil_append]

end Schema

end GraphRequest
