import GraphRequest.Proofs.Query.Supplied

/-!
# The selections that compiling makes

Every selection that compiling leaves is on a field of the type it stands on, with arguments that
the field declares, and its body is on the type that the field returns. This holds of requested
fields, of default selections and of the envelope alike.

* `FieldDef.Takes`: arguments that a field takes, with `takes_of_bindRoot` and
  `takes_of_bindNested`.
* `Item.Arises`: the selections that compiling makes on a type, raw texts among them.
* `Schema.arises_of_planned`: the selection of a plan arises on the type of its root field.
* `Item.Made`, `Schema.made_of_plan`: the same without raw texts.
-/

namespace GraphRequest

open Step

/-! ### Arguments -/

/-- Arguments that a field takes: they are declared, each occurs once, and their variables are
numbered from a first number on. -/
structure FieldDef.Takes (f : FieldDef) (first : Int) (arguments : List BoundArgument) : Prop where
  distinct : (arguments.map BoundArgument.name).Nodup
  declared : ∀ a ∈ arguments, f.declares a.name = true
  numbered : ∀ a ∈ arguments, ∃ n, first ≤ n ∧ a.variableName = Bindings.variableName n

theorem FieldDef.takes_nil (f : FieldDef) (first : Int) : f.Takes first [] := by
  refine ⟨List.nodup_nil, ?_, ?_⟩ <;> intro a ha <;> cases ha

/-- The counter never falls below a number that it has reached. -/
theorem Bindings.counter_stable (first : Int) :
    Stable (fun _ => True) fun b => first ≤ b.counter where
  report := fun b d h => h
  bind := by
    intro b a v name b' _ run h
    have := bind_counter run
    omega

theorem Step.runs_bindArgument_name {a : ArgumentDef} {v : Value} {name : String}
    {b b' : Bindings} (h : Runs (bindArgument a v) b name b') :
    name = Bindings.variableName b.counter ∧ b'.counter = b.counter + 1 := by
  have run := runs_bindArgument.1 h
  exact ⟨(Bindings.bind_variableValues run).1, Bindings.bind_counter run⟩

namespace Request

/-- The root field is passed some of the given arguments, in their order. -/
theorem sublist_of_bindEach {r : Request} {f : FieldDef} {arguments : List ArgumentDef}
    {first : Int} {b b' : Bindings} {bound : List BoundArgument}
    (h : Runs (r.bindEach f arguments) b bound b') (hb : first ≤ b.counter) :
    (bound.map BoundArgument.name).Sublist (arguments.map fun a => a.name.text) ∧
      ∀ a ∈ bound, ∃ n, first ≤ n ∧ a.variableName = Bindings.variableName n := by
  induction arguments generalizing b bound with
  | nil =>
    obtain ⟨rfl, rfl⟩ := runs_pure.1 h
    refine ⟨.slnil, ?_⟩
    intro a ha
    cases ha
  | cons a rest ih =>
    obtain ⟨o, b₁, ho, h₁⟩ := runs_bind.1 h
    have hb₁ : first ≤ b₁.counter :=
      keeps_rootValue (Bindings.counter_stable first).report r f a.name _ _ _ ho hb
    cases o with
    | none =>
      obtain ⟨kept, numbered⟩ := ih h₁ hb₁
      exact ⟨kept.cons _, numbered⟩
    | some v =>
      obtain ⟨name, b₂, hn, h₂⟩ := runs_bind.1 h₁
      obtain ⟨others, b₃, hr, h₃⟩ := runs_bind.1 h₂
      obtain ⟨rfl, rfl⟩ := runs_pure.1 h₃
      obtain ⟨named, counter⟩ := runs_bindArgument_name hn
      obtain ⟨kept, numbered⟩ := ih hr (by omega)
      refine ⟨kept.cons_cons _, ?_⟩
      intro c hc
      rcases List.mem_cons.1 hc with rfl | hc
      · exact ⟨b₁.counter, hb₁, named⟩
      · exact numbered c hc

/-- The root field takes the arguments that it is passed, when its arguments have different texts as
names. -/
theorem takes_of_bindRoot {r : Request} {f : FieldDef} {first : Int} {b b' : Bindings}
    {bound : List BoundArgument} (named : ∀ a ∈ f.arguments, ∃ name, a.name = .str name)
    (distinct : f.arguments.Pairwise fun a b => b.name.equals a.name = false)
    (h : Runs (r.bindRoot f) b bound b') (hb : first ≤ b.counter) : f.Takes first bound := by
  obtain ⟨kept, numbered⟩ := sublist_of_bindEach h hb
  refine ⟨?_, ?_, numbered⟩
  · refine kept.nodup (List.pairwise_map.2 (distinct.imp_of_mem ?_))
    intro a c ha hc differ same
    obtain ⟨name, hname⟩ := named a ha
    obtain ⟨name', hname'⟩ := named c hc
    rw [hname, hname'] at differ same
    have same : name = name' := same
    rw [same, Value.equals_str_self] at differ
    cases differ
  · intro a ha
    obtain ⟨c, hc, same⟩ := List.mem_map.1 (kept.subset (List.mem_map.2 ⟨a, ha, rfl⟩))
    obtain ⟨name, hname⟩ := named c hc
    rw [hname] at same
    have same : name = a.name := same
    exact same ▸ FieldDef.declares_of_mem hc hname

end Request

namespace FieldDef

/-- A field below the root takes the arguments that it is passed: they fill its slots. -/
theorem takes_of_bindNested {f : FieldDef} {path : List String} {arguments : Fields}
    {first : Int} {b b' : Bindings} {bound : List BoundArgument}
    (h : Runs (f.bindNested path arguments) b bound b') (hb : first ≤ b.counter) :
    f.Takes first bound := by
  obtain ⟨_, rfl⟩ := adds_of_bindNested h
  refine ⟨?_, ?_, ?_⟩
  · rw [Slot.names_bound]
    exact f.nodup_names_slots arguments
  · intro c hc
    obtain ⟨_, x, hx, rfl⟩ := Slot.mem_bound hc
    exact Option.isSome_of_eq_some (argument?_of_mem_slots hx)
  · intro c hc
    obtain ⟨k, _, _, rfl⟩ := Slot.mem_bound hc
    exact ⟨b.counter + k, by omega, rfl⟩

end FieldDef

/-! ### Selections -/

/-- The text that an entry puts into the document as it is, if it is raw and not blank. -/
def Entry.rawText? : Entry → Option String
  | .raw text => if Text.isBlankText text then none else some (Text.strip text)
  | _ => none

theorem Entry.rawItem_eq (text : String) : rawItem text = (raw text).rawText?.map Item.raw := by
  rw [rawItem, rawText?]
  split <;> rfl

theorem Entry.not_mem_rawText? {e : Entry} (h : e.isRaw = false) : ∀ t ∈ e.rawText?, False := by
  cases e with
  | raw text => cases h
  | _ => exact nofun

/-- The selections that compiling makes on a type: raw texts of the request, the field that every
object answers, and fields of the type with arguments that they take, with or without a body on the
type that they return. -/
inductive Item.Arises (s : Schema) (aliased raws : String → Prop) (first : Int) :
    Value → Item → Prop
  | raw {parent : Value} {text : String} (given : raws text) :
      Arises s aliased raws first parent (.raw text)
  | typename (parent : Value) : Arises s aliased raws first parent (.leaf Schema.typenameField)
  | leaf {parent : Value} {name : String} {f : FieldDef} {aliasName : Option String}
      {arguments : List BoundArgument} (found : s.field parent (.str name) = .ok (some f))
      (takes : f.Takes first arguments) (aliases : ∀ a ∈ aliasName, aliased a) :
      Arises s aliased raws first parent (.field aliasName name arguments none)
  | block {parent : Value} {name : String} {f : FieldDef} {base : BaseType}
      {aliasName : Option String} {arguments : List BoundArgument} {items : List Item}
      (found : s.field parent (.str name) = .ok (some f)) (takes : f.Takes first arguments)
      (aliases : ∀ a ∈ aliasName, aliased a) (returned : f.base = .ok base) (present : items ≠ [])
      (below : ∀ i ∈ items, Arises s aliased raws first base.name i) :
      Arises s aliased raws first parent (.field aliasName name arguments (some items))

namespace Schema

variable {s : Schema} {aliased raws : String → Prop} {first : Int} {type : Value}

theorem selectable_eq_some {t : TypeDef} (h : s.selectable type = .ok (some t)) :
    s.typeNamed type = .ok (some t) ∧ t.isSelectable = true := by
  obtain ⟨o, found, h⟩ := bind_eq_ok.1 h
  cases o with
  | none => cases h
  | some u =>
    have h : (some u).filter TypeDef.isSelectable = some t := Except.ok.inj h
    obtain ⟨same, selectable⟩ := Option.filter_eq_some_iff.1 h
    cases same
    exact ⟨found, selectable⟩

/-! ### Default selections -/

/-- A field that a type declares is selected without arguments and body. -/
theorem arises_leaf {t : TypeDef} {name : String} (typed : s.typeNamed type = .ok (some t))
    (declared : t.declares name = true) : (Item.leaf name).Arises s aliased raws first type := by
  obtain ⟨f, found⟩ := Option.isSome_iff_exists.1 declared
  refine .leaf (f := f) ?_ (f.takes_nil first) ?_
  · rw [field_of_typeNamed typed, found]
  · intro a ha
    cases ha

theorem arises_of_aggregateDefault {t : TypeDef} {items : List Item}
    (typed : s.typeNamed type = .ok (some t)) (h : s.aggregateDefault t = .ok items) :
    ∀ i ∈ items, i.Arises s aliased raws first type := by
  unfold aggregateDefault at h
  split at h
  · cases h
    intro i hi
    rw [List.mem_singleton.1 hi]
    exact .typename type
  · rename_i f found
    obtain ⟨base, returned, h⟩ := bind_eq_ok.1 h
    obtain ⟨o, typed', h⟩ := bind_eq_ok.1 h
    cases h
    intro i hi
    rw [List.mem_singleton.1 hi]
    refine .block (f := f) ?_ (f.takes_nil first) ?_ returned ?_ ?_
    · rw [field_of_typeNamed typed, found]
    · intro a ha
      cases ha
    · exact List.cons_ne_nil _ _
    · intro j hj
      rw [List.mem_singleton.1 hj]
      cases counts : (o.map (·.declares "count")).getD false with
      | false => exact .typename base.name
      | true =>
        cases o with
        | none => cases counts
        | some u => exact arises_leaf typed' counts

theorem arises_of_typeDefault {t : TypeDef} {aggregate : Bool} {items : List Item}
    (typed : s.typeNamed type = .ok (some t)) (h : s.typeDefault t aggregate = .ok items) :
    ∀ i ∈ items, i.Arises s aliased raws first type := by
  unfold typeDefault at h
  split at h
  · exact arises_of_aggregateDefault typed h
  · cases h
    intro i hi
    rw [List.mem_singleton.1 hi]
    cases identified : t.declares "id" with
    | false => exact .typename type
    | true => exact arises_leaf typed identified

theorem arises_of_rootDefaults {aggregate : Bool} {items : List Item}
    (h : s.rootDefaults type aggregate = .ok items) :
    ∀ i ∈ items, i.Arises s aliased raws first type := by
  cases aggregate with
  | true =>
    obtain ⟨o, selectable, h⟩ := bind_eq_ok.1 h
    cases o with
    | none =>
      cases h
      intro i hi
      cases hi
    | some t => exact arises_of_typeDefault (selectable_eq_some selectable).1 h
  | false =>
    obtain ⟨o, selectable, h⟩ := bind_eq_ok.1 h
    cases o with
    | none =>
      cases h
      intro i hi
      cases hi
    | some t =>
      cases h
      intro i hi
      obtain ⟨name, hname, rfl⟩ := List.mem_map.1 hi
      split at hname
      · rw [List.mem_singleton.1 hname]
        exact .typename type
      · exact arises_leaf (selectable_eq_some selectable).1 (List.mem_filter.1 hname).2

/-- A body consists of the given selections or of default ones, and has at least one. -/
theorem arises_of_body {items : List Item} {aggregate : Bool} {body : Option (List Item)}
    (h : s.body items type aggregate = .ok body)
    (made : ∀ i ∈ items, i.Arises s aliased raws first type) :
    body = none ∨ ∃ below, body = some below ∧ below ≠ [] ∧
      ∀ i ∈ below, i.Arises s aliased raws first type := by
  obtain ⟨_, leaf⟩ | ⟨t, below, selectable, block, ⟨_, default⟩ | ⟨present, rfl⟩⟩ := body_eq_ok h
  · exact .inl leaf
  · exact .inr ⟨below, block, typeDefault_ne_nil default,
      arises_of_typeDefault (selectable_eq_some selectable).1 default⟩
  · exact .inr ⟨below, block, present, made⟩

/-- A field with the body that its type calls for. -/
theorem arises_of_bodied {parent : Value} {name : String} {f : FieldDef} {base : BaseType}
    {aliasName : Option String} {arguments : List BoundArgument} {items : List Item}
    {aggregate : Bool} {body : Option (List Item)}
    (found : s.field parent (.str name) = .ok (some f)) (takes : f.Takes first arguments)
    (aliases : ∀ a ∈ aliasName, aliased a) (returned : f.base = .ok base)
    (bodied : s.body items base.name aggregate = .ok body)
    (made : ∀ i ∈ items, i.Arises s aliased raws first base.name) :
    (Item.field aliasName name arguments body).Arises s aliased raws first parent := by
  rcases arises_of_body bodied made with rfl | ⟨below, rfl, present, made⟩
  · exact .leaf found takes aliases
  · exact .block found takes aliases returned present made

/-! ### Requested fields -/

/-- The selection of an entry, by induction on the size of the entry: each outcome of compiling
makes a selection, given that the entries below it do. -/
theorem arises_of_compile {e : Entry} {path : List String} {b b' : Bindings} {i : Item}
    (h : Runs (e.compile s type path) b (some i) b') (hb : first ≤ b.counter)
    (texts : ∀ d, Entry.Reaches s type e d → ∀ t ∈ d.rawText?, raws t)
    (aliases : ∀ d, Entry.Reaches s type e d → ∀ a ∈ d.alias?, aliased a) :
    i.Arises s aliased raws first type := by
  induction e using (measure (sizeOf : Entry → Nat)).wf.induction generalizing type path b b' i with
  | h e ih =>
    have outcome := Entry.compiled_of_runs h
    generalize made : some i = o at outcome
    cases outcome with
    | raw text =>
      rw [Entry.rawItem_eq] at made
      obtain ⟨t, ht, rfl⟩ := Option.map_eq_some_iff.1 made.symm
      exact .raw (texts _ (.self type _) t ht)
    | unknown => cases made
    | off => cases made
    | @field _ name f base aliasName arguments children bound b₁ _ items body named found returned
        wants binds compiles bodied =>
      cases made
      have stable := Bindings.counter_stable first
      have hb₁ : first ≤ b₁.counter :=
        FieldDef.keeps_bindNestedFrom stable (s.offers_true.of_field found) _ _ _ _ _ _ binds hb
      have below : ∀ c ∈ children, ∀ d, Entry.Reaches s base.name c d → Entry.Reaches s type e d :=
        fun c hc d reaches => .descend named found returned wants hc reaches
      have items_arise : ∀ j ∈ items, j.Arises s aliased raws first base.name := by
        have keeps : ∀ c ∈ children, Keeps (fun b : Bindings => first ≤ b.counter)
            (c.compile s base.name (path ++ [name])) :=
          fun c _ => keeps_compile stable s.offers_true c _ _
        refine forall_of_runs_compileAll keeps ?_ compiles hb₁
        intro c hc b₂ j b₃ run hb₂
        exact ih c (wants.sizeOf_lt hc) run hb₂ (fun d hd => texts d (below c hc d hd))
          (fun d hd => aliases d (below c hc d hd))
      refine arises_of_bodied found (FieldDef.takes_of_bindNested binds hb) ?_ returned bodied
        items_arise
      rw [← wants.alias?_eq]
      exact aliases e (.self type e)
    | @bare name names distinct f base d body found returned undeclared code place bodied =>
      cases made
      apply arises_of_bodied found (f.takes_nil first) (by simp) returned bodied
      intro j hj
      cases hj
    | columns found returned declared listed binds =>
      cases made
      exact .leaf found (FieldDef.takes_of_bindNested binds hb) (by simp)

theorem arises_of_compileAll {es : List Entry} {path : List String} {b b' : Bindings}
    {items : List Item} (h : Runs (s.compileAll es type path) b items b') (hb : first ≤ b.counter)
    (texts : ∀ e ∈ es, ∀ d, Entry.Reaches s type e d → ∀ t ∈ d.rawText?, raws t)
    (aliases : ∀ e ∈ es, ∀ d, Entry.Reaches s type e d → ∀ a ∈ d.alias?, aliased a) :
    ∀ i ∈ items, i.Arises s aliased raws first type := by
  refine forall_of_runs_compileAll
    (fun e _ => keeps_compile (Bindings.counter_stable first) s.offers_true e type path) ?_ h hb
  intro e he b₁ i b₂ run hb₁
  exact arises_of_compile run hb₁ (texts e he) (aliases e he)

/-! ### The root -/

section

variable {r : Request} (texts : ∀ e, s.Meets r e → ∀ t ∈ e.rawText?, raws t)
  (aliases : ∀ e, s.Meets r e → ∀ a ∈ e.alias?, aliased a)

include texts aliases

theorem arises_of_compileWanted (on : s.SelectsOn r type) {aggregate : Bool} {path : List String}
    {b b' : Bindings} {items : List Item}
    (h : Runs (s.compileWanted r type aggregate path) b items b') (hb : first ≤ b.counter) :
    ∀ i ∈ items, i.Arises s aliased raws first type := by
  obtain ⟨defaults, more, made, compiles, rfl⟩ := runs_compileWanted h
  intro i hi
  rcases List.mem_append.1 hi with hi | hi
  · have hi := mem_of_mem_beside hi
    rcases made with rfl | made
    · cases hi
    · exact arises_of_rootDefaults made i hi
  · exact arises_of_compileAll compiles hb
      (fun e he d reaches => texts d (.wanted on he reaches))
      (fun e he d reaches => aliases d (.wanted on he reaches)) i hi

theorem arises_of_compileRoot (on : s.SelectsOn r type) {aggregate : Bool} {path : List String}
    {b b' : Bindings} {items : List Item}
    (h : Runs (s.compileRoot r type aggregate path) b items b') (hb : first ≤ b.counter) :
    ∀ i ∈ items, i.Arises s aliased raws first type := by
  cases runs_compileRoot h with
  | leaf unselectable left =>
    intro i hi
    cases hi
  | wanted selectable unmerged compiles =>
    exact arises_of_compileWanted texts aliases on compiles hb
  | @merged t ws more e b₁ _ selectable aggregated entry compiles adds =>
    have hb₁ : first ≤ b₁.counter := by
      obtain ⟨_, _, _, run, _⟩ := runs_compileWanted compiles
      exact keeps_entries (Bindings.counter_stable first) s.offers_true _ _ _ _ _ _ run hb
    intro i hi
    rcases List.mem_append.1 hi with hi | hi
    · exact arises_of_compileWanted texts aliases on compiles hb i (mem_of_mem_beside hi)
    · refine arises_of_compileAll adds hb₁ ?_ ?_ i hi
      · intro e' he' d reaches
        rw [List.mem_singleton.1 he'] at reaches
        exact texts d (.aggregate on entry reaches)
      · intro e' he' d reaches
        rw [List.mem_singleton.1 he'] at reaches
        exact aliases d (.aggregate on entry reaches)

end

/-- An envelope counts the rows of its payload and holds the selections on a row. -/
theorem arises_of_wrap {t : TypeDef} {rows : FieldDef} {row : BaseType} {items : List Item}
    (typed : s.typeNamed type = .ok (some t)) (held : rowsFieldOf t = some rows)
    (returned : rows.base = .ok row) (made : ∀ i ∈ items, i.Arises s aliased raws first row.name) :
    ∀ i ∈ Envelope.wrap items, i.Arises s aliased raws first type := by
  unfold rowsFieldOf at held
  split at held
  · rename_i counted
    intro i hi
    rcases List.mem_cons.1 hi with rfl | hi
    · exact arises_leaf typed counted
    · split at hi
      · cases hi
      · rename_i present
        rw [List.mem_singleton.1 hi]
        refine .block ?_ (rows.takes_nil first) (by simp) returned ?_ ?_
        · rw [field_of_typeNamed typed, held]
        · intro empty
          rw [empty] at present
          exact present rfl
        · intro j hj
          exact made j (List.mem_filter.1 hj).1
  · cases held

/-- The selection below the root field arises on the type that the root field returns. -/
theorem arises_of_planned {r : Request} {root : RootField} {b b' : Bindings} {items : List Item}
    (texts : ∀ e, s.Meets r e → ∀ t ∈ e.rawText?, raws t)
    (aliases : ∀ e, s.Meets r e → ∀ a ∈ e.alias?, aliased a) (resolved : s.resolve r = .ok root)
    (h : Planned s r root b items b') (hb : first ≤ b.counter) :
    ∃ base, root.field.base = .ok base ∧ ∀ i ∈ items, i.Arises s aliased raws first base.name := by
  have stable := Bindings.counter_stable first
  cases h with
  | enveloped envelope compiles =>
    have hb₁ := keeps_envelope stable.report s _ _ _ _ _ envelope hb
    have on := SelectsOn.rows resolved envelope
    rcases runs_envelope envelope with ⟨none', _⟩ | ⟨base, t, rows, row, returned, typed, held,
      of_rows, some', _⟩
    · cases none'
    · cases some'
      refine ⟨base, returned, arises_of_wrap typed held of_rows ?_⟩
      exact arises_of_compileRoot texts aliases on compiles hb₁
  | plain envelope returned compiles =>
    have hb₁ := keeps_envelope stable.report s _ _ _ _ _ envelope hb
    have on := SelectsOn.root resolved envelope returned
    exact ⟨_, returned, arises_of_compileRoot texts aliases on compiles hb₁⟩

/-- A plan binds the arguments of a field that is found on the root type by its name, and then
compiles the selection below it; its variables have the numbers from that of the request on. -/
theorem root_of_plan {r : Request} {p : Plan} (named : s.isNamed = true) (h : s.plan r = .ok p) :
    ∃ root b₁, s.resolve r = .ok root ∧ p.field = root.name ∧
      s.field root.rootType (.str root.name) = .ok (some root.field) ∧
      Runs (r.bindRoot root.field) (Bindings.start r.counter) p.arguments b₁ ∧
      (r.counter : Int) ≤ b₁.counter ∧ Planned s r root b₁ p.items p.bindings := by
  obtain ⟨root, b₁, resolved, _, field_eq, arguments, planned⟩ := planned_of_plan h
  obtain ⟨_, t, ht, hf⟩ := resolve_eq_ok resolved
  have found : s.field root.rootType (.str root.name) = .ok (some root.field) := by
    rw [field_of_type? named ht, hf]
  have start : (r.counter : Int) ≤ (Bindings.start r.counter).counter := Int.le_refl _
  have counted : (r.counter : Int) ≤ b₁.counter :=
    Request.keeps_bindEach (Bindings.counter_stable _) r _ (fun _ _ => trivial) _ _ _ arguments
      start
  exact ⟨root, b₁, resolved, field_eq, found, arguments, counted, planned⟩

end Schema

/-! ### Without raw texts -/

/-- The selections that compiling makes on a type for a request without raw texts. -/
inductive Item.Made (s : Schema) (aliased : String → Prop) (first : Int) : Value → Item → Prop
  | typename (parent : Value) : Made s aliased first parent (.leaf Schema.typenameField)
  | leaf {parent : Value} {name : String} {f : FieldDef} {aliasName : Option String}
      {arguments : List BoundArgument} (found : s.field parent (.str name) = .ok (some f))
      (takes : f.Takes first arguments) (aliases : ∀ a ∈ aliasName, aliased a) :
      Made s aliased first parent (.field aliasName name arguments none)
  | block {parent : Value} {name : String} {f : FieldDef} {base : BaseType}
      {aliasName : Option String} {arguments : List BoundArgument} {items : List Item}
      (found : s.field parent (.str name) = .ok (some f)) (takes : f.Takes first arguments)
      (aliases : ∀ a ∈ aliasName, aliased a) (returned : f.base = .ok base) (present : items ≠ [])
      (below : ∀ i ∈ items, Made s aliased first base.name i) :
      Made s aliased first parent (.field aliasName name arguments (some items))

theorem Item.Arises.made {s : Schema} {aliased raws : String → Prop} {first : Int} {parent : Value}
    {i : Item} (h : i.Arises s aliased raws first parent) (structured : ∀ t, ¬ raws t) :
    i.Made s aliased first parent := by
  induction h with
  | raw given => exact absurd given (structured _)
  | typename parent => exact .typename parent
  | leaf found takes aliases => exact .leaf found takes aliases
  | block found takes aliases returned present below ih =>
    exact .block found takes aliases returned present ih

namespace Schema

variable {s : Schema} {aliased : String → Prop} {first : Int} {type : Value}

theorem made_of_compileAll {es : List Entry} {path : List String} {b b' : Bindings}
    {items : List Item} (h : Runs (s.compileAll es type path) b items b') (hb : first ≤ b.counter)
    (structured : ∀ e ∈ es, ∀ d, Entry.Reaches s type e d → d.isRaw = false)
    (aliases : ∀ e ∈ es, ∀ d, Entry.Reaches s type e d → ∀ a ∈ d.alias?, aliased a) :
    ∀ i ∈ items, i.Made s aliased first type := by
  intro i hi
  have arises := arises_of_compileAll h hb
    (fun e he d reaches => Entry.not_mem_rawText? (structured e he d reaches)) aliases i hi
  exact arises.made fun _ => id

/-- The selection below the root field is made on the type that the root field returns. -/
theorem made_of_planned {r : Request} {root : RootField} {b b' : Bindings} {items : List Item}
    (structured : ∀ e, s.Meets r e → e.isRaw = false)
    (aliases : ∀ e, s.Meets r e → ∀ a ∈ e.alias?, aliased a) (resolved : s.resolve r = .ok root)
    (h : Planned s r root b items b') (hb : first ≤ b.counter) :
    ∃ base, root.field.base = .ok base ∧ ∀ i ∈ items, i.Made s aliased first base.name := by
  obtain ⟨base, returned, arises⟩ := arises_of_planned
    (fun e met => Entry.not_mem_rawText? (structured e met)) aliases resolved h hb
  exact ⟨base, returned, fun i hi => (arises i hi).made fun _ => id⟩

/-- The root field of a plan is a selection on the root type, with all that is selected below it. -/
theorem made_of_plan {r : Request} {p : Plan} (sound : ∀ t ∈ s.types, t.Sound)
    (named : s.isNamed = true) (structured : ∀ e, s.Meets r e → e.isRaw = false)
    (aliases : ∀ e, s.Meets r e → ∀ a ∈ e.alias?, aliased a) (h : s.plan r = .ok p) :
    ∃ root, s.root r.action.operationType = some root ∧
      p.rootItem.Made s aliased r.counter root := by
  obtain ⟨root, b₁, resolved, field_eq, found, arguments, counted, planned⟩ := root_of_plan named h
  obtain ⟨hroot, t, ht, hf⟩ := resolve_eq_ok resolved
  have field_named := isNamed_of_field named found
  have names : ∀ a ∈ root.field.arguments, ∃ name, a.name = .str name := by
    intro a ha
    obtain ⟨name, hname, _⟩ := ArgumentDef.exists_name (FieldDef.isNamed_of_mem field_named ha)
    exact ⟨name, hname⟩
  have distinct := (sound t (mem_of_type? ht)).distinct _ (TypeDef.field?_eq_some hf).1
  have takes := Request.takes_of_bindRoot names distinct arguments (Int.le_refl _)
  obtain ⟨base, returned, made⟩ := made_of_planned structured aliases resolved planned counted
  refine ⟨root.rootType, hroot, ?_⟩
  obtain ⟨_, same⟩ | ⟨present, same⟩ := p.rootItem_eq
  · rw [same, field_eq]
    exact .leaf found takes (by simp)
  · rw [same, field_eq]
    exact .block found takes (by simp) returned present made

end Schema

end GraphRequest
