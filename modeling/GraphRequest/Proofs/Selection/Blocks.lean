import GraphRequest.Proofs.Selection.Names
import GraphRequest.Proofs.Selection.Made

/-!
# Which fields have a body

A field of an object or interface type is written with a body in braces, with at least one selection
in it, and any other field is written without. This is so for every field that a request asks for,
at any depth, also where all that is wanted below a field was dropped: then the default selection of
its type stands in the body.

* `Entry.Bodied`, `Entry.BodiedAll`: selections of entries with bodies just where the types take
  them.
* `Entry.bodied_of_compile`: every selection that an entry compiles to is one.
* `Entry.text_of_compile`: how the text of a wanted field is made up.
-/

namespace GraphRequest

open Step

namespace Entry

/-- Whether an entry asks for a field as such: it is neither raw text, nor switched off, nor the
call of a column function. -/
def asksField : Entry → Bool
  | .toggle _ included => included
  | .subselection _ _ => true
  | .nested _ _ _ _ _ => true
  | _ => false

mutual

/-- A selection of an entry on a type: the field that it asks for has no body if the type that it
returns takes none, and else one with the selections of the entries below it, or with default ones
if they leave none. Raw text and column functions are left open. -/
inductive Bodied (s : Schema) : Value → Entry → Item → Prop
  | raw {parent : Value} {text : String} {i : Item} (written : rawItem text = some i) :
      Bodied s parent (.raw text) i
  | columns (parent : Value) (name : String) (names distinct : Value) (bound : List BoundArgument)
      (body : Option (List Item)) :
      Bodied s parent (.columns name names distinct) (.field none name bound body)
  | leaf {parent : Value} {e : Entry} {name : String} {f : FieldDef} {base : BaseType}
      (asks : e.asksField = true) (named : e.name? = some name)
      (found : s.field parent (.str name) = .ok (some f)) (returned : f.base = .ok base)
      (bound : List BoundArgument) (unselectable : s.selectable base.name = .ok none) :
      Bodied s parent e (.field e.alias? name bound none)
  | block {parent : Value} {e : Entry} {name : String} {f : FieldDef} {base : BaseType}
      {arguments : Fields} {children : List Entry} {t : TypeDef} {kept items : List Item}
      (asks : e.asksField = true) (named : e.name? = some name)
      (found : s.field parent (.str name) = .ok (some f)) (returned : f.base = .ok base)
      (bound : List BoundArgument) (selectable : s.selectable base.name = .ok (some t))
      (wants : Wants s f base e e.alias? arguments children)
      (below : BodiedAll s base.name children kept)
      (selected : kept = [] ∧ s.typeDefault t (Naming.isAggregate name) = .ok items ∨
        kept ≠ [] ∧ items = kept) :
      Bodied s parent e (.field e.alias? name bound (some items))

/-- Selections of entries one after the other, those of the entries that are dropped apart. -/
inductive BodiedAll (s : Schema) : Value → List Entry → List Item → Prop
  | nil (parent : Value) : BodiedAll s parent [] []
  | drop {parent : Value} {e : Entry} {es : List Entry} {items : List Item}
      (dropped : e.Dropped s parent) (rest : BodiedAll s parent es items) :
      BodiedAll s parent (e :: es) items
  | keep {parent : Value} {e : Entry} {es : List Entry} {i : Item} {items : List Item}
      (first : Bodied s parent e i) (rest : BodiedAll s parent es items) :
      BodiedAll s parent (e :: es) (i :: items)

end

variable {s : Schema} {parent : Value} {path : List String} {b b' : Bindings}

theorem Wants.asksField {e : Entry} {f : FieldDef} {base : BaseType} {aliasName : Option String}
    {arguments : Fields} {children : List Entry}
    (h : Wants s f base e aliasName arguments children) : e.asksField = true := by
  cases h <;> rfl

/-- Entries compile to selections of them, if each of them does. -/
theorem bodiedAll_of_each {es : List Entry} {items : List Item}
    (each : ∀ e ∈ es, ∀ b i b', Runs (e.compile s parent path) b (some i) b' →
      Bodied s parent e i)
    (h : Runs (s.compileAll es parent path) b items b') : BodiedAll s parent es items := by
  induction es generalizing b items with
  | nil =>
    obtain ⟨rfl, rfl⟩ := runs_compileAll_nil.1 h
    exact .nil parent
  | cons e es ih =>
    obtain ⟨o, rest, b₁, ho, hr, rfl⟩ := Schema.runs_compileAll_cons.1 h
    have rest := ih (fun e' he' => each e' (.tail _ he')) hr
    obtain ⟨rfl, dropped⟩ | ⟨i, rfl, _⟩ := dropped_or_shown (compiled_of_runs ho)
    · exact .drop dropped rest
    · exact .keep (each e (.head _) b i b₁ ho) rest

/-- An entry compiles to a selection with bodies just where they belong, by induction on the size of
the entry: the body of its field is made of what the entries below it compile to. -/
theorem bodied_of_compile {e : Entry} {i : Item}
    (h : Runs (e.compile s parent path) b (some i) b') : Bodied s parent e i := by
  induction e using (measure (sizeOf : Entry → Nat)).wf.induction
    generalizing parent path b b' i with
  | h e ih =>
    have outcome := compiled_of_runs h
    generalize made : some i = o at outcome
    cases outcome with
    | raw text => exact .raw made.symm
    | unknown => cases made
    | off => cases made
    | @field _ name f base aliasName arguments children bound b₁ _ items body named found returned
        wants binds compiles bodied =>
      cases made
      have below : BodiedAll s base.name children items :=
        bodiedAll_of_each (fun c hc _ _ _ run => ih c (wants.sizeOf_lt hc) run) compiles
      have asks := wants.asksField
      cases wants.alias?_eq
      obtain ⟨leaf, rfl⟩ | ⟨t, inside, selectable, rfl, selected⟩ := Schema.body_eq_ok bodied
      · exact .leaf asks named found returned bound leaf
      · exact .block asks named found returned bound selectable wants below selected
    | bare =>
      cases made
      exact .columns _ _ _ _ _ _
    | columns =>
      cases made
      exact .columns _ _ _ _ _ _

end Entry

namespace Schema

/-- Whether values of a type take a selection: the schema has it as an object or an interface. -/
def TakesBody (s : Schema) (type : Value) : Prop :=
  ∃ t, s.typeNamed type = .ok (some t) ∧ (t.kind = .object ∨ t.kind = .interface)

theorem takesBody_iff {s : Schema} {type : Value} {o : Option TypeDef}
    (h : s.selectable type = .ok o) : s.TakesBody type ↔ o.isSome = true := by
  have kinds (t : TypeDef) : t.isSelectable = true ↔ t.kind = .object ∨ t.kind = .interface := by
    rw [TypeDef.isSelectable]
    cases t.kind <;> decide
  obtain ⟨u, typed, h⟩ := bind_eq_ok.1 h
  cases h
  rw [TakesBody, typed]
  constructor
  · rintro ⟨t, same, kind⟩
    cases same
    rw [Option.filter, if_pos ((kinds t).2 kind)]
    rfl
  · intro present
    obtain ⟨t, filtered⟩ := Option.isSome_iff_exists.1 present
    obtain ⟨rfl, selectable⟩ := Option.filter_eq_some_iff.1 filtered
    exact ⟨t, rfl, (kinds t).1 selectable⟩

end Schema

namespace Entry

variable {s : Schema} {parent : Value} {path : List String} {b b' : Bindings}

/-- The text of a wanted field is its head with the arguments bound for it, and behind it a body
with at least one selection just if its base type takes one. The bodies below it stand just where
they belong, too. -/
theorem text_of_compile {e : Entry} {name : String} {f : FieldDef} {base : BaseType}
    {o : Option Item} (asks : e.asksField = true) (named : e.name? = some name)
    (found : s.field parent (.str name) = .ok (some f)) (returned : f.base = .ok base)
    (h : Runs (e.compile s parent path) b o b') :
    ∃ arguments children bound b₁ i, Wants s f base e e.alias? arguments children ∧
      Runs (f.bindNested (path ++ [name]) arguments) b bound b₁ ∧
      o = some i ∧ Bodied s parent e i ∧
      (s.TakesBody base.name ∧ (∃ items, items ≠ [] ∧
          i.text = Item.blockText (Item.headText e.alias? name bound) (items.map Item.text)) ∨
        ¬ s.TakesBody base.name ∧ i.text = Item.headText e.alias? name bound) := by
  cases compiled_of_runs h with
  | raw text => cases asks
  | unknown structured named' missing =>
    cases named.symm.trans named'
    cases found.symm.trans missing
  | off => cases asks
  | bare => cases asks
  | columns => cases asks
  | @field _ _ _ _ aliasName arguments children bound b₁ _ kept body named' found' returned' wants
      binds compiles bodied =>
    cases named.symm.trans named'
    cases found.symm.trans found'
    cases returned.symm.trans returned'
    cases wants.alias?_eq
    refine ⟨arguments, children, bound, b₁, _, wants, binds, rfl, bodied_of_compile h, ?_⟩
    obtain ⟨leaf, rfl⟩ | ⟨t, items, selectable, rfl, selected⟩ := Schema.body_eq_ok bodied
    · exact .inr ⟨mt (Schema.takesBody_iff leaf).1 Bool.false_ne_true, rfl⟩
    · have present : items ≠ [] := by
        obtain ⟨_, default⟩ | ⟨present, rfl⟩ := selected
        · exact Schema.typeDefault_ne_nil default
        · exact present
      refine .inl ⟨(Schema.takesBody_iff selectable).2 rfl, items, present, ?_⟩
      rw [Item.text, Item.texts_eq_map]

end Entry

namespace Sample

/-- Two posts under another name, with nothing below them that posts have. -/
def latest : Entry :=
  .nested "posts" (some "latest") [("limit", .int 2)] (some [.toggle "bogus" true]) []

theorem exists_posts : ∃ f base, schema.field (.str "User") (.str "posts") = .ok (some f) ∧
    f.base = .ok base ∧ base.name = .str "Post" :=
  Schema.exists_base_of_field (by decide +kernel)

theorem takesBody_post : schema.TakesBody (.str "Post") := by
  obtain ⟨o, typed, holds⟩ : ∃ o, schema.typeNamed (.str "Post") = .ok o ∧
      o.map TypeDef.kind = some .object := exists_of_toOption_map (by decide +kernel)
  obtain ⟨t, rfl, kind⟩ := Option.map_eq_some_iff.1 holds
  exact ⟨t, typed, .inl kind⟩

theorem exists_compile_latest : ∃ p : Option Item × Bindings,
    (latest.compile schema (.str "User") ["users"]).result (Bindings.start 1) = .ok p ∧
      p.1.map Item.text = some "latest: posts(limit: $v1) \x7b\n  __typename\n\x7d" :=
  exists_of_toOption_map (by decide +kernel)

end Sample

/-- Posts have a body also when the only field wanted below them is unknown. -/
theorem Entry.text_of_compile_latest : ∃ bound i items b',
    Runs (Sample.latest.compile Sample.schema (.str "User") ["users"]) (Bindings.start 1)
      (some i) b' ∧ items ≠ [] ∧
    i.text = Item.blockText (Item.headText (some "latest") "posts" bound) (items.map Item.text) ∧
    i.text = "latest: posts(limit: $v1) \x7b\n  __typename\n\x7d" := by
  obtain ⟨f, base, found, returned, name⟩ := Sample.exists_posts
  obtain ⟨⟨o, b'⟩, runs, written⟩ := Sample.exists_compile_latest
  obtain ⟨_, _, bound, _, i, _, _, rfl, _, text⟩ :=
    Entry.text_of_compile (by decide) rfl found returned runs
  rw [name] at text
  obtain ⟨_, items, present, text⟩ := text.resolve_right fun leaf => leaf.1 Sample.takesBody_post
  exact ⟨bound, i, items, b', runs, present, text, Option.some.inj written⟩

end GraphRequest
