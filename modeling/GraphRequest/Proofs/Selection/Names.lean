import GraphRequest.Proofs.Selection.Roots

/-!
# The names that selections begin with

Selections are told apart by the names that their texts begin with: the alias of a field, or its
name if it has none. What a request selects at its root can therefore be said of the names of its
default selections and of the names that its entries show, unless they are dropped.

* `Item.leadingName_field`: what the text of a field begins with.
* `Entry.Dropped`, `Entry.shown?`: the entries that select nothing, and what the others begin with.
* `Schema.forall_leadingName_of_compileWanted`: what the wanted fields of a request begin with.
-/

namespace GraphRequest

open Step

namespace Text

/-- Text that ends a name before it, and begins with no name. -/
structure Silent (cs : List Char) : Prop where
  ends : cs.takeWhile isWord = []
  silent : leadingNameChars cs = none

theorem silent_nil : Silent [] := ⟨rfl, rfl⟩

theorem silent_cons {c : Char} (blank : isBlank c = false) (word : isWord c = false)
    (cs : List Char) : Silent (c :: cs) := by
  have ends : (c :: cs).takeWhile isWord = [] := by simp [word]
  refine ⟨ends, ?_⟩
  rw [leadingNameChars, List.dropWhile_cons_of_neg (by simp [blank]), ends]

theorem silent_blank_cons {c : Char} (blank : isBlank c = true) (word : isWord c = false)
    {cs : List Char} (h : Silent cs) : Silent (c :: cs) := by
  refine ⟨by simp [word], ?_⟩
  rw [leadingNameChars, List.dropWhile_cons_of_pos blank]
  exact h.silent

theorem takeWhile_append_of_silent {cs rest : List Char} (h : Silent rest) :
    (cs ++ rest).takeWhile isWord = cs.takeWhile isWord := by
  induction cs with
  | nil => exact h.ends
  | cons c cs ih => simp only [List.cons_append, List.takeWhile_cons, ih]

/-- What follows a name does not change it. -/
theorem leadingNameChars_append {cs rest : List Char} (h : Silent rest) :
    leadingNameChars (cs ++ rest) = leadingNameChars cs := by
  -- Blanks are skipped first; from the first other character on, only the run of words counts.
  induction cs with
  | nil => exact h.silent
  | cons c cs ih =>
    cases blank : isBlank c with
    | true =>
      rw [List.cons_append, leadingNameChars, leadingNameChars, List.dropWhile_cons_of_pos blank,
        List.dropWhile_cons_of_pos blank]
      exact ih
    | false =>
      have kept (ds : List Char) : (c :: ds).dropWhile isBlank = c :: ds :=
        List.dropWhile_cons_of_neg (by simp [blank])
      rw [leadingNameChars, List.cons_append, kept, ← List.cons_append,
        takeWhile_append_of_silent h, leadingNameChars, kept]

end Text

namespace Item

/-- What is written of a field behind the name that it answers by. -/
def tail (aliasName : Option String) (name : String) (arguments : List BoundArgument)
    (body : Option (List Item)) : String :=
  (if aliasName.isSome then ": " ++ name else "") ++
    (if arguments.isEmpty then ""
      else "(" ++ ", ".intercalate (arguments.map BoundArgument.text) ++ ")") ++
    (match body with
      | none => ""
      | some items => " \x7b\n" ++ Text.indent ("\n".intercalate (texts items)) ++ "\n\x7d")

theorem text_field (aliasName : Option String) (name : String) (arguments : List BoundArgument)
    (body : Option (List Item)) :
    (Item.field aliasName name arguments body).text =
      aliasName.getD name ++ tail aliasName name arguments body := by
  cases aliasName <;> cases body <;>
    simp [text, headText, tail, blockText, String.append_assoc]

theorem silent_tail (aliasName : Option String) (name : String) (arguments : List BoundArgument)
    (body : Option (List Item)) : Text.Silent (tail aliasName name arguments body).toList := by
  have ends {c : Char} (mark : c = ':' ∨ c = '(' ∨ c = '\x7b') (cs : List Char) :
      Text.Silent (c :: cs) := by
    rcases mark with rfl | rfl | rfl <;> exact Text.silent_cons (by decide) (by decide) cs
  cases aliasName with
  | some a =>
    simp only [tail, Option.isSome_some, if_true, String.toList_append, List.append_assoc]
    exact ends (.inl rfl) _
  | none =>
    cases arguments with
    | cons a arguments =>
      simp only [tail, Option.isSome_none, Bool.false_eq_true, if_false, List.isEmpty_cons,
        String.toList_append, List.append_assoc]
      exact ends (.inr (.inl rfl)) _
    | nil =>
      cases body with
      | none => exact Text.silent_nil
      | some items =>
        simp only [tail, Option.isSome_none, Bool.false_eq_true, if_false, List.isEmpty_nil,
          if_true, String.toList_append, List.append_assoc]
        exact Text.silent_blank_cons (by decide) (by decide) (ends (.inr (.inr rfl)) _)

/-- A field is written beginning with its alias, or with its name if it has none. -/
theorem leadingName_field (aliasName : Option String) (name : String)
    (arguments : List BoundArgument) (body : Option (List Item)) :
    (Item.field aliasName name arguments body).leadingName =
      Text.leadingName (aliasName.getD name) := by
  rw [leadingName, Text.leadingName, text_field, String.toList_append,
    Text.leadingNameChars_append (silent_tail _ _ _ _), Text.leadingName]

end Item

/-! ### Entries that select nothing -/

namespace Entry

/-- The entries that select nothing on a type: blank text, a field that is switched off, and a field
that the type does not have. -/
inductive Dropped (s : Schema) (type : Value) : Entry → Prop
  | blank {text : String} (blank : Text.isBlankText text = true) : Dropped s type (.raw text)
  | off (name : String) : Dropped s type (.toggle name false)
  | unknown {e : Entry} {name : String} (structured : e.isRaw = false)
      (named : e.name? = some name) (missing : s.field type (.str name) = .ok none) :
      Dropped s type e

/-- The name that the selection of an entry is written beginning with. -/
def shown? : Entry → Option String
  | .raw text => Text.leadingName (Text.strip text)
  | e => Text.leadingName (e.alias?.getD (e.name?.getD ""))

theorem shown?_of_structured {e : Entry} {name : String} (structured : e.isRaw = false)
    (named : e.name? = some name) : e.shown? = Text.leadingName (e.alias?.getD name) := by
  cases e with
  | raw text => cases structured
  | _ =>
    cases named
    rfl

variable {s : Schema} {type : Value} {path : List String} {b b' : Bindings}

theorem Wants.isRaw_eq {f : FieldDef} {base : BaseType} {e : Entry} {aliasName : Option String}
    {arguments : Fields} {children : List Entry}
    (h : Wants s f base e aliasName arguments children) : e.isRaw = false := by
  cases h <;> rfl

/-- A field that the type has is not dropped, unless it is switched off. -/
theorem not_dropped {e : Entry} {name : String} {f : FieldDef} (structured : e.isRaw = false)
    (named : e.name? = some name) (found : s.field type (.str name) = .ok (some f))
    (wanted : ∀ name, e ≠ .toggle name false) : ¬ e.Dropped s type := by
  intro dropped
  cases dropped with
  | blank => cases structured
  | off name' => exact wanted name' rfl
  | unknown _ named' missing =>
    rw [named] at named'
    cases named'
    rw [found] at missing
    cases missing

/-- An entry is dropped, or it makes a selection that begins with the name it shows. -/
theorem dropped_or_shown {e : Entry} {o : Option Item} (h : Compiled s type path b e o b') :
    o = none ∧ e.Dropped s type ∨
      ∃ i, o = some i ∧ ¬ e.Dropped s type ∧ i.leadingName = e.shown? := by
  cases h with
  | raw text =>
    unfold rawItem
    cases blank : Text.isBlankText text with
    | true => exact .inl ⟨rfl, .blank blank⟩
    | false =>
      refine .inr ⟨_, rfl, ?_, rfl⟩
      intro dropped
      cases dropped with
      | blank blank' =>
        rw [blank] at blank'
        cases blank'
      | unknown structured => cases structured
  | unknown structured named missing code place =>
    exact .inl ⟨rfl, .unknown structured named missing⟩
  | off found returned => exact .inl ⟨rfl, .off _⟩
  | field named found returned wants binds compiles bodied =>
    refine .inr ⟨_, rfl, not_dropped wants.isRaw_eq named found ?_, ?_⟩
    · rintro name' rfl
      cases wants
    · rw [shown?_of_structured wants.isRaw_eq named, wants.alias?_eq, Item.leadingName_field]
  | bare found returned undeclared code place bodied =>
    refine .inr ⟨_, rfl, not_dropped rfl rfl found (by simp), ?_⟩
    exact Item.leadingName_field _ _ _ _
  | columns found returned declared listed binds =>
    refine .inr ⟨_, rfl, not_dropped rfl rfl found (by simp), ?_⟩
    exact Item.leadingName_field _ _ _ _

end Entry

namespace Schema

variable {s : Schema} {type : Value} {path : List String} {b b' : Bindings}

/-- What the selections of a list of entries begin with, the entries that are dropped apart. -/
theorem forall_leadingName_of_compileAll {P : Option String → Prop} {es : List Entry}
    {items : List Item} (h : Runs (s.compileAll es type path) b items b') :
    (∀ i ∈ items, P i.leadingName) ↔ ∀ e ∈ es, e.Dropped s type ∨ P e.shown? := by
  induction es generalizing b items with
  | nil =>
    obtain ⟨rfl, rfl⟩ := Entry.runs_compileAll_nil.1 h
    simp
  | cons e es ih =>
    obtain ⟨o, rest, b₁, ho, hr, rfl⟩ := runs_compileAll_cons.1 h
    have first : (∀ i ∈ o.toList, P i.leadingName) ↔ e.Dropped s type ∨ P e.shown? := by
      obtain ⟨rfl, dropped⟩ | ⟨i, rfl, kept, shown⟩ :=
        Entry.dropped_or_shown (Entry.compiled_of_runs ho)
      · simp [dropped]
      · simp [kept, shown]
    rw [List.forall_mem_append, List.forall_mem_cons, first, ih hr]

/-! ### Default selections -/

/-- The names that the default selection of a request begins with, if it has one. -/
def defaultNames (r : Request) (t : TypeDef) : List String :=
  if r.replacesDefaults then []
  else if r.isAggregate then [if t.declares "aggregate" then "aggregate" else typenameField]
  else if (rootDefaultFields.filter t.declares).isEmpty then [typenameField]
  else rootDefaultFields.filter t.declares

theorem leadingName_leaf {name : String} (h : name ∈ typenameField :: rootDefaultFields) :
    (Item.leaf name).leadingName = some name := by
  have named : ∀ name ∈ typenameField :: rootDefaultFields, Text.leadingName name = some name := by
    decide
  exact (Item.leadingName_field none name [] none).trans (named name h)

/-- The default selections begin with the names of their fields. -/
theorem leadingName_rootDefaults {r : Request} {t : TypeDef} {items : List Item}
    (selectable : s.selectable type = .ok (some t)) (default : r.replacesDefaults = false)
    (made : s.rootDefaults type r.isAggregate = .ok items) :
    items.map Item.leadingName = (defaultNames r t).map some := by
  rw [defaultNames, default, if_neg Bool.false_ne_true]
  cases aggregate : r.isAggregate with
  | true =>
    rw [aggregate, rootDefaults, if_pos rfl] at made
    simp only [defaultSelection, selectable, bind, Except.bind, typeDefault, if_true] at made
    rw [if_pos rfl]
    unfold aggregateDefault at made
    split at made
    · rename_i missing
      cases made
      simp [TypeDef.declares, missing, leadingName_leaf]
    · rename_i f found
      obtain ⟨base, _, h₁⟩ := bind_eq_ok.1 made
      obtain ⟨o, _, h₂⟩ := bind_eq_ok.1 h₁
      cases h₂
      have named : Text.leadingName "aggregate" = some "aggregate" := by decide
      simp [TypeDef.declares, found, Item.leadingName_field, named]
  | false =>
    rw [aggregate, rootDefaults, if_neg Bool.false_ne_true] at made
    simp only [selectable, bind, Except.bind, Except.ok.injEq] at made
    rw [if_neg Bool.false_ne_true, ← made, List.map_map]
    apply List.map_congr_left
    intro name hname
    apply leadingName_leaf
    split at hname
    · exact List.mem_cons.2 (.inl (List.mem_singleton.1 hname))
    · exact List.mem_cons_of_mem _ (List.mem_filter.1 hname).1

/-- What the selections that stay beside some entries begin with. -/
theorem forall_leadingName_beside {P : Option String → Prop} {es : List Entry} {items : List Item}
    {names : List String} (same : items.map Item.leadingName = names.map some) :
    (∀ i ∈ beside es items, P i.leadingName) ↔
      ∀ name ∈ names, (∃ e ∈ es, e.name? = some name) ∨ P (some name) := by
  constructor
  · intro left name hname
    have member : some name ∈ items.map Item.leadingName := by
      rw [same]
      exact List.mem_map_of_mem hname
    obtain ⟨i, hi, begins⟩ := List.mem_map.1 member
    by_cases taken : ∃ e ∈ es, e.name? = some name
    · exact .inl taken
    · have stays : i ∈ beside es items := by
        refine List.mem_filter.2 ⟨hi, List.all_eq_true.2 fun e he => ?_⟩
        rw [bne_iff_ne, begins]
        exact fun clash => taken ⟨e, he, clash.symm⟩
      exact .inr (begins ▸ left i stays)
  · intro names' i hi
    obtain ⟨member, free⟩ := List.mem_filter.1 hi
    have begins : i.leadingName ∈ names.map some := by
      rw [← same]
      exact List.mem_map_of_mem member
    obtain ⟨name, hname, begins⟩ := List.mem_map.1 begins
    rw [← begins] at free ⊢
    rcases names' name hname with ⟨e, he, clash⟩ | holds
    · have differs := List.all_eq_true.1 free e he
      rw [clash] at differs
      simp at differs
    · exact holds

/-- What the selections of the wanted fields of a request begin with. -/
theorem forall_leadingName_of_compileWanted {P : Option String → Prop} {r : Request} {t : TypeDef}
    {items : List Item} (selectable : s.selectable type = .ok (some t))
    (h : Runs (s.compileWanted r type r.isAggregate path) b items b') :
    (∀ i ∈ items, P i.leadingName) ↔
      (∀ name ∈ defaultNames r t, (∃ e ∈ r.wantedEntries, e.name? = some name) ∨ P (some name)) ∧
        ∀ e ∈ r.wantedEntries, e.Dropped s type ∨ P e.shown? := by
  obtain ⟨defaults, more, replaced, made, compiles, rfl⟩ := runs_compileWanted_defaults h
  have same : defaults.map Item.leadingName = (defaultNames r t).map some := by
    cases hr : r.replacesDefaults with
    | true =>
      rw [replaced hr, defaultNames, hr]
      rfl
    | false => exact leadingName_rootDefaults selectable hr (made hr)
  rw [List.forall_mem_append, forall_leadingName_beside same,
    forall_leadingName_of_compileAll compiles]

end Schema

end GraphRequest
