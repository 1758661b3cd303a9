import GraphRequest.Proofs.Query.Reports
import GraphRequest.Proofs.Selection.Names
import GraphRequest.Proofs.Selection.Refused
import GraphRequest.Proofs.Selection.Variables

/-!
# What becomes of all that is wanted below a field

Whatever an entry asks for below a field of the schema either stands in the body of that field, or
is reported, or is switched off, or is overridden by a later entry for the same field of an
aggregate. There is one exception: a field whose type takes no selection has no body, so that raw
text wanted below it is left out, and nothing is said of it.

* `Entry.Asks`, `Entry.Overriding`: what an entry asks for below its field, and what is compiled
  of it.
* `Entry.Accounts`: what became of an entry and of all that is wanted below it, with the problems
  reported meanwhile and the entries that were left out without a word.
* `Entry.Discards`: which entries these are; by `Entry.exists_raw_of_discards` they are raw text.
* `Entry.accounts_of_compile`: an account of every compiled entry.
-/

namespace GraphRequest

open Step

namespace Entry

/-! ### What an entry asks for below its field -/

/-- The entries that an entry asks for below its field, before those for one field of an aggregate
are merged. A key that is an argument of the field is no entry. -/
inductive Asks (s : Schema) (f : FieldDef) (base : BaseType) : Entry → List Entry → Prop
  | toggle (name : String) : Asks s f base (.toggle name true) []
  | subselection (name : String) (children : List Entry) :
      Asks s f base (.subselection name children) children
  | nested {name : String} {aliasName : Option String} {arguments : Fields}
      {returning : Option (List Entry)} {extras : List Extra} {t : Option TypeDef}
      {more : List Entry} (type : s.typeNamed base.name = .ok t)
      (read : extraEntries (isArgumentOf name f t) extras = .ok more) :
      Asks s f base (.nested name aliasName arguments returning extras) (returning.getD [] ++ more)

/-- Of the entries that are asked for below a field all are compiled, but those below an aggregate
that a later entry for the same field overrides. -/
def Overriding (name : String) (asked children : List Entry) : Prop :=
  ∀ before c after, asked = before ++ c :: after →
    c ∈ children ∨ Naming.isAggregate name = true ∧ ∃ later ∈ after, later.key = c.key

theorem overriding_self (name : String) (es : List Entry) : Overriding name es es := by
  rintro before c after rfl
  exact .inl (List.mem_append_right _ (.head _))

theorem overriding_merged {name : String} (aggregate : Naming.isAggregate name = true)
    (es : List Entry) : Overriding name es (merged es) := by
  rintro before c after rfl
  by_cases overridden : ∃ later ∈ after, later.key = c.key
  · exact .inr ⟨aggregate, overridden⟩
  · left
    refine List.mem_map.2 ⟨(c.key, c), ?_, rfl⟩
    rw [List.map_append, List.map_cons]
    refine Keyed.mem_merge_of_last fun q hq same => ?_
    obtain ⟨later, hlater, rfl⟩ := List.mem_map.1 hq
    exact overridden ⟨later, hlater, same⟩

/-- What is compiled below a field is what its entry asks for, but for what is overridden. -/
theorem Wants.exists_asks {s : Schema} {f : FieldDef} {base : BaseType} {e : Entry} {name : String}
    {aliasName : Option String} {arguments : Fields} {children : List Entry}
    (named : e.name? = some name) (h : Wants s f base e aliasName arguments children) :
    ∃ asked, Asks s f base e asked ∧ Overriding name asked children := by
  cases h with
  | toggle name => exact ⟨[], .toggle name, overriding_self _ _⟩
  | subselection name children =>
    exact ⟨children, .subselection name children, overriding_self _ _⟩
  | nested type below =>
    cases named
    obtain ⟨more, read, below⟩ := bind_eq_ok.1 below
    refine ⟨_, .nested type read, ?_⟩
    cases below
    split
    · rename_i aggregate
      exact overriding_merged aggregate _
    · exact overriding_self _ _

/-! ### Accounts -/

mutual

/-- What became of an entry on a type, and of all that is wanted below it: its selection if it has
one, the problems reported, and the entries that were left out without a word, each with the path to
the field that it was wanted below. -/
inductive Accounts (s : Schema) : Value → List String → Entry → Option Item → List Diagnostic →
    List (List String × Entry) → Prop
  /-- Raw text is taken over; blank text selects nothing. -/
  | raw (parent : Value) (path : List String) (text : String) :
      Accounts s parent path (.raw text) (rawItem text) [] []
  /-- A field that is switched off selects nothing. -/
  | off (parent : Value) (path : List String) (name : String) :
      Accounts s parent path (.toggle name false) none [] []
  /-- A field that the type does not have is reported. -/
  | unknown {parent : Value} {path : List String} {e : Entry} {name : String} {d : Diagnostic}
      (structured : e.isRaw = false) (named : e.name? = some name)
      (missing : s.field parent (.str name) = .ok none) (code : d.code = .unknownField)
      (place : d.path = path ++ [name]) : Accounts s parent path e none [d] []
  /-- Nothing is wanted below the call of a column function. -/
  | columns (parent : Value) (path : List String) (name : String) (names distinct : Value)
      (bound : List BoundArgument) (body : Option (List Item)) {reported : List Diagnostic}
      (codes : ∀ d ∈ reported, d.code = .unknownArgument) :
      Accounts s parent path (.columns name names distinct) (some (.field none name bound body))
        reported []
  /-- What is selected below a field stands in its body, if its type takes one. -/
  | block {parent : Value} {path : List String} {e : Entry} {name : String} {f : FieldDef}
      {base : BaseType} {asked children : List Entry} {kept : List (Entry × Item)}
      {items : List Item} {bound : List BoundArgument} {reported ds : List Diagnostic}
      {lost : List (List String × Entry)} (named : e.name? = some name)
      (found : s.field parent (.str name) = .ok (some f)) (returned : f.base = .ok base)
      (asks : Asks s f base e asked) (overriding : Overriding name asked children)
      (codes : ∀ d ∈ reported, d.code = .unknownArgument)
      (below : AccountsAll s base.name (path ++ [name]) children kept ds lost)
      (shown : kept ≠ [] → items = kept.map Prod.snd) :
      Accounts s parent path e (some (.field e.alias? name bound (some items))) (reported ++ ds)
        lost
  /-- What is selected below a field whose type takes no body is lost. -/
  | leaf {parent : Value} {path : List String} {e : Entry} {name : String} {f : FieldDef}
      {base : BaseType} {asked children : List Entry} {kept : List (Entry × Item)}
      {bound : List BoundArgument} {reported ds : List Diagnostic}
      {lost : List (List String × Entry)} (named : e.name? = some name)
      (found : s.field parent (.str name) = .ok (some f)) (returned : f.base = .ok base)
      (unselectable : s.selectable base.name = .ok none) (asks : Asks s f base e asked)
      (overriding : Overriding name asked children)
      (codes : ∀ d ∈ reported, d.code = .unknownArgument)
      (below : AccountsAll s base.name (path ++ [name]) children kept ds lost) :
      Accounts s parent path e (some (.field e.alias? name bound none)) (reported ++ ds)
        (kept.map (fun p => (path ++ [name], p.1)) ++ lost)

/-- What became of entries one after the other: those that select something, with their selections,
the problems reported, and what was left out without a word. -/
inductive AccountsAll (s : Schema) : Value → List String → List Entry → List (Entry × Item) →
    List Diagnostic → List (List String × Entry) → Prop
  | nil (parent : Value) (path : List String) : AccountsAll s parent path [] [] [] []
  | drop {parent : Value} {path : List String} {e : Entry} {es : List Entry}
      {kept : List (Entry × Item)} {ds ds' : List Diagnostic}
      {lost lost' : List (List String × Entry)} (first : Accounts s parent path e none ds lost)
      (rest : AccountsAll s parent path es kept ds' lost') :
      AccountsAll s parent path (e :: es) kept (ds ++ ds') (lost ++ lost')
  | keep {parent : Value} {path : List String} {e : Entry} {es : List Entry} {i : Item}
      {kept : List (Entry × Item)} {ds ds' : List Diagnostic}
      {lost lost' : List (List String × Entry)} (first : Accounts s parent path e (some i) ds lost)
      (rest : AccountsAll s parent path es kept ds' lost') :
      AccountsAll s parent path (e :: es) ((e, i) :: kept) (ds ++ ds') (lost ++ lost')

end

/-- An entry discards another one that is wanted below one of its fields, at the path of that field:
the field is of a type that takes no selection, and the other entry selects something on it. -/
inductive Discards (s : Schema) : Value → List String → Entry → List String → Entry → Prop
  | here {parent : Value} {path : List String} {e c : Entry} {name : String} {f : FieldDef}
      {base : BaseType} {aliasName : Option String} {arguments : Fields} {children : List Entry}
      (named : e.name? = some name) (found : s.field parent (.str name) = .ok (some f))
      (returned : f.base = .ok base) (wants : Wants s f base e aliasName arguments children)
      (unselectable : s.selectable base.name = .ok none) (child : c ∈ children)
      (selects : ¬ c.Dropped s base.name) : Discards s parent path e (path ++ [name]) c
  | inside {parent : Value} {path place : List String} {e c d : Entry} {name : String}
      {f : FieldDef} {base : BaseType} {aliasName : Option String} {arguments : Fields}
      {children : List Entry} (named : e.name? = some name)
      (found : s.field parent (.str name) = .ok (some f)) (returned : f.base = .ok base)
      (wants : Wants s f base e aliasName arguments children) (child : c ∈ children)
      (discards : Discards s base.name (path ++ [name]) c place d) :
      Discards s parent path e place d

variable {s : Schema} {parent : Value} {path : List String} {b b' : Bindings}

/-- There is an account of an entry that compiled, and what it says to be left out without a word is
what the entry discards. -/
def Accounted (s : Schema) (parent : Value) (path : List String) (e : Entry) (b : Bindings)
    (o : Option Item) (b' : Bindings) : Prop :=
  ∃ ds lost, b'.diagnostics = b.diagnostics ++ ds ∧ Accounts s parent path e o ds lost ∧
    ∀ place c, (place, c) ∈ lost ↔ Discards s parent path e place c

/-- There is an account of entries that compiled one after the other. It holds the selections of
those that are not dropped, and what it says to be left out without a word is what the entries
discard. -/
def AccountedAll (s : Schema) (parent : Value) (path : List String) (es : List Entry)
    (b : Bindings) (items : List Item) (b' : Bindings) : Prop :=
  ∃ kept ds lost, items = kept.map Prod.snd ∧ b'.diagnostics = b.diagnostics ++ ds ∧
    AccountsAll s parent path es kept ds lost ∧
    (∀ c, c ∈ kept.map Prod.fst ↔ c ∈ es ∧ ¬ c.Dropped s parent) ∧
    ∀ place d, (place, d) ∈ lost ↔ ∃ c ∈ es, Discards s parent path c place d

theorem accountedAll_of_each {es : List Entry} {items : List Item}
    (each : ∀ e ∈ es, ∀ b o b', Runs (e.compile s parent path) b o b' →
      Accounted s parent path e b o b')
    (h : Runs (s.compileAll es parent path) b items b') :
    AccountedAll s parent path es b items b' := by
  induction es generalizing b items with
  | nil =>
    obtain ⟨rfl, rfl⟩ := runs_compileAll_nil.1 h
    exact ⟨[], [], [], rfl, (List.append_nil _).symm, .nil parent path, by simp, by simp⟩
  | cons e es ih =>
    obtain ⟨o, rest, b₁, ho, hr, rfl⟩ := Schema.runs_compileAll_cons.1 h
    obtain ⟨ds, lost, reported, first, discards⟩ := each e (.head _) b o b₁ ho
    obtain ⟨kept, ds', lost', rfl, reported', others, selecting, discards'⟩ :=
      ih (fun e' he' => each e' (.tail _ he')) hr
    have diagnostics : b'.diagnostics = b.diagnostics ++ (ds ++ ds') := by
      rw [reported', reported, List.append_assoc]
    have left (place : List String) (d : Entry) : (place, d) ∈ lost ++ lost' ↔
        ∃ c ∈ e :: es, Discards s parent path c place d := by
      simp only [List.mem_append, discards, discards', List.mem_cons, or_and_right, exists_or,
        exists_eq_left]
    obtain ⟨rfl, dropped⟩ | ⟨i, rfl, stays, _⟩ := dropped_or_shown (compiled_of_runs ho)
    · refine ⟨kept, _, _, rfl, diagnostics, .drop first others, fun c => ?_, left⟩
      rw [selecting, List.mem_cons]
      constructor
      · exact fun h => ⟨.inr h.1, h.2⟩
      · rintro ⟨rfl | hc, stays⟩
        · exact absurd dropped stays
        · exact ⟨hc, stays⟩
    · refine ⟨(e, i) :: kept, _, _, rfl, diagnostics, .keep first others, fun c => ?_, left⟩
      rw [List.map_cons, List.mem_cons, selecting, List.mem_cons]
      constructor
      · rintro (rfl | h)
        · exact ⟨.inl rfl, stays⟩
        · exact ⟨.inr h.1, h.2⟩
      · rintro ⟨rfl | hc, stays'⟩
        · exact .inl rfl
        · exact .inr ⟨hc, stays'⟩

/-- What an entry for a field discards is below that field. -/
theorem discards_iff {e : Entry} {name : String} {f : FieldDef} {base : BaseType}
    {aliasName : Option String} {arguments : Fields} {children : List Entry}
    (named : e.name? = some name) (found : s.field parent (.str name) = .ok (some f))
    (returned : f.base = .ok base) (wants : Wants s f base e aliasName arguments children)
    {place : List String} {c : Entry} : Discards s parent path e place c ↔
      (place = path ++ [name] ∧ s.selectable base.name = .ok none ∧ c ∈ children ∧
        ¬ c.Dropped s base.name) ∨
      ∃ d ∈ children, Discards s base.name (path ++ [name]) d place c := by
  constructor
  · intro discards
    cases discards with
    | here named' found' returned' wants' unselectable child selects =>
      cases named.symm.trans named'
      cases found.symm.trans found'
      cases returned.symm.trans returned'
      cases wants.children_eq wants'
      exact .inl ⟨rfl, unselectable, child, selects⟩
    | inside named' found' returned' wants' child discards =>
      cases named.symm.trans named'
      cases found.symm.trans found'
      cases returned.symm.trans returned'
      cases wants.children_eq wants'
      exact .inr ⟨_, child, discards⟩
  · rintro (⟨rfl, unselectable, child, selects⟩ | ⟨d, child, discards⟩)
    · exact .here named found returned wants unselectable child selects
    · exact .inside named found returned wants child discards

/-- An entry below whose field nothing is wanted discards nothing. -/
theorem not_discards {e c : Entry} {place : List String}
    (nothing : ∀ f base aliasName arguments children,
      ¬ Wants s f base e aliasName arguments children) :
    ¬ Discards s parent path e place c := by
  intro discards
  cases discards with
  | here _ _ _ wants => exact nothing _ _ _ _ _ wants
  | inside _ _ _ wants => exact nothing _ _ _ _ _ wants

/-- A field that the type does not have discards nothing. -/
theorem not_discards_of_missing {e c : Entry} {place : List String} {name : String}
    (named : e.name? = some name) (missing : s.field parent (.str name) = .ok none) :
    ¬ Discards s parent path e place c := by
  intro discards
  cases discards with
  | here named' found =>
    cases named.symm.trans named'
    cases missing.symm.trans found
  | inside named' found =>
    cases named.symm.trans named'
    cases missing.symm.trans found

/-- Binding the arguments of a field reports those that it does not declare. -/
theorem reports_bindNested {name : String} {f : FieldDef} {arguments : Fields}
    {bound : List BoundArgument} (found : s.field parent (.str name) = .ok (some f))
    (h : Runs (f.bindNested path arguments) b bound b') :
    Bindings.Reports (· = .unknownArgument) b b' :=
  FieldDef.within_bindNestedFrom (C := (· = .unknownArgument)) Bindings.allows_reports rfl
    (s.offers_true.of_field found) path [] arguments b bound b' h

/-- The account of a field, from that of the entries compiled below it: what these select stands in
the body of the field, and is lost if the field has no body. -/
theorem accounted_field {e : Entry} {name : String} {f : FieldDef} {base : BaseType}
    {aliasName : Option String} {arguments : Fields} {children : List Entry}
    {bound : List BoundArgument} {b₁ : Bindings} {items : List Item} {body : Option (List Item)}
    (named : e.name? = some name) (found : s.field parent (.str name) = .ok (some f))
    (returned : f.base = .ok base) (wants : Wants s f base e aliasName arguments children)
    (binds : Bindings.Reports (· = .unknownArgument) b b₁)
    (compiles : AccountedAll s base.name (path ++ [name]) children b₁ items b')
    (bodied : s.body items base.name (Naming.isAggregate name) = .ok body) :
    Accounted s parent path e b (some (.field aliasName name bound body)) b' := by
  obtain ⟨reported, first, codes⟩ := binds
  obtain ⟨kept, ds, lost, rfl, second, below, selecting, discards⟩ := compiles
  obtain ⟨asked, asks, overriding⟩ := wants.exists_asks named
  have same : b'.diagnostics = b.diagnostics ++ (reported ++ ds) := by
    rw [second, first, List.append_assoc]
  rw [← wants.alias?_eq]
  obtain ⟨unselectable, rfl⟩ | ⟨t, shown, selectable, rfl, made⟩ := Schema.body_eq_ok bodied
  · refine ⟨_, _, same, .leaf named found returned unselectable asks overriding codes below,
      fun place c => ?_⟩
    rw [discards_iff named found returned wants, ← discards, List.mem_append]
    refine or_congr_left ?_
    constructor
    · intro left
      obtain ⟨p, hp, left⟩ := List.mem_map.1 left
      cases left
      exact ⟨rfl, unselectable, (selecting p.1).1 (List.mem_map_of_mem hp)⟩
    · rintro ⟨rfl, _, selects⟩
      obtain ⟨p, hp, rfl⟩ := List.mem_map.1 ((selecting c).2 selects)
      exact List.mem_map_of_mem hp
  · refine ⟨_, _, same, .block named found returned asks overriding codes below ?_,
      fun place c => ?_⟩
    · intro some_kept
      obtain ⟨empty, _⟩ | ⟨_, rfl⟩ := made
      · exact absurd (List.map_eq_nil_iff.1 empty) some_kept
      · rfl
    · rw [discards_iff named found returned wants, ← discards]
      refine (or_iff_right ?_).symm
      rintro ⟨_, unselectable, _⟩
      cases selectable.symm.trans unselectable

/-- There is an account of every entry that compiles, by induction on the size of the entry: the
account of a field is put together from those of the entries compiled below it. -/
theorem accounted_of_compile {e : Entry} {o : Option Item}
    (h : Runs (e.compile s parent path) b o b') : Accounted s parent path e b o b' := by
  induction e using (measure (sizeOf : Entry → Nat)).wf.induction
    generalizing parent path b b' o with
  | h e ih =>
    have nothing {e : Entry} (h : ∀ f base aliasName arguments children,
        ¬ Wants s f base e aliasName arguments children) (place : List String) (c : Entry) :
        (place, c) ∈ [] ↔ Discards s parent path e place c :=
      iff_of_false List.not_mem_nil (not_discards h)
    cases compiled_of_runs h with
    | raw text =>
      exact ⟨[], [], (List.append_nil _).symm, .raw parent path text,
        nothing fun _ _ _ _ _ wants => by cases wants⟩
    | @unknown _ name d structured named missing code place =>
      exact ⟨[d], [], rfl, .unknown structured named missing code place, fun _ _ =>
        iff_of_false List.not_mem_nil (not_discards_of_missing named missing)⟩
    | @off name =>
      exact ⟨[], [], (List.append_nil _).symm, .off parent path name,
        nothing fun _ _ _ _ _ wants => by cases wants⟩
    | @bare name names distinct f base d body found returned undeclared code place bodied =>
      have codes : ∀ d' ∈ [d], d'.code = .unknownArgument := List.forall_mem_singleton.2 code
      exact ⟨[d], [], rfl, .columns parent path name names distinct [] body codes,
        nothing fun _ _ _ _ _ wants => by cases wants⟩
    | @columns name names distinct f base columns bound _ found returned declared listed binds =>
      obtain ⟨reported, same, codes⟩ := reports_bindNested found binds
      exact ⟨reported, [], same, .columns parent path name names distinct bound none codes,
        nothing fun _ _ _ _ _ wants => by cases wants⟩
    | field named found returned wants binds compiles bodied =>
      refine accounted_field named found returned wants (reports_bindNested found binds) ?_ bodied
      exact accountedAll_of_each (fun c hc _ _ _ run => ih c (wants.sizeOf_lt hc) run) compiles

/-- A type that takes no selection has no fields. -/
theorem field_of_selectable_none (leaf : s.FieldsOnSelectable) {type : Value}
    (unselectable : s.selectable type = .ok none) (name : String) :
    s.field type (.str name) = .ok none := by
  obtain ⟨o, typed, _⟩ := bind_eq_ok.1 unselectable
  obtain ⟨found, looked⟩ : ∃ found, s.field type (.str name) = .ok found := by
    cases o with
    | some t => exact ⟨_, Schema.field_of_typeNamed typed name⟩
    | none =>
      unfold Schema.typeNamed at typed
      unfold Schema.field
      split at typed
      · exact ⟨none, rfl⟩
      · rw [typed]
        exact ⟨none, rfl⟩
  cases found with
  | none => exact looked
  | some f => exact absurd unselectable (Schema.selectable_of_field leaf looked)

/-- What is left out without a word is raw text, since every field asked for on a type that takes no
selection is reported. -/
theorem exists_raw_of_discards (leaf : s.FieldsOnSelectable) {e c : Entry} {place : List String}
    (discards : Discards s parent path e place c) :
    ∃ text, c = .raw text ∧ Text.isBlankText text = false := by
  induction discards with
  | inside _ _ _ _ _ _ ih => exact ih
  | @here _ _ _ c _ _ base _ _ _ _ _ _ _ unselectable _ selects =>
    cases raw : c.isRaw with
    | false =>
      cases c with
      | raw text => cases raw
      | _ => exact absurd (.unknown raw rfl (field_of_selectable_none leaf unselectable _)) selects
    | true =>
      cases c with
      | raw text => exact ⟨text, rfl, Bool.eq_false_iff.2 fun blank => selects (.blank blank)⟩
      | _ => cases raw

/-- When an entry compiles, there is an account of all that is wanted below it. What is left out
without a word are just the entries that it discards, below a field whose type takes no selection,
and these are raw text where such types have no fields. -/
theorem accounts_of_compile {e : Entry} {o : Option Item}
    (h : Runs (e.compile s parent path) b o b') :
    ∃ ds lost, b'.diagnostics = b.diagnostics ++ ds ∧ Accounts s parent path e o ds lost ∧
      (∀ place c, (place, c) ∈ lost ↔ Discards s parent path e place c) ∧
      (s.FieldsOnSelectable → ∀ place c, (place, c) ∈ lost →
        ∃ text, c = .raw text ∧ Text.isBlankText text = false) := by
  obtain ⟨ds, lost, reported, accounts, discards⟩ := accounted_of_compile h
  refine ⟨ds, lost, reported, accounts, discards, fun leaf place c left => ?_⟩
  exact exists_raw_of_discards leaf ((discards place c).1 left)

end Entry

namespace Sample

/-- The numbers of users with raw text and with an unknown field below them. -/
def torn : Entry := .subselection "id" [.raw "bogus", .toggle "unknown" true]

theorem exists_compile_torn : ∃ p : Option Item × Bindings,
    (torn.compile schema (.str "User") ["users"]).result (Bindings.start 1) = .ok p ∧
      (p.1.map Item.text, p.2.diagnostics.map Diagnostic.path) =
        (some "id", [["users", "id", "unknown"]]) :=
  exists_of_toOption_map (by decide +kernel)

theorem exists_id : ∃ f base, schema.field (.str "User") (.str "id") = .ok (some f) ∧
    f.base = .ok base ∧ base.name = .str "Int" :=
  Schema.exists_base_of_field (by decide +kernel)

theorem selectable_int : schema.selectable (.str "Int") = .ok none := by rfl

end Sample

namespace Entry

/-- Below the number of a user, where raw text is wanted and an unknown field, the field is reported
and the text is all that is left out without a word. -/
theorem accounts_of_compile_torn : ∃ o b', Runs (Sample.torn.compile Sample.schema (.str "User")
      ["users"]) (Bindings.start 1) o b' ∧
    ∃ ds lost, b'.diagnostics = ds ∧ ds.map Diagnostic.path = [["users", "id", "unknown"]] ∧
      Accounts Sample.schema (.str "User") ["users"] Sample.torn o ds lost ∧
      (["users", "id"], .raw "bogus") ∈ lost := by
  obtain ⟨⟨o, b'⟩, run, written⟩ := Sample.exists_compile_torn
  obtain ⟨f, base, found, returned, name⟩ := Sample.exists_id
  have unselectable : Sample.schema.selectable base.name = .ok none := by
    rw [name]
    exact Sample.selectable_int
  obtain ⟨ds, lost, reported, accounts, discards, _⟩ := accounts_of_compile run
  have paths := (Prod.mk.inj written).2
  have same : b'.diagnostics = ds := reported
  refine ⟨o, b', run, ds, lost, same, same ▸ paths, accounts, (discards _ _).2 ?_⟩
  refine .here rfl found returned (.subselection "id" _) unselectable (.head _) ?_
  rintro (blank | _ | structured)
  · exact absurd blank (by decide)
  · cases structured

/-- Raw text wanted below the number of a user is left out, and nothing is reported. -/
theorem silent_compile_raw : ∃ f base o b', Sample.schema.field (.str "User") (.str "id") =
      .ok (some f) ∧ f.base = .ok base ∧ Sample.schema.selectable base.name = .ok none ∧
    Runs ((Entry.subselection "id" [.raw "bogus"]).compile Sample.schema (.str "User") [])
      (Bindings.start 1) o b' ∧ o.map Item.text = some "id" ∧ b'.diagnostics = [] := by
  obtain ⟨f, base, found, returned, name⟩ := Sample.exists_id
  obtain ⟨⟨o, b'⟩, run, written⟩ : ∃ p : Option Item × Bindings,
      ((Entry.subselection "id" [.raw "bogus"]).compile Sample.schema (.str "User") []).result
        (Bindings.start 1) = .ok p ∧
      (p.1.map Item.text, p.2.diagnostics.map Diagnostic.path) = (some "id", []) :=
    exists_of_toOption_map (by decide +kernel)
  obtain ⟨text, quiet⟩ := Prod.mk.inj written
  refine ⟨f, base, o, b', found, returned, ?_, run, text, List.map_eq_nil_iff.1 quiet⟩
  rw [name]
  exact Sample.selectable_int

end Entry

end GraphRequest
