import GraphRequest.Selection.Root
import GraphRequest.Proofs.Query.Steps

/-!
# What compiling an entry can do

Compiling a wanted field ends in one of six ways, whatever the entry looks like: raw text is taken
over, a field that the type does not have is reported, a field that is switched off is left out, a
column function is called with or without its arguments, and every other field binds its arguments,
compiles the entries below it and gets the body that its type calls for.

* `Wants`: the alias, the arguments and the entries below it that an entry asks of its field.
* `Compiled`, `compiled_of_runs`: the six outcomes, and that there is no other.
* `Reaches`: the entries that compiling an entry comes upon, all of which pass a test that `holds`
  of the entry.
* `Schema.body_eq_ok`: the three bodies that a field may get.
-/

namespace GraphRequest

open Step

namespace Entry

/-! ### The entries below a nested field -/

/-- The entries that the keys of a nested field ask for, its arguments apart. -/
def extraEntries (isArgument : String → Bool) : List Extra → Except RequestFault (List Entry)
  | [] => .ok []
  | .mk key _ meaning :: rest =>
    if isArgument key then extraEntries isArgument rest
    else match meaning with
      | .error e => .error e
      | .ok entry => do
        let others ← extraEntries isArgument rest
        .ok (entry :: others)

/-- Entries with those for the same field merged: each field keeps its first place and its last
entry. -/
def merged (es : List Entry) : List Entry :=
  (Keyed.merge (es.map fun e => (e.key, e))).map Prod.snd

/-- Whether a key of a nested field is an argument of it. Below an aggregate no key is. -/
def isArgumentOf (name : String) (f : FieldDef) (returned : Option TypeDef) (key : String) : Bool :=
  !Naming.isAggregate name && Schema.isArgumentKey f returned key

/-- The entries compiled below a nested field. -/
def nestedEntries (name : String) (isArgument : String → Bool) (returning : Option (List Entry))
    (extras : List Extra) : Except RequestFault (List Entry) := do
  let more ← extraEntries isArgument extras
  let all := returning.getD [] ++ more
  .ok (if Naming.isAggregate name then merged all else all)

theorem extraCompilations_eq (s : Schema) (isArgument : String → Bool) (extras : List Extra) :
    extraCompilations s isArgument extras
      = (extraEntries isArgument extras).map (compilations s) := by
  induction extras with
  | nil => rfl
  | cons x rest ih =>
    cases x with
    | mk key value meaning =>
      cases meaning with
      | error e =>
        simp only [extraCompilations, extraEntries]
        split
        · exact ih
        · rfl
      | ok entry =>
        simp only [extraCompilations, extraEntries]
        split
        · exact ih
        · rw [ih]
          cases extraEntries isArgument rest <;> rfl

theorem nestedCompilations_eq (s : Schema) (returning : Option (List Entry)) :
    nestedCompilations s returning = compilations s (returning.getD []) := by
  cases returning <;> rfl

theorem compilations_append (s : Schema) (es fs : List Entry) :
    compilations s (es ++ fs) = compilations s es ++ compilations s fs := by
  simp only [compilations_eq_map, List.map_append]

theorem map_compilations (s : Schema) (es : List Entry) :
    (compilations s es).map Prod.snd = es.map (compile s) := by
  rw [compilations_eq_map, List.map_map]
  rfl

theorem merge_compilations (s : Schema) (es : List Entry) :
    (Keyed.merge (compilations s es)).map Prod.snd = (merged es).map (compile s) := by
  have h : compilations s es
      = (es.map fun e => (e.key, e)).map fun p => (p.1, compile s p.2) := by
    rw [compilations_eq_map, List.map_map]
    rfl
  rw [h, Keyed.merge_map, merged, List.map_map, List.map_map]
  rfl

theorem mem_of_mem_merged {e : Entry} {es : List Entry} (h : e ∈ merged es) : e ∈ es := by
  obtain ⟨p, hp, rfl⟩ := List.mem_map.1 h
  obtain ⟨e, he, rfl⟩ := List.mem_map.1 (Keyed.mem_of_mem_merge hp)
  exact he

theorem mem_of_mem_extraEntries {isArgument : String → Bool} {extras : List Extra}
    {es : List Entry} (h : extraEntries isArgument extras = .ok es) {e : Entry} (he : e ∈ es) :
    ∃ key value, Extra.mk key value (.ok e) ∈ extras := by
  induction extras generalizing es with
  | nil =>
    cases h
    simp at he
  | cons x rest ih =>
    obtain ⟨key, value, meaning⟩ := x
    simp only [extraEntries] at h
    split at h
    · obtain ⟨k, v, hm⟩ := ih h he
      exact ⟨k, v, .tail _ hm⟩
    · rcases meaning with fault | entry
      · cases h
      · cases hr : extraEntries isArgument rest with
        | error fault =>
          rw [hr] at h
          cases h
        | ok others =>
          rw [hr] at h
          cases h
          rcases List.mem_cons.1 he with rfl | he
          · exact ⟨key, value, .head _⟩
          · obtain ⟨k, v, hm⟩ := ih hr he
            exact ⟨k, v, .tail _ hm⟩

theorem mem_of_mem_nestedEntries {name : String} {isArgument : String → Bool}
    {returning : Option (List Entry)} {extras : List Extra} {es : List Entry}
    (h : nestedEntries name isArgument returning extras = .ok es) {e : Entry} (he : e ∈ es) :
    (∃ rs, returning = some rs ∧ e ∈ rs) ∨ ∃ key value, Extra.mk key value (.ok e) ∈ extras := by
  cases hx : extraEntries isArgument extras with
  | error fault =>
    simp [nestedEntries, hx, bind, Except.bind] at h
  | ok more =>
    have hall : e ∈ returning.getD [] ++ more := by
      simp only [nestedEntries, hx, bind, Except.bind, Except.ok.injEq] at h
      subst h
      split at he
      · exact mem_of_mem_merged he
      · exact he
    rcases List.mem_append.1 hall with hr | hm
    · cases returning with
      | none => simp at hr
      | some rs => exact .inl ⟨rs, rfl, hr⟩
    · exact .inr (mem_of_mem_extraEntries hx hm)

/-- The compilations made below a nested field are those of its entries. -/
theorem nestedEntries_of_extraCompilations (s : Schema) (name : String)
    {isArgument : String → Bool} (returning : Option (List Entry)) {extras : List Extra}
    {more : List (String × Compilation)}
    (h : Failure.ofRequest (extraCompilations s isArgument extras) = .ok more) :
    ∃ children, nestedEntries name isArgument returning extras = .ok children ∧
      (if Naming.isAggregate name then Keyed.merge (nestedCompilations s returning ++ more)
        else nestedCompilations s returning ++ more).map Prod.snd = children.map (compile s) := by
  rw [extraCompilations_eq] at h
  cases hx : extraEntries isArgument extras with
  | error fault =>
    rw [hx] at h
    cases h
  | ok entries =>
    rw [hx] at h
    cases h
    refine ⟨_, by rw [nestedEntries, hx]; rfl, ?_⟩
    rw [nestedCompilations_eq, ← compilations_append]
    split
    · exact merge_compilations s _
    · exact map_compilations s _

/-! ### What an entry asks of its field -/

/-- Whether an entry is raw text. -/
def isRaw : Entry → Bool
  | .raw _ => true
  | _ => false

/-- The alias, the arguments and the entries below it that an entry asks of a field. Raw text, a
field that is switched off and a column function ask for nothing of this kind. -/
inductive Wants (s : Schema) (f : FieldDef) (base : BaseType) :
    Entry → Option String → Fields → List Entry → Prop
  | toggle (name : String) : Wants s f base (.toggle name true) none [] []
  | subselection (name : String) (children : List Entry) :
      Wants s f base (.subselection name children) none [] children
  | nested {name : String} {aliasName : Option String} {arguments : Fields}
      {returning : Option (List Entry)} {extras : List Extra} {t : Option TypeDef}
      {children : List Entry} (type : s.typeNamed base.name = .ok t)
      (below : nestedEntries name (isArgumentOf name f t) returning extras = .ok children) :
      Wants s f base (.nested name aliasName arguments returning extras) (usedAlias aliasName)
        (arguments ++ Schema.extraArguments (isArgumentOf name f t) extras) children

/-- The alias that an entry gives its field. -/
def alias? : Entry → Option String
  | .nested _ aliasName _ _ _ => usedAlias aliasName
  | _ => none

theorem Wants.alias?_eq {s : Schema} {f : FieldDef} {base : BaseType} {e : Entry}
    {aliasName : Option String} {arguments : Fields} {children : List Entry}
    (h : Wants s f base e aliasName arguments children) : e.alias? = aliasName := by
  cases h <;> rfl

/-- What an entry asks for below its field is smaller than the entry. -/
theorem Wants.sizeOf_lt {s : Schema} {f : FieldDef} {base : BaseType} {e c : Entry}
    {aliasName : Option String} {arguments : Fields} {children : List Entry}
    (h : Wants s f base e aliasName arguments children) (hc : c ∈ children) :
    sizeOf c < sizeOf e := by
  cases h with
  | toggle name => simp at hc
  | subselection name children =>
    have := List.sizeOf_lt_of_mem hc
    simp only [Entry.subselection.sizeOf_spec]
    omega
  | nested type below =>
    rcases mem_of_mem_nestedEntries below hc with ⟨rs, rfl, hr⟩ | ⟨key, value, hx⟩
    · have := List.sizeOf_lt_of_mem hr
      simp only [Entry.nested.sizeOf_spec, Option.some.sizeOf_spec]
      omega
    · have := List.sizeOf_lt_of_mem hx
      simp only [Extra.mk.sizeOf_spec, Except.ok.sizeOf_spec] at this
      simp only [Entry.nested.sizeOf_spec]
      omega

/-- The entries that compiling an entry on a type comes upon: itself, and what is wanted below its
field on the type that the field returns. A key that is an argument of its field is no entry. -/
inductive Reaches (s : Schema) : Value → Entry → Entry → Prop
  | self (parent : Value) (e : Entry) : Reaches s parent e e
  | descend {parent : Value} {e c d : Entry} {name : String} {f : FieldDef} {base : BaseType}
      {aliasName : Option String} {arguments : Fields} {children : List Entry}
      (named : e.name? = some name) (found : s.field parent (.str name) = .ok (some f))
      (returned : f.base = .ok base) (wants : Wants s f base e aliasName arguments children)
      (child : c ∈ children) (reaches : Reaches s base.name c d) : Reaches s parent e d

mutual

/-- Whether a test passes on an entry and on all entries wanted below it, whatever its keys turn out
to be. -/
def holds (p : Entry → Bool) : Entry → Bool
  | .raw text => p (.raw text)
  | .toggle name included => p (.toggle name included)
  | .subselection name children => p (.subselection name children) && holdsAll p children
  | .nested name aliasName arguments returning extras =>
    p (.nested name aliasName arguments returning extras) && holdsBelow p returning &&
      holdsExtras p extras
  | .columns name names distinct => p (.columns name names distinct)

/-- Whether a test passes on all entries of a list and below them. -/
def holdsAll (p : Entry → Bool) : List Entry → Bool
  | [] => true
  | e :: es => holds p e && holdsAll p es

/-- Whether a test passes on all entries of a list, if there is one, and below them. -/
def holdsBelow (p : Entry → Bool) : Option (List Entry) → Bool
  | none => true
  | some es => holdsAll p es

/-- Whether a test passes on all that keys ask for as fields. -/
def holdsExtras (p : Entry → Bool) : List Extra → Bool
  | [] => true
  | .mk _ _ meaning :: rest =>
    (match meaning with
      | .error _ => true
      | .ok entry => holds p entry) && holdsExtras p rest

end

section

variable {p : Entry → Bool}

theorem holds_self {e : Entry} (h : e.holds p = true) : p e = true := by
  cases e with
  | raw text => simpa only [holds] using h
  | toggle name included => simpa only [holds] using h
  | columns name names distinct => simpa only [holds] using h
  | subselection name children =>
    simp only [holds, Bool.and_eq_true] at h
    exact h.1
  | nested name aliasName arguments returning extras =>
    simp only [holds, Bool.and_eq_true] at h
    exact h.1.1

theorem holds_of_mem {es : List Entry} (h : holdsAll p es = true) {e : Entry} (he : e ∈ es) :
    e.holds p = true := by
  induction es with
  | nil => cases he
  | cons e' es ih =>
    simp only [holdsAll, Bool.and_eq_true] at h
    rcases List.mem_cons.1 he with rfl | he
    · exact h.1
    · exact ih h.2 he

theorem holds_of_mem_extras {extras : List Extra} (h : holdsExtras p extras = true)
    {key : String} {value : Value} {e : Entry} (he : Extra.mk key value (.ok e) ∈ extras) :
    e.holds p = true := by
  induction extras with
  | nil => cases he
  | cons x rest ih =>
    obtain ⟨k, v, meaning⟩ := x
    rcases List.mem_cons.1 he with same | below
    · cases same
      simp only [holdsExtras, Bool.and_eq_true] at h
      exact h.1
    · cases meaning <;> simp only [holdsExtras, Bool.and_eq_true] at h <;> exact ih h.2 below

/-- A test that passes on an entry and below it passes on all that compiling it comes upon. -/
theorem Reaches.holds {s : Schema} {parent : Value} {e d : Entry} (reaches : Reaches s parent e d)
    (h : e.holds p = true) : d.holds p = true := by
  induction reaches with
  | self => exact h
  | descend named found returned wants child reaches ih =>
    apply ih
    cases wants with
    | toggle name => cases child
    | subselection name children =>
      simp only [Entry.holds, Bool.and_eq_true] at h
      exact holds_of_mem h.2 child
    | nested type below =>
      simp only [Entry.holds, Bool.and_eq_true] at h
      rcases mem_of_mem_nestedEntries below child with ⟨rs, rfl, hr⟩ | ⟨key, value, hx⟩
      · exact holds_of_mem h.1.2 hr
      · exact holds_of_mem_extras h.2 hx

end

/-! ### Outcomes -/

/-- The outcomes of compiling an entry. -/
inductive Compiled (s : Schema) (parent : Value) (path : List String) (b : Bindings) :
    Entry → Option Item → Bindings → Prop
  | raw (text : String) : Compiled s parent path b (.raw text) (rawItem text) b
  | unknown {e : Entry} {name : String} {d : Diagnostic} (structured : e.isRaw = false)
      (named : e.name? = some name) (missing : s.field parent (.str name) = .ok none)
      (code : d.code = .unknownField) (place : d.path = path ++ [name]) :
      Compiled s parent path b e none (b.report d)
  | off {name : String} {f : FieldDef} {base : BaseType}
      (found : s.field parent (.str name) = .ok (some f)) (returned : f.base = .ok base) :
      Compiled s parent path b (.toggle name false) none b
  | field {e : Entry} {name : String} {f : FieldDef} {base : BaseType}
      {aliasName : Option String} {arguments : Fields} {children : List Entry}
      {bound : List BoundArgument} {b₁ b' : Bindings} {items : List Item}
      {body : Option (List Item)} (named : e.name? = some name)
      (found : s.field parent (.str name) = .ok (some f)) (returned : f.base = .ok base)
      (wants : Wants s f base e aliasName arguments children)
      (binds : Runs (f.bindNested (path ++ [name]) arguments) b bound b₁)
      (compiles : Runs (s.compileAll children base.name (path ++ [name])) b₁ items b')
      (bodied : s.body items base.name (Naming.isAggregate name) = .ok body) :
      Compiled s parent path b e (some (.field aliasName name bound body)) b'
  | bare {name : String} {names distinct : Value} {f : FieldDef} {base : BaseType}
      {d : Diagnostic} {body : Option (List Item)}
      (found : s.field parent (.str name) = .ok (some f)) (returned : f.base = .ok base)
      (undeclared : f.declares "columns" = false) (code : d.code = .unknownArgument)
      (place : d.path = path ++ [name]) (bodied : s.body [] base.name false = .ok body) :
      Compiled s parent path b (.columns name names distinct)
        (some (.field none name [] body)) (b.report d)
  | columns {name : String} {names distinct : Value} {f : FieldDef} {base : BaseType}
      {columns : List Value} {bound : List BoundArgument} {b' : Bindings}
      (found : s.field parent (.str name) = .ok (some f)) (returned : f.base = .ok base)
      (declared : f.declares "columns" = true) (listed : names.elements = .ok columns)
      (binds : Runs (f.bindNested (path ++ [name])
        (("columns", .arr columns) :: (match distinct with
          | .null => []
          | d => [("distinct", d)]))) b bound b') :
      Compiled s parent path b (.columns name names distinct)
        (some (.field none name bound none)) b'

/-- Looking up a field either reports that it is missing, or finds it with its base type; then the
work on the field begins. -/
theorem runs_findField {s : Schema} {parent : Value} {name : String} {path : List String}
    {work : Option (FieldDef × Value) → Step (Option Item)} (idle : work none = pure none)
    {b b' : Bindings} {o : Option Item}
    (h : Runs (s.findField parent name path >>= work) b o b') :
    (s.field parent (.str name) = .ok none ∧ o = none ∧
      ∃ d : Diagnostic, d.code = .unknownField ∧ d.path = path ++ [name] ∧ b' = b.report d) ∨
    ∃ f base, s.field parent (.str name) = .ok (some f) ∧ f.base = .ok base ∧
      Runs (work (some (f, base.name))) b o b' := by
  obtain ⟨p, b₁, hp, h₁⟩ := runs_bind.1 h
  obtain ⟨o', b₂, ho, h₂⟩ := runs_bind.1 hp
  obtain ⟨found, rfl⟩ := runs_of.1 ho
  cases o' with
  | none =>
    obtain ⟨_, b₃, hr, h₃⟩ := runs_bind.1 h₂
    obtain ⟨rfl, rfl⟩ := runs_pure.1 h₃
    rw [idle] at h₁
    obtain ⟨rfl, rfl⟩ := runs_pure.1 h₁
    exact .inl ⟨found, rfl, _, rfl, rfl, runs_report.1 hr⟩
  | some f =>
    obtain ⟨base, b₃, hb, h₃⟩ := runs_bind.1 h₂
    obtain ⟨returned, rfl⟩ := runs_of.1 hb
    obtain ⟨rfl, rfl⟩ := runs_pure.1 h₃
    exact .inr ⟨f, base, found, returned, h₁⟩

theorem runs_fieldItem {s : Schema} {aliasName : Option String} {name : String}
    {arguments : List BoundArgument} {items : List Item} {type : Value} {aggregate : Bool}
    {b b' : Bindings} {o : Option Item}
    (h : Runs (s.fieldItem aliasName name arguments items type aggregate) b o b') :
    ∃ body, s.body items type aggregate = .ok body ∧
      o = some (.field aliasName name arguments body) ∧ b' = b := by
  obtain ⟨body, b₁, hb, h₁⟩ := runs_bind.1 h
  obtain ⟨body_eq, rfl⟩ := runs_of.1 hb
  obtain ⟨rfl, rfl⟩ := runs_pure.1 h₁
  exact ⟨body, body_eq, rfl, rfl⟩

theorem runs_compileAll_nil {s : Schema} {parent : Value} {path : List String} {b b' : Bindings}
    {items : List Item} :
    Runs (s.compileAll [] parent path) b items b' ↔ items = [] ∧ b' = b := runs_pure

theorem runs_bindNested_nil {f : FieldDef} {path : List String} {b : Bindings} :
    Runs (f.bindNested path []) b [] b := runs_pure.2 ⟨rfl, rfl⟩

/-- Calling a column function binds its arguments, or reports that the field takes no columns. -/
theorem compiled_of_runs_compileColumns {s : Schema} {parent : Value} {path : List String}
    {name : String} {names distinct : Value} {f : FieldDef} {base : BaseType}
    (found : s.field parent (.str name) = .ok (some f)) (returned : f.base = .ok base)
    {b b' : Bindings} {o : Option Item}
    (h : Runs (s.compileColumns name names distinct f base.name (path ++ [name])) b o b') :
    Compiled s parent path b (.columns name names distinct) o b' := by
  unfold Schema.compileColumns at h
  cases declared : f.declares "columns" with
  | false =>
    rw [declared, if_pos (by decide)] at h
    obtain ⟨_, b₁, hr, h₁⟩ := runs_bind.1 h
    obtain ⟨body, bodied, rfl, rfl⟩ := runs_fieldItem h₁
    rw [runs_report.1 hr]
    exact .bare found returned declared rfl rfl bodied
  | true =>
    rw [declared, if_neg (by decide)] at h
    obtain ⟨columns, b₁, hc, h₁⟩ := runs_bind.1 h
    obtain ⟨listed, rfl⟩ := runs_ofShape.1 hc
    obtain ⟨bound, b₂, binds, h₂⟩ := runs_bind.1 h₁
    obtain ⟨rfl, rfl⟩ := runs_pure.1 h₂
    exact .columns found returned declared listed binds

/-- Compiling an entry has no other outcomes. -/
theorem compiled_of_runs {s : Schema} {e : Entry} {parent : Value} {path : List String}
    {b b' : Bindings} {o : Option Item} (h : Runs (e.compile s parent path) b o b') :
    Compiled s parent path b e o b' := by
  cases e with
  | raw text =>
    rw [compile] at h
    obtain ⟨rfl, rfl⟩ := runs_pure.1 h
    exact .raw text
  | toggle name included =>
    rw [compile] at h
    obtain ⟨missing, rfl, d, code, place, rfl⟩ | ⟨f, base, found, returned, h₁⟩ :=
      runs_findField rfl h
    · exact .unknown rfl rfl missing code place
    · cases included with
      | false =>
        obtain ⟨rfl, rfl⟩ := runs_pure.1 h₁
        exact .off found returned
      | true =>
        obtain ⟨body, bodied, rfl, rfl⟩ := runs_fieldItem h₁
        refine .field rfl found returned (.toggle name) runs_bindNested_nil ?_ bodied
        exact runs_compileAll_nil.2 ⟨rfl, rfl⟩
  | subselection name children =>
    rw [compile] at h
    obtain ⟨missing, rfl, d, code, place, rfl⟩ | ⟨f, base, found, returned, h₁⟩ :=
      runs_findField rfl h
    · exact .unknown rfl rfl missing code place
    · obtain ⟨items, b₂, compiles, h₂⟩ := runs_bind.1 h₁
      rw [map_compilations] at compiles
      obtain ⟨body, bodied, rfl, rfl⟩ := runs_fieldItem h₂
      exact .field rfl found returned (.subselection name children) runs_bindNested_nil compiles
        bodied
  | nested name aliasName arguments returning extras =>
    rw [compile] at h
    obtain ⟨missing, rfl, d, code, place, rfl⟩ | ⟨f, base, found, returned, h₁⟩ :=
      runs_findField rfl h
    · exact .unknown rfl rfl missing code place
    · obtain ⟨t, b₂, ht, h₂⟩ := runs_bind.1 h₁
      obtain ⟨type, rfl⟩ := runs_of.1 ht
      obtain ⟨more, b₃, hm, h₃⟩ := runs_bind.1 h₂
      obtain ⟨meant, rfl⟩ := runs_of.1 hm
      obtain ⟨bound, b₄, binds, h₄⟩ := runs_bind.1 h₃
      obtain ⟨items, b₅, compiles, h₅⟩ := runs_bind.1 h₄
      obtain ⟨body, bodied, rfl, rfl⟩ := runs_fieldItem h₅
      obtain ⟨children, below, same⟩ :=
        nestedEntries_of_extraCompilations s name returning meant
      rw [same] at compiles
      exact .field rfl found returned (.nested type below) binds compiles bodied
  | columns name names distinct =>
    rw [compile] at h
    obtain ⟨missing, rfl, d, code, place, rfl⟩ | ⟨f, base, found, returned, h₁⟩ :=
      runs_findField rfl h
    · exact .unknown rfl rfl missing code place
    · exact compiled_of_runs_compileColumns found returned h₁

end Entry

/-- The body of a field: none on a type that takes no selection, else what was selected, or the
default selection of the type when nothing was. -/
theorem Schema.body_eq_ok {s : Schema} {items : List Item} {type : Value} {aggregate : Bool}
    {body : Option (List Item)} (h : s.body items type aggregate = .ok body) :
    s.selectable type = .ok none ∧ body = none ∨
      ∃ t below, s.selectable type = .ok (some t) ∧ body = some below ∧
        (items = [] ∧ s.typeDefault t aggregate = .ok below ∨ items ≠ [] ∧ below = items) := by
  obtain ⟨o, selectable, h⟩ := bind_eq_ok.1 h
  cases o with
  | none =>
    cases h
    exact .inl ⟨selectable, rfl⟩
  | some t =>
    dsimp only at h
    split at h
    · rename_i empty
      obtain ⟨defaults, made, h⟩ := bind_eq_ok.1 h
      cases h
      exact .inr ⟨t, defaults, selectable, rfl, .inl ⟨List.isEmpty_iff.1 empty, made⟩⟩
    · rename_i present
      cases h
      exact .inr ⟨t, items, selectable, rfl, .inr ⟨mt List.isEmpty_iff.2 present, rfl⟩⟩

end GraphRequest
