import GraphRequest.Proofs.Selection.Roots

/-!
# Keys that mean neither an argument nor a field

The keys of a nested field that have no fixed meaning are kept until a schema is at hand. Those that
are arguments of the field are taken as they are, and the others are read as fields then. A value
that means no field is therefore let through when the request is read, and refused, if at all, when
it is compiled.

* `Entry.Refused`: compiling an entry comes upon such a key that is no argument.
* `not_runs_of_refused`: an entry with such a key does not compile.
-/

namespace GraphRequest

open Step

namespace Entry

/-- Compiling an entry on a type comes upon a key that is no argument of its field and means no
field either. -/
inductive Refused (s : Schema) (fault : RequestFault) : Value → Entry → Prop
  | key {parent : Value} {name key : String} {aliasName : Option String} {arguments : Fields}
      {returning : Option (List Entry)} {extras : List Extra} {f : FieldDef} {base : BaseType}
      {t : Option TypeDef} {value : Value} (found : s.field parent (.str name) = .ok (some f))
      (returned : f.base = .ok base) (type : s.typeNamed base.name = .ok t)
      (mem : Extra.mk key value (.error fault) ∈ extras)
      (other : isArgumentOf name f t key = false) :
      Refused s fault parent (.nested name aliasName arguments returning extras)
  | descend {parent : Value} {e c : Entry} {name : String} {f : FieldDef} {base : BaseType}
      {aliasName : Option String} {arguments : Fields} {children : List Entry}
      (named : e.name? = some name) (found : s.field parent (.str name) = .ok (some f))
      (returned : f.base = .ok base) (wants : Wants s f base e aliasName arguments children)
      (child : c ∈ children) (refused : Refused s fault base.name c) : Refused s fault parent e

/-! ### Keys that are read as fields -/

/-- The fault in reading keys as fields is that of one which is no argument. -/
theorem mem_of_extraEntries_eq_error {isArgument : String → Bool} {extras : List Extra}
    {fault : RequestFault} (h : extraEntries isArgument extras = .error fault) :
    ∃ key value, Extra.mk key value (.error fault) ∈ extras ∧ isArgument key = false := by
  induction extras with
  | nil => cases h
  | cons x rest ih =>
    obtain ⟨key, value, meaning⟩ := x
    simp only [extraEntries] at h
    split at h
    · obtain ⟨key', value', mem, other⟩ := ih h
      exact ⟨key', value', .tail _ mem, other⟩
    · rename_i other
      cases meaning with
      | error fault' =>
        cases h
        exact ⟨key, value, .head _, Bool.eq_false_iff.2 other⟩
      | ok entry =>
        cases below : extraEntries isArgument rest with
        | error fault' =>
          rw [below] at h
          cases h
          obtain ⟨key', value', mem, other'⟩ := ih below
          exact ⟨key', value', .tail _ mem, other'⟩
        | ok others =>
          rw [below] at h
          cases h

/-- Keys that are read as fields mean fields unless they are arguments. -/
theorem isArgument_of_extraEntries {isArgument : String → Bool} {extras : List Extra}
    {es : List Entry} (h : extraEntries isArgument extras = .ok es) {key : String} {value : Value}
    {fault : RequestFault} (mem : Extra.mk key value (.error fault) ∈ extras) :
    isArgument key = true := by
  induction extras generalizing es with
  | nil => cases mem
  | cons x rest ih =>
    obtain ⟨key', value', meaning⟩ := x
    simp only [extraEntries] at h
    split at h
    · rename_i argument
      rcases List.mem_cons.1 mem with same | mem
      · cases same
        exact argument
      · exact ih h mem
    · cases meaning with
      | error fault' => cases h
      | ok entry =>
        obtain ⟨others, below, _⟩ := bind_eq_ok.1 h
        rcases List.mem_cons.1 mem with same | mem
        · cases same
        · exact ih below mem

theorem extraEntries_of_nestedEntries {name : String} {isArgument : String → Bool}
    {returning : Option (List Entry)} {extras : List Extra} {children : List Entry}
    (h : nestedEntries name isArgument returning extras = .ok children) :
    ∃ more, extraEntries isArgument extras = .ok more := by
  obtain ⟨more, read, _⟩ := bind_eq_ok.1 h
  exact ⟨more, read⟩

/-! ### Refused entries do not compile -/

/-- When a list of entries compiles, each of them does. -/
theorem exists_run_of_mem {s : Schema} {es : List Entry} {parent : Value} {path : List String}
    {b b' : Bindings} {items : List Item} (h : Runs (s.compileAll es parent path) b items b')
    {e : Entry} (he : e ∈ es) : ∃ b₁ o b₂, Runs (e.compile s parent path) b₁ o b₂ := by
  induction es generalizing b items with
  | nil => cases he
  | cons e' es ih =>
    obtain ⟨o, rest, b₁, first, others, _⟩ := Schema.runs_compileAll_cons.1 h
    rcases List.mem_cons.1 he with rfl | he
    · exact ⟨b, o, b₁, first⟩
    · exact ih others he

/-- What an entry asks of a field is determined by the entry. -/
theorem Wants.children_eq {s : Schema} {f : FieldDef} {base : BaseType} {e : Entry}
    {a a' : Option String} {arguments arguments' : Fields} {children children' : List Entry}
    (h : Wants s f base e a arguments children) (h' : Wants s f base e a' arguments' children') :
    children = children' := by
  cases h with
  | toggle name =>
    cases h'
    rfl
  | subselection name children =>
    cases h'
    rfl
  | nested type below =>
    cases h' with
    | nested type' below' =>
      cases type.symm.trans type'
      exact Except.ok.inj (below.symm.trans below')

/-- An entry that is refused does not compile. -/
theorem not_runs_of_refused {s : Schema} {fault : RequestFault} {parent : Value} {e : Entry}
    (refused : Refused s fault parent e) {path : List String} {b b' : Bindings} {o : Option Item} :
    ¬ Runs (e.compile s parent path) b o b' := by
  induction refused generalizing path b b' o with
  | key found returned type mem other =>
    intro run
    cases compiled_of_runs run with
    | unknown structured named missing code place =>
      cases named
      cases found.symm.trans missing
    | field named found' returned' wants binds compiles bodied =>
      cases named
      cases found.symm.trans found'
      cases returned.symm.trans returned'
      cases wants with
      | nested type' below =>
        cases type.symm.trans type'
        obtain ⟨more, read⟩ := extraEntries_of_nestedEntries below
        cases other.symm.trans (isArgument_of_extraEntries read mem)
  | descend named found returned wants child refused ih =>
    intro run
    cases compiled_of_runs run with
    | raw text => cases wants
    | unknown structured named' missing code place =>
      cases named.symm.trans named'
      cases found.symm.trans missing
    | off found' returned' => cases wants
    | field named' found' returned' wants' binds compiles bodied =>
      cases named.symm.trans named'
      cases found.symm.trans found'
      cases returned.symm.trans returned'
      cases wants.children_eq wants'
      obtain ⟨b₁, o, b₂, run⟩ := exists_run_of_mem compiles child
      exact ih run
    | bare found' returned' undeclared code place bodied => cases wants
    | columns found' returned' declared listed binds => cases wants

end Entry

end GraphRequest
