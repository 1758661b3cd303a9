import GraphRequest.Proofs.Query.Documents
import GraphRequest.Proofs.Query.Failures
import GraphRequest.Proofs.Schema.Names
import GraphRequest.Proofs.Selection.Columns
import GraphRequest.Proofs.Selection.Refused

/-!
# Selections that fail only in documented ways

When the names in a schema are texts, the name of every base type is one and can be looked up, and
writing a type that has a base type does not fail. Nothing else can go wrong below the root but what
the schema is documented to be at fault for, and the keys that are read late and refused then.

* `exists_text_of_base`: the base type of a reference with texts for names has a text for its name.
* `safe_compile`: compiling an entry, by induction on its size.
* `safe_mergeInto`: merging entries into selections.
-/

namespace GraphRequest

open Step Failure

/-! ### Names that are texts -/

/-- Whether a value is a text, or is left out. -/
def Value.isTextOrNull : Value → Bool
  | .str _ => true
  | .null => true
  | _ => false

variable {F : Failure → Prop} (admitted : Admitted F)

namespace TypeRef

include admitted in
theorem failsOnly_base (t : TypeRef) : FailsOnly F t.base := by
  unfold TypeRef.base
  dsimp only
  split
  · split
    · exact failsOnly_error (admitted.schema _)
    · exact failsOnly_ok _
  · exact failsOnly_error (admitted.schema _)

theorem isTruthy_of_base {t : TypeRef} {base : BaseType} (h : t.base = .ok base) :
    base.name.isTruthy = true := by
  unfold TypeRef.base at h
  dsimp only at h
  split at h
  · split at h
    · cases h
    · rename_i given
      cases h
      rw [Bool.or_eq_true, not_or, Bool.not_eq_true', Bool.not_eq_false] at given
      exact given.2
  · cases h

/-- The base type of a reference with texts for names has a text for its name. -/
theorem exists_text_of_base {t : TypeRef} (textual : t.namePasses Value.isTextOrNull = true)
    {base : BaseType} (h : t.base = .ok base) : ∃ name, base.name = .str name := by
  have passes := passes_of_base textual h
  have given := isTruthy_of_base h
  cases found : base.name with
  | str name => exact ⟨name, rfl⟩
  | null =>
    rw [found] at given
    cases given
  | _ =>
    rw [found] at passes
    cases passes

end TypeRef

include admitted in
/-- Writing the type of an argument with texts for names fails only if it has no base type. -/
theorem ArgumentDef.failsOnly_type {a : ArgumentDef}
    (textual : a.namesPass Value.isTextOrNull = true) :
    FailsOnly F (DeclaredType.ofArgument a) := by
  rw [ArgumentDef.namesPass, Bool.and_eq_true] at textual
  refine failsOnly_bind (TypeRef.failsOnly_base admitted a.type) fun base hb => ?_
  obtain ⟨name, hname⟩ := TypeRef.exists_text_of_base textual.2 hb
  rw [BaseType.growingName?_of_str hname, BaseType.wire_of_str hname]
  exact failsOnly_ok _

namespace FieldDef

include admitted in
/-- A field with texts for names binds arguments with no other failures than documented ones. -/
theorem safe_bindNestedFrom {f : FieldDef} (textual : f.namesPass Value.isTextOrNull = true)
    (path done : List String) (arguments : Fields) :
    Safe F (f.bindNestedFrom path done arguments) := by
  induction arguments generalizing done with
  | nil => exact safe_pure _
  | cons p rest ih =>
    obtain ⟨name, v⟩ := p
    unfold bindNestedFrom
    split
    · exact ih done
    · split
      · exact safe_bind (safe_report _ _ _) fun _ _ _ _ => ih done
      · rename_i a found
        have declared : a.namesPass Value.isTextOrNull = true :=
          (namesPass_iff.1 textual).2.2 a (argument?_eq_some found).1
        refine safe_bind
          (safe_bindArgument (ArgumentDef.failsOnly_type admitted declared) v) fun _ _ _ _ => ?_
        exact safe_bind (ih _) fun _ _ _ _ => safe_pure _

end FieldDef

namespace Schema

variable {s : Schema}

/-! ### Types and default selections -/

theorem exists_lookup (s : Schema) {type : Value} (key : type.isKey = true) :
    s.lookup type = .ok (s.type? type) := by
  rw [lookup, if_pos key]

theorem type?_of_typeNamed {type : Value} {t : TypeDef} (h : s.typeNamed type = .ok (some t)) :
    s.type? type = some t := by
  unfold typeNamed at h
  split at h
  · cases h
  · exact (type?_of_lookup h).1

theorem failsOnly_typeNamed (s : Schema) {type : Value} (key : type.isKey = true) :
    FailsOnly F (s.typeNamed type) := by
  unfold typeNamed
  split
  · exact failsOnly_ok _
  · rw [exists_lookup s key]
    exact failsOnly_ok _

theorem failsOnly_field (s : Schema) {type : Value} (key : type.isKey = true) (name : String) :
    FailsOnly F (s.field type (.str name)) := by
  unfold field
  split
  · exact failsOnly_ok _
  · rw [exists_lookup s key]
    refine failsOnly_bind (failsOnly_ok _) fun o _ => ?_
    cases o with
    | none => exact failsOnly_ok _
    | some t => exact failsOnly_ok _

theorem failsOnly_selectable (s : Schema) {type : Value} (key : type.isKey = true) :
    FailsOnly F (s.selectable type) :=
  failsOnly_bind (failsOnly_typeNamed s key) fun _ _ => failsOnly_ok _

/-- The base type of a field with texts for names has a name that can be looked up. -/
theorem isKey_of_base {f : FieldDef} (textual : f.namesPass Value.isTextOrNull = true)
    {base : BaseType} (h : f.base = .ok base) : base.name.isKey = true := by
  obtain ⟨name, hname⟩ := TypeRef.exists_text_of_base (FieldDef.namesPass_iff.1 textual).2.1 h
  rw [hname]
  rfl

include admitted in
theorem failsOnly_typeDefault {t : TypeDef} (textual : t.namesPass Value.isTextOrNull = true)
    (aggregate : Bool) : FailsOnly F (s.typeDefault t aggregate) := by
  unfold typeDefault
  split
  · unfold aggregateDefault
    split
    · exact failsOnly_ok _
    · rename_i f found
      have ftextual := (TypeDef.namesPass_iff.1 textual).2 f (TypeDef.field?_eq_some found).1
      refine failsOnly_bind (TypeRef.failsOnly_base admitted f.type) fun base hb => ?_
      refine failsOnly_bind (failsOnly_typeNamed s (isKey_of_base ftextual hb)) fun _ _ => ?_
      exact failsOnly_ok _
  · exact failsOnly_ok _

variable (textual : s.namesPass Value.isTextOrNull = true)

include textual in
theorem namesPass_of_selectable {type : Value} {t : TypeDef}
    (h : s.selectable type = .ok (some t)) : t.namesPass Value.isTextOrNull = true :=
  namesPass_of_type? textual (type?_of_typeNamed (selectable_eq_some h).1)

include admitted textual

theorem failsOnly_defaultSelection {type : Value} (key : type.isKey = true) (aggregate : Bool) :
    FailsOnly F (s.defaultSelection type aggregate) := by
  refine failsOnly_bind (failsOnly_selectable s key) fun o ho => ?_
  cases o with
  | none => exact failsOnly_ok _
  | some t => exact failsOnly_typeDefault admitted (namesPass_of_selectable textual ho) aggregate

theorem failsOnly_rootDefaults {type : Value} (key : type.isKey = true) (aggregate : Bool) :
    FailsOnly F (s.rootDefaults type aggregate) := by
  unfold rootDefaults
  split
  · exact failsOnly_defaultSelection admitted textual key true
  · refine failsOnly_bind (failsOnly_selectable s key) fun o ho => ?_
    cases o with
    | none => exact failsOnly_ok _
    | some t => exact failsOnly_ok _

theorem failsOnly_body {type : Value} (key : type.isKey = true) (items : List Item)
    (aggregate : Bool) : FailsOnly F (s.body items type aggregate) := by
  refine failsOnly_bind (failsOnly_selectable s key) fun o ho => ?_
  cases o with
  | none => exact failsOnly_ok _
  | some t =>
    dsimp only
    split
    · have ttextual := namesPass_of_selectable textual ho
      refine failsOnly_bind (failsOnly_typeDefault admitted ttextual aggregate) fun _ _ => ?_
      exact failsOnly_ok _
    · exact failsOnly_ok _

/-! ### Wanted fields -/

omit textual in
/-- Looking up a field is safe, and so is the work on it if it is safe for every field found. -/
theorem safe_findField {parent : Value} (key : parent.isKey = true) {name : String}
    {path : List String} {work : Option (FieldDef × Value) → Step (Option Item)}
    (idle : work none = pure none)
    (next : ∀ f base, s.field parent (.str name) = .ok (some f) → f.base = .ok base →
      Safe F (work (some (f, base.name)))) :
    Safe F (s.findField parent name path >>= work) := by
  have found : Safe F (s.findField parent name path) := by
    refine safe_bind (safe_of (failsOnly_field s key name)) fun _ o _ _ => ?_
    cases o with
    | none => exact safe_bind (safe_report _ _ _) fun _ _ _ _ => safe_pure _
    | some f =>
      refine safe_bind (safe_of (TypeRef.failsOnly_base admitted f.type)) fun _ _ _ _ => ?_
      exact safe_pure _
  refine safe_bind found fun b p b' run => ?_
  obtain ⟨o, b₁, ho, run₁⟩ := runs_bind.1 run
  obtain ⟨listed, rfl⟩ := runs_of.1 ho
  cases o with
  | none =>
    obtain ⟨_, b₂, _, run₂⟩ := runs_bind.1 run₁
    obtain ⟨rfl, rfl⟩ := runs_pure.1 run₂
    rw [idle]
    exact safe_pure _
  | some f =>
    obtain ⟨base, b₂, hb, run₂⟩ := runs_bind.1 run₁
    obtain ⟨returned, rfl⟩ := runs_of.1 hb
    obtain ⟨rfl, rfl⟩ := runs_pure.1 run₂
    exact next f base listed returned

theorem safe_fieldItem {type : Value} (key : type.isKey = true) (aliasName : Option String)
    (name : String) (arguments : List BoundArgument) (items : List Item) (aggregate : Bool) :
    Safe F (s.fieldItem aliasName name arguments items type aggregate) := by
  have body := failsOnly_body admitted textual key items aggregate
  exact safe_bind (safe_of body) fun _ _ _ _ => safe_pure _

omit admitted textual in
theorem safe_compileAll {es : List Entry} {parent : Value} {path : List String}
    (each : ∀ e ∈ es, Safe F (e.compile s parent path)) : Safe F (s.compileAll es parent path) := by
  induction es with
  | nil => exact safe_pure _
  | cons e es ih =>
    refine safe_bind (each e (.head _)) fun _ _ _ _ => ?_
    exact safe_bind (ih fun e' he' => each e' (.tail _ he')) fun _ _ _ _ => safe_pure _

theorem safe_compileColumns {f : FieldDef} {base : BaseType} {name : String}
    {names distinct : Value} (lists : (Entry.columns name names distinct).listsColumns = true)
    (ftextual : f.namesPass Value.isTextOrNull = true) (returned : f.base = .ok base)
    (path : List String) : Safe F (s.compileColumns name names distinct f base.name path) := by
  unfold compileColumns
  split
  · refine safe_bind (safe_report _ _ _) fun _ _ _ _ => ?_
    exact safe_fieldItem admitted textual (isKey_of_base ftextual returned) _ _ _ _ _
  · cases names with
    | arr columns =>
      refine safe_bind (safe_ofShape (Value.elements_arr columns)) fun _ _ _ _ => ?_
      refine safe_bind (FieldDef.safe_bindNestedFrom admitted ftextual _ _ _) fun _ _ _ _ => ?_
      exact safe_pure _
    | _ => cases lists

/-- Compiling an entry whose column functions list their columns is safe, if it is not refused or
that is allowed, by induction on the size of the entry. -/
theorem safe_compile (e : Entry) (lists : e.holds Entry.listsColumns = true) {parent : Value}
    (key : parent.isKey = true)
    (refused : ∀ fault, Entry.Refused s fault parent e → F (.request fault)) (path : List String) :
    Safe F (e.compile s parent path) := by
  induction e using (measure (sizeOf : Entry → Nat)).wf.induction generalizing parent path with
  | h e ih =>
    have below {f : FieldDef} {base : BaseType} {name : String} {aliasName : Option String}
        {arguments : Fields} {children : List Entry} (named : e.name? = some name)
        (found : s.field parent (.str name) = .ok (some f)) (returned : f.base = .ok base)
        (wants : Entry.Wants s f base e aliasName arguments children) :
        Safe F (s.compileAll children base.name (path ++ [name])) := by
      refine safe_compileAll fun c hc => ih c (wants.sizeOf_lt hc) ?_ ?_ ?_ _
      · exact (Entry.Reaches.descend named found returned wants hc (.self _ c)).holds lists
      · exact isKey_of_base (namesPass_of_field textual found) returned
      · exact fun fault hfault =>
          refused fault (.descend named found returned wants hc hfault)
    cases e with
    | raw text => exact safe_pure _
    | toggle name included =>
      rw [Entry.compile]
      refine safe_findField admitted key rfl fun f base found returned => ?_
      dsimp only
      split
      · exact safe_fieldItem admitted textual
          (isKey_of_base (namesPass_of_field textual found) returned) _ _ _ _ _
      · exact safe_pure _
    | subselection name children =>
      rw [Entry.compile]
      refine safe_findField admitted key rfl fun f base found returned => ?_
      dsimp only
      rw [Entry.map_compilations]
      refine safe_bind (below rfl found returned (.subselection name children)) fun _ _ _ _ => ?_
      exact safe_fieldItem admitted textual
        (isKey_of_base (namesPass_of_field textual found) returned) _ _ _ _ _
    | nested name aliasName arguments returning extras =>
      rw [Entry.compile]
      refine safe_findField admitted key rfl fun f base found returned => ?_
      have ftextual := namesPass_of_field textual found
      have key' := isKey_of_base ftextual returned
      refine safe_bind (safe_of (failsOnly_typeNamed s key')) fun _ t _ ht => ?_
      obtain ⟨type, rfl⟩ := runs_of.1 ht
      have keys : FailsOnly F
          (ofRequest (Entry.extraCompilations s (Entry.isArgumentOf name f t) extras)) := by
        refine failsOnly_ofRequest fun fault unread => ?_
        rw [Entry.extraCompilations_eq] at unread
        cases read : Entry.extraEntries (Entry.isArgumentOf name f t) extras with
        | ok entries =>
          rw [read] at unread
          cases unread
        | error fault' =>
          rw [read] at unread
          cases unread
          obtain ⟨key, value, mem, other⟩ := Entry.mem_of_extraEntries_eq_error read
          exact refused fault (.key found returned type mem other)
      refine safe_bind (safe_of keys) fun _ more _ hmore => ?_
      obtain ⟨meant, rfl⟩ := runs_of.1 hmore
      refine safe_bind (FieldDef.safe_bindNestedFrom admitted ftextual _ _ _) fun _ _ _ _ => ?_
      obtain ⟨children, nested, same⟩ :=
        Entry.nestedEntries_of_extraCompilations s name returning meant
      rw [same]
      refine safe_bind (below rfl found returned (.nested type nested)) fun _ _ _ _ => ?_
      exact safe_fieldItem admitted textual key' _ _ _ _ _
    | columns name names distinct =>
      rw [Entry.compile]
      refine safe_findField admitted key rfl fun f base found returned => ?_
      exact safe_compileColumns admitted textual (Entry.holds_self lists)
        (namesPass_of_field textual found) returned _

theorem safe_entries {es : List Entry} (lists : Entry.holdsAll Entry.listsColumns es = true)
    {type : Value} (key : type.isKey = true)
    (refused : ∀ e ∈ es, ∀ fault, Entry.Refused s fault type e → F (.request fault))
    (path : List String) : Safe F (s.compileAll es type path) :=
  safe_compileAll fun e he =>
    safe_compile admitted textual e (Entry.holds_of_mem lists he) key (refused e he) path

theorem safe_mergeInto {es : List Entry} (lists : Entry.holdsAll Entry.listsColumns es = true)
    {type : Value} (key : type.isKey = true)
    (refused : ∀ e ∈ es, ∀ fault, Entry.Refused s fault type e → F (.request fault))
    (path : List String) (items : List Item) : Safe F (s.mergeInto items es type path) := by
  rw [mergeInto_eq]
  exact safe_bind (safe_entries admitted textual lists key refused path) fun _ _ _ _ =>
    safe_pure _

end Schema

end GraphRequest
