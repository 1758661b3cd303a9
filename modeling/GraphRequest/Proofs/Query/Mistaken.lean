import GraphRequest.Proofs.Query.Envelopes
import GraphRequest.Proofs.Query.Usage
import GraphRequest.Proofs.Selection.Merged

/-!
# Fields that are mistaken for another

The aggregate of a request takes the place of the wanted fields of that name, and an envelope counts
the rows itself and leaves the counts among the wanted fields out. Both go by the name that a
selection begins with. That is its alias if it has one, so a field under an alias can be mistaken
for another field, or another for it. It is lost then, or stays where it should not.

* `Item.Tells`, `Entry.Tells`: a selection, an entry that is not mistaken with respect to a name.
* `without_eq_filter_iff`: a name takes away the selections of its field when each of them tells.
* `aggregated_iff`: when the aggregate of a request takes the place of the right selections.
* `counted_iff`: when an envelope leaves out the right rows.
-/

namespace GraphRequest

open Document (readText?)
open Step

/-- Whether a selection begins with a name just if it is of the field of that name. -/
def Item.Tells (name : String) (i : Item) : Prop :=
  i.leadingName = some name ↔ i.fieldName? = some name

/-- Whether what an entry selects begins with a name just if the entry is about the field of that
name. -/
def Entry.Tells (name : String) (e : Entry) : Prop :=
  e.shown? = some name ↔ e.name? = some name

namespace Entry

variable {s : Schema} {type : Value} {path : List String} {b b' : Bindings}

/-- What an entry selects is of the field that the entry is about. -/
theorem fieldName?_of_compiled {e : Entry} {i : Item} (structured : e.isRaw = false)
    (h : Compiled s type path b e (some i) b') : i.fieldName? = e.name? := by
  generalize same : some i = o at h
  cases h with
  | raw text => cases structured
  | unknown structured named missing code place => cases same
  | off found returned => cases same
  | field named found returned wants binds compiles bodied =>
    cases same
    exact named.symm
  | bare found returned undeclared code place bodied =>
    cases same
    rfl
  | columns found returned declared listed binds =>
    cases same
    rfl

/-- An entry is dropped, or its selection tells a name just if the entry does. -/
theorem dropped_or_tells {e : Entry} {o : Option Item} (structured : e.isRaw = false)
    (h : Compiled s type path b e o b') (name : String) :
    (∀ i ∈ o, i.Tells name) ↔ e.Dropped s type ∨ e.Tells name := by
  obtain ⟨rfl, dropped⟩ | ⟨i, rfl, kept, shown⟩ := dropped_or_shown h
  · exact iff_of_true nofun (.inl dropped)
  · have same := fieldName?_of_compiled structured h
    simp [Item.Tells, Entry.Tells, kept, shown, same]

end Entry

namespace Schema

variable {s : Schema} {type : Value} {path : List String} {b b' : Bindings}

/-- Going by the name that selections begin with takes away those of the field of that name just if
none of them is mistaken. -/
theorem without_eq_filter_iff {items : List Item} {name : String} :
    without items (some name) = items.filter (fun i => i.fieldName? != some name) ↔
      ∀ i ∈ items, i.Tells name := by
  constructor
  · intro same i hi
    -- A selection of the list is in both results or in none of them.
    have both : i ∈ without items (some name) ↔
        i ∈ items.filter (fun i => i.fieldName? != some name) := by rw [same]
    simp only [without, List.mem_filter, hi, true_and, bne_iff_ne] at both
    exact not_iff_not.1 both
  · intro tells
    refine List.filter_congr fun i hi => ?_
    rw [Bool.eq_iff_iff, bne_iff_ne, bne_iff_ne]
    exact not_congr (tells i hi)

/-- The selections of a list of entries all tell a name if each entry does or is dropped. -/
theorem forall_tells_of_compileAll {name : String} {es : List Entry} {items : List Item}
    (structured : ∀ e ∈ es, e.isRaw = false) (h : Runs (s.compileAll es type path) b items b') :
    (∀ i ∈ items, i.Tells name) ↔ ∀ e ∈ es, e.Dropped s type ∨ e.Tells name := by
  induction es generalizing b items with
  | nil =>
    obtain ⟨rfl, rfl⟩ := Entry.runs_compileAll_nil.1 h
    simp
  | cons e es ih =>
    obtain ⟨o, rest, b₁, ho, hr, rfl⟩ := runs_compileAll_cons.1 h
    obtain ⟨first, later⟩ := List.forall_mem_cons.1 structured
    have here := Entry.dropped_or_tells first (Entry.compiled_of_runs ho) name
    simp only [Option.mem_def] at here
    simp only [List.forall_mem_append, List.forall_mem_cons, Option.mem_toList, here, ih later hr]

/-- Default selections tell every name, so the wanted fields of a request tell a name if each entry
does or is dropped. -/
theorem forall_tells_of_compileWanted {r : Request} {t : TypeDef} {aggregate : Bool}
    {name : String} {items : List Item} (selectable : s.selectable type = .ok (some t))
    (structured : ∀ e ∈ r.wantedEntries, e.isRaw = false)
    (h : Runs (s.compileWanted r type aggregate path) b items b') :
    (∀ i ∈ items, i.Tells name) ↔ ∀ e ∈ r.wantedEntries, e.Dropped s type ∨ e.Tells name := by
  obtain ⟨defaults, more, made, compiles, rfl⟩ := runs_compileWanted h
  have default : ∀ i ∈ beside r.wantedEntries defaults, i.Tells name := by
    intro i hi
    rcases made with rfl | made
    · exact absurd (mem_of_mem_beside hi) List.not_mem_nil
    · have same := fieldName?_of_rootDefaults selectable made i (mem_of_mem_beside hi)
      rw [Item.Tells, same]
  rw [List.forall_mem_append, and_iff_right default, forall_tells_of_compileAll structured compiles]

/-! ### The aggregate of a request -/

/-- The root selection of a request with an aggregate, on a type that has such a field. The
aggregate comes last, and takes the place of the selections that begin with its name. -/
theorem aggregated_of_compileRoot {r : Request} {t : TypeDef} {items : List Item}
    (selectable : s.selectable type = .ok (some t)) (has : hasAggregate r = true)
    (declared : t.declares "aggregate" = true)
    (h : Runs (s.compileRoot r type r.isAggregate path) b items b') :
    ∃ e wanted a b₁, aggregateEntry r = .ok (some e) ∧
      Runs (s.compileWanted r type r.isAggregate path) b wanted b₁ ∧
      Runs (e.compile s type path) b₁ (some a) b' ∧ a.fieldName? = some "aggregate" ∧
      items = without wanted (some "aggregate") ++ [a] := by
  cases runs_compileRoot h with
  | leaf unselectable left =>
    rw [unselectable] at selectable
    cases selectable
  | wanted _ unmerged compiles =>
    have without : hasAggregate r = false :=
      unmerged.elim hasAggregate_of_not_isAggregate hasAggregate_of_none
    rw [without] at has
    cases has
  | @merged _ wanted more e b₁ _ _ _ entry compiles adds =>
    obtain ⟨_, aliasName, arguments, returning, extras, rfl⟩ := aggregateEntry_eq_some entry
    obtain ⟨o, rest, b₂, ho, hr, rfl⟩ := runs_compileAll_cons.1 adds
    obtain ⟨rfl, rfl⟩ := Entry.runs_compileAll_nil.1 hr
    obtain ⟨f, found⟩ := Option.isSome_iff_exists.1 declared
    have field : s.field type (.str "aggregate") = .ok (some f) := by
      rw [field_of_typeNamed (selectable_eq_some selectable).1 "aggregate", found]
    -- The type has the field and the entry does not switch it off, so it makes a selection.
    obtain ⟨rfl, dropped⟩ | ⟨a, rfl, _, _⟩ := Entry.dropped_or_shown (Entry.compiled_of_runs ho)
    · exact absurd dropped (Entry.not_dropped rfl rfl field (by simp))
    · refine ⟨_, wanted, a, b₁, entry, compiles, ho, ?_, ?_⟩
      · exact Entry.fieldName?_of_compiled rfl (Entry.compiled_of_runs ho)
      · rw [beside_singleton]
        rfl

/-- In a compiled query whose request has an aggregate, on a type that has such a field, the
selection of the aggregate comes last. It stands for the wanted selections of the field
`aggregate`, and all others are kept, just if no wanted entry is mistaken for the aggregate and it
for none. -/
theorem aggregated_iff {read : String → Option Document} {r : Request} {q : CompiledQuery}
    {root : RootField} {base : BaseType} {t : TypeDef} (compiled : s.compileBy read r = .ok q)
    (resolved : s.resolve r = .ok root) (returned : root.field.base = .ok base)
    (selectable : s.selectable base.name = .ok (some t))
    (declared : t.declares "aggregate" = true) (has : hasAggregate r = true)
    (unwrapped : (Naming.isBulk r.action root.name && (rowsFieldOf t).isSome) = false)
    (structured : ∀ e ∈ r.wantedEntries, e.isRaw = false) :
    ∃ p text e b b₁ wanted a, s.plan r = .ok p ∧
      Assembly.documentText p.parts r.fragments = .ok text ∧ read text = some q.document ∧
      p.parts.fieldText = p.rootItem.text ∧
      p.rootItem = .field none p.field p.arguments (some p.items) ∧
      aggregateEntry r = .ok (some e) ∧
      Runs (s.compileWanted r base.name true [root.name]) b wanted b₁ ∧
      Runs (e.compile s base.name [root.name]) b₁ (some a) p.bindings ∧
      a.fieldName? = some "aggregate" ∧
      (p.items = wanted.filter (fun i => i.fieldName? != some "aggregate") ++ [a] ↔
        ∀ e ∈ r.wantedEntries, e.Dropped s base.name ∨ e.Tells "aggregate") := by
  obtain ⟨p, text, document, planned, written, reads, rfl⟩ := plan_of_compileBy compiled
  obtain ⟨root', b, resolved', _, _, _, below⟩ := planned_of_plan planned
  cases resolved.symm.trans resolved'
  have aggregate : r.isAggregate = true := by
    by_contra whole
    rw [hasAggregate_of_not_isAggregate (Bool.eq_false_iff.2 whole)] at has
    cases has
  have wraps {o : Option Envelope} {b b' : Bindings}
      (h : Runs (s.envelope (some r.action) root.field) b o b') : o.isSome = false :=
    (isSome_of_runs_envelope (nameText_of_resolve resolved) returned
      (selectable_eq_some selectable).1 h).trans unwrapped
  generalize hitems : p.items = items at below
  cases below with
  | enveloped envelope compiles => cases wraps envelope
  | plain envelope returned' compiles =>
    cases returned.symm.trans returned'
    obtain ⟨e, wanted, a, b₁, entry, selects, adds, field, rfl⟩ :=
      aggregated_of_compileRoot selectable has declared compiles
    rw [aggregate] at selects
    have body : p.rootItem = .field none p.field p.arguments (some p.items) := by
      obtain ⟨empty, _⟩ | ⟨_, same⟩ := p.rootItem_eq
      · simp [hitems] at empty
      · exact same
    refine ⟨p, text, e, _, b₁, wanted, a, planned, written, reads, p.fieldText_parts, body, entry,
      selects, adds, field, ?_⟩
    rw [hitems, List.append_left_inj, without_eq_filter_iff,
      forall_tells_of_compileWanted selectable structured selects]

/-! ### The rows of an envelope -/

/-- The count, and rows in a block of their own. -/
def counted (rows : List Item) : List Item :=
  .leaf "affected_rows" :: if rows.isEmpty then [] else [.field none "returning" [] (some rows)]

theorem wrap_eq_counted (items : List Item) :
    Envelope.wrap items = counted (without items (some "affected_rows")) := rfl

theorem counted_inj {rows rows' : List Item} : counted rows = counted rows' ↔ rows = rows' := by
  constructor
  · intro same
    cases rows <;> cases rows' <;> simp_all [counted]
  · rintro rfl
    rfl

/-- The wanted fields of a request on a row tell a name if each entry does or is dropped. A row
without fields to select has none. -/
theorem forall_tells_of_compileRoot {r : Request} {name : String} {items : List Item}
    (structured : ∀ e ∈ r.wantedEntries, e.isRaw = false)
    (h : Runs (s.compileRoot r type false path) b items b') :
    (∀ i ∈ items, i.Tells name) ↔ s.selectable type = .ok none ∨
      ∀ e ∈ r.wantedEntries, e.Dropped s type ∨ e.Tells name := by
  cases runs_compileRoot h with
  | leaf unselectable left => exact iff_of_true (List.forall_mem_nil _) (.inl unselectable)
  | wanted selectable unmerged compiles =>
    have some' : s.selectable type ≠ .ok none := by
      rw [selectable]
      exact nofun
    rw [forall_tells_of_compileWanted selectable structured compiles, or_iff_right some']
  | merged selectable aggregated entry compiles adds => cases aggregated

/-- In a compiled query whose selection is in an envelope, the rows are the wanted selections of all
fields but `affected_rows`, in order, just if no wanted entry is mistaken for the count and no count
among them for another field. -/
theorem counted_iff {read : String → Option Document} {r : Request} {q : CompiledQuery}
    {root : RootField} {base : BaseType} {t : TypeDef} {rows : FieldDef}
    (compiled : s.compileBy read r = .ok q) (resolved : s.resolve r = .ok root)
    (bulk : Naming.isBulk r.action root.name = true) (returned : root.field.base = .ok base)
    (typed : s.typeNamed base.name = .ok (some t)) (usual : rowsFieldOf t = some rows)
    (structured : ∀ e ∈ r.wantedEntries, e.isRaw = false) :
    ∃ p text row b selected, s.plan r = .ok p ∧
      Assembly.documentText p.parts r.fragments = .ok text ∧ read text = some q.document ∧
      p.parts.fieldText = p.rootItem.text ∧
      p.rootItem = .field none p.field p.arguments (some p.items) ∧ rows.base = .ok row ∧
      Runs (s.compileRoot r row.name false [root.name]) b selected p.bindings ∧
      (p.items = counted (selected.filter fun i => i.fieldName? != some "affected_rows") ↔
        s.selectable row.name = .ok none ∨
          ∀ e ∈ r.wantedEntries, e.Dropped s row.name ∨ e.Tells "affected_rows") := by
  obtain ⟨p, text, document, planned, written, reads, rfl⟩ := plan_of_compileBy compiled
  obtain ⟨root', b, resolved', _, _, _, below⟩ := planned_of_plan planned
  cases resolved.symm.trans resolved'
  have selects := enveloped_of_planned (nameText_of_resolve resolved) returned typed usual below
  rw [if_pos bulk] at selects
  obtain ⟨row, selected, held, compiles, wrapped⟩ := selects
  have body : p.rootItem = .field none p.field p.arguments (some p.items) := by
    obtain ⟨empty, _⟩ | ⟨_, same⟩ := p.rootItem_eq
    · rw [wrapped] at empty
      cases empty
    · exact same
  refine ⟨p, text, row, b, selected, planned, written, reads, p.fieldText_parts, body, held,
    compiles, ?_⟩
  rw [wrapped, wrap_eq_counted, counted_inj, without_eq_filter_iff,
    forall_tells_of_compileRoot structured compiles]

end Schema

namespace Sample

/-- Whether a root field can hold the aggregate of a request: its type has such a field, and it has
no envelope. -/
def holdsAggregate (a : Action) (p : RootField × BaseType × Option TypeDef) : Bool :=
  p.2.2.any fun t =>
    t.declares "aggregate" && !(Naming.isBulk a p.1.name && (Schema.rowsFieldOf t).isSome)

theorem exists_container {r : Request}
    (h : ((returnedBy r).toOption.map (holdsAggregate r.action)) = some true) :
    ∃ root base t, schema.resolve r = .ok root ∧ root.field.base = .ok base ∧
      schema.selectable base.name = .ok (some t) ∧ t.declares "aggregate" = true ∧
      (Naming.isBulk r.action root.name && (Schema.rowsFieldOf t).isSome) = false := by
  obtain ⟨root, base, type, resolved, returned, selectable, holds⟩ := exists_returned h
  cases type with
  | none => cases holds
  | some t =>
    obtain ⟨declared, unwrapped⟩ := Bool.and_eq_true_iff.1 holds
    exact ⟨root, base, t, resolved, returned, selectable, declared,
      (Bool.not_eq_true' _).mp unwrapped⟩

/-- A request for the number of users that counts them a second time under an alias. -/
def totals : Request := (Request.ofValue (.obj [("operation", .str "query"),
  ("collection", .str "users"),
  ("returning", .obj [("aggregate", .obj [("alias", .str "totals"), ("count", .bool true)])]),
  ("aggregate", .obj [("count", .bool true)])])).toOption.get (by decide +kernel)

/-- Inserting phases with their titles under the name of the count. -/
def disguised : Request := (Request.ofValue (.obj [("operation", .str "insert"),
  ("collection", .str "phase"), ("objects", .arr [.str "first"]),
  ("returning", .obj [("id", .bool true),
    ("title", .obj [("alias", .str "affected_rows")])])])).toOption.get (by decide +kernel)

end Sample

namespace Schema

/-- The aggregate of a request takes the place of a count of columns among its wanted fields. -/
theorem aggregated_iff_count : ∃ q p root base b wanted b₁ a,
    Sample.schema.compileBy readText? countRequest = .ok q ∧
    Sample.schema.plan countRequest = .ok p ∧
      Sample.schema.resolve countRequest = .ok root ∧ root.field.base = .ok base ∧
      Runs (Sample.schema.compileWanted countRequest base.name true [root.name]) b wanted b₁ ∧
      a.fieldName? = some "aggregate" ∧
      p.items = wanted.filter (fun i => i.fieldName? != some "aggregate") ++ [a] := by
  obtain ⟨_, q, _, compiled, _⟩ := exists_compileBy_count
  obtain ⟨root, base, t, resolved, returned, selectable, declared, unwrapped⟩ :=
    Sample.exists_container (r := countRequest) (by decide +kernel)
  have structured : countRequest.wantedEntries.all (fun e => !e.isRaw) = true := by decide +kernel
  obtain ⟨p, text, e, b, b₁, wanted, a, planned, _, _, _, _, _, selects, _, field, iff⟩ :=
    aggregated_iff compiled resolved returned selectable declared (by decide +kernel) unwrapped
      fun e he => by simpa using List.all_eq_true.1 structured e he
  have tells : countRequest.wantedEntries.all
      (fun e => e.shown? == some "aggregate" && e.name? == some "aggregate") = true := by
    decide +kernel
  refine ⟨q, p, root, base, b, wanted, b₁, a, compiled, planned, resolved, returned, selects, field,
    iff.2 fun e he => .inr ?_⟩
  have both := List.all_eq_true.1 tells e he
  rw [Bool.and_eq_true, beq_iff_eq, beq_iff_eq] at both
  exact iff_of_true both.1 both.2

/-- An aggregate under an alias stays beside the aggregate of its request, which should have taken
its place. -/
theorem doubled_totals : ∃ q p, Sample.schema.compileBy readText? Sample.totals = .ok q ∧
    Sample.schema.plan Sample.totals = .ok p ∧ hasAggregate Sample.totals = true ∧
    (Sample.totals.wantedEntries.all fun e => !e.isRaw) = true ∧
    p.items.map Item.fieldName? = [some "aggregate", some "aggregate"] ∧
    p.items.map Item.leadingName = [some "totals", some "aggregate"] := by
  obtain ⟨p, q, planned, compiled, names⟩ : ∃ p q, Sample.schema.plan Sample.totals = .ok p ∧
      Sample.schema.compileBy readText? Sample.totals = .ok q ∧
      (p.items.map Item.fieldName?, p.items.map Item.leadingName) =
        ([some "aggregate", some "aggregate"], [some "totals", some "aggregate"]) :=
    exists_of_run? (by decide +kernel)
  obtain ⟨fields, begins⟩ := Prod.mk.inj names
  exact ⟨q, p, compiled, planned, by decide +kernel, by decide +kernel, fields, begins⟩

/-- A phase is inserted with its title under no alias: the envelope leaves nothing out. -/
theorem counted_iff_phases : ∃ q p b row selected,
    Sample.changing.compileBy readText? Sample.phases = .ok q ∧
    Sample.changing.plan Sample.phases = .ok p ∧
      Runs (Sample.changing.compileRoot Sample.phases row false ["insert_phase"]) b selected
        p.bindings ∧
      p.items = counted (selected.filter fun i => i.fieldName? != some "affected_rows") := by
  obtain ⟨q, compiled, _⟩ := Sample.exists_compileBy_phases
  obtain ⟨root, base, t, rows, resolved, named, returned, typed, counts, holds⟩ :=
    Sample.exists_payload (r := Sample.phases) "insert_phase" (by decide +kernel)
  have structured : Sample.phases.wantedEntries.all (fun e => !e.isRaw) = true := by decide +kernel
  have bulk : Naming.isBulk Sample.phases.action root.name = true := by
    rw [named]
    decide +kernel
  obtain ⟨p, text, row, b, selected, planned, _, _, _, _, _, compiles, iff⟩ :=
    counted_iff compiled resolved bulk returned typed ((if_pos counts).trans holds)
      fun e he => by simpa using List.all_eq_true.1 structured e he
  have tells : Sample.phases.wantedEntries.all (fun e =>
      (e.shown? == some "affected_rows") == (e.name? == some "affected_rows")) = true := by
    decide +kernel
  rw [named] at compiles
  refine ⟨q, p, b, row.name, selected, compiled, planned, compiles,
    iff.2 (.inr fun e he => .inr ?_)⟩
  have both := List.all_eq_true.1 tells e he
  rw [beq_iff_eq, Bool.eq_iff_iff, beq_iff_eq, beq_iff_eq] at both
  exact both

/-- The titles of the inserted phases under the name of the count are lost, and nothing is
reported. -/
theorem lost_titles : ∃ q p, Sample.changing.compileBy readText? Sample.disguised = .ok q ∧
    Sample.changing.plan Sample.disguised = .ok p ∧ q.diagnostics = [] ∧
    (Sample.disguised.wantedEntries.all fun e => !e.isRaw) = true ∧
    Sample.disguised.wantedEntries.map Entry.name? = [some "id", some "title"] ∧
    p.items.map Item.text = ["affected_rows", "returning \x7b\n  id\n\x7d"] := by
  obtain ⟨p, q, planned, compiled, left⟩ : ∃ p q,
      Sample.changing.plan Sample.disguised = .ok p ∧
      Sample.changing.compileBy readText? Sample.disguised = .ok q ∧
      (q.diagnostics.isEmpty, p.items.map Item.text) =
        (true, ["affected_rows", "returning \x7b\n  id\n\x7d"]) :=
    exists_of_run? (by decide +kernel)
  obtain ⟨unreported, texts⟩ := Prod.mk.inj left
  exact ⟨q, p, compiled, planned, List.isEmpty_iff.1 unreported, by decide +kernel,
    by decide +kernel, texts⟩

end Schema

end GraphRequest
