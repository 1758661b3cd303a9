import GraphRequest.Proofs.Query.Numbering
import GraphRequest.Proofs.Selection.Variables

/-!
# Which variables a document uses

A document declares a variable for every argument that was bound while its request was compiled. Two
steps take selections away again after they were compiled: the aggregate of a request takes the
place of the wanted fields that begin like it, and an envelope leaves out the wanted fields that
begin like the count of its rows. The variables of such selections stay declared.

* `Schema.discarded`: the selections that were compiled for a request and are not in its document.
* `declared_iff_discarded`: the declared variables are those of the document and of the discarded
  selections, so all of them are used just when no discarded selection has a variable.
-/

namespace GraphRequest

open Document (readText?)
open Step

namespace Schema

/-! ### Discarded selections -/

/-- The selections at the root whose place the aggregate of a request takes. -/
def replaced (s : Schema) (r : Request) (type : Value) (aggregate : Bool) (path : List String) :
    Step (List Item) := do
  match ← Step.of (s.selectable type) with
  | none => return []
  | some _ =>
    let items ← s.compileWanted r type aggregate path
    if aggregate then
      match ← Step.of (aggregateEntry r) with
      | none => return []
      | some e => return items.filter fun i => i.leadingName == e.name?
    else return []

/-- The selections that an envelope leaves out, or whose place the aggregate of a request takes. -/
def leftOut (s : Schema) (r : Request) (f : RootField) : Step (List Item) := do
  match ← s.envelope (some r.action) f.field with
  | some e =>
    let items ← s.compileRoot r e.row false [f.name]
    return items.filter fun i => i.leadingName == some Envelope.countField
  | none =>
    let base ← Step.of f.field.base
    s.replaced r base.name r.isAggregate [f.name]

/-- The selections that are compiled for a request and are not in its document. -/
def discarded (s : Schema) (r : Request) : List Item :=
  match s.resolve r with
  | .error _ => []
  | .ok root =>
    let step : Step (List Item) := do
      let _ ← r.bindRoot root.field
      s.leftOut r root
    match step.result (Bindings.start r.counter) with
    | .error _ => []
    | .ok (items, _) => items

/-! ### Variables -/

variable {s : Schema} {type : Value} {path : List String} {b b' : Bindings}

/-- Selections that begin with a name, and the others, have the same variables as all. -/
theorem variableNames_perm_without (name : Option String) (items : List Item) :
    (items.flatMap Item.variableNames).Perm ((without items name).flatMap Item.variableNames ++
      (items.filter fun i => i.leadingName == name).flatMap Item.variableNames) := by
  have split :
      (items.filter (fun i => i.leadingName == name) ++ without items name).Perm items := by
    apply List.perm_append_comm.trans
    have := List.filter_append_perm (fun i : Item => i.leadingName != name) items
    simpa only [without, bne, Bool.not_not] using this
  rw [← List.flatMap_append]
  exact (List.perm_append_comm.trans split).symm.flatMap_right _

theorem beside_singleton (e : Entry) (items : List Item) :
    beside [e] items = without items e.name? := by
  rw [← beside_without, beside_nil]

/-- What is bound at the root are the variables of its selections and of those that the aggregate of
the request replaced. -/
theorem perm_of_compileRoot (leaf : s.FieldsOnSelectable) {r : Request} {aggregate : Bool}
    {items : List Item} (h : Runs (s.compileRoot r type aggregate path) b items b') :
    ∃ gone b₁, Runs (s.replaced r type aggregate path) b gone b₁ ∧
      b'.names.Perm
        (b.names ++ (items.flatMap Item.variableNames ++ gone.flatMap Item.variableNames)) := by
  cases runs_compileRoot h with
  | leaf unselectable left =>
    refine ⟨[], b, runs_bind.2 ⟨none, b, runs_of.2 ⟨unselectable, rfl⟩, runs_pure.2 ⟨rfl, rfl⟩⟩, ?_⟩
    rcases left with rfl | ⟨d, _, _, rfl⟩ <;> exact .of_eq (List.append_nil _).symm
  | @wanted t _ _ selectable unmerged compiles =>
    refine ⟨[], b', runs_bind.2 ⟨some t, b, runs_of.2 ⟨selectable, rfl⟩,
      runs_bind.2 ⟨items, b', compiles, ?_⟩⟩, ?_⟩
    · rcases unmerged with rfl | none'
      · exact runs_pure.2 ⟨rfl, rfl⟩
      · cases aggregate with
        | false => exact runs_pure.2 ⟨rfl, rfl⟩
        | true => exact runs_bind.2 ⟨none, b', runs_of.2 ⟨none', rfl⟩, runs_pure.2 ⟨rfl, rfl⟩⟩
    · rw [bound_of_compileWanted leaf compiles, List.flatMap_nil, List.append_nil]
  | @merged t ws more e b₁ _ selectable aggregated entry compiles adds =>
    refine ⟨ws.filter fun i => i.leadingName == e.name?, b₁, runs_bind.2 ⟨some t, b,
      runs_of.2 ⟨selectable, rfl⟩, runs_bind.2 ⟨ws, b₁, compiles, ?_⟩⟩, ?_⟩
    · rw [if_pos aggregated]
      exact runs_bind.2 ⟨some e, b₁, runs_of.2 ⟨entry, rfl⟩, runs_pure.2 ⟨rfl, rfl⟩⟩
    · rw [bound_of_compileAll leaf adds, bound_of_compileWanted leaf compiles, beside_singleton,
        List.flatMap_append, List.append_assoc]
      apply List.Perm.append_left _
      rw [List.append_assoc]
      apply ((variableNames_perm_without e.name? ws).append_right _).trans
      rw [List.append_assoc]
      exact List.Perm.append_left _ List.perm_append_comm

/-- Wrapping selections in an envelope keeps the variables of those that it does not leave out. -/
theorem variableNames_perm_wrap (items : List Item) :
    (items.flatMap Item.variableNames).Perm
      ((Envelope.wrap items).flatMap Item.variableNames ++
        (items.filter fun i => i.leadingName == some Envelope.countField).flatMap
          Item.variableNames) := by
  have rows : (Envelope.wrap items).flatMap Item.variableNames
      = (without items (some Envelope.countField)).flatMap Item.variableNames := by
    rw [Envelope.wrap, List.flatMap_cons, Item.variableNames_leaf, List.nil_append]
    show (if (without items (some Envelope.countField)).isEmpty then []
      else [_]).flatMap Item.variableNames = _
    split
    · rename_i empty
      rw [List.isEmpty_iff.1 empty]
    · rw [List.flatMap_singleton, Item.variableNames_block]
      rfl
  rw [rows]
  exact variableNames_perm_without _ items

theorem names_of_envelope {a : Action} {f : FieldDef} {o : Option Envelope}
    (h : Runs (s.envelope (some a) f) b o b') : b'.names = b.names :=
  keeps_envelope (I := fun c => c.names = b.names) (fun _ _ hc => hc) s a f _ _ _ h rfl

/-- What is bound below the root field are the variables of its selections and of those that were
left out. -/
theorem perm_of_planned (leaf : s.FieldsOnSelectable) {r : Request} {root : RootField}
    {items : List Item} (h : Planned s r root b items b') :
    ∃ gone b₁, Runs (s.leftOut r root) b gone b₁ ∧
      b'.names.Perm
        (b.names ++ (items.flatMap Item.variableNames ++ gone.flatMap Item.variableNames)) := by
  cases h with
  | @enveloped e rows b₁ _ envelope compiles =>
    obtain ⟨gone, b₂, replaces, perm⟩ := perm_of_compileRoot leaf compiles
    have nothing : gone = [] := by
      obtain ⟨o, b₃, ho, h₁⟩ := runs_bind.1 replaces
      cases o with
      | none => exact (runs_pure.1 h₁).1
      | some t =>
        obtain ⟨ws, b₄, _, h₂⟩ := runs_bind.1 h₁
        exact (runs_pure.1 h₂).1
    refine ⟨_, b', runs_bind.2 ⟨some e, b₁, envelope, runs_bind.2 ⟨rows, b', compiles,
      runs_pure.2 ⟨rfl, rfl⟩⟩⟩, ?_⟩
    rw [nothing, List.flatMap_nil, List.append_nil, names_of_envelope envelope] at perm
    exact perm.trans (List.Perm.append_left _ (variableNames_perm_wrap rows))
  | @plain base _ b₁ _ envelope returned compiles =>
    obtain ⟨gone, b₂, replaces, perm⟩ := perm_of_compileRoot leaf compiles
    rw [names_of_envelope envelope] at perm
    exact ⟨gone, b₂, runs_bind.2 ⟨none, b₁, envelope, runs_bind.2 ⟨base, b₁,
      runs_of.2 ⟨returned, rfl⟩, replaces⟩⟩, perm⟩

/-! ### Plans -/

theorem rootItem_variableNames (p : Plan) :
    p.rootItem.variableNames
      = p.arguments.map BoundArgument.variableName ++ p.items.flatMap Item.variableNames := by
  obtain ⟨empty, root⟩ | ⟨_, root⟩ := p.rootItem_eq
  · rw [root, empty, List.flatMap_nil, Item.variableNames]
  · rw [root]
    exact Item.variableNames_block none p.field p.arguments p.items

theorem discarded_of_leftOut {r : Request} {root : RootField} {arguments : List BoundArgument}
    {b₁ b₂ : Bindings} {gone : List Item} (resolved : s.resolve r = .ok root)
    (binds : Runs (r.bindRoot root.field) (Bindings.start r.counter) arguments b₁)
    (leaves : Runs (s.leftOut r root) b₁ gone b₂) : s.discarded r = gone := by
  have run : Runs (do
      let _ ← r.bindRoot root.field
      s.leftOut r root) (Bindings.start r.counter) gone b₂ :=
    runs_bind.2 ⟨arguments, b₁, binds, leaves⟩
  unfold discarded
  rw [resolved]
  dsimp only
  rw [show _ = Except.ok (gone, b₂) from run]

/-- The variables of a plan are those of its root field and of the discarded selections. -/
theorem perm_of_plan (leaf : s.FieldsOnSelectable) {r : Request} {p : Plan}
    (h : s.plan r = .ok p) :
    p.bindings.names.Perm
      (p.rootItem.variableNames ++ (s.discarded r).flatMap Item.variableNames) := by
  obtain ⟨root, b₁, resolved, _, _, arguments, planned⟩ := planned_of_plan h
  obtain ⟨gone, b₂, leaves, perm⟩ := perm_of_planned leaf planned
  have bound := Request.bound_of_bindEach arguments
  rw [discarded_of_leftOut resolved arguments leaves, rootItem_variableNames, List.append_assoc]
  rw [bound] at perm
  exact perm

/-- The header of a document declares the variables of its root field and of the selections that
were discarded, each once. So every declared variable is used in the document just when no discarded
selection has a variable. -/
theorem declared_iff_discarded {read : String → Option Document} {v : Value} {r : Request}
    {q : CompiledQuery} (introspected : ofIntrospection v = .ok s)
    (h : s.compileBy read r = .ok q) :
    ∃ p, s.plan r = .ok p ∧
      p.bindings.declarations.map Declaration.name = Keyed.keys q.variableValues ∧
      (Keyed.keys q.variableValues).Perm
        (p.rootItem.variableNames ++ (s.discarded r).flatMap Item.variableNames) ∧
      ((∀ name ∈ Keyed.keys q.variableValues, name ∈ p.rootItem.variableNames) ↔
        ∀ i ∈ s.discarded r, i.variableNames = []) := by
  obtain ⟨p, _, _, planned, _, _, rfl⟩ := plan_of_compileBy h
  have leaf := fieldsOnSelectable_of_ofIntrospection introspected
  have numbered := numbered_of_plan planned
  have keys : Keyed.keys p.bindings.variableMap = p.bindings.names := by
    rw [numbered.variableMap_eq]
    rfl
  have perm := perm_of_plan leaf planned
  have distinct : p.bindings.names.Nodup := by
    rw [Bindings.names, numbered.bound]
    exact Bindings.namesBetween_nodup _ _
  refine ⟨p, planned, ?_, ?_, ?_⟩
  · show _ = Keyed.keys p.bindings.variableMap
    rw [keys, numbered.declared, Bindings.names, numbered.bound]
  · show (Keyed.keys p.bindings.variableMap).Perm _
    rw [keys]
    exact perm
  · show (∀ name ∈ Keyed.keys p.bindings.variableMap, _) ↔ _
    rw [keys]
    constructor
    · intro used i hi
      apply List.eq_nil_iff_forall_not_mem.2
      intro name hname
      have gone : name ∈ (s.discarded r).flatMap Item.variableNames :=
        List.mem_flatMap.2 ⟨i, hi, hname⟩
      have bound : name ∈ p.bindings.names := perm.mem_iff.2 (List.mem_append_right _ gone)
      have apart := (List.nodup_append.1 (perm.nodup_iff.1 distinct)).2.2
      exact apart name (used name bound) name gone rfl
    · intro none' name hname
      rcases List.mem_append.1 (perm.mem_iff.1 hname) with used | gone
      · exact used
      · obtain ⟨i, hi, hname⟩ := List.mem_flatMap.1 gone
        rw [none' i hi] at hname
        cases hname

/-- Three users with two posts each use both of their variables. -/
theorem declared_iff_discarded_users : ∃ q,
    Sample.schema.compileBy readText? Sample.request = .ok q ∧
    Keyed.keys q.variableValues = ["v1", "v2"] ∧ ∃ p, Sample.schema.plan Sample.request = .ok p ∧
      ∀ name ∈ ["v1", "v2"], name ∈ p.rootItem.variableNames := by
  obtain ⟨q, compiled, keys⟩ := Sample.exists_compileBy
  have nothing : (Sample.schema.discarded Sample.request).isEmpty = true := by decide +kernel
  obtain ⟨p, planned, _, _, used⟩ := declared_iff_discarded Sample.ofIntrospection_answer compiled
  rw [keys, List.isEmpty_iff.1 nothing] at used
  refine ⟨q, compiled, keys, p, planned, used.2 ?_⟩
  intro i hi
  cases hi

/-- A request for the number of users, with a count of some columns among its wanted fields. -/
def countRequest : Request :=
  (Request.ofValue (.obj [("operation", .str "query"), ("collection", .str "users"),
    ("returning", .obj [("aggregate",
      .obj [("count", .columns (.arr [.str "id"]) .null)])]),
    ("aggregate", .obj [("count", .bool true)])])).toOption.get (by decide +kernel)

theorem exists_compileBy_count : ∃ p q, Sample.schema.plan countRequest = .ok p ∧
    Sample.schema.compileBy readText? countRequest = .ok q ∧
    (Keyed.keys q.variableValues, p.rootItem.variableNames) = (["v1"], []) :=
  exists_of_run? (by decide +kernel)

/-- The aggregate of a request takes the place of a count of columns, whose variable stays declared
and is used nowhere. -/
theorem unused_count : ∃ q p, Sample.schema.compileBy readText? countRequest = .ok q ∧
    Sample.schema.plan countRequest = .ok p ∧ Keyed.keys q.variableValues = ["v1"] ∧
    p.rootItem.variableNames = [] := by
  obtain ⟨p, q, planned, compiled, names⟩ := exists_compileBy_count
  obtain ⟨declared, used⟩ := Prod.mk.inj names
  exact ⟨q, p, compiled, planned, declared, used⟩

end Schema

end GraphRequest
