import GraphRequest.Proofs.Query.Envelopes
import GraphRequest.Proofs.Selection.Refused
import GraphRequest.Proofs.Selection.Variables

/-!
# Requests that are refused when they are compiled

A request is read before any schema is at hand. What is left to be refused when it is compiled are
keys of nested fields that mean neither an argument nor a field, below its wanted fields or below
its aggregate, and the aggregate itself, which is not read before. A request that has such a part
where compiling comes upon it does not compile.

* `Schema.Refuses`: the faults of a request that compiling it comes upon.
* `not_plan_of_refuses`: a request with such a fault has no plan.
-/

namespace GraphRequest

open Step

namespace Schema

/-- The aggregate of a request cannot be read as a field, or an entry in it is refused. -/
def RefusesAggregate (s : Schema) (r : Request) (fault : RequestFault) (type : Value) : Prop :=
  aggregateEntry r = .error (.request fault) ∨
    ∃ e, aggregateEntry r = .ok (some e) ∧ Entry.Refused s fault type e

/-- Compiling a request comes upon a fault: below a wanted field, or in the aggregate, which is a
field of the root type. -/
inductive Refuses (s : Schema) (r : Request) (fault : RequestFault) : Prop
  | wanted {type : Value} {e : Entry} (on : s.SelectsOn r type) (mem : e ∈ r.wantedEntries)
      (refused : Entry.Refused s fault type e) : Refuses s r fault
  | aggregate {root : RootField} {base : BaseType} {t : TypeDef} {b b' : Bindings}
      (resolved : s.resolve r = .ok root)
      (envelope : Runs (s.envelope (some r.action) root.field) b none b')
      (returned : root.field.base = .ok base) (selectable : s.selectable base.name = .ok (some t))
      (refused : s.RefusesAggregate r fault base.name) : Refuses s r fault

variable {s : Schema} {r : Request} {fault : RequestFault}

theorem isAggregate_of_refusesAggregate {type : Value}
    (refused : s.RefusesAggregate r fault type) : r.isAggregate = true := by
  have given : aggregateEntry r ≠ .ok none := by
    intro none'
    obtain failed | ⟨e, read, _⟩ := refused
    · cases failed.symm.trans none'
    · cases read.symm.trans none'
  unfold aggregateEntry at given
  unfold Request.isAggregate
  cases aggregate : r.aggregate with
  | none =>
    rw [aggregate] at given
    exact absurd rfl given
  | some fields => rfl

/-! ### Envelopes do not depend on what was gathered -/

/-- A field that is in an envelope once always is. -/
theorem runs_envelope_of_some {a : Action} {root : RootField} {b b' b₁ b₁' : Bindings}
    {e : Envelope} {o : Option Envelope} (named : root.field.nameText = .ok root.name)
    (h : Runs (s.envelope (some a) root.field) b (some e) b')
    (h' : Runs (s.envelope (some a) root.field) b₁ o b₁') : o = some e := by
  obtain ⟨none', _⟩ | ⟨base, t, rows, row, returned, typed, usual, held, same, _⟩ := runs_envelope h
  · cases none'
  · have wrapped := isSome_of_runs_envelope named returned typed h
    rw [Option.isSome_some, eq_comm, Bool.and_eq_true] at wrapped
    obtain ⟨row', held', same', _⟩ :=
      runs_envelope_of_bulk named wrapped.1 returned typed usual h'
    cases held.symm.trans held'
    rw [same, same']

/-! ### Refused requests have no plan -/

/-- An entry can only be refused on a type that has its field. -/
theorem exists_field_of_refused {type : Value} {e : Entry} (h : Entry.Refused s fault type e) :
    ∃ name f, s.field type (.str name) = .ok (some f) := by
  cases h with
  | key found returned typed mem other => exact ⟨_, _, found⟩
  | descend named found returned wants child refused => exact ⟨_, _, found⟩

theorem not_runs_of_refused_wanted (leaf : s.FieldsOnSelectable) {type : Value} {aggregate : Bool}
    {path : List String} {b b' : Bindings} {items : List Item} {e : Entry}
    (mem : e ∈ r.wantedEntries) (refused : Entry.Refused s fault type e) :
    ¬ Runs (s.compileRoot r type aggregate path) b items b' := by
  have wanted {b b' : Bindings} {items : List Item} :
      ¬ Runs (s.compileWanted r type aggregate path) b items b' := by
    intro run
    obtain ⟨_, _, _, compiles, _⟩ := runs_compileWanted run
    obtain ⟨b₁, o, b₂, ran⟩ := Entry.exists_run_of_mem compiles mem
    exact Entry.not_runs_of_refused refused ran
  intro run
  cases runs_compileRoot run with
  | leaf unselectable left =>
    obtain ⟨name, f, found⟩ := exists_field_of_refused refused
    exact selectable_of_field leaf found unselectable
  | wanted selectable unmerged compiles => exact wanted compiles
  | merged selectable aggregated entry compiles adds => exact wanted compiles

theorem not_runs_of_refused_aggregate {type : Value} {path : List String} {b b' : Bindings}
    {items : List Item} {t : TypeDef} (selectable : s.selectable type = .ok (some t))
    (refused : s.RefusesAggregate r fault type) :
    ¬ Runs (s.compileRoot r type r.isAggregate path) b items b' := by
  rw [isAggregate_of_refusesAggregate refused]
  intro run
  cases runs_compileRoot run with
  | leaf unselectable left => cases selectable.symm.trans unselectable
  | wanted _ unmerged compiles =>
    obtain aggregated | none' := unmerged
    · cases aggregated
    · obtain failed | ⟨e, read, _⟩ := refused
      · cases failed.symm.trans none'
      · cases read.symm.trans none'
  | merged _ aggregated entry compiles adds =>
    obtain failed | ⟨e, read, refused⟩ := refused
    · cases failed.symm.trans entry
    · cases read.symm.trans entry
      obtain ⟨b₁, o, b₂, ran⟩ := Entry.exists_run_of_mem adds (.head _)
      exact Entry.not_runs_of_refused refused ran

theorem not_planned_of_refuses (leaf : s.FieldsOnSelectable) (h : s.Refuses r fault)
    {root : RootField} (resolved : s.resolve r = .ok root) {b b' : Bindings} {items : List Item} :
    ¬ Planned s r root b items b' := by
  intro below
  have named := nameText_of_resolve resolved
  cases h with
  | wanted on mem refused =>
    cases on with
    | rows resolved' envelope =>
      cases resolved.symm.trans resolved'
      cases below with
      | enveloped envelope' compiles =>
        cases runs_envelope_of_some named envelope envelope'
        exact not_runs_of_refused_wanted leaf mem refused compiles
      | plain envelope' returned compiles => cases runs_envelope_of_some named envelope envelope'
    | root resolved' envelope returned =>
      cases resolved.symm.trans resolved'
      cases below with
      | enveloped envelope' compiles => cases runs_envelope_of_some named envelope' envelope
      | plain envelope' returned' compiles =>
        cases returned.symm.trans returned'
        exact not_runs_of_refused_wanted leaf mem refused compiles
  | aggregate resolved' envelope returned selectable refused =>
    cases resolved.symm.trans resolved'
    cases below with
    | enveloped envelope' compiles => cases runs_envelope_of_some named envelope' envelope
    | plain envelope' returned' compiles =>
      cases returned.symm.trans returned'
      exact not_runs_of_refused_aggregate selectable refused compiles

/-- A request with a fault that compiling comes upon has no plan. -/
theorem not_plan_of_refuses (leaf : s.FieldsOnSelectable) (h : s.Refuses r fault) {p : Plan} :
    s.plan r ≠ .ok p := by
  intro planned
  obtain ⟨root, b, resolved, _, _, _, below⟩ := planned_of_plan planned
  exact not_planned_of_refuses leaf h resolved below

end Schema

end GraphRequest
