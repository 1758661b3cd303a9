import GraphRequest.Proofs.Query.Documents
import GraphRequest.Proofs.Selection.Names

/-!
# When the root field has a body

A field that returns an object needs a body. Below the root a field gets the default selection of
its type when nothing else is left for it. The root field does not: its wanted fields may leave
nothing, and then it is written without a body, which can be read but is refused by every server.

* `Schema.Emptied`: the requests that leave nothing for the body of their root field.
* `rootItem_body_iff`: the root field has a body just if its request is none of them.
-/

namespace GraphRequest

open Document (readText?)
open Step

/-- An object asks for a nested field. -/
theorem Entry.nested_of_ofPair {given : String} {fields : Fields} {e : Entry}
    (h : Entry.ofPair given (.obj fields) = .ok e) : ∃ aliasName arguments returning extras,
      e = .nested (Text.strip given) aliasName arguments returning extras := by
  unfold Entry.ofPair at h
  split at h
  · cases h
  · obtain ⟨aliasName, _, h₁⟩ := bind_eq_ok.1 h
    obtain ⟨returning, _, h₂⟩ := bind_eq_ok.1 h₁
    cases h₂
    exact ⟨_, _, _, _, rfl⟩

namespace Schema

variable {s : Schema} {type : Value} {path : List String} {b b' : Bindings}

/-! ### The aggregate of a request -/

/-- Whether a request has an aggregate that is not empty. -/
def hasAggregate (r : Request) : Bool := (r.aggregate.map (!·.isEmpty)).getD false

/-- Whether the aggregate of a request takes the place of the selections that begin with a name. -/
def Hides (r : Request) (name : Option String) : Prop :=
  hasAggregate r = true ∧ name = some "aggregate"

theorem hasAggregate_of_none {r : Request} (h : aggregateEntry r = .ok none) :
    hasAggregate r = false := by
  unfold aggregateEntry at h
  unfold hasAggregate
  split at h
  · cases hp : Entry.ofPair "aggregate" (.obj _) with
    | error e =>
      rw [hp] at h
      cases h
    | ok e =>
      rw [hp] at h
      cases h
  · rename_i empty
    cases ha : r.aggregate with
    | none => rfl
    | some fs =>
      cases fs with
      | nil => rfl
      | cons f fs => exact absurd ha (empty f fs)

theorem hasAggregate_of_not_isAggregate {r : Request} (h : r.isAggregate = false) :
    hasAggregate r = false := by
  unfold Request.isAggregate at h
  rw [hasAggregate, Option.isSome_eq_false_iff.1 h |> Option.isNone_iff_eq_none.1]
  rfl

/-- The entry for the aggregate of a request is a nested field of that name. -/
theorem aggregateEntry_eq_some {r : Request} {e : Entry} (h : aggregateEntry r = .ok (some e)) :
    hasAggregate r = true ∧ ∃ aliasName arguments returning extras,
      e = .nested "aggregate" aliasName arguments returning extras := by
  unfold aggregateEntry at h
  split at h
  · rename_i f fs given
    cases hp : Entry.ofPair "aggregate" (.obj (f :: fs)) with
    | error fault =>
      rw [hp] at h
      cases h
    | ok e' =>
      rw [hp] at h
      cases h
      have stripped : Text.strip "aggregate" = "aggregate" := by decide
      have nested := Entry.nested_of_ofPair hp
      rw [stripped] at nested
      exact ⟨by simp [hasAggregate, given], nested⟩
  · cases h

/-- The requests that leave nothing for the body of their root field, which returns a type that
takes a selection. Raw text counts as a selection whatever it says. -/
structure Emptied (s : Schema) (r : Request) (root : RootField) (type : Value) (t : TypeDef) :
    Prop where
  /-- There is no envelope, which would count the rows. -/
  unwrapped : (Naming.isBulk r.action root.name && (rowsFieldOf t).isSome) = false
  /-- The place of each default selection is taken by a wanted field. -/
  defaults : ∀ name ∈ defaultNames r t,
    (∃ e ∈ r.wantedEntries, e.name? = some name) ∨ Hides r (some name)
  /-- Each wanted field is dropped, or its place is taken by the aggregate of the request. -/
  wanted : ∀ e ∈ r.wantedEntries, e.Dropped s type ∨ Hides r e.shown?
  /-- The aggregate of the request is dropped. -/
  aggregate : hasAggregate r = true → t.declares "aggregate" = false

theorem items_eq_nil_iff {items : List Item} : items = [] ↔ ∀ i ∈ items, False :=
  List.eq_nil_iff_forall_not_mem

/-- The selection of the root field is empty when no default selection, no wanted field and no
aggregate is left. -/
theorem eq_nil_of_compileRoot {r : Request} {t : TypeDef} {items : List Item}
    (selectable : s.selectable type = .ok (some t))
    (h : Runs (s.compileRoot r type r.isAggregate path) b items b') :
    items = [] ↔
      ((∀ name ∈ defaultNames r t,
          (∃ e ∈ r.wantedEntries, e.name? = some name) ∨ Hides r (some name)) ∧
        ∀ e ∈ r.wantedEntries, e.Dropped s type ∨ Hides r e.shown?) ∧
      (hasAggregate r = true → t.declares "aggregate" = false) := by
  cases runs_compileRoot h with
  | leaf unselectable left =>
    rw [unselectable] at selectable
    cases selectable
  | wanted _ unmerged compiles =>
    have none' : hasAggregate r = false :=
      unmerged.elim hasAggregate_of_not_isAggregate hasAggregate_of_none
    rw [items_eq_nil_iff,
      forall_leadingName_of_compileWanted (P := fun _ => False) selectable compiles]
    simp [Hides, none']
  | @merged _ items more e _ _ _ _ entry compiles adds =>
    -- What stays of the wanted fields begins with another name, and the aggregate comes behind.
    obtain ⟨has, aliasName, arguments, returning, extras, rfl⟩ := aggregateEntry_eq_some entry
    have field : s.field type (.str "aggregate") = .ok (t.field? (.str "aggregate")) :=
      field_of_typeNamed (selectable_eq_some selectable).1 "aggregate"
    have kept : beside [.nested "aggregate" aliasName arguments returning extras] items = [] ↔
        ∀ i ∈ items, i.leadingName = some "aggregate" := by
      simp [beside, Entry.name?]
    have added : more = [] ↔ t.declares "aggregate" = false := by
      rw [items_eq_nil_iff, forall_leadingName_of_compileAll (P := fun _ => False) adds]
      simp only [List.mem_singleton, forall_eq, or_false, TypeDef.declares,
        Option.isSome_eq_false_iff, Option.isNone_iff_eq_none]
      constructor
      · intro dropped
        cases dropped with
        | unknown _ named missing =>
          cases named
          rw [field] at missing
          exact Except.ok.inj missing
      · intro missing
        rw [missing] at field
        exact .unknown rfl rfl field
    rw [List.append_eq_nil_iff, kept, added,
      forall_leadingName_of_compileWanted (P := (· = some "aggregate")) selectable compiles]
    simp [Hides, has]

/-! ### The root field -/

/-- A root field has an envelope when any number of rows are changed and the payload has the usual
form. -/
theorem isSome_of_runs_envelope {a : Action} {root : RootField} {base : BaseType} {t : TypeDef}
    {o : Option Envelope} (named : root.field.nameText = .ok root.name)
    (returned : root.field.base = .ok base) (typed : s.typeNamed base.name = .ok (some t))
    (h : Runs (s.envelope (some a) root.field) b o b') :
    o.isSome = (Naming.isBulk a root.name && (rowsFieldOf t).isSome) := by
  unfold envelope at h
  cases change : a.isMutation with
  | false =>
    simp only [Option.filter, change, Bool.false_eq_true, if_false] at h
    obtain ⟨rfl, rfl⟩ := runs_pure.1 h
    simp [Naming.isBulk, change]
  | true =>
    simp only [Option.filter, change, if_true] at h
    obtain ⟨name, b₁, hn, h₁⟩ := runs_bind.1 h
    obtain ⟨same, rfl⟩ := runs_ofShape.1 hn
    cases named.symm.trans same
    cases bulk : Naming.isBulk a root.name with
    | false =>
      rw [bulk] at h₁
      obtain ⟨rfl, rfl⟩ := runs_pure.1 h₁
      rfl
    | true =>
      simp only [bulk, Bool.not_true, Bool.false_eq_true, if_false] at h₁
      obtain ⟨base', b₂, hb, h₂⟩ := runs_bind.1 h₁
      obtain ⟨same, rfl⟩ := runs_of.1 hb
      cases returned.symm.trans same
      obtain ⟨payload, b₃, hp, h₃⟩ := runs_bind.1 h₂
      obtain ⟨same, rfl⟩ := runs_of.1 hp
      cases typed.symm.trans same
      rw [Option.bind_some] at h₃
      cases rows : rowsFieldOf t with
      | none =>
        simp only [rows] at h₃
        obtain ⟨_, b₄, hr, h₄⟩ := runs_bind.1 h₃
        obtain ⟨rfl, rfl⟩ := runs_pure.1 h₄
        rfl
      | some f =>
        simp only [rows] at h₃
        obtain ⟨row, b₄, hrow, h₄⟩ := runs_bind.1 h₃
        obtain ⟨rfl, rfl⟩ := runs_pure.1 h₄
        rfl

theorem nameText_of_resolve {r : Request} {root : RootField} (h : s.resolve r = .ok root) :
    root.field.nameText = .ok root.name := by
  obtain ⟨_, t, _, found⟩ := resolve_eq_ok h
  rw [FieldDef.nameText, (TypeDef.field?_eq_some found).2]

/-- A plan selects nothing below its root field just if the request leaves nothing. -/
theorem eq_nil_of_planned {r : Request} {root : RootField} {base : BaseType} {t : TypeDef}
    {items : List Item} (resolved : s.resolve r = .ok root) (returned : root.field.base = .ok base)
    (selectable : s.selectable base.name = .ok (some t)) (h : Planned s r root b items b') :
    items = [] ↔ s.Emptied r root base.name t := by
  have wraps {o : Option Envelope} {b b' : Bindings}
      (h : Runs (s.envelope (some r.action) root.field) b o b') :=
    isSome_of_runs_envelope (nameText_of_resolve resolved) returned
      (selectable_eq_some selectable).1 h
  cases h with
  | enveloped envelope compiles =>
    refine iff_of_false (List.cons_ne_nil _ _) fun emptied => ?_
    have wrapped := wraps envelope
    rw [emptied.unwrapped] at wrapped
    cases wrapped
  | plain envelope returned' compiles =>
    cases returned.symm.trans returned'
    rw [eq_nil_of_compileRoot selectable compiles]
    constructor
    · rintro ⟨⟨defaults, wanted⟩, aggregate⟩
      exact ⟨(wraps envelope).symm, defaults, wanted, aggregate⟩
    · intro emptied
      exact ⟨⟨emptied.defaults, emptied.wanted⟩, emptied.aggregate⟩

theorem exists_base_of_planned {r : Request} {root : RootField} {items : List Item}
    (h : Planned s r root b items b') : ∃ base, root.field.base = .ok base := by
  cases h with
  | plain _ returned _ => exact ⟨_, returned⟩
  | enveloped envelope _ =>
    rcases runs_envelope envelope with ⟨none', _⟩ | ⟨base, _, _, _, returned, _⟩
    · cases none'
    · exact ⟨base, returned⟩

/-- In the text of a compiled query, the root field has a body with a selection just if its request
leaves one, whenever its type takes a selection at all. -/
theorem rootItem_body_iff {read : String → Option Document} {r : Request} {q : CompiledQuery}
    (compiled : s.compileBy read r = .ok q) :
    ∃ p root base text, s.plan r = .ok p ∧ s.resolve r = .ok root ∧
      root.field.base = .ok base ∧ Assembly.documentText p.parts r.fragments = .ok text ∧
      read text = some q.document ∧ p.parts.fieldText = p.rootItem.text ∧
      ∀ t, s.selectable base.name = .ok (some t) →
        ((∃ items, items ≠ [] ∧ p.rootItem = .field none p.field p.arguments (some items)) ↔
          ¬ s.Emptied r root base.name t) := by
  obtain ⟨p, text, document, planned, written, reads, rfl⟩ := plan_of_compileBy compiled
  obtain ⟨root, b₁, resolved, _, _, _, below⟩ := planned_of_plan planned
  obtain ⟨base, returned⟩ := exists_base_of_planned below
  refine ⟨p, root, base, text, planned, resolved, returned, written, reads, p.fieldText_parts, ?_⟩
  intro t selectable
  rw [← eq_nil_of_planned resolved returned selectable below]
  obtain ⟨empty, same⟩ | ⟨present, same⟩ := p.rootItem_eq
  · rw [same]
    refine iff_of_false ?_ (fun present => present empty)
    rintro ⟨items, _, body⟩
    cases body
  · exact iff_of_true ⟨p.items, present, same⟩ present

end Schema

namespace Sample

theorem exists_root_base (r : Request)
    (h : ((schema.resolve r).toOption.bind fun root => root.field.base.toOption.map BaseType.name) =
      some (.str "User")) :
    ∃ root base, schema.resolve r = .ok root ∧ root.field.base = .ok base ∧
      base.name = .str "User" := by
  cases resolved : schema.resolve r with
  | error e =>
    rw [resolved] at h
    cases h
  | ok root =>
    rw [resolved] at h
    obtain ⟨base, returned, name⟩ := exists_of_toOption_map h
    exact ⟨root, base, rfl, returned, name⟩

/-- Users take a selection, and have a number. -/
theorem selectable_user :
    ∃ t, schema.selectable (.str "User") = .ok (some t) ∧ t.declares "id" = true := by
  obtain ⟨o, selectable, declared⟩ : ∃ o, schema.selectable (.str "User") = .ok o ∧
      o.map (fun t => t.declares "id") = some true := exists_of_toOption_map (by decide +kernel)
  obtain ⟨t, rfl, identified⟩ := Option.map_eq_some_iff.1 declared
  exact ⟨t, selectable, identified⟩

end Sample

namespace Schema

/-- Users are selected with their number, as nothing takes its place. -/
theorem rootItem_body_iff_users : ∃ q p items,
    Sample.schema.compileBy readText? Sample.request = .ok q ∧
    Sample.schema.plan Sample.request = .ok p ∧ items ≠ [] ∧
    p.rootItem = .field none p.field p.arguments (some items) := by
  obtain ⟨q, compiled, _⟩ := Sample.exists_compileBy
  obtain ⟨p, root, base, _, planned, resolved, returned, _, _, _, body_iff⟩ :=
    rootItem_body_iff compiled
  obtain ⟨root', base', resolved', returned', name⟩ :=
    Sample.exists_root_base Sample.request (by decide +kernel)
  cases resolved.symm.trans resolved'
  cases returned.symm.trans returned'
  obtain ⟨t, selectable, identified⟩ := Sample.selectable_user
  have default : "id" ∈ defaultNames Sample.request t := by
    have kept : Sample.request.replacesDefaults = false ∧ Sample.request.isAggregate = false := by
      decide +kernel
    have member : "id" ∈ rootDefaultFields.filter t.declares :=
      List.mem_filter.2 ⟨by decide, identified⟩
    rw [defaultNames, kept.1, kept.2, if_neg Bool.false_ne_true, if_neg Bool.false_ne_true,
      if_neg (mt List.isEmpty_iff.1 (List.ne_nil_of_mem member))]
    exact member
  have left : ¬ Sample.schema.Emptied Sample.request root base.name t := by
    intro emptied
    rcases emptied.defaults "id" default with ⟨e, he, clash⟩ | hidden
    · have others : Sample.request.wantedEntries.all (fun e => e.name? != some "id") = true := by
        decide +kernel
      have other := List.all_eq_true.1 others e he
      rw [clash] at other
      simp at other
    · exact absurd hidden.2 (by decide)
  rw [← name] at selectable
  obtain ⟨items, present, same⟩ := (body_iff t selectable).2 left
  exact ⟨q, p, items, compiled, planned, present, same⟩

/-- A request for no fields. -/
def noFields : Request := (Request.ofValue (.obj [("operation", .str "query"),
  ("collection", .str "users"), ("returning", .arr [])])).toOption.get (by decide +kernel)

/-- A request for no fields of the users compiles to a root field without a body, although users
take a selection. -/
theorem bodiless_users : ∃ q p root base t, Sample.schema.compileBy readText? noFields = .ok q ∧
    Sample.schema.plan noFields = .ok p ∧ Sample.schema.resolve noFields = .ok root ∧
    root.field.base = .ok base ∧ Sample.schema.selectable base.name = .ok (some t) ∧
    p.rootItem = .field none p.field p.arguments none := by
  obtain ⟨p, q, planned, compiled, empty⟩ : ∃ p q, Sample.schema.plan noFields = .ok p ∧
      Sample.schema.compileBy readText? noFields = .ok q ∧ p.items.isEmpty = true :=
    exists_of_run? (by decide +kernel)
  obtain ⟨root, base, resolved, returned, name⟩ :=
    Sample.exists_root_base noFields (by decide +kernel)
  obtain ⟨t, selectable, _⟩ := Sample.selectable_user
  rw [← name] at selectable
  refine ⟨q, p, root, base, t, compiled, planned, resolved, returned, selectable, ?_⟩
  rw [Plan.rootItem, empty]
  rfl

end Schema

end GraphRequest
