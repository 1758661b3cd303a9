import GraphRequest.Proofs.Selection.Made

/-!
# Selections are declared

Whatever a request without raw text asks for, the document selects on each type only what the type
declares, and passes each field only arguments that the field declares, each of them once. So a
server that offers the schema finds every field and argument of the document.

* `Item.Declared`: a selection that a schema declares on a type.
* `rootItem_declared`: the root field of a plan and all that is selected below it are declared.
-/

namespace GraphRequest

/-- A selection that a schema declares on a type: the field that every object answers, or a field of
the type with declared arguments, each written once, and with a body that is declared on the type
that the field returns. -/
inductive Item.Declared (s : Schema) : Value → Item → Prop
  | typename (parent : Value) : Declared s parent (.leaf Schema.typenameField)
  | leaf {parent : Value} {name : String} {f : FieldDef} {aliasName : Option String}
      {arguments : List BoundArgument} (found : s.field parent (.str name) = .ok (some f))
      (distinct : (arguments.map BoundArgument.name).Nodup)
      (declared : ∀ a ∈ arguments, f.declares a.name = true) :
      Declared s parent (.field aliasName name arguments none)
  | block {parent : Value} {name : String} {f : FieldDef} {base : BaseType}
      {aliasName : Option String} {arguments : List BoundArgument} {items : List Item}
      (found : s.field parent (.str name) = .ok (some f))
      (distinct : (arguments.map BoundArgument.name).Nodup)
      (declared : ∀ a ∈ arguments, f.declares a.name = true) (returned : f.base = .ok base)
      (below : ∀ i ∈ items, Declared s base.name i) :
      Declared s parent (.field aliasName name arguments (some items))

theorem Item.Made.declared {s : Schema} {aliased : String → Prop} {first : Int} {parent : Value}
    {i : Item} (h : i.Made s aliased first parent) : i.Declared s parent := by
  induction h with
  | typename parent => exact .typename parent
  | leaf found takes => exact .leaf found takes.distinct takes.declared
  | block found takes _ returned _ _ ih =>
    exact .block found takes.distinct takes.declared returned ih

namespace Schema

/-- The root field of a plan is declared on the root type of its operation, and so is all that is
selected below it on the types that the fields above return. -/
theorem rootItem_declared {v : Value} {s : Schema} {r : Request} {p : Plan}
    (introspected : ofIntrospection v = .ok s) (named : s.isNamed = true)
    (structured : ∀ e, s.Meets r e → e.isRaw = false) (planned : s.plan r = .ok p) :
    ∃ root, s.root r.action.operationType = some root ∧ p.rootItem.Declared s root := by
  have sound := sound_of_ofIntrospection introspected
  have made : ∃ root, s.root r.action.operationType = some root ∧
      p.rootItem.Made s (fun _ => True) r.counter root :=
    made_of_plan sound named structured (fun _ _ _ _ => trivial) planned
  obtain ⟨root, hroot, made⟩ := made
  exact ⟨root, hroot, made.declared⟩

/-- Three users with two posts each are a declared selection. -/
theorem rootItem_declared_users : ∃ p, Sample.schema.plan Sample.request = .ok p ∧
    p.rootItem.Declared Sample.schema (.str "Query") := by
  obtain ⟨p, planned, _⟩ := Sample.exists_plan
  obtain ⟨root, hroot, declared⟩ := rootItem_declared Sample.ofIntrospection_answer
    Sample.isNamed_schema Sample.structured_request planned
  have query : Sample.schema.root Sample.request.action.operationType = some (.str "Query") := by
    decide +kernel
  rw [query] at hroot
  cases hroot
  exact ⟨p, planned, declared⟩

end Schema

end GraphRequest
