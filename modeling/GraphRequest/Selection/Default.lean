import GraphRequest.Selection.Item

/-!
# Default selections

The selections made on a type when a request asks for none. A field of an object or interface type
must have a selection below it, and a field of any other type must have none.

* `body` gives a field the selection that its type calls for.
-/

namespace GraphRequest.Schema

/-- The field that every object answers. -/
def typenameField : String := "__typename"

/-- The fields selected at the root of a document if the type has them. -/
def rootDefaultFields : List String := ["id", "name", "email", "created_at", "updated_at"]

/-- The default selection on the result type of an aggregate field. -/
def aggregateDefault (s : Schema) (t : TypeDef) : Except Failure (List Item) :=
  match t.field? (.str "aggregate") with
  | none => .ok [.leaf typenameField]
  | some f => do
    let base ← f.base
    let type ← s.typeNamed base.name
    let below := if (type.map (·.declares "count")).getD false then "count" else typenameField
    .ok [.field none "aggregate" [] (some [.leaf below])]

/-- The default selection on a type that takes one. -/
def typeDefault (s : Schema) (t : TypeDef) (aggregate : Bool) : Except Failure (List Item) :=
  if aggregate then s.aggregateDefault t
  else .ok [.leaf (if t.declares "id" then "id" else typenameField)]

/-- The named type if it takes a selection. -/
def selectable (s : Schema) (type : Value) : Except Failure (Option TypeDef) := do
  let t ← s.typeNamed type
  .ok (t.filter TypeDef.isSelectable)

/-- The default selection on a named type, nothing if it takes none. -/
def defaultSelection (s : Schema) (type : Value) (aggregate : Bool) :
    Except Failure (List Item) := do
  match ← s.selectable type with
  | none => .ok []
  | some t => s.typeDefault t aggregate

/-- The default selection at the root of a document. -/
def rootDefaults (s : Schema) (type : Value) (aggregate : Bool) :
    Except Failure (List Item) :=
  if aggregate then s.defaultSelection type true
  else do
    match ← s.selectable type with
    | none => .ok []
    | some t =>
      let names := rootDefaultFields.filter t.declares
      .ok ((if names.isEmpty then [typenameField] else names).map .leaf)

/-- The body of a field that returns a type: none for a type that takes no selection, else the
given selections, or the default ones if none are given. -/
def body (s : Schema) (items : List Item) (type : Value) (aggregate : Bool) :
    Except Failure (Option (List Item)) := do
  match ← s.selectable type with
  | none => .ok none
  | some t =>
    if items.isEmpty then
      let defaults ← s.typeDefault t aggregate
      .ok (some defaults)
    else .ok (some items)

theorem typeDefault_ne_nil {s : Schema} {t : TypeDef} {aggregate : Bool} {items : List Item}
    (h : s.typeDefault t aggregate = .ok items) : items ≠ [] := by
  intro hnil
  subst hnil
  unfold typeDefault at h
  split at h
  · unfold aggregateDefault at h
    split at h
    · simp at h
    · rename_i f _
      cases hb : f.base with
      | error e => simp [hb, bind, Except.bind] at h
      | ok b =>
        cases ht : s.typeNamed b.name with
        | error e => simp [hb, ht, bind, Except.bind] at h
        | ok t => simp [hb, ht, bind, Except.bind] at h
  · simp at h

end GraphRequest.Schema
