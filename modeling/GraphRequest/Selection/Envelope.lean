import GraphRequest.Selection.Root

/-!
# The envelope of a change

A change of any number of rows returns a payload that counts the rows and holds them. The wanted
fields of such a request are fields of a row, so its selection is wrapped: the count, and the rows
in a block of their own.

* `Envelope.wrap_head`: an enveloped selection begins with the count.
-/

namespace GraphRequest

/-- The types of a payload and of the rows in it. -/
structure Envelope where
  payload : Value
  row : Value
deriving Repr

namespace Envelope

/-- The field that counts the changed rows. -/
def countField : String := "affected_rows"

/-- The field that holds the changed rows. -/
def rowsField : String := "returning"

/-- Selections on a row as selections on the payload. A selection that begins like the count is left
out of the rows, and rows without selections are left out. -/
def wrap (items : List Item) : List Item :=
  let rows := items.filter fun i => i.leadingName != some countField
  .leaf countField ::
    if rows.isEmpty then [] else [.field none rowsField [] (some rows)]

theorem wrap_head (items : List Item) : (wrap items).head? = some (.leaf countField) := rfl

end Envelope

namespace Schema

/-- The field of the payload that holds the rows, if the payload has the usual form. -/
def rowsFieldOf (t : TypeDef) : Option FieldDef :=
  if t.declares Envelope.countField then t.field? (.str Envelope.rowsField) else none

/-- The envelope of a root field, if the request is a change of any number of rows whose payload
has the usual form. A payload of another form is reported. -/
def envelope (s : Schema) (action : Option Action) (f : FieldDef) : Step (Option Envelope) := do
  match action.filter Action.isMutation with
  | none => return none
  | some a =>
    let name ← Step.ofShape f.nameText
    if !Naming.isBulk a name then return none
    else
      let base ← Step.of f.base
      let payload ← Step.of (s.typeNamed base.name)
      match payload.bind rowsFieldOf with
      | none =>
        Step.report .missingEnvelope ("Mutation \"" ++ name ++
          "\" does not return the standard \"" ++ Envelope.countField ++ "\" and \"" ++
          Envelope.rowsField ++ "\" fields. Leaving its selection unchanged.") [name]
        return none
      | some rows =>
        let row ← Step.of rows.base
        return some ⟨base.name, row.name⟩

end Schema

end GraphRequest
