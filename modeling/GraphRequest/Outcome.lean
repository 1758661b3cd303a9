import GraphRequest.Naming

/-!
# Results of executed documents

A server answers a document with data and errors. `check` refuses an answer with errors, `extract`
takes the part of the data that the request asked for.

* `extract_null`: no data, nothing extracted.
-/

namespace GraphRequest

/-- The answer of a server. -/
structure Answer where
  data : Value
  errors : Value
deriving Repr, Inhabited

namespace Answer

/-- The data of an answer without errors. -/
def check (a : Answer) : Except Failure Value :=
  if a.errors.isTruthy then do
    let errors ← Failure.ofShape a.errors.elements
    .error (.execution errors)
  else .ok a.data

end Answer

namespace Outcome

/-- The one row of a list of at most one: the row, or null. Other lists stay as they are. -/
def oneRow : Value → Value
  | .arr [] => .null
  | .arr [row] => row
  | v => v

/-- What stands under the collection itself. A field for one row by primary key takes the one row
of the list there. -/
def ofCollection (field : String) (v : Value) : Value :=
  if Naming.isByKey field then oneRow v else v

/-- The part of the data that a request asked for: all of it for an aggregate, else what stands
under the root field, or under the collection if there is nothing. -/
def extract (field collection : String) (isAggregate : Bool) (data : Value) :
    Except Failure Value :=
  if data.isNull || isAggregate then .ok data
  else do
    match ← Failure.ofShape (data.member? field) with
    | some .null | none =>
      match ← Failure.ofShape (data.member? collection) with
      | some .null | none => .ok .null
      | some v => .ok (ofCollection field v)
    | some v => .ok v

theorem extract_null (field collection : String) (isAggregate : Bool) :
    extract field collection isAggregate .null = .ok .null := by
  simp [extract, Value.isNull]

end Outcome

end GraphRequest
