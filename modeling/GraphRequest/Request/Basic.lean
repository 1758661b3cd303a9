import GraphRequest.Request.Entry
import GraphRequest.Schema.Basic

/-!
# Requests

A request asks for one operation on one collection. `Request.ofValue` reads it from an object,
whose keys may have other spellings; every field of the request is checked and the wanted fields are
parsed then, once and for all.

* `Request.fieldOf` is the field that a key stands for.
* `Request.gather` fails as soon as a field is given twice, and keeps unknown keys for later.
-/

namespace GraphRequest

/-- The operations that a request may ask for. -/
inductive Action
  | query
  | subscription
  | insert
  | update
  | delete
deriving DecidableEq, Repr, Inhabited

namespace Action

/-- The name of an action. -/
def text : Action → String
  | .query => "query"
  | .subscription => "subscription"
  | .insert => "insert"
  | .update => "update"
  | .delete => "delete"

/-- Every action. -/
def all : List Action := [.query, .subscription, .insert, .update, .delete]

/-- The action of a name. -/
def ofText? (s : String) : Option Action := all.find? fun a => a.text == s

/-- The action that a value names. -/
def ofValue? : Value → Option Action
  | .str s => ofText? s
  | _ => none

/-- The type of the operation that an action becomes. -/
def operationType : Action → OperationType
  | .query => .query
  | .subscription => .subscription
  | _ => .mutation

/-- Whether an action changes data. -/
def isMutation (a : Action) : Bool := a.operationType = .mutation

/-- How the root fields of an action that changes data begin. -/
def opening : Action → String
  | .insert => "insert_"
  | .update => "update_"
  | .delete => "delete_"
  | _ => ""

theorem ofText?_text (a : Action) : ofText? a.text = some a := by
  cases a <;> decide

theorem length_opening {a : Action} (change : a.isMutation = true) : a.opening.length = 7 := by
  cases a <;> first | decide | cases change

end Action

/-- A request. Fields that hold any data are null when they are not given. -/
structure Request where
  action : Action
  collection : String
  condition : Value
  returning : Value
  aggregate : Option Fields
  object : Value
  objects : Value
  pkColumns : Value
  setValues : Value
  limit : Value
  offset : Value
  orderBy : Value
  distinctOn : Value
  fragments : List Value
  counter : Nat
  arguments : Value
  wanted : Option Returning

namespace Request

/-! ### Keys -/

/-- The fields of a request. -/
def fieldNames : List String :=
  ["operation", "collection", "where", "returning", "aggregate", "object", "objects", "pk_columns",
    "set_values", "limit", "offset", "order_by", "distinct_on", "fragments",
    "incoming_var_counter", "arguments"]

/-- The field that a key stands for: some fields have other spellings. -/
def fieldOf (key : String) : String :=
  if key == "table" then "collection"
  else if key == "_set" then "set_values"
  else if key == "var_counter" || key == "varCounter" then "incoming_var_counter"
  else key

/-- The fields given by the entries of an object, and the keys that stand for none. -/
def gather : Fields → List String → Fields → Except RequestFault (Fields × List String)
  | known, unknown, [] => .ok (known, unknown)
  | known, unknown, (key, v) :: rest =>
    let field := fieldOf key
    if !fieldNames.contains field then gather known (unknown ++ [key]) rest
    else if (known.lookup field).isSome then .error (.repeatedKey field)
    else gather (known ++ [(field, v)]) unknown rest

/-! ### Checks -/

/-- The collection of a request. -/
def readCollection : Value → Except RequestFault String
  | .str s => if Text.isBlankText s then .error .missingCollection else .ok s
  | _ => .error .missingCollection

/-- The number of the first variable. -/
def readCounter : Value → Except RequestFault Nat
  | .int n => if n < 0 then .error (.badCounter (.int n)) else .ok n.toNat
  | v => .error (.badCounter v)

/-- The aggregate of a request. -/
def readAggregate : Value → Except RequestFault (Option Fields)
  | .null => .ok none
  | .obj fields => .ok (some fields)
  | v => .error (.badAggregate v)

/-- The action of a request. -/
def readAction (v : Value) : Except RequestFault Action :=
  match Action.ofValue? v with
  | some a => .ok a
  | none => .error (.badOperation v)

/-- The request given by its fields; a field that is left out is null, or what stands beside it
here. -/
def ofKnown (known : Fields) : Except Failure Request := do
  let get (field : String) (default : Value) : Value := (known.lookup field).getD default
  let plain (field : String) : Value := get field .null
  let action ← Failure.ofRequest (readAction (plain "operation"))
  let collection ← Failure.ofRequest (readCollection (plain "collection"))
  let counter ← Failure.ofRequest (readCounter (get "incoming_var_counter" (.int 1)))
  let aggregate ← Failure.ofRequest (readAggregate (plain "aggregate"))
  let fragments ← Failure.ofShape (get "fragments" (.arr [])).elements
  let wanted ← Failure.ofRequest (Returning.ofValue (plain "returning"))
  .ok {
    action, collection, counter, aggregate, fragments, wanted
    condition := plain "where"
    returning := plain "returning"
    object := plain "object"
    objects := plain "objects"
    pkColumns := plain "pk_columns"
    setValues := plain "set_values"
    limit := plain "limit"
    offset := plain "offset"
    orderBy := plain "order_by"
    distinctOn := plain "distinct_on"
    arguments := get "arguments" (.obj []) }

/-- The request given by the entries of an object. -/
def ofFields (fields : Fields) : Except Failure Request := do
  let (known, unknown) ← Failure.ofRequest (gather [] [] fields)
  if !unknown.isEmpty then
    .error (.request (.unknownKeys (unknown.mergeSort fun a b => a ≤ b)))
  else if (known.lookup "operation").isNone || (known.lookup "collection").isNone then
    .error (.request .missingEssentials)
  else ofKnown known

/-- The request that a value describes. -/
def ofValue : Value → Except Failure Request
  | .obj fields => ofFields fields
  | v => .error (.request (.notAnObject v))

/-! ### Questions -/

/-- Whether the aggregate form of the collection is asked for. -/
def isAggregate (r : Request) : Bool := r.aggregate.isSome

/-- Whether one object is to be inserted, and not several. -/
def hasSingleObject (r : Request) : Bool := !r.object.isNull && r.objects.isNull

/-- The same request for another action. -/
def withAction (r : Request) (action : Action) : Request := { r with action }

/-- The same request for the action that a value names. -/
def withOperation (r : Request) (operation : Value) : Except Failure Request := do
  let action ← Failure.ofRequest (readAction operation)
  .ok (r.withAction action)

end Request

end GraphRequest
