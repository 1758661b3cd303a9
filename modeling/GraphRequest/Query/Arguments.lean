import GraphRequest.Naming
import GraphRequest.Query.Bindings

/-!
# Binding arguments

Every argument that a request fills is passed as a fresh variable. The root field takes its
arguments in the order in which the schema declares them, each from the first source of the request
that has a value for it. Other fields take theirs in the order of the request.

* `bindRoot` binds the arguments of the root field, `bindNested` those of any other field.
-/

namespace GraphRequest

/-- An argument as it is written: its name and the variable passed to it. -/
structure BoundArgument where
  name : String
  variableName : String
deriving DecidableEq, Repr, Inhabited

/-- The written form of an argument. -/
def BoundArgument.text (a : BoundArgument) : String := a.name ++ ": $" ++ a.variableName

namespace Request

/-! ### Sources of values -/

/-- The value of an argument that takes the rows to insert as a list. -/
def rowsValue (r : Request) : Except ShapeFault Value :=
  match r.objects with
  | .null => .ok (.arr [r.object])
  | rows => do
    let items ← rows.elements
    .ok (.arr items)

/-- The only one of some rows, if there is only one. -/
def onlyRow? (rows : Value) : Except ShapeFault (Option Value) := do
  if (← rows.size) = 1 then
    match rows with
    | .obj _ => .error .missingKey
    | rows => do
      let items ← rows.elements
      .ok items.head?
  else .ok none

/-- The value of an argument that takes the one row to insert. -/
def rowValue? (r : Request) : Except ShapeFault (Option Value) :=
  match r.object, r.objects with
  | .null, .null => .ok none
  | .null, rows => onlyRow? rows
  | row, _ => .ok (some row)

/-- The number of rows to insert as a message gives it. -/
def rowCount (r : Request) : Except ShapeFault Nat :=
  if r.objects.isTruthy then r.objects.size else .ok 0

/-- The value of the argument `object` or `objects` of a field that declares it. A field that
declares both, and does not insert just one row, takes the rows as a list. -/
def payloadValue (r : Request) (f : FieldDef) (plural : Bool) : Step (Option Value) := do
  let field ← Step.ofShape f.nameText
  let ambiguous := f.declares "objects" && f.declares "object" && !Naming.isOne field
  if plural then
    if ambiguous then
      Step.report .ambiguousInsert ("Field \"" ++ field ++
        "\" declares both \"object\" and \"objects\" arguments; " ++
        "binding the payload to \"objects\".") [field]
    let rows ← Step.ofShape r.rowsValue
    return some rows
  else if ambiguous then return none
  else
    match ← Step.ofShape r.rowValue? with
    | some row => return some row
    | none =>
      let count ← Step.ofShape r.rowCount
      Step.report .unmatchedInsert ("Field \"" ++ field ++
        "\" accepts a single \"object\", but " ++ toString count ++ " objects were given.") [field]
      return none

/-- The value for an argument among the primary key columns. -/
def keyValue? (r : Request) (f : FieldDef) (name : Value) : Except ShapeFault (Option Value) :=
  match r.pkColumns with
  | .null => .ok none
  | columns =>
    if name == .str "pk_columns" then .ok (some columns)
    else do
      let field ← f.nameText
      if Naming.isByKey field then
        if ← columns.has name then
          let v ← columns.item name
          .ok (some v)
        else .ok none
      else .ok none

/-- The field of the request that an argument of that name takes its value from, null if there is
none. -/
def plainValue (r : Request) (name : Value) : Value :=
  match name with
  | .str "where" => r.condition
  | .str "distinct_on" => if r.action.isMutation then .null else r.distinctOn
  | .str "limit" => r.limit
  | .str "offset" => r.offset
  | .str "order_by" => r.orderBy
  | _ => .null

/-- The value for an argument among the further arguments of the request. -/
def furtherValue? (r : Request) (name : Value) : Except ShapeFault (Option Value) := do
  if ← r.arguments.has name then
    let v ← r.arguments.item name
    .ok (some v)
  else .ok none

/-- Whether the request has rows to insert. -/
def hasPayload (r : Request) : Bool := !r.objects.isNull || !r.object.isNull

/-- The rows to insert, if the argument takes them. -/
def payloadFor (r : Request) (f : FieldDef) (name : Value) : Step (Option Value) :=
  if !r.hasPayload then pure none
  else if name == .str "objects" then r.payloadValue f true
  else if name == .str "object" then r.payloadValue f false
  else pure none

/-- The value for an argument of the root field, from the first source that has one. -/
def rootValue (r : Request) (f : FieldDef) (name : Value) : Step (Option Value) := do
  match ← Step.ofShape (r.keyValue? f name) with
  | some v => return some v
  | none =>
    if name == .str "_set" && !r.setValues.isNull then return some r.setValues
    match ← r.payloadFor f name with
    | some v => return some v
    | none =>
      match (r.plainValue name).given with
      | some v => return some v
      | none => Step.ofShape (r.furtherValue? name)

/-- Binds the given arguments of the root field, in order, as far as the request fills them. -/
def bindEach (r : Request) (f : FieldDef) : List ArgumentDef → Step (List BoundArgument)
  | [] => pure []
  | a :: rest => do
    match ← r.rootValue f a.name with
    | none => r.bindEach f rest
    | some v =>
      let name ← Step.bindArgument a v
      let bound ← r.bindEach f rest
      return ⟨a.name.text, name⟩ :: bound

/-- Binds the arguments of the root field. -/
def bindRoot (r : Request) (f : FieldDef) : Step (List BoundArgument) := r.bindEach f f.arguments

end Request

namespace FieldDef

/-- Binds arguments in the order given, each name once; a name that the field does not declare is
reported. -/
def bindNestedFrom (f : FieldDef) (path : List String) :
    List String → Fields → Step (List BoundArgument)
  | _, [] => pure []
  | done, (name, v) :: rest => do
    if done.contains name then f.bindNestedFrom path done rest
    else
      match f.argument? (.str name) with
      | none =>
        Step.report .unknownArgument ("Argument \"" ++ name ++ "\" is not declared on field \"" ++
          f.name.text ++ "\". Skipping.") path
        f.bindNestedFrom path done rest
      | some a =>
        let bound ← Step.bindArgument a v
        let others ← f.bindNestedFrom path (name :: done) rest
        return ⟨name, bound⟩ :: others

/-- Binds the arguments of a field below the root. -/
def bindNested (f : FieldDef) (path : List String) (arguments : Fields) :
    Step (List BoundArgument) := f.bindNestedFrom path [] arguments

end FieldDef

end GraphRequest
