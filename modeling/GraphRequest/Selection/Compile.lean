import GraphRequest.Selection.Default

/-!
# Compiling wanted fields

Each wanted field is looked up on the type that its parent returns and becomes a selection. A field
that the type does not have is reported and left out. Below a field whose name ends like an
aggregate, entries for the same field are merged, the last one winning.

* `Entry.compile` compiles one entry, `Schema.compileAll` a list of them.
-/

namespace GraphRequest

/-- What compiling an entry does once the parent type and the path to it are known. -/
abbrev Compilation := Value → List String → Step (Option Item)

namespace Schema

/-- The field of a name on the parent type, with the name of the type it returns. A field that is
not there is reported. -/
def findField (s : Schema) (parent : Value) (name : String) (path : List String) :
    Step (Option (FieldDef × Value)) := do
  match ← Step.of (s.field parent (.str name)) with
  | none =>
    Step.report .unknownField ("Field \"" ++ name ++ "\" not found in type \"" ++ parent.text ++
      "\". Skipping.") (path ++ [name])
    return none
  | some f =>
    let base ← Step.of f.base
    return some (f, base.name)

/-- A field as a selection with the body that its type calls for. -/
def fieldItem (s : Schema) (aliasName : Option String) (name : String)
    (arguments : List BoundArgument) (items : List Item) (type : Value) (aggregate : Bool) :
    Step (Option Item) := do
  let body ← Step.of (s.body items type aggregate)
  return some (.field aliasName name arguments body)

/-- Whether a key of a nested field is one of its arguments: a field of the type that it returns
goes first. -/
def isArgumentKey (f : FieldDef) (returned : Option TypeDef) (key : String) : Bool :=
  f.declares key && !(returned.map (·.declares key)).getD false

/-- The keys of a nested field that are arguments. -/
def extraArguments (isArgument : String → Bool) (extras : List Extra) : Fields :=
  (extras.filter fun e => isArgument e.key).map fun e => (e.key, e.value)

/-- The call of a column function. -/
def compileColumns (s : Schema) (name : String) (names distinct : Value) (f : FieldDef)
    (returned : Value) (path : List String) : Step (Option Item) := do
  if !f.declares "columns" then
    Step.report .unknownArgument ("Field \"" ++ f.name.text ++
      "\" does not declare a \"columns\" argument. Rendering it without arguments.") path
    s.fieldItem none name [] [] returned false
  else
    let columns ← Step.ofShape names.elements
    let arguments := ("columns", Value.arr columns) ::
      (match distinct with
        | .null => []
        | d => [("distinct", d)])
    let bound ← f.bindNested path arguments
    return some (.field none name bound none)

/-- Compilations one after the other, the selections that were left out apart. -/
def runAll : List Compilation → Value → List String → Step (List Item)
  | [], _, _ => pure []
  | c :: cs, parent, path => do
    let item ← c parent path
    let items ← runAll cs parent path
    return item.toList ++ items

end Schema

namespace Entry

/-- A raw text as a selection; blank text is left out. -/
def rawItem (text : String) : Option Item :=
  if Text.isBlankText text then none else some (.raw (Text.strip text))

/-- An alias that is not empty. -/
def usedAlias (aliasName : Option String) : Option String := aliasName.filter (· != "")

mutual

/-- The selection for a wanted field, nothing if it is left out. -/
def compile (s : Schema) : Entry → Compilation
  | .raw text => fun _ _ => pure (rawItem text)
  | .toggle name included => fun parent path => do
    match ← s.findField parent name path with
    | none => return none
    | some (_, returned) =>
      if included then s.fieldItem none name [] [] returned (Naming.isAggregate name)
      else return none
  | .subselection name children => fun parent path => do
    match ← s.findField parent name path with
    | none => return none
    | some (_, returned) =>
      let items ← Schema.runAll ((compilations s children).map Prod.snd) returned (path ++ [name])
      s.fieldItem none name [] items returned (Naming.isAggregate name)
  | .nested name aliasName arguments returning extras => fun parent path => do
    match ← s.findField parent name path with
    | none => return none
    | some (f, returned) =>
      let returnedType ← Step.of (s.typeNamed returned)
      let aggregate := Naming.isAggregate name
      let isArgument (key : String) := !aggregate && Schema.isArgumentKey f returnedType key
      let first := nestedCompilations s returning
      let more ← Step.of (Failure.ofRequest (extraCompilations s isArgument extras))
      let children := if aggregate then Keyed.merge (first ++ more) else first ++ more
      let bound ← f.bindNested (path ++ [name])
        (arguments ++ Schema.extraArguments isArgument extras)
      let items ← Schema.runAll (children.map Prod.snd) returned (path ++ [name])
      s.fieldItem (usedAlias aliasName) name bound items returned aggregate
  | .columns name names distinct => fun parent path => do
    match ← s.findField parent name path with
    | none => return none
    | some (f, returned) => s.compileColumns name names distinct f returned (path ++ [name])

/-- The compilations of entries, each under the key that it is merged by. -/
def compilations (s : Schema) : List Entry → List (String × Compilation)
  | [] => []
  | e :: es => (e.key, compile s e) :: compilations s es

/-- The compilations of the entries wanted below a nested field. -/
def nestedCompilations (s : Schema) : Option (List Entry) → List (String × Compilation)
  | none => []
  | some es => compilations s es

/-- The compilations of the keys that are fields; the first one that means no field is an error. -/
def extraCompilations (s : Schema) (isArgument : String → Bool) :
    List Extra → Except RequestFault (List (String × Compilation))
  | [] => .ok []
  | .mk key _ meaning :: rest =>
    if isArgument key then extraCompilations s isArgument rest
    else match meaning with
      | .error e => .error e
      | .ok entry => do
        let others ← extraCompilations s isArgument rest
        .ok ((entry.key, compile s entry) :: others)

end

theorem compilations_eq_map (s : Schema) (es : List Entry) :
    compilations s es = es.map fun e => (e.key, compile s e) := by
  induction es with
  | nil => rfl
  | cons e es ih => simp [compilations, ih]

end Entry

/-- The selections for wanted fields, in order, those left out apart. -/
def Schema.compileAll (s : Schema) (es : List Entry) (parent : Value) (path : List String) :
    Step (List Item) := Schema.runAll (es.map (Entry.compile s)) parent path

end GraphRequest
