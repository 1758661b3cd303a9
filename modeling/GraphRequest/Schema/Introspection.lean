import GraphRequest.Schema.Basic

/-!
# Schemas from introspection

`Schema.ofIntrospection` reads the answer to an introspection query in any of its three usual
shapes. A type, field, argument or type reference that lacks a member is reported with the part at
fault.
-/

namespace GraphRequest

/-! ### Type references -/

mutual

/-- The type reference that a value describes. -/
def TypeRef.ofValue : Value → Except Failure TypeRef
  | .obj fields =>
    match (fields.lookup "kind").bind TypeKind.ofValue? with
    | none => .error (.schema (.badTypeRef (.obj fields)))
    | some kind => do
      let ofType ← TypeRef.ofFields fields
      .ok ⟨kind, (fields.lookup "name").getD .null, ofType⟩
  | v => .error (.schema (.badTypeRef v))

/-- The wrapped reference among the entries of an object, if there is one. -/
def TypeRef.ofFields : List (String × Value) → Except Failure (Option TypeRef)
  | [] => .ok none
  | (key, v) :: rest =>
    if key == "ofType" then
      if v.isNull then .ok none else (TypeRef.ofValue v).map some
    else TypeRef.ofFields rest

end

/-! ### Arguments, fields and types -/

/-- The items of a member that may be absent, null or empty. -/
def Value.optionalElements : Option Value → Except Failure (List Value)
  | none => .ok []
  | some v => if v.isTruthy then Failure.ofShape v.elements else .ok []

/-- The entries of an object under two names. -/
def Value.twoEntries? (v : Value) (first second : String) : Option (Value × Value) :=
  match v with
  | .obj fields => do
    let a ← fields.lookup first
    let b ← fields.lookup second
    some (a, b)
  | _ => none

/-- The argument at a site that a value describes. -/
def ArgumentDef.ofValue (site : Site) (v : Value) : Except Failure ArgumentDef :=
  match v.twoEntries? "name" "type" with
  | none => .error (.schema (.badArgument v))
  | some (name, type) => do
    let type ← TypeRef.ofValue type
    .ok ⟨name, type, site⟩

/-- Checks that the arguments of a field have different names. -/
def FieldDef.checkArguments (field : Value) : List Value → List ArgumentDef → Except Failure Unit
  | _, [] => .ok ()
  | seen, a :: rest =>
    if !a.name.isKey then .error (.shape .wrongKind)
    else if seen.any (a.name.equals ·) then
      .error (.schema (.repeatedArgument field a.name))
    else FieldDef.checkArguments field (a.name :: seen) rest

/-- The member of an object, if the value is one. -/
def Value.memberOrNone (v : Value) (key : String) : Option Value :=
  match v with
  | .obj fields => fields.lookup key
  | _ => none

/-- The field of the named type that a value describes. -/
def FieldDef.ofValue (owner v : Value) : Except Failure FieldDef :=
  match v.twoEntries? "name" "type" with
  | none => .error (.schema (.badField v))
  | some (name, type) => do
    let described ← Value.optionalElements (v.memberOrNone "args")
    let arguments ← described.mapM (ArgumentDef.ofValue ⟨owner, name⟩)
    let type ← TypeRef.ofValue type
    FieldDef.checkArguments name [] arguments
    .ok ⟨name, type, arguments⟩

/-- The kind and the name of a type that a value describes. -/
def TypeDef.headOf (v : Value) : Except Failure (TypeKind × Value) :=
  match v with
  | .obj fields =>
    match (fields.lookup "kind").bind TypeKind.ofValue?, fields.lookup "name" with
    | some kind, some name => .ok (kind, name)
    | _, _ => .error (.schema (.badType v))
  | _ => .error (.shape .wrongKind)

/-- The type that a value describes. Only object and interface types have fields. -/
def TypeDef.ofValue (v : Value) : Except Failure TypeDef := do
  let (kind, name) ← TypeDef.headOf v
  if kind.isSelectable then
    let described ← Value.optionalElements (v.memberOrNone "fields")
    let fields ← described.mapM (FieldDef.ofValue name)
    if fields.all (·.name.isKey) then .ok ⟨kind, name, fields⟩ else .error (.shape .wrongKind)
  else .ok ⟨kind, name, []⟩

/-! ### Whole schemas -/

namespace Schema

/-- The entries of the schema object inside an introspection answer: the answer may be the whole
response, its data, or the schema object itself. -/
def payload (v : Value) : Except Failure Fields :=
  match v with
  | .obj fields =>
    let data := match fields.lookup "data" with
      | some (.obj inner) => inner
      | _ => fields
    let schema := match data.lookup "__schema" with
      | some inner => inner
      | none => .obj data
    match schema with
    | .obj fields =>
      if (fields.lookup "types").isSome then .ok fields else .error (.schema .noTypes)
    | _ => .error (.schema .noTypes)
  | v => .error (.schema (.notAnObject v))

/-- The name of the root type under a key, null if there is none. -/
def rootName (fields : Fields) (key : String) : Except Failure Value :=
  match fields.lookup key with
  | none => .ok .null
  | some v =>
    if v.isTruthy then do
      let name ← Failure.ofShape (v.member? "name")
      .ok (name.getD .null)
    else .ok .null

/-- The types that values describe, each name in its first place with its last definition. -/
def readTypes : List TypeDef → List Value → Except Failure (List TypeDef)
  | types, [] => .ok types
  | types, v :: rest => do
    let t ← TypeDef.ofValue v
    if t.name.isKey then readTypes (insert types t) rest else .error (.shape .wrongKind)

/-- Checks that a root type, if it is named, is an object type of the schema. -/
def checkRoot (s : Schema) : Option Value → Except Failure Unit
  | none => .ok ()
  | some name => do
    match ← s.lookup name with
    | some t => if t.kind = .object then .ok () else .error (.schema (.badRoot name))
    | none => .error (.schema (.badRoot name))

/-- The schema that an introspection answer describes. -/
def ofIntrospection (v : Value) : Except Failure Schema := do
  let fields ← payload v
  let query ← rootName fields "queryType"
  if !query.isTruthy then .error (.schema .noQueryRoot)
  else
    let described ← Failure.ofShape ((fields.lookup "types").getD .null).elements
    let types ← readTypes [] described
    let mutation ← rootName fields "mutationType"
    let subscription ← rootName fields "subscriptionType"
    let s : Schema := ⟨types, query, mutation.given, subscription.given⟩
    s.checkRoot (some query)
    s.checkRoot s.mutationRoot
    s.checkRoot s.subscriptionRoot
    .ok s

end Schema

end GraphRequest
