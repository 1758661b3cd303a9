import GraphRequest.Schema.BaseType

/-!
# Schemas

A schema is a list of types with pairwise different names and the names of its root types. Object
and interface types have fields, fields have arguments.

* `TypeDef.field?` is the last field of a name, `Schema.type?` the type of a name.
* `Schema.insert` keeps the place of a name and takes its last definition.
-/

namespace GraphRequest

/-- Where an argument is declared: the names of a type and of a field of it. -/
structure Site where
  type : Value
  field : Value
deriving Repr, Inhabited, DecidableEq

/-- An argument that a field declares. -/
structure ArgumentDef where
  name : Value
  type : TypeRef
  site : Site
deriving Repr, Inhabited

/-- A field that a type declares. -/
structure FieldDef where
  name : Value
  type : TypeRef
  arguments : List ArgumentDef
deriving Repr, Inhabited

/-- A named type. -/
structure TypeDef where
  kind : TypeKind
  name : Value
  fields : List FieldDef
deriving Repr, Inhabited

namespace FieldDef

/-- The argument of a name. -/
def argument? (f : FieldDef) (name : Value) : Option ArgumentDef :=
  f.arguments.find? fun a => a.name.equals name

/-- Whether the field declares an argument of a name. -/
def declares (f : FieldDef) (name : String) : Bool := (f.argument? (.str name)).isSome

/-- The base type of what the field returns. -/
def base (f : FieldDef) : Except Failure BaseType := f.type.base

end FieldDef

namespace TypeDef

/-- Whether values of the type take a selection set. -/
def isSelectable (t : TypeDef) : Bool := t.kind.isSelectable

/-- The field of a name, the last one if there are several. -/
def field? (t : TypeDef) (name : Value) : Option FieldDef :=
  t.fields.reverse.find? fun f => f.name.equals name

/-- Whether the type declares a field of a name. -/
def declares (t : TypeDef) (name : String) : Bool := (t.field? (.str name)).isSome

end TypeDef

/-- The types of GraphQL operations. -/
inductive OperationType
  | query
  | mutation
  | subscription
deriving DecidableEq, Repr, Inhabited

namespace OperationType

/-- The keyword of an operation. -/
def text : OperationType → String
  | .query => "query"
  | .mutation => "mutation"
  | .subscription => "subscription"

/-- The operation that a value names. -/
def ofValue? : Value → Option OperationType
  | .str "query" => some .query
  | .str "mutation" => some .mutation
  | .str "subscription" => some .subscription
  | _ => none

end OperationType

/-- A schema. -/
structure Schema where
  types : List TypeDef
  queryRoot : Value
  mutationRoot : Option Value
  subscriptionRoot : Option Value
deriving Repr, Inhabited

namespace Schema

/-- The types with one more, in the place of an earlier one of the same name if there is one. -/
def insert : List TypeDef → TypeDef → List TypeDef
  | [], t => [t]
  | u :: us, t => if u.name.equals t.name then t :: us else u :: insert us t

/-- The type of a name. -/
def type? (s : Schema) (name : Value) : Option TypeDef :=
  s.types.find? fun t => t.name.equals name

/-- The type of a name that may be anything: a list or an object is no name. -/
def lookup (s : Schema) (name : Value) : Except Failure (Option TypeDef) :=
  if name.isKey then .ok (s.type? name) else .error (.shape .wrongKind)

/-- The field of a name on the type of a name; null names no type. -/
def field (s : Schema) (type name : Value) : Except Failure (Option FieldDef) :=
  match type with
  | .null => .ok none
  | type => do
    match ← s.lookup type with
    | none => .ok none
    | some t => if name.isKey then .ok (t.field? name) else .error (.shape .wrongKind)

/-- The type of a name; null names no type. -/
def typeNamed (s : Schema) (name : Value) : Except Failure (Option TypeDef) :=
  match name with
  | .null => .ok none
  | name => s.lookup name

/-- The name of the root type of an operation, if the schema has one. -/
def root (s : Schema) : OperationType → Option Value
  | .query => some s.queryRoot
  | .mutation => s.mutationRoot
  | .subscription => s.subscriptionRoot

/-- The name of the root type of an operation given by its keyword. -/
def rootNamed (s : Schema) (operation : Value) : Except Failure (Option Value) :=
  match OperationType.ofValue? operation with
  | some o => .ok (s.root o)
  | none => .error (.misuse (.unknownOperationType operation))

end Schema

end GraphRequest
