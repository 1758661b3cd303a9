import GraphRequest.Value.Display

/-!
# Type references

An introspected schema describes the type of a field or an argument as a chain of wrappers around a
named type. `TypeRef` is such a chain; `BaseType` is the named type with the wrappers as flags.

* `TypeKind.ofText?_text`: a kind is read back from its text.
-/

namespace GraphRequest

/-- The kinds of types. -/
inductive TypeKind
  | object
  | interface
  | union
  | scalar
  | enum
  | inputObject
  | list
  | nonNull
deriving DecidableEq, Repr, Inhabited

namespace TypeKind

/-- The name of a kind. -/
def text : TypeKind → String
  | .object => "OBJECT"
  | .interface => "INTERFACE"
  | .union => "UNION"
  | .scalar => "SCALAR"
  | .enum => "ENUM"
  | .inputObject => "INPUT_OBJECT"
  | .list => "LIST"
  | .nonNull => "NON_NULL"

/-- Every kind. -/
def all : List TypeKind :=
  [.object, .interface, .union, .scalar, .enum, .inputObject, .list, .nonNull]

/-- The kind of that name. -/
def ofText? (s : String) : Option TypeKind := all.find? fun k => k.text == s

theorem ofText?_text (k : TypeKind) : ofText? k.text = some k := by
  cases k <;> decide

/-- The kind that a value names. -/
def ofValue? : Value → Option TypeKind
  | .str s => ofText? s
  | _ => none

/-- The kinds that wrap another type. -/
def isWrapper : TypeKind → Bool
  | .list => true
  | .nonNull => true
  | _ => false

/-- The kinds whose values take a selection set. -/
def isSelectable : TypeKind → Bool
  | .object => true
  | .interface => true
  | _ => false

end TypeKind

/-- A reference to a type: a named type, or a wrapper around another reference. A schema may put any
value in place of a name. -/
structure TypeRef where
  kind : TypeKind
  name : Value
  ofType : Option TypeRef
deriving Repr, Inhabited

namespace TypeRef

/-- A reference to a named type. -/
def named (kind : TypeKind) (name : String) : TypeRef := ⟨kind, .str name, none⟩

/-- A list of another type. -/
def list (item : TypeRef) : TypeRef := ⟨.list, .null, some item⟩

/-- Another type without null. -/
def nonNull (type : TypeRef) : TypeRef := ⟨.nonNull, .null, some type⟩

/-- The display text of a reference. -/
def display : TypeRef → String
  | ⟨kind, name, ofType⟩ =>
    "TypeRef(kind=<TypeKind." ++ kind.text ++ ": '" ++ kind.text ++ "'>, name=" ++
      name.display ++ ", of_type=" ++
      (match ofType with
        | some t => t.display
        | none => "None") ++ ")"

end TypeRef

/-- A named type with its wrappers as flags. -/
structure BaseType where
  name : Value
  kind : TypeKind
  isList : Bool
  isNonNull : Bool
  isItemNonNull : Bool
deriving Repr, Inhabited, DecidableEq

end GraphRequest
