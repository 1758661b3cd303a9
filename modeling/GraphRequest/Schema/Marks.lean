import GraphRequest.Schema.Basic

/-!
# Marks left by writing

A type name that is a list grows by a mark whenever the type is written. `marked` is a part of a
schema after each of its types was written once more; the functions on schemas do this for the parts
of one name. A schema whose names are texts is left as it is.

* `Schema.putMarks` is a schema after the types of some arguments were written.
* `putMarks_nil`: a schema whose growing names were not written is the same.
-/

namespace GraphRequest

/-- A mark that the type of an argument got. -/
structure Mark where
  site : Site
  argument : Value
deriving Repr, DecidableEq

namespace ArgumentDef

/-- The mark that writing the type of an argument leaves. -/
def mark (a : ArgumentDef) : Mark := ⟨a.site, a.name⟩

/-- An argument after its type was written once more. -/
def marked (a : ArgumentDef) : ArgumentDef := { a with type := a.type.marked }

end ArgumentDef

/-- The list with its first item that passes a test changed. -/
def changeFirst {α : Type} (p : α → Bool) (g : α → α) : List α → List α
  | [] => []
  | a :: rest => if p a then g a :: rest else a :: changeFirst p g rest

namespace FieldDef

/-- A field after its type and those of its arguments were written once more. -/
def marked (f : FieldDef) : FieldDef :=
  { f with type := f.type.marked, arguments := f.arguments.map ArgumentDef.marked }

/-- The field with the argument of a name changed. -/
def changeArgument (f : FieldDef) (name : Value) (g : ArgumentDef → ArgumentDef) : FieldDef :=
  { f with arguments := changeFirst (fun a => a.name.equals name) g f.arguments }

end FieldDef

namespace TypeDef

/-- A type after the types of its fields and their arguments were written once more. -/
def marked (t : TypeDef) : TypeDef := { t with fields := t.fields.map FieldDef.marked }

/-- The type with the field of a name changed, the last one if there are several. -/
def changeField (t : TypeDef) (name : Value) (g : FieldDef → FieldDef) : TypeDef :=
  { t with fields := (changeFirst (fun f => f.name.equals name) g t.fields.reverse).reverse }

end TypeDef

namespace Schema

/-- A schema after all its types were written once more. -/
def marked (s : Schema) : Schema := { s with types := s.types.map TypeDef.marked }

/-- The schema with the type of a name changed; null names no type. -/
def changeType (s : Schema) (name : Value) (g : TypeDef → TypeDef) : Schema :=
  match name with
  | .null => s
  | name => { s with types := changeFirst (fun t => t.name.equals name) g s.types }

/-- The schema with a field of a type changed. -/
def changeField (s : Schema) (type name : Value) (g : FieldDef → FieldDef) : Schema :=
  s.changeType type fun t => t.changeField name g

/-- The schema with an argument of a field of a type changed. -/
def changeArgument (s : Schema) (type field name : Value) (g : ArgumentDef → ArgumentDef) :
    Schema :=
  s.changeField type field fun f => f.changeArgument name g

/-- The schema after the type of an argument got its mark. -/
def putMark (s : Schema) (m : Mark) : Schema :=
  s.changeArgument m.site.type m.site.field m.argument ArgumentDef.marked

/-- The schema after the types of arguments got their marks. -/
def putMarks (s : Schema) (marks : List Mark) : Schema := marks.foldl putMark s

theorem putMarks_nil (s : Schema) : s.putMarks [] = s := rfl

end Schema

end GraphRequest
