/-!
# Executable documents

The parts of a GraphQL document that a server executes: operations and fragments with their
selections, arguments, directives and literal values. Numbers keep the text they are written with.
-/

namespace GraphRequest.Document

/-- A type as it is written: a name, a list, or a type that excludes null. -/
inductive TypeText
  | named (name : String)
  | list (item : TypeText)
  | nonNull (type : TypeText)
deriving DecidableEq, Repr, Inhabited

/-- A literal value. -/
inductive Literal
  | var (name : String)
  | int (text : String)
  | float (text : String)
  | string (value : String)
  | block (value : String)
  | bool (value : Bool)
  | null
  | enum (name : String)
  | list (items : List Literal)
  | object (fields : List (String × Literal))
deriving Repr, Inhabited

/-- A named literal, such as an argument of a field. -/
abbrev Argument := String × Literal

/-- A directive. -/
structure Directive where
  name : String
  arguments : List Argument
deriving Repr, Inhabited

/-- A selection: a field, the spread of a fragment, or an inline fragment. -/
inductive Selection
  | field (aliasName : Option String) (name : String) (arguments : List Argument)
      (directives : List Directive) (body : Option (List Selection))
  | spread (name : String) (directives : List Directive)
  | inline (condition : Option String) (directives : List Directive) (body : List Selection)
deriving Repr, Inhabited

/-- The declaration of a variable. -/
structure VariableDefinition where
  name : String
  type : TypeText
  default : Option Literal
  directives : List Directive
deriving Repr, Inhabited

/-- A definition of a document. -/
inductive Definition
  | operation (keyword : String) (name : Option String) (declared : List VariableDefinition)
      (directives : List Directive) (body : List Selection)
  | fragment (name condition : String) (directives : List Directive) (body : List Selection)
deriving Repr, Inhabited

end GraphRequest.Document

namespace GraphRequest

/-- A document is a list of definitions. -/
abbrev Document := List Document.Definition

end GraphRequest
