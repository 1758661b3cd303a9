import GraphRequest.Schema.Marks
import GraphRequest.Keyed

/-!
# Variables and diagnostics

What compiling a request gathers besides text: the variables bound so far with their declarations,
the number of the next variable, the problems that were not fatal, and the marks that writing the
types of the variables left in the schema.

* `bind_counter`: binding an argument uses up one number.
* `bind_variableValues`: it adds one variable, named after that number.
-/

namespace GraphRequest

/-- The kinds of problems that are not fatal. -/
inductive DiagnosticCode
  | unknownField
  | unknownArgument
  | ambiguousInsert
  | unmatchedInsert
  | missingEnvelope
deriving DecidableEq, Repr, Inhabited

namespace DiagnosticCode

/-- The name of a kind of problem. -/
def text : DiagnosticCode → String
  | .unknownField => "unknown_field"
  | .unknownArgument => "unknown_argument"
  | .ambiguousInsert => "ambiguous_insert_payload"
  | .unmatchedInsert => "unmatched_insert_payload"
  | .missingEnvelope => "missing_mutation_envelope"

/-- Every kind of problem. -/
def all : List DiagnosticCode :=
  [.unknownField, .unknownArgument, .ambiguousInsert, .unmatchedInsert, .missingEnvelope]

/-- The kind of problem that a value names. -/
def ofValue (v : Value) : Except ShapeFault DiagnosticCode :=
  match all.find? fun c => Value.str c.text == v with
  | some c => .ok c
  | none => .error .unknownCase

end DiagnosticCode

/-- A problem that is not fatal, with the names of the fields that lead to it. -/
structure Diagnostic where
  code : DiagnosticCode
  message : String
  path : List String
deriving DecidableEq, Repr, Inhabited

/-- The type that a variable is declared with. -/
inductive DeclaredType
  | text (text : String)
  /-- A name that takes a mark whenever the type of the argument is written. -/
  | growing (items : List Value) (mark : Mark)

namespace DeclaredType

/-- The type that a variable for an argument is declared with. -/
def ofArgument (a : ArgumentDef) : Except Failure DeclaredType := do
  let base ← a.type.base
  match base.growingName? with
  | some items => .ok (.growing items a.mark)
  | none =>
    let wire ← base.wire
    .ok (.text wire.text)

/-- The marks that declaring a variable with a type leaves. -/
def marks : DeclaredType → List Mark
  | .text _ => []
  | .growing _ mark => [mark]

/-- The text of a declared type after all the marks left so far. -/
def display (left : List Mark) : DeclaredType → String
  | .text fixed => fixed
  | .growing items mark =>
    (Value.arr (items ++ List.replicate (left.count mark) (.str "!"))).display

end DeclaredType

/-- The declaration of a variable. -/
structure Declaration where
  name : String
  type : DeclaredType

/-- The variables, declarations and diagnostics gathered so far, and the marks left by writing the
types of the variables. -/
structure Bindings where
  counter : Int
  variableValues : List (String × Value)
  declarations : List Declaration
  diagnostics : List Diagnostic
  marks : List Mark
deriving Inhabited

namespace Bindings

/-- Nothing gathered, with the number of the first variable. -/
def start (counter : Int) : Bindings := ⟨counter, [], [], [], []⟩

/-- The name of the variable of a number. -/
def variableName (n : Int) : String := "v" ++ Decimal.integerText n

/-- The declarations with one more, unless its variable is declared already. -/
def declare (declarations : List Declaration) (d : Declaration) : List Declaration :=
  if declarations.all (·.name != d.name) then declarations ++ [d] else declarations

/-- Binds a fresh variable to a value, declared with the type of an argument. -/
def bind (b : Bindings) (a : ArgumentDef) (v : Value) : Except Failure (String × Bindings) := do
  let type ← DeclaredType.ofArgument a
  let name := variableName b.counter
  .ok (name, { b with
    counter := b.counter + 1
    variableValues := b.variableValues ++ [(name, v)]
    declarations := declare b.declarations ⟨name, type⟩
    marks := b.marks ++ type.marks })

/-- Adds a diagnostic. -/
def report (b : Bindings) (d : Diagnostic) : Bindings :=
  { b with diagnostics := b.diagnostics ++ [d] }

/-- The value of every variable; a name bound twice keeps its place and has its last value. -/
def variableMap (b : Bindings) : Fields := Keyed.merge b.variableValues

/-- The declarations as text. -/
def declarationsText (b : Bindings) : String :=
  ", ".intercalate (b.declarations.map fun d => "$" ++ d.name ++ ": " ++ d.type.display b.marks)

theorem toList_variableName {n : Int} (h : 0 ≤ n) :
    (variableName n).toList = 'v' :: Decimal.digitChars n.natAbs := by
  rw [variableName, String.toList_append, Decimal.toList_integerText h]
  rfl

theorem bind_counter {b b' : Bindings} {a : ArgumentDef} {v : Value} {name : String}
    (h : b.bind a v = .ok (name, b')) : b'.counter = b.counter + 1 := by
  simp only [bind] at h
  cases hw : DeclaredType.ofArgument a with
  | error e => rw [hw] at h; cases h
  | ok w =>
    rw [hw] at h
    cases h
    rfl

theorem bind_variableValues {b b' : Bindings} {a : ArgumentDef} {v : Value} {name : String}
    (h : b.bind a v = .ok (name, b')) :
    name = variableName b.counter ∧ b'.variableValues = b.variableValues ++ [(name, v)] := by
  simp only [bind] at h
  cases hw : DeclaredType.ofArgument a with
  | error e => rw [hw] at h; cases h
  | ok w =>
    rw [hw] at h
    cases h
    exact ⟨rfl, rfl⟩

end Bindings

/-- A step of compiling: it may fail, and it may gather bindings and diagnostics. What was gathered
before a failure is kept. -/
abbrev Step (α : Type) := ExceptT Failure (StateM Bindings) α

namespace Step

/-- A step that gathers nothing. -/
def of {α : Type} (result : Except Failure α) : Step α := fun b => (result, b)

/-- What a step returns, and what was gathered then. -/
def result {α : Type} (step : Step α) (b : Bindings) : Except Failure (α × Bindings) :=
  match step b with
  | (.ok a, after) => .ok (a, after)
  | (.error fault, _) => .error fault

/-- What was gathered by a step, also by one that fails. -/
def gathered {α : Type} (step : Step α) (b : Bindings) : Bindings := (step b).2

/-- A step that gathers nothing and may have a fault of shape. -/
def ofShape {α : Type} (result : Except ShapeFault α) : Step α := of (Failure.ofShape result)

/-- Binds a fresh variable and returns its name. -/
def bindArgument (a : ArgumentDef) (v : Value) : Step String := fun b =>
  match b.bind a v with
  | .ok (name, after) => (.ok name, after)
  | .error fault => (.error fault, b)

/-- Adds a diagnostic. -/
def report (code : DiagnosticCode) (message : String) (path : List String) : Step Unit :=
  fun b => (.ok (), b.report ⟨code, message, path⟩)

end Step

end GraphRequest
