import GraphRequest.Schema.TypeRef
import GraphRequest.Delivery.Lifecycle
import GraphRequest.Value.Shape

/-!
# Failures

Why an operation of this library fails: a cause for every way, grouped by what is at fault, and one
function that words them.

* `Failure.message` is the text of a failure.
* `bind_eq_ok`: two computations in a row succeed when the first one does and then the second.
-/

namespace GraphRequest

/-- What is wrong with a schema. -/
inductive SchemaFault
  /-- The introspected data is not an object. -/
  | notAnObject (found : Value)
  /-- The schema lists no types. -/
  | noTypes
  /-- The schema names no query root. -/
  | noQueryRoot
  /-- A type has no usable kind or no name. -/
  | badType (found : Value)
  /-- A field has no name or no type. -/
  | badField (found : Value)
  /-- An argument has no name or no type. -/
  | badArgument (found : Value)
  /-- A type reference has no usable kind. -/
  | badTypeRef (found : Value)
  /-- A field declares an argument twice. -/
  | repeatedArgument (field argument : Value)
  /-- A root type is not listed, or is not an object type. -/
  | badRoot (name : Value)
  /-- A chain of wrappers does not end in a named type. -/
  | noBaseName (ref : TypeRef)
  /-- A text is not a type. -/
  | badTypeText (text : String)

/-- What is wrong with a request. -/
inductive RequestFault
  /-- The request is not an object. -/
  | notAnObject (found : Value)
  /-- A field of the request is given under two names. -/
  | repeatedKey (field : String)
  /-- The request has keys that mean nothing. -/
  | unknownKeys (keys : List String)
  /-- The operation or the collection is not given. -/
  | missingEssentials
  /-- The operation is none of the known ones. -/
  | badOperation (found : Value)
  /-- The collection is not a text, or is blank. -/
  | missingCollection
  /-- The variable counter is not a natural number. -/
  | badCounter (found : Value)
  /-- The aggregate is not an object. -/
  | badAggregate (found : Value)
  /-- The name of a requested field is not a text, or is blank. -/
  | badFieldName (found : Value)
  /-- The alias of a requested field is not a text. -/
  | badAlias (field : String) (found : Value)
  /-- A requested field is described by a value of no known form. -/
  | badFieldValue (field : String) (found : Value)
  /-- A list of requested fields holds a value of no known form. -/
  | badListEntry (found : Value)
  /-- The selection of a requested field is of no known form. -/
  | badNestedReturning (found : Value)
  /-- The selection of the request is of no known form. -/
  | badReturning (found : Value)

/-- What is wrong with delivery settings. -/
inductive SettingsFault
  /-- The least interval between deliveries is negative. -/
  | negativeDelivery (found : Value)
  /-- The interval between fetches is not positive. -/
  | nonPositivePoll (found : Value)

/-- A use of the library that its rules exclude. -/
inductive Misuse
  /-- There is no such type of operation. -/
  | unknownOperationType (found : Value)
  /-- A root type is not in the schema. -/
  | missingRootType (name : Value)
  /-- The interval of a pacer is negative. -/
  | negativeInterval (found : Value)
  /-- A delivery is started that is not idle. -/
  | notIdle (state : Lifecycle)
  /-- The end of a delivery is awaited that was not started. -/
  | neverStarted

/-- Why an operation fails. -/
inductive Failure
  | schema (fault : SchemaFault)
  | request (fault : RequestFault)
  /-- No candidate field exists on the root type. -/
  | unresolved (candidates : List String) (root : Option Value)
  /-- A rendered text is not a document. -/
  | malformed (text : String) (variableValues : Fields)
  | settings (fault : SettingsFault)
  /-- The server reported errors. -/
  | execution (errors : List Value)
  | misuse (fault : Misuse)
  /-- The host's connection failed. -/
  | connection (text : String)
  | shape (fault : ShapeFault)

/-- A result that may have a fault of shape. -/
def Failure.ofShape {α : Type} (result : Except ShapeFault α) : Except Failure α :=
  result.mapError .shape

/-- A result that may have a fault of a request. -/
def Failure.ofRequest {α : Type} (result : Except RequestFault α) : Except Failure α :=
  result.mapError .request

/-! ### Wording -/

/-- The text of a fault of a schema. -/
def SchemaFault.message : SchemaFault → String
  | .notAnObject found => "Expected a mapping introspection payload, got: " ++ found.kindName
  | .noTypes => "Invalid introspection payload: expected a __schema object with a types list."
  | .noQueryRoot => "Introspection payload does not declare a query root type."
  | .badType found => "Invalid type in introspection: " ++ found.text
  | .badField found => "Invalid field in introspection: " ++ found.text
  | .badArgument found => "Invalid argument in introspection: " ++ found.text
  | .badTypeRef found => "Invalid type reference in introspection: " ++ found.text
  | .repeatedArgument field argument =>
    "Field \"" ++ field.text ++ "\" declares argument \"" ++ argument.text ++ "\" more than once."
  | .badRoot name =>
    "Root type \"" ++ name.text ++ "\" is missing from the schema types, or is not an object type."
  | .noBaseName ref =>
    "Cannot determine the base type name of type reference " ++ ref.display ++ "."
  | .badTypeText text => "Invalid GraphQL type syntax: " ++ text

/-- The operations that a request may ask for, as messages list them. -/
def allowedOperations : String := "query, subscription, insert, update, delete"

/-- The text of a fault of a request. -/
def RequestFault.message : RequestFault → String
  | .notAnObject found => "Expected a Request or a mapping, got: " ++ found.display
  | .repeatedKey field =>
    "Request key \"" ++ field ++ "\" was given more than once, under different spellings."
  | .unknownKeys keys => "Unknown request keys: " ++ Value.displayTexts keys
  | .missingEssentials => "Both operation and collection must be specified."
  | .badOperation found =>
    "Invalid operation type: " ++ found.text ++ ". Allowed types: " ++ allowedOperations
  | .missingCollection => "A collection name must be specified."
  | .badCounter found =>
    "The variable counter must be a non-negative integer, got: " ++ found.display
  | .badAggregate found => "Aggregate must be a mapping, got: " ++ found.display
  | .badFieldName found => "Invalid field name in returning: " ++ found.display
  | .badAlias field found =>
    "Alias of field \"" ++ field ++ "\" must be a string, got: " ++ found.display
  | .badFieldValue field found =>
    "Unsupported specification for field \"" ++ field ++ "\": " ++ found.display
  | .badListEntry found => "Unsupported entry in returning list: " ++ found.display
  | .badNestedReturning found => "Unsupported nested returning shape: " ++ found.display
  | .badReturning found => "Unsupported returning shape: " ++ found.display

/-- The text of a fault of delivery settings. -/
def SettingsFault.message : SettingsFault → String
  | .negativeDelivery found =>
    "min_delivery_interval_ms must be non-negative, got: " ++ found.text
  | .nonPositivePoll found => "poll_interval_ms must be positive, got: " ++ found.text

/-- The text of a misuse. -/
def Misuse.message : Misuse → String
  | .unknownOperationType found => "Unknown operation type: " ++ found.text
  | .missingRootType name =>
    "Root type \"" ++ name.text ++ "\" is not in the schema index. This is a bug."
  | .negativeInterval found => "Expected a non-negative interval, got: " ++ found.text
  | .notIdle state =>
    "Cannot start a dispatcher in state " ++ state.label ++ ". Dispatchers are single-use."
  | .neverStarted => "Cannot wait for a dispatcher that was never started."

/-- The message of an error that a server reported: its member `message` if it is an object with
no other, else the error itself. -/
def errorMessage : Value → Value
  | .obj [("message", m)] => m
  | e => e

/-- The text of a failure. A fault of shape has none. -/
def Failure.message : Failure → String
  | .schema fault => fault.message
  | .request fault => fault.message
  | .unresolved candidates root =>
    "None of the candidate fields " ++ Value.displayTexts candidates ++ " exist on " ++
      (match root with
        | some name => "root type \"" ++ name.text ++ "\""
        | none => "a root type the schema does not declare") ++ "."
  | .malformed text variableValues =>
    "Failed to parse generated GraphQL document: <cause>\nDocument:\n" ++ text ++
      "\nVariables: " ++ (Value.obj variableValues).display
  | .settings fault => fault.message
  | .execution errors =>
    "GraphQL execution returned errors: " ++ (Value.arr (errors.map errorMessage)).display
  | .misuse fault => fault.message
  | .connection text => text
  | .shape _ => ""

/-! ### Success -/

section

variable {ε α β : Type}

theorem bind_eq_ok {x : Except ε α} {f : α → Except ε β} {b : β} :
    x >>= f = .ok b ↔ ∃ a, x = .ok a ∧ f a = .ok b := by
  cases x with
  | error e => simp [bind, Except.bind]
  | ok a => simp [bind, Except.bind]

theorem eq_ok_of_toOption {x : Except ε α} {a : α} (h : x.toOption = some a) : x = .ok a := by
  cases x with
  | error e => cases h
  | ok a' => exact congrArg _ (Option.some.inj h)

theorem exists_of_toOption_map {x : Except ε α} {f : α → β} {b : β}
    (h : x.toOption.map f = some b) : ∃ a, x = .ok a ∧ f a = b := by
  obtain ⟨a, made, holds⟩ := Option.map_eq_some_iff.1 h
  exact ⟨a, eq_ok_of_toOption made, holds⟩

theorem mem_of_mapM_eq_ok {f : α → Except ε β} {as : List α} {bs : List β}
    (h : as.mapM f = .ok bs) {b : β} (hb : b ∈ bs) : ∃ a ∈ as, f a = .ok b := by
  induction as generalizing bs with
  | nil =>
    cases h
    cases hb
  | cons a as ih =>
    rw [List.mapM_cons] at h
    obtain ⟨c, hc, h⟩ := bind_eq_ok.1 h
    obtain ⟨cs, hcs, h⟩ := bind_eq_ok.1 h
    cases h
    rcases List.mem_cons.1 hb with rfl | hb
    · exact ⟨a, .head _, hc⟩
    · obtain ⟨a', ha', h'⟩ := ih hcs hb
      exact ⟨a', .tail _ ha', h'⟩

end

end GraphRequest
