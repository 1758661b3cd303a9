import GraphRequest.Selection.Item
import GraphRequest.Document.Reading
import GraphRequest.Document.Printing
import GraphRequest.Text.LetterCase

/-!
# Assembling documents

A document holds one operation with one root field, and any fragments behind it. The text is put
together, read back as a document, and printed; a text that is no document is an error that shows
the text and its variables.
-/

namespace GraphRequest

/-- A compiled request. -/
structure CompiledQuery where
  documentText : String
  document : Document
  variableValues : Fields
  field : String
  nextCounter : Int
  keyword : String
  operationName : String
  diagnostics : List Diagnostic

namespace Assembly

/-! ### Names -/

/-- The parts of a text between underscores. -/
def partsOf : List Char → List (List Char)
  | [] => [[]]
  | c :: cs =>
    if c == '_' then [] :: partsOf cs
    else match partsOf cs with
      | [] => [[c]]
      | p :: ps => (c :: p) :: ps

/-- A name with the parts between its underscores in upper case at the start and put together. -/
def pascalChars (cs : List Char) : List Char := (partsOf cs).flatMap Text.upperFirst

/-- The name of the operation that calls a root field. -/
def operationName (keyword field : String) : String :=
  Text.capitalize keyword ++ String.ofList (pascalChars field.toList)

/-! ### Text -/

/-- The parts of a document that are put together. -/
structure Parts where
  keyword : String
  operationName : String
  declarations : String
  field : String
  arguments : List String
  items : List String

namespace Parts

/-- The operation before its braces. -/
def header (p : Parts) : String :=
  p.keyword ++ " " ++ p.operationName ++
    if p.declarations == "" then "" else "(" ++ p.declarations ++ ")"

/-- The root field before its braces. -/
def fieldHead (p : Parts) : String :=
  p.field ++ if p.arguments.isEmpty then "" else "(" ++ ", ".intercalate p.arguments ++ ")"

/-- The root field; without selections it has no braces. -/
def fieldText (p : Parts) : String :=
  if p.items.isEmpty then p.fieldHead else Item.blockText p.fieldHead p.items

/-- The operation. -/
def operationText (p : Parts) : String := Item.blockText p.header [p.fieldText]

/-- The text of a document with the given fragments. -/
def text (p : Parts) (fragments : List String) : String :=
  "\n\n".intercalate (p.operationText :: fragments) ++ "\n"

end Parts

/-- The fragments that are not blank, without the blanks at their ends. -/
def fragmentTexts : List Value → Except ShapeFault (List String)
  | [] => .ok []
  | .str s :: rest => do
    let others ← fragmentTexts rest
    .ok (if Text.isBlankText s then others else Text.strip s :: others)
  | _ :: _ => .error .noMember

/-- The text of a document. -/
def documentText (p : Parts) (fragments : List Value) : Except Failure String := do
  let fragments ← Failure.ofShape (fragmentTexts fragments)
  .ok (p.text fragments)

/-- The parts of the document for a root field with its arguments and selections. -/
def parts (keyword field : String) (arguments items : List String) (b : Bindings) : Parts :=
  ⟨keyword, operationName keyword field, b.declarationsText, field, arguments, items⟩

/-- The compiled query for a root field with its arguments and selections. The reader says which
document a text is. -/
def assembleBy (read : String → Option Document) (keyword field : String)
    (arguments items : List String) (b : Bindings) (fragments : List Value) :
    Except Failure CompiledQuery := do
  let p := parts keyword field arguments items b
  let text ← documentText p fragments
  match read text with
  | none => .error (.malformed text b.variableMap)
  | some document =>
    .ok {
      documentText := Document.text document
      document
      variableValues := b.variableMap
      field
      nextCounter := b.counter
      keyword
      operationName := p.operationName
      diagnostics := b.diagnostics }

/-- The compiled query for a root field with its arguments and selections. -/
def assemble (keyword field : String) (arguments items : List String) (b : Bindings)
    (fragments : List Value) : Except Failure CompiledQuery :=
  assembleBy Document.ofText? keyword field arguments items b fragments

end Assembly

end GraphRequest
