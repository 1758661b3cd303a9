import GraphRequest.Document.Basic
import GraphRequest.Document.BlockText
import GraphRequest.Text.Quoted

/-!
# Printing documents

The one printed form of a document. Selections, and lists that would be longer than eighty
characters on one line, are broken: one entry a line, two spaces deeper. Declarations of variables
are broken when one of them has several lines. Definitions are separated by an empty line.
-/

namespace GraphRequest.Document

/-! ### Layout -/

/-- The longest list that is kept on one line. -/
def lineLimit : Nat := 80

/-- A text with two spaces put before each of its lines. -/
def shiftChars : List Char → List Char
  | [] => []
  | '\n' :: cs => '\n' :: ' ' :: ' ' :: shiftChars cs
  | c :: cs => c :: shiftChars cs

/-- A text moved two spaces to the right. -/
def shift (s : String) : String := "  " ++ String.ofList (shiftChars s.toList)

/-- Texts on lines of their own between two marks. -/
def blockOf (opening closing : String) (entries : List String) : String :=
  if entries.isEmpty then opening ++ closing
  else opening ++ "\n" ++ shift ("\n".intercalate entries) ++ "\n" ++ closing

/-- The texts that are not empty, with a space between them. -/
def spaced (texts : List String) : String := " ".intercalate (texts.filter (· != ""))

/-! ### Literals -/

/-- The upper case of a hexadecimal digit. -/
def upperHex (n : Nat) : List Char := (Text.hexDigits 4 n).map Char.toUpper

/-- A character inside a string. -/
def stringChar (c : Char) : List Char :=
  if c == '\x22' || c == '\\' then ['\\', c]
  else if c == '\x08' then ['\\', 'b']
  else if c == '\x0c' then ['\\', 'f']
  else if c == '\n' then ['\\', 'n']
  else if c == '\r' then ['\\', 'r']
  else if c == '\t' then ['\\', 't']
  else if c.toNat < 0x20 || (0x7f ≤ c.toNat && c.toNat < 0xa0) then '\\' :: 'u' :: upperHex c.toNat
  else [c]

/-- A string between quotes. -/
def stringText (s : String) : String :=
  String.ofList ('\x22' :: s.toList.flatMap stringChar ++ ['\x22'])

/-- Entries between two marks on one line, or on lines of their own when that is too long. -/
def fitted (line : String) (opening closing : String) (entries : List String) : String :=
  if lineLimit < line.length then blockOf opening closing entries else line

mutual

/-- A literal. -/
def Literal.text : Literal → String
  | .var name => "$" ++ name
  | .int text => text
  | .float text => text
  | .string value => stringText value
  | .block value => String.ofList (BlockText.layout value.toList)
  | .bool true => "true"
  | .bool false => "false"
  | .null => "null"
  | .enum name => name
  | .list items =>
    let texts := itemTexts items
    fitted ("[" ++ ", ".intercalate texts ++ "]") "[" "]" texts
  | .object fields =>
    let texts := entryTexts fields
    fitted ("\x7b " ++ ", ".intercalate texts ++ " \x7d") "\x7b" "\x7d" texts

/-- The items of a list. -/
def itemTexts : List Literal → List String
  | [] => []
  | v :: vs => v.text :: itemTexts vs

/-- Named literals. -/
def entryTexts : List (String × Literal) → List String
  | [] => []
  | (name, v) :: rest => (name ++ ": " ++ v.text) :: entryTexts rest

end

/-- A directive, on one line. -/
def Directive.text (d : Directive) : String :=
  if d.arguments.isEmpty then "@" ++ d.name
  else "@" ++ d.name ++ "(" ++ ", ".intercalate (entryTexts d.arguments) ++ ")"

/-- Directives with spaces between them. -/
def directivesText (ds : List Directive) : String := " ".intercalate (ds.map Directive.text)

/-! ### Selections -/

/-- A field's name behind its alias. -/
def fieldName (aliasName : Option String) (name : String) : String :=
  match aliasName with
  | some a => a ++ ": " ++ name
  | none => name

/-- A name with its arguments in parentheses, on one line if they fit. -/
def withArguments (head : String) (arguments : List Argument) : String :=
  if arguments.isEmpty then head
  else
    let texts := entryTexts arguments
    fitted (head ++ "(" ++ ", ".intercalate texts ++ ")") (head ++ "(") ")" texts

/-- A selection set. -/
def bodyText (selections : List String) : String := blockOf "\x7b" "\x7d" selections

mutual

/-- A selection. -/
def Selection.text : Selection → String
  | .field aliasName name arguments directives body =>
    spaced [withArguments (fieldName aliasName name) arguments, directivesText directives,
      match body with
      | some selections => bodyText (selectionTexts selections)
      | none => ""]
  | .spread name directives => spaced ["..." ++ name, directivesText directives]
  | .inline condition directives body =>
    spaced ["...", match condition with | some c => "on " ++ c | none => "",
      directivesText directives, bodyText (selectionTexts body)]

/-- The selections of a set. -/
def selectionTexts : List Selection → List String
  | [] => []
  | s :: ss => s.text :: selectionTexts ss

end

/-! ### Definitions -/

/-- A type. -/
def TypeText.text : TypeText → String
  | .named name => name
  | .list item => "[" ++ item.text ++ "]"
  | .nonNull type => type.text ++ "!"

/-- The declaration of a variable. -/
def VariableDefinition.text (v : VariableDefinition) : String :=
  spaced ["$" ++ v.name ++ ": " ++ v.type.text,
    match v.default with | some d => "= " ++ d.text | none => "",
    directivesText v.directives]

/-- Whether a text goes over several lines. -/
def isMultiline (s : String) : Bool := s.toList.contains '\n'

/-- The declarations of variables in parentheses: on one line, or, when one of them has several
lines itself, each on a line of its own that is not indented. -/
def variablesText (vs : List VariableDefinition) : String :=
  let texts := vs.map VariableDefinition.text
  if texts.isEmpty then ""
  else if texts.any isMultiline then "(\n" ++ "\n".intercalate texts ++ "\n)"
  else "(" ++ ", ".intercalate texts ++ ")"

/-- A definition; a query with nothing but its selections has the short form. -/
def Definition.text : Definition → String
  | .operation keyword name declared directives body =>
    let head := spaced [keyword, name.getD "" ++ variablesText declared, directivesText directives]
    (if head == "query" then "" else head ++ " ") ++ bodyText (selectionTexts body)
  | .fragment name condition directives body =>
    spaced ["fragment", name, "on", condition, directivesText directives,
      bodyText (selectionTexts body)]

/-- The printed form of a document. -/
def text (d : Document) : String := "\n\n".intercalate (d.map Definition.text)

theorem selectionTexts_eq_map (ss : List Selection) :
    selectionTexts ss = ss.map Selection.text := by
  induction ss with
  | nil => rfl
  | cons s ss ih => simp [selectionTexts, ih]

theorem itemTexts_eq_map (vs : List Literal) : itemTexts vs = vs.map Literal.text := by
  induction vs with
  | nil => rfl
  | cons v vs ih => simp [itemTexts, ih]

end GraphRequest.Document
