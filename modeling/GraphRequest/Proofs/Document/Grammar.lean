import Mathlib.Data.List.Forall2
import GraphRequest.Document.Reading

/-!
# The grammar of documents

The tokens that a document is written with, and the conditions that the grammar puts on a document
beyond its form as a tree: constant literals where the grammar asks for them, no empty selection
set, and the names that a construct cannot have. A reader of texts implements the grammar when it
reads every text with the tokens of a valid document as that document.

* `Document.tokens`: the tokens of a document.
* `Document.isValid`: whether a document is one of the grammar.
* `Document.Implements`: a reader implements the grammar.
* `Document.Accepts`: a reader implements it with queries in their short form.
-/

namespace GraphRequest.Document

/-! ### Tokens -/

mutual

/-- The tokens of a literal. -/
def Literal.tokens : Literal → List Token
  | .var name => [.punctuator '$', .name name]
  | .int text => [.int text]
  | .float text => [.float text]
  | .string value => [.string value]
  | .block value => [.block value]
  | .bool value => [.name (if value then "true" else "false")]
  | .null => [.name "null"]
  | .enum name => [.name name]
  | .list items => .punctuator '[' :: (itemTokens items ++ [.punctuator ']'])
  | .object fields => .punctuator '\x7b' :: (entryTokens fields ++ [.punctuator '\x7d'])

/-- The tokens of the items of a list. -/
def itemTokens : List Literal → List Token
  | [] => []
  | v :: vs => v.tokens ++ itemTokens vs

/-- The tokens of named literals. -/
def entryTokens : List (String × Literal) → List Token
  | [] => []
  | (name, v) :: rest => .name name :: .punctuator ':' :: (v.tokens ++ entryTokens rest)

end

/-- The tokens of arguments in parentheses; no arguments have none. -/
def argumentTokens (arguments : List Argument) : List Token :=
  if arguments.isEmpty then []
  else .punctuator '(' :: (entryTokens arguments ++ [Token.punctuator ')'])

/-- The tokens of a directive. -/
def Directive.tokens (d : Directive) : List Token :=
  .punctuator '@' :: .name d.name :: argumentTokens d.arguments

/-- The tokens of directives. -/
def directiveTokens (ds : List Directive) : List Token := ds.flatMap Directive.tokens

/-- The tokens of a field's name behind its alias. -/
def nameTokens (aliasName : Option String) (name : String) : List Token :=
  match aliasName with
  | some a => [.name a, .punctuator ':', .name name]
  | none => [.name name]

/-- The tokens of the type condition of an inline fragment. -/
def conditionTokens : Option String → List Token
  | some condition => [.name "on", .name condition]
  | none => []

mutual

/-- The tokens of a selection. -/
def Selection.tokens : Selection → List Token
  | .field aliasName name arguments directives body =>
    nameTokens aliasName name ++ (argumentTokens arguments ++ (directiveTokens directives ++
      match body with
      | some selections =>
        .punctuator '\x7b' :: (selectionTokens selections ++ [.punctuator '\x7d'])
      | none => []))
  | .spread name directives => .spread :: .name name :: directiveTokens directives
  | .inline condition directives body =>
    .spread :: (conditionTokens condition ++ (directiveTokens directives ++
      .punctuator '\x7b' :: (selectionTokens body ++ [.punctuator '\x7d'])))

/-- The tokens of selections. -/
def selectionTokens : List Selection → List Token
  | [] => []
  | s :: ss => s.tokens ++ selectionTokens ss

end

/-- The tokens of a type. -/
def TypeText.tokens : TypeText → List Token
  | .named name => [.name name]
  | .list item => .punctuator '[' :: (item.tokens ++ [.punctuator ']'])
  | .nonNull type => type.tokens ++ [.punctuator '!']

/-- The tokens of a default value. -/
def defaultTokens : Option Literal → List Token
  | some v => .punctuator '=' :: v.tokens
  | none => []

/-- The tokens of the declaration of a variable. -/
def VariableDefinition.tokens (v : VariableDefinition) : List Token :=
  .punctuator '$' :: .name v.name :: .punctuator ':' ::
    (v.type.tokens ++ (defaultTokens v.default ++ directiveTokens v.directives))

/-- The tokens of the declarations of variables in parentheses; no declarations have none. -/
def declarationTokens (vs : List VariableDefinition) : List Token :=
  if vs.isEmpty then []
  else .punctuator '(' :: (vs.flatMap VariableDefinition.tokens ++ [Token.punctuator ')'])

/-- The tokens of a selection set. -/
def bodyTokens (selections : List Selection) : List Token :=
  .punctuator '\x7b' :: (selectionTokens selections ++ [Token.punctuator '\x7d'])

/-- The tokens of a definition. -/
def Definition.tokens : Definition → List Token
  | .operation keyword name declared directives body =>
    .name keyword :: (name.toList.map Token.name ++ (declarationTokens declared ++
      (directiveTokens directives ++ bodyTokens body)))
  | .fragment name condition directives body =>
    .name "fragment" :: .name name :: .name "on" :: .name condition ::
      (directiveTokens directives ++ bodyTokens body)

/-- The tokens of a document. -/
def tokens (d : Document) : List Token := d.flatMap Definition.tokens

/-- The tokens that a definition is read from: its own, or those of its selection set when it is a
query with nothing else. -/
inductive Definition.Spans : Definition → List Token → Prop
  | whole (d : Definition) : Spans d d.tokens
  | short (body : List Selection) :
      Spans (.operation "query" none [] [] body) (bodyTokens body)

/-! ### Conditions -/

mutual

/-- Whether a literal is one of the grammar: a constant one holds no variables, and the names with a
meaning of their own are not names of an enumeration. -/
def Literal.isValid (constant : Bool) : Literal → Bool
  | .var _ => !constant
  | .enum name => name != "true" && name != "false" && name != "null"
  | .list items => itemsValid constant items
  | .object fields => entriesValid constant fields
  | _ => true

/-- Whether all items of a list are valid. -/
def itemsValid (constant : Bool) : List Literal → Bool
  | [] => true
  | v :: vs => v.isValid constant && itemsValid constant vs

/-- Whether all named literals are valid. -/
def entriesValid (constant : Bool) : List (String × Literal) → Bool
  | [] => true
  | (_, v) :: rest => v.isValid constant && entriesValid constant rest

end

/-- Whether the arguments of a directive are valid. -/
def Directive.isValid (constant : Bool) (d : Directive) : Bool := entriesValid constant d.arguments

mutual

/-- Whether a selection is one of the grammar: selection sets are not empty, and `on` names no
fragment. -/
def Selection.isValid : Selection → Bool
  | .field _ _ arguments directives body =>
    entriesValid false arguments && directives.all (Directive.isValid false) &&
      match body with
      | some selections => !selections.isEmpty && selectionsValid selections
      | none => true
  | .spread name directives => name != "on" && directives.all (Directive.isValid false)
  | .inline _ directives body =>
    directives.all (Directive.isValid false) && (!body.isEmpty && selectionsValid body)

/-- Whether all selections are valid. -/
def selectionsValid : List Selection → Bool
  | [] => true
  | s :: ss => s.isValid && selectionsValid ss

end

/-- Whether a type is one of the grammar: null is excluded once at a place. -/
def TypeText.isValid : TypeText → Bool
  | .named _ => true
  | .list item => item.isValid
  | .nonNull (.nonNull _) => false
  | .nonNull type => type.isValid

/-- Whether the declaration of a variable is one of the grammar. -/
def VariableDefinition.isValid (v : VariableDefinition) : Bool :=
  v.type.isValid && (v.default.all (Literal.isValid true) &&
    v.directives.all (Directive.isValid true))

/-- Whether a definition is one of the grammar. -/
def Definition.isValid : Definition → Bool
  | .operation keyword _ declared directives body =>
    isOperationKeyword keyword && declared.all VariableDefinition.isValid &&
      directives.all (Directive.isValid false) && (!body.isEmpty && selectionsValid body)
  | .fragment name _ directives body =>
    name != "on" && directives.all (Directive.isValid false) &&
      (!body.isEmpty && selectionsValid body)

/-- Whether a document is one of the grammar: it has a definition, and all of them are valid. -/
def isValid (d : Document) : Bool := !d.isEmpty && d.all Definition.isValid

/-- A reader implements the grammar: a text with the tokens of a valid document reads as that
document. -/
def Implements (read : String → Option Document) : Prop :=
  ∀ (text : String) (d : Document), isValid d = true →
    Token.ofChars? text.toList = some (tokens d) → read text = some d

/-- A reader accepts every way to write a document: a text with the tokens of a valid document,
queries in their short form among them, reads as that document. -/
def Accepts (read : String → Option Document) : Prop :=
  ∀ (text : String) (d : Document) (spans : List (List Token)), isValid d = true →
    List.Forall₂ Definition.Spans d spans → Token.ofChars? text.toList = some spans.flatten →
    read text = some d

end GraphRequest.Document
