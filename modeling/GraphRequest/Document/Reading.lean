import GraphRequest.Document.Basic
import GraphRequest.Document.Token

/-!
# Reading documents

A reader takes tokens and returns what it read with the tokens that follow. Lists in parentheses
hold at least one entry; the brackets of literals may be empty. The number that every reader takes
bounds the depth and the length of what it reads; twice the number of tokens is always enough.

Compiling relies on a library of the language for reading. These readers stand in for it where
programs run, and they differ from it and from the grammar:

* they let a selection set be empty, as release 3.3.2 of that library does and the grammar does not;
* they read executable definitions only, operations and fragments; the library and the grammar have
  definitions of a type system, too;
* those that programs run with refuse braces and brackets that are nested more deeply than a bound,
  where the library goes as deep as its stack allows and the grammar has no bound.

What is proved of compiling does not rest on them: it is stated for whatever reader says which
document a text is, as far as that reader does what the grammar says.

* `Document.readText?` reads a whole document, `TypeText.readText?` a whole type.
* `Document.ofText?` and `TypeText.ofText?` do so within the bound on the nesting.
-/

namespace GraphRequest.Document

/-! ### Nesting -/

/-- How many braces and brackets may be open at a time. The grammar has no such bound. -/
def nestingLimit : Nat := 200

/-- Whether the tokens never have more than `nestingLimit` braces and brackets open, when `opened`
of them are open before. -/
def isShallow (opened : Nat) : List Token → Bool
  | [] => true
  | .punctuator c :: rest =>
    if c == '\x7b' || c == '[' then opened < nestingLimit && isShallow (opened + 1) rest
    else if c == '\x7d' || c == ']' then isShallow (opened - 1) rest
    else isShallow opened rest
  | _ :: rest => isShallow opened rest

/-! ### Literals and arguments -/

/-- The literal that a bare name stands for. -/
def nameLiteral (text : String) : Literal :=
  if text == "true" then .bool true
  else if text == "false" then .bool false
  else if text == "null" then .null
  else .enum text

mutual

/-- A literal; a constant one holds no variables. -/
def readLiteral (constant : Bool) : Nat → List Token → Option (Literal × List Token)
  | 0, _ => none
  | fuel + 1, ts =>
    match ts with
    | .int text :: rest => some (.int text, rest)
    | .float text :: rest => some (.float text, rest)
    | .string value :: rest => some (.string value, rest)
    | .block value :: rest => some (.block value, rest)
    | .name text :: rest => some (nameLiteral text, rest)
    | .punctuator '$' :: .name text :: rest => if constant then none else some (.var text, rest)
    | .punctuator '[' :: rest =>
      (readItems constant fuel rest).map fun (items, rest) => (.list items, rest)
    | .punctuator '\x7b' :: rest =>
      (readEntries constant '\x7d' fuel rest).map fun (fields, rest) => (.object fields, rest)
    | _ => none

/-- Literals up to a closing bracket. -/
def readItems (constant : Bool) : Nat → List Token → Option (List Literal × List Token)
  | 0, _ => none
  | fuel + 1, ts =>
    match ts with
    | .punctuator ']' :: rest => some ([], rest)
    | ts => do
      let (item, rest) ← readLiteral constant fuel ts
      let (items, rest) ← readItems constant fuel rest
      some (item :: items, rest)

/-- Named literals up to a closing punctuator. -/
def readEntries (constant : Bool) (close : Char) :
    Nat → List Token → Option (List (String × Literal) × List Token)
  | 0, _ => none
  | fuel + 1, ts =>
    match ts with
    | .punctuator c :: rest => if c == close then some ([], rest) else none
    | .name text :: .punctuator ':' :: rest => do
      let (value, rest) ← readLiteral constant fuel rest
      let (entries, rest) ← readEntries constant close fuel rest
      some ((text, value) :: entries, rest)
    | _ => none

end

/-- The arguments in parentheses, or none at all. -/
def readArguments (constant : Bool) (fuel : Nat) :
    List Token → Option (List Argument × List Token)
  | .punctuator '(' :: rest => do
    let (arguments, rest) ← readEntries constant ')' fuel rest
    if arguments.isEmpty then none else some (arguments, rest)
  | ts => some ([], ts)

/-- Directives, as many as there are. -/
def readDirectives (constant : Bool) : Nat → List Token → Option (List Directive × List Token)
  | 0, _ => none
  | fuel + 1, ts =>
    match ts with
    | .punctuator '@' :: .name text :: rest => do
      let (arguments, rest) ← readArguments constant fuel rest
      let (directives, rest) ← readDirectives constant fuel rest
      some (⟨text, arguments⟩ :: directives, rest)
    | .punctuator '@' :: _ => none
    | ts => some ([], ts)

/-! ### Selections -/

/-- The optional second name of a field: the first one is an alias when a colon follows it. -/
def readFieldName (first : String) : List Token → Option ((Option String × String) × List Token)
  | .punctuator ':' :: .name second :: rest => some ((some first, second), rest)
  | .punctuator ':' :: _ => none
  | ts => some ((none, first), ts)

mutual

/-- A selection. -/
def readSelection : Nat → List Token → Option (Selection × List Token)
  | 0, _ => none
  | fuel + 1, ts =>
    match ts with
    | .name first :: rest => do
      let ((aliasName, name), rest) ← readFieldName first rest
      let (arguments, rest) ← readArguments false fuel rest
      let (directives, rest) ← readDirectives false fuel rest
      match rest with
      | .punctuator '\x7b' :: rest =>
        let (body, rest) ← readSelections fuel rest
        some (.field aliasName name arguments directives (some body), rest)
      | rest => some (.field aliasName name arguments directives none, rest)
    | .spread :: .name text :: rest =>
      if text == "on" then
        match rest with
        | .name condition :: rest => readInline (some condition) fuel rest
        | _ => none
      else do
        let (directives, rest) ← readDirectives false fuel rest
        some (.spread text directives, rest)
    | .spread :: rest => readInline none fuel rest
    | _ => none

/-- An inline fragment after its type condition. -/
def readInline (condition : Option String) : Nat → List Token → Option (Selection × List Token)
  | 0, _ => none
  | fuel + 1, ts => do
    let (directives, rest) ← readDirectives false fuel ts
    match rest with
    | .punctuator '\x7b' :: rest =>
      let (body, rest) ← readSelections fuel rest
      some (.inline condition directives body, rest)
    | _ => none

/-- Selections up to a closing brace. There may be none, where the grammar asks for one. -/
def readSelections : Nat → List Token → Option (List Selection × List Token)
  | 0, _ => none
  | fuel + 1, ts =>
    match ts with
    | .punctuator '\x7d' :: rest => some ([], rest)
    | ts => do
      let (selection, rest) ← readSelection fuel ts
      let (selections, rest) ← readSelections fuel rest
      some (selection :: selections, rest)

end

/-- A selection set in braces. -/
def readBody (fuel : Nat) : List Token → Option (List Selection × List Token)
  | .punctuator '\x7b' :: rest => readSelections fuel rest
  | _ => none

/-! ### Types and variables -/

/-- A type with an exclamation mark behind it, if there is one. -/
def readMark (type : TypeText) : List Token → TypeText × List Token
  | .punctuator '!' :: rest => (.nonNull type, rest)
  | ts => (type, ts)

/-- A type. -/
def readType : Nat → List Token → Option (TypeText × List Token)
  | 0, _ => none
  | fuel + 1, ts =>
    match ts with
    | .name text :: rest => some (readMark (.named text) rest)
    | .punctuator '[' :: rest => do
      let (item, rest) ← readType fuel rest
      match rest with
      | .punctuator ']' :: rest => some (readMark (.list item) rest)
      | _ => none
    | _ => none

/-- The default value of a variable, or none. -/
def readDefault (fuel : Nat) : List Token → Option (Option Literal × List Token)
  | .punctuator '=' :: rest => (readLiteral true fuel rest).map fun (v, rest) => (some v, rest)
  | ts => some (none, ts)

/-- Declarations of variables up to a closing parenthesis. -/
def readVariables : Nat → List Token → Option (List VariableDefinition × List Token)
  | 0, _ => none
  | fuel + 1, ts =>
    match ts with
    | .punctuator ')' :: rest => some ([], rest)
    | .punctuator '$' :: .name name :: .punctuator ':' :: rest => do
      let (type, rest) ← readType fuel rest
      let (default, rest) ← readDefault fuel rest
      let (directives, rest) ← readDirectives true fuel rest
      let (declared, rest) ← readVariables fuel rest
      some (⟨name, type, default, directives⟩ :: declared, rest)
    | _ => none

/-- The declarations of variables in parentheses, or none at all. -/
def readDeclarations (fuel : Nat) : List Token → Option (List VariableDefinition × List Token)
  | .punctuator '(' :: rest => do
    let (declared, rest) ← readVariables fuel rest
    if declared.isEmpty then none else some (declared, rest)
  | ts => some ([], ts)

/-! ### Definitions -/

/-- A name, or none. -/
def readOptionalName : List Token → Option String × List Token
  | .name text :: rest => (some text, rest)
  | ts => (none, ts)

/-- An operation after its keyword. -/
def readOperation (keyword : String) (fuel : Nat) (ts : List Token) :
    Option (Definition × List Token) := do
  let (name, rest) := readOptionalName ts
  let (declared, rest) ← readDeclarations fuel rest
  let (directives, rest) ← readDirectives false fuel rest
  let (body, rest) ← readBody fuel rest
  some (.operation keyword name declared directives body, rest)

/-- A fragment after its keyword. -/
def readFragment (fuel : Nat) : List Token → Option (Definition × List Token)
  | .name name :: .name on :: .name condition :: rest =>
    if name == "on" || on != "on" then none
    else do
      let (directives, rest) ← readDirectives false fuel rest
      let (body, rest) ← readBody fuel rest
      some (.fragment name condition directives body, rest)
  | _ => none

/-- Whether a name is the keyword of an operation. -/
def isOperationKeyword (text : String) : Bool :=
  text == "query" || text == "mutation" || text == "subscription"

/-- A definition; a selection set alone is a query. -/
def readDefinition (fuel : Nat) : List Token → Option (Definition × List Token)
  | .name text :: rest =>
    if isOperationKeyword text then readOperation text fuel rest
    else if text == "fragment" then readFragment fuel rest
    else none
  | ts => (readBody fuel ts).map fun (body, rest) => (.operation "query" none [] [] body, rest)

/-- Definitions up to the end. -/
def readDefinitions : Nat → List Token → Option (List Definition)
  | _, [] => some []
  | 0, _ => none
  | fuel + 1, ts => do
    let (definition, rest) ← readDefinition fuel ts
    let definitions ← readDefinitions fuel rest
    some (definition :: definitions)

/-- The document that the tokens make up, however deeply nested: at least one definition. -/
def readTokens? (ts : List Token) : Option Document :=
  match readDefinitions (2 * ts.length + 2) ts with
  | some [] => none
  | result => result

/-- The document that a text is, however deeply nested. -/
def readText? (s : String) : Option Document := do
  let ts ← Token.ofChars? s.toList
  readTokens? ts

/-- The document that the tokens make up, if it is not nested too deeply. -/
def ofTokens? (ts : List Token) : Option Document :=
  if isShallow 0 ts then readTokens? ts else none

/-- The document that a text is, if it is not nested too deeply. The library of the language reads
definitions of a type system, too, and nests as deeply as its stack allows. -/
def ofText? (s : String) : Option Document := do
  let ts ← Token.ofChars? s.toList
  ofTokens? ts

/-- The type that the tokens make up, however deeply nested. -/
def TypeText.readTokens? (ts : List Token) : Option TypeText :=
  match readType (2 * ts.length + 2) ts with
  | some (type, []) => some type
  | _ => none

/-- The type that a text is, however deeply nested. -/
def TypeText.readText? (s : String) : Option TypeText := do
  let ts ← Token.ofChars? s.toList
  TypeText.readTokens? ts

/-- The type that the tokens make up, if it is not nested too deeply. -/
def TypeText.ofTokens? (ts : List Token) : Option TypeText :=
  if isShallow 0 ts then TypeText.readTokens? ts else none

/-- The type that a text is, if it is not nested too deeply. -/
def TypeText.ofText? (s : String) : Option TypeText := do
  let ts ← Token.ofChars? s.toList
  TypeText.ofTokens? ts

end GraphRequest.Document
