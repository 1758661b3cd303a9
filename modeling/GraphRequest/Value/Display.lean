import GraphRequest.Value.Basic
import GraphRequest.Text.Quoted

/-!
# Display text of values

`display` is the text of a value inside a message: words for null and the booleans, quoted texts,
lists and objects with their parts separated by a comma and a space. `text` is the same except
that a text stands for itself.
-/

namespace GraphRequest.Value

mutual

/-- The display text of a value. -/
def display : Value → String
  | .null => "None"
  | .bool true => "True"
  | .bool false => "False"
  | .int n => Decimal.integerText n
  | .float d => d.text
  | .str s => Text.quoted s
  | .arr items => "[" ++ displayItems items ++ "]"
  | .obj fields => "\x7b" ++ displayFields fields ++ "\x7d"
  | .columns names distinct =>
    "ColumnFunction(columns=" ++ display names ++ ", distinct=" ++ display distinct ++ ")"

/-- The display texts of the items of a list, separated. -/
def displayItems : List Value → String
  | [] => ""
  | [v] => display v
  | v :: vs => display v ++ ", " ++ displayItems vs

/-- The display texts of the entries of an object, separated. -/
def displayFields : List (String × Value) → String
  | [] => ""
  | [(k, v)] => Text.quoted k ++ ": " ++ display v
  | (k, v) :: rest => Text.quoted k ++ ": " ++ display v ++ ", " ++ displayFields rest

end

/-- A text itself, and the display text of any other value. -/
def text : Value → String
  | .str s => s
  | v => v.display

/-- The display text of a list of texts. -/
def displayTexts (texts : List String) : String := (Value.arr (texts.map .str)).display

/-- The name that messages use for the kind of a value. -/
def kindName : Value → String
  | .null => "<class 'NoneType'>"
  | .bool _ => "<class 'bool'>"
  | .int _ => "<class 'int'>"
  | .float _ => "<class 'float'>"
  | .str _ => "<class 'str'>"
  | .arr _ => "<class 'list'>"
  | .obj _ => "<class 'dict'>"
  | .columns _ _ => "<class 'graphql_query_generator.request.ColumnFunction'>"

@[simp] theorem text_str (s : String) : (Value.str s).text = s := rfl

end GraphRequest.Value
