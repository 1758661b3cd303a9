import GraphRequest.Value.Basic
import GraphRequest.Text.Quoted

/-!
# JSON text of values

Reading and writing JSON. Reading keeps the order of keys, and keeps integers apart from fractions;
a fraction becomes the shortest decimal of its nearest double. A column function is written as an
object with the single key `$column_function`.

* `ofChars?` reads a whole text, `json` writes one in ASCII.
-/

namespace GraphRequest.Value

/-! ### Writing -/

/-- Four hexadecimal digits of a unit of sixteen bits. -/
def escapedUnit (n : Nat) : List Char := '\\' :: 'u' :: Text.hexDigits 4 n

/-- A character inside a JSON text that is kept to ASCII. -/
def jsonChar (c : Char) : List Char :=
  if c == '\x22' || c == '\\' then ['\\', c]
  else if c == '\n' then ['\\', 'n']
  else if c == '\r' then ['\\', 'r']
  else if c == '\t' then ['\\', 't']
  else if c == '\x08' then ['\\', 'b']
  else if c == '\x0c' then ['\\', 'f']
  else if 0x20 ≤ c.toNat && c.toNat < 0x7f then [c]
  else if c.toNat < 0x10000 then escapedUnit c.toNat
  else
    let n := c.toNat - 0x10000
    escapedUnit (0xd800 + n / 0x400) ++ escapedUnit (0xdc00 + n % 0x400)

/-- A text as a JSON string. -/
def jsonString (s : String) : String :=
  String.ofList ('\x22' :: s.toList.flatMap jsonChar ++ ['\x22'])

mutual

/-- The JSON text of a value. -/
def json : Value → String
  | .null => "null"
  | .bool true => "true"
  | .bool false => "false"
  | .int n => Decimal.integerText n
  | .float d => d.text
  | .str s => jsonString s
  | .arr items => "[" ++ jsonItems items ++ "]"
  | .obj fields => "\x7b" ++ jsonFields fields ++ "\x7d"
  | .columns names distinct =>
    "\x7b\"$column_function\":\x7b\"columns\":" ++ json names ++ ",\"distinct\":" ++
      json distinct ++ "\x7d\x7d"

/-- The JSON texts of the items of a list, separated by commas. -/
def jsonItems : List Value → String
  | [] => ""
  | [v] => json v
  | v :: vs => json v ++ "," ++ jsonItems vs

/-- The JSON texts of the entries of an object, separated by commas. -/
def jsonFields : List (String × Value) → String
  | [] => ""
  | [(k, v)] => jsonString k ++ ":" ++ json v
  | (k, v) :: rest => jsonString k ++ ":" ++ json v ++ "," ++ jsonFields rest

end

/-! ### Reading -/

/-- The characters after JSON white space. -/
def skipSpace (cs : List Char) : List Char :=
  cs.dropWhile fun c => c == ' ' || c == '\n' || c == '\r' || c == '\t'

/-- The value of a hexadecimal digit. -/
def hexValue? (c : Char) : Option Nat :=
  if '0' ≤ c && c ≤ '9' then some (c.toNat - 48)
  else if 'a' ≤ c && c ≤ 'f' then some (c.toNat - 87)
  else if 'A' ≤ c && c ≤ 'F' then some (c.toNat - 55)
  else none

/-- The number written by hexadecimal digits. -/
def hexNumber? (cs : List Char) : Option Nat :=
  cs.foldlM (fun n c => (hexValue? c).map (16 * n + ·)) 0

/-- The character of a letter escape. -/
def letterEscape? : Char → Option Char
  | '\x22' => some '\x22'
  | '\\' => some '\\'
  | '/' => some '/'
  | 'b' => some '\x08'
  | 'f' => some '\x0c'
  | 'n' => some '\n'
  | 'r' => some '\r'
  | 't' => some '\t'
  | _ => none

/-- The rest of a string after its opening quote: the characters up to the closing quote, and what
follows. -/
def readString : List Char → Option (List Char × List Char)
  | [] => none
  | '\x22' :: rest => some ([], rest)
  | '\\' :: 'u' :: a :: b :: c :: d :: '\\' :: 'u' :: e :: f :: g :: h :: rest => do
    let high ← hexNumber? [a, b, c, d]
    let low ← hexNumber? [e, f, g, h]
    if 0xd800 ≤ high && high < 0xdc00 then
      let (s, rest) ← readString rest
      some (Char.ofNat (0x10000 + (high - 0xd800) * 0x400 + (low - 0xdc00)) :: s, rest)
    else
      let (s, rest) ← readString ('\\' :: 'u' :: e :: f :: g :: h :: rest)
      some (Char.ofNat high :: s, rest)
  | '\\' :: 'u' :: a :: b :: c :: d :: rest => do
    let n ← hexNumber? [a, b, c, d]
    let (s, rest) ← readString rest
    some (Char.ofNat n :: s, rest)
  | '\\' :: c :: rest => do
    let e ← letterEscape? c
    let (s, rest) ← readString rest
    some (e :: s, rest)
  | c :: rest => do
    let (s, rest) ← readString rest
    some (c :: s, rest)

/-- The natural number written by decimal digits, other characters counting as nothing. -/
def digitsValue (cs : List Char) : Nat :=
  cs.foldl (fun n c => if c.isDigit then 10 * n + (c.toNat - 48) else n) 0

/-- The integer written by an optional sign and digits. -/
def signedValue : List Char → Int
  | '-' :: cs => -(digitsValue cs : Int)
  | '+' :: cs => digitsValue cs
  | cs => digitsValue cs

/-- The number written by a run of number characters: an integer without a point and an exponent,
else a fraction. -/
def numberOf? (cs : List Char) : Option Value :=
  let negative := cs.head? == some '-'
  let isMark (c : Char) := c == 'e' || c == 'E'
  let mantissa := cs.takeWhile fun c => !isMark c
  let power := signedValue ((cs.dropWhile fun c => !isMark c).drop 1)
  let places := ((mantissa.dropWhile (· != '.')).drop 1).length
  if cs.any isMark || mantissa.contains '.' then
    (Decimal.canonical ⟨negative, digitsValue mantissa, power - places⟩).map .float
  else some (.int (signedValue cs))

/-- Whether a character may stand in a number. -/
def isNumberChar (c : Char) : Bool := c.isDigit || ['+', '-', '.', 'e', 'E'].contains c

/-- The value of an object, a column function if it is the one that stands for it. -/
def ofFields : Fields → Value
  | [("$column_function", .obj inner)] =>
    .columns ((inner.lookup "columns").getD .null) ((inner.lookup "distinct").getD .null)
  | fields => .obj fields

mutual

/-- The value at the start of a text, and what follows it. -/
def readValue : Nat → List Char → Option (Value × List Char)
  | 0, _ => none
  | fuel + 1, cs =>
    match skipSpace cs with
    | '[' :: rest => match skipSpace rest with
      | ']' :: rest => some (.arr [], rest)
      | rest => (readItems fuel rest).map fun (items, rest) => (.arr items, rest)
    | '\x7b' :: rest => match skipSpace rest with
      | '\x7d' :: rest => some (.obj [], rest)
      | rest => (readFields fuel rest).map fun (fields, rest) => (ofFields fields, rest)
    | '\x22' :: rest => (readString rest).map fun (s, rest) => (.str (String.ofList s), rest)
    | 't' :: 'r' :: 'u' :: 'e' :: rest => some (.bool true, rest)
    | 'f' :: 'a' :: 'l' :: 's' :: 'e' :: rest => some (.bool false, rest)
    | 'n' :: 'u' :: 'l' :: 'l' :: rest => some (.null, rest)
    | rest =>
      match rest.takeWhile isNumberChar with
      | [] => none
      | number => (numberOf? number).map fun v => (v, rest.dropWhile isNumberChar)

/-- The items of a list up to its closing bracket, and what follows it. -/
def readItems : Nat → List Char → Option (List Value × List Char)
  | 0, _ => none
  | fuel + 1, cs => do
    let (v, rest) ← readValue fuel cs
    match skipSpace rest with
    | ',' :: rest =>
      let (vs, rest) ← readItems fuel rest
      some (v :: vs, rest)
    | ']' :: rest => some ([v], rest)
    | _ => none

/-- The entries of an object up to its closing brace, and what follows it. -/
def readFields : Nat → List Char → Option (List (String × Value) × List Char)
  | 0, _ => none
  | fuel + 1, cs => do
    match skipSpace cs with
    | '\x22' :: rest =>
      let (key, rest) ← readString rest
      match skipSpace rest with
      | ':' :: rest =>
        let (v, rest) ← readValue fuel rest
        match skipSpace rest with
        | ',' :: rest =>
          let (fields, rest) ← readFields fuel rest
          some ((String.ofList key, v) :: fields, rest)
        | '\x7d' :: rest => some ([(String.ofList key, v)], rest)
        | _ => none
      | _ => none
    | _ => none

end

/-- The value of a whole JSON text. -/
def ofChars? (cs : List Char) : Option Value :=
  match readValue (cs.length + 1) cs with
  | some (v, rest) => if (skipSpace rest).isEmpty then some v else none
  | none => none

/-- The value of a whole JSON text. -/
def ofJson? (s : String) : Option Value := ofChars? s.toList

end GraphRequest.Value
