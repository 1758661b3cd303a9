import GraphRequest.Document.BlockText
import GraphRequest.Value.Json

/-!
# Tokens of a document

Spaces, tabs, line breaks, commas, byte order marks and comments separate tokens and mean nothing
else. A number must not run into a name, a point or a further digit.

* `Token.ofChars?` reads the tokens of a whole text.
-/

namespace GraphRequest.Document

/-- A token. -/
inductive Token
  | punctuator (c : Char)
  | spread
  | name (text : String)
  | int (text : String)
  | float (text : String)
  | string (value : String)
  | block (value : String)
deriving DecidableEq, Repr, Inhabited

namespace Token

/-- The characters that a name may start with. -/
def isNameStart (c : Char) : Bool := c.isAlpha || c == '_'

/-- The characters of a name. -/
def isNameChar (c : Char) : Bool := c.isAlphanum || c == '_'

/-- Whether a text is a name. -/
def isName : List Char → Bool
  | [] => false
  | c :: cs => isNameStart c && cs.all isNameChar

/-- The characters between tokens, comments apart. -/
def isIgnored (c : Char) : Bool :=
  c == ' ' || c == '\t' || c == '\n' || c == '\r' || c == ',' || c == '\ufeff'

/-- The characters that end a comment. -/
def isBreak (c : Char) : Bool := c == '\n' || c == '\r'

/-- The characters that are tokens by themselves. -/
def isPunctuator (c : Char) : Bool :=
  ['!', '$', '&', '(', ')', ':', '=', '@', '[', ']', '\x7b', '|', '\x7d'].contains c

/-! ### Numbers -/

/-- A run of at least one digit, and what follows it. -/
def readDigits (cs : List Char) : Option (List Char × List Char) :=
  match cs.takeWhile Char.isDigit with
  | [] => none
  | ds => some (ds, cs.dropWhile Char.isDigit)

/-- The digits of an integer: a zero alone or a run that does not start with one. -/
def readWhole : List Char → Option (List Char × List Char)
  | '0' :: cs => if (cs.head?.map Char.isDigit).getD false then none else some (['0'], cs)
  | cs => readDigits cs

/-- A point and its digits, or nothing. -/
def readPlaces : List Char → Option (List Char × List Char)
  | '.' :: cs => (readDigits cs).map fun (ds, rest) => ('.' :: ds, rest)
  | cs => some ([], cs)

/-- The sign of an exponent, or nothing. -/
def readSign : List Char → List Char × List Char
  | '+' :: cs => (['+'], cs)
  | '-' :: cs => (['-'], cs)
  | cs => ([], cs)

/-- An exponent, or nothing. -/
def readPower : List Char → Option (List Char × List Char)
  | [] => some ([], [])
  | c :: cs =>
    if c == 'e' || c == 'E' then
      let (sign, rest) := readSign cs
      (readDigits rest).map fun (ds, rest) => (c :: sign ++ ds, rest)
    else some ([], c :: cs)

/-- A number without its sign. -/
def readUnsigned (cs : List Char) : Option (Token × List Char) := do
  let (whole, rest) ← readWhole cs
  let (places, rest) ← readPlaces rest
  let (power, rest) ← readPower rest
  if (rest.head?.map fun c => c == '.' || isNameStart c).getD false then none
  else
    let text := String.ofList (whole ++ places ++ power)
    some (if places.isEmpty && power.isEmpty then .int text else .float text, rest)

/-- The token with a minus sign in front of its text. -/
def negate : Token → Token
  | .int text => .int ("-" ++ text)
  | .float text => .float ("-" ++ text)
  | t => t

/-- A number. -/
def readNumber : List Char → Option (Token × List Char)
  | '-' :: cs => (readUnsigned cs).map fun (t, rest) => (negate t, rest)
  | cs => readUnsigned cs

/-! ### Strings -/

/-- Whether a number is a Unicode scalar value. -/
def isScalar (n : Nat) : Bool := n < 0xd800 || (0xe000 ≤ n && n < 0x110000)

/-- Whether a number is the first half of a surrogate pair. -/
def isHigh (n : Nat) : Bool := 0xd800 ≤ n && n < 0xdc00

/-- Whether a number is the second half of a surrogate pair. -/
def isLow (n : Nat) : Bool := 0xdc00 ≤ n && n < 0xe000

/-- The code point in braces that starts a text, at most eight digits long, and what follows. -/
def readBraced (cs : List Char) : Option (Char × List Char) :=
  let ds := cs.takeWhile (· != '\x7d')
  match cs.dropWhile (· != '\x7d') with
  | [] => none
  | _ :: rest => do
    let n ← Value.hexNumber? ds
    if ds.isEmpty || 8 < ds.length || !isScalar n then none else some (Char.ofNat n, rest)

/-- The character that a four-digit escape starts with, and what follows; a surrogate must be the
first half of a pair. -/
def readFixed : List Char → Option (Char × List Char)
  | a :: b :: c :: d :: rest => do
    let n ← Value.hexNumber? [a, b, c, d]
    if isScalar n then some (Char.ofNat n, rest)
    else if isHigh n then
      match rest with
      | '\\' :: 'u' :: e :: f :: g :: h :: rest => do
        let m ← Value.hexNumber? [e, f, g, h]
        if isLow m then
          some (Char.ofNat (0x10000 + (n - 0xd800) * 0x400 + (m - 0xdc00)), rest)
        else none
      | _ => none
    else none
  | _ => none

/-- The character of an escape after its backslash, and what follows. -/
def readEscape : List Char → Option (Char × List Char)
  | 'u' :: '\x7b' :: rest => readBraced rest
  | 'u' :: rest => readFixed rest
  | c :: rest => (Value.letterEscape? c).map fun e => (e, rest)
  | [] => none

/-- The value of a string after its opening quote, and what follows its closing quote. -/
def readString : Nat → List Char → Option (List Char × List Char)
  | 0, _ => none
  | _ + 1, [] => none
  | fuel + 1, c :: cs =>
    if c == '\x22' then some ([], cs)
    else if isBreak c then none
    else if c == '\\' then do
      let (e, rest) ← readEscape cs
      let (s, rest) ← readString fuel rest
      some (e :: s, rest)
    else do
      let (s, rest) ← readString fuel cs
      some (c :: s, rest)

/-- The raw text of a block string after its opening quotes, and what follows its closing ones. -/
def readBlock : List Char → Option (List Char × List Char)
  | [] => none
  | '\x22' :: '\x22' :: '\x22' :: rest => some ([], rest)
  | '\\' :: '\x22' :: '\x22' :: '\x22' :: rest => do
    let (s, rest) ← readBlock rest
    some ('\x22' :: '\x22' :: '\x22' :: s, rest)
  | c :: rest => do
    let (s, rest) ← readBlock rest
    some (c :: s, rest)

/-! ### Whole texts -/

/-- The token at the start of a text that starts with one, and what follows it. -/
def read : List Char → Option (Token × List Char)
  | [] => none
  | '.' :: '.' :: '.' :: rest => some (.spread, rest)
  | '\x22' :: '\x22' :: '\x22' :: rest => (readBlock rest).map fun (raw, rest) =>
    (.block (String.ofList (BlockText.value raw)), rest)
  | '\x22' :: rest => (readString (rest.length + 1) rest).map fun (s, rest) =>
    (.string (String.ofList s), rest)
  | c :: cs =>
    if isPunctuator c then some (.punctuator c, cs)
    else if isNameStart c then
      some (.name (String.ofList (c :: cs.takeWhile isNameChar)), cs.dropWhile isNameChar)
    else if c.isDigit || c == '-' then readNumber (c :: cs)
    else none

/-- The tokens of a text, with a bound on their number. -/
def readAll : Nat → List Char → Option (List Token)
  | _, [] => some []
  | 0, _ => none
  | fuel + 1, c :: cs =>
    if isIgnored c then readAll fuel cs
    else if c == '#' then readAll fuel (cs.dropWhile (!isBreak ·))
    else do
      let (t, rest) ← read (c :: cs)
      let ts ← readAll fuel rest
      some (t :: ts)

/-- The tokens of a whole text. -/
def ofChars? (cs : List Char) : Option (List Token) := readAll cs.length cs

end Token

end GraphRequest.Document
