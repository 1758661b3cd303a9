/-!
# Block strings

The value of a block string leaves out the indentation that all its lines but the first share, and
the blank lines at both ends. `layout` is the form it is written in.
-/

namespace GraphRequest.Document.BlockText

/-- A space or a tab. -/
def isIndent (c : Char) : Bool := c == ' ' || c == '\t'

/-- The lines of a text, without the breaks between them: a line feed, a carriage return, or both in
this order. No other character ends a line. -/
def rawLines : List Char → List (List Char)
  | [] => [[]]
  | '\r' :: '\n' :: cs => [] :: rawLines cs
  | c :: cs =>
    if c == '\n' || c == '\r' then [] :: rawLines cs
    else match rawLines cs with
      | [] => [[c]]
      | l :: ls => (c :: l) :: ls

/-- Whether a line holds indentation only. -/
def isEmptyLine (line : List Char) : Bool := line.all isIndent

/-- The indentation of a line. -/
def indentOf (line : List Char) : Nat := (line.takeWhile isIndent).length

/-- The least indentation of the lines that are not empty. -/
def commonIndent (ls : List (List Char)) : Nat :=
  (((ls.filter (!isEmptyLine ·)).map indentOf).min?).getD 0

/-- The lines without the empty ones at both ends. -/
def trimLines (ls : List (List Char)) : List (List Char) :=
  ((ls.dropWhile isEmptyLine).reverse.dropWhile isEmptyLine).reverse

/-- Lines put together with line feeds between them. -/
def joinLines : List (List Char) → List Char
  | [] => []
  | [l] => l
  | l :: ls => l ++ '\n' :: joinLines ls

/-- The lines of a raw text as they count: shared indentation removed, empty ends dropped. -/
def valueLines (raw : List Char) : List (List Char) :=
  match rawLines raw with
  | [] => []
  | first :: rest =>
    let n := commonIndent rest
    let cut := first :: rest.map (·.drop n)
    let kept := first :: rest
    let before := (kept.takeWhile isEmptyLine).length
    let count := (trimLines kept).length
    (cut.drop before).take count

/-- The value of a block string. -/
def value (raw : List Char) : List Char := joinLines (valueLines raw)

/-- A text with each run of three quotes escaped. -/
def escapeQuotes : List Char → List Char
  | '\x22' :: '\x22' :: '\x22' :: cs => '\\' :: '\x22' :: '\x22' :: '\x22' :: escapeQuotes cs
  | c :: cs => c :: escapeQuotes cs
  | [] => []

/-- Whether a text ends in another one. -/
def endsIn (cs part : List Char) : Bool := part.isSuffixOf cs

/-- Three quotes. -/
def quotes : List Char := ['\x22', '\x22', '\x22']

/-- The written form of a block string: on lines of its own when it has several lines, is longer
than seventy characters, or ends in a quote or a backslash. -/
def layout (v : List Char) : List Char :=
  let escaped := escapeQuotes v
  let ls := rawLines escaped
  let several := 1 < ls.length
  let startsIndented (l : List Char) : Bool :=
    l.isEmpty || (l.head?.map isIndent).getD false
  let forcedBefore := several && (ls.drop 1).all startsIndented
  let tripleEnd := endsIn escaped ('\\' :: quotes)
  let quoteEnd := endsIn v ['\x22'] && !tripleEnd
  let forcedAfter := quoteEnd || endsIn v ['\\']
  let multiple := several || 70 < v.length || forcedAfter || forcedBefore || tripleEnd
  let skipBefore := !several && (v.head?.map isIndent).getD false
  let before := if (multiple && !skipBefore) || forcedBefore then ['\n'] else []
  let after := if multiple || forcedAfter then ['\n'] else []
  quotes ++ before ++ escaped ++ after ++ quotes

theorem joinLines_singleton (l : List Char) : joinLines [l] = l := rfl

example : value "\n    two\n      lines\n    ".toList = "two\n  lines".toList := by decide
example : layout "block".toList = "\"\"\"block\"\"\"".toList := by decide
example : layout "one\x0btwo".toList = "\"\"\"one\x0btwo\"\"\"".toList := by decide
example : layout "a\nb".toList = "\"\"\"\na\nb\n\"\"\"".toList := by decide

end GraphRequest.Document.BlockText
