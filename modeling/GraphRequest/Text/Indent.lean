import GraphRequest.Text.Blank

/-!
# Lines and indentation

A line ends at a line feed, a carriage return, both in this order, or one of the other line and
section separators. Indenting puts two spaces before every line that is not blank.

* `flatten_lines`: the lines of a text, put together again, are the text.
-/

namespace GraphRequest.Text

/-- The characters that end a line. -/
def isLineEnd (c : Char) : Bool :=
  let n := c.toNat
  (0xa ≤ n && n ≤ 0xd) || (0x1c ≤ n && n ≤ 0x1e) || n == 0x85 || n == 0x2028 || n == 0x2029

/-- The lines of a text, each with the character or the pair of characters that ends it. -/
def lines : List Char → List (List Char)
  | [] => []
  | c :: cs =>
    if isLineEnd c && !(c == '\r' && cs.head? == some '\n') then [c] :: lines cs
    else match lines cs with
      | [] => [[c]]
      | l :: ls => (c :: l) :: ls

/-- Two spaces before a line, unless it is blank. -/
def indentLine (line : List Char) : List Char :=
  if line.all isBlank then line else ' ' :: ' ' :: line

/-- The text with every line indented. -/
def indentChars (cs : List Char) : List Char := (lines cs).flatMap indentLine

/-- The text with every line indented. -/
def indent (s : String) : String := String.ofList (indentChars s.toList)

theorem flatten_lines (cs : List Char) : (lines cs).flatten = cs := by
  induction cs with
  | nil => rfl
  | cons c cs ih =>
    unfold lines
    split
    · simp [ih]
    · split
      · rename_i h
        rw [h] at ih
        simp at ih
        simp [← ih]
      · rename_i h
        rw [h] at ih
        simpa using ih

end GraphRequest.Text
