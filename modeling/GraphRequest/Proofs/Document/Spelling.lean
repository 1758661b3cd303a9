import GraphRequest.Document.Token
import GraphRequest.Text.Indent

/-!
# How tokens are spelled

The texts that are made of names and punctuators with ignored characters between them. Two such
texts in a row are one again unless a name runs into the other text, and moving the lines of such a
text to the right changes only what is ignored.

* `Spells`: a text spells tokens.
* `trim`: a text without the white space at its ends.
* `Spells.ofChars?`: the tokens that a text spells are those that are read from it.
* `Spells.append`, `Spells.indent`: texts one after the other, and moved to the right.
-/

namespace GraphRequest.Document.Token

/-- The first character of a text, if there is one, does not continue a name. -/
def Closed (cs : List Char) : Prop := ∀ c ∈ cs.head?, isNameChar c = false

/-- A text of names and punctuators, with ignored characters between them, spells tokens. -/
inductive Spells : List Token → List Char → Prop
  | nil : Spells [] []
  | ignored {c : Char} {ts : List Token} {cs : List Char} (h : isIgnored c = true)
      (spells : Spells ts cs) : Spells ts (c :: cs)
  | punctuator {c : Char} {ts : List Token} {cs : List Char} (h : isPunctuator c = true)
      (spells : Spells ts cs) : Spells (.punctuator c :: ts) (c :: cs)
  | name {n : List Char} {ts : List Token} {cs : List Char} (h : isName n = true)
      (closed : Closed cs) (spells : Spells ts cs) :
      Spells (.name (String.ofList n) :: ts) (n ++ cs)

/-! ### Kinds of characters -/

theorem isNameChar_of_isNameStart {c : Char} (h : isNameStart c = true) : isNameChar c = true := by
  simp only [isNameStart, isNameChar, Char.isAlphanum, Bool.or_eq_true] at h ⊢
  rcases h with h | h
  · exact .inl (.inl h)
  · exact .inr h

theorem isNameStart_and_isNameChar_of_isName {n : List Char} (h : isName n = true) :
    ∃ c cs, n = c :: cs ∧ isNameStart c = true ∧ ∀ d ∈ n, isNameChar d = true := by
  cases n with
  | nil => cases h
  | cons c cs =>
    simp only [isName, Bool.and_eq_true, List.all_eq_true] at h
    refine ⟨c, cs, rfl, h.1, ?_⟩
    intro d hd
    rcases List.mem_cons.1 hd with rfl | hd
    · exact isNameChar_of_isNameStart h.1
    · exact h.2 d hd

/-- The characters of names are letters, digits and the underscore of ASCII. -/
theorem toNat_of_isNameChar {c : Char} (h : isNameChar c = true) :
    48 ≤ c.toNat ∧ c.toNat ≤ 122 := by
  have letters : c.isAlpha = (decide ('A'.val ≤ c.val ∧ c.val ≤ 'Z'.val) ||
      decide ('a'.val ≤ c.val) && decide (c.val ≤ 'z'.val)) := rfl
  simp only [isNameChar, Char.isAlphanum, letters, Char.isDigit, Bool.or_eq_true,
    Bool.and_eq_true, decide_eq_true_eq, UInt32.le_iff_toNat_le, ge_iff_le, beq_iff_eq] at h
  have value : c.toNat = c.val.toNat := rfl
  have upper : 'A'.val.toNat = 65 ∧ 'Z'.val.toNat = 90 := ⟨rfl, rfl⟩
  have lower : 'a'.val.toNat = 97 ∧ 'z'.val.toNat = 122 := ⟨rfl, rfl⟩
  have digit : '0'.val.toNat = 48 ∧ '9'.val.toNat = 57 := ⟨rfl, rfl⟩
  rcases h with ((h | h) | h) | rfl
  · omega
  · omega
  · omega
  · decide

theorem isLineEnd_of_isNameChar {c : Char} (h : isNameChar c = true) :
    Text.isLineEnd c = false := by
  have bounds := toNat_of_isNameChar h
  simp only [Text.isLineEnd, Bool.or_eq_false_iff, Bool.and_eq_false_iff, decide_eq_false_iff_not,
    beq_eq_false_iff_ne]
  omega

/-- The punctuators of one character. -/
def punctuators : List Char :=
  ['!', '$', '&', '(', ')', ':', '=', '@', '[', ']', '\x7b', '|', '\x7d']

theorem mem_of_isPunctuator {c : Char} (h : isPunctuator c = true) : c ∈ punctuators :=
  List.contains_iff_mem.1 h

/-- A test that fails on all punctuators of one character fails on any of them. -/
theorem not_of_isPunctuator {p : Char → Bool} {c : Char} (h : isPunctuator c = true)
    (fails : punctuators.any p = false) : p c = false := by
  rw [List.any_eq_false] at fails
  exact Bool.eq_false_iff.2 (fails c (mem_of_isPunctuator h))

/-- A name starts with none of the characters that mean something else. -/
theorem isIgnored_of_isNameChar {c : Char} (h : isNameChar c = true) :
    isIgnored c = false ∧ isPunctuator c = false ∧ c ∉ ['#', '.', '\x22'] := by
  have others : ['#', '.', '\x22'].any isNameChar = false := by decide
  have marks : punctuators.any isNameChar = false := by decide
  have bounds := toNat_of_isNameChar h
  refine ⟨?_, ?_, ?_⟩
  · simp only [isIgnored, Bool.or_eq_false_iff, beq_eq_false_iff_ne]
    refine ⟨⟨⟨⟨⟨?_, ?_⟩, ?_⟩, ?_⟩, ?_⟩, ?_⟩ <;> rintro rfl <;> revert bounds <;> decide
  · by_cases mark : isPunctuator c = true
    · rw [not_of_isPunctuator mark marks] at h
      cases h
    · exact Bool.eq_false_iff.2 mark
  · intro other
    exact List.any_eq_false.1 others c other h

/-! ### Reading -/

theorem takeWhile_name {n : List Char} (h : ∀ c ∈ n, isNameChar c = true) {cs : List Char}
    (closed : Closed cs) :
    (n ++ cs).takeWhile isNameChar = n ∧ (n ++ cs).dropWhile isNameChar = cs := by
  have rest : cs.takeWhile isNameChar = [] ∧ cs.dropWhile isNameChar = cs := by
    cases cs with
    | nil => exact ⟨rfl, rfl⟩
    | cons c cs =>
      have stop : isNameChar c = false := closed c rfl
      rw [List.takeWhile_cons, List.dropWhile_cons, stop]
      exact ⟨rfl, rfl⟩
  rw [List.takeWhile_append_of_pos h, List.dropWhile_append_of_pos h, rest.1, rest.2,
    List.append_nil]
  exact ⟨rfl, rfl⟩

theorem read_punctuator {c : Char} (h : isPunctuator c = true) (cs : List Char) :
    Token.read (c :: cs) = some (.punctuator c, cs) := by
  have member := mem_of_isPunctuator h
  simp only [punctuators, List.mem_cons, List.not_mem_nil, or_false] at member
  rcases member with rfl | rfl | rfl | rfl | rfl | rfl | rfl | rfl | rfl | rfl | rfl | rfl | rfl <;>
    rfl

theorem read_name {n : List Char} (h : isName n = true) {cs : List Char} (closed : Closed cs) :
    Token.read (n ++ cs) = some (.name (String.ofList n), cs) := by
  obtain ⟨c, n, rfl, start, chars⟩ := isNameStart_and_isNameChar_of_isName h
  obtain ⟨_, mark, other⟩ := isIgnored_of_isNameChar (isNameChar_of_isNameStart start)
  obtain ⟨taken, dropped⟩ := takeWhile_name (fun d hd => chars d (.tail c hd)) closed
  rw [List.cons_append]
  unfold Token.read
  split
  · rename_i heq
    cases heq
  · rename_i heq
    rw [(List.cons.inj heq).1] at other
    simp at other
  · rename_i heq
    rw [(List.cons.inj heq).1] at other
    simp at other
  · rename_i heq
    rw [(List.cons.inj heq).1] at other
    simp at other
  · rename_i heq
    cases heq
    rw [mark, if_neg (by decide), start, if_pos rfl, taken, dropped]

/-- The tokens that a text spells are those that are read from it. -/
theorem Spells.readAll {ts : List Token} {cs : List Char} (h : Spells ts cs) (fuel : Nat)
    (enough : cs.length ≤ fuel) : Token.readAll fuel cs = some ts := by
  induction h generalizing fuel with
  | nil => cases fuel <;> rfl
  | ignored h spells ih =>
    obtain ⟨fuel, rfl⟩ : ∃ n, fuel = n + 1 := ⟨fuel - 1, by simp at enough; omega⟩
    rw [Token.readAll, if_pos h]
    exact ih fuel (by simpa using enough)
  | @punctuator c ts cs h spells ih =>
    obtain ⟨fuel, rfl⟩ : ∃ n, fuel = n + 1 := ⟨fuel - 1, by simp at enough; omega⟩
    have meant : isIgnored c = false := not_of_isPunctuator h (by decide)
    have other : (c == '#') = false := not_of_isPunctuator (p := (· == '#')) h (by decide)
    rw [Token.readAll, meant, if_neg (by decide), other, if_neg (by decide), read_punctuator h]
    simp only [bind, Option.bind, ih fuel (by simpa using enough)]
  | @name n ts cs h closed spells ih =>
    have read := read_name h closed
    obtain ⟨c, n, rfl, start, chars⟩ := isNameStart_and_isNameChar_of_isName h
    obtain ⟨meant, _, other⟩ := isIgnored_of_isNameChar (isNameChar_of_isNameStart start)
    have other : (c == '#') = false := by
      cases same : c == '#' with
      | false => rfl
      | true =>
        rw [eq_of_beq same] at other
        simp at other
    simp only [List.cons_append, List.length_cons, List.length_append] at enough
    obtain ⟨fuel, rfl⟩ : ∃ n, fuel = n + 1 := ⟨fuel - 1, by omega⟩
    rw [List.cons_append] at read ⊢
    rw [Token.readAll, meant, if_neg (by decide), other, if_neg (by decide), read]
    simp only [bind, Option.bind, ih fuel (by omega)]

theorem Spells.ofChars? {ts : List Token} {cs : List Char} (h : Spells ts cs) :
    Token.ofChars? cs = some ts := h.readAll cs.length (Nat.le_refl _)

/-! ### Putting texts together -/

theorem closed_nil : Closed [] := by
  intro c hc
  cases hc

theorem closed_cons {c : Char} (h : isNameChar c = false) (cs : List Char) : Closed (c :: cs) := by
  intro d hd
  cases hd
  exact h

theorem Closed.append {cs ds : List Char} (h : Closed cs) (h' : Closed ds) : Closed (cs ++ ds) := by
  cases cs with
  | nil => exact h'
  | cons c cs => exact h

/-- Texts one after the other spell their tokens one after the other, unless the second one
continues a name. -/
theorem Spells.append {ts us : List Token} {cs ds : List Char} (h : Spells ts cs)
    (h' : Spells us ds) (closed : Closed ds) : Spells (ts ++ us) (cs ++ ds) := by
  induction h with
  | nil => exact h'
  | ignored h spells ih => exact .ignored h ih
  | punctuator h spells ih => exact .punctuator h ih
  | name h stop spells ih =>
    rw [List.append_assoc]
    exact .name h (stop.append closed) ih

theorem closed_of_isIgnored {c : Char} (h : isIgnored c = true) (cs : List Char) :
    Closed (c :: cs) := by
  refine closed_cons ?_ cs
  cases named : isNameChar c with
  | false => rfl
  | true =>
    rw [(isIgnored_of_isNameChar named).1] at h
    cases h

theorem spells_text {s : String} (h : isName s.toList = true) : Spells [.name s] s.toList := by
  have := Spells.name h closed_nil .nil
  rwa [List.append_nil, String.ofList_toList] at this

/-- A name in front of a text that does not continue it. -/
theorem Spells.text {s : String} {ts : List Token} {cs : List Char} (h : isName s.toList = true)
    (closed : Closed cs) (spells : Spells ts cs) : Spells (.name s :: ts) (s.toList ++ cs) :=
  (spells_text h).append spells closed

theorem Spells.ignoredAll {ts : List Token} {cs ds : List Char} (h : ∀ d ∈ ds, isIgnored d = true)
    (spells : Spells ts cs) : Spells ts (ds ++ cs) := by
  induction ds with
  | nil => exact spells
  | cons d ds ih => exact .ignored (h d (.head _)) (ih fun e he => h e (.tail d he))

/-- Texts with a separator between them spell their tokens one after the other. -/
theorem spells_intercalate {α : Type} {sep : String} {tokens : α → List Token}
    {text : α → String} {as : List α} (ignored : sep.toList.all isIgnored = true)
    (present : sep.toList ≠ []) (each : ∀ a ∈ as, Spells (tokens a) (text a).toList) :
    Spells (as.flatMap tokens) (sep.intercalate (as.map text)).toList := by
  rw [List.all_eq_true] at ignored
  induction as with
  | nil =>
    rw [List.map_nil, String.intercalate_nil]
    exact .nil
  | cons a as ih =>
    have first := each a (.head _)
    have others := ih fun b hb => each b (.tail a hb)
    cases as with
    | nil =>
      rw [List.map_cons, List.map_nil, String.intercalate_singleton, List.flatMap_singleton]
      exact first
    | cons b bs =>
      rw [List.map_cons] at others
      rw [List.map_cons, List.map_cons, String.intercalate_cons_cons, String.toList_append,
        String.toList_append, List.append_assoc, List.flatMap_cons]
      apply first.append (others.ignoredAll ignored)
      cases chars : sep.toList with
      | nil => exact absurd chars present
      | cons c cs =>
        rw [chars] at ignored
        exact closed_of_isIgnored (ignored c (.head _)) _

/-! ### White space at the ends -/

/-- Spaces, tabs and line breaks. -/
def isSpace (c : Char) : Bool := c == ' ' || c == '\t' || isBreak c

/-- The text without the white space at its ends. -/
def trim (s : String) : String :=
  String.ofList ((s.toList.dropWhile isSpace).reverse.dropWhile isSpace).reverse

theorem isIgnored_of_isSpace {c : Char} (h : isSpace c = true) : isIgnored c = true := by
  simp only [isSpace, isBreak, Bool.or_eq_true] at h
  rcases h with (h | h) | h | h <;> rw [eq_of_beq h] <;> decide

theorem exists_trim (s : String) : ∃ front back, s.toList = front ++ ((trim s).toList ++ back) ∧
    (∀ c ∈ front, isSpace c = true) ∧ ∀ c ∈ back, isSpace c = true := by
  refine ⟨s.toList.takeWhile isSpace,
    ((s.toList.dropWhile isSpace).reverse.takeWhile isSpace).reverse, ?_, ?_, ?_⟩
  · rw [trim, String.toList_ofList, ← List.reverse_append, List.takeWhile_append_dropWhile,
      List.reverse_reverse, List.takeWhile_append_dropWhile]
  · exact List.all_eq_true.1 List.all_takeWhile
  · exact fun c hc => List.all_eq_true.1 List.all_takeWhile c (List.mem_reverse.1 hc)

theorem trim_of_isName {s : String} (h : isName s.toList = true) : trim s = s := by
  obtain ⟨_, _, _, _, chars⟩ := isNameStart_and_isNameChar_of_isName h
  have kept {cs : List Char} (within : ∀ c ∈ cs, c ∈ s.toList) : cs.dropWhile isSpace = cs := by
    cases cs with
    | nil => rfl
    | cons c cs =>
      have ignored := (isIgnored_of_isNameChar (chars c (within c (.head _)))).1
      refine List.dropWhile_cons_of_neg fun space => ?_
      rw [isIgnored_of_isSpace space] at ignored
      cases ignored
  rw [trim, kept fun c => id, kept fun c => List.mem_reverse.1, List.reverse_reverse,
    String.ofList_toList]

/-- A name with white space around it, in front of a text that does not continue it. -/
theorem Spells.trimmed {s : String} {ts : List Token} {cs : List Char}
    (h : isName (trim s).toList = true) (closed : Closed cs) (spells : Spells ts cs) :
    Spells (.name (trim s) :: ts) (s.toList ++ cs) := by
  obtain ⟨front, back, same, before, behind⟩ := exists_trim s
  have ends : Closed back := by
    cases back with
    | nil => exact closed_nil
    | cons c back => exact closed_of_isIgnored (isIgnored_of_isSpace (behind c (.head _))) back
  rw [same, List.append_assoc, List.append_assoc]
  refine .ignoredAll (fun c hc => isIgnored_of_isSpace (before c hc)) ?_
  refine .text h (ends.append closed) ?_
  exact .ignoredAll (fun c hc => isIgnored_of_isSpace (behind c hc)) spells

/-! ### Indentation -/

/-- The text with every line but the first one indented. -/
def indentRest (cs : List Char) : List Char :=
  match Text.lines cs with
  | [] => []
  | l :: ls => l ++ ls.flatMap Text.indentLine

theorem indentChars_eq (cs : List Char) :
    Text.indentChars cs = indentRest cs ∨ Text.indentChars cs = ' ' :: ' ' :: indentRest cs := by
  unfold Text.indentChars indentRest
  cases Text.lines cs with
  | nil => exact .inl rfl
  | cons l ls =>
    rw [List.flatMap_cons, Text.indentLine]
    split
    · exact .inl rfl
    · exact .inr rfl

/-- Behind a character the indented text goes on, from a new line if it ends one. -/
theorem indentRest_cons (c : Char) (cs : List Char) :
    indentRest (c :: cs) = c :: indentRest cs ∨
      Text.isLineEnd c = true ∧ indentRest (c :: cs) = c :: Text.indentChars cs := by
  unfold indentRest
  by_cases h : (Text.isLineEnd c && !(c == '\r' && cs.head? == some '\n')) = true
  · refine .inr ⟨(Bool.and_eq_true_iff.1 h).1, ?_⟩
    rw [Text.lines, if_pos h]
    rfl
  · rw [Text.lines, if_neg h]
    cases Text.lines cs with
    | nil => exact .inl rfl
    | cons l ls => exact .inl rfl

theorem indentRest_append {n : List Char} (h : ∀ c ∈ n, Text.isLineEnd c = false)
    (cs : List Char) : indentRest (n ++ cs) = n ++ indentRest cs := by
  induction n with
  | nil => rfl
  | cons c n ih =>
    rw [List.cons_append, List.cons_append, ← ih fun d hd => h d (.tail c hd)]
    rcases indentRest_cons c (n ++ cs) with same | ⟨ends, _⟩
    · exact same
    · rw [h c (.head _)] at ends
      cases ends

theorem closed_indentRest {cs : List Char} (h : Closed cs) : Closed (indentRest cs) := by
  cases cs with
  | nil => exact closed_nil
  | cons c cs =>
    rcases indentRest_cons c cs with same | ⟨_, same⟩ <;> rw [same] <;>
      exact closed_cons (h c rfl) _

theorem Spells.indentChars_of_indentRest {ts : List Token} {cs : List Char}
    (h : Spells ts (indentRest cs)) : Spells ts (Text.indentChars cs) := by
  rcases indentChars_eq cs with same | same
  · rw [same]
    exact h
  · rw [same]
    exact .ignored rfl (.ignored rfl h)

theorem Spells.indentRest {ts : List Token} {cs : List Char} (h : Spells ts cs) :
    Spells ts (indentRest cs) := by
  induction h with
  | nil => exact .nil
  | @ignored c ts cs h spells ih =>
    rcases indentRest_cons c cs with same | ⟨_, same⟩
    · rw [same]
      exact .ignored h ih
    · rw [same]
      exact .ignored h ih.indentChars_of_indentRest
  | @punctuator c ts cs h spells ih =>
    rcases indentRest_cons c cs with same | ⟨ends, _⟩
    · rw [same]
      exact .punctuator h ih
    · rw [not_of_isPunctuator h (p := Text.isLineEnd) (by decide)] at ends
      cases ends
  | @name n ts cs h closed spells ih =>
    obtain ⟨c, n', _, _, chars⟩ := isNameStart_and_isNameChar_of_isName h
    rw [indentRest_append fun d hd => isLineEnd_of_isNameChar (chars d hd)]
    exact .name h (closed_indentRest closed) ih

/-- A text that is moved to the right spells the same tokens. -/
theorem Spells.indent {ts : List Token} {cs : List Char} (h : Spells ts cs) :
    Spells ts (Text.indentChars cs) := h.indentRest.indentChars_of_indentRest

end GraphRequest.Document.Token
