import GraphRequest.Proofs.Document.Renumbered
import GraphRequest.Proofs.Document.Sources

/-!
# Tokens of texts with other numbers

The tokens of two texts that are the same up to the numbers of their variables are the same up to
what stands inside strings and up to names that the grammar gives no meaning to. A reference may
stand anywhere in a text, also in a string or in a comment.

* `Alike`: tokens that the grammar does not tell apart.
* `InStep`: a reader of numbers goes the same way through both texts.
* `read_renumbered`: the tokens that two such texts begin with.
* `lexes_renumbered`: all their tokens.
-/

namespace GraphRequest.Document.Token

/-- The names that mean something to the grammar by themselves: those of executable definitions, of
literals, of definitions of a type system, and of the places that a directive may stand at. -/
def keywords : List String :=
  ["on", "query", "mutation", "subscription", "fragment", "true", "false", "null", "schema",
    "scalar", "type", "interface", "union", "enum", "input", "extend", "directive", "implements",
    "repeatable", "QUERY", "MUTATION", "SUBSCRIPTION", "FIELD", "FRAGMENT_DEFINITION",
    "FRAGMENT_SPREAD", "INLINE_FRAGMENT", "VARIABLE_DEFINITION", "SCHEMA", "SCALAR", "OBJECT",
    "FIELD_DEFINITION", "ARGUMENT_DEFINITION", "INTERFACE", "UNION", "ENUM", "ENUM_VALUE",
    "INPUT_OBJECT", "INPUT_FIELD_DEFINITION"]

/-- Tokens that the grammar does not tell apart. -/
inductive Alike : Token → Token → Prop
  | same (t : Token) : Alike t t
  | string (v w : String) : Alike (.string v) (.string w)
  | block (v w : String) : Alike (.block v) (.block w)
  | name {m n : String} (first : m ∉ keywords) (second : n ∉ keywords) :
      Alike (.name m) (.name n)

theorem Alike.symm {t u : Token} (h : Alike t u) : Alike u t := by
  cases h with
  | same t => exact .same t
  | string v w => exact .string w v
  | block v w => exact .block w v
  | name first second => exact .name second first

variable {P : Char → Prop} {R : Nat → Nat → Prop} {cs ds rest : List Char} {t : Token}

namespace Renumbered

/-! ### Beginnings -/

/-- A beginning without dollar signs is the same in both texts. -/
theorem of_append {as : List Char} (h : Renumbered P R (as ++ cs) ds) (absent : '$' ∉ as) :
    ∃ es, ds = as ++ es ∧ Renumbered P R cs es := by
  induction as generalizing ds with
  | nil => exact ⟨ds, rfl, h⟩
  | cons a as ih =>
    rw [List.mem_cons, not_or] at absent
    rw [List.cons_append] at h
    generalize whole : as ++ cs = ws at h
    cases h with
    | char copied rest =>
      rw [← whole] at rest
      obtain ⟨es, rfl, related⟩ := ih rest absent.2
      exact ⟨es, rfl, related⟩
    | reference => exact absurd rfl absent.1

/-- The texts have the same beginnings without dollar signs. -/
theorem isPrefix_iff (h : Renumbered P R cs ds) {as : List Char} (absent : '$' ∉ as) :
    as <+: cs ↔ as <+: ds := by
  constructor
  · rintro ⟨others, rfl⟩
    obtain ⟨es, rfl, _⟩ := h.of_append absent
    exact ⟨es, rfl⟩
  · rintro ⟨others, rfl⟩
    obtain ⟨es, rfl, _⟩ := h.symm.of_append absent
    exact ⟨es, rfl⟩

/-- A run of characters without a dollar sign is the same in both texts, and so is what follows. -/
theorem span (h : Renumbered P R cs ds) {p : Char → Bool} (absent : '$' ∉ cs.takeWhile p) :
    ds.takeWhile p = cs.takeWhile p ∧ Renumbered P R (cs.dropWhile p) (ds.dropWhile p) := by
  induction h with
  | nil => exact ⟨rfl, .nil⟩
  | @char c cs ds copied rest ih =>
    rw [List.takeWhile_cons] at absent
    rw [List.takeWhile_cons, List.takeWhile_cons, List.dropWhile_cons, List.dropWhile_cons]
    cases hp : p c with
    | false => exact ⟨rfl, .char copied rest⟩
    | true =>
      rw [hp, if_pos rfl, List.mem_cons, not_or] at absent
      obtain ⟨same, related⟩ := ih absent.2
      exact ⟨congrArg (c :: ·) same, related⟩
  | @reference m n cs ds renumbered closed rest ih =>
    by_cases hp : p '$' = true
    · rw [List.takeWhile_cons_of_pos hp] at absent
      exact absurd (.head _) absent
    · rw [List.takeWhile_cons_of_neg hp, List.takeWhile_cons_of_neg hp,
        List.dropWhile_cons_of_neg hp, List.dropWhile_cons_of_neg hp]
      exact ⟨rfl, .reference renumbered closed rest⟩

/-- A run of characters among which no dollar sign can be. -/
theorem spanOf (h : Renumbered P R cs ds) {p : Char → Bool} (excluded : p '$' = false) :
    ds.takeWhile p = cs.takeWhile p ∧ Renumbered P R (cs.dropWhile p) (ds.dropWhile p) := by
  refine h.span fun mem => ?_
  rw [List.mem_takeWhile_imp mem] at excluded
  cases excluded

/-- What follows a run of characters among which all those of references are. -/
theorem dropWhile (h : Renumbered P R cs ds) {p : Char → Bool}
    (included : ∀ n, ∀ c ∈ '$' :: 'v' :: Decimal.digitChars n, p c = true) :
    Renumbered P R (cs.dropWhile p) (ds.dropWhile p) := by
  induction h with
  | nil => exact .nil
  | @char c cs ds copied rest ih =>
    rw [List.dropWhile_cons, List.dropWhile_cons]
    split
    · exact ih
    · exact .char copied rest
  | @reference m n cs ds renumbered closed rest ih =>
    have whole (n : Nat) (cs : List Char) :
        ('$' :: 'v' :: (Decimal.digitChars n ++ cs)).dropWhile p = cs.dropWhile p :=
      List.dropWhile_append_of_pos (included n)
    rw [whole, whole]
    exact ih

end Renumbered

/-! ### Numbers -/

/-- A reader reads the same from both texts, and what it leaves of them differs in numbers only. -/
def InStep (P : Char → Prop) (R : Nat → Nat → Prop) {α : Type}
    (read : List Char → Option (α × List Char)) : Prop :=
  ∀ ⦃cs ds : List Char⦄ ⦃a : α⦄ ⦃rest : List Char⦄, Renumbered P R cs ds →
    read cs = some (a, rest) → ∃ rest', read ds = some (a, rest') ∧ Renumbered P R rest rest'

/-- A reader that looks one character ahead goes the same way through both texts. -/
theorem Local.inStep {α : Type} {read : List Char → Option (α × List Char)} (h : Local read) :
    InStep P R read := by
  intro cs ds a rest related reads
  obtain ⟨as, rfl, plain, again⟩ := h reads
  have absent : '$' ∉ as := fun dollar => absurd (plain '$' dollar) (by decide)
  obtain ⟨rest', rfl, behind⟩ := related.of_append absent
  refine ⟨rest', again rest' fun c hc => .inr ?_, behind⟩
  rw [behind.head?_eq]
  exact hc

/-! ### Strings -/

/-- What an escape is made of: some characters without a dollar sign, whatever follows them. -/
def ReadsFrom (read : List Char → Option (Char × List Char)) (cs : List Char) (c : Char)
    (rest : List Char) : Prop :=
  ∃ as, '$' ∉ as ∧ cs = as ++ rest ∧ ∀ others, read (as ++ others) = some (c, others)

theorem readsFrom_readEscape {c : Char} (read : readEscape cs = some (c, rest)) :
    ReadsFrom readEscape cs c rest := by
  obtain ⟨as, escaped, split, each⟩ := escapeSource_readEscape read
  exact ⟨as, fun dollar => absurd (escaped '$' dollar) (by decide), split, each⟩

theorem ReadsFrom.renumbered {read : List Char → Option (Char × List Char)} {c : Char}
    (from_ : ReadsFrom read cs c rest) (h : Renumbered P R cs ds) :
    ∃ rest', read ds = some (c, rest') ∧ Renumbered P R rest rest' := by
  obtain ⟨as, absent, rfl, each⟩ := from_
  obtain ⟨rest', rfl, related⟩ := h.of_append absent
  exact ⟨rest', each rest', related⟩

/-- A character that stands for itself in a string. -/
def isInert (c : Char) : Bool := !(c == '\x22' || isBreak c || c == '\\')

theorem isInert_of_isDigit {c : Char} (h : c.isDigit = true) : isInert c = true := by
  have quote := Value.ne_of_isDigit h (d := '\x22') (by decide)
  have feed := Value.ne_of_isDigit h (d := '\n') (by decide)
  have turn := Value.ne_of_isDigit h (d := '\r') (by decide)
  have slash := Value.ne_of_isDigit h (d := '\\') (by decide)
  simp [isInert, isBreak, quote, feed, turn, slash]

/-- A reference stands for itself in a string. -/
theorem isInert_reference (n : Nat) :
    ∀ c ∈ '$' :: 'v' :: Decimal.digitChars n, isInert c = true := by
  intro c hc
  rcases List.mem_cons.1 hc with rfl | hc
  · decide
  · rcases List.mem_cons.1 hc with rfl | hc
    · decide
    · exact isInert_of_isDigit (Value.isDigit_digitChars c hc)

/-- Behind its opening quote, a string goes as far as another text. -/
inductive StringEnds : List Char → List Char → Prop
  | quote (rest : List Char) : StringEnds ('\x22' :: rest) rest
  | escape {c : Char} {cs others rest : List Char} (escape : readEscape cs = some (c, others))
      (ends : StringEnds others rest) : StringEnds ('\\' :: cs) rest
  | inert {c : Char} {cs rest : List Char} (inert : isInert c = true) (ends : StringEnds cs rest) :
      StringEnds (c :: cs) rest

theorem stringEnds_of_readString {fuel : Nat} {s : List Char}
    (h : readString fuel cs = some (s, rest)) : StringEnds cs rest := by
  induction fuel generalizing cs s with
  | zero => cases h
  | succ fuel ih =>
    cases cs with
    | nil => cases h
    | cons c cs =>
      rw [readString] at h
      by_cases quote : (c == '\x22') = true
      · rw [if_pos quote] at h
        cases h
        rw [eq_of_beq quote]
        exact .quote _
      · rw [if_neg quote] at h
        by_cases broken : isBreak c = true
        · rw [if_pos broken] at h
          cases h
        · rw [if_neg broken] at h
          by_cases slash : (c == '\\') = true
          · rw [if_pos slash] at h
            obtain ⟨⟨e, others⟩, escape, h⟩ := Option.bind_eq_some_iff.1 h
            obtain ⟨⟨s, others'⟩, read, h⟩ := Option.bind_eq_some_iff.1 h
            cases h
            rw [eq_of_beq slash]
            exact .escape escape (ih read)
          · rw [if_neg slash] at h
            obtain ⟨⟨s, others⟩, read, h⟩ := Option.bind_eq_some_iff.1 h
            cases h
            refine .inert ?_ (ih read)
            simp only [isInert, quote, broken, slash]
            rfl

theorem StringEnds.exists_readString {fuel : Nat} (h : StringEnds cs rest)
    (enough : cs.length < fuel) : ∃ s, readString fuel cs = some (s, rest) := by
  induction h generalizing fuel with
  | quote rest =>
    cases fuel with
    | zero => cases enough
    | succ fuel => exact ⟨[], rfl⟩
  | @escape c cs others rest escape ends ih =>
    cases fuel with
    | zero => cases enough
    | succ fuel =>
      have shorter := length_readEscape escape
      rw [List.length_cons] at enough
      obtain ⟨s, read⟩ := ih (show others.length < fuel by omega)
      refine ⟨c :: s, ?_⟩
      rw [readString, if_neg (by decide), if_neg (by decide), if_pos (by decide), escape]
      show (readString fuel others >>= _) = _
      rw [read]
      rfl
  | @inert c cs rest inert ends ih =>
    cases fuel with
    | zero => cases enough
    | succ fuel =>
      obtain ⟨s, read⟩ := ih (Nat.lt_of_succ_lt_succ enough)
      simp only [isInert, Bool.not_eq_true', Bool.or_eq_false_iff] at inert
      obtain ⟨⟨quote, broken⟩, slash⟩ := inert
      refine ⟨c :: s, ?_⟩
      rw [readString, quote, broken, slash, if_neg (by decide), if_neg (by decide),
        if_neg (by decide), read]
      rfl

theorem stringEnds_append {as : List Char} (inert : ∀ a ∈ as, isInert a = true) :
    StringEnds (as ++ cs) rest ↔ StringEnds cs rest := by
  induction as with
  | nil => rfl
  | cons a as ih =>
    rw [← ih fun b hb => inert b (.tail _ hb), List.cons_append]
    constructor
    · intro h
      cases h with
      | quote => exact absurd (inert _ (.head _)) (by decide)
      | escape => exact absurd (inert _ (.head _)) (by decide)
      | inert _ ends => exact ends
    · exact .inert (inert a (.head _))

/-- Strings end at the same place of both texts. -/
theorem StringEnds.renumbered (ends : StringEnds cs rest) (h : Renumbered P R cs ds) :
    ∃ rest', StringEnds ds rest' ∧ Renumbered P R rest rest' := by
  -- The induction is on the text: an escape and a reference each take several of its characters.
  induction hlen : cs.length using Nat.strong_induction_on generalizing cs ds with
  | _ len ih =>
    subst hlen
    cases h with
    | nil => cases ends
    | @char c cs ds copied related =>
      cases ends with
      | quote => exact ⟨ds, .quote ds, related⟩
      | escape escape ends =>
        obtain ⟨es, escape', behind⟩ := (readsFrom_readEscape escape).renumbered related
        obtain ⟨rest', ends', last⟩ := ih _ (Nat.lt_succ_of_lt (length_readEscape escape)) ends
          behind rfl
        exact ⟨rest', .escape escape' ends', last⟩
      | inert inert ends =>
        obtain ⟨rest', ends', last⟩ := ih _ (Nat.lt_succ_self _) ends related rfl
        exact ⟨rest', .inert inert ends', last⟩
    | @reference m n cs ds renumbered closed related =>
      have behind : StringEnds cs rest := (stringEnds_append (isInert_reference m)).1 ends
      obtain ⟨rest', ends', last⟩ := ih cs.length
        (by simp only [List.length_cons, List.length_append]; omega) behind related rfl
      exact ⟨rest', (stringEnds_append (isInert_reference n)).2 ends', last⟩

/-- Behind its opening quotes, a block string goes as far as another text. -/
inductive BlockEnds : List Char → List Char → Prop
  | quotes (rest : List Char) : BlockEnds (BlockText.quotes ++ rest) rest
  | escaped {cs rest : List Char} (ends : BlockEnds cs rest) :
      BlockEnds ('\\' :: BlockText.quotes ++ cs) rest
  | char {c : Char} {cs rest : List Char} (unquoted : ¬ BlockText.quotes <+: c :: cs)
      (unescaped : ¬ '\\' :: BlockText.quotes <+: c :: cs) (ends : BlockEnds cs rest) :
      BlockEnds (c :: cs) rest

theorem blockEnds_of_readBlock {s : List Char} (h : readBlock cs = some (s, rest)) :
    BlockEnds cs rest := by
  induction cs using readBlock.induct generalizing s with
  | case1 => cases h
  | case2 rest' =>
    cases h
    exact .quotes rest
  | case3 rest' ih =>
    rw [readBlock] at h
    obtain ⟨⟨s', others⟩, read, h⟩ := Option.bind_eq_some_iff.1 h
    cases h
    exact .escaped (ih read)
  | case4 c cs unquoted unescaped ih =>
    rw [readBlock.eq_4 c cs unquoted unescaped] at h
    obtain ⟨⟨s', others⟩, read, h⟩ := Option.bind_eq_some_iff.1 h
    cases h
    refine .char ?_ ?_ (ih read)
    · rintro ⟨others, same⟩
      cases same
      exact unquoted others rfl rfl
    · rintro ⟨others, same⟩
      cases same
      exact unescaped others rfl rfl

theorem BlockEnds.exists_readBlock (h : BlockEnds cs rest) :
    ∃ s, readBlock cs = some (s, rest) := by
  induction h with
  | quotes rest => exact ⟨[], rfl⟩
  | @escaped cs rest ends ih =>
    obtain ⟨s, read⟩ := ih
    refine ⟨'\x22' :: '\x22' :: '\x22' :: s, ?_⟩
    show readBlock ('\\' :: '\x22' :: '\x22' :: '\x22' :: cs) = _
    rw [readBlock, read]
    rfl
  | @char c cs rest unquoted unescaped ends ih =>
    obtain ⟨s, read⟩ := ih
    refine ⟨c :: s, ?_⟩
    rw [readBlock, read]
    · rfl
    · rintro others rfl rfl
      exact unquoted ⟨others, rfl⟩
    · rintro others rfl rfl
      exact unescaped ⟨others, rfl⟩

theorem blockEnds_cons {c : Char} (inert : isInert c = true) :
    BlockEnds (c :: cs) rest ↔ BlockEnds cs rest := by
  constructor
  · intro h
    generalize whole : c :: cs = ws at h
    cases h with
    | quotes =>
      cases whole
      exact absurd inert (by decide)
    | escaped =>
      cases whole
      exact absurd inert (by decide)
    | char _ _ ends =>
      cases whole
      exact ends
  · refine .char ?_ ?_
    · rintro ⟨others, same⟩
      cases same
      exact absurd inert (by decide)
    · rintro ⟨others, same⟩
      cases same
      exact absurd inert (by decide)

theorem blockEnds_append {as : List Char} (inert : ∀ a ∈ as, isInert a = true) :
    BlockEnds (as ++ cs) rest ↔ BlockEnds cs rest := by
  induction as with
  | nil => rfl
  | cons a as ih =>
    rw [List.cons_append, blockEnds_cons (inert a (.head _)), ih fun b hb => inert b (.tail _ hb)]

/-- Block strings end at the same place of both texts. -/
theorem BlockEnds.renumbered (ends : BlockEnds cs rest) (h : Renumbered P R cs ds) :
    ∃ rest', BlockEnds ds rest' ∧ Renumbered P R rest rest' := by
  induction hlen : cs.length using Nat.strong_induction_on generalizing cs ds with
  | _ len ih =>
    subst hlen
    cases ends with
    | quotes =>
      obtain ⟨es, rfl, related⟩ := h.of_append (by decide)
      exact ⟨es, .quotes es, related⟩
    | escaped ends =>
      obtain ⟨es, rfl, related⟩ := h.of_append (by decide)
      obtain ⟨rest', ends', last⟩ := ih _
        (by simp only [List.length_append, List.length_cons]; omega) ends related rfl
      exact ⟨rest', .escaped ends', last⟩
    | char unquoted unescaped ends =>
      rw [h.isPrefix_iff (by decide)] at unquoted unescaped
      cases h with
      | char copied related =>
        obtain ⟨rest', ends', last⟩ := ih _ (Nat.lt_succ_self _) ends related rfl
        exact ⟨rest', .char unquoted unescaped ends', last⟩
      | @reference m n cs ds renumbered closed related =>
        have inert (n : Nat) : ∀ c ∈ 'v' :: Decimal.digitChars n, isInert c = true :=
          fun c hc => isInert_reference n c (.tail _ hc)
        have behind : BlockEnds cs rest := (blockEnds_append (inert m)).1 ends
        obtain ⟨rest', ends', last⟩ := ih cs.length
          (by simp only [List.length_cons, List.length_append]; omega) behind related rfl
        exact ⟨rest', (blockEnds_append (isInert_reference n)).2 ends', last⟩

/-! ### Tokens -/

/-- The tokens that two texts begin with, unless they begin with a reference. -/
theorem read_renumbered {c : Char} (copied : P c) (h : Renumbered P R cs ds)
    (read : Token.read (c :: cs) = some (t, rest)) :
    ∃ t' rest', Token.read (c :: ds) = some (t', rest') ∧ Alike t t' ∧
      Renumbered P R rest rest' := by
  by_cases point : c = '.'
  · subst point
    obtain ⟨rfl, rfl⟩ := read_spread read
    have points : Renumbered P R (['.', '.'] ++ rest) ds := h
    obtain ⟨es, rfl, related⟩ := points.of_append (by decide)
    exact ⟨.spread, es, rfl, .same _, related⟩
  by_cases quote : c = '\x22'
  · subst quote
    by_cases block : ['\x22', '\x22'] <+: cs
    · obtain ⟨cs, rfl⟩ := block
      obtain ⟨es, rfl, related⟩ := h.of_append (by decide)
      obtain ⟨⟨s, others⟩, block, same⟩ := Option.map_eq_some_iff.1 read
      cases same
      obtain ⟨rest', ends, last⟩ := (blockEnds_of_readBlock block).renumbered related
      obtain ⟨s', block'⟩ := ends.exists_readBlock
      refine ⟨.block (String.ofList (BlockText.value s')), rest', ?_, .block _ _, last⟩
      show (readBlock es).map _ = _
      rw [block']
      rfl
    · rw [read_string block] at read
      rw [h.isPrefix_iff (by decide)] at block
      obtain ⟨⟨s, others⟩, string, same⟩ := Option.map_eq_some_iff.1 read
      cases same
      obtain ⟨rest', ends, last⟩ := (stringEnds_of_readString string).renumbered h
      obtain ⟨s', string'⟩ := ends.exists_readString (Nat.lt_succ_self _)
      refine ⟨.string (String.ofList s'), rest', ?_, .string _ _, last⟩
      rw [read_string block, string']
      rfl
  rw [read_other quote point] at read ⊢
  split at read
  · rename_i mark
    cases read
    exact ⟨_, ds, if_pos mark, .same _, h⟩
  · rename_i mark
    rw [if_neg mark]
    split at read
    · rename_i start
      cases read
      obtain ⟨same, related⟩ := h.spanOf (p := isNameChar) (by decide)
      refine ⟨_, _, if_pos start, ?_, related⟩
      rw [same]
      exact .same _
    · rename_i start
      rw [if_neg start]
      split at read
      · rename_i digit
        obtain ⟨rest', number, related⟩ := local_readNumber.inStep (.char copied h) read
        exact ⟨t, rest', by rw [if_pos digit, number], .same _, related⟩
      · cases read

/-! ### Whole texts -/

theorem ofList_reference_not_mem (n : Nat) :
    String.ofList ('v' :: Decimal.digitChars n) ∉ keywords := by
  intro mem
  have : ∀ k ∈ keywords, k.toList.head? ≠ some 'v' := by decide +kernel
  exact this _ mem (by rw [String.toList_ofList]; rfl)

theorem isName_reference (n : Nat) : isName ('v' :: Decimal.digitChars n) = true := by
  have digits : ∀ c ∈ Decimal.digitChars n, isNameChar c = true := by
    intro c hc
    simp [isNameChar, Char.isAlphanum, Value.isDigit_digitChars c hc]
  have start : isNameStart 'v' = true := by decide
  rw [isName, start, List.all_eq_true.2 digits]
  rfl

/-- A reference is a dollar sign and a name. -/
theorem lexes_reference {n : Nat} (closed : Closed cs) {ts : List Token} :
    Lexes ('$' :: 'v' :: (Decimal.digitChars n ++ cs)) ts ↔
      ∃ us, ts = .punctuator '$' :: .name (String.ofList ('v' :: Decimal.digitChars n)) :: us ∧
        Lexes cs us := by
  rw [lexes_punctuator (by decide)]
  constructor
  · rintro ⟨us, rfl, lexes⟩
    obtain ⟨us, rfl, behind⟩ := (lexes_name (isName_reference n) closed).1 lexes
    exact ⟨us, rfl, behind⟩
  · rintro ⟨us, rfl, behind⟩
    exact ⟨_, rfl, (lexes_name (isName_reference n) closed).2 ⟨us, rfl, behind⟩⟩

/-- The tokens of two texts that differ in the numbers of their variables. -/
theorem lexes_renumbered {ts : List Token} (lexes : Lexes cs ts) (h : Renumbered P R cs ds) :
    ∃ us, Lexes ds us ∧ List.Forall₂ Alike ts us := by
  induction hlen : cs.length using Nat.strong_induction_on generalizing cs ds ts with
  | _ len ih =>
    subst hlen
    cases h with
    | nil =>
      cases lexes
      exact ⟨[], .nil, .nil⟩
    | @char c cs ds copied related =>
      cases lexes with
      | ignored ignored lexes =>
        obtain ⟨us, lexes', alike⟩ := ih _ (Nat.lt_succ_self _) lexes related rfl
        exact ⟨us, .ignored ignored lexes', alike⟩
      | comment lexes =>
        have behind := related.dropWhile (p := (!isBreak ·)) fun n c hc => by
          have := isInert_reference n c hc
          simp only [isInert, Bool.not_eq_true', Bool.or_eq_false_iff] at this ⊢
          exact this.1.2
        obtain ⟨us, lexes', alike⟩ := ih _ (Nat.lt_succ_of_le (length_dropWhile_le _ _)) lexes
          behind rfl
        exact ⟨us, .comment lexes', alike⟩
      | token meant starts read lexes =>
        obtain ⟨t', rest', read', alike, behind⟩ := read_renumbered copied related read
        obtain ⟨us, lexes', others⟩ := ih _ (length_read read) lexes behind rfl
        exact ⟨t' :: us, .token meant starts read' lexes', .cons alike others⟩
    | @reference m n cs ds renumbered closed related =>
      obtain ⟨ts, rfl, behind⟩ := (lexes_reference closed).1 lexes
      obtain ⟨us, lexes', alike⟩ := ih cs.length
        (by simp only [List.length_cons, List.length_append]; omega) behind related rfl
      have names := Alike.name (ofList_reference_not_mem m) (ofList_reference_not_mem n)
      exact ⟨_, (lexes_reference (related.closed closed)).2 ⟨us, rfl, lexes'⟩,
        .cons (.same _) (.cons names alike)⟩

end GraphRequest.Document.Token
