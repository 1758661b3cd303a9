import GraphRequest.Proofs.Document.Lookahead

/-!
# The sources of tokens

Every token can be read from its own characters, whatever follows them, as long as that ends it.
Texts on lines of their own therefore lex to the tokens of the first and then those of the second,
and blank characters at the ends of a text mean nothing.

* `Source`, `exists_source`: the characters of a token.
* `Lexes.append_break`: texts on lines of their own, one after the other.
* `Lexes.strip`: a text without the blank characters at its ends.
-/

namespace GraphRequest.Document.Token

variable {cs ds rest rest' : List Char} {t : Token} {ts us : List Token}

theorem eq_false_of_all {p : Char → Bool} (h : cs.all (!p ·) = true) : ∀ c ∈ cs, p c = false := by
  simpa using h

/-! ### Escapes -/

/-- The characters of escapes. -/
def isEscapeChar (c : Char) : Bool := isNameChar c || ['\x22', '\\', '/', '\x7b', '\x7d'].contains c

theorem foldlM_hexValue?_of_mem {c : Char} (mem : c ∈ cs) (other : Value.hexValue? c = none)
    (n : Nat) : cs.foldlM (fun n c => (Value.hexValue? c).map (16 * n + ·)) n = none := by
  induction cs generalizing n with
  | nil => cases mem
  | cons d cs ih =>
    rw [List.foldlM_cons]
    rcases List.mem_cons.1 mem with rfl | mem
    · rw [other]
      rfl
    · cases Value.hexValue? d with
      | none => rfl
      | some m => exact ih mem _

theorem isNameChar_of_hexValue? {c : Char} (h : (Value.hexValue? c).isSome = true) :
    isNameChar c = true := by
  have letters : c.isAlpha = (decide ('A'.val ≤ c.val ∧ c.val ≤ 'Z'.val) ||
      decide ('a'.val ≤ c.val) && decide (c.val ≤ 'z'.val)) := rfl
  have ends : '0'.val.toNat = 48 ∧ '9'.val.toNat = 57 ∧ 'A'.val.toNat = 65 ∧ 'F'.val.toNat = 70 ∧
      'Z'.val.toNat = 90 ∧ 'a'.val.toNat = 97 ∧ 'f'.val.toNat = 102 ∧ 'z'.val.toNat = 122 := by
    decide
  unfold Value.hexValue? at h
  simp only [isNameChar, Char.isAlphanum, letters, Char.isDigit, Bool.or_eq_true,
    Bool.and_eq_true, decide_eq_true_eq, UInt32.le_iff_toNat_le, Char.le_def, ge_iff_le] at h ⊢
  split at h
  · omega
  split at h
  · omega
  split at h
  · omega
  · cases h

/-- A number has no other characters than hexadecimal digits. -/
theorem isNameChar_of_hexNumber? {n : Nat} (h : Value.hexNumber? cs = some n) :
    ∀ c ∈ cs, isNameChar c = true := by
  intro c hc
  apply isNameChar_of_hexValue?
  by_contra other
  rw [Bool.not_eq_true, Option.isSome_eq_false_iff, Option.isNone_iff_eq_none] at other
  have none' : Value.hexNumber? cs = none := foldlM_hexValue?_of_mem hc other 0
  rw [none'] at h
  cases h

/-- A reader of escapes can tell what it reads from its own characters, whatever follows them. -/
def EscapeSource (read : List Char → Option (Char × List Char)) (cs : List Char) (c : Char)
    (rest : List Char) : Prop :=
  ∃ as, (∀ a ∈ as, isEscapeChar a = true) ∧ cs = as ++ rest ∧
    ∀ others, read (as ++ others) = some (c, others)

theorem isEscapeChar_of_isNameChar {c : Char} (h : isNameChar c = true) :
    isEscapeChar c = true := by
  rw [isEscapeChar, h, Bool.true_or]

theorem escapeSource_readBraced {c : Char} (read : readBraced cs = some (c, rest)) :
    EscapeSource readBraced cs c rest := by
  unfold readBraced at read
  dsimp only at read
  split at read
  · cases read
  · rename_i close others dropped
    obtain ⟨n, number, accepted⟩ := Option.bind_eq_some_iff.1 read
    split at accepted
    · cases accepted
    · rename_i valid
      cases accepted
      have digits : ∀ d ∈ cs.takeWhile (· != '\x7d'), (d != '\x7d') = true :=
        fun d hd => List.mem_takeWhile_imp (p := (· != '\x7d')) hd
      have ends : close = '\x7d' := by
        have := List.head?_dropWhile_not (· != '\x7d') cs
        rw [dropped] at this
        simpa using this
      refine ⟨cs.takeWhile (· != '\x7d') ++ ['\x7d'], ?_, ?_, fun others => ?_⟩
      · rw [List.forall_mem_append, List.forall_mem_singleton]
        exact ⟨fun d hd => isEscapeChar_of_isNameChar (isNameChar_of_hexNumber? number d hd), rfl⟩
      · have whole := List.takeWhile_append_dropWhile (p := (· != '\x7d')) (l := cs)
        rw [dropped, ends] at whole
        rw [List.append_assoc]
        exact whole.symm
      · rw [List.append_assoc, readBraced, List.takeWhile_append_of_pos digits,
          List.dropWhile_append_of_pos digits]
        have stop : (['\x7d'] ++ others).takeWhile (· != '\x7d') = [] := rfl
        rw [stop, List.append_nil, number]
        exact if_neg valid

theorem escapeSource_readFixed {c : Char} (read : readFixed cs = some (c, rest)) :
    EscapeSource readFixed cs c rest := by
  have escaped {ds : List Char} {n : Nat} (h : Value.hexNumber? ds = some n) :
      ∀ d ∈ ds, isEscapeChar d = true :=
    fun d hd => isEscapeChar_of_isNameChar (isNameChar_of_hexNumber? h d hd)
  unfold readFixed at read
  split at read
  · rename_i x y z w others
    obtain ⟨n, number, read⟩ := Option.bind_eq_some_iff.1 read
    split at read
    · rename_i scalar
      cases read
      refine ⟨[x, y, z, w], escaped number, rfl, fun others => ?_⟩
      simp [readFixed, number, scalar]
    · rename_i unpaired
      split at read
      · rename_i high
        split at read
        · rename_i x' y' z' w' others _
          obtain ⟨m, number', read⟩ := Option.bind_eq_some_iff.1 read
          split at read
          · rename_i low
            obtain ⟨rfl, rfl⟩ := Prod.mk.inj (Option.some.inj read)
            refine ⟨[x, y, z, w] ++ '\\' :: 'u' :: [x', y', z', w'], ?_, rfl, fun others => ?_⟩
            · refine List.forall_mem_append.2 ⟨escaped number, ?_⟩
              rw [List.forall_mem_cons, List.forall_mem_cons]
              exact ⟨by decide, by decide, escaped number'⟩
            · show readFixed (x :: y :: z :: w :: '\\' :: 'u' :: x' :: y' :: z' :: w' :: others) = _
              rw [readFixed, number]
              dsimp only [bind, Option.bind]
              rw [if_neg unpaired, if_pos high]
              show (Value.hexNumber? [x', y', z', w'] >>= _) = _
              rw [number']
              exact if_pos low
          · cases read
        · cases read
      · cases read
  · cases read

theorem escapeSource_readEscape {c : Char} (read : readEscape cs = some (c, rest)) :
    EscapeSource readEscape cs c rest := by
  unfold readEscape at read
  split at read
  · obtain ⟨as, escaped, rfl, each⟩ := escapeSource_readBraced read
    refine ⟨'u' :: '\x7b' :: as, ?_, rfl, each⟩
    rw [List.forall_mem_cons, List.forall_mem_cons]
    exact ⟨by decide, by decide, escaped⟩
  · rename_i others unbraced
    obtain ⟨as, escaped, rfl, each⟩ := escapeSource_readFixed read
    refine ⟨'u' :: as, List.forall_mem_cons.2 ⟨by decide, escaped⟩, rfl, fun others => ?_⟩
    rw [List.cons_append, readEscape]
    · exact each others
    · intro tail same
      cases as with
      | nil => cases each []
      | cons a as =>
        cases same
        exact unbraced (as ++ rest) rfl
  · rename_i e others _ other
    obtain ⟨letter, meant, same⟩ := Option.map_eq_some_iff.1 read
    cases same
    refine ⟨[e], ?_, rfl, fun others => ?_⟩
    · rw [List.forall_mem_singleton]
      unfold Value.letterEscape? at meant
      split at meant <;> first | decide | cases meant
    · rw [List.singleton_append, readEscape]
      · rw [meant]
        rfl
      · exact fun _ same _ => other same
      · exact other
  · cases read

/-! ### Strings -/

/-- A string ends with a quote, and is read from its own characters whatever follows them. -/
theorem exists_source_of_readString {fuel : Nat} {s : List Char}
    (h : readString fuel cs = some (s, rest)) :
    ∃ as, cs = as ++ rest ∧ as.getLast? = some '\x22' ∧
      ∀ rest' fuel', (as ++ rest').length < fuel' →
        readString fuel' (as ++ rest') = some (s, rest') := by
  have last {as : List Char} (h : as.getLast? = some '\x22') (bs : List Char) :
      (bs ++ as).getLast? = some '\x22' := by
    rw [List.getLast?_append, h]
    rfl
  induction fuel generalizing cs s with
  | zero => cases h
  | succ fuel ih =>
    cases cs with
    | nil => cases h
    | cons c cs =>
      rw [readString] at h
      by_cases quote : (c == '\x22') = true
      · rw [if_pos quote] at h
        cases h
        refine ⟨[c], rfl, ?_, fun rest' fuel' enough => ?_⟩
        · rw [eq_of_beq quote]
          rfl
        · obtain ⟨fuel', rfl⟩ : ∃ n, fuel' = n + 1 := ⟨fuel' - 1, by omega⟩
          rw [List.singleton_append, readString, if_pos quote]
      rw [if_neg quote] at h
      by_cases broken : isBreak c = true
      · rw [if_pos broken] at h
        cases h
      rw [if_neg broken] at h
      by_cases slash : (c == '\\') = true
      · rw [if_pos slash] at h
        obtain ⟨⟨e, others⟩, escape, h⟩ := Option.bind_eq_some_iff.1 h
        obtain ⟨⟨s, others'⟩, read, h⟩ := Option.bind_eq_some_iff.1 h
        cases h
        obtain ⟨bs, _, rfl, each⟩ := escapeSource_readEscape escape
        obtain ⟨as, rfl, ends, again⟩ := ih read
        refine ⟨c :: (bs ++ as), by simp, last ends (c :: bs), fun rest' fuel' enough => ?_⟩
        simp only [List.cons_append, List.append_assoc, List.length_cons, List.length_append]
          at enough ⊢
        obtain ⟨fuel', rfl⟩ : ∃ n, fuel' = n + 1 := ⟨fuel' - 1, by omega⟩
        have behind := again rest' fuel' (by rw [List.length_append]; omega)
        rw [readString, if_neg quote, if_neg broken, if_pos slash, each]
        show (readString fuel' (as ++ rest') >>= _) = _
        rw [behind]
        rfl
      · rw [if_neg slash] at h
        obtain ⟨⟨s, others⟩, read, h⟩ := Option.bind_eq_some_iff.1 h
        cases h
        obtain ⟨as, rfl, ends, again⟩ := ih read
        refine ⟨c :: as, rfl, last ends [c], fun rest' fuel' enough => ?_⟩
        rw [List.cons_append] at enough ⊢
        obtain ⟨fuel', rfl⟩ : ∃ n, fuel' = n + 1 := ⟨fuel' - 1, by omega⟩
        rw [readString, if_neg quote, if_neg broken, if_neg slash,
          again rest' fuel' (Nat.lt_of_succ_lt_succ enough)]
        rfl

/-- A block string ends with its closing quotes, and is read from its own characters whatever
follows them. -/
theorem exists_source_of_readBlock {s : List Char} (h : readBlock cs = some (s, rest)) :
    ∃ as, cs = as ++ BlockText.quotes ++ rest ∧
      ∀ rest', readBlock (as ++ BlockText.quotes ++ rest') = some (s, rest') := by
  induction cs using readBlock.induct generalizing s with
  | case1 => cases h
  | case2 rest' =>
    cases h
    exact ⟨[], rfl, fun _ => rfl⟩
  | case3 rest' ih =>
    rw [readBlock] at h
    obtain ⟨⟨s', others⟩, read, h⟩ := Option.bind_eq_some_iff.1 h
    cases h
    obtain ⟨as, rfl, again⟩ := ih read
    refine ⟨'\\' :: BlockText.quotes ++ as, rfl, fun rest' => ?_⟩
    show readBlock ('\\' :: '\x22' :: '\x22' :: '\x22' :: (as ++ BlockText.quotes ++ rest')) = _
    rw [readBlock, again]
    rfl
  | case4 c cs unquoted unescaped ih =>
    rw [readBlock.eq_4 c cs unquoted unescaped] at h
    obtain ⟨⟨s', others⟩, read, h⟩ := Option.bind_eq_some_iff.1 h
    cases h
    obtain ⟨as, rfl, again⟩ := ih read
    refine ⟨c :: as, rfl, fun rest' => ?_⟩
    -- The first three of the characters behind `c` are in the source.
    have begins (bs : List Char) (short : bs.length ≤ 3)
        (h : bs <+: as ++ BlockText.quotes ++ rest') : bs <+: as ++ BlockText.quotes ++ rest := by
      have enough : bs.length ≤ (as ++ BlockText.quotes).length := by
        rw [List.length_append]
        exact short.trans (Nat.le_add_left _ _)
      have inside := List.prefix_of_prefix_length_le h (List.prefix_append _ _) enough
      exact inside.trans (List.prefix_append _ _)
    show readBlock (c :: (as ++ BlockText.quotes ++ rest')) = _
    rw [readBlock.eq_4, again]
    · rfl
    · intro tail quote same
      obtain ⟨tail', same'⟩ := begins ['\x22', '\x22'] (by decide) ⟨tail, same.symm⟩
      exact unquoted tail' quote same'.symm
    · intro tail slash same
      obtain ⟨tail', same'⟩ := begins BlockText.quotes (by decide) ⟨tail, same.symm⟩
      exact unescaped tail' slash same'.symm

/-! ### Tokens -/

theorem read_spread (h : Token.read ('.' :: cs) = some (t, rest)) :
    t = .spread ∧ cs = '.' :: '.' :: rest := by
  unfold Token.read at h
  split at h
  · rename_i same
    cases same
  · rename_i others same
    cases same
    cases h
    exact ⟨rfl, rfl⟩
  · rename_i same
    cases same
  · rename_i same
    cases same
  · rename_i same
    cases same
    cases h

theorem read_string (unblocked : ¬ ['\x22', '\x22'] <+: cs) : Token.read ('\x22' :: cs) =
    (readString (cs.length + 1) cs).map fun p => (.string (String.ofList p.1), p.2) := by
  rw [Token.read]
  rintro others rfl
  exact unblocked ⟨others, rfl⟩

theorem read_other {c : Char} (quote : c ≠ '\x22') (point : c ≠ '.') (cs : List Char) :
    Token.read (c :: cs) =
      if isPunctuator c then some (.punctuator c, cs)
      else if isNameStart c then
        some (.name (String.ofList (c :: cs.takeWhile isNameChar)), cs.dropWhile isNameChar)
      else if c.isDigit || c == '-' then readNumber (c :: cs)
      else none := by
  rw [Token.read]
  · exact fun _ same _ => point same
  · exact fun _ same _ => quote same
  · exact quote


/-- The characters of a token, from which it can be read. The first and the last of them are not
blank, and only what begins with a quote has others in between. -/
structure Source (cs : List Char) (t : Token) (rest as : List Char) : Prop where
  split : cs = as ++ rest
  first : ∃ c ∈ as.head?, Text.isBlank c = false
  last : ∃ c ∈ as.getLast?, Text.isBlank c = false
  plain : cs.head? ≠ some '\x22' → ∀ c ∈ as, Text.isBlank c = false
  again : ∀ rest', Near rest rest' → Token.read (as ++ rest') = some (t, rest')

theorem source_of_plain {as : List Char} (split : cs = as ++ rest) (present : as ≠ [])
    (plain : ∀ c ∈ as, Text.isBlank c = false)
    (again : ∀ rest', Near rest rest' → Token.read (as ++ rest') = some (t, rest')) :
    Source cs t rest as where
  split := split
  first := ⟨as.head present, List.head_mem_head? present, plain _ (List.head_mem present)⟩
  last :=
    ⟨as.getLast present, List.getLast_mem_getLast? present, plain _ (List.getLast_mem present)⟩
  plain := fun _ => plain
  again := again

theorem exists_source_string (unblocked : ¬ ['\x22', '\x22'] <+: cs)
    (h : Token.read ('\x22' :: cs) = some (t, rest)) : ∃ as, Source ('\x22' :: cs) t rest as := by
  rw [read_string unblocked] at h
  obtain ⟨⟨s, others⟩, string, same⟩ := Option.map_eq_some_iff.1 h
  cases same
  obtain ⟨as, rfl, ends, again⟩ := exists_source_of_readString string
  have present : as ≠ [] := by
    rintro rfl
    cases ends
  refine ⟨'\x22' :: as, rfl, ⟨_, rfl, by decide⟩, ⟨'\x22', ?_, by decide⟩,
    fun unquoted => absurd rfl unquoted, ?_⟩
  · rw [Option.mem_def, List.getLast?_cons, ends]
    rfl
  · intro rest' near
    have unblocked' : ¬ ['\x22', '\x22'] <+: as ++ rest' := by
      refine mt (near.begins (by decide) ?_) unblocked
      have := List.length_pos_iff.2 present
      exact Nat.succ_le_succ this
    rw [List.cons_append, read_string unblocked', again rest' _ (Nat.lt_succ_self _)]
    rfl

theorem exists_source_block (h : Token.read ('\x22' :: '\x22' :: '\x22' :: cs) = some (t, rest)) :
    ∃ as, Source ('\x22' :: '\x22' :: '\x22' :: cs) t rest as := by
  obtain ⟨⟨s, others⟩, block, same⟩ := Option.map_eq_some_iff.1 h
  cases same
  obtain ⟨as, rfl, again⟩ := exists_source_of_readBlock block
  refine ⟨BlockText.quotes ++ (as ++ BlockText.quotes), rfl, ⟨'\x22', rfl, by decide⟩,
    ⟨'\x22', ?_, by decide⟩, fun unquoted => absurd rfl unquoted, fun rest' _ => ?_⟩
  · rw [Option.mem_def, List.getLast?_append, List.getLast?_append]
    rfl
  · show (readBlock (as ++ BlockText.quotes ++ rest')).map _ = _
    rw [again]
    rfl

/-- Every token has a source. -/
theorem exists_source (h : Token.read cs = some (t, rest)) : ∃ as, Source cs t rest as := by
  cases cs with
  | nil => cases h
  | cons c cs =>
    by_cases point : c = '.'
    · subst point
      obtain ⟨rfl, rfl⟩ := read_spread h
      exact ⟨['.', '.', '.'], source_of_plain rfl (by decide) (eq_false_of_all (by decide))
        fun _ _ => rfl⟩
    by_cases quote : c = '\x22'
    · subst quote
      by_cases block : ['\x22', '\x22'] <+: cs
      · obtain ⟨cs, rfl⟩ := block
        exact exists_source_block h
      · exact exists_source_string block h
    have reads := read_other quote point
    rw [reads] at h
    split at h
    · rename_i mark
      cases h
      have visible : Text.isBlank c = false :=
        not_of_isPunctuator mark (by decide)
      refine ⟨[c], source_of_plain rfl (by simp) (by simpa using visible) fun rest' _ => ?_⟩
      exact (reads rest').trans (if_pos mark)
    rename_i mark
    split at h
    · rename_i start
      cases h
      obtain ⟨as, split, plain, again⟩ :=
        @local_span isNameChar (fun c => isPlain_of_isNameChar) cs _ _ rfl
      have named := isPlain_of_isNameChar (isNameChar_of_isNameStart start)
      refine ⟨c :: as, source_of_plain (congrArg (c :: ·) split) (List.cons_ne_nil _ _) ?_ ?_⟩
      · exact List.forall_mem_cons.2 ⟨isBlank_of_isPlain named,
          fun d hd => isBlank_of_isPlain (plain d hd)⟩
      · intro rest' near
        obtain ⟨same, left⟩ := Prod.mk.inj (Option.some.inj (again rest' near))
        rw [List.cons_append, reads, if_neg mark, if_pos start, same, left]
    rename_i start
    split at h
    · rename_i digit
      obtain ⟨as, split, plain, again⟩ := local_readNumber h
      have present : as ≠ [] := by
        rintro rfl
        have shorter := length_readNumber h
        rw [split] at shorter
        exact absurd shorter (lt_irrefl _)
      obtain ⟨a, as, rfl⟩ := List.exists_cons_of_ne_nil present
      cases (List.cons.inj split).1
      refine ⟨c :: as, source_of_plain split present
        (fun d hd => isBlank_of_isPlain (plain d hd)) fun rest' near => ?_⟩
      rw [List.cons_append, reads, if_neg mark, if_neg start, if_pos digit]
      exact again rest' near
    · cases h

/-! ### Whole texts -/

theorem isBlank_of_read {c : Char} (h : Token.read (c :: cs) = some (t, rest)) :
    Text.isBlank c = false := by
  obtain ⟨as, source⟩ := exists_source h
  obtain ⟨d, first, visible⟩ := source.first
  obtain ⟨as, rfl⟩ := List.head?_eq_some_iff.1 first
  cases (List.cons.inj source.split).1
  exact visible

/-- Texts on lines of their own lex one after the other. -/
theorem Lexes.append_break (h : Lexes cs ts) (h' : Lexes ds us) :
    Lexes (cs ++ '\n' :: ds) (ts ++ us) := by
  induction h with
  | nil => exact .ignored rfl h'
  | ignored ignored lexes ih => exact .ignored ignored ih
  | @comment cs ts lexes ih =>
    have ends : (cs ++ '\n' :: ds).dropWhile (!isBreak ·) =
        cs.dropWhile (!isBreak ·) ++ '\n' :: ds := by
      rw [List.dropWhile_append]
      split
      · rename_i whole
        rw [List.isEmpty_iff.1 whole]
        rfl
      · rfl
    exact .comment (ends ▸ ih)
  | token meant starts read lexes ih =>
    obtain ⟨as, source⟩ := exists_source read
    have longer := source.again _ (near_append_break _ ds)
    rw [← List.append_assoc, ← source.split] at longer
    exact .token meant starts longer ih

/-- Blank characters are no tokens. -/
theorem eq_nil_of_lexes_blank (h : Lexes cs ts) (blank : ∀ c ∈ cs, Text.isBlank c = true) :
    ts = [] := by
  induction h with
  | nil => rfl
  | ignored ignored lexes ih => exact ih fun c hc => blank c (.tail _ hc)
  | comment => cases blank '#' (.head _)
  | token meant starts read lexes ih =>
    have visible := isBlank_of_read read
    rw [blank _ (.head _)] at visible
    cases visible

/-- A token at the start of a text with blank characters behind it is one of the text alone. -/
theorem exists_read_of_append_blank {c : Char} {as bs : List Char}
    (blank : ∀ c ∈ bs, Text.isBlank c = true) (h : Token.read (c :: (as ++ bs)) = some (t, rest)) :
    ∃ tail, rest = tail ++ bs ∧ Token.read (c :: as) = some (t, tail) := by
  obtain ⟨src, source⟩ := exists_source h
  obtain ⟨d, last, visible⟩ := source.last
  have inside : ∃ tail, c :: as = src ++ tail ∧ rest = tail ++ bs := by
    rcases List.append_eq_append_iff.1 (show (c :: as) ++ bs = src ++ rest from source.split) with
      ⟨tail, same, split⟩ | ⟨tail, same, split⟩
    · cases tail with
      | nil => exact ⟨[], by simpa using same.symm, by simpa using split.symm⟩
      | cons e tail =>
        -- The last character of the token would be blank.
        rw [same, Option.mem_def, List.getLast?_append, List.getLast?_cons, Option.some_or,
          ← List.getLast?_cons] at last
        have member : d ∈ bs := by
          rw [split]
          exact List.mem_append_left _ (List.mem_of_getLast? last)
        rw [blank d member] at visible
        cases visible
    · exact ⟨tail, same, split⟩
  obtain ⟨tail, same, rfl⟩ := inside
  refine ⟨tail, rfl, ?_⟩
  rw [same]
  exact source.again tail (near_append tail bs)

/-- Blank characters behind a text mean nothing. -/
theorem Lexes.of_append_blank {as bs : List Char} (h : Lexes (as ++ bs) ts)
    (blank : ∀ c ∈ bs, Text.isBlank c = true) : Lexes as ts := by
  generalize whole : as ++ bs = cs at h
  induction h generalizing as with
  | nil =>
    rw [(List.append_eq_nil_iff.1 whole).1]
    exact .nil
  | @ignored c cs ts ignored lexes ih =>
    cases as with
    | nil =>
      cases whole
      rw [eq_nil_of_lexes_blank lexes fun c hc => blank c (.tail _ hc)]
      exact .nil
    | cons a as =>
      obtain ⟨rfl, rest⟩ := List.cons.inj whole
      exact .ignored ignored (ih rest)
  | @comment cs ts lexes ih =>
    cases as with
    | nil =>
      cases whole
      cases blank '#' (.head _)
    | cons a as =>
      obtain ⟨rfl, rfl⟩ := List.cons.inj whole
      by_cases ends : (as.dropWhile (!isBreak ·)).isEmpty = true
      · rw [List.append_eq, List.dropWhile_append, if_pos ends] at lexes
        rw [eq_nil_of_lexes_blank lexes fun c hc => blank c ((List.dropWhile_sublist _).subset hc)]
        refine .comment ?_
        rw [List.isEmpty_iff.1 ends]
        exact .nil
      · refine .comment (ih ?_)
        rw [List.append_eq, List.dropWhile_append, if_neg ends]
  | @token c cs rest t ts meant starts read lexes ih =>
    cases as with
    | nil =>
      cases whole
      have visible := isBlank_of_read read
      rw [blank _ (.head _)] at visible
      cases visible
    | cons a as =>
      obtain ⟨rfl, rfl⟩ := List.cons.inj whole
      obtain ⟨tail, rfl, read'⟩ := exists_read_of_append_blank blank read
      exact .token meant starts read' (ih rfl)

/-- Blank characters in front of a text mean nothing. -/
theorem Lexes.dropWhile_blank (h : Lexes cs ts) : Lexes (cs.dropWhile Text.isBlank) ts := by
  induction h with
  | nil => exact .nil
  | @ignored c cs ts ignored lexes ih =>
    rw [List.dropWhile_cons]
    split
    · exact ih
    · exact .ignored ignored lexes
  | comment lexes ih => exact .comment lexes
  | token meant starts read lexes ih =>
    rw [List.dropWhile_cons_of_neg (by simp [isBlank_of_read read])]
    exact .token meant starts read lexes

/-- Blank characters at the ends of a text mean nothing. -/
theorem Lexes.strip (h : Lexes cs ts) : Lexes (Text.stripChars cs) ts := by
  have trimmed {ds : List Char} (h : Lexes ds ts) :
      Lexes (ds.reverse.dropWhile Text.isBlank).reverse ts := by
    have split := List.takeWhile_append_dropWhile (p := Text.isBlank) (l := ds.reverse)
    have whole : (ds.reverse.dropWhile Text.isBlank).reverse ++
        (ds.reverse.takeWhile Text.isBlank).reverse = ds := by
      rw [← List.reverse_append, split, List.reverse_reverse]
    rw [← whole] at h
    refine h.of_append_blank fun c hc => ?_
    exact List.mem_takeWhile_imp (List.mem_reverse.1 hc)
  exact trimmed h.dropWhile_blank

end GraphRequest.Document.Token
