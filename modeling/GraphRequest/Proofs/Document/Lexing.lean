import GraphRequest.Proofs.Document.Spelling

/-!
# Lexing without a bound

Reading the tokens of a text takes a bound on their number, and the length of the text is always
enough, since every token takes at least one character. `Lexes` is the same without a bound: a
relation between a text and its tokens, with one rule for what is ignored, one for comments and one
for tokens.

* `length_read`: a token takes at least one character.
* `ofChars?_eq_some`: the tokens that are read from a text are those it lexes to.
* `isName_of_lexes`: the names among them are names of the language.
-/

namespace GraphRequest.Document.Token

/-! ### What a token leaves -/

theorem length_dropWhile_le (p : Char → Bool) (cs : List Char) :
    (cs.dropWhile p).length ≤ cs.length := (List.dropWhile_sublist p).length_le

theorem length_readDigits {cs ds rest : List Char} (h : readDigits cs = some (ds, rest)) :
    rest.length < cs.length := by
  unfold readDigits at h
  split at h
  · cases h
  · rename_i nonempty
    cases h
    have whole :=
      congrArg List.length (List.takeWhile_append_dropWhile (p := Char.isDigit) (l := cs))
    rw [List.length_append] at whole
    have some_taken : 0 < (cs.takeWhile Char.isDigit).length := List.length_pos_iff.2 nonempty
    omega

theorem length_readWhole {cs ds rest : List Char} (h : readWhole cs = some (ds, rest)) :
    rest.length < cs.length := by
  unfold readWhole at h
  split at h
  · split at h
    · cases h
    · cases h
      exact Nat.lt_succ_self _
  · exact length_readDigits h

theorem length_readPlaces {cs ds rest : List Char} (h : readPlaces cs = some (ds, rest)) :
    rest.length ≤ cs.length := by
  unfold readPlaces at h
  split at h
  · rename_i cs
    obtain ⟨⟨ds, rest⟩, digits, same⟩ := Option.map_eq_some_iff.1 h
    cases same
    have := length_readDigits digits
    rw [List.length_cons]
    omega
  · cases h
    exact Nat.le_refl _

theorem length_readSign (cs : List Char) : (readSign cs).2.length ≤ cs.length := by
  unfold readSign
  split
  · exact Nat.le_succ _
  · exact Nat.le_succ _
  · exact Nat.le_refl _

theorem length_readPower {cs ds rest : List Char} (h : readPower cs = some (ds, rest)) :
    rest.length ≤ cs.length := by
  cases cs with
  | nil =>
    cases h
    exact Nat.le_refl _
  | cons c cs =>
    rw [readPower] at h
    split at h
    · obtain ⟨⟨ds, rest⟩, digits, same⟩ := Option.map_eq_some_iff.1 h
      cases same
      have sign := length_readSign cs
      have short : rest.length < (readSign cs).2.length := length_readDigits digits
      rw [List.length_cons]
      omega
    · cases h
      exact Nat.le_refl _

theorem length_readUnsigned {cs rest : List Char} {t : Token}
    (h : readUnsigned cs = some (t, rest)) : rest.length < cs.length := by
  obtain ⟨⟨whole, rest₁⟩, hwhole, h⟩ := Option.bind_eq_some_iff.1 h
  obtain ⟨⟨places, rest₂⟩, hplaces, h⟩ := Option.bind_eq_some_iff.1 h
  obtain ⟨⟨power, rest₃⟩, hpower, h⟩ := Option.bind_eq_some_iff.1 h
  dsimp only at h
  split at h
  · cases h
  · cases h
    have := length_readWhole hwhole
    have := length_readPlaces hplaces
    have := length_readPower hpower
    omega

theorem length_readNumber {cs rest : List Char} {t : Token} (h : readNumber cs = some (t, rest)) :
    rest.length < cs.length := by
  unfold readNumber at h
  split at h
  · obtain ⟨⟨t, rest⟩, unsigned, same⟩ := Option.map_eq_some_iff.1 h
    cases same
    have := length_readUnsigned unsigned
    rw [List.length_cons]
    omega
  · exact length_readUnsigned h

theorem length_readBraced {cs rest : List Char} {c : Char} (h : readBraced cs = some (c, rest)) :
    rest.length < cs.length := by
  unfold readBraced at h
  dsimp only at h
  split at h
  · cases h
  · rename_i c' rest' dropped
    obtain ⟨n, _, h⟩ := Option.bind_eq_some_iff.1 h
    split at h
    · cases h
    · cases h
      have := length_dropWhile_le (· != '\x7d') cs
      rw [dropped, List.length_cons] at this
      omega

theorem length_readFixed {cs rest : List Char} {c : Char} (h : readFixed cs = some (c, rest)) :
    rest.length < cs.length := by
  unfold readFixed at h
  split at h
  · rename_i a b c' d rest'
    obtain ⟨n, _, h⟩ := Option.bind_eq_some_iff.1 h
    split at h
    · cases h
      simp only [List.length_cons]
      omega
    · split at h
      · split at h
        · obtain ⟨m, _, h⟩ := Option.bind_eq_some_iff.1 h
          split at h
          · have same := (Prod.mk.inj (Option.some.inj h)).2
            rw [← same]
            simp only [List.length_cons]
            omega
          · cases h
        · cases h
      · cases h
  · cases h

theorem length_readEscape {cs rest : List Char} {c : Char} (h : readEscape cs = some (c, rest)) :
    rest.length < cs.length := by
  unfold readEscape at h
  split at h
  · have := length_readBraced h
    simp only [List.length_cons]
    omega
  · have := length_readFixed h
    rw [List.length_cons]
    omega
  · obtain ⟨e, _, same⟩ := Option.map_eq_some_iff.1 h
    cases same
    exact Nat.lt_succ_self _
  · cases h

theorem length_readString {fuel : Nat} {cs s rest : List Char}
    (h : readString fuel cs = some (s, rest)) : rest.length < cs.length := by
  induction fuel generalizing cs s with
  | zero => cases h
  | succ fuel ih =>
    cases cs with
    | nil => cases h
    | cons c cs =>
      rw [readString] at h
      split at h
      · cases h
        exact Nat.lt_succ_self _
      · split at h
        · cases h
        · split at h
          · obtain ⟨⟨e, rest₁⟩, escape, h⟩ := Option.bind_eq_some_iff.1 h
            obtain ⟨⟨s', rest₂⟩, others, h⟩ := Option.bind_eq_some_iff.1 h
            cases h
            have := length_readEscape escape
            have := ih others
            rw [List.length_cons]
            omega
          · obtain ⟨⟨s', rest₂⟩, others, h⟩ := Option.bind_eq_some_iff.1 h
            cases h
            have := ih others
            rw [List.length_cons]
            omega

theorem length_readBlock {cs s rest : List Char} (h : readBlock cs = some (s, rest)) :
    rest.length < cs.length := by
  induction cs using readBlock.induct generalizing s with
  | case1 => cases h
  | case2 rest' =>
    cases h
    simp only [List.length_cons]
    omega
  | case3 rest' ih =>
    rw [readBlock] at h
    obtain ⟨⟨s', rest₁⟩, others, h⟩ := Option.bind_eq_some_iff.1 h
    cases h
    have := ih others
    simp only [List.length_cons]
    omega
  | case4 c rest' _ _ ih =>
    rw [readBlock] at h
    · obtain ⟨⟨s', rest₁⟩, others, h⟩ := Option.bind_eq_some_iff.1 h
      cases h
      have := ih others
      rw [List.length_cons]
      omega
    · assumption
    · assumption

/-- A token takes at least one character. -/
theorem length_read {cs rest : List Char} {t : Token} (h : Token.read cs = some (t, rest)) :
    rest.length < cs.length := by
  unfold Token.read at h
  split at h
  · cases h
  · cases h
    simp only [List.length_cons]
    omega
  · obtain ⟨⟨s, rest⟩, block, same⟩ := Option.map_eq_some_iff.1 h
    cases same
    have := length_readBlock block
    simp only [List.length_cons]
    omega
  · obtain ⟨⟨s, rest⟩, string, same⟩ := Option.map_eq_some_iff.1 h
    cases same
    have := length_readString string
    rw [List.length_cons]
    omega
  · rename_i c cs _ _ _
    split at h
    · cases h
      exact Nat.lt_succ_self _
    · split at h
      · cases h
        have := length_dropWhile_le isNameChar cs
        rw [List.length_cons]
        omega
      · split at h
        · exact length_readNumber h
        · cases h

/-! ### Lexing -/

/-- The tokens of a text. -/
inductive Lexes : List Char → List Token → Prop
  | nil : Lexes [] []
  | ignored {c : Char} {cs : List Char} {ts : List Token} (ignored : isIgnored c = true)
      (lexes : Lexes cs ts) : Lexes (c :: cs) ts
  | comment {cs : List Char} {ts : List Token} (lexes : Lexes (cs.dropWhile (!isBreak ·)) ts) :
      Lexes ('#' :: cs) ts
  | token {c : Char} {cs rest : List Char} {t : Token} {ts : List Token}
      (meant : isIgnored c = false) (starts : c ≠ '#')
      (read : Token.read (c :: cs) = some (t, rest)) (lexes : Lexes rest ts) :
      Lexes (c :: cs) (t :: ts)

theorem lexes_of_readAll {fuel : Nat} {cs : List Char} {ts : List Token}
    (h : readAll fuel cs = some ts) : Lexes cs ts := by
  induction fuel generalizing cs ts with
  | zero =>
    cases cs with
    | nil =>
      cases h
      exact .nil
    | cons c cs => cases h
  | succ fuel ih =>
    cases cs with
    | nil =>
      cases h
      exact .nil
    | cons c cs =>
      rw [readAll] at h
      by_cases ignored : isIgnored c = true
      · rw [if_pos ignored] at h
        exact .ignored ignored (ih h)
      · rw [if_neg ignored] at h
        by_cases hash : c = '#'
        · subst hash
          exact .comment (ih h)
        · rw [if_neg fun same => hash (eq_of_beq same)] at h
          obtain ⟨⟨t, rest⟩, read, h⟩ := Option.bind_eq_some_iff.1 h
          obtain ⟨others, lexed, h⟩ := Option.bind_eq_some_iff.1 h
          cases h
          exact .token (Bool.eq_false_iff.2 ignored) hash read (ih lexed)

theorem Lexes.readAll {cs : List Char} {ts : List Token} (h : Lexes cs ts) (fuel : Nat)
    (enough : cs.length ≤ fuel) : readAll fuel cs = some ts := by
  induction h generalizing fuel with
  | nil => cases fuel <;> rfl
  | ignored ignored lexes ih =>
    cases fuel with
    | zero => cases enough
    | succ fuel =>
      rw [Token.readAll, if_pos ignored]
      exact ih fuel (Nat.le_of_succ_le_succ enough)
  | @comment cs ts lexes ih =>
    cases fuel with
    | zero => cases enough
    | succ fuel =>
      rw [Token.readAll, if_neg (by decide), if_pos (beq_self_eq_true _)]
      have := length_dropWhile_le (!isBreak ·) cs
      rw [List.length_cons] at enough
      exact ih fuel (by omega)
  | @token c cs rest t ts meant starts read lexes ih =>
    cases fuel with
    | zero => cases enough
    | succ fuel =>
      have := length_read read
      rw [List.length_cons] at enough this
      have others := ih fuel (by omega)
      rw [Token.readAll, meant, if_neg (by decide), if_neg fun same => starts (eq_of_beq same),
        read]
      show (Token.readAll fuel rest >>= fun ts => some (t :: ts)) = _
      rw [others]
      rfl

/-- The tokens that are read from a text are those it lexes to. -/
theorem ofChars?_eq_some {cs : List Char} {ts : List Token} :
    ofChars? cs = some ts ↔ Lexes cs ts :=
  ⟨lexes_of_readAll, fun h => h.readAll cs.length (Nat.le_refl _)⟩

/-! ### Beginnings -/

/-- A name in front of a text that does not continue it is a token of its own. -/
theorem lexes_name {n cs : List Char} (h : isName n = true) (closed : Closed cs)
    {ts : List Token} : Lexes (n ++ cs) ts ↔
      ∃ us, ts = .name (String.ofList n) :: us ∧ Lexes cs us := by
  have read := read_name h closed
  obtain ⟨c, n, rfl, start, _⟩ := isNameStart_and_isNameChar_of_isName h
  obtain ⟨meant, _, other⟩ := isIgnored_of_isNameChar (isNameChar_of_isNameStart start)
  rw [List.cons_append] at read ⊢
  constructor
  · intro lexes
    cases lexes with
    | ignored ignored => simp [meant] at ignored
    | comment => simp at other
    | token _ _ read' lexes =>
      rw [read] at read'
      cases read'
      exact ⟨_, rfl, lexes⟩
  · rintro ⟨us, rfl, lexes⟩
    refine .token meant ?_ read lexes
    rintro rfl
    simp at other

theorem lexes_ignored {c : Char} (h : isIgnored c = true) {cs : List Char} {ts : List Token} :
    Lexes (c :: cs) ts ↔ Lexes cs ts := by
  constructor
  · intro lexes
    cases lexes with
    | ignored _ lexes => exact lexes
    | comment => exact absurd h (by decide)
    | token meant =>
      rw [meant] at h
      cases h
  · exact .ignored h

theorem lexes_punctuator {c : Char} (h : isPunctuator c = true) {cs : List Char}
    {ts : List Token} : Lexes (c :: cs) ts ↔ ∃ us, ts = .punctuator c :: us ∧ Lexes cs us := by
  have meant : isIgnored c = false := not_of_isPunctuator h (by decide)
  have starts : (c == '#') = false := not_of_isPunctuator (p := (· == '#')) h (by decide)
  have read := read_punctuator h cs
  constructor
  · intro lexes
    cases lexes with
    | ignored ignored =>
      rw [meant] at ignored
      cases ignored
    | comment => cases starts
    | token _ _ read' lexes =>
      rw [read] at read'
      cases read'
      exact ⟨_, rfl, lexes⟩
  · rintro ⟨us, rfl, lexes⟩
    exact .token meant (ne_of_beq_false starts) read lexes

/-! ### Names -/

/-- Whether a token is a number. -/
def isNumber : Token → Bool
  | .int _ => true
  | .float _ => true
  | _ => false

theorem isNumber_of_readUnsigned {cs rest : List Char} {t : Token}
    (h : readUnsigned cs = some (t, rest)) : t.isNumber = true := by
  obtain ⟨⟨whole, rest₁⟩, _, h⟩ := Option.bind_eq_some_iff.1 h
  obtain ⟨⟨places, rest₂⟩, _, h⟩ := Option.bind_eq_some_iff.1 h
  obtain ⟨⟨power, rest₃⟩, _, h⟩ := Option.bind_eq_some_iff.1 h
  dsimp only at h
  split at h
  · cases h
  · cases h
    split
    · rfl
    · rfl

theorem isNumber_negate (t : Token) : (negate t).isNumber = t.isNumber := by
  cases t <;> rfl

theorem isNumber_of_readNumber {cs rest : List Char} {t : Token}
    (h : readNumber cs = some (t, rest)) : t.isNumber = true := by
  unfold readNumber at h
  split at h
  · obtain ⟨⟨t, rest⟩, unsigned, same⟩ := Option.map_eq_some_iff.1 h
    cases same
    rw [isNumber_negate]
    exact isNumber_of_readUnsigned unsigned
  · exact isNumber_of_readUnsigned h

theorem isName_of_read {cs rest : List Char} {a : String}
    (h : Token.read cs = some (.name a, rest)) : isName a.toList = true := by
  unfold Token.read at h
  split at h
  · cases h
  · cases h
  · obtain ⟨p, _, same⟩ := Option.map_eq_some_iff.1 h
    cases same
  · obtain ⟨p, _, same⟩ := Option.map_eq_some_iff.1 h
    cases same
  · rename_i c cs _ _ _
    split at h
    · cases h
    · split at h
      · rename_i start
        cases h
        rw [String.toList_ofList, isName, start, Bool.true_and]
        exact List.all_takeWhile
      · split at h
        · cases isNumber_of_readNumber h
        · cases h

/-- The names among the tokens of a text are names of the language. -/
theorem isName_of_lexes {cs : List Char} {ts : List Token} (h : Lexes cs ts) {a : String}
    (mem : .name a ∈ ts) : isName a.toList = true := by
  induction h with
  | nil => cases mem
  | ignored _ _ ih => exact ih mem
  | comment _ ih => exact ih mem
  | token _ _ read _ ih =>
    rcases List.mem_cons.1 mem with rfl | mem
    · exact isName_of_read read
    · exact ih mem

end GraphRequest.Document.Token
