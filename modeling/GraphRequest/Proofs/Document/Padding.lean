import GraphRequest.Proofs.Document.Relexing

/-!
# Texts that are moved to the right

Indenting a text puts spaces in front of its lines. Most of them separate tokens or are part of a
comment. Those behind a line end inside a string become part of its value: a line ends at some
characters that may stand in strings, and block strings have lines of their own. So the tokens of a
text that is moved to the right are those of the text up to the values of strings.

* `Padded`: spaces put behind characters that end a line.
* `Matches`: tokens that are the same up to the values of strings.
* `lexes_padded`, `Lexes.moved`: the tokens of such a text, and of a text that is indented.
* `iterate_indentChars_append_break`: moving a text with several lines moves each of them.
-/

namespace GraphRequest.Document.Token

variable {as bs cs ds es rest : List Char} {t : Token} {ts us : List Token}

/-! ### Padding -/

/-- The second text is the first one with spaces put behind some of the characters that end a
line. -/
inductive Padded : List Char → List Char → Prop
  | nil : Padded [] []
  | cons {c : Char} {cs ds : List Char} (n : Nat) (ends : 0 < n → Text.isLineEnd c = true)
      (rest : Padded cs ds) : Padded (c :: cs) (c :: (List.replicate n ' ' ++ ds))

theorem Padded.copy {c : Char} (h : Padded cs ds) : Padded (c :: cs) (c :: ds) :=
  .cons 0 (fun pos => absurd pos (Nat.lt_irrefl 0)) h

theorem Padded.head?_eq (h : Padded cs ds) : ds.head? = cs.head? := by
  cases h <;> rfl

theorem Padded.of_cons {c : Char} (h : Padded (c :: cs) ds) (plain : Text.isLineEnd c = false) :
    ∃ es, ds = c :: es ∧ Padded cs es := by
  cases h with
  | @cons _ _ es n ends rest =>
    have none' : n = 0 := by
      by_contra pos
      rw [ends (Nat.pos_of_ne_zero pos)] at plain
      cases plain
    subst none'
    exact ⟨es, rfl, rest⟩

/-- A beginning without line ends stays as it is. -/
theorem Padded.of_append (h : Padded (as ++ cs) ds) (plain : ∀ c ∈ as, Text.isLineEnd c = false) :
    ∃ es, ds = as ++ es ∧ Padded cs es := by
  induction as generalizing ds with
  | nil => exact ⟨ds, rfl, h⟩
  | cons a as ih =>
    obtain ⟨es, rfl, rest⟩ := h.of_cons (plain a (.head _))
    obtain ⟨es, rfl, padded⟩ := ih rest fun c hc => plain c (.tail _ hc)
    exact ⟨es, rfl, padded⟩

theorem isLineEnd_of_mem_replicate {n : Nat} {c : Char} (h : c ∈ List.replicate n ' ') :
    Text.isLineEnd c = false := by
  rw [List.eq_of_mem_replicate h]
  decide

/-- Spaces can be put behind line ends step by step. -/
theorem Padded.trans (h : Padded cs ds) (h' : Padded ds es) : Padded cs es := by
  induction h generalizing es with
  | nil => exact h'
  | cons n ends rest ih =>
    cases h' with
    | cons m ends' rest' =>
      obtain ⟨es', rfl, padded⟩ := rest'.of_append fun c => isLineEnd_of_mem_replicate
      rw [← List.append_assoc, List.replicate_append_replicate]
      refine .cons (m + n) (fun pos => ?_) (ih padded)
      rcases Nat.eq_zero_or_pos m with rfl | pos'
      · exact ends (by omega)
      · exact ends' pos'

/-- The texts have the same beginnings without line ends. -/
theorem Padded.isPrefix_iff (h : Padded cs ds) (plain : ∀ c ∈ as, Text.isLineEnd c = false) :
    as <+: cs ↔ as <+: ds := by
  constructor
  · rintro ⟨others, rfl⟩
    obtain ⟨es, rfl, _⟩ := h.of_append plain
    exact ⟨es, rfl⟩
  · intro begins
    induction as generalizing cs ds with
    | nil => exact List.nil_prefix
    | cons a as ih =>
      cases cs with
      | nil =>
        cases h
        exact begins
      | cons c cs =>
        have same : c = a := by
          obtain ⟨others, same⟩ := begins
          have first := h.head?_eq
          rw [← same] at first
          exact (Option.some.inj first).symm
        subst same
        obtain ⟨es, rfl, rest⟩ := h.of_cons (plain c (.head _))
        refine List.cons_prefix_cons.2 ⟨rfl, ih rest (fun c hc => plain c (.tail _ hc)) ?_⟩
        exact (List.cons_prefix_cons.1 begins).2

/-- What follows a run of characters among which spaces are. -/
theorem Padded.dropWhile (h : Padded cs ds) {p : Char → Bool} (space : p ' ' = true) :
    Padded (cs.dropWhile p) (ds.dropWhile p) := by
  induction h with
  | nil => exact .nil
  | @cons c cs ds n ends rest ih =>
    rw [List.dropWhile_cons, List.dropWhile_cons]
    split
    · rw [List.dropWhile_append_of_pos fun c hc => by rwa [List.eq_of_mem_replicate hc]]
      exact ih
    · exact .cons n ends rest

theorem padded_self (cs : List Char) : Padded cs cs := by
  induction cs with
  | nil => exact .nil
  | cons c cs ih => exact ih.copy

theorem padded_indentRest (cs : List Char) : Padded cs (indentRest cs) := by
  induction cs with
  | nil => exact .nil
  | cons c cs ih =>
    rcases indentRest_cons c cs with same | ⟨ends, same⟩
    · rw [same]
      exact ih.copy
    · rw [same]
      rcases indentChars_eq cs with same' | same'
      · rw [same']
        exact ih.copy
      · rw [same']
        exact .cons 2 (fun _ => ends) ih

/-- A text that is indented several times has spaces in front, and behind some of its line ends. -/
theorem exists_padded_indentChars (n : Nat) (cs : List Char) :
    ∃ m ds, Text.indentChars^[n] cs = List.replicate m ' ' ++ ds ∧ Padded cs ds := by
  induction n with
  | zero => exact ⟨0, cs, rfl, padded_self cs⟩
  | succ n ih =>
    obtain ⟨m, ds, same, padded⟩ := ih
    have spaces : ∀ c ∈ List.replicate m ' ', Text.isLineEnd c = false :=
      fun c => isLineEnd_of_mem_replicate
    have further : Padded cs (indentRest ds) := padded.trans (padded_indentRest ds)
    rw [Function.iterate_succ_apply', same]
    rcases indentChars_eq (List.replicate m ' ' ++ ds) with same' | same'
    · exact ⟨m, _, by rw [same', indentRest_append spaces], further⟩
    · exact ⟨m + 2, _, by rw [same', indentRest_append spaces]; rfl, further⟩

/-! ### Strings -/

theorem isInert_of_mem_replicate {n : Nat} : ∀ c ∈ List.replicate n ' ', isInert c = true := by
  intro c hc
  rw [List.eq_of_mem_replicate hc]
  decide

theorem isLineEnd_of_isEscapeChar {c : Char} (h : isEscapeChar c = true) :
    Text.isLineEnd c = false := by
  rw [isEscapeChar, Bool.or_eq_true] at h
  rcases h with h | h
  · exact isLineEnd_of_isNameChar h
  · have marks : ∀ c ∈ ['\x22', '\\', '/', '\x7b', '\x7d'], Text.isLineEnd c = false :=
      eq_false_of_all (by decide)
    exact marks c (List.contains_iff_mem.1 h)

/-- Strings end at the same place of both texts. -/
theorem StringEnds.padded (ends : StringEnds cs rest) (h : Padded cs ds) :
    ∃ rest', StringEnds ds rest' ∧ Padded rest rest' := by
  induction ends generalizing ds with
  | quote rest =>
    obtain ⟨es, rfl, padded⟩ := h.of_cons (by decide)
    exact ⟨es, .quote es, padded⟩
  | escape escape ends ih =>
    obtain ⟨as, escaped, rfl, each⟩ := escapeSource_readEscape escape
    obtain ⟨es, rfl, behind⟩ := h.of_cons (by decide)
    obtain ⟨es, rfl, padded⟩ :=
      behind.of_append fun c hc => isLineEnd_of_isEscapeChar (escaped c hc)
    obtain ⟨rest', ends', last⟩ := ih padded
    exact ⟨rest', .escape (each es) ends', last⟩
  | inert inert ends ih =>
    cases h with
    | cons n _ padded =>
      obtain ⟨rest', ends', last⟩ := ih padded
      exact ⟨rest', .inert inert ((stringEnds_append isInert_of_mem_replicate).2 ends'), last⟩

/-- Block strings end at the same place of both texts. -/
theorem BlockEnds.padded (ends : BlockEnds cs rest) (h : Padded cs ds) :
    ∃ rest', BlockEnds ds rest' ∧ Padded rest rest' := by
  induction ends generalizing ds with
  | quotes rest =>
    obtain ⟨es, rfl, padded⟩ := h.of_append (eq_false_of_all (by decide))
    exact ⟨es, .quotes es, padded⟩
  | escaped ends ih =>
    obtain ⟨es, rfl, padded⟩ := h.of_append (eq_false_of_all (by decide))
    obtain ⟨rest', ends', last⟩ := ih padded
    exact ⟨rest', .escaped ends', last⟩
  | char unquoted unescaped ends ih =>
    rw [h.isPrefix_iff (eq_false_of_all (by decide))] at unquoted unescaped
    cases h with
    | cons n _ padded =>
      obtain ⟨rest', ends', last⟩ := ih padded
      refine ⟨rest', .char unquoted unescaped ?_, last⟩
      exact (blockEnds_append isInert_of_mem_replicate).2 ends'

/-! ### Tokens -/

/-- The characters that end a line are blank. -/
theorem isLineEnd_of_visible {c : Char} (h : Text.isBlank c = false) :
    Text.isLineEnd c = false := by
  simp only [Text.isBlank, Text.isLineEnd, Bool.or_eq_false_iff, Bool.and_eq_false_iff,
    decide_eq_false_iff_not, beq_eq_false_iff_ne] at h ⊢
  omega

/-- Tokens that are the same up to the values of strings. -/
inductive Matches : Token → Token → Prop
  | same (t : Token) : Matches t t
  | string (v w : String) : Matches (.string v) (.string w)
  | block (v w : String) : Matches (.block v) (.block w)

/-- The tokens that two such texts begin with. -/
theorem read_padded {c : Char} (h : Padded (c :: cs) ds)
    (read : Token.read (c :: cs) = some (t, rest)) :
    ∃ t' rest', Token.read ds = some (t', rest') ∧ Matches t t' ∧ Padded rest rest' := by
  by_cases quote : c = '\x22'
  · subst quote
    obtain ⟨es, rfl, inside⟩ := h.of_cons (by decide)
    by_cases block : ['\x22', '\x22'] <+: cs
    · obtain ⟨cs, rfl⟩ := block
      obtain ⟨es, rfl, padded⟩ := inside.of_append (eq_false_of_all (by decide))
      obtain ⟨⟨s, others⟩, block, same⟩ := Option.map_eq_some_iff.1 read
      cases same
      obtain ⟨rest', ends, last⟩ := (blockEnds_of_readBlock block).padded padded
      obtain ⟨s', block'⟩ := ends.exists_readBlock
      refine ⟨.block (String.ofList (BlockText.value s')), rest', ?_, .block _ _, last⟩
      show (readBlock es).map _ = _
      rw [block']
      rfl
    · rw [read_string block] at read
      rw [inside.isPrefix_iff (eq_false_of_all (by decide))] at block
      obtain ⟨⟨s, others⟩, string, same⟩ := Option.map_eq_some_iff.1 read
      cases same
      obtain ⟨rest', ends, last⟩ := (stringEnds_of_readString string).padded inside
      obtain ⟨s', string'⟩ := ends.exists_readString (Nat.lt_succ_self _)
      refine ⟨.string (String.ofList s'), rest', ?_, .string _ _, last⟩
      rw [read_string block, string']
      rfl
  · -- Other tokens have no line ends, so they stay as they are.
    obtain ⟨as, source⟩ := exists_source read
    have plain := source.plain fun same => quote (Option.some.inj same)
    rw [source.split] at h
    obtain ⟨es, rfl, padded⟩ := h.of_append fun c hc => isLineEnd_of_visible (plain c hc)
    refine ⟨t, es, source.again es fun c hc => .inr ?_, .same t, padded⟩
    rw [← padded.head?_eq]
    exact hc

/-- Spaces in front of a text mean nothing. -/
theorem Lexes.spaces (h : Lexes cs ts) (n : Nat) : Lexes (List.replicate n ' ' ++ cs) ts := by
  induction n with
  | zero => exact h
  | succ n ih => exact .ignored rfl ih

/-- The tokens of a text with spaces behind some of its line ends. -/
theorem lexes_padded (lexes : Lexes cs ts) (h : Padded cs ds) :
    ∃ us, Lexes ds us ∧ List.Forall₂ Matches ts us := by
  induction lexes generalizing ds with
  | nil =>
    cases h
    exact ⟨[], .nil, .nil⟩
  | ignored ignored lexes ih =>
    cases h with
    | cons n _ padded =>
      obtain ⟨us, lexes', matching⟩ := ih padded
      exact ⟨us, .ignored ignored (lexes'.spaces n), matching⟩
  | comment lexes ih =>
    obtain ⟨es, rfl, padded⟩ := h.of_cons (by decide)
    obtain ⟨us, lexes', matching⟩ := ih (padded.dropWhile (by decide))
    exact ⟨us, .comment lexes', matching⟩
  | @token c cs rest t ts meant starts read lexes ih =>
    obtain ⟨t', rest', read', alike, padded⟩ := read_padded h read
    obtain ⟨us, lexes', others⟩ := ih padded
    cases h with
    | cons n _ _ => exact ⟨t' :: us, .token meant starts read' lexes', .cons alike others⟩

/-- The tokens of a text that is moved to the right. -/
theorem Lexes.moved (h : Lexes cs ts) (n : Nat) :
    ∃ us, Lexes (Text.indentChars^[n] cs) us ∧ List.Forall₂ Matches ts us := by
  obtain ⟨m, ds, same, padded⟩ := exists_padded_indentChars n cs
  obtain ⟨us, lexes, matching⟩ := lexes_padded h padded
  exact ⟨us, same ▸ lexes.spaces m, matching⟩

end GraphRequest.Document.Token

/-! ### Several lines -/

namespace GraphRequest.Text

variable {as bs : List Char}

/-- Lines with a line feed behind the last one, unless that has an end: then the line feed is a line
of its own. -/
def FeedBehind (ls ls' : List (List Char)) : Prop :=
  ls' = ls ++ [['\n']] ∨ ∃ before last, ls = before ++ [last] ∧ ls' = before ++ [last ++ ['\n']]

theorem FeedBehind.cons {ls ls' : List (List Char)} (h : FeedBehind ls ls') (l : List Char) :
    FeedBehind (l :: ls) (l :: ls') := by
  rcases h with rfl | ⟨before, last, rfl, rfl⟩
  · exact .inl rfl
  · exact .inr ⟨l :: before, last, rfl, rfl⟩

/-- A character put in front of the first line. -/
theorem FeedBehind.front {l : List Char} {ls ls' : List (List Char)} (h : FeedBehind (l :: ls) ls')
    (c : Char) : ∃ l' ls'', ls' = l' :: ls'' ∧ FeedBehind ((c :: l) :: ls) ((c :: l') :: ls'') := by
  rcases h with rfl | ⟨before, last, same, rfl⟩
  · exact ⟨l, ls ++ [['\n']], rfl, .inl rfl⟩
  · cases before with
    | nil =>
      obtain ⟨rfl, rfl⟩ := List.cons.inj same
      exact ⟨l ++ ['\n'], [], rfl, .inr ⟨[], c :: l, rfl, rfl⟩⟩
    | cons b before =>
      obtain ⟨rfl, rfl⟩ := List.cons.inj same
      exact ⟨l, _, rfl, .inr ⟨(c :: l) :: before, last, rfl, rfl⟩⟩

theorem lines_cons_ne_nil (c : Char) (cs : List Char) : lines (c :: cs) ≠ [] := by
  intro none'
  have whole := flatten_lines (c :: cs)
  rw [none'] at whole
  cases whole

/-- The lines of two texts with a line feed between them. -/
theorem exists_lines_append_break (as bs : List Char) :
    ∃ ls, lines (as ++ '\n' :: bs) = ls ++ lines bs ∧ FeedBehind (lines as) ls := by
  induction as with
  | nil => exact ⟨[['\n']], rfl, .inl rfl⟩
  | cons a as ih =>
    obtain ⟨ls, split, behind⟩ := ih
    cases as with
    | nil =>
      have feed : lines ('\n' :: bs) = ['\n'] :: lines bs := rfl
      have alone : lines [a] = [[a]] := by
        unfold lines
        split <;> rfl
      rw [alone, List.singleton_append, lines, feed]
      split
      · exact ⟨[[a], ['\n']], rfl, .inl rfl⟩
      · exact ⟨[[a, '\n']], rfl, .inr ⟨[], [a], rfl, rfl⟩⟩
    | cons b as =>
      rw [List.cons_append] at split ⊢
      rw [List.cons_append, lines, split, lines.eq_2 a (b :: as), List.head?_cons, List.head?_cons]
      by_cases ends : (isLineEnd a && !(a == '\r' && some b == some '\n')) = true
      · rw [if_pos ends, if_pos ends]
        exact ⟨[a] :: ls, rfl, behind.cons [a]⟩
      · rw [if_neg ends, if_neg ends]
        cases whole : lines (b :: as) with
        | nil => exact absurd whole (lines_cons_ne_nil b as)
        | cons l rest =>
          rw [whole] at behind
          obtain ⟨l', ls', rfl, longer⟩ := behind.front a
          exact ⟨(a :: l') :: ls', rfl, longer⟩

theorem indentLine_feed (l : List Char) : indentLine (l ++ ['\n']) = indentLine l ++ ['\n'] := by
  have feed : isBlank '\n' = true := by decide
  have same : (l ++ ['\n']).all isBlank = l.all isBlank := by simp [feed]
  unfold indentLine
  rw [same]
  split <;> rfl

/-- Indenting texts with a line feed between them indents each of them. -/
theorem indentChars_append_break (as bs : List Char) :
    indentChars (as ++ '\n' :: bs) = indentChars as ++ '\n' :: indentChars bs := by
  obtain ⟨ls, split, behind⟩ := exists_lines_append_break as bs
  have first : ls.flatMap indentLine = (lines as).flatMap indentLine ++ ['\n'] := by
    rcases behind with rfl | ⟨before, last, same, rfl⟩
    · rw [List.flatMap_append]
      rfl
    · rw [same, List.flatMap_append, List.flatMap_append, List.flatMap_singleton,
        List.flatMap_singleton, indentLine_feed, List.append_assoc]
  rw [indentChars, split, List.flatMap_append, first, List.append_assoc]
  rfl

theorem iterate_indentChars_append_break (n : Nat) (as bs : List Char) :
    indentChars^[n] (as ++ '\n' :: bs) = indentChars^[n] as ++ '\n' :: indentChars^[n] bs := by
  induction n generalizing as bs with
  | zero => rfl
  | succ n ih =>
    rw [Function.iterate_succ_apply, Function.iterate_succ_apply, Function.iterate_succ_apply,
      indentChars_append_break, ih]

end GraphRequest.Text
