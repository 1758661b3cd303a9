import GraphRequest.Proofs.Document.Faithful
import GraphRequest.Proofs.Document.Lexing
import GraphRequest.Proofs.Query.Documents
import GraphRequest.Proofs.Schema.Wrappers

/-!
# Texts of types

A type is written as a name in brackets and marks, with anything that is ignored between its tokens.
Reading such a text and writing what was read takes out what is ignored and nothing else, as long as
the type has at most one level of lists; with more levels it has no base type and is refused.
The other way round, every base type is read back from its own text.

* `Token.withoutIgnored`: a text without spaces, commas, byte order marks and comments.
* `TypeText.WrittenAs`: a text is a way to write a type.
* `TypeText.Reads`: a reader reads exactly the texts that are a way to write a type.
* `TypeRef.wire_ofTextBy`: what is written of a type that was read, and what is read of a base type
  that was written.
-/

namespace GraphRequest

namespace Document

/-! ### Texts without what is ignored -/

namespace Token

/-- The characters that are not ignored, from inside a comment or from outside of one. Texts of
names and punctuators have no strings, so that every number sign opens a comment. -/
def stripFrom : Bool → List Char → List Char
  | _, [] => []
  | true, c :: cs => stripFrom (!isBreak c) cs
  | false, c :: cs =>
    if c == '#' then stripFrom true cs
    else if isIgnored c then stripFrom false cs
    else c :: stripFrom false cs

/-- A text of names and punctuators without anything that is ignored. -/
def withoutIgnored (s : String) : String := String.ofList (stripFrom false s.toList)

example : withoutIgnored " [ Int,! ] # items\n !" = "[Int!]!" := by decide

/-- The characters of a name or a punctuator, and nothing for other tokens. -/
def chars : Token → List Char
  | .name text => text.toList
  | .punctuator c => [c]
  | _ => []

/-- Whether a token is a name or a punctuator. -/
def isBare : Token → Bool
  | .name _ => true
  | .punctuator _ => true
  | _ => false

theorem isIgnored_of_isBreak {c : Char} (h : isBreak c = true) : isIgnored c = true := by
  rw [isBreak, Bool.or_eq_true] at h
  rcases h with h | h <;> rw [eq_of_beq h] <;> decide

theorem hash_of_isIgnored {c : Char} (h : isIgnored c = true) : (c == '#') = false := by
  rw [beq_eq_false_iff_ne]
  rintro rfl
  cases h

theorem stripFrom_ignored {c : Char} (h : isIgnored c = true) (cs : List Char) :
    stripFrom false (c :: cs) = stripFrom false cs := by
  rw [stripFrom, hash_of_isIgnored h, if_neg (by decide), if_pos h]

/-- A comment goes on to the next line break. -/
theorem stripFrom_comment (cs : List Char) :
    stripFrom true cs = stripFrom false (cs.dropWhile (!isBreak ·)) := by
  induction cs with
  | nil => rfl
  | cons c cs ih =>
    rw [stripFrom]
    cases ends : isBreak c with
    | false =>
      rw [List.dropWhile_cons_of_pos (by rw [ends]; rfl)]
      exact ih
    | true =>
      rw [List.dropWhile_cons_of_neg (by rw [ends]; decide),
        stripFrom_ignored (isIgnored_of_isBreak ends)]
      rfl

theorem stripFrom_append {as : List Char} (h : ∀ c ∈ as, isIgnored c = false ∧ c ≠ '#')
    (cs : List Char) : stripFrom false (as ++ cs) = as ++ stripFrom false cs := by
  induction as with
  | nil => rfl
  | cons c as ih =>
    obtain ⟨meant, starts⟩ := h c (.head _)
    rw [List.cons_append, stripFrom, beq_eq_false_iff_ne.2 starts, if_neg (by decide), meant,
      if_neg (by decide), ih fun d hd => h d (.tail _ hd)]
    rfl

/-- A name or a punctuator is read from its own characters, none of which is ignored. -/
theorem chars_of_read {cs rest : List Char} {t : Token} (bare : t.isBare = true)
    (h : Token.read cs = some (t, rest)) :
    cs = t.chars ++ rest ∧ ∀ c ∈ t.chars, isIgnored c = false ∧ c ≠ '#' := by
  unfold Token.read at h
  split at h
  · cases h
  · cases h
    cases bare
  · obtain ⟨p, _, same⟩ := Option.map_eq_some_iff.1 h
    cases same
    cases bare
  · obtain ⟨p, _, same⟩ := Option.map_eq_some_iff.1 h
    cases same
    cases bare
  · rename_i c cs _ _ _
    split at h
    · rename_i mark
      cases h
      refine ⟨rfl, fun d hd => ?_⟩
      rw [List.mem_singleton.1 hd]
      refine ⟨not_of_isPunctuator mark (by decide), ?_⟩
      rintro rfl
      cases mark
    · split at h
      · rename_i start
        cases h
        refine ⟨?_, fun d hd => ?_⟩
        · rw [chars, String.toList_ofList, List.cons_append, List.takeWhile_append_dropWhile]
        · have named : isNameChar d = true := by
            rw [chars, String.toList_ofList] at hd
            rcases List.mem_cons.1 hd with rfl | hd
            · exact isNameChar_of_isNameStart start
            · exact List.mem_takeWhile_imp hd
          obtain ⟨meant, _, other⟩ := isIgnored_of_isNameChar named
          exact ⟨meant, fun same => other (same ▸ by simp)⟩
      · split at h
        · have number := isNumber_of_readNumber h
          cases t with
          | int _ => cases bare
          | float _ => cases bare
          | _ => cases number
        · cases h

/-- A text of names and punctuators without anything that is ignored consists of their characters.
-/
theorem stripFrom_of_lexes {cs : List Char} {ts : List Token} (h : Lexes cs ts)
    (bare : ∀ t ∈ ts, t.isBare = true) : stripFrom false cs = ts.flatMap chars := by
  induction h with
  | nil => rfl
  | ignored ignored _ ih => rw [stripFrom_ignored ignored, ih bare]
  | comment _ ih =>
    rw [← ih bare, ← stripFrom_comment]
    rfl
  | token _ _ read _ ih =>
    obtain ⟨split, meant⟩ := chars_of_read (bare _ (.head _)) read
    rw [split, stripFrom_append meant, ih fun t ht => bare t (.tail _ ht), List.flatMap_cons]

end Token

/-! ### Ways to write a type -/

namespace TypeText

/-- The name at the base of a type. -/
def baseName : TypeText → String
  | .named name => name
  | .list item => item.baseName
  | .nonNull type => type.baseName

/-- The number of lists that a type consists of. -/
def levels : TypeText → Nat
  | .named _ => 0
  | .list item => item.levels + 1
  | .nonNull type => type.levels

/-- A text is a way to write a type of the grammar. -/
def WrittenAs (type : TypeText) (text : String) : Prop :=
  type.isValid = true ∧ Token.ofChars? text.toList = some type.tokens

variable {type : TypeText} {text : String}

theorem isBare_tokens (type : TypeText) : ∀ t ∈ type.tokens, t.isBare = true := by
  induction type with
  | named name => exact List.forall_mem_singleton.2 rfl
  | list item ih =>
    refine List.forall_mem_cons.2 ⟨rfl, List.forall_mem_append.2 ⟨ih, ?_⟩⟩
    exact List.forall_mem_singleton.2 rfl
  | nonNull type ih => exact List.forall_mem_append.2 ⟨ih, List.forall_mem_singleton.2 rfl⟩

theorem chars_tokens (type : TypeText) : type.tokens.flatMap Token.chars = type.text.toList := by
  induction type with
  | named name => simp [tokens, Token.chars, TypeText.text]
  | list item ih => simp [tokens, Token.chars, TypeText.text, ih]
  | nonNull type ih => simp [tokens, Token.chars, TypeText.text, ih]

/-- Without what is ignored, every way to write a type is its one printed form. -/
theorem WrittenAs.withoutIgnored (h : type.WrittenAs text) :
    Token.withoutIgnored text = type.text := by
  rw [Token.withoutIgnored,
    Token.stripFrom_of_lexes (Token.ofChars?_eq_some.1 h.2) type.isBare_tokens, chars_tokens,
    String.ofList_toList]

theorem baseName_mem_tokens (type : TypeText) : .name type.baseName ∈ type.tokens := by
  induction type with
  | named name => exact .head _
  | list item ih => exact .tail _ (List.mem_append_left _ ih)
  | nonNull type ih => exact List.mem_append_left _ ih

/-- A type that is written goes by a name. -/
theorem WrittenAs.baseName_ne_empty (h : type.WrittenAs text) : type.baseName ≠ "" := by
  have named := Token.isName_of_lexes (Token.ofChars?_eq_some.1 h.2) type.baseName_mem_tokens
  intro empty
  rw [empty] at named
  cases named

/-! ### Reading -/

/-- A type that can take a mark is one of the grammar, whether a mark follows or not. -/
theorem isValid_readMark (type : TypeText) (marked : (nonNull type).isValid = true)
    (ts : List Token) : (readMark type ts).1.isValid = true := by
  unfold readMark
  split
  · exact marked
  · cases type with
    | nonNull inner => cases marked
    | _ => exact marked

/-- What is read as a type is a type of the grammar. -/
theorem isValid_of_readType {fuel : Nat} {ts rest : List Token}
    (h : readType fuel ts = some (type, rest)) : type.isValid = true := by
  induction fuel generalizing ts type rest with
  | zero => cases h
  | succ fuel ih =>
    unfold readType at h
    split at h
    · rename_i name others
      have valid := isValid_readMark (.named name) rfl others
      rw [Option.some.inj h] at valid
      exact valid
    · obtain ⟨⟨item, rest₁⟩, inside, h⟩ := Option.bind_eq_some_iff.1 h
      dsimp only at h
      split at h
      · rename_i others
        have inner : item.isValid = true := ih inside
        have valid := isValid_readMark (.list item) inner others
        rw [Option.some.inj h] at valid
        exact valid
      · cases h
    · cases h

/-- A reader implements the grammar of types: what it reads as a type are the ways to write it. -/
def Reads (read : String → Option TypeText) : Prop :=
  ∀ text type, read text = some type ↔ type.WrittenAs text

/-- The reader without a bound on the nesting implements the grammar of types. -/
theorem reads_readText? : Reads readText? := by
  intro text type
  constructor
  · intro h
    obtain ⟨ts, lexed, h⟩ := Option.bind_eq_some_iff.1 h
    unfold readTokens? at h
    split at h
    · rename_i read
      cases h
      have same := readType_faithful read
      rw [List.append_nil] at same
      exact ⟨isValid_of_readType read, lexed.trans (congrArg some same)⟩
    · cases h
  · intro h
    have read : readType (2 * type.tokens.length + 2) (type.tokens ++ []) = some (type, []) :=
      readType_tokens _ type h.1 (by omega) nofun
    rw [List.append_nil] at read
    rw [readText?, h.2]
    show readTokens? type.tokens = some type
    rw [readTokens?, read]

/-! ### Wrappers -/

/-- The wrappers of a type, from the outside in. -/
def wrappers : TypeText → List Wrapper
  | .named _ => []
  | .list item => .list :: item.wrappers
  | .nonNull type => .nonNull :: type.wrappers

/-- A name in a chain of wrappers. -/
def wrap (name : String) : List Wrapper → TypeText
  | [] => .named name
  | .list :: ws => .list (wrap name ws)
  | .nonNull :: ws => .nonNull (wrap name ws)

theorem wrap_wrappers (type : TypeText) : wrap type.baseName type.wrappers = type := by
  induction type with
  | named name => rfl
  | list item ih => exact congrArg _ ih
  | nonNull type ih => exact congrArg _ ih

theorem wrappers_wrap (name : String) (ws : List Wrapper) : (wrap name ws).wrappers = ws := by
  induction ws with
  | nil => rfl
  | cons w ws ih => cases w <;> exact congrArg _ ih

theorem baseName_wrap (name : String) (ws : List Wrapper) : (wrap name ws).baseName = name := by
  induction ws with
  | nil => rfl
  | cons w ws ih => cases w <;> exact ih

theorem levels_eq (type : TypeText) : type.levels = type.wrappers.count .list := by
  induction type with
  | named name => rfl
  | list item ih => rw [levels, wrappers, List.count_cons_self, ih]
  | nonNull type ih => rw [levels, wrappers, List.count_cons_of_ne (by decide), ih]

/-- A type of the grammar without lists has at most one mark. -/
theorem wrappers_of_levels (valid : type.isValid = true) (flat : type.levels = 0) :
    type.wrappers = [] ∨ type.wrappers = [.nonNull] := by
  cases type with
  | named name => exact .inl rfl
  | list item => cases flat
  | nonNull inner =>
    cases inner with
    | named name => exact .inr rfl
    | list item => cases flat
    | nonNull inner => cases valid

/-- A type of the grammar with at most one list stands in a supported chain. -/
theorem wrappers_mem_supportedChains (valid : type.isValid = true) (flat : type.levels ≤ 1) :
    type.wrappers ∈ supportedChains := by
  cases type with
  | named name => exact .head _
  | list item =>
    rw [levels] at flat
    rw [wrappers]
    rcases item.wrappers_of_levels valid (by omega) with h | h <;> rw [h] <;> decide
  | nonNull inner =>
    cases inner with
    | named name => exact .tail _ (.head _)
    | list item =>
      rw [levels, levels] at flat
      rw [wrappers, wrappers]
      rcases item.wrappers_of_levels valid (by omega) with h | h <;> rw [h] <;> decide
    | nonNull inner => cases valid

end TypeText

end Document

/-! ### Base types -/

open Document (TypeText)

namespace BaseType

/-- The written type of a base type is its name in its wrappers. -/
theorem typeText_eq (b : BaseType) : b.typeText = TypeText.wrap b.name.text b.wrappers := by
  unfold typeText nullableText BaseType.wrappers
  cases b.isNonNull <;> cases b.isList <;> cases b.isItemNonNull <;> rfl

theorem wrappers_typeText (b : BaseType) : b.typeText.wrappers = b.wrappers := by
  rw [typeText_eq, TypeText.wrappers_wrap]

theorem isList_eq (b : BaseType) : b.isList = b.wrappers.contains .list := by
  unfold BaseType.wrappers
  cases b.isNonNull <;> cases b.isList <;> cases b.isItemNonNull <;> rfl

theorem isNonNull_eq (b : BaseType) : b.isNonNull = (b.wrappers.head? == some .nonNull) := by
  unfold BaseType.wrappers
  cases b.isNonNull <;> cases b.isList <;> cases b.isItemNonNull <;> rfl

theorem isItemNonNull_eq {b : BaseType} (flat : b.isItemNonNull = true → b.isList = true) :
    b.isItemNonNull = (b.wrappers.contains .list && b.wrappers.getLast? == some .nonNull) := by
  revert flat
  unfold BaseType.wrappers
  cases b.isNonNull <;> cases b.isList <;> cases b.isItemNonNull <;> decide

/-- Two base types of the same named type with the same wrappers are equal: each flag can be read
off the wrappers. -/
theorem eq_of_wrappers {b c : BaseType} {u : TypeRef} (names : b.Names u) (names' : c.Names u)
    (h : b.wrappers = c.wrappers) : b = c := by
  have list : b.isList = c.isList := by rw [isList_eq, isList_eq, h]
  have mark : b.isNonNull = c.isNonNull := by rw [isNonNull_eq, isNonNull_eq, h]
  have item : b.isItemNonNull = c.isItemNonNull := by
    rw [isItemNonNull_eq names.flat, isItemNonNull_eq names'.flat, h]
  have name : b.name = c.name := names.name.trans names'.name.symm
  have kind : b.kind = c.kind := names.kind.trans names'.kind.symm
  cases b
  cases c
  cases list
  cases mark
  cases item
  cases name
  cases kind
  rfl

end BaseType

namespace TypeRef

variable {kind : TypeKind} (plain : kind.isWrapper = false)

include plain

theorem wrappers_ofTypeText (type : TypeText) :
    (ofTypeText kind type).wrappers = type.wrappers := by
  induction type with
  | named name => exact wrappers_plain (TypeKind.wrapper?_eq_none.2 plain) _ _
  | list item ih => exact (wrappers_wrap .list _ _).trans (congrArg _ ih)
  | nonNull type ih => exact (wrappers_wrap .nonNull _ _).trans (congrArg _ ih)

theorem innermost?_ofTypeText (type : TypeText) :
    (ofTypeText kind type).innermost? = some (named kind type.baseName) := by
  induction type with
  | named name => exact innermost?_plain (TypeKind.wrapper?_eq_none.2 plain) _ _
  | list item ih => exact (innermost?_wrap .list _ _).trans ih
  | nonNull type ih => exact (innermost?_wrap .nonNull _ _).trans ih

/-- The base type of a written type, when it has one, is that of its name, and its wrappers are
those of the type but for a second mark. -/
theorem base_ofTypeText {type : TypeText} {b : BaseType} (h : (ofTypeText kind type).base = .ok b) :
    b.Names (named kind type.baseName) ∧ (type.wrappers = b.wrappers ∨
      b.isItemNonNull = true ∧ type.wrappers = b.wrappers ++ [Wrapper.nonNull]) := by
  obtain ⟨u, inside, _, names, chain⟩ := wrappers_of_base h
  rw [innermost?_ofTypeText plain] at inside
  rw [wrappers_ofTypeText plain] at chain
  cases inside
  exact ⟨names, chain⟩

/-- A type of the grammar with at most one list has a base type, and it is written as that type. -/
theorem exists_base_ofTypeText {type : TypeText} (valid : type.isValid = true)
    (flat : type.levels ≤ 1) (present : type.baseName ≠ "") :
    ∃ b, (ofTypeText kind type).base = .ok b ∧ b.name = .str type.baseName ∧ b.typeText = type := by
  have supported := TypeText.wrappers_mem_supportedChains valid flat
  have ended : (ofTypeText kind type).isEnded = true := by
    rw [isEnded, innermost?_ofTypeText plain]
    exact bne_iff_ne.2 present
  rw [← wrappers_ofTypeText plain] at supported
  obtain ⟨b, based⟩ := exists_base ended (List.mem_append_left _ supported)
  have unrepeated : (ofTypeText kind type).repeatsMark = false := by
    rw [← Bool.not_eq_true, repeatsMark_iff]
    rintro ⟨_, repeated⟩
    exact not_mem_supportedChains repeated supported
  obtain ⟨chain, u, inside, names⟩ := describes_of_base unrepeated based
  rw [innermost?_ofTypeText plain] at inside
  cases inside
  rw [wrappers_ofTypeText plain] at chain
  refine ⟨b, based, names.name, ?_⟩
  rw [BaseType.typeText_eq, ← chain, names.name]
  exact TypeText.wrap_wrappers type

omit plain in
theorem count_list_wrappers (b : BaseType) : b.wrappers.count .list ≤ 1 := by
  have all : ∀ ws ∈ supportedChains, ws.count .list ≤ 1 := by decide
  exact all _ (wrappers_mem_supportedChains b)

/-- A written type with a base type has at most one list. -/
theorem levels_of_base {type : TypeText} {b : BaseType} (h : (ofTypeText kind type).base = .ok b) :
    type.levels ≤ 1 := by
  have single := count_list_wrappers b
  rw [TypeText.levels_eq]
  obtain ⟨_, same | ⟨_, more⟩⟩ := base_ofTypeText plain h
  · rw [same]
    exact single
  · rw [more, List.count_append]
    exact single

variable {read : String → Option TypeText} (reads : TypeText.Reads read)

include reads

omit plain in
/-- Every way to write a type is read as that type. -/
theorem ofTextBy_of_writtenAs {type : TypeText} {text : String} (h : type.WrittenAs text) :
    ofTextBy read text kind = .ok (ofTypeText kind type) := by
  rw [ofTextBy, (reads text type).2 h]

/-- A base type is read back from its text. -/
theorem base_ofTextBy {b : BaseType} (named : b.name.isName = true) (of : b.kind = kind)
    (flat : b.isItemNonNull = true → b.isList = true) :
    (ofTextBy read b.typeText.text kind >>= base) = .ok b := by
  obtain ⟨name, hname, _⟩ := Value.isName_iff.1 named
  have base_name : b.typeText.baseName = name := by
    rw [BaseType.typeText_eq, TypeText.baseName_wrap, hname]
    rfl
  have written : b.typeText.WrittenAs b.typeText.text :=
    ⟨b.typeText_isValid, (TypeText.spells (BaseType.typeText_isNamed named)).ofChars?⟩
  have single : b.typeText.levels ≤ 1 := by
    rw [TypeText.levels_eq, b.wrappers_typeText]
    exact count_list_wrappers b
  obtain ⟨c, based, c_name, same⟩ :=
    exists_base_ofTypeText plain written.1 single written.baseName_ne_empty
  have c_chain : c.wrappers = b.wrappers := by
    rw [← c.wrappers_typeText, same, b.wrappers_typeText]
  have names := (base_ofTypeText plain based).1
  have names' : b.Names (TypeRef.named kind b.typeText.baseName) :=
    ⟨hname.trans (congrArg _ base_name.symm), of, flat⟩
  rw [ofTextBy_of_writtenAs reads written]
  exact based.trans (congrArg _ (BaseType.eq_of_wrappers names names' c_chain))

/-- A text of a type with at most one list is written without what is ignored. -/
theorem wire_of_writtenAs {type : TypeText} {text : String} (h : type.WrittenAs text)
    (flat : type.levels ≤ 1) :
    (ofTextBy read text kind >>= wire) =
      .ok (.str (Document.Token.withoutIgnored text)) := by
  obtain ⟨b, based, b_name, same⟩ := exists_base_ofTypeText plain h.1 flat h.baseName_ne_empty
  rw [ofTextBy_of_writtenAs reads h, h.withoutIgnored]
  show (ofTypeText kind type).base >>= BaseType.wire = _
  rw [based, ← same]
  exact BaseType.wire_of_str b_name

/-- A text of a type with more lists is refused: a list is left when the wrappers were taken
off. -/
theorem refused_of_writtenAs {type : TypeText} {text : String} (h : type.WrittenAs text)
    (deep : 2 ≤ type.levels) :
    ∃ fault, (ofTextBy read text kind >>= wire) = .error (.schema fault) := by
  rw [ofTextBy_of_writtenAs reads h]
  show ∃ fault, (ofTypeText kind type).base >>= BaseType.wire = _
  cases based : (ofTypeText kind type).base with
  | ok b =>
    have flat := levels_of_base plain based
    omega
  | error fault =>
    rw [noBaseName_of_base based]
    exact ⟨_, rfl⟩

/-- Writing a type that was read takes out what is ignored, and a base type is read back from what
it is written as, whatever reader implements the grammar of types. A type of two or more levels of
lists is refused, whatever it is a list of. -/
theorem wire_ofTextBy :
    (∀ (text : String) (type : TypeText), read text = some type →
      (type.levels ≤ 1 → (ofTextBy read text kind >>= wire) =
        .ok (.str (Document.Token.withoutIgnored text))) ∧
      (2 ≤ type.levels →
        ∃ fault, (ofTextBy read text kind >>= wire) = .error (.schema fault))) ∧
    ∀ b : BaseType, b.name.isName = true → b.kind = kind →
      (b.isItemNonNull = true → b.isList = true) →
      ∃ text, b.wire = .ok (.str text) ∧ (ofTextBy read text kind >>= base) = .ok b := by
  refine ⟨fun text type accepted => ?_, ?_⟩
  · have written := (reads text type).1 accepted
    exact ⟨wire_of_writtenAs plain reads written, refused_of_writtenAs plain reads written⟩
  · intro b named of flat
    obtain ⟨name, hname, _⟩ := Value.isName_iff.1 named
    exact ⟨_, BaseType.wire_of_str hname, base_ofTextBy plain reads named of flat⟩

omit plain reads in
/-- Spaces, a comma and a comment in a list of integers without null, a list of lists, and the base
type of a list. -/
theorem wire_ofTextBy_integers :
    TypeKind.scalar.isWrapper = false ∧ TypeText.Reads TypeText.readText? ∧
      (ofTextBy TypeText.readText? " [ Int,! ] # items\n !" .scalar >>= wire) =
        .ok (.str "[Int!]!") ∧
      (∃ fault, (ofTextBy TypeText.readText? "[[Int]]" .scalar >>= wire) =
        .error (.schema fault)) ∧
      ∃ text, BaseType.wire ⟨.str "Int", .scalar, true, false, true⟩ = .ok (.str text) ∧
        (ofTextBy TypeText.readText? text .scalar >>= base) =
          .ok ⟨.str "Int", .scalar, true, false, true⟩ := by
  have plain : TypeKind.scalar.isWrapper = false := rfl
  obtain ⟨written, readback⟩ := wire_ofTextBy plain TypeText.reads_readText?
  have ints : TypeText.readText? " [ Int,! ] # items\n !" =
      some (.nonNull (.list (.nonNull (.named "Int")))) := by decide +kernel
  have lists : TypeText.readText? "[[Int]]" = some (.list (.list (.named "Int"))) := by
    decide +kernel
  exact ⟨plain, TypeText.reads_readText?, (written _ _ ints).1 (by decide),
    (written _ _ lists).2 (by decide), readback _ (by decide) rfl fun _ => rfl⟩

end TypeRef

end GraphRequest
