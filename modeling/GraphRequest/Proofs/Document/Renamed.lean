import GraphRequest.Document.Reading
import GraphRequest.Proofs.Document.Lexing
import GraphRequest.Proofs.Document.Spelling

/-!
# Documents under another name

The first definition of a document may be an operation with a name. Its keyword and its name can be
exchanged in the text without any effect on the rest of the document, whatever follows in the text:
also where the name goes on in characters that belong to no name.

* `renamed`: a document whose first operation has another keyword and another name.
* `EvenHanded`: readers that do not tell the kinds of operations apart.
* `EvenHanded.read_renamed`: a text with an exchanged header is read as the renamed document.
-/

namespace GraphRequest.Document

/-! ### Tokens -/

namespace Token

theorem closed_dropWhile (cs : List Char) : Closed (cs.dropWhile isNameChar) := by
  intro c hc
  have := List.head?_dropWhile_not isNameChar cs
  rw [Option.mem_def.1 hc] at this
  exact this

/-- Two names at the start of a text, the second of which goes on. -/
theorem lexes_header {n m : List Char} (hn : isName n = true) (hm : isName m = true)
    (cs : List Char) {ts : List Token} : Lexes (n ++ ' ' :: (m ++ cs)) ts ↔
      ∃ us, ts = .name (String.ofList n) ::
        .name (String.ofList (m ++ cs.takeWhile isNameChar)) :: us ∧
        Lexes (cs.dropWhile isNameChar) us := by
  have long : isName (m ++ cs.takeWhile isNameChar) = true := by
    cases m with
    | nil => cases hm
    | cons c m =>
      simp only [isName, Bool.and_eq_true] at hm
      simp only [List.cons_append, isName, Bool.and_eq_true, List.all_append]
      exact ⟨hm.1, hm.2, List.all_takeWhile⟩
  have split : m ++ cs = (m ++ cs.takeWhile isNameChar) ++ cs.dropWhile isNameChar := by
    rw [List.append_assoc, List.takeWhile_append_dropWhile]
  rw [lexes_name hn (closed_cons (by decide) _)]
  constructor
  · rintro ⟨us, rfl, lexes⟩
    rw [lexes_ignored (by decide), split, lexes_name long (closed_dropWhile cs)] at lexes
    obtain ⟨vs, rfl, lexes⟩ := lexes
    exact ⟨vs, rfl, lexes⟩
  · rintro ⟨us, rfl, lexes⟩
    refine ⟨_, rfl, ?_⟩
    rw [lexes_ignored (by decide), split, lexes_name long (closed_dropWhile cs)]
    exact ⟨us, rfl, lexes⟩

theorem ofChars?_header {n m : List Char} (hn : isName n = true) (hm : isName m = true)
    (cs : List Char) : ofChars? (n ++ ' ' :: (m ++ cs)) =
      (ofChars? (cs.dropWhile isNameChar)).map fun us =>
        .name (String.ofList n) :: .name (String.ofList (m ++ cs.takeWhile isNameChar)) :: us := by
  refine Option.ext fun ts => ?_
  rw [ofChars?_eq_some, lexes_header hn hm, Option.map_eq_some_iff]
  constructor
  · rintro ⟨us, rfl, lexes⟩
    exact ⟨us, ofChars?_eq_some.2 lexes, rfl⟩
  · rintro ⟨us, lexed, rfl⟩
    exact ⟨us, rfl, ofChars?_eq_some.1 lexed⟩

end Token

/-! ### Documents -/

/-- An operation with another keyword and another name. -/
def Definition.renamed (keyword name : String) : Definition → Definition
  | .operation _ _ declared directives body =>
    .operation keyword (some name) declared directives body
  | d => d

/-- A document whose first definition has another keyword and another name. -/
def renamed (keyword name : String) : Document → Document
  | d :: rest => d.renamed keyword name :: rest
  | [] => []

/-- What stands behind the keyword and the name of the first operation of a document. -/
structure Behind where
  declared : List VariableDefinition
  directives : List Directive
  body : List Selection
  others : Document

/-- The document with a keyword and a name before the rest. -/
def Behind.headed (keyword name : String) (b : Behind) : Document :=
  .operation keyword (some name) b.declared b.directives b.body :: b.others

/-- A reader is even-handed with the three kinds of operations, which have one form in the grammar:
what is no sequence of tokens is no document, and what stands behind the keyword and the name of a
first operation is read without regard to both. -/
structure EvenHanded (read : String → Option Document) : Prop where
  lexed : ∀ {text d}, read text = some d → ∃ ts, Token.ofChars? text.toList = some ts
  operation : ∃ behind : List Token → Option Behind, ∀ {text keyword name ts},
    isOperationKeyword keyword = true →
    Token.ofChars? text.toList = some (.name keyword :: .name name :: ts) →
    read text = (behind ts).map (Behind.headed keyword name)

/-! ### The grammar -/

/-- What stands behind the keyword and the name of a first operation. -/
def readBehind (fuel : Nat) (ts : List Token) : Option Behind := do
  let (declared, rest) ← readDeclarations fuel ts
  let (directives, rest) ← readDirectives false fuel rest
  let (body, rest) ← readBody fuel rest
  let others ← readDefinitions fuel rest
  some ⟨declared, directives, body, others⟩

theorem readDefinitions_operation {keyword : String} (h : isOperationKeyword keyword = true)
    (fuel : Nat) (name : String) (ts : List Token) :
    readDefinitions (fuel + 1) (.name keyword :: .name name :: ts) =
      (readBehind fuel ts).map (Behind.headed keyword name) := by
  have first : readDefinition fuel (.name keyword :: .name name :: ts) =
      readOperation keyword fuel (.name name :: ts) := by rw [readDefinition, if_pos h]
  show (readDefinition fuel (.name keyword :: .name name :: ts) >>= _) = _
  rw [first]
  unfold readOperation readOptionalName readBehind
  simp only [bind, Option.bind]
  cases readDeclarations fuel ts with
  | none => rfl
  | some declared =>
    dsimp only
    cases readDirectives false fuel declared.2 with
    | none => rfl
    | some directives =>
      dsimp only
      cases readBody fuel directives.2 with
      | none => rfl
      | some body =>
        dsimp only
        cases readDefinitions fuel body.2 <;> rfl

/-- The reader without a bound on the nesting is even-handed. -/
theorem evenHanded_readText? : EvenHanded readText? where
  lexed read := by
    obtain ⟨ts, lexed, _⟩ := Option.bind_eq_some_iff.1 read
    exact ⟨ts, lexed⟩
  operation := by
    refine ⟨fun ts => readBehind (2 * ts.length + 5) ts, fun {text keyword name ts} h lexed => ?_⟩
    have whole := readDefinitions_operation h (2 * ts.length + 5) name ts
    show (Token.ofChars? text.toList >>= readTokens?) = _
    rw [lexed]
    show readTokens? (.name keyword :: .name name :: ts) =
      (readBehind (2 * ts.length + 5) ts).map (Behind.headed keyword name)
    have bound : 2 * (Token.name keyword :: .name name :: ts).length + 2 =
        2 * ts.length + 5 + 1 := by
      simp only [List.length_cons]
      omega
    rw [readTokens?, bound, whole]
    cases readBehind (2 * ts.length + 5) ts <;> rfl

/-! ### Texts -/

variable {read : String → Option Document}

theorem EvenHanded.unread (h : EvenHanded read) {text : String}
    (unlexed : Token.ofChars? text.toList = none) : read text = none := by
  cases reads : read text with
  | none => rfl
  | some d =>
    obtain ⟨ts, lexed⟩ := h.lexed reads
    rw [unlexed] at lexed
    cases lexed

/-- A text with another keyword and another name at its start is read as the renamed document. The
name goes on as long as the characters behind it are those of a name. -/
theorem EvenHanded.read_renamed (h : EvenHanded read) (keyword first name tail : String)
    (known : isOperationKeyword keyword = true) (hkeyword : Token.isName keyword.toList = true)
    (hfirst : Token.isName first.toList = true) (hname : Token.isName name.toList = true) :
    read (keyword ++ " " ++ name ++ tail) = (read ("query" ++ " " ++ first ++ tail)).map
      (renamed keyword
        (String.ofList (name.toList ++ tail.toList.takeWhile Token.isNameChar))) := by
  have chars (kw n : String) :
      (kw ++ " " ++ n ++ tail).toList = kw.toList ++ ' ' :: (n.toList ++ tail.toList) := by
    simp only [String.toList_append, List.append_assoc]
    rfl
  have later := Token.ofChars?_header hkeyword hname tail.toList
  have earlier := Token.ofChars?_header (n := "query".toList) (by decide) hfirst tail.toList
  rw [← chars] at later earlier
  cases rest : Token.ofChars? (tail.toList.dropWhile Token.isNameChar) with
  | none =>
    rw [rest] at later earlier
    rw [h.unread later, h.unread earlier]
    rfl
  | some us =>
    rw [rest, Option.map_some, String.ofList_toList] at later earlier
    obtain ⟨behind, reads⟩ := h.operation
    rw [reads known later, reads (by decide) earlier]
    cases behind us <;> rfl

end GraphRequest.Document
