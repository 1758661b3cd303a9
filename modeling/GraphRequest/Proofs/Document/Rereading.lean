import Mathlib.Data.List.Forall2
import GraphRequest.Document.Reading
import GraphRequest.Proofs.Document.Relexing

/-!
# Documents with other variables

The grammar looks at punctuators and at a few names, not at what strings hold or how variables are
called. So a text is a document if and only if it is one with other numbers of its variables.

* `Blind`: two readers that agree on alike tokens.
* `blind_readDefinition`: every reader of a document agrees with itself.
* `Lexical`: readers of whole texts that do not tell alike tokens apart.
* `Lexical.isSome_renumbered`: whether a text is a document does not depend on the numbers.
-/

namespace GraphRequest.Document

open Token (Alike keywords)

variable {ts us rest : List Token}

/-! ### Alike tokens -/

/-- Token lists that the grammar does not tell apart. -/
abbrev AlikeAll (ts us : List Token) : Prop := List.Forall₂ Alike ts us

theorem AlikeAll.symm (h : AlikeAll ts us) : AlikeAll us ts :=
  List.Forall₂.flip (h.imp fun _ _ => Alike.symm)

theorem AlikeAll.of_punctuator {c : Char} (h : AlikeAll (.punctuator c :: rest) us) :
    ∃ rest', us = .punctuator c :: rest' ∧ AlikeAll rest rest' := by
  cases h with
  | cons head tail =>
    cases head
    exact ⟨_, rfl, tail⟩

theorem AlikeAll.of_spread (h : AlikeAll (.spread :: rest) us) :
    ∃ rest', us = .spread :: rest' ∧ AlikeAll rest rest' := by
  cases h with
  | cons head tail =>
    cases head
    exact ⟨_, rfl, tail⟩

theorem AlikeAll.of_name {m : String} (h : AlikeAll (.name m :: rest) us) :
    ∃ n rest', us = .name n :: rest' ∧ Alike (.name m) (.name n) ∧ AlikeAll rest rest' := by
  cases h with
  | cons head tail =>
    cases head with
    | same => exact ⟨m, _, rfl, .same _, tail⟩
    | name first second => exact ⟨_, _, rfl, .name first second, tail⟩

/-- Alike names are the same keyword or none. -/
theorem Token.Alike.name_beq {m n k : String} (h : Alike (.name m) (.name n))
    (keyword : k ∈ keywords) : (m == k) = (n == k) := by
  cases h with
  | same => rfl
  | name first second =>
    have ne : m ≠ k := fun same => first (same ▸ keyword)
    have ne' : n ≠ k := fun same => second (same ▸ keyword)
    rw [beq_eq_false_iff_ne.2 ne, beq_eq_false_iff_ne.2 ne']

theorem AlikeAll.head?_ne {c : Char} (h : AlikeAll ts us)
    (other : ts.head? ≠ some (.punctuator c)) : us.head? ≠ some (.punctuator c) := by
  intro same
  obtain ⟨rest', rfl⟩ := List.head?_eq_some_iff.1 same
  obtain ⟨rest, rfl, _⟩ := h.symm.of_punctuator
  exact other rfl

/-! ### Readers that agree -/

/-- Whenever something is read on one side, something related is read on the other one, and alike
tokens are left. -/
def Agree {α : Type} (S : α → α → Prop) (x y : Option (α × List Token)) : Prop :=
  ∀ a rest, x = some (a, rest) →
    ∃ b rest', y = some (b, rest') ∧ S a b ∧ AlikeAll rest rest'

/-- A reader does not tell alike tokens apart. -/
def Blind {α : Type} (S : α → α → Prop) (read : List Token → Option (α × List Token)) : Prop :=
  ∀ ⦃ts us⦄, AlikeAll ts us → Agree S (read ts) (read us)

/-- Any two values. -/
def Any {α : Type} (_ _ : α) : Prop := True

/-- Lists that are both empty or both not empty. -/
def SameEmptiness {α : Type} (as bs : List α) : Prop := as.isEmpty = bs.isEmpty

section

variable {α β : Type} {S : α → α → Prop} {T : β → β → Prop}

theorem agree_none (y : Option (α × List Token)) : Agree S none y := nofun

theorem agree_some {a b : α} (related : S a b) (alike : AlikeAll ts us) :
    Agree S (some (a, ts)) (some (b, us)) := by
  intro c rest read
  cases read
  exact ⟨b, us, rfl, related, alike⟩

theorem Agree.bind {x y : Option (α × List Token)}
    {f g : α × List Token → Option (β × List Token)} (first : Agree S x y)
    (others : ∀ a b ts us, S a b → AlikeAll ts us → Agree T (f (a, ts)) (g (b, us))) :
    Agree T (x.bind f) (y.bind g) := by
  intro c rest read
  obtain ⟨⟨a, ts⟩, read₁, read₂⟩ := Option.bind_eq_some_iff.1 read
  obtain ⟨b, us, read₁', related, alike⟩ := first a ts read₁
  obtain ⟨d, rest', read₂', result⟩ := others a b ts us related alike c rest read₂
  exact ⟨d, rest', by rw [read₁', Option.bind_some, read₂'], result⟩

theorem Agree.map {x y : Option (α × List Token)} {f g : α × List Token → β × List Token}
    (first : Agree S x y)
    (each : ∀ a b ts us, S a b → AlikeAll ts us → Agree T (some (f (a, ts))) (some (g (b, us)))) :
    Agree T (x.map f) (y.map g) := by
  rw [Option.map_eq_bind, Option.map_eq_bind]
  exact first.bind each

/-- Something is read unless a list in parentheses was empty. -/
theorem agree_unless_empty {as bs : List β} {a b : α} (same : SameEmptiness as bs)
    (alike : AlikeAll ts us) : Agree Any (if as.isEmpty then none else some (a, ts))
      (if bs.isEmpty then none else some (b, us)) := by
  rw [same]
  split
  · exact agree_none _
  · exact agree_some trivial alike

/-- Readers that go on in one way behind some punctuator and in another way otherwise. -/
theorem agree_of_head (c : Char) {read read' : List Token → Option (α × List Token)}
    (alike : AlikeAll ts us)
    (there : ∀ ts us, AlikeAll ts us →
      Agree S (read (.punctuator c :: ts)) (read' (.punctuator c :: us)))
    (elsewhere : ts.head? ≠ some (.punctuator c) → us.head? ≠ some (.punctuator c) →
      Agree S (read ts) (read' us)) : Agree S (read ts) (read' us) := by
  by_cases head : ts.head? = some (.punctuator c)
  · obtain ⟨ts, rfl⟩ := List.head?_eq_some_iff.1 head
    obtain ⟨us, rfl, behind⟩ := alike.of_punctuator
    exact there ts us behind
  · exact elsewhere head (alike.head?_ne head)

end

/-! ### Literals and arguments -/

theorem readItems_of_head {constant : Bool} {fuel : Nat}
    (other : ts.head? ≠ some (.punctuator ']')) : readItems constant (fuel + 1) ts =
      (readLiteral constant fuel ts).bind fun p =>
        (readItems constant fuel p.2).bind fun q => some (p.1 :: q.1, q.2) := by
  rw [readItems]
  · rfl
  · rintro rest rfl
    exact other rfl

theorem blind_readLiterals (constant : Bool) (fuel : Nat) :
    Blind Any (readLiteral constant fuel) ∧ Blind Any (readItems constant fuel) ∧
      ∀ close, Blind SameEmptiness (readEntries constant close fuel) := by
  induction fuel with
  | zero =>
    exact ⟨fun _ _ _ => agree_none _, fun _ _ _ => agree_none _, fun _ _ _ _ => agree_none _⟩
  | succ fuel ih =>
    obtain ⟨ihLiteral, ihItems, ihEntries⟩ := ih
    refine ⟨?_, ?_, fun close => ?_⟩
    · intro ts us alike
      rw [readLiteral.eq_def]
      dsimp only
      split
      · cases alike with
        | cons head tail =>
          cases head
          exact agree_some trivial tail
      · cases alike with
        | cons head tail =>
          cases head
          exact agree_some trivial tail
      · cases alike with
        | cons head tail => cases head <;> exact agree_some trivial tail
      · cases alike with
        | cons head tail => cases head <;> exact agree_some trivial tail
      · cases alike with
        | cons head tail => cases head <;> exact agree_some trivial tail
      · obtain ⟨_, rfl, behind⟩ := alike.of_punctuator
        obtain ⟨n, rest', rfl, _, last⟩ := behind.of_name
        rw [readLiteral]
        split
        · exact agree_none _
        · exact agree_some trivial last
      · obtain ⟨_, rfl, behind⟩ := alike.of_punctuator
        exact (ihItems behind).map fun _ _ _ _ _ => agree_some trivial
      · obtain ⟨_, rfl, behind⟩ := alike.of_punctuator
        exact (ihEntries _ behind).map fun _ _ _ _ _ => agree_some trivial
      · exact agree_none _
    · intro ts us alike
      refine agree_of_head ']' alike (fun _ _ => agree_some trivial) fun other other' => ?_
      rw [readItems_of_head other, readItems_of_head other']
      exact (ihLiteral alike).bind fun _ _ _ _ _ behind =>
        (ihItems behind).bind fun _ _ _ _ _ => agree_some trivial
    · intro ts us alike
      rw [readEntries.eq_def]
      dsimp only
      split
      · obtain ⟨us, rfl, behind⟩ := alike.of_punctuator
        rw [readEntries]
        split
        · exact agree_some rfl behind
        · exact agree_none _
      · obtain ⟨n, _, rfl, _, behind⟩ := alike.of_name
        obtain ⟨_, rfl, inside⟩ := behind.of_punctuator
        exact (ihLiteral inside).bind fun _ _ _ _ _ behind =>
          (ihEntries close behind).bind fun _ _ _ _ _ => agree_some rfl
      · exact agree_none _

theorem readArguments_of_head {constant : Bool} {fuel : Nat}
    (other : ts.head? ≠ some (.punctuator '(')) :
    readArguments constant fuel ts = some ([], ts) := by
  unfold readArguments
  split
  · exact absurd rfl other
  · rfl

theorem blind_readArguments (constant : Bool) (fuel : Nat) :
    Blind Any (readArguments constant fuel) := by
  intro ts us alike
  refine agree_of_head '(' alike (fun ts us behind => ?_) fun other other' => ?_
  · refine ((blind_readLiterals constant fuel).2.2 ')' behind).bind fun as bs _ _ same last => ?_
    exact agree_unless_empty same last
  · rw [readArguments_of_head other, readArguments_of_head other']
    exact agree_some trivial alike

theorem readDirectives_of_head {constant : Bool} {fuel : Nat}
    (other : ts.head? ≠ some (.punctuator '@')) :
    readDirectives constant (fuel + 1) ts = some ([], ts) := by
  rw [readDirectives]
  · rintro text rest rfl
    exact other rfl
  · rintro rest rfl
    exact other rfl

theorem blind_readDirectives (constant : Bool) (fuel : Nat) :
    Blind Any (readDirectives constant fuel) := by
  induction fuel with
  | zero => exact fun _ _ _ => agree_none _
  | succ fuel ih =>
    intro ts us alike
    rw [readDirectives.eq_def constant (fuel + 1) ts]
    dsimp only
    split
    · obtain ⟨_, rfl, behind⟩ := alike.of_punctuator
      obtain ⟨n, _, rfl, _, inside⟩ := behind.of_name
      exact (blind_readArguments constant fuel inside).bind fun _ _ _ _ _ behind =>
        (ih behind).bind fun _ _ _ _ _ => agree_some trivial
    · exact agree_none _
    · rename_i other
      have head : ts.head? ≠ some (.punctuator '@') := by
        intro same
        obtain ⟨rest, rfl⟩ := List.head?_eq_some_iff.1 same
        exact other rest rfl
      rw [readDirectives_of_head (alike.head?_ne head)]
      exact agree_some trivial alike

/-! ### Selections -/

theorem readFieldName_of_head {first : String} (other : ts.head? ≠ some (.punctuator ':')) :
    readFieldName first ts = some ((none, first), ts) := by
  unfold readFieldName
  split
  · exact absurd rfl other
  · exact absurd rfl other
  · rfl

theorem agree_readFieldName (m n : String) (alike : AlikeAll ts us) :
    Agree Any (readFieldName m ts) (readFieldName n us) := by
  unfold readFieldName
  split
  · obtain ⟨_, rfl, behind⟩ := alike.of_punctuator
    obtain ⟨second, _, rfl, _, last⟩ := behind.of_name
    exact agree_some trivial last
  · exact agree_none _
  · rename_i other
    have head : ts.head? ≠ some (.punctuator ':') := by
      intro same
      obtain ⟨rest, rfl⟩ := List.head?_eq_some_iff.1 same
      exact other rest rfl
    show Agree _ _ (readFieldName n us)
    rw [readFieldName_of_head (alike.head?_ne head)]
    exact agree_some trivial alike

theorem readSelections_of_head {fuel : Nat} (other : ts.head? ≠ some (.punctuator '\x7d')) :
    readSelections (fuel + 1) ts =
      (readSelection fuel ts).bind fun p =>
        (readSelections fuel p.2).bind fun q => some (p.1 :: q.1, q.2) := by
  rw [readSelections]
  · rfl
  · rintro rest rfl
    exact other rfl

theorem blind_readAllSelections (fuel : Nat) :
    Blind Any (readSelection fuel) ∧
    (∀ (condition condition' : Option String) ⦃ts us⦄, AlikeAll ts us →
      Agree Any (readInline condition fuel ts) (readInline condition' fuel us)) ∧
    Blind Any (readSelections fuel) := by
  induction fuel with
  | zero =>
    exact ⟨fun _ _ _ => agree_none _, fun _ _ _ _ _ => agree_none _, fun _ _ _ => agree_none _⟩
  | succ fuel ih =>
    obtain ⟨ihSelection, ihInline, ihSelections⟩ := ih
    refine ⟨?_, fun condition condition' => ?_, ?_⟩
    · intro ts us alike
      rw [readSelection.eq_def]
      dsimp only
      split
      · rename_i first _
        obtain ⟨second, _, rfl, _, behind⟩ := alike.of_name
        refine (agree_readFieldName first second behind).bind fun _ _ _ _ _ behind => ?_
        refine (blind_readArguments false fuel behind).bind fun _ _ _ _ _ behind => ?_
        refine (blind_readDirectives false fuel behind).bind fun _ _ ts us _ behind => ?_
        dsimp only
        split
        · obtain ⟨_, rfl, inside⟩ := behind.of_punctuator
          exact (ihSelections inside).bind fun _ _ _ _ _ => agree_some trivial
        · rename_i other
          split
          · obtain ⟨_, rfl, _⟩ := behind.symm.of_punctuator
            exact absurd rfl (other _)
          · exact agree_some trivial behind
      · obtain ⟨_, rfl, behind⟩ := alike.of_spread
        obtain ⟨n, _, rfl, name, last⟩ := behind.of_name
        rw [readSelection.eq_def]
        dsimp only
        rw [name.name_beq (k := "on") (by decide)]
        by_cases on : (n == "on") = true
        · rw [if_pos on, if_pos on]
          split
          · obtain ⟨condition, _, rfl, _, inside⟩ := last.of_name
            exact ihInline _ _ inside
          · exact agree_none _
        · rw [if_neg on, if_neg on]
          exact (blind_readDirectives false fuel last).bind fun _ _ _ _ _ => agree_some trivial
      · rename_i unnamed
        obtain ⟨us, rfl, behind⟩ := alike.of_spread
        rw [readSelection]
        · exact ihInline none none behind
        · rintro n rest rfl
          obtain ⟨m, rest', rfl, _⟩ := behind.symm.of_name
          exact unnamed m rest' rfl
      · exact agree_none _
    · intro ts us alike
      refine (blind_readDirectives false fuel alike).bind fun _ _ ts us _ behind => ?_
      dsimp only
      split
      · obtain ⟨_, rfl, inside⟩ := behind.of_punctuator
        exact (ihSelections inside).bind fun _ _ _ _ _ => agree_some trivial
      · exact agree_none _
    · intro ts us alike
      refine agree_of_head '\x7d' alike (fun _ _ => agree_some trivial) fun other other' => ?_
      rw [readSelections_of_head other, readSelections_of_head other']
      exact (ihSelection alike).bind fun _ _ _ _ _ behind =>
        (ihSelections behind).bind fun _ _ _ _ _ => agree_some trivial

theorem blind_readBody (fuel : Nat) : Blind Any (readBody fuel) := by
  intro ts us alike
  unfold readBody
  split
  · obtain ⟨_, rfl, inside⟩ := alike.of_punctuator
    exact (blind_readAllSelections fuel).2.2 inside
  · exact agree_none _

/-! ### Types and variables -/

theorem readMark_of_head {type : TypeText} (other : ts.head? ≠ some (.punctuator '!')) :
    readMark type ts = (type, ts) := by
  unfold readMark
  split
  · exact absurd rfl other
  · rfl

theorem agree_readMark (type type' : TypeText) (alike : AlikeAll ts us) :
    Agree Any (some (readMark type ts)) (some (readMark type' us)) := by
  refine @agree_of_head ts us _ Any '!' (fun ts => some (readMark type ts))
    (fun us => some (readMark type' us)) alike (fun _ _ => agree_some trivial)
    fun other other' => ?_
  rw [readMark_of_head other, readMark_of_head other']
  exact agree_some trivial alike

theorem blind_readType (fuel : Nat) : Blind Any (readType fuel) := by
  induction fuel with
  | zero => exact fun _ _ _ => agree_none _
  | succ fuel ih =>
    intro ts us alike
    rw [readType.eq_def]
    dsimp only
    split
    · obtain ⟨n, _, rfl, _, behind⟩ := alike.of_name
      exact agree_readMark _ _ behind
    · obtain ⟨_, rfl, inside⟩ := alike.of_punctuator
      refine (ih inside).bind fun _ _ ts us _ behind => ?_
      dsimp only
      split
      · obtain ⟨_, rfl, last⟩ := behind.of_punctuator
        exact agree_readMark _ _ last
      · exact agree_none _
    · exact agree_none _

theorem readDefault_of_head {fuel : Nat} (other : ts.head? ≠ some (.punctuator '=')) :
    readDefault fuel ts = some (none, ts) := by
  unfold readDefault
  split
  · exact absurd rfl other
  · rfl

theorem blind_readDefault (fuel : Nat) : Blind Any (readDefault fuel) := by
  intro ts us alike
  refine agree_of_head '=' alike (fun ts us behind => ?_) fun other other' => ?_
  · exact ((blind_readLiterals true fuel).1 behind).map fun _ _ _ _ _ => agree_some trivial
  · rw [readDefault_of_head other, readDefault_of_head other']
    exact agree_some trivial alike

theorem blind_readVariables (fuel : Nat) : Blind SameEmptiness (readVariables fuel) := by
  induction fuel with
  | zero => exact fun _ _ _ => agree_none _
  | succ fuel ih =>
    intro ts us alike
    rw [readVariables.eq_def]
    dsimp only
    split
    · obtain ⟨_, rfl, behind⟩ := alike.of_punctuator
      exact agree_some rfl behind
    · obtain ⟨_, rfl, behind⟩ := alike.of_punctuator
      obtain ⟨n, _, rfl, _, named⟩ := behind.of_name
      obtain ⟨_, rfl, typed⟩ := named.of_punctuator
      exact (blind_readType fuel typed).bind fun _ _ _ _ _ behind =>
        (blind_readDefault fuel behind).bind fun _ _ _ _ _ behind =>
          (blind_readDirectives true fuel behind).bind fun _ _ _ _ _ behind =>
            (ih behind).bind fun _ _ _ _ _ => agree_some rfl
    · exact agree_none _

theorem readDeclarations_of_head {fuel : Nat} (other : ts.head? ≠ some (.punctuator '(')) :
    readDeclarations fuel ts = some ([], ts) := by
  unfold readDeclarations
  split
  · exact absurd rfl other
  · rfl

theorem blind_readDeclarations (fuel : Nat) : Blind Any (readDeclarations fuel) := by
  intro ts us alike
  refine agree_of_head '(' alike (fun ts us behind => ?_) fun other other' => ?_
  · refine (blind_readVariables fuel behind).bind fun as bs _ _ same last => ?_
    exact agree_unless_empty same last
  · rw [readDeclarations_of_head other, readDeclarations_of_head other']
    exact agree_some trivial alike

/-! ### Definitions -/

theorem alike_readOptionalName (alike : AlikeAll ts us) :
    AlikeAll (readOptionalName ts).2 (readOptionalName us).2 := by
  cases alike with
  | nil => exact .nil
  | @cons t u ts us head tail =>
    cases head with
    | same =>
      cases t with
      | name => exact tail
      | _ => exact .cons (.same _) tail
    | name => exact tail
    | string v w => exact .cons (.string v w) tail
    | block v w => exact .cons (.block v w) tail

theorem agree_readOperation (keyword keyword' : String) (fuel : Nat) (alike : AlikeAll ts us) :
    Agree Any (readOperation keyword fuel ts) (readOperation keyword' fuel us) :=
  (blind_readDeclarations fuel (alike_readOptionalName alike)).bind fun _ _ _ _ _ behind =>
    (blind_readDirectives false fuel behind).bind fun _ _ _ _ _ behind =>
      (blind_readBody fuel behind).bind fun _ _ _ _ _ => agree_some trivial

theorem blind_readFragment (fuel : Nat) : Blind Any (readFragment fuel) := by
  intro ts us alike
  rw [readFragment.eq_def]
  dsimp only
  split
  · obtain ⟨m, _, rfl, name, behind⟩ := alike.of_name
    obtain ⟨n, _, rfl, on, behind⟩ := behind.of_name
    obtain ⟨condition, _, rfl, _, last⟩ := behind.of_name
    rw [readFragment, name.name_beq (k := "on") (by decide), bne, bne,
      on.name_beq (k := "on") (by decide)]
    split
    · exact agree_none _
    · exact (blind_readDirectives false fuel last).bind fun _ _ _ _ _ behind =>
        (blind_readBody fuel behind).bind fun _ _ _ _ _ => agree_some trivial
  · exact agree_none _

theorem readDefinition_of_unnamed {fuel : Nat} (unnamed : ∀ n rest, ts ≠ .name n :: rest) :
    readDefinition fuel ts =
      (readBody fuel ts).map fun p => (.operation "query" none [] [] p.1, p.2) := by
  rw [readDefinition]
  exact unnamed

theorem blind_readDefinition (fuel : Nat) : Blind Any (readDefinition fuel) := by
  intro ts us alike
  rw [readDefinition.eq_def]
  split
  · rename_i m _
    obtain ⟨n, _, rfl, name, behind⟩ := alike.of_name
    have operation : isOperationKeyword n = isOperationKeyword m := by
      rw [isOperationKeyword, isOperationKeyword, name.name_beq (k := "query") (by decide),
        name.name_beq (k := "mutation") (by decide),
        name.name_beq (k := "subscription") (by decide)]
    rw [readDefinition, operation, ← name.name_beq (k := "fragment") (by decide)]
    split
    · exact agree_readOperation m n fuel behind
    · split
      · exact blind_readFragment fuel behind
      · exact agree_none _
  · rename_i unnamed
    rw [readDefinition_of_unnamed fun n rest same => ?_]
    · exact (blind_readBody fuel alike).map fun _ _ _ _ _ => agree_some trivial
    · rw [same] at alike
      obtain ⟨m, rest', rfl, _⟩ := alike.symm.of_name
      exact unnamed m rest' rfl

theorem exists_readDefinitions (alike : AlikeAll ts us) (fuel : Nat) {ds : List Definition}
    (read : readDefinitions fuel ts = some ds) :
    ∃ es, readDefinitions fuel us = some es ∧ SameEmptiness ds es := by
  induction fuel generalizing ts us ds with
  | zero =>
    cases alike with
    | nil => exact ⟨[], rfl, by cases read; rfl⟩
    | cons => cases read
  | succ fuel ih =>
    cases alike with
    | nil => exact ⟨[], rfl, by cases read; rfl⟩
    | @cons t u ts us head tail =>
      obtain ⟨⟨d, rest⟩, first, read⟩ := Option.bind_eq_some_iff.1 read
      obtain ⟨ds, others, read⟩ := Option.bind_eq_some_iff.1 read
      cases read
      obtain ⟨e, rest', first', _, behind⟩ :=
        blind_readDefinition fuel (.cons head tail) d rest first
      obtain ⟨es, others', _⟩ := ih behind others
      refine ⟨e :: es, ?_, rfl⟩
      show (readDefinition fuel (u :: us) >>= _) = _
      rw [first']
      show (readDefinitions fuel rest' >>= _) = _
      rw [others']
      rfl

theorem exists_readTokens? (alike : AlikeAll ts us) {d : Document}
    (read : readTokens? ts = some d) : ∃ e, readTokens? us = some e := by
  rw [readTokens?] at read
  split at read
  · cases read
  · rename_i nonempty
    obtain ⟨es, read', same⟩ := exists_readDefinitions alike _ read
    cases d with
    | nil => exact absurd read nonempty
    | cons first others =>
      cases es with
      | nil => cases same
      | cons first' others' =>
        refine ⟨first' :: others', ?_⟩
        rw [readTokens?, ← alike.length_eq, read']

/-! ### Whole texts -/

/-- A reader goes by the tokens of a text, as the grammar does: what is no sequence of tokens is no
document, and whether a text is a document depends neither on what its strings hold nor on the names
that are no keywords. -/
structure Lexical (read : String → Option Document) : Prop where
  lexed : ∀ {text d}, read text = some d → ∃ ts, Token.ofChars? text.toList = some ts
  blind : ∀ {text text' ts us d}, Token.ofChars? text.toList = some ts →
    Token.ofChars? text'.toList = some us → AlikeAll ts us → read text = some d →
    ∃ e, read text' = some e

/-- The reader without a bound on the nesting goes by tokens. -/
theorem lexical_readText? : Lexical readText? where
  lexed read := by
    obtain ⟨ts, lexed, _⟩ := Option.bind_eq_some_iff.1 read
    exact ⟨ts, lexed⟩
  blind lexed lexed' alike read := by
    unfold readText? at read ⊢
    rw [lexed] at read
    rw [lexed']
    exact exists_readTokens? alike read

variable {P : Char → Prop} {R : Nat → Nat → Prop} {s s' : String} {read : String → Option Document}

theorem Lexical.exists_renumbered (h : Lexical read)
    (same : Token.Renumbered P R s.toList s'.toList) {d : Document} (reads : read s = some d) :
    ∃ e, read s' = some e := by
  obtain ⟨ts, lexed⟩ := h.lexed reads
  obtain ⟨us, lexes, alike⟩ := Token.lexes_renumbered (Token.ofChars?_eq_some.1 lexed) same
  exact h.blind lexed (Token.ofChars?_eq_some.2 lexes) alike reads

/-- Whether a text is a document does not depend on the numbers of the variables that it refers to,
wherever in the text it refers to them. -/
theorem Lexical.isSome_renumbered (h : Lexical read)
    (same : Token.Renumbered P R s.toList s'.toList) : (read s).isSome = (read s').isSome := by
  rw [Bool.eq_iff_iff, Option.isSome_iff_exists, Option.isSome_iff_exists]
  constructor
  · rintro ⟨d, reads⟩
    exact h.exists_renumbered same reads
  · rintro ⟨d, reads⟩
    exact h.exists_renumbered same.symm reads

end GraphRequest.Document
