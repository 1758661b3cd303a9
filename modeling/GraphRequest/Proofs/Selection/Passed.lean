import Mathlib.Data.List.Basic
import GraphRequest.Proofs.Document.References
import GraphRequest.Proofs.Selection.Rendering
import GraphRequest.Proofs.Selection.Variables
import GraphRequest.Proofs.Value.Numerals

/-!
# Where a selection refers to its variables

The text of a selection refers to variables where its fields are passed arguments, and nowhere else:
the references from left to right are the variables of these arguments, a field before the fields of
its body.

* `references_headText`, `references_blockText`: the parts of the text of a field.
* `Item.Made.references`: the text of a selection refers to the variables of the arguments that are
  passed in it.
-/

namespace GraphRequest

open Text (references isVariableChar Apart apart_cons references_append references_of_plain
  references_of_plain_self references_intercalate)
open Document.Token (isName isNameChar)

/-! ### Texts -/

theorem plain_of_isName {n : List Char} (h : isName n = true) : '$' ∉ n := by
  obtain ⟨_, _, _, _, chars⟩ := Document.Token.isNameStart_and_isNameChar_of_isName h
  exact fun dollar => absurd (chars _ dollar) (by decide)

theorem isVariableChar_variableName (n : Int) :
    ∀ c ∈ (Bindings.variableName n).toList, isVariableChar c = true := by
  have digit : ∀ c ∈ Decimal.digitChars n.natAbs, isVariableChar c = true := by
    intro c hc
    simp [isVariableChar, isNameChar, Char.isAlphanum, Value.isDigit_digitChars c hc]
  intro c hc
  rw [Bindings.variableName, String.toList_append, Value.toList_integerText_eq] at hc
  rcases List.mem_append.1 hc with letter | number
  · rw [List.mem_singleton.1 letter]
    decide
  · split at number
    · rcases List.mem_cons.1 number with rfl | number
      · decide
      · exact digit c number
    · exact digit c number

/-- Arguments that go by names and are passed numbered variables. -/
def ArgumentsPlain (arguments : List BoundArgument) : Prop :=
  ∀ a ∈ arguments, isName a.name.toList = true ∧ ∃ n, a.variableName = Bindings.variableName n

theorem BoundArgument.references_text {a : BoundArgument} (named : isName a.name.toList = true)
    {n : Int} (numbered : a.variableName = Bindings.variableName n) :
    references a.text.toList = [a.variableName] := by
  have text : a.text.toList = a.name.toList ++ ([':', ' '] ++ '$' :: a.variableName.toList) := by
    simp [BoundArgument.text]
  have chars : ∀ c ∈ a.variableName.toList, isVariableChar c = true := by
    rw [numbered]
    exact isVariableChar_variableName n
  rw [text, references_of_plain (plain_of_isName named), references_of_plain (by decide),
    Text.references_variable chars, String.ofList_toList]

theorem references_arguments {arguments : List BoundArgument} (plain : ArgumentsPlain arguments) :
    references (if arguments.isEmpty then ""
        else "(" ++ ", ".intercalate (arguments.map BoundArgument.text) ++ ")").toList =
      arguments.map BoundArgument.variableName := by
  cases arguments with
  | nil => rfl
  | cons a as =>
    have each : (a :: as).flatMap (fun b => references b.text.toList) =
        (a :: as).flatMap fun b => [b.variableName] := by
      refine List.flatMap_congr fun b hb => ?_
      obtain ⟨named, n, numbered⟩ := plain b hb
      exact BoundArgument.references_text named numbered
    have closed : Apart ")".toList := apart_cons (by decide) _
    rw [List.isEmpty_cons, if_neg Bool.false_ne_true, String.toList_append, String.toList_append,
      references_append closed, references_of_plain (by decide),
      references_intercalate rfl (by decide) (by decide), List.flatMap_map, each,
      references_of_plain_self (by decide), List.append_nil]
    exact List.map_eq_flatMap.symm

/-- A head refers to the variables of its arguments. -/
theorem references_headText {aliasName : Option String} {name : String}
    {arguments : List BoundArgument} (aliases : ∀ a ∈ aliasName, isName a.toList = true)
    (named : isName name.toList = true) (plain : ArgumentsPlain arguments) :
    references (Item.headText aliasName name arguments).toList =
      arguments.map BoundArgument.variableName := by
  unfold Item.headText
  rw [String.toList_append, ← references_arguments plain]
  apply references_of_plain
  cases aliasName with
  | none => exact plain_of_isName named
  | some a => simp [plain_of_isName named, plain_of_isName (aliases a rfl)]

/-- A block refers to the variables of its head and then to those of the texts inside. -/
theorem references_blockText (head : String) (texts : List String) :
    references (Item.blockText head texts).toList =
      references head.toList ++ texts.flatMap fun t => references t.toList := by
  have block : (Item.blockText head texts).toList = head.toList ++ ([' ', '\x7b', '\n'] ++
      (Text.indentChars ("\n".intercalate texts).toList ++ ['\n', '\x7d'])) := by
    simp [Item.blockText, Text.indent]
  have opened : ∀ cs, Apart ([' ', '\x7b', '\n'] ++ cs) := fun _ => apart_cons (by decide) _
  have closed : Apart ['\n', '\x7d'] := apart_cons (by decide) _
  have brace : references ['\n', '\x7d'] = [] := references_of_plain_self (by decide)
  rw [block, references_append (opened _), references_of_plain (by decide),
    references_append closed, Text.references_indentChars,
    references_intercalate rfl (by decide) (by decide), brace, List.append_nil]

section

variable {s : Schema} {first : Int} {type : Value} {i : Item}

theorem argumentsPlain_of_takes {f : FieldDef} (named : f.isNamed = true)
    {arguments : List BoundArgument} (takes : f.Takes first arguments) :
    ArgumentsPlain arguments := by
  intro a ha
  obtain ⟨n, _, same⟩ := takes.numbered a ha
  exact ⟨isName_of_takes named takes a ha, n, same⟩

/-- The text of a selection refers to the variables passed in it, from left to right. -/
theorem Item.Made.references (named : s.isNamed = true)
    (h : i.Made s (fun a => isName a.toList = true) first type) :
    Text.references i.text.toList = i.passed.map BoundArgument.variableName := by
  induction h with
  | typename parent => rfl
  | leaf found takes aliases =>
    rw [Item.passed_leaf, Item.text]
    exact references_headText aliases (isName_of_field named found)
      (argumentsPlain_of_takes (Schema.isNamed_of_field named found) takes)
  | @block _ _ _ _ _ _ items found takes aliases returned present below ih =>
    have each : items.flatMap (fun j => Text.references j.text.toList) =
        items.flatMap fun j => j.passed.map BoundArgument.variableName :=
      List.flatMap_congr fun j hj => ih j hj
    rw [Item.passed_block, Item.text, Item.texts_eq_map, references_blockText,
      references_headText aliases (isName_of_field named found)
        (argumentsPlain_of_takes (Schema.isNamed_of_field named found) takes),
      List.flatMap_map, each, List.map_append, List.map_flatMap]

end

end GraphRequest
