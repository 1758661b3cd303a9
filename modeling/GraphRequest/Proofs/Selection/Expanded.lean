import Mathlib.Data.List.Forall2
import GraphRequest.Proofs.Document.Snippets
import GraphRequest.Proofs.Selection.Rendering

/-!
# Selections with raw texts

A raw text stands for the selections that it is by itself. In the document it is moved to the right
by the depth that it stands at, and what is read there are the selections of the moved text; the
rest of a selection reads as it is meant, up to white space around its aliases.

* `Item.meant`, `Item.moved`: the selections that a selection stands for, and those that are read.
* `Item.Readable`: the selections that compiling makes against a schema of names.
* `Item.Readable.lexes_moved`: the text of a selection has the tokens of those that are read.
* `Item.Readable.moved_eq_iff`: they are those that are meant if and only if every raw text is
  steady.
-/

namespace GraphRequest

open Document
open Document.Token (Spells Lexes Matches isName trim closed_cons)

namespace Item

/-! ### What selections stand for -/

mutual

/-- The selections of a document that a selection at a depth stands for, given those of raw texts.
Aliases lose the white space around them. -/
def expand (read : Nat → String → List Selection) (n : Nat) : Item → List Selection
  | .raw text => read n text
  | .field aliasName name arguments none =>
    [.field (aliasName.map trim) name (arguments.map BoundArgument.argument) [] none]
  | .field aliasName name arguments (some items) =>
    [.field (aliasName.map trim) name (arguments.map BoundArgument.argument) []
      (some (expandAll read (n + 1) items))]

/-- The selections of a document that selections at a depth stand for. -/
def expandAll (read : Nat → String → List Selection) (n : Nat) : List Item → List Selection
  | [] => []
  | i :: is => expand read n i ++ expandAll read n is

end

/-- The selections that a selection stands for, with the ones that raw texts are by themselves. -/
def meant (i : Item) : List Selection := i.expand (fun _ => selectionsOf) 0

/-- The selections that are read for a selection at a depth, with the ones that raw texts are when
they are moved there. -/
def moved (n : Nat) (i : Item) : List Selection :=
  i.expand (fun n text => selectionsOf (Text.indent^[n] text)) n

mutual

/-- The raw texts in a selection at a depth, each with the depth that it stands at. -/
def raws (n : Nat) : Item → List (Nat × String)
  | .raw text => [(n, text)]
  | .field _ _ _ none => []
  | .field _ _ _ (some items) => rawsAll (n + 1) items

/-- The raw texts in selections at a depth. -/
def rawsAll (n : Nat) : List Item → List (Nat × String)
  | [] => []
  | i :: is => raws n i ++ rawsAll n is

end

theorem expandAll_eq_flatMap (read : Nat → String → List Selection) (n : Nat)
    (items : List Item) : expandAll read n items = items.flatMap (expand read n) := by
  induction items with
  | nil => rfl
  | cons i is ih => rw [expandAll, ih, List.flatMap_cons]

theorem rawsAll_eq_flatMap (n : Nat) (items : List Item) :
    rawsAll n items = items.flatMap (raws n) := by
  induction items with
  | nil => rfl
  | cons i is ih => rw [rawsAll, ih, List.flatMap_cons]

mutual

/-- The depth does not matter where raw texts read the same at all depths. -/
theorem expand_const (read : String → List Selection) (i : Item) (m n : Nat) :
    i.expand (fun _ => read) m = i.expand (fun _ => read) n := by
  match i with
  | .raw text => rfl
  | .field aliasName name arguments none => rfl
  | .field aliasName name arguments (some items) =>
    rw [expand, expandAll_const read items (m + 1) (n + 1), expand]

theorem expandAll_const (read : String → List Selection) (items : List Item) (m n : Nat) :
    expandAll (fun _ => read) m items = expandAll (fun _ => read) n items := by
  match items with
  | [] => rfl
  | i :: is =>
    rw [expandAll, expandAll, expand_const read i m n, expandAll_const read is m n]

end

theorem meant_eq {i : Item} (n : Nat) : i.meant = i.expand (fun _ => selectionsOf) n :=
  expand_const selectionsOf i 0 n

/-! ### Two readings of raw texts -/

section

variable {f g : Nat → String → List Selection}

mutual

/-- Two readings of a selection are the same if and only if all its raw texts read the same, as many
selections for each of them. -/
theorem expand_eq_iff (i : Item) (n : Nat)
    (same : ∀ t ∈ i.raws n, (f t.1 t.2).length = (g t.1 t.2).length) :
    (i.expand f n).length = (i.expand g n).length ∧
      (i.expand f n = i.expand g n ↔ ∀ t ∈ i.raws n, f t.1 t.2 = g t.1 t.2) := by
  match i with
  | .raw text =>
    rw [raws, List.forall_mem_singleton] at same
    rw [raws, List.forall_mem_singleton]
    exact ⟨same, Iff.rfl⟩
  | .field aliasName name arguments none => exact ⟨rfl, fun _ => nofun, fun _ => rfl⟩
  | .field aliasName name arguments (some items) =>
    obtain ⟨_, below⟩ := expandAll_eq_iff items (n + 1) same
    refine ⟨rfl, Iff.trans ?_ below⟩
    simp [expand]

theorem expandAll_eq_iff (items : List Item) (n : Nat)
    (same : ∀ t ∈ rawsAll n items, (f t.1 t.2).length = (g t.1 t.2).length) :
    (expandAll f n items).length = (expandAll g n items).length ∧
      (expandAll f n items = expandAll g n items ↔
        ∀ t ∈ rawsAll n items, f t.1 t.2 = g t.1 t.2) := by
  match items with
  | [] => exact ⟨rfl, fun _ => nofun, fun _ => rfl⟩
  | i :: is =>
    rw [rawsAll, List.forall_mem_append] at same
    obtain ⟨length, first⟩ := expand_eq_iff i n same.1
    obtain ⟨lengths, others⟩ := expandAll_eq_iff is n same.2
    rw [rawsAll, List.forall_mem_append, ← first, ← others, expandAll, expandAll,
      List.length_append, List.length_append, length, lengths]
    exact ⟨rfl, fun whole => List.append_inj whole length, fun both => by rw [both.1, both.2]⟩

end

theorem selectionTokens_append (ss ss' : List Selection) :
    selectionTokens (ss ++ ss') = selectionTokens ss ++ selectionTokens ss' := by
  rw [selectionTokens_eq_flatMap, selectionTokens_eq_flatMap, selectionTokens_eq_flatMap,
    List.flatMap_append]

theorem selectionTokens_flatMap {α : Type} (f : α → List Selection) (as : List α) :
    selectionTokens (as.flatMap f) = as.flatMap fun a => selectionTokens (f a) := by
  induction as with
  | nil => rfl
  | cons a as ih => rw [List.flatMap_cons, selectionTokens_append, ih, List.flatMap_cons]

theorem matches_self (ts : List Token) : List.Forall₂ Matches ts ts :=
  List.forall₂_same.2 fun t _ => .same t

mutual

/-- Two readings of a selection have the same tokens up to the values of strings, when the readings
of its raw texts do. -/
theorem matches_expand (i : Item) (n : Nat) (each : ∀ t ∈ i.raws n,
      List.Forall₂ Matches (selectionTokens (f t.1 t.2)) (selectionTokens (g t.1 t.2))) :
    List.Forall₂ Matches (selectionTokens (i.expand f n)) (selectionTokens (i.expand g n)) := by
  match i with
  | .raw text => exact each (n, text) (.head _)
  | .field aliasName name arguments none => exact matches_self _
  | .field aliasName name arguments (some items) =>
    have below := matches_expandAll items (n + 1) each
    simp only [expand, selectionTokens, Selection.tokens, List.append_nil]
    refine List.rel_append (matches_self _) (List.rel_append (matches_self _)
      (List.rel_append (matches_self _) (.cons (.same _) ?_)))
    exact List.rel_append below (matches_self _)

theorem matches_expandAll (items : List Item) (n : Nat) (each : ∀ t ∈ rawsAll n items,
      List.Forall₂ Matches (selectionTokens (f t.1 t.2)) (selectionTokens (g t.1 t.2))) :
    List.Forall₂ Matches (selectionTokens (expandAll f n items))
      (selectionTokens (expandAll g n items)) := by
  match items with
  | [] => exact .nil
  | i :: is =>
    rw [rawsAll, List.forall_mem_append] at each
    rw [expandAll, expandAll, selectionTokens_append, selectionTokens_append]
    exact List.rel_append (matches_expand i n each.1) (matches_expandAll is n each.2)

end

end

end Item

/-! ### Texts at a depth -/

theorem Document.Token.Spells.lexes {ts : List Token} {cs : List Char} (h : Spells ts cs)
    (n : Nat) : Lexes (Text.indentChars^[n] cs) ts := by
  induction n generalizing cs with
  | zero => exact Token.ofChars?_eq_some.1 h.ofChars?
  | succ n ih => exact ih h.indent

/-- Texts on lines of their own, moved to the right, have the tokens of each of them. -/
theorem lexes_lines {α : Type} {text : α → String} {tokens : α → List Token} (n : Nat)
    {as : List α} (each : ∀ a ∈ as, Lexes (Text.indentChars^[n] (text a).toList) (tokens a)) :
    Lexes (Text.indentChars^[n] ("\n".intercalate (as.map text)).toList) (as.flatMap tokens) := by
  induction as with
  | nil =>
    have empty : Text.indentChars^[n] [] = [] := Function.iterate_fixed rfl n
    rw [List.map_nil, String.intercalate_nil]
    exact empty ▸ .nil
  | cons a as ih =>
    have others := ih fun b hb => each b (.tail a hb)
    cases as with
    | nil =>
      rw [List.map_singleton, String.intercalate_singleton, List.flatMap_singleton]
      exact each a (.head _)
    | cons b as =>
      rw [List.map_cons] at others
      rw [List.map_cons, List.map_cons, String.intercalate_cons_cons, String.toList_append,
        String.toList_append, List.append_assoc, List.flatMap_cons]
      show Lexes (Text.indentChars^[n] ((text a).toList ++ '\n' :: _)) _
      rw [Text.iterate_indentChars_append_break]
      exact (each a (.head _)).append_break others

/-- A head with texts in braces, moved to the right: the texts are one level deeper. -/
theorem lexes_blockText {head : String} {headTokens body : List Token} {texts : List String}
    (n : Nat) (spells : Spells headTokens head.toList)
    (below : Lexes (Text.indentChars^[n + 1] ("\n".intercalate texts).toList) body) :
    Lexes (Text.indentChars^[n] (Item.blockText head texts).toList)
      (headTokens ++ Token.punctuator '\x7b' :: (body ++ [Token.punctuator '\x7d'])) := by
  have block : (Item.blockText head texts).toList = (head.toList ++ [' ', '\x7b']) ++ '\n' ::
      (Text.indentChars ("\n".intercalate texts).toList ++ '\n' :: ['\x7d']) := by
    have lines : (Text.indent ("\n".intercalate texts)).toList
        = Text.indentChars ("\n".intercalate texts).toList := by
      rw [Text.indent, String.toList_ofList]
    rw [← lines]
    simp [Item.blockText]
  have opening : Spells (headTokens ++ [Token.punctuator '\x7b']) (head.toList ++ [' ', '\x7b']) :=
    spells.append (.ignored rfl (.punctuator rfl .nil)) (closed_cons rfl _)
  have closing : Spells [Token.punctuator '\x7d'] ['\x7d'] := .punctuator rfl .nil
  rw [block, Text.iterate_indentChars_append_break, Text.iterate_indentChars_append_break,
    ← Function.iterate_succ_apply]
  have whole := (opening.lexes n).append_break (below.append_break (closing.lexes n))
  rwa [List.append_assoc] at whole

namespace Item

theorem selectionsValid_append (ss ss' : List Selection) :
    selectionsValid (ss ++ ss') = (selectionsValid ss && selectionsValid ss') := by
  induction ss with
  | nil => rfl
  | cons s ss ih => rw [List.cons_append, selectionsValid, selectionsValid, ih, Bool.and_assoc]

theorem isValid_expandAll {read : Nat → String → List Selection} {n : Nat} {items : List Item}
    (each : ∀ i ∈ items, i.expand read n ≠ [] ∧ selectionsValid (i.expand read n) = true) :
    (items ≠ [] → expandAll read n items ≠ []) ∧
      selectionsValid (expandAll read n items) = true := by
  induction items with
  | nil => exact ⟨absurd rfl, rfl⟩
  | cons i is ih =>
    obtain ⟨present, valid⟩ := each i (.head _)
    obtain ⟨_, others⟩ := ih fun j hj => each j (.tail i hj)
    rw [expandAll, selectionsValid_append, valid, others]
    exact ⟨fun _ empty => present (List.append_eq_nil_iff.1 empty).1, rfl⟩

/-! ### Selections that can be read -/

/-- A selection is made of raw texts and of fields that go by names, as are their arguments and the
variables passed to them; no body is empty. -/
inductive Readable (aliased raws : String → Prop) : Item → Prop
  | raw {text : String} (given : raws text) : Readable aliased raws (.raw text)
  | leaf {aliasName : Option String} {name : String} {arguments : List BoundArgument}
      (aliases : ∀ a ∈ aliasName, aliased a) (named : isName name.toList = true)
      (arguments_named : ArgumentsNamed arguments) :
      Readable aliased raws (.field aliasName name arguments none)
  | block {aliasName : Option String} {name : String} {arguments : List BoundArgument}
      {items : List Item} (aliases : ∀ a ∈ aliasName, aliased a)
      (named : isName name.toList = true) (arguments_named : ArgumentsNamed arguments)
      (present : items ≠ []) (below : ∀ i ∈ items, Readable aliased raws i) :
      Readable aliased raws (.field aliasName name arguments (some items))

/-- What compiling makes against a schema of names can be read. -/
theorem Arises.readable {s : Schema} {aliased raws : String → Prop} {first : Int} {type : Value}
    {i : Item} (counted : 0 ≤ first) (named : s.isNamed = true)
    (h : i.Arises s aliased raws first type) : i.Readable aliased raws := by
  induction h with
  | raw given => exact .raw given
  | typename parent =>
    have unnamed : ∀ a ∈ (none : Option String), aliased a := nofun
    have plain : ArgumentsNamed [] := nofun
    exact .leaf unnamed (by decide) plain
  | leaf found takes aliases =>
    exact .leaf aliases (isName_of_field named found)
      (argumentsNamed_of_takes counted (Schema.isNamed_of_field named found) takes)
  | block found takes aliases returned present below ih =>
    exact .block aliases (isName_of_field named found)
      (argumentsNamed_of_takes counted (Schema.isNamed_of_field named found) takes) present ih

section

variable {aliased raws : String → Prop} {i : Item}

theorem Readable.of_mem_raws (h : i.Readable aliased raws) (n : Nat) :
    ∀ t ∈ i.raws n, raws t.2 := by
  induction h generalizing n with
  | raw given =>
    intro t ht
    rw [List.mem_singleton.1 ht]
    exact given
  | leaf => exact nofun
  | @block _ _ _ items _ _ _ _ _ ih =>
    intro t ht
    change t ∈ rawsAll (n + 1) items at ht
    rw [rawsAll_eq_flatMap] at ht
    obtain ⟨i, hi, ht⟩ := List.mem_flatMap.1 ht
    exact ih i hi (n + 1) t ht

/-- A selection stands for selections of the grammar, when its raw texts do. -/
theorem Readable.isValid_expand (h : i.Readable aliased raws)
    {read : Nat → String → List Selection}
    (reads : ∀ n text, raws text → read n text ≠ [] ∧ selectionsValid (read n text) = true)
    (n : Nat) : i.expand read n ≠ [] ∧ selectionsValid (i.expand read n) = true := by
  induction h generalizing n with
  | raw given => exact reads n _ given
  | leaf =>
    refine ⟨List.cons_ne_nil _ _, ?_⟩
    simp only [expand, selectionsValid, Selection.isValid, entriesValid_arguments, List.all_nil,
      Bool.and_true]
  | block aliases named arguments_named present below ih =>
    obtain ⟨nonempty, valid⟩ := isValid_expandAll fun i hi => ih i hi (n + 1)
    refine ⟨List.cons_ne_nil _ _, ?_⟩
    simp only [expand, selectionsValid, Selection.isValid, entriesValid_arguments, List.all_nil,
      List.isEmpty_eq_false_iff.2 (nonempty present), valid, Bool.not_false, Bool.and_true]

/-- The text of a selection, moved to the right, has the tokens of the selections that it stands
for, when its raw texts do. -/
theorem Readable.lexes (h : i.Readable (fun a => isName (trim a).toList = true) raws)
    {read : Nat → String → List Selection} (reads : ∀ n text, raws text →
      Lexes (Text.indentChars^[n] text.toList) (selectionTokens (read n text)))
    (n : Nat) : Lexes (Text.indentChars^[n] i.text.toList) (selectionTokens (i.expand read n)) := by
  induction h generalizing n with
  | raw given => exact reads n _ given
  | leaf aliases named arguments_named =>
    have head := (spells_headText aliases named arguments_named).lexes n
    simp only [expand, selectionTokens, Selection.tokens, directiveTokens, List.flatMap_nil,
      List.append_nil]
    exact head
  | block aliases named arguments_named present below ih =>
    have block := lexes_blockText n (spells_headText aliases named arguments_named)
      (lexes_lines (n + 1) fun i hi => ih i hi (n + 1))
    rw [List.append_assoc] at block
    simp only [expand, selectionTokens, Selection.tokens, directiveTokens, List.flatMap_nil,
      List.nil_append, List.append_nil, expandAll_eq_flatMap, selectionTokens_flatMap, text,
      texts_eq_map]
    exact block

/-! ### Raw texts of selections -/

section

variable (h : i.Readable aliased IsSelections) (n : Nat)

include h

theorem Readable.isValid_moved : i.moved n ≠ [] ∧ selectionsValid (i.moved n) = true :=
  h.isValid_expand (fun n _ given =>
    have moved := isSelections_iff.1 (given.moved n).1
    ⟨moved.1, moved.2.1⟩) n

/-- What is read is what is meant, up to the values of strings. -/
theorem Readable.matches_moved :
    List.Forall₂ Matches (selectionTokens i.meant) (selectionTokens (i.moved n)) := by
  rw [meant_eq n]
  exact matches_expand i n fun t ht => ((h.of_mem_raws n t ht).moved t.1).2.2

/-- What is read is what is meant if and only if every raw text is steady at its depth. -/
theorem Readable.moved_eq_iff :
    i.moved n = i.meant ↔ ∀ t ∈ i.raws n, Steady t.1 t.2 := by
  have given := h.of_mem_raws n
  rw [meant_eq n]
  refine (expand_eq_iff i n fun t ht => ((given t ht).moved t.1).2.1).2.trans ?_
  exact forall₂_congr fun t ht => (given t ht).moved_eq_iff t.1

end

theorem Readable.lexes_moved
    (h : i.Readable (fun a => isName (trim a).toList = true) IsSelections) (n : Nat) :
    Lexes (Text.indentChars^[n] i.text.toList) (selectionTokens (i.moved n)) := by
  refine h.lexes (fun n text given => ?_) n
  obtain ⟨_, _, moved⟩ := isSelections_iff.1 (given.moved n).1
  rw [toList_iterate_indent] at moved
  exact Token.ofChars?_eq_some.1 moved

end

end Item

end GraphRequest
