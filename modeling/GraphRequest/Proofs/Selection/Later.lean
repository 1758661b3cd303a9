import GraphRequest.Proofs.Selection.Rendering
import GraphRequest.Proofs.Selection.Shifting
import GraphRequest.Proofs.Schema.Names

/-!
# Texts of selections with later variables

The text of a selection with later variables is the text of the selection with later numbers in the
references to variables, and with nothing else changed. Where names, aliases and raw texts have no
dollar signs, there are no other dollar signs in the text than those of references.

* `Item.Written`: the texts that a selection is written from pass a test on their characters.
* `Item.Written.laterText`: the text of a selection with later variables.
* `written_of_planned`: the selections of a plan are written from names of the schema and from
  texts of the request.
-/

namespace GraphRequest

open Document.Token

/-! ### Texts -/

/-- The second text is the first one with later variables, the other characters passing a test. -/
abbrev LaterText (p : Char → Bool) (k : Nat) (s t : String) : Prop :=
  Renumbered (p · = true) (fun m n => n = m + k) s.toList t.toList

/-- Whether all characters of a text pass a test. -/
def allPass (p : Char → Bool) (s : String) : Bool := s.toList.all p

variable {p : Char → Bool} {k : Nat}

theorem laterText_self {s : String} (h : allPass p s = true) : LaterText p k s s :=
  renumbered_self (List.all_eq_true.1 h)

/-- A reference to a variable becomes one to the later variable. -/
theorem renumbered_variable {n : Int} (counted : 0 ≤ n) {cs ds : List Char} (closed : Closed cs)
    (rest : Renumbered (p · = true) (fun m n => n = m + k) cs ds) :
    Renumbered (p · = true) (fun m n => n = m + k)
      ('$' :: ((Bindings.variableName n).toList ++ cs))
      ('$' :: ((shiftVariable k (Bindings.variableName n)).toList ++ ds)) := by
  have later : (n + k).natAbs = n.natAbs + k := by omega
  rw [shiftVariable_variableName k counted, Bindings.toList_variableName counted,
    Bindings.toList_variableName (by omega)]
  exact .reference later closed rest

section

variable (plain : ∀ c, c ≠ '$' → p c = true)

include plain

theorem pass_of_not_mem {cs : List Char} (h : '$' ∉ cs) : ∀ c ∈ cs, p c = true :=
  fun c hc => plain c fun same => h (same ▸ hc)

/-- A head with texts in braces. -/
theorem laterText_blockText {α β : Type} {head head' : String} {f : α → String} {g : β → String}
    {xs : List α} {ys : List β} (heads : LaterText p k head head')
    (each : List.Forall₂ (fun x y => LaterText p k (f x) (g y)) xs ys) :
    LaterText p k (Item.blockText head (xs.map f)) (Item.blockText head' (ys.map g)) := by
  have lines := renumbered_intercalate "\n" (pass_of_not_mem plain (by decide))
    (closed_cons (by decide) []) (by decide) each
  have inside := lines.indent (plain ' ' (by decide))
  have ends : Renumbered (p · = true) (fun m n => n = m + k) ['\n', '\x7d'] ['\n', '\x7d'] :=
    renumbered_self (pass_of_not_mem plain (by decide))
  have block (head : String) (texts : List String) : (Item.blockText head texts).toList =
      head.toList ++ ([' ', '\x7b', '\n'] ++
        (Text.indentChars ("\n".intercalate texts).toList ++ ['\n', '\x7d'])) := by
    have indented : (Text.indent ("\n".intercalate texts)).toList =
        Text.indentChars ("\n".intercalate texts).toList := by
      rw [Text.indent, String.toList_ofList]
    rw [← indented]
    simp [Item.blockText]
  unfold LaterText
  rw [block, block]
  refine heads.append (Renumbered.prepend ?_ (pass_of_not_mem plain (by decide)))
    (closed_cons (by decide) _)
  exact inside.append ends (closed_cons (by decide) _)

/-- Texts in parentheses, if there are any. -/
theorem laterText_parenthesized {α β : Type} {f : α → String} {g : β → String}
    {xs : List α} {ys : List β}
    (each : List.Forall₂ (fun x y => LaterText p k (f x) (g y)) xs ys) :
    LaterText p k (if xs.isEmpty then "" else "(" ++ ", ".intercalate (xs.map f) ++ ")")
      (if ys.isEmpty then "" else "(" ++ ", ".intercalate (ys.map g) ++ ")") := by
  cases each with
  | nil => exact .nil
  | @cons x y xs ys head tail =>
    have inside := renumbered_intercalate ", " (pass_of_not_mem plain (by decide))
      (closed_cons (by decide) [' ']) (by decide) (.cons head tail)
    show LaterText p k ("(" ++ ", ".intercalate ((x :: xs).map f) ++ ")")
      ("(" ++ ", ".intercalate ((y :: ys).map g) ++ ")")
    unfold LaterText
    rw [String.toList_append, String.toList_append, String.toList_append, String.toList_append,
      List.append_assoc, List.append_assoc]
    refine .char (plain '(' (by decide)) (inside.append ?_ (closed_cons (by decide) _))
    exact .char (plain ')' (by decide)) .nil

end

/-! ### Selections -/

/-- What an argument is written from passes a test: its name, and a variable with a number. -/
structure BoundArgument.Written (p : Char → Bool) (a : BoundArgument) : Prop where
  named : allPass p a.name = true
  numbered : ∃ n : Int, 0 ≤ n ∧ a.variableName = Bindings.variableName n

/-- What a selection is written from passes a test. -/
inductive Item.Written (p : Char → Bool) : Item → Prop
  | raw {text : String} (passes : allPass p text = true) : Written p (.raw text)
  | leaf {aliasName : Option String} {name : String} {arguments : List BoundArgument}
      (aliases : ∀ a ∈ aliasName, allPass p a = true) (named : allPass p name = true)
      (passed : ∀ a ∈ arguments, a.Written p) : Written p (.field aliasName name arguments none)
  | block {aliasName : Option String} {name : String} {arguments : List BoundArgument}
      {items : List Item} (aliases : ∀ a ∈ aliasName, allPass p a = true)
      (named : allPass p name = true) (passed : ∀ a ∈ arguments, a.Written p)
      (below : ∀ i ∈ items, Written p i) :
      Written p (.field aliasName name arguments (some items))

section

variable (plain : ∀ c, c ≠ '$' → p c = true)

include plain

theorem BoundArgument.Written.laterText {a : BoundArgument} (h : a.Written p) :
    LaterText p k a.text (a.shift k).text := by
  obtain ⟨n, counted, variable_eq⟩ := h.numbered
  have text (name variable_ : String) : (BoundArgument.text ⟨name, variable_⟩).toList =
      name.toList ++ ([':', ' '] ++ '$' :: (variable_.toList ++ [])) := by
    simp [BoundArgument.text]
  show Renumbered _ _ (BoundArgument.text ⟨a.name, a.variableName⟩).toList
    (BoundArgument.text ⟨a.name, shiftVariable k a.variableName⟩).toList
  rw [text, text, variable_eq]
  refine Renumbered.prepend (Renumbered.prepend ?_ (pass_of_not_mem plain (by decide)))
    (List.all_eq_true.1 h.named)
  exact renumbered_variable counted closed_nil .nil

theorem laterText_headText {aliasName : Option String} {name : String}
    {arguments : List BoundArgument} (aliases : ∀ a ∈ aliasName, allPass p a = true)
    (named : allPass p name = true) (written : ∀ a ∈ arguments, a.Written p) :
    LaterText p k (Item.headText aliasName name arguments)
      (Item.headText aliasName name (arguments.map (BoundArgument.shift k))) := by
  have behind : LaterText p k
      (if arguments.isEmpty then ""
        else "(" ++ ", ".intercalate (arguments.map BoundArgument.text) ++ ")")
      (if (arguments.map (BoundArgument.shift k)).isEmpty then ""
        else "(" ++ ", ".intercalate ((arguments.map (BoundArgument.shift k)).map
          BoundArgument.text) ++ ")") := by
    refine laterText_parenthesized plain (List.forall₂_map_right_iff.2 ?_)
    exact List.forall₂_same.2 fun a ha => (written a ha).laterText plain
  unfold Item.headText LaterText
  rw [String.toList_append, String.toList_append]
  refine Renumbered.append ?_ behind (closed_arguments arguments)
  cases aliasName with
  | none => exact laterText_self named
  | some a =>
    dsimp only
    rw [String.toList_append, String.toList_append, List.append_assoc]
    refine Renumbered.prepend (Renumbered.prepend (laterText_self named) ?_)
      (List.all_eq_true.1 (aliases a rfl))
    exact pass_of_not_mem plain (by decide)

/-- The text of a selection with later variables, by induction on the selection. -/
theorem Item.Written.laterText {i : Item} (h : i.Written p) :
    LaterText p k i.text (i.shift k).text := by
  induction h with
  | raw passes => exact laterText_self passes
  | leaf aliases named passed => exact laterText_headText plain aliases named passed
  | @block aliasName name arguments items aliases named passed below ih =>
    have head := laterText_headText (k := k) plain aliases named passed
    rw [shift_field, Option.map_some]
    show LaterText p k (blockText _ (texts items)) (blockText _ (texts (items.map (shift k))))
    rw [texts_eq_map, texts_eq_map]
    refine laterText_blockText plain head (List.forall₂_map_right_iff.2 ?_)
    exact List.forall₂_same.2 ih

end

/-! ### What selections are written from -/

/-- Whether the text of a value, such as that of a name, passes a test. -/
def Value.textPasses (p : Char → Bool) (v : Value) : Bool := allPass p v.text

/-- Whether the raw text and the alias of an entry pass a test. -/
def Entry.textsPass (p : Char → Bool) : Entry → Bool
  | .raw text => allPass p text
  | e => (e.alias?.map (allPass p)).getD true

theorem Entry.textsPass_alias {e : Entry} (h : e.textsPass p = true) :
    ∀ a ∈ e.alias?, allPass p a = true := by
  intro a ha
  cases e with
  | nested name aliasName arguments returning extras =>
    change ((nested name aliasName arguments returning extras).alias?.map (allPass p)).getD true = _
      at h
    rw [Option.mem_def.1 ha] at h
    exact h
  | _ => cases ha

theorem allPass_strip {s : String} (h : allPass p s = true) : allPass p (Text.strip s) = true := by
  have mem {c : Char} {cs : List Char} (hc : c ∈ cs.dropWhile Text.isBlank) : c ∈ cs :=
    (List.dropWhile_sublist _).subset hc
  refine List.all_eq_true.2 fun c hc => List.all_eq_true.1 h c ?_
  rw [Text.strip, String.toList_ofList] at hc
  exact mem (List.mem_reverse.1 (mem (List.mem_reverse.1 hc)))

theorem Entry.textsPass_rawText {e : Entry} (h : e.textsPass p = true) :
    ∀ t ∈ e.rawText?, allPass p t = true := by
  intro t ht
  cases e with
  | raw text =>
    rw [Option.mem_def, rawText?] at ht
    split at ht
    · cases ht
    · cases ht
      exact allPass_strip h
  | _ => cases ht

namespace Schema

variable {s : Schema} {type : Value}

theorem allPass_of_field (names : s.namesPass (Value.textPasses p) = true) {name : String}
    {f : FieldDef} (found : s.field type (.str name) = .ok (some f)) : allPass p name = true := by
  obtain ⟨t, listed, hf⟩ := field_eq_some found
  have here := (FieldDef.namesPass_iff.1 (namesPass_of_field? names listed hf)).1
  rwa [(TypeDef.field?_eq_some hf).2] at here

/-- The arguments that a field takes are written from the names that it declares. -/
theorem written_of_takes {f : FieldDef} (names : f.namesPass (Value.textPasses p) = true)
    {first : Int} (counted : 0 ≤ first) {arguments : List BoundArgument}
    (takes : f.Takes first arguments) : ∀ a ∈ arguments, a.Written p := by
  intro a ha
  refine ⟨?_, ?_⟩
  · obtain ⟨c, found⟩ := Option.isSome_iff_exists.1 (takes.declared a ha)
    obtain ⟨mem, name⟩ := FieldDef.argument?_eq_some found
    have argument := (FieldDef.namesPass_iff.1 names).2.2 c mem
    rw [ArgumentDef.namesPass, name, Bool.and_eq_true] at argument
    exact argument.1
  · obtain ⟨n, hn, same⟩ := takes.numbered a ha
    exact ⟨n, Int.le_trans counted hn, same⟩

theorem written_field {aliasName : Option String} {name : String}
    {arguments : List BoundArgument} {body : Option (List Item)}
    (aliases : ∀ a ∈ aliasName, allPass p a = true) (named : allPass p name = true)
    (passed : ∀ a ∈ arguments, a.Written p) (below : ∀ items ∈ body, ∀ i ∈ items, i.Written p) :
    (Item.field aliasName name arguments body).Written p := by
  cases body with
  | none => exact .leaf aliases named passed
  | some items => exact .block aliases named passed (below items rfl)

section

variable (plain : ∀ c, c ≠ '$' → p c = true) (names : s.namesPass (Value.textPasses p) = true)

include plain names

/-- A selection that compiling makes is written from names of the schema and from the aliases and
the raw texts of the request. -/
theorem written_of_arises {first : Int} (counted : 0 ≤ first) {i : Item}
    (h : i.Arises s (allPass p · = true) (allPass p · = true) first type) : i.Written p := by
  induction h with
  | raw given => exact .raw given
  | typename parent =>
    exact written_field nofun (List.all_eq_true.2 (pass_of_not_mem plain (by decide))) nofun nofun
  | leaf found takes aliases =>
    exact .leaf aliases (allPass_of_field names found)
      (written_of_takes (namesPass_of_field names found) counted takes)
  | block found takes aliases returned present below ih =>
    exact .block aliases (allPass_of_field names found)
      (written_of_takes (namesPass_of_field names found) counted takes) ih

/-- The selections of a plan are written from names of the schema and from texts of the request. -/
theorem written_of_planned {r : Request} (texts : ∀ e, s.Meets r e → e.textsPass p = true)
    {root : RootField} {b b' : Bindings} {items : List Item}
    (resolved : s.resolve r = .ok root) (h : Planned s r root b items b') (hb : 0 ≤ b.counter) :
    ∀ i ∈ items, i.Written p := by
  obtain ⟨base, _, arises⟩ := arises_of_planned
    (fun e met => Entry.textsPass_rawText (texts e met))
    (fun e met => Entry.textsPass_alias (texts e met)) resolved h hb
  exact fun i hi => written_of_arises plain names (Int.le_refl 0) (arises i hi)

end

end Schema

end GraphRequest
