import GraphRequest.Proofs.Value.Numerals
import GraphRequest.Proofs.Value.Strings
import GraphRequest.Value.Arranged

/-!
# What a text tells of its value

JSON data is told apart by its text: the first character of a text tells its shape, every text ends
where its shape says, and a number ends before a character that belongs to no number. The canonical
text is the text of the arranged value. So it tells the value up to the order of keys.

* `Legible`: a text that is known wherever it stands before something that ends it.
* `isLegible_of_isJson`: JSON data has legible texts.
* `canonical_eq_iff`: canonical texts are the same just if the values are the same when arranged.
-/

namespace GraphRequest.Value

/-! ### Legible texts -/

/-- What may stand behind a text: nothing that a number could go on with. -/
def Ends (rest : List Char) : Prop := ∀ c ∈ rest.head?, isNumberChar c = false

/-- A text is legible among the texts of some things: none of them begins the same way and goes on
differently. -/
def Legible {α : Type} (text : α → List Char) (among : α → Prop) (a : α) : Prop :=
  ∀ b rest rest', among b → Ends rest → Ends rest' →
    text a ++ rest = text b ++ rest' → a = b ∧ rest = rest'

/-- The texts of things, a comma before each of them but the first. -/
def separated {α : Type} (text : α → List Char) : List α → List Char
  | [] => []
  | a :: as => text a ++ as.flatMap fun b => ',' :: text b

section

variable {α : Type} {text : α → List Char} {among : α → Prop} {close : Char} {as bs : List α}
  {rest rest' : List Char}

theorem ends_more (ends : isNumberChar close = false) (as : List α) (rest : List Char) :
    Ends ((as.flatMap fun b => ',' :: text b) ++ close :: rest) := by
  cases as with
  | nil =>
    rintro c ⟨⟩
    exact ends
  | cons a as =>
    rintro c ⟨⟩
    rfl

/-- More things behind a comma each are legible up to what closes them. -/
theorem more_inj (ends : isNumberChar close = false) (apart : close ≠ ',')
    (legible : ∀ a ∈ as, Legible text among a) (others : ∀ b ∈ bs, among b)
    (same : (as.flatMap fun b => ',' :: text b) ++ close :: rest =
      (bs.flatMap fun b => ',' :: text b) ++ close :: rest') : as = bs ∧ rest = rest' := by
  induction as generalizing bs with
  | nil =>
    cases bs with
    | nil => exact ⟨rfl, (List.cons.inj same).2⟩
    | cons b bs => exact absurd (List.cons.inj same).1 apart
  | cons a as ih =>
    cases bs with
    | nil => exact absurd (List.cons.inj same).1.symm apart
    | cons b bs =>
      simp only [List.flatMap_cons, List.cons_append, List.append_assoc, List.cons.injEq,
        true_and] at same
      obtain ⟨rfl, more⟩ := legible a (by simp) b _ _ (others b (by simp))
        (ends_more ends as rest) (ends_more ends bs rest') same
      obtain ⟨rfl, rests⟩ := ih (fun a ha => legible a (by simp [ha]))
        (fun b hb => others b (by simp [hb])) more
      exact ⟨rfl, rests⟩

/-- Things between commas are legible up to what closes them. -/
theorem separated_inj (ends : isNumberChar close = false) (apart : close ≠ ',')
    (opens : ∀ b rest, among b → (text b ++ rest).head? ≠ some close)
    (legible : ∀ a ∈ as, Legible text among a) (some' : ∀ a ∈ as, among a)
    (others : ∀ b ∈ bs, among b)
    (same : separated text as ++ close :: rest = separated text bs ++ close :: rest') :
    as = bs ∧ rest = rest' := by
  cases as with
  | nil =>
    cases bs with
    | nil => exact ⟨rfl, (List.cons.inj same).2⟩
    | cons b bs =>
      rw [separated, separated, List.append_assoc] at same
      exact absurd (congrArg List.head? same).symm (opens b _ (others b (by simp)))
  | cons a as =>
    cases bs with
    | nil =>
      rw [separated, separated, List.append_assoc] at same
      exact absurd (congrArg List.head? same) (opens a _ (some' a (by simp)))
    | cons b bs =>
      rw [separated, separated, List.append_assoc, List.append_assoc] at same
      obtain ⟨rfl, more⟩ := legible a (by simp) b _ _ (others b (by simp))
        (ends_more ends as rest) (ends_more ends bs rest') same
      obtain ⟨rfl, rests⟩ := more_inj ends apart (fun a ha => legible a (by simp [ha]))
        (fun b hb => others b (by simp [hb])) more
      exact ⟨rfl, rests⟩

end

/-! ### Texts of lists and objects -/

/-- The text of a value as characters. -/
def chars (v : Value) : List Char := v.json.toList

/-- The text of an entry. -/
def entryChars (f : String × Value) : List Char := (jsonString f.1).toList ++ ':' :: f.2.chars

theorem toList_jsonItems (items : List Value) :
    (jsonItems items).toList = separated chars items := by
  induction items with
  | nil => rfl
  | cons v vs ih =>
    cases vs with
    | nil => exact (List.append_nil _).symm
    | cons w ws =>
      rw [jsonItems, String.toList_append, String.toList_append, ih]
      · rw [List.append_assoc]
        rfl
      · intro h
        cases h

theorem toList_jsonFields (fields : Fields) :
    (jsonFields fields).toList = separated entryChars fields := by
  induction fields with
  | nil => rfl
  | cons f rest ih =>
    obtain ⟨k, v⟩ := f
    have entry : (jsonString k ++ ":" ++ json v).toList = entryChars (k, v) := by
      rw [String.toList_append, String.toList_append, List.append_assoc]
      rfl
    cases rest with
    | nil =>
      rw [jsonFields, entry]
      exact (List.append_nil _).symm
    | cons g rest =>
      rw [jsonFields, String.toList_append, String.toList_append, ih, entry]
      · simp [separated]
      · intro h
        cases h

theorem json_arr (items : List Value) : (arr items).json = "[" ++ jsonItems items ++ "]" := rfl

theorem json_obj (fields : Fields) :
    (obj fields).json = "\x7b" ++ jsonFields fields ++ "\x7d" := rfl

theorem chars_arr (items : List Value) :
    (arr items).chars = '[' :: (separated chars items ++ [']']) := by
  rw [chars, json_arr, String.toList_append, String.toList_append, toList_jsonItems,
    List.append_assoc]
  rfl

theorem chars_obj (fields : Fields) :
    (obj fields).chars = '\x7b' :: (separated entryChars fields ++ ['\x7d']) := by
  rw [chars, json_obj, String.toList_append, String.toList_append, toList_jsonFields,
    List.append_assoc]
  rfl

/-! ### The first character -/

/-- The shapes of JSON data that the first character of a text tells. -/
inductive Shape
  | null
  | true
  | false
  | number
  | text
  | list
  | object
deriving DecidableEq

/-- The shape of a value; a column function has the shape of the object that stands for it. -/
def shape : Value → Shape
  | .null => .null
  | .bool true => .true
  | .bool false => .false
  | .int _ => .number
  | .float _ => .number
  | .str _ => .text
  | .arr _ => .list
  | .obj _ => .object
  | .columns _ _ => .object

/-- The shape whose texts begin with a character. -/
def shapeOf? (c : Char) : Option Shape :=
  if c == 'n' then some .null
  else if c == 't' then some .true
  else if c == 'f' then some .false
  else if c == '\x22' then some .text
  else if c == '[' then some .list
  else if c == '\x7b' then some .object
  else if isNumberChar c then some .number
  else none

theorem shapeOf?_number {c : Char} (number : isNumberChar c = true) :
    shapeOf? c = some .number := by
  have apart (d : Char) (other : isNumberChar d = false) : c ≠ d := by
    rintro rfl
    rw [number] at other
    cases other
  simp [shapeOf?, number, apart 'n' rfl, apart 't' rfl, apart 'f' rfl, apart '\x22' rfl,
    apart '[' rfl, apart '\x7b' rfl]

/-- Number characters begin a number. -/
theorem head?_number {cs : List Char} (some' : cs ≠ [])
    (number : ∀ c ∈ cs, isNumberChar c = true) :
    cs.head?.bind shapeOf? = some .number := by
  cases cs with
  | nil => exact absurd rfl some'
  | cons c cs => exact shapeOf?_number (number c (by simp))

/-- The text of JSON data begins as its shape says. -/
theorem head?_chars {v : Value} (json : v.isJson = true) :
    v.chars.head?.bind shapeOf? = some v.shape := by
  cases v with
  | null => rfl
  | bool b => cases b <;> rfl
  | int n => exact head?_number (integerText_ne_nil n) (isNumberChar_integerText n)
  | float d => exact head?_number (text_ne_nil json) (isNumberChar_text json)
  | str s =>
    show (jsonString s).toList.head?.bind shapeOf? = _
    rw [toList_jsonString]
    rfl
  | arr items =>
    rw [chars_arr]
    rfl
  | obj fields =>
    rw [chars_obj]
    rfl
  | columns names distinct => cases json

/-- Texts that begin the same way belong to values of one shape. -/
theorem shape_eq {p q : Value} (hp : p.isJson = true) (hq : q.isJson = true)
    {rest rest' : List Char} (same : p.chars ++ rest = q.chars ++ rest') : p.shape = q.shape := by
  have first {v : Value} (json : v.isJson = true) (rest : List Char) :
      (v.chars ++ rest).head?.bind shapeOf? = some v.shape := by
    have begins := head?_chars json
    cases h : v.chars with
    | nil =>
      rw [h] at begins
      cases begins
    | cons c cs =>
      rw [h] at begins
      exact begins
  have shapes := first hp rest
  rw [same, first hq rest'] at shapes
  exact (Option.some.inj shapes).symm

/-! ### Values -/

/-- A number ends where no number goes on. -/
theorem number_append_inj {cs ds rest rest' : List Char}
    (hc : ∀ c ∈ cs, isNumberChar c = true) (hd : ∀ c ∈ ds, isNumberChar c = true)
    (ends : Ends rest) (ends' : Ends rest') (same : cs ++ rest = ds ++ rest') :
    cs = ds ∧ rest = rest' := by
  have number {cs rest : List Char} (hc : ∀ c ∈ cs, isNumberChar c = true) (ends : Ends rest) :
      (cs ++ rest).takeWhile isNumberChar = cs := by
    rw [List.takeWhile_append_of_pos hc]
    cases rest with
    | nil => exact List.append_nil cs
    | cons c rest =>
      rw [List.takeWhile_cons_of_neg]
      · exact List.append_nil cs
      · rw [ends c rfl]
        exact Bool.false_ne_true
  have numbers := number hc ends
  rw [same, number hd ends'] at numbers
  subst numbers
  exact ⟨rfl, List.append_cancel_left same⟩

/-- An entry is legible if its value is. -/
theorem legible_entry {f : String × Value}
    (legible : Legible chars (fun v => v.isJson = true) f.2) :
    Legible entryChars (fun g => g.2.isJson = true) f := by
  intro g rest rest' json ends ends' same
  obtain ⟨k, v⟩ := f
  obtain ⟨l, w⟩ := g
  rw [entryChars, entryChars, List.append_assoc, List.append_assoc] at same
  obtain ⟨keys, same⟩ := jsonString_append_inj same
  obtain ⟨values, rests⟩ := legible w rest rest' json ends ends' (List.cons.inj same).2
  exact ⟨Prod.ext keys values, rests⟩

/-- No text begins with what closes a list or an object. -/
theorem head?_chars_ne {close : Char} (closes : shapeOf? close = none) {v : Value}
    (json : v.isJson = true) (rest : List Char) : (v.chars ++ rest).head? ≠ some close := by
  intro first
  have begins := head?_chars json
  cases h : v.chars with
  | nil =>
    rw [h] at begins
    cases begins
  | cons c cs =>
    rw [h] at begins first
    cases first
    exact absurd (closes.symm.trans begins) (by simp)

/-- The text of a value is legible among the texts of JSON data. -/
abbrev IsLegible (p : Value) : Prop := Legible chars (fun v => v.isJson = true) p

/-- A text is legible if it is legible among the texts of its shape. -/
theorem isLegible_of_shape {p : Value} (json : p.isJson = true)
    (inside : ∀ q rest rest', q.isJson = true → q.shape = p.shape → Ends rest → Ends rest' →
      p.chars ++ rest = q.chars ++ rest' → p = q ∧ rest = rest') : IsLegible p :=
  fun q rest rest' hq ends ends' same =>
    inside q rest rest' hq (shape_eq json hq same).symm ends ends' same

theorem isLegible_null : IsLegible .null := by
  refine isLegible_of_shape rfl fun q rest rest' _ shapes _ _ same => ?_
  cases q with
  | null => exact ⟨rfl, List.append_cancel_left same⟩
  | bool b => cases b <;> cases shapes
  | _ => cases shapes

theorem isLegible_bool (b : Bool) : IsLegible (.bool b) := by
  refine isLegible_of_shape rfl fun q rest rest' _ shapes _ _ same => ?_
  cases q with
  | bool c =>
    have equal : b = c := by
      cases b <;> cases c <;> first | rfl | cases shapes
    subst equal
    exact ⟨rfl, List.append_cancel_left same⟩
  | _ => cases b <;> cases shapes

theorem isLegible_int (n : Int) : IsLegible (.int n) := by
  refine isLegible_of_shape rfl fun q rest rest' hq shapes ends ends' same => ?_
  cases q with
  | int m =>
    obtain ⟨texts, rests⟩ := number_append_inj (isNumberChar_integerText n)
      (isNumberChar_integerText m) ends ends' same
    exact ⟨congrArg int (integerText_inj (String.toList_inj.1 texts)), rests⟩
  | float d =>
    obtain ⟨texts, _⟩ := number_append_inj (isNumberChar_integerText n) (isNumberChar_text hq)
      ends ends' same
    exact absurd (String.toList_inj.1 texts).symm (text_ne_integerText hq n)
  | bool b => cases b <;> cases shapes
  | _ => cases shapes

theorem isLegible_float {d : Decimal} (reduced : d.isReduced = true) : IsLegible (.float d) := by
  refine isLegible_of_shape reduced fun q rest rest' hq shapes ends ends' same => ?_
  cases q with
  | float e =>
    obtain ⟨texts, rests⟩ := number_append_inj (isNumberChar_text reduced) (isNumberChar_text hq)
      ends ends' same
    exact ⟨congrArg float (text_inj reduced hq (String.toList_inj.1 texts)), rests⟩
  | int n =>
    obtain ⟨texts, _⟩ := number_append_inj (isNumberChar_text reduced)
      (isNumberChar_integerText n) ends ends' same
    exact absurd (String.toList_inj.1 texts) (text_ne_integerText reduced n)
  | bool b => cases b <;> cases shapes
  | _ => cases shapes

theorem isLegible_str (s : String) : IsLegible (.str s) := by
  refine isLegible_of_shape rfl fun q rest rest' _ shapes _ _ same => ?_
  cases q with
  | str t =>
    obtain ⟨texts, rests⟩ := jsonString_append_inj same
    exact ⟨congrArg str texts, rests⟩
  | bool b => cases b <;> cases shapes
  | _ => cases shapes

theorem isLegible_arr {items : List Value} (json : (arr items).isJson = true)
    (each : ∀ v ∈ items, IsLegible v) : IsLegible (.arr items) := by
  refine isLegible_of_shape json fun q rest rest' hq shapes _ _ same => ?_
  cases q with
  | arr others =>
    rw [chars_arr, chars_arr, List.cons_append, List.cons_append, List.append_assoc,
      List.append_assoc] at same
    obtain ⟨equal, rests⟩ := separated_inj rfl (by decide)
      (fun v rest hv => head?_chars_ne rfl hv rest) each (isJson_arr.1 json) (isJson_arr.1 hq)
      (List.cons.inj same).2
    exact ⟨congrArg arr equal, rests⟩
  | bool b => cases b <;> cases shapes
  | _ => cases shapes

theorem isLegible_obj {fields : Fields} (json : (obj fields).isJson = true)
    (each : ∀ f ∈ fields, IsLegible f.2) : IsLegible (.obj fields) := by
  refine isLegible_of_shape json fun q rest rest' hq shapes _ _ same => ?_
  cases q with
  | obj others =>
    rw [chars_obj, chars_obj, List.cons_append, List.cons_append, List.append_assoc,
      List.append_assoc] at same
    have opens (f : String × Value) (rest : List Char) (_ : f.2.isJson = true) :
        (entryChars f ++ rest).head? ≠ some '\x7d' := by
      rw [entryChars, toList_jsonString]
      simp
    obtain ⟨equal, rests⟩ := separated_inj rfl (by decide) opens
      (fun f hf => legible_entry (each f hf)) (isJson_obj.1 json).2 (isJson_obj.1 hq).2
      (List.cons.inj same).2
    exact ⟨congrArg obj equal, rests⟩
  | columns names distinct => cases hq
  | bool b => cases b <;> cases shapes
  | _ => cases shapes

/-- JSON data has legible texts. -/
theorem isLegible_of_isJson {p : Value} (json : p.isJson = true) : IsLegible p := by
  induction p using inductParts with
  | null => exact isLegible_null
  | bool b => exact isLegible_bool b
  | int n => exact isLegible_int n
  | float d => exact isLegible_float json
  | str s => exact isLegible_str s
  | arr items ih => exact isLegible_arr json fun v hv => ih v hv (isJson_arr.1 json v hv)
  | obj fields ih => exact isLegible_obj json fun f hf => ih f hf ((isJson_obj.1 json).2 f hf)
  | columns names distinct => cases json

theorem json_inj {p q : Value} (hp : p.isJson = true) (hq : q.isJson = true)
    (same : p.json = q.json) : p = q := by
  have nothing : Ends [] := fun _ h => nomatch h
  have texts : p.chars ++ [] = q.chars ++ [] := by
    rw [chars, chars, same]
  exact (isLegible_of_isJson hp q [] [] hq nothing nothing texts).1

/-! ### Canonical texts -/

theorem jsonItems_eq (items : List Value) : jsonItems items = commaSeparated (items.map json) := by
  induction items with
  | nil => rfl
  | cons v vs ih =>
    cases vs with
    | nil => exact String.intercalate_singleton.symm
    | cons w ws =>
      rw [List.map_cons, List.map_cons, commaSeparated, String.intercalate_cons_cons,
        ← List.map_cons, ← commaSeparated, ← ih]
      rfl

theorem jsonFields_eq (fields : Fields) : jsonFields fields =
    commaSeparated (fields.map fun f => jsonString f.1 ++ ":" ++ f.2.json) := by
  induction fields with
  | nil => rfl
  | cons f rest ih =>
    cases rest with
    | nil => exact String.intercalate_singleton.symm
    | cons g rest =>
      rw [List.map_cons, List.map_cons, commaSeparated, String.intercalate_cons_cons,
        ← List.map_cons (f := fun f : String × Value => jsonString f.1 ++ ":" ++ f.2.json),
        ← commaSeparated, ← ih]
      rfl

/-- The canonical text of JSON data is the text of the arranged data. -/
theorem canonical_eq {v : Value} (json : v.isJson = true) : v.canonical = v.arranged.json := by
  induction v using inductParts with
  | arr items ih =>
    have each : items.map canonical = (items.map arranged).map Value.json := by
      rw [List.map_map]
      exact List.map_congr_left fun v hv => ih v hv (isJson_arr.1 json v hv)
    rw [canonical, canonicalItems_eq_map, each, arranged_arr, json_arr, jsonItems_eq]
  | obj fields ih =>
    obtain ⟨_, inside⟩ := isJson_obj.1 json
    have each : fields.map (fun f => (f.1, f.2.canonical)) =
        (fields.map fun f => (f.1, f.2.arranged)).map fun f => (f.1, f.2.json) := by
      rw [List.map_map]
      exact List.map_congr_left fun f hf => congrArg (f.1, ·) (ih f hf (inside f hf))
    have sorted (fields : Fields) : sortByKey (fields.map fun f => (f.1, f.2.json)) =
        (sortFields fields).map fun f => (f.1, f.2.json) :=
      (List.map_mergeSort (f := fun f : String × Value => (f.1, f.2.json)) fun _ _ _ _ => rfl).symm
    rw [canonical, canonicalFields_eq_map, each, sorted, List.map_map, arranged_obj, json_obj,
      jsonFields_eq]
    rfl
  | columns names distinct => cases json
  | bool b => cases b <;> rfl
  | _ => rfl

/-- Canonical texts are the same just if the values are the same up to the order of keys. -/
theorem canonical_eq_iff {p q : Value} (hp : p.isJson = true) (hq : q.isJson = true) :
    p.canonical = q.canonical ↔ p.arranged = q.arranged := by
  rw [canonical_eq hp, canonical_eq hq]
  exact ⟨json_inj (isJson_arranged hp) (isJson_arranged hq), congrArg Value.json⟩

end GraphRequest.Value
