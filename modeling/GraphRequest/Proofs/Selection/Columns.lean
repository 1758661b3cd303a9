import GraphRequest.Proofs.Selection.Outcomes
import GraphRequest.Value.Parts

/-!
# Column functions with lists of columns

A column function is well formed when its columns are a list. Reading the wanted fields of a request
takes column functions over as they are, so a test for them that passes on a value passes on all
entries that are read from it, those of keys without fixed meaning included.

* `listsColumns_of_value`: from a value to the entries that are read from it.
-/

namespace GraphRequest

/-- Whether a value is no column function, or one of a list of columns. -/
def Value.listsColumns : Value → Bool
  | .columns (.arr _) _ => true
  | .columns _ _ => false
  | _ => true

namespace Entry

/-- Whether an entry is no call of a column function, or one with a list of columns. -/
def listsColumns : Entry → Bool
  | .columns _ (.arr _) _ => true
  | .columns _ _ _ => false
  | _ => true

theorem holdsAll_append {p : Entry → Bool} {es fs : List Entry} (he : holdsAll p es = true)
    (hf : holdsAll p fs = true) : holdsAll p (es ++ fs) = true := by
  induction es with
  | nil => exact hf
  | cons e es ih =>
    rw [holdsAll, Bool.and_eq_true] at he
    rw [List.cons_append, holdsAll, he.1, ih he.2]
    rfl

theorem listsColumns_ofWords (s : String) : holdsAll listsColumns (ofWords s) = true := by
  unfold ofWords
  induction Text.words s with
  | nil => rfl
  | cons word rest ih =>
    rw [List.map_cons, holdsAll, ih]
    rfl

/-- The entries that the members of an object ask for list columns, if each of them does. -/
theorem listsColumns_ofFields {fields : Fields}
    (each : ∀ f ∈ fields, ∀ given e, ofPair given f.2 = .ok e → e.holds listsColumns = true)
    {es : List Entry} (h : ofFields fields = .ok es) : holdsAll listsColumns es = true := by
  induction fields generalizing es with
  | nil =>
    cases h
    rfl
  | cons f rest ih =>
    rw [ofFields] at h
    obtain ⟨e, he, h⟩ := bind_eq_ok.1 h
    obtain ⟨others, hothers, h⟩ := bind_eq_ok.1 h
    cases h
    have head := each f (.head _) _ e he
    have tail := ih (fun f' hf' => each f' (.tail _ hf')) hothers
    rw [holdsAll, head, tail]
    rfl

theorem listsColumns_ofItems {items : List Value}
    (each : ∀ fields, Value.obj fields ∈ items → ∀ es, ofFields fields = .ok es →
      holdsAll listsColumns es = true)
    {es : List Entry} (h : ofItems items = .ok es) : holdsAll listsColumns es = true := by
  induction items generalizing es with
  | nil =>
    cases h
    rfl
  | cons v rest ih =>
    have others := fun es (h : ofItems rest = .ok es) =>
      ih (fun fields hf => each fields (.tail _ hf)) h
    cases v with
    | str s =>
      rw [ofItems] at h
      split at h
      · exact others es h
      · obtain ⟨entries, hentries, h⟩ := bind_eq_ok.1 h
        cases h
        rw [holdsAll, others entries hentries]
        rfl
    | obj fields =>
      rw [ofItems] at h
      obtain ⟨first, hfirst, h⟩ := bind_eq_ok.1 h
      obtain ⟨entries, hentries, h⟩ := bind_eq_ok.1 h
      cases h
      exact holdsAll_append (each fields (.head _) first hfirst) (others entries hentries)
    | _ => simp [ofItems] at h

theorem listsColumns_returningIn {fields : Fields}
    (each : ∀ f ∈ fields, ∀ es, ofNested f.2 = .ok es → holdsAll listsColumns es = true)
    {o : Option (List Entry)} (h : returningIn fields = .ok o) :
    holdsBelow listsColumns o = true := by
  induction fields generalizing o with
  | nil =>
    cases h
    rfl
  | cons f rest ih =>
    rw [returningIn] at h
    split at h
    · split at h
      · cases h
        rfl
      · obtain ⟨es, hes, h⟩ := bind_eq_ok.1 h
        cases h
        exact each f (.head _) es hes
    · exact ih (fun f' hf' => each f' (.tail _ hf')) h

theorem listsColumns_extrasIn {fields : Fields}
    (each : ∀ f ∈ fields, ∀ given e, ofPair given f.2 = .ok e → e.holds listsColumns = true) :
    holdsExtras listsColumns (extrasIn fields) = true := by
  induction fields with
  | nil => rfl
  | cons f rest ih =>
    have others := ih fun f' hf' => each f' (.tail _ hf')
    rw [extrasIn]
    split
    · exact others
    · cases meant : ofPair f.1 f.2 with
      | error fault => simpa only [holdsExtras, Bool.true_and] using others
      | ok entry =>
        have head := each f (.head _) _ entry meant
        simp only [holdsExtras, head, others, Bool.and_true]

/-- A value in which column functions list their columns asks for entries that list theirs, as a
field of any name and below a field. -/
theorem listsColumns_of_value {v : Value} (lists : v.everywhere Value.listsColumns = true) :
    (∀ given e, ofPair given v = .ok e → e.holds listsColumns = true) ∧
      ∀ es, ofNested v = .ok es → holdsAll listsColumns es = true := by
  induction v using Value.inductParts with
  | obj fields ih =>
    have parts := (Value.everywhere_obj.1 lists).2
    have pairs : ∀ f ∈ fields, ∀ given e, ofPair given f.2 = .ok e →
        e.holds listsColumns = true := fun f hf => (ih f hf (parts f hf)).1
    have below : ∀ f ∈ fields, ∀ es, ofNested f.2 = .ok es → holdsAll listsColumns es = true :=
      fun f hf => (ih f hf (parts f hf)).2
    refine ⟨fun given e h => ?_, fun es h => listsColumns_ofFields pairs h⟩
    rw [ofPair] at h
    split at h
    · cases h
    · obtain ⟨aliasName, _, h⟩ := bind_eq_ok.1 h
      obtain ⟨returning, hreturning, h⟩ := bind_eq_ok.1 h
      cases h
      rw [holds, listsColumns_returningIn below hreturning, listsColumns_extrasIn pairs]
      rfl
  | arr items ih =>
    have each : ∀ fields, Value.obj fields ∈ items → ∀ es, ofFields fields = .ok es →
        holdsAll listsColumns es = true :=
      fun fields hf => (ih _ hf ((Value.everywhere_arr.1 lists).2 _ hf)).2
    refine ⟨fun given e h => ?_, fun es h => listsColumns_ofItems each h⟩
    rw [ofPair] at h
    split at h
    · cases h
    · obtain ⟨children, hchildren, h⟩ := bind_eq_ok.1 h
      cases h
      rw [holds, listsColumns_ofItems each hchildren]
      rfl
  | columns names distinct =>
    refine ⟨fun given e h => ?_, fun es h => ?_⟩
    · rw [ofPair] at h
      split at h
      · cases h
      · cases h
        cases names with
        | arr items => rfl
        | _ => cases lists
    · cases h
  | str s =>
    refine ⟨fun given e h => ?_, fun es h => ?_⟩
    · rw [ofPair] at h
      split at h
      · cases h
      · cases h
        rw [holds, listsColumns_ofWords]
        rfl
    · cases h
      exact listsColumns_ofWords s
  | null | bool =>
    refine ⟨fun given e h => ?_, fun es h => ?_⟩
    · rw [ofPair] at h
      split at h
      · cases h
      · cases h
        rfl
    · cases h
  | int | float =>
    refine ⟨fun given e h => ?_, fun es h => ?_⟩
    · rw [ofPair] at h
      split at h <;> cases h
    · cases h

end Entry

end GraphRequest
