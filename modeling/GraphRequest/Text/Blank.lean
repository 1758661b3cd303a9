/-!
# Blank characters

The characters that separate words, and the two operations that look at nothing else of a text:
`strip` removes blanks at both ends, `words` splits at every run of blanks.

* `words_not_blank`: no word is empty and no word holds a blank.
* `stripChars_of_not_blank`: a text without blanks is left alone.
* `strip_ne_empty`: a text that is not blank is not left empty.
-/

namespace GraphRequest.Text

/-- The characters of Unicode that count as white space, with the four information separators. -/
def isBlank (c : Char) : Bool :=
  let n := c.toNat
  (0x9 ≤ n && n ≤ 0xd) || (0x1c ≤ n && n ≤ 0x20) || n == 0x85 || n == 0xa0 || n == 0x1680 ||
    (0x2000 ≤ n && n ≤ 0x200a) || n == 0x2028 || n == 0x2029 || n == 0x202f || n == 0x205f ||
    n == 0x3000

/-- The characters left when the blanks at both ends are removed. -/
def stripChars (cs : List Char) : List Char :=
  ((cs.dropWhile isBlank).reverse.dropWhile isBlank).reverse

/-- The text left when the blanks at both ends are removed. -/
def strip (s : String) : String := String.ofList (stripChars s.toList)

/-- A text is blank when it holds blanks only, or nothing. -/
def isBlankText (s : String) : Bool := s.toList.all isBlank

/-- The maximal runs of characters that are not blank. -/
def wordChars : List Char → List (List Char)
  | [] => []
  | c :: cs =>
    if isBlank c then wordChars cs
    else match cs.head?.filter (!isBlank ·), wordChars cs with
      | some _, w :: ws => (c :: w) :: ws
      | _, ws => [c] :: ws

/-- The words of a text, in order. -/
def words (s : String) : List String := (wordChars s.toList).map String.ofList

/-! ### Laws -/

theorem dropWhile_isBlank_of_not_blank {cs : List Char} (h : ∀ c ∈ cs, isBlank c = false) :
    cs.dropWhile isBlank = cs := by
  cases cs with
  | nil => rfl
  | cons c cs => simp [h c (by simp)]

theorem stripChars_of_not_blank {cs : List Char} (h : ∀ c ∈ cs, isBlank c = false) :
    stripChars cs = cs := by
  have hr : ∀ c ∈ cs.reverse, isBlank c = false := fun c hc => h c (by simpa using hc)
  rw [stripChars, dropWhile_isBlank_of_not_blank h, dropWhile_isBlank_of_not_blank hr,
    List.reverse_reverse]

/-- Removing blanks keeps every character that is not blank. -/
theorem mem_stripChars {cs : List Char} {c : Char} (h : c ∈ cs) (solid : isBlank c = false) :
    c ∈ stripChars cs := by
  have keeps : ∀ {ds : List Char}, c ∈ ds → c ∈ ds.dropWhile isBlank := by
    intro ds hd
    rw [← List.takeWhile_append_dropWhile (p := isBlank) (l := ds)] at hd
    refine (List.mem_append.1 hd).resolve_left fun taken => ?_
    have blank := List.all_eq_true.1 (List.all_takeWhile (p := isBlank) (l := ds)) c taken
    rw [solid] at blank
    cases blank
  exact List.mem_reverse.2 (keeps (List.mem_reverse.2 (keeps h)))

/-- A text that is not blank is left with a character. -/
theorem strip_ne_empty {s : String} (h : isBlankText s = false) : strip s ≠ "" := by
  obtain ⟨c, hc, solid⟩ := List.all_eq_false.1 h
  intro empty
  have chars : stripChars s.toList = [] := by
    rw [← String.toList_ofList (l := stripChars s.toList)]
    exact congrArg String.toList empty
  have kept := mem_stripChars hc (by simpa using solid)
  rw [chars] at kept
  cases kept

theorem words_not_blank (cs : List Char) :
    ∀ w ∈ wordChars cs, w ≠ [] ∧ ∀ c ∈ w, isBlank c = false := by
  induction cs with
  | nil => simp [wordChars]
  | cons c cs ih =>
    intro w hw
    unfold wordChars at hw
    split at hw
    · exact ih w hw
    · rename_i hc
      have hc : isBlank c = false := by simpa using hc
      split at hw
      · rename_i v vs _ hv
        rcases List.mem_cons.1 hw with rfl | hw
        · refine ⟨by simp, fun d hd => ?_⟩
          rcases List.mem_cons.1 hd with rfl | hd
          · exact hc
          · exact (ih v (by simp [hv])).2 d hd
        · exact ih w (by simp [hv, hw])
      · rcases List.mem_cons.1 hw with rfl | hw
        · refine ⟨by simp, fun d hd => ?_⟩
          rw [List.mem_singleton.1 hd]
          exact hc
        · exact ih w hw

end GraphRequest.Text
