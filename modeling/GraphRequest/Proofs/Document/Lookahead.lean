import GraphRequest.Proofs.Document.Lexing
import Mathlib.Data.List.TakeWhile

/-!
# Looking one character ahead

Reading a number or a name looks one character ahead at most, to see that it ends. So it can be read
from its own characters, whatever stands behind them, as long as that ends it like what stood there
before: the end of the text, a line break, or the same character.

* `Near`: what may follow instead.
* `Local`: a reader that can tell what it reads from its own characters.
* `local_span`, `local_readNumber`: names and numbers.
-/

namespace GraphRequest.Document.Token

variable {cs rest rest' : List Char}

/-! ### What may follow -/

/-- What follows a token can be replaced by nothing, by a line break, and by what begins alike. -/
def Near (rest rest' : List Char) : Prop := ∀ c ∈ rest'.head?, c = '\n' ∨ rest.head? = some c

theorem near_append (as bs : List Char) : Near (as ++ bs) as := by
  intro c hc
  cases as with
  | nil => cases hc
  | cons a as => exact .inr hc

theorem near_append_break (rest ds : List Char) : Near rest (rest ++ '\n' :: ds) := by
  intro c hc
  cases rest with
  | nil =>
    cases hc
    exact .inl rfl
  | cons a rest => exact .inr hc

theorem Near.append (h : Near rest rest') (as : List Char) : Near (as ++ rest) (as ++ rest') := by
  cases as with
  | nil => exact h
  | cons a as => exact fun c hc => .inr hc

/-- A test that fails at a line break and at what follows fails at what may follow instead. -/
theorem Near.fails (h : Near rest rest') {p : Char → Bool} (feed : p '\n' = false)
    (fails : ∀ c ∈ rest.head?, p c = false) : ∀ c ∈ rest'.head?, p c = false := by
  intro c hc
  rcases h c hc with rfl | same
  · exact feed
  · exact fails c same

/-- A beginning that goes at most one character beyond a text is there whatever follows the text. -/
theorem Near.begins (h : Near rest rest') {as bs : List Char} (feed : '\n' ∉ bs)
    (short : bs.length ≤ as.length + 1) (begins : bs <+: as ++ rest') : bs <+: as ++ rest := by
  rcases Nat.lt_or_ge as.length bs.length with long | inside
  · -- The text and one character of what follows it.
    obtain ⟨tail, same⟩ := List.prefix_of_prefix_length_le (List.prefix_append as rest') begins
      long.le
    have one : tail.length = 1 := by
      have := congrArg List.length same
      rw [List.length_append] at this
      omega
    obtain ⟨b, rfl⟩ := List.length_eq_one_iff.1 one
    subst same
    rw [List.prefix_append_right_inj] at begins ⊢
    obtain ⟨others, rfl⟩ := begins
    rcases h b rfl with rfl | same
    · exact absurd (List.mem_append_right as List.mem_cons_self) feed
    · obtain ⟨rest, rfl⟩ := List.head?_eq_some_iff.1 same
      exact ⟨rest, rfl⟩
  · exact (List.prefix_of_prefix_length_le begins (List.prefix_append as rest') inside).trans
      (List.prefix_append as rest)

/-! ### Readers that look one character ahead -/

/-- The characters of numbers and names. -/
def isPlain (c : Char) : Bool := isNameChar c || c == '.' || c == '+' || c == '-'

theorem isPlain_of_isNameChar {c : Char} (h : isNameChar c = true) : isPlain c = true := by
  simp [isPlain, h]

theorem isPlain_of_isDigit {c : Char} (h : c.isDigit = true) : isPlain c = true :=
  isPlain_of_isNameChar (by simp [isNameChar, Char.isAlphanum, h])

theorem isBlank_of_isPlain {c : Char} (h : isPlain c = true) : Text.isBlank c = false := by
  simp only [isPlain, Bool.or_eq_true, beq_iff_eq] at h
  rcases h with ((h | rfl) | rfl) | rfl
  · have bounds := toNat_of_isNameChar h
    simp only [Text.isBlank, Bool.or_eq_false_iff, Bool.and_eq_false_iff, decide_eq_false_iff_not,
      beq_eq_false_iff_ne]
    omega
  all_goals decide

/-- A reader can tell what it reads from its own characters, which are plain. -/
def Local {α : Type} (read : List Char → Option (α × List Char)) : Prop :=
  ∀ ⦃cs : List Char⦄ ⦃a : α⦄ ⦃rest : List Char⦄, read cs = some (a, rest) →
    ∃ as, cs = as ++ rest ∧ (∀ c ∈ as, isPlain c = true) ∧
      ∀ rest', Near rest rest' → read (as ++ rest') = some (a, rest')

section

variable {α β : Type} {read behind other : List Char → Option (α × List Char)}

theorem local_none : Local fun _ => (none : Option (α × List Char)) := nofun

theorem local_some (a : α) : Local fun cs => some (a, cs) := by
  intro cs b rest reads
  cases reads
  exact ⟨[], rfl, nofun, fun _ _ => rfl⟩

theorem Local.bind (h : Local read) {next : α → List Char → Option (β × List Char)}
    (h' : ∀ a, Local (next a)) : Local fun cs => (read cs).bind fun p => next p.1 p.2 := by
  intro cs b rest reads
  obtain ⟨⟨a, middle⟩, first, second⟩ := Option.bind_eq_some_iff.1 reads
  obtain ⟨as, rfl, plain, again⟩ := h first
  obtain ⟨bs, rfl, plain', again'⟩ := h' a second
  refine ⟨as ++ bs, (List.append_assoc ..).symm, ?_, fun rest' near => ?_⟩
  · intro c hc
    exact (List.mem_append.1 hc).elim (plain c) (plain' c)
  · dsimp only
    rw [List.append_assoc, again _ (near.append bs)]
    exact again' rest' near

theorem Local.map (h : Local read) (g : α → β) :
    Local fun cs => (read cs).map fun p => (g p.1, p.2) := by
  have bound : Local fun cs => (read cs).bind fun p => some (g p.1, p.2) :=
    h.bind fun a => local_some (g a)
  simp only [Option.map_eq_bind]
  exact bound

/-- A reader that gives up in front of some characters, but not in front of a line break. -/
theorem Local.unless (h : Local read) (stop : Char → Bool) (feed : stop '\n' = false) :
    Local fun cs => if (cs.head?.map stop).getD false then none else read cs := by
  have goes {cs : List Char} : (cs.head?.map stop).getD false = false ↔
      ∀ c ∈ cs.head?, stop c = false := by
    cases cs <;> simp
  intro cs a rest reads
  dsimp only at reads
  split at reads
  · cases reads
  · rename_i ahead
    obtain ⟨as, rfl, plain, again⟩ := h reads
    refine ⟨as, rfl, plain, fun rest' near => ?_⟩
    have ahead := (near.append as).fails feed (goes.1 (Bool.eq_false_iff.2 ahead))
    dsimp only
    rw [goes.2 ahead, if_neg Bool.false_ne_true]
    exact again rest' near

/-- A reader that goes on in one way behind some character and in another way otherwise. -/
theorem Local.of_head {c : Char} (plain : isPlain c = true)
    (there : ∀ cs, read (c :: cs) = behind cs)
    (elsewhere : ∀ cs, cs.head? ≠ some c → read cs = other cs) (h : Local behind)
    (h' : Local other) : Local read := by
  intro cs a rest reads
  by_cases head : cs.head? = some c
  · obtain ⟨cs, rfl⟩ := List.head?_eq_some_iff.1 head
    rw [there] at reads
    obtain ⟨as, rfl, plain', again⟩ := h reads
    refine ⟨c :: as, rfl, List.forall_mem_cons.2 ⟨plain, plain'⟩, fun rest' near => ?_⟩
    rw [List.cons_append, there]
    exact again rest' near
  · rw [elsewhere cs head] at reads
    obtain ⟨as, rfl, plain', again⟩ := h' reads
    refine ⟨as, rfl, plain', fun rest' near => ?_⟩
    rw [elsewhere]
    · exact again rest' near
    · intro same
      rcases near.append as c same with rfl | same
      · exact absurd plain (by decide)
      · exact head same

end

/-! ### Numbers and names -/

/-- A run of plain characters. -/
theorem local_span {p : Char → Bool} (plain : ∀ c, p c = true → isPlain c = true) :
    Local fun cs => some (cs.takeWhile p, cs.dropWhile p) := by
  intro cs as rest reads
  cases reads
  have feed : p '\n' = false := Bool.eq_false_iff.2 fun holds => absurd (plain _ holds) (by decide)
  have run : ∀ c ∈ cs.takeWhile p, p c = true := fun c hc => List.mem_takeWhile_imp hc
  have stops : ∀ c ∈ (cs.dropWhile p).head?, p c = false := by
    intro c hc
    have stop := List.head?_dropWhile_not p cs
    rw [Option.mem_def.1 hc] at stop
    exact stop
  refine ⟨_, (List.takeWhile_append_dropWhile).symm, fun c hc => plain c (run c hc), ?_⟩
  intro rest' near
  have stop : rest'.takeWhile p = [] ∧ rest'.dropWhile p = rest' := by
    cases rest' with
    | nil => exact ⟨rfl, rfl⟩
    | cons c rest' =>
      have fails : p c = false := near.fails feed stops c rfl
      simp [fails]
  dsimp only
  rw [List.takeWhile_append_of_pos run, List.dropWhile_append_of_pos run, stop.1, stop.2,
    List.append_nil]

theorem local_readDigits : Local readDigits := by
  have some_digits (ds : List Char) :
      Local fun cs => if ds.isEmpty then none else some (ds, cs) := by
    cases ds with
    | nil => exact local_none
    | cons d ds => exact local_some _
  have run := (local_span (p := Char.isDigit) fun c => isPlain_of_isDigit).bind some_digits
  intro cs ds rest reads
  have same (cs : List Char) : readDigits cs = (some (cs.takeWhile Char.isDigit,
      cs.dropWhile Char.isDigit)).bind fun p => if p.1.isEmpty then none else some (p.1, p.2) := by
    unfold readDigits
    cases cs.takeWhile Char.isDigit <;> rfl
  rw [same] at reads
  obtain ⟨as, split, plain, again⟩ := run reads
  refine ⟨as, split, plain, fun rest' near => ?_⟩
  rw [same]
  exact again rest' near

theorem local_readWhole : Local readWhole := by
  have zero : Local fun cs =>
      if (cs.head?.map Char.isDigit).getD false then none else some (['0'], cs) :=
    (local_some ['0']).unless Char.isDigit (by decide)
  refine Local.of_head (c := '0') (by decide) (fun _ => rfl) (fun cs head => ?_) zero
    local_readDigits
  unfold readWhole
  split
  · exact absurd rfl head
  · rfl

theorem local_readPlaces : Local readPlaces := by
  refine Local.of_head (c := '.') (by decide) (fun _ => rfl) (fun cs head => ?_)
    (local_readDigits.map ('.' :: ·)) (local_some [])
  unfold readPlaces
  split
  · exact absurd rfl head
  · rfl

theorem local_readSign : Local fun cs => some (readSign cs) := by
  have minus : Local fun cs =>
      if cs.head? = some '-' then some (readSign cs) else some ([], cs) := by
    refine Local.of_head (c := '-') (by decide) (fun _ => rfl) (fun cs head => ?_)
      (local_some ['-']) (local_some [])
    rw [if_neg head]
  refine Local.of_head (c := '+') (by decide) (fun _ => rfl) (fun cs head => ?_)
    (local_some ['+']) minus
  split
  · rfl
  · rename_i head'
    unfold readSign
    split
    · exact absurd rfl head
    · exact absurd rfl head'
    · rfl

theorem local_readPower : Local readPower := by
  have power (c : Char) : Local fun cs => (readDigits (readSign cs).2).map
      fun p => (c :: (readSign cs).1 ++ p.1, p.2) :=
    local_readSign.bind fun sign => local_readDigits.map (c :: sign ++ ·)
  have upper : Local fun cs => if cs.head? = some 'E' then readPower cs else some ([], cs) := by
    refine Local.of_head (c := 'E') (by decide) (fun _ => rfl) (fun cs head => ?_) (power 'E')
      (local_some [])
    rw [if_neg head]
  refine Local.of_head (c := 'e') (by decide) (fun _ => rfl) (fun cs head => ?_) (power 'e') upper
  split
  · rfl
  · rename_i head'
    cases cs with
    | nil => rfl
    | cons c cs =>
      have neither : ¬ (c == 'e' || c == 'E') = true := by
        rw [Bool.or_eq_true, beq_iff_eq, beq_iff_eq, not_or]
        exact ⟨fun same => head (congrArg some same), fun same => head' (congrArg some same)⟩
      rw [readPower, if_neg neither]

theorem local_readUnsigned : Local readUnsigned := by
  have last (whole places power : List Char) :=
    (local_some (if places.isEmpty && power.isEmpty
      then Token.int (String.ofList (whole ++ places ++ power))
      else .float (String.ofList (whole ++ places ++ power)))).unless
      (fun c => c == '.' || isNameStart c) (by decide)
  exact local_readWhole.bind fun whole => local_readPlaces.bind fun places =>
    local_readPower.bind fun power => last whole places power

theorem local_readNumber : Local readNumber := by
  refine Local.of_head (c := '-') (by decide) (fun _ => rfl) (fun cs head => ?_)
    (local_readUnsigned.map negate) local_readUnsigned
  unfold readNumber
  split
  · exact absurd rfl head
  · rfl

end GraphRequest.Document.Token
