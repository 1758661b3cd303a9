import Mathlib.Data.List.Dedup
import GraphRequest.Schema.Cache

/-!
# The most recently used keys

The keys of a cache are the last ones among all that were used, each of them in the place of its
last use. A key that was used is therefore still there just if fewer other keys than the capacity
were used after it.

* `lastOf`: the last members of a list, as many as the capacity of the cache.
* `lastOf_promote`, `lastOf_admit`: one more use.
* `mem_lastOf_dedup`: which keys are still there.
-/

namespace GraphRequest.SchemaCache

/-- The last members of a list, as many as the capacity allows. -/
def lastOf {α : Type} (l : List α) : List α := l.drop (l.length - capacity)

section

variable {α β : Type}

theorem map_lastOf (f : α → β) (l : List α) : (lastOf l).map f = lastOf (l.map f) := by
  rw [lastOf, lastOf, List.map_drop, List.length_map]

theorem length_lastOf (l : List α) : (lastOf l).length ≤ capacity := by
  rw [lastOf, List.length_drop]
  omega

theorem lastOf_of_length_le {l : List α} (fits : l.length ≤ capacity) : lastOf l = l := by
  rw [lastOf, Nat.sub_eq_zero_of_le fits, List.drop_zero]

/-- What stands before enough members does not matter. -/
theorem lastOf_append {l : List α} (enough : capacity ≤ l.length) (before : List α) :
    lastOf (before ++ l) = lastOf l := by
  have first : (before ++ l).length - capacity = before.length + (l.length - capacity) := by
    rw [List.length_append]
    omega
  rw [lastOf, first, List.drop_length_add_append]
  rfl

/-- Members that are not among the last ones stand before them, and only if these are as many as the
capacity allows. -/
theorem split_lastOf (l : List α) :
    ∃ before, l = before ++ lastOf l ∧ (before = [] ∨ (lastOf l).length = capacity) := by
  refine ⟨l.take (l.length - capacity), (List.take_append_drop _ _).symm, ?_⟩
  by_cases fits : l.length ≤ capacity
  · left
    rw [Nat.sub_eq_zero_of_le fits, List.take_zero]
  · right
    rw [lastOf, List.length_drop]
    omega

/-- A member with fewer members behind it than the capacity allows is among the last ones. -/
theorem mem_lastOf_of_length_lt {before after : List α} {a : α} (few : after.length < capacity) :
    a ∈ lastOf (before ++ a :: after) := by
  have first : (before ++ a :: after).length - capacity ≤ before.length := by
    rw [List.length_append, List.length_cons]
    omega
  rw [lastOf, List.drop_append_of_le_length first]
  simp

/-- A member that stands nowhere else is among the last ones just if fewer members than the capacity
allows stand behind it. -/
theorem mem_lastOf_iff {before after : List α} {a : α} (unique : a ∉ after) :
    a ∈ lastOf (before ++ a :: after) ↔ after.length < capacity := by
  refine ⟨fun mem => ?_, mem_lastOf_of_length_lt⟩
  by_contra many
  have enough : capacity ≤ after.length := Nat.le_of_not_lt many
  have tail : before ++ a :: after = (before ++ [a]) ++ after := by simp
  rw [tail, lastOf_append enough] at mem
  exact unique (List.mem_of_mem_drop mem)

end

/-! ### Uses of keys -/

section

variable {κ : Type} [DecidableEq κ] {l keys later : List κ} {k : κ}

/-- One more use of a key puts it in the last place. -/
theorem dedup_concat (keys : List κ) (k : κ) :
    (keys ++ [k]).dedup = keys.dedup.filter (· != k) ++ [k] := by
  induction keys with
  | nil => rfl
  | cons a keys ih =>
    rw [List.cons_append]
    by_cases used : a ∈ keys
    · rw [List.dedup_cons_of_mem used, List.dedup_cons_of_mem (List.mem_append_left _ used), ih]
    · rw [List.dedup_cons_of_notMem used]
      by_cases same : a = k
      · have again : a ∈ keys ++ [k] := by simp [same]
        rw [List.dedup_cons_of_mem again, ih, List.filter_cons_of_neg (by simp [same])]
      · have once : a ∉ keys ++ [k] := by simp [used, same]
        rw [List.dedup_cons_of_notMem once, ih, List.filter_cons_of_pos (by simp [same]),
          List.cons_append]

/-- Behind the last use of a key stand the keys that were used later. -/
theorem dedup_split (keys : List κ) (unused : k ∉ later) :
    ∃ before, (keys ++ k :: later).dedup = before ++ k :: later.dedup := by
  induction keys with
  | nil => exact ⟨[], List.dedup_cons_of_notMem unused⟩
  | cons a keys ih =>
    obtain ⟨before, split⟩ := ih
    rw [List.cons_append]
    by_cases used : a ∈ keys ++ k :: later
    · exact ⟨before, by rw [List.dedup_cons_of_mem used, split]⟩
    · exact ⟨a :: before, by rw [List.dedup_cons_of_notMem used, split, List.cons_append]⟩

/-- A key is still there just if fewer other keys than the capacity were used after it. -/
theorem mem_lastOf_dedup (keys : List κ) (unused : k ∉ later) :
    k ∈ lastOf (keys ++ k :: later).dedup ↔ later.dedup.length < capacity := by
  obtain ⟨before, split⟩ := dedup_split keys unused
  rw [split]
  exact mem_lastOf_iff fun used => unused (List.mem_dedup.1 used)

/-- Two names that tell the same members apart give as many of them. -/
theorem length_dedup_map {α β γ : Type} [DecidableEq β] [DecidableEq γ] {f : α → β} {g : α → γ}
    {as : List α} (same : ∀ a ∈ as, ∀ b ∈ as, f a = f b ↔ g a = g b) :
    (as.map f).dedup.length = (as.map g).dedup.length := by
  induction as with
  | nil => rfl
  | cons a as ih =>
    have rest := ih fun b hb d hd => same b (.tail _ hb) d (.tail _ hd)
    have again : f a ∈ as.map f ↔ g a ∈ as.map g := by
      rw [List.mem_map, List.mem_map]
      exact exists_congr fun b => and_congr_right fun hb => same b (.tail _ hb) a (.head _)
    rw [List.map_cons, List.map_cons]
    by_cases used : f a ∈ as.map f
    · rw [List.dedup_cons_of_mem used, List.dedup_cons_of_mem (again.1 used), rest]
    · rw [List.dedup_cons_of_notMem used, List.dedup_cons_of_notMem (used ∘ again.2),
        List.length_cons, List.length_cons, rest]

/-- A key that is there goes to the last place. -/
theorem lastOf_promote (distinct : l.Nodup) (there : k ∈ lastOf l) :
    lastOf (l.filter (· != k) ++ [k]) = (lastOf l).filter (· != k) ++ [k] := by
  obtain ⟨before, split, full⟩ := split_lastOf l
  have fits := length_lastOf l
  generalize lastOf l = w at *
  subst split
  obtain ⟨_, distinct', apart⟩ := List.nodup_append.1 distinct
  have others : before.filter (· != k) = before := by
    apply List.filter_eq_self.2
    intro a ha
    simpa using apart a ha k there
  have length : (w.filter (· != k) ++ [k]).length = w.length := by
    have some' : 0 < w.length := List.length_pos_of_mem there
    rw [← distinct'.erase_eq_filter k, List.length_append, List.length_erase_of_mem there,
      List.length_singleton]
    omega
  rw [← length] at fits full
  rw [List.filter_append, others, List.append_assoc]
  rcases full with rfl | full
  · exact lastOf_of_length_le fits
  · rw [lastOf_append (Nat.le_of_eq full.symm), lastOf_of_length_le fits]

/-- A key that is not there is admitted in the last place. -/
theorem lastOf_admit (absent : k ∉ lastOf l) :
    lastOf (l.filter (· != k) ++ [k]) = lastOf (lastOf l ++ [k]) := by
  obtain ⟨before, split, full⟩ := split_lastOf l
  generalize lastOf l = w at *
  subst split
  have others : w.filter (· != k) = w := by
    apply List.filter_eq_self.2
    rintro a ha
    have : a ≠ k := fun same => absent (same ▸ ha)
    simpa using this
  rw [List.filter_append, others, List.append_assoc]
  rcases full with rfl | full
  · rfl
  · apply lastOf_append
    rw [List.length_append, full]
    exact Nat.le_add_right _ _

end

end GraphRequest.SchemaCache
