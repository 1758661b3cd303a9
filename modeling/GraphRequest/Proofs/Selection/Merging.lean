import GraphRequest.Proofs.Selection.Forms
import GraphRequest.Proofs.Selection.Keys

/-!
# Merging groups of wanted fields

Below an aggregate the wanted fields come in groups, which are merged into one list: an entry takes
the place of an earlier one with its key, and stands behind all others if its key is new.

* `Entry.mergeGroups`: the groups merged one after the other.
* `Entry.LastWins.unique`: which entries are left, and where, is determined by the keys that come
  first and the entries that come last.
* `Entry.mergeGroups_lastWins`: how the groups are cut does not matter, and merging once is enough.
-/

namespace GraphRequest

namespace Entry

/-- The entries kept so far, each with its key, after one more group. -/
def putGroup (kept : List (String × Entry)) (group : List Entry) : List (String × Entry) :=
  group.foldl (fun acc e => Keyed.put e.key e acc) kept

/-- The entries that are left of some groups: an entry replaces an earlier one with its key. -/
def mergeGroups (groups : List (List Entry)) : List Entry :=
  (groups.foldl putGroup []).map Prod.snd

/-! ### Groups -/

theorem foldl_putGroup (groups : List (List Entry)) (kept : List (String × Entry)) :
    groups.foldl putGroup kept = putGroup kept groups.flatten := List.foldl_flatten.symm

/-- Groups are merged like all their entries in a row. -/
theorem mergeGroups_eq (groups : List (List Entry)) :
    mergeGroups groups = merged groups.flatten := by
  rw [mergeGroups, foldl_putGroup, merged, Keyed.merge, List.foldl_map]
  rfl

theorem lastWins_mergeGroups (groups : List (List Entry)) :
    LastWins groups.flatten (mergeGroups groups) := by
  rw [mergeGroups_eq]
  exact lastWins_merged groups.flatten

theorem nodup_key_merged (es : List Entry) : ((merged es).map key).Nodup := by
  have distinct := Keyed.keys_merge_nodup (es.map fun e => (e.key, e))
  rw [Keyed.keys_merge, Keyed.keys, List.map_map] at distinct
  rw [(lastWins_merged es).keys]
  exact distinct

/-! ### What is left -/

/-- Only one entry comes last among those with its key. -/
theorem eq_of_last {before before' after after' : List Entry} {c c' : Entry}
    (split : before ++ c :: after = before' ++ c' :: after') (last : ∀ d ∈ after, d.key ≠ c.key)
    (last' : ∀ d ∈ after', d.key ≠ c'.key) (same : c.key = c'.key) : c = c' := by
  -- Were they at different places, the later one would stand behind the other.
  rcases List.append_eq_append_iff.1 split with ⟨between, _, rest⟩ | ⟨between, _, rest⟩
  · cases between with
    | nil => exact (List.cons.inj rest).1
    | cons d between =>
      have later : c' ∈ after := (List.cons.inj rest).2 ▸ by simp
      exact absurd same.symm (last c' later)
  · cases between with
    | nil => exact (List.cons.inj rest).1.symm
    | cons d between =>
      have later : c ∈ after' := (List.cons.inj rest).2 ▸ by simp
      exact absurd same (last' c later)

/-- Two lists that are left of the same entries are the same. -/
theorem LastWins.unique {all kept kept' : List Entry} (h : LastWins all kept)
    (h' : LastWins all kept') : kept = kept' := by
  have keys : kept.map key = kept'.map key := h.keys.trans h'.keys.symm
  have length : kept.length = kept'.length := by simpa using congrArg List.length keys
  refine List.ext_getElem length fun k here there => ?_
  have same : kept[k].key = kept'[k].key := by
    have := List.getElem_of_eq keys (i := k) (by simpa using here)
    simpa using this
  obtain ⟨before, after, split, last⟩ := h.last _ (List.getElem_mem here)
  obtain ⟨before', after', split', last'⟩ := h'.last _ (List.getElem_mem there)
  exact eq_of_last (split.symm.trans split') last last' same

/-! ### Keys -/

/-- The key of an entry: the field that it is about, or its display text if there is no such field
or it has no name. -/
theorem key_eq (e : Entry) :
    e.key = match e.name? with
      | none => e.display
      | some name => if name = "" then e.display else name := by
  rw [key]
  cases e.name? with
  | none => rfl
  | some name => by_cases empty : name = "" <;> simp [Option.filter, empty]

/-- Merging groups of wanted fields leaves one entry for every key that they have, where the key
comes first, and it is the last entry with the key. How the entries are divided into groups does not
matter, and merging what is left changes nothing. These are the entries that are compiled below an
aggregate. -/
theorem mergeGroups_lastWins (groups : List (List Entry)) :
    ((mergeGroups groups).map key).Nodup ∧
    (mergeGroups groups).map key = (groups.flatten.map key).eraseDups ∧
    (∀ c ∈ mergeGroups groups, ∃ before after, groups.flatten = before ++ c :: after ∧
      ∀ d ∈ after, d.key ≠ c.key) ∧
    (∀ others : List (List Entry), others.flatten = groups.flatten →
      mergeGroups others = mergeGroups groups) ∧
    mergeGroups [mergeGroups groups] = mergeGroups groups ∧
    (∀ s : Schema, (Keyed.merge (groups.flatMap (compilations s))).map Prod.snd =
      (mergeGroups groups).map (compile s)) ∧
    ∀ e : Entry, e.key = match e.name? with
      | none => e.display
      | some name => if name = "" then e.display else name := by
  have wins := lastWins_mergeGroups groups
  have distinct : ((mergeGroups groups).map key).Nodup := by
    rw [mergeGroups_eq]
    exact nodup_key_merged groups.flatten
  refine ⟨distinct, wins.keys, wins.last, fun others same => ?_, ?_, fun s => ?_, key_eq⟩
  · have wins' := lastWins_mergeGroups others
    rw [same] at wins'
    exact wins'.unique wins
  · calc mergeGroups [mergeGroups groups]
        = merged (mergeGroups groups) := by rw [mergeGroups_eq]; simp
      _ = mergeGroups groups := merged_of_distinct distinct
  · have all : groups.flatMap (compilations s) = compilations s groups.flatten := by
      rw [compilations_eq_map, List.map_flatten, List.flatMap_def]
      exact congrArg List.flatten (List.map_congr_left fun es _ => compilations_eq_map s es)
    rw [all, merge_compilations, mergeGroups_eq]

/-- The second group overrides the aggregate in its place, whichever way its entries are divided,
and its raw text, which begins with no name, is told by its display text. -/
theorem mergeGroups_lastWins_aggregate :
    let first : List Entry := [.raw "aggregate \x7b count \x7d", .toggle "nodes" true]
    let second : List Entry := [.subselection "aggregate" [.raw "sum"], .raw "\x7b"]
    [first ++ second].flatten = [first, second].flatten ∧
      mergeGroups [first ++ second] = mergeGroups [first, second] ∧
      (mergeGroups [first, second]).map key = ["aggregate", "nodes", "RawField(text='\x7b')"] ∧
      mergeGroups [first, second] =
        [.subselection "aggregate" [.raw "sum"], .toggle "nodes" true, .raw "\x7b"] := by
  intro first second
  obtain ⟨_, keys, _, regrouped, _⟩ := mergeGroups_lastWins [first, second]
  have same : [first ++ second].flatten = [first, second].flatten := rfl
  exact ⟨same, regrouped _ same, keys.trans (by decide +kernel), rfl⟩

end Entry

end GraphRequest
