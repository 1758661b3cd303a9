/-!
# Lists with keys

A list of pairs in which a key has one place: putting a pair replaces the value of its key where the
key stands, and appends the pair when the key is new. `merge` puts the pairs of a list one by one.

* `keys_put`: putting keeps the keys and their order, a new key coming last.
* `lookup_put_self`: the value put last is the one that is found.
* `keys_merge_nodup`: after merging every key occurs once.
* `keys_merge`: merging keeps the places where keys stand first.
* `mem_merge_of_last`, `last_of_mem_merge`: of the pairs with a key, merging keeps the last one.
* `merge_of_nodup`: merging pairs with different keys changes nothing.
* `lookup_eq_some`: where every key occurs once, looking up finds exactly the pairs.
-/

namespace GraphRequest.Keyed

variable {κ α : Type} [DecidableEq κ]

/-- The pairs with a value put under a key. -/
def put (k : κ) (a : α) : List (κ × α) → List (κ × α)
  | [] => [(k, a)]
  | (l, b) :: rest => if l = k then (l, a) :: rest else (l, b) :: put k a rest

/-- The pairs of a list put one by one. -/
def merge (pairs : List (κ × α)) : List (κ × α) :=
  pairs.foldl (fun acc p => put p.1 p.2 acc) []

/-- The keys of a list of pairs. -/
def keys (pairs : List (κ × α)) : List κ := pairs.map Prod.fst

omit [DecidableEq κ] in
theorem keys_cons (k : κ) (a : α) (pairs : List (κ × α)) :
    keys ((k, a) :: pairs) = k :: keys pairs := rfl

theorem keys_put (k : κ) (a : α) (pairs : List (κ × α)) :
    keys (put k a pairs) = if k ∈ keys pairs then keys pairs else keys pairs ++ [k] := by
  induction pairs with
  | nil => simp [put, keys]
  | cons p rest ih =>
    obtain ⟨l, b⟩ := p
    by_cases h : l = k
    · subst h
      simp [put, keys]
    · simp only [keys] at ih
      have hk : ¬ k = l := fun e => h e.symm
      simp only [put, h, if_false, keys, List.map_cons, ih, List.mem_cons, hk, false_or]
      split <;> rename_i hm <;> simp [hm]

theorem lookup_put_self (k : κ) (a : α) (pairs : List (κ × α)) :
    (put k a pairs).lookup k = some a := by
  induction pairs with
  | nil => simp [put]
  | cons p rest ih =>
    obtain ⟨l, b⟩ := p
    by_cases h : l = k
    · subst h
      simp [put]
    · have hk : (k == l) = false := by simpa using fun e => h e.symm
      simp [put, h, List.lookup_cons, hk, ih]

theorem keys_put_nodup {k : κ} {a : α} {pairs : List (κ × α)} (h : (keys pairs).Nodup) :
    (keys (put k a pairs)).Nodup := by
  rw [keys_put]
  split
  · exact h
  · rename_i hk
    rw [List.nodup_append]
    refine ⟨h, by simp, ?_⟩
    intro x hx y hy e
    rw [List.mem_singleton.1 hy] at e
    exact hk (e ▸ hx)

theorem put_map {β : Type} (g : α → β) (k : κ) (a : α) (pairs : List (κ × α)) :
    put k (g a) (pairs.map fun p => (p.1, g p.2)) = (put k a pairs).map fun p => (p.1, g p.2) := by
  induction pairs with
  | nil => rfl
  | cons p rest ih =>
    by_cases h : p.1 = k <;> simp [put, h, ih]

theorem merge_map {β : Type} (g : α → β) (pairs : List (κ × α)) :
    merge (pairs.map fun p => (p.1, g p.2)) = (merge pairs).map fun p => (p.1, g p.2) := by
  have h : ∀ (ps acc : List (κ × α)),
      (ps.map fun p => (p.1, g p.2)).foldl (fun acc p => put p.1 p.2 acc)
          (acc.map fun p => (p.1, g p.2))
        = (ps.foldl (fun acc p => put p.1 p.2 acc) acc).map fun p => (p.1, g p.2) := by
    intro ps
    induction ps with
    | nil => exact fun acc => rfl
    | cons p ps ih =>
      intro acc
      simp only [List.map_cons, List.foldl_cons, put_map]
      exact ih _
  exact h pairs []

theorem mem_of_mem_put {k : κ} {a : α} {pairs : List (κ × α)} {p : κ × α}
    (h : p ∈ put k a pairs) : p = (k, a) ∨ p ∈ pairs := by
  induction pairs with
  | nil => exact .inl (List.mem_singleton.1 h)
  | cons q rest ih =>
    simp only [put] at h
    split at h
    · rename_i hq
      rcases List.mem_cons.1 h with rfl | h
      · exact .inl (by rw [hq])
      · exact .inr (.tail _ h)
    · rcases List.mem_cons.1 h with rfl | h
      · exact .inr (.head _)
      · exact (ih h).imp_right (.tail _)

theorem mem_of_mem_merge {pairs : List (κ × α)} {p : κ × α} (h : p ∈ merge pairs) :
    p ∈ pairs := by
  have main : ∀ (ps acc : List (κ × α)),
      p ∈ ps.foldl (fun acc p => put p.1 p.2 acc) acc → p ∈ ps ∨ p ∈ acc := by
    intro ps
    induction ps with
    | nil => exact fun acc h => .inr h
    | cons q ps ih =>
      intro acc h
      rcases ih _ h with h | h
      · exact .inl (.tail _ h)
      · rcases mem_of_mem_put h with rfl | h
        · exact .inl (.head _)
        · exact .inr h
  exact (main pairs [] h).resolve_right (by simp)

theorem mem_put_self (k : κ) (a : α) (pairs : List (κ × α)) : (k, a) ∈ put k a pairs := by
  induction pairs with
  | nil => exact .head _
  | cons p rest ih =>
    simp only [put]
    split
    · rename_i same
      rw [same]
      exact .head _
    · exact .tail _ ih

theorem mem_put_of_ne {k : κ} {a : α} {pairs : List (κ × α)} {p : κ × α} (h : p ∈ pairs)
    (other : p.1 ≠ k) : p ∈ put k a pairs := by
  induction pairs with
  | nil => cases h
  | cons q rest ih =>
    simp only [put]
    split
    · rename_i same
      rcases List.mem_cons.1 h with rfl | h
      · exact absurd same other
      · exact .tail _ h
    · rcases List.mem_cons.1 h with rfl | h
      · exact .head _
      · exact .tail _ (ih h)

/-- A pair stays if none with its key follows. -/
theorem mem_merge_of_last {before after : List (κ × α)} {p : κ × α}
    (last : ∀ q ∈ after, q.1 ≠ p.1) : p ∈ merge (before ++ p :: after) := by
  have stays : ∀ (ps acc : List (κ × α)), (∀ q ∈ ps, q.1 ≠ p.1) → p ∈ acc →
      p ∈ ps.foldl (fun acc q => put q.1 q.2 acc) acc := by
    intro ps
    induction ps with
    | nil => exact fun acc _ h => h
    | cons q ps ih =>
      intro acc others h
      exact ih _ (fun q' hq' => others q' (.tail _ hq'))
        (mem_put_of_ne h (others q (.head _)).symm)
  rw [merge, List.foldl_append, List.foldl_cons]
  exact stays after _ last (mem_put_self p.1 p.2 _)

theorem put_of_not_mem {k : κ} {a : α} {pairs : List (κ × α)} (h : k ∉ keys pairs) :
    put k a pairs = pairs ++ [(k, a)] := by
  induction pairs with
  | nil => rfl
  | cons p rest ih =>
    simp only [keys, List.map_cons, List.mem_cons, not_or] at h
    simp only [put, if_neg (Ne.symm h.1), List.cons_append]
    rw [ih h.2]

theorem merge_of_nodup {pairs : List (κ × α)} (h : (keys pairs).Nodup) : merge pairs = pairs := by
  have main : ∀ (ps acc : List (κ × α)), (keys (acc ++ ps)).Nodup →
      ps.foldl (fun acc p => put p.1 p.2 acc) acc = acc ++ ps := by
    intro ps
    induction ps with
    | nil => exact fun acc _ => (List.append_nil acc).symm
    | cons p ps ih =>
      intro acc h
      have hp : p.1 ∉ keys acc := by
        intro hm
        rw [keys, List.map_append, List.nodup_append] at h
        exact h.2.2 p.1 hm p.1 (by simp) rfl
      rw [List.foldl_cons, put_of_not_mem hp, ih _ (by simpa using h), List.append_assoc]
      rfl
  exact main pairs [] h

theorem keys_merge_nodup (pairs : List (κ × α)) : (keys (merge pairs)).Nodup := by
  have h : ∀ (ps acc : List (κ × α)), (keys acc).Nodup →
      (keys (ps.foldl (fun acc p => put p.1 p.2 acc) acc)).Nodup := by
    intro ps
    induction ps with
    | nil => exact fun acc ha => ha
    | cons p ps ih => exact fun acc ha => ih _ (keys_put_nodup ha)
  exact h pairs [] (by simp [keys])

/-- A key that occurs once is looked up to its value. -/
theorem lookup_eq_some {pairs : List (κ × α)} (distinct : (keys pairs).Nodup) {k : κ} {a : α} :
    pairs.lookup k = some a ↔ (k, a) ∈ pairs := by
  induction pairs with
  | nil => simp
  | cons p rest ih =>
    obtain ⟨l, b⟩ := p
    rw [keys, List.map_cons, List.nodup_cons] at distinct
    by_cases same : k = l
    · subst same
      have unique : (k, a) ∉ rest := by
        intro h
        exact distinct.1 (List.mem_map.2 ⟨(k, a), h, rfl⟩)
      simp [unique, eq_comm]
    · have other : (k == l) = false := by simpa using same
      simp [List.lookup_cons, other, ih distinct.2, same]

/-- Merging keeps every key where it stands first. -/
theorem keys_merge (pairs : List (κ × α)) : keys (merge pairs) = (keys pairs).eraseDups := by
  have main : ∀ (ps acc : List (κ × α)), keys (ps.foldl (fun acc p => put p.1 p.2 acc) acc) =
      keys acc ++ ((keys ps).filter fun k => k ∉ keys acc).eraseDups := by
    intro ps
    induction ps with
    | nil => exact fun acc => (List.append_nil _).symm
    | cons p ps ih =>
      intro acc
      have first : keys (p :: ps) = p.1 :: keys ps := rfl
      rw [List.foldl_cons, ih, keys_put, first]
      by_cases known : p.1 ∈ keys acc
      · rw [if_pos known, List.filter_cons_of_neg (by simpa using known)]
      · have later : ((keys ps).filter fun k => k ∉ keys acc ++ [p.1]) =
            ((keys ps).filter fun k => k ∉ keys acc).filter fun k => !k == p.1 := by
          rw [List.filter_filter]
          refine List.filter_congr fun k _ => ?_
          rw [Bool.eq_iff_iff]
          simp [and_comm]
        rw [if_neg known, List.filter_cons_of_pos (by simpa using known), List.eraseDups_cons,
          ← later, List.append_assoc]
        rfl
  rw [merge, main, List.filter_eq_self.2 (by simp [keys])]
  rfl

theorem exists_last {pairs : List (κ × α)} {k : κ} (h : k ∈ keys pairs) :
    ∃ before a after, pairs = before ++ (k, a) :: after ∧ ∀ q ∈ after, q.1 ≠ k := by
  induction pairs with
  | nil => cases h
  | cons p rest ih =>
    by_cases later : k ∈ keys rest
    · obtain ⟨before, a, after, rfl, last⟩ := ih later
      exact ⟨p :: before, a, after, rfl, last⟩
    · rcases List.mem_cons.1 h with rfl | h
      · exact ⟨[], p.2, rest, rfl, fun q hq same => later (List.mem_map.2 ⟨q, hq, same⟩)⟩
      · exact absurd h later

/-- Of the pairs with a key, only the last one is left by merging. -/
theorem last_of_mem_merge {pairs : List (κ × α)} {p : κ × α} (h : p ∈ merge pairs) :
    ∃ before after, pairs = before ++ p :: after ∧ ∀ q ∈ after, q.1 ≠ p.1 := by
  obtain ⟨before, a, after, rfl, last⟩ :=
    exists_last (List.mem_map.2 ⟨p, mem_of_mem_merge h, rfl⟩)
  have distinct := keys_merge_nodup (before ++ (p.1, a) :: after)
  have kept : (p.1, a) ∈ merge (before ++ (p.1, a) :: after) := mem_merge_of_last last
  have same : p = (p.1, a) := by
    have one := (lookup_eq_some distinct).2 h
    rw [(lookup_eq_some distinct).2 kept] at one
    exact Prod.ext rfl (Option.some.inj one).symm
  exact ⟨before, after, by rw [← same], last⟩

end GraphRequest.Keyed
