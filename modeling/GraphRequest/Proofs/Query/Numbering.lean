import GraphRequest.Proofs.Query.Invariants
import GraphRequest.Proofs.Value.Numerals
import Mathlib.Data.List.Nodup

/-!
# The numbering of variables

Binding an argument uses up one number, and nothing else changes the counter. The variables of a
request are therefore numbered from its first number on without a gap, each of them is declared once
and in its place, and requests that take up the numbering one after the other share no variable.

* `variableName_inj`: different numbers have different names.
* `Bindings.Numbered`: the invariant, with `numbered_stable` and `numbered_of_plan`.
* `Chained`: requests that take up the numbering one after the other.
* `variables_numbered`: the numbering of one request and of a chain.
-/

namespace GraphRequest

namespace Bindings

/-! ### Names of variables -/

/-- Different numbers have different names. -/
theorem variableName_inj {m n : Int} (h : variableName m = variableName n) : m = n := by
  have texts := congrArg String.toList h
  rw [variableName, variableName, String.toList_append, String.toList_append] at texts
  exact Value.integerText_inj (String.toList_inj.1 (List.append_cancel_left texts))

/-- The names of the variables from one number up to another. -/
def namesBetween (first next : Int) : List String :=
  (List.range (next - first).toNat).map fun (k : Nat) => variableName (first + k)

theorem mem_namesBetween {first next : Int} {name : String} (h : name ∈ namesBetween first next) :
    ∃ n, first ≤ n ∧ n < next ∧ name = variableName n := by
  obtain ⟨k, hk, rfl⟩ := List.mem_map.1 h
  have hk := List.mem_range.1 hk
  exact ⟨first + k, by omega, by omega, rfl⟩

theorem namesBetween_self (n : Int) : namesBetween n n = [] := by
  simp [namesBetween]

theorem namesBetween_succ {first next : Int} (h : first ≤ next) :
    namesBetween first (next + 1) = namesBetween first next ++ [variableName next] := by
  have count : (next + 1 - first).toNat = (next - first).toNat + 1 := by omega
  have last : first + ((next - first).toNat : Int) = next := by omega
  rw [namesBetween, count, List.range_succ, List.map_append]
  show _ ++ [variableName (first + ((next - first).toNat : Int))] = _
  rw [last]
  rfl

/-- The names up to a number, and the names from there on. -/
theorem namesBetween_append {first next last : Int} (h : first ≤ next) (h' : next ≤ last) :
    namesBetween first next ++ namesBetween next last = namesBetween first last := by
  obtain ⟨k, rfl⟩ := Int.le.dest h'
  clear h'
  induction k with
  | zero => simp [namesBetween_self]
  | succ k ih =>
    rw [Int.natCast_succ, ← Int.add_assoc, namesBetween_succ (by omega),
      namesBetween_succ (by omega), ← List.append_assoc, ih]

theorem namesBetween_nodup (first next : Int) : (namesBetween first next).Nodup := by
  refine List.Nodup.map_on ?_ List.nodup_range
  intro k _ l _ same
  have := variableName_inj same
  omega

theorem variableName_not_mem (first next : Int) :
    variableName next ∉ namesBetween first next := by
  intro hmem
  obtain ⟨n, hn, below, same⟩ := mem_namesBetween hmem
  have := variableName_inj same
  omega

/-! ### The invariant -/

/-- The variables bound so far are numbered from a first number on up to the counter, and each of
them is declared in its place. -/
structure Numbered (first : Int) (b : Bindings) : Prop where
  le : first ≤ b.counter
  bound : Keyed.keys b.variableValues = namesBetween first b.counter
  declared : b.declarations.map Declaration.name = namesBetween first b.counter

theorem numbered_start (first : Int) : Numbered first (start first) :=
  ⟨Int.le_refl first, (namesBetween_self first).symm, (namesBetween_self first).symm⟩

/-- A variable that is not declared yet is declared behind the others. -/
theorem declare_of_not_mem {declarations : List Declaration} {d : Declaration}
    (h : d.name ∉ declarations.map Declaration.name) :
    declare declarations d = declarations ++ [d] := by
  refine if_pos (List.all_eq_true.2 fun other hother => ?_)
  rw [bne_iff_ne]
  intro same
  exact h (List.mem_map.2 ⟨other, hother, same⟩)

theorem bind_declarations {b b' : Bindings} {a : ArgumentDef} {v : Value} {name : String}
    (h : b.bind a v = .ok (name, b')) :
    ∃ type, DeclaredType.ofArgument a = .ok type ∧
      b'.declarations = declare b.declarations ⟨variableName b.counter, type⟩ := by
  simp only [bind] at h
  cases hw : DeclaredType.ofArgument a with
  | error e =>
    rw [hw] at h
    cases h
  | ok type =>
    rw [hw] at h
    cases h
    exact ⟨type, rfl, rfl⟩

/-- Binding an argument reports nothing. -/
theorem bind_diagnostics {b b' : Bindings} {a : ArgumentDef} {v : Value} {name : String}
    (h : b.bind a v = .ok (name, b')) : b'.diagnostics = b.diagnostics := by
  obtain ⟨type, _, h⟩ := bind_eq_ok.1 h
  cases h
  rfl

/-- Reporting leaves the numbering alone, and binding takes it one step further: the next variable
is new, so that it is declared. -/
theorem numbered_stable (first : Int) :
    Stable (fun _ => True) (Numbered first) where
  report := fun b d h => ⟨h.le, h.bound, h.declared⟩
  bind := by
    intro b a v name b' _ run h
    have counter := bind_counter run
    obtain ⟨rfl, values⟩ := bind_variableValues run
    obtain ⟨type, _, declarations⟩ := bind_declarations run
    have new : variableName b.counter ∉ b.declarations.map Declaration.name := by
      rw [h.declared]
      exact variableName_not_mem first b.counter
    refine ⟨?_, ?_, ?_⟩
    · have := h.le
      omega
    · rw [values, counter, namesBetween_succ h.le, Keyed.keys, List.map_append]
      exact congrArg (· ++ _) h.bound
    · rw [declarations, declare_of_not_mem new, counter, namesBetween_succ h.le, List.map_append]
      exact congrArg (· ++ _) h.declared

theorem Numbered.variableMap_eq {first : Int} {b : Bindings} (h : Numbered first b) :
    b.variableMap = b.variableValues := by
  apply Keyed.merge_of_nodup
  rw [h.bound]
  exact namesBetween_nodup first _

/-- The declarations as text, the names being paired with the texts of their types. -/
theorem declarationsText_eq (b : Bindings) :
    b.declarationsText = ", ".intercalate
      ((b.declarations.map Declaration.name).zipWith (fun name type => "$" ++ name ++ ": " ++ type)
        (b.declarations.map fun d => d.type.display b.marks)) := by
  rw [declarationsText, List.zipWith_map, List.zipWith_self]

end Bindings

open Bindings

namespace Schema

theorem numbered_of_plan {s : Schema} {r : Request} {p : Plan} (h : s.plan r = .ok p) :
    Numbered r.counter p.bindings :=
  invariant_of_plan (numbered_stable _) s.offers_true h (numbered_start _)

/-- The variables of a compiled query are numbered from the counter of its request on. -/
theorem keys_of_compileBy {read : String → Option Document} {s : Schema} {r : Request}
    {q : CompiledQuery} (h : s.compileBy read r = .ok q) :
    (r.counter : Int) ≤ q.nextCounter ∧
      Keyed.keys q.variableValues = namesBetween r.counter q.nextCounter := by
  obtain ⟨p, _, _, planned, _, _, rfl⟩ := plan_of_compileBy h
  have numbered := numbered_of_plan planned
  refine ⟨numbered.le, ?_⟩
  show Keyed.keys p.bindings.variableMap = _
  rw [numbered.variableMap_eq]
  exact numbered.bound

/-- The value that a plan passes for a variable is the one that was bound to it. -/
theorem lookup_variableMap_of_plan {s : Schema} {r : Request} {p : Plan}
    (planned : s.plan r = .ok p) {x : String × Value} (bound : x ∈ p.bindings.variableValues) :
    p.bindings.variableMap.lookup x.1 = some x.2 := by
  have numbered := numbered_of_plan planned
  have distinct : (Keyed.keys p.bindings.variableValues).Nodup := by
    rw [numbered.bound]
    exact Bindings.namesBetween_nodup _ _
  rw [numbered.variableMap_eq]
  exact (Keyed.lookup_eq_some distinct).2 bound

/-! ### Chains -/

/-- Requests, each with the schema it is compiled against, that take up the numbering one after the
other: once one of them succeeded, each is given the counter of the last success before it. -/
inductive Chained (read : String → Option Document) :
    Option Int → List (Schema × Request) → Prop
  | nil (last : Option Int) : Chained read last []
  | failed {last : Option Int} {s : Schema} {r : Request} {rest : List (Schema × Request)}
      {e : Failure} (given : ∀ n ∈ last, (r.counter : Int) = n)
      (fails : s.compileBy read r = .error e) (chained : Chained read last rest) :
      Chained read last ((s, r) :: rest)
  | succeeded {last : Option Int} {s : Schema} {r : Request} {rest : List (Schema × Request)}
      {q : CompiledQuery} (given : ∀ n ∈ last, (r.counter : Int) = n)
      (succeeds : s.compileBy read r = .ok q)
      (chained : Chained read (some q.nextCounter) rest) : Chained read last ((s, r) :: rest)

/-- The compiled queries of the requests that succeed. -/
def successes (read : String → Option Document) (runs : List (Schema × Request)) :
    List CompiledQuery :=
  runs.filterMap fun run => (run.1.compileBy read run.2).toOption

theorem successes_cons_error {read : String → Option Document} {s : Schema} {r : Request}
    {e : Failure} (h : s.compileBy read r = .error e) (rest : List (Schema × Request)) :
    successes read ((s, r) :: rest) = successes read rest := by
  simp [successes, h, Except.toOption]

theorem successes_cons_ok {read : String → Option Document} {s : Schema} {r : Request}
    {q : CompiledQuery} (h : s.compileBy read r = .ok q) (rest : List (Schema × Request)) :
    successes read ((s, r) :: rest) = q :: successes read rest := by
  simp [successes, h, Except.toOption]

/-- After a success, the variables of a chain have the numbers from its counter on. -/
theorem Chained.le_of_mem {read : String → Option Document} {last : Option Int}
    {runs : List (Schema × Request)} (h : Chained read last runs) {first : Int}
    (given : last = some first) {q : CompiledQuery} (hq : q ∈ successes read runs) {name : String}
    (hname : name ∈ Keyed.keys q.variableValues) : ∃ n, first ≤ n ∧ name = variableName n := by
  induction h generalizing first with
  | nil last => cases hq
  | failed _ fails _ ih =>
    rw [successes_cons_error fails] at hq
    exact ih given hq
  | succeeded counter succeeds _ ih =>
    obtain ⟨le, keys⟩ := keys_of_compileBy succeeds
    have start := counter first given
    rw [successes_cons_ok succeeds] at hq
    rcases List.mem_cons.1 hq with rfl | hq
    · rw [keys] at hname
      obtain ⟨n, hn, _, rfl⟩ := mem_namesBetween hname
      exact ⟨n, by omega, rfl⟩
    · obtain ⟨n, hn, rfl⟩ := ih rfl hq
      exact ⟨n, by omega, rfl⟩

/-- No variable occurs in two documents of a chain. -/
theorem Chained.pairwise_disjoint {read : String → Option Document} {last : Option Int}
    {runs : List (Schema × Request)} (h : Chained read last runs) :
    (successes read runs).Pairwise fun q q' =>
      (Keyed.keys q.variableValues).Disjoint (Keyed.keys q'.variableValues) := by
  induction h with
  | nil last => exact .nil
  | failed _ fails _ ih =>
    rw [successes_cons_error fails]
    exact ih
  | succeeded _ succeeds chained ih =>
    rw [successes_cons_ok succeeds]
    refine List.pairwise_cons.2 ⟨?_, ih⟩
    intro q' hq' name hname hname'
    obtain ⟨le, keys⟩ := keys_of_compileBy succeeds
    rw [keys] at hname
    obtain ⟨m, _, below, rfl⟩ := mem_namesBetween hname
    obtain ⟨n, above, same⟩ := chained.le_of_mem rfl hq' hname'
    have := variableName_inj same
    omega

/-- The variables of a compiled query are those from the counter of its request up to the counter it
leaves, in order, and the header of its text declares each of them once and in this order. Documents
that take up the numbering one after the other have no variable in common. -/
theorem variables_numbered (read : String → Option Document) :
    (∀ (s : Schema) (r : Request) (q : CompiledQuery), s.compileBy read r = .ok q →
      (r.counter : Int) ≤ q.nextCounter ∧
      Keyed.keys q.variableValues = namesBetween r.counter q.nextCounter ∧
      (namesBetween r.counter q.nextCounter).Nodup ∧
      ∃ (p : Plan) (types : List String), s.plan r = .ok p ∧
        types.length = (q.nextCounter - r.counter).toNat ∧
        p.parts.declarations = ", ".intercalate
          ((namesBetween r.counter q.nextCounter).zipWith
            (fun name type => "$" ++ name ++ ": " ++ type) types)) ∧
    ∀ (last : Option Int) (runs : List (Schema × Request)), Chained read last runs →
      (successes read runs).Pairwise fun q q' =>
        (Keyed.keys q.variableValues).Disjoint (Keyed.keys q'.variableValues) := by
  refine ⟨?_, fun last runs chained => chained.pairwise_disjoint⟩
  intro s r q h
  obtain ⟨le, keys⟩ := keys_of_compileBy h
  obtain ⟨p, _, _, planned, _, _, rfl⟩ := plan_of_compileBy h
  have numbered := numbered_of_plan planned
  refine ⟨le, keys, namesBetween_nodup _ _, p,
    p.bindings.declarations.map fun d => d.type.display p.bindings.marks, planned, ?_, ?_⟩
  · have := congrArg List.length numbered.declared
    simpa [namesBetween, Plan.compiled] using this
  · show p.bindings.declarationsText = _
    rw [declarationsText_eq, numbered.declared]
    rfl

end Schema

/-! ### Two requests in a row -/

namespace Sample

/-- The request for three users with two posts each, from the third variable on. -/
def nextRequest : Request := { request with counter := 3 }

end Sample

namespace Schema

/-- Users are asked for twice in a row, the second time with the third and the fourth variable. -/
theorem variables_numbered_users : ∃ q q',
    Sample.schema.compileBy Document.readText? Sample.request = .ok q ∧
    Sample.schema.compileBy Document.readText? Sample.nextRequest = .ok q' ∧
    Chained Document.readText? none
      [(Sample.schema, Sample.request), (Sample.schema, Sample.nextRequest)] ∧
    Keyed.keys q.variableValues = namesBetween 1 3 ∧
    (Keyed.keys q.variableValues).Disjoint (Keyed.keys q'.variableValues) := by
  obtain ⟨q, compiled, next⟩ :
      ∃ q, Sample.schema.compileBy Document.readText? Sample.request = .ok q ∧
        q.nextCounter = 3 := exists_compileBy_of_run? (by decide +kernel)
  obtain ⟨q', compiled', _⟩ :
      ∃ q, Sample.schema.compileBy Document.readText? Sample.nextRequest = .ok q ∧
        q.nextCounter = 5 := exists_compileBy_of_run? (by decide +kernel)
  have second : Chained Document.readText? (some q.nextCounter)
      [(Sample.schema, Sample.nextRequest)] := by
    refine .succeeded ?_ compiled' (.nil _)
    rintro n ⟨⟩
    exact next.symm
  have chained : Chained Document.readText? none
      [(Sample.schema, Sample.request), (Sample.schema, Sample.nextRequest)] :=
    .succeeded nofun compiled second
  obtain ⟨each, apart⟩ := variables_numbered Document.readText?
  obtain ⟨_, keys, _⟩ := each Sample.schema Sample.request q compiled
  rw [next] at keys
  have disjoint := apart none _ chained
  rw [successes_cons_ok compiled, successes_cons_ok compiled', List.pairwise_cons] at disjoint
  exact ⟨q, q', compiled, compiled', chained, keys, disjoint.1 q' (.head _)⟩

end Schema

end GraphRequest
