import Mathlib.Data.List.Perm.Basic
import GraphRequest.Proofs.Query.Documented
import GraphRequest.Proofs.Selection.Made

/-!
# The order in which root arguments are visited

The arguments of the root field are bound one after the other, in the order in which the schema
declares them. Each takes its value from the request, and nothing that was bound before has a say in
it. So the arguments that are bound, their values and the problems reported do not depend on the
order of the declarations; only the numbers of the variables do.

* `Request.found`: the value of the request for a root argument, and what is reported about it.
* `Request.runs_bindEach`: binding arguments fills the slots that the request has values for.
* `Request.visited_of_bindRoot`: the arguments of a root field, in any order.
-/

namespace GraphRequest

open Step

theorem DeclaredType.exists_ofArgument {a : ArgumentDef} (h : ∃ w, a.type.wire = .ok w) :
    ∃ type, DeclaredType.ofArgument a = .ok type := by
  obtain ⟨w, written⟩ := h
  obtain ⟨base, named, written⟩ := bind_eq_ok.1 written
  unfold ofArgument
  rw [named]
  cases grows : base.growingName? with
  | some items => exact ⟨.growing items a.mark, by simp only [bind, Except.bind, grows]⟩
  | none => exact ⟨.text w.text, by simp only [bind, Except.bind, grows, written]⟩

/-- An argument whose type can be written can be bound. -/
theorem Bindings.exists_bind {a : ArgumentDef} (h : ∃ w, a.type.wire = .ok w) (b : Bindings)
    (v : Value) : ∃ name b', b.bind a v = .ok (name, b') := by
  obtain ⟨type, made⟩ := DeclaredType.exists_ofArgument h
  unfold Bindings.bind
  rw [made]
  exact ⟨_, _, rfl⟩

namespace Request

variable {r : Request} {f : FieldDef} {arguments : List ArgumentDef}

/-! ### What the request has for an argument -/

/-- The value that the request has for an argument of its root field, with the problems that are
reported about it. -/
def found (r : Request) (f : FieldDef) (name : Value) : Option Value × List Diagnostic :=
  match (r.rootValue f name).result (Bindings.start 0) with
  | .ok (o, b) => (o, b.diagnostics)
  | .error _ => (none, [])

/-- The slot of a root argument, if the request has a value for it. -/
def slot? (r : Request) (f : FieldDef) (a : ArgumentDef) : Option Slot :=
  (r.found f a.name).1.map fun v => ⟨a.name.text, a, v⟩

/-- The slots that the request fills among arguments of the root field, in order. -/
def slotsAmong (r : Request) (f : FieldDef) (arguments : List ArgumentDef) : List Slot :=
  arguments.filterMap (r.slot? f)

/-- The problems that are reported about arguments of the root field, in order. -/
def notesOn (r : Request) (f : FieldDef) (arguments : List ArgumentDef) : List Diagnostic :=
  arguments.flatMap fun a => (r.found f a.name).2

/-- Whatever was gathered before, the request has the same value for an argument, and the same is
reported. -/
theorem settles_found {name : Value} (h : OnlyReports (r.rootValue f name)) :
    Settles (r.rootValue f name) (r.found f name).1 (r.found f name).2 := by
  obtain ⟨o, notes, settles⟩ := h
  have start : (r.rootValue f name).result (Bindings.start 0) = .ok (o, _) := settles _
  rw [found, start]
  exact settles

/-- Of its field, what the request has for an argument depends on which arguments are declared, not
on their order. -/
theorem found_of_perm (h : arguments.Perm f.arguments) :
    r.found { f with arguments := arguments } = r.found f := by
  funext name
  have declares (name : String) :
      ({ f with arguments := arguments } : FieldDef).declares name = f.declares name := by
    simp only [FieldDef.declares, FieldDef.argument?, List.isSome_find?]
    exact h.any_eq
  have same := rootValue_congr r (f := f) (g := { f with arguments := arguments }) rfl declares name
  rw [found, same]
  rfl

theorem map_argument_slotsAmong (r : Request) (f : FieldDef) (arguments : List ArgumentDef) :
    (r.slotsAmong f arguments).map Slot.argument =
      arguments.filter fun a => (r.found f a.name).1.isSome := by
  induction arguments with
  | nil => rfl
  | cons a rest ih =>
    cases has : (r.found f a.name).1 with
    | none =>
      rw [slotsAmong, List.filterMap_cons_none (by rw [slot?, has]; rfl),
        List.filter_cons_of_neg (by simp [has])]
      exact ih
    | some v =>
      rw [slotsAmong, List.filterMap_cons_some (by rw [slot?, has]; rfl), List.map_cons,
        List.filter_cons_of_pos (by simp [has])]
      exact congrArg _ ih

/-! ### Binding arguments one after the other -/

/-- Binding arguments fills the slots that the request has values for, whatever was gathered
before. -/
theorem runs_bindEach (reporting : ∀ a ∈ arguments, OnlyReports (r.rootValue f a.name))
    (renders : ∀ a ∈ arguments, ∃ w, a.type.wire = .ok w) (b : Bindings) :
    ∃ b', Runs (r.bindEach f arguments) b (Slot.bound b.counter (r.slotsAmong f arguments)) b' ∧
      b.Adds (r.slotsAmong f arguments) (r.notesOn f arguments) b' := by
  induction arguments generalizing b with
  | nil => exact ⟨b, runs_pure.2 ⟨rfl, rfl⟩, b.adds_nil⟩
  | cons a rest ih =>
    have others := ih (fun a' h => reporting a' (.tail _ h)) (fun a' h => renders a' (.tail _ h))
    have here := settles_found (reporting a (.head _)) b
    have noted := b.adds_reports (r.found f a.name).2
    cases has : (r.found f a.name).1 with
    | none =>
      rw [has] at here
      have slots : r.slotsAmong f (a :: rest) = r.slotsAmong f rest :=
        List.filterMap_cons_none (by rw [slot?, has]; rfl)
      obtain ⟨b', run, adds⟩ := others { b with diagnostics := b.diagnostics ++ _ }
      rw [slots]
      exact ⟨b', runs_bind.2 ⟨none, _, here, run⟩, noted.trans adds⟩
    | some v =>
      rw [has] at here
      have slots : r.slotsAmong f (a :: rest) =
          [⟨a.name.text, a, v⟩] ++ r.slotsAmong f rest :=
        List.filterMap_cons_some (by rw [slot?, has]; rfl)
      obtain ⟨used, b₂, binds⟩ := Bindings.exists_bind (renders a (.head _))
        { b with diagnostics := b.diagnostics ++ (r.found f a.name).2 } v
      obtain ⟨first, one⟩ := Bindings.adds_of_bind a.name.text binds
      obtain ⟨b', run, adds⟩ := others b₂
      refine ⟨b', runs_bind.2 ⟨some v, _, here, ?_⟩, ?_⟩
      · refine runs_bind.2 ⟨used, b₂, runs_bindArgument.2 binds, runs_bind.2 ⟨_, b', run, ?_⟩⟩
        rw [slots, Slot.bound_append]
        refine runs_pure.2 ⟨?_, rfl⟩
        rw [first.counter]
        exact congrArg (· ++ _) one.symm
      · rw [slots]
        have all := (noted.trans first).trans adds
        rw [List.append_nil] at all
        exact all

/-! ### The arguments of a root field -/

/-- Of the arguments that a root field declares, in their order, those are bound that the request
has a value for, each name once and with consecutive numbers. In any other order of the declarations
the same arguments are bound to the same values and the same problems are reported, in the order in
which the arguments are visited then. -/
theorem visited_of_bindRoot (typed : r.TypedSources) (named : ∃ name, f.name = .str name)
    (textual : ∀ a ∈ f.arguments, ∃ name, a.name = .str name)
    (distinct : f.arguments.Pairwise fun a b => b.name.equals a.name = false)
    (renders : ∀ a ∈ f.arguments, ∃ w, a.type.wire = .ok w) :
    ∃ slots notes, (slots.map Slot.argument).Sublist f.arguments ∧
      (∀ x ∈ slots, x.argument.name = .str x.name) ∧ (slots.map Slot.name).Nodup ∧
      (∀ b, ∃ b', Runs (r.bindRoot f) b (Slot.bound b.counter slots) b' ∧ b.Adds slots notes b') ∧
      ∀ arguments, arguments.Perm f.arguments → ∃ slots' notes',
        slots'.Perm slots ∧ notes'.Perm notes ∧
        (slots'.map Slot.argument).Sublist arguments ∧
        ∀ b, ∃ b', Runs (r.bindRoot { f with arguments := arguments }) b
          (Slot.bound b.counter slots') b' ∧ b.Adds slots' notes' b' := by
  obtain ⟨field, named⟩ := named
  have reporting (g : FieldDef) (same : g.name = .str field) (a : ArgumentDef)
      (ha : a ∈ f.arguments) : OnlyReports (r.rootValue g a.name) := by
    obtain ⟨name, text⟩ := textual a ha
    rw [text]
    exact onlyReports_rootValue same typed rfl
  have runs := runs_bindEach (reporting f named) renders
  refine ⟨r.slotsAmong f f.arguments, r.notesOn f f.arguments, ?_, ?_, ?_, runs, ?_⟩
  · rw [map_argument_slotsAmong]
    exact List.filter_sublist
  · intro x hx
    obtain ⟨a, ha, filled⟩ := List.mem_filterMap.1 hx
    obtain ⟨v, _, rfl⟩ := Option.map_eq_some_iff.1 filled
    obtain ⟨name, text⟩ := textual a ha
    show a.name = .str a.name.text
    rw [text]
    rfl
  · obtain ⟨b', run, _⟩ := runs (Bindings.start 0)
    rw [← Slot.names_bound]
    exact (takes_of_bindRoot textual distinct run (Int.le_refl _)).distinct
  · intro arguments perm
    have same := found_of_perm (r := r) perm
    have slots : r.slotsAmong { f with arguments := arguments } arguments =
        r.slotsAmong f arguments := by
      unfold slotsAmong slot?
      rw [same]
    have notes : r.notesOn { f with arguments := arguments } arguments = r.notesOn f arguments := by
      unfold notesOn
      rw [same]
    refine ⟨r.slotsAmong f arguments, r.notesOn f arguments, perm.filterMap _, perm.flatMap_right _,
      ?_, ?_⟩
    · rw [map_argument_slotsAmong]
      exact List.filter_sublist
    · rw [← slots, ← notes]
      refine runs_bindEach (fun a ha => ?_) fun a ha => renders a (perm.mem_iff.1 ha)
      exact reporting { f with arguments := arguments } named a (perm.mem_iff.1 ha)

end Request

namespace Sample

/-- A request that inserts one phase. -/
def firstPhase : Request := (Request.ofValue (insertion "phase"
  [("objects", .arr [.str "first"])])).toOption.get (by decide +kernel)

/-- The field that inserts one phase, by an argument for the row and one for a list of rows. -/
def insertOne : FieldDef :=
  ((changing.field (.str "Mutation") (.str "insert_phase_one")).toOption.join).get
    (by decide +kernel)

theorem typedSources_firstPhase : firstPhase.TypedSources where
  pkColumns := .inl (by rfl)
  arguments := ⟨[], by rfl⟩
  objects := .inr ⟨[.str "first"], by rfl⟩

theorem names_insertOne :
    insertOne.arguments.map ArgumentDef.name = [.str "object", .str "objects"] := by rfl

end Sample

namespace Request

/-- The only row is bound to both arguments of the field, whichever is visited first. -/
theorem visited_of_bindRoot_insertOne : ∃ slots notes,
    (∃ b', Runs (Sample.firstPhase.bindRoot Sample.insertOne) (Bindings.start 1)
      (Slot.bound 1 slots) b' ∧
      b'.variableValues = [("v1", .str "first"), ("v2", .arr [.str "first"])]) ∧
    ∃ slots' notes', slots'.Perm slots ∧ notes'.Perm notes ∧
      ∃ b', Runs (Sample.firstPhase.bindRoot { Sample.insertOne with
          arguments := Sample.insertOne.arguments.reverse }) (Bindings.start 1)
        (Slot.bound 1 slots') b' ∧ (Bindings.start 1).Adds slots' notes' b' := by
  have textual : ∀ a ∈ Sample.insertOne.arguments, ∃ name, a.name = .str name := by
    intro a ha
    have member : a.name ∈ [Value.str "object", .str "objects"] :=
      Sample.names_insertOne ▸ List.mem_map.2 ⟨a, ha, rfl⟩
    rcases List.mem_cons.1 member with same | member
    · exact ⟨_, same⟩
    · exact ⟨_, List.mem_singleton.1 member⟩
  have distinct : Sample.insertOne.arguments.Pairwise fun a b => b.name.equals a.name = false := by
    have names : (Sample.insertOne.arguments.map ArgumentDef.name).Pairwise
        fun a b => b.equals a = false := by
      rw [Sample.names_insertOne]
      decide
    exact List.pairwise_map.1 names
  have renders : ∀ a ∈ Sample.insertOne.arguments, ∃ w, a.type.wire = .ok w := by
    have written : Sample.insertOne.arguments.all (fun a => a.type.wire.isOk) = true := by
      decide +kernel
    intro a ha
    have here := List.all_eq_true.1 written a ha
    cases wire : a.type.wire with
    | error fault =>
      rw [wire] at here
      cases here
    | ok w => exact ⟨w, rfl⟩
  obtain ⟨slots, notes, _, _, _, runs, permuted⟩ := visited_of_bindRoot
    Sample.typedSources_firstPhase ⟨"insert_phase_one", by rfl⟩ textual distinct renders
  obtain ⟨b', run, _⟩ := runs (Bindings.start 1)
  obtain ⟨slots', notes', same, same', _, runs'⟩ := permuted _ (List.reverse_perm _)
  refine ⟨slots, notes, ⟨b', run, ?_⟩, slots', notes', same, same', runs' _⟩
  obtain ⟨p, ran, values⟩ : ∃ p, (Sample.firstPhase.bindRoot Sample.insertOne).result
      (Bindings.start 1) = .ok p ∧
      p.2.variableValues = [("v1", .str "first"), ("v2", .arr [.str "first"])] :=
    exists_of_toOption_map (by decide +kernel)
  cases Except.ok.inj (ran.symm.trans run)
  exact values

end Request

end GraphRequest
