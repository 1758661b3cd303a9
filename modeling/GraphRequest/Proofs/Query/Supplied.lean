import Mathlib.Data.List.Forall2
import GraphRequest.Proofs.Query.Numbering

/-!
# Supplied arguments

Wanted fields supply values for arguments that the schema declares. Binding takes these slots one
after the other, gives each the next variable, and passes the field the variable at that very
argument. Names that the field does not declare are reported, and nothing else happens.

* `Slot`: an argument of a field with the value supplied for it; `FieldDef.slots` are those of one
  field.
* `Bindings.Adds`: bindings with the variables of slots and with diagnostics behind the earlier
  ones.
* `FieldDef.adds_of_bindNested`: what binding supplied arguments does.
-/

namespace GraphRequest

open Step

/-! ### Slots -/

/-- An argument that a field declares, with the value supplied for it. -/
structure Slot where
  name : String
  argument : ArgumentDef
  value : Value

namespace Slot

/-- The arguments as they are passed, the slots being numbered from a number on. -/
def bound (n : Int) (slots : List Slot) : List BoundArgument :=
  slots.mapIdx fun k x => ⟨x.name, Bindings.variableName (n + k)⟩

/-- The variables of slots with the values supplied for them. -/
def values (n : Int) (slots : List Slot) : Fields :=
  slots.mapIdx fun k x => (Bindings.variableName (n + k), x.value)

/-- A declaration gives a variable the type of the argument of a slot. -/
def TypedBy (x : Slot) (d : Declaration) : Prop := DeclaredType.ofArgument x.argument = .ok d.type

variable {n : Int} {xs ys : List Slot}

theorem bound_append : bound n (xs ++ ys) = bound n xs ++ bound (n + xs.length) ys := by
  rw [bound, List.mapIdx_append]
  simp only [bound, Int.natCast_add, Int.add_comm, Int.add_left_comm]

theorem values_append : values n (xs ++ ys) = values n xs ++ values (n + xs.length) ys := by
  rw [values, List.mapIdx_append]
  simp only [values, Int.natCast_add, Int.add_comm, Int.add_left_comm]

theorem eq_nil_of_bound (h : bound n xs = []) : xs = [] := List.mapIdx_eq_nil_iff.1 h

theorem mem_bound {c : BoundArgument} (h : c ∈ bound n xs) :
    ∃ k : Nat, ∃ x ∈ xs, c = ⟨x.name, Bindings.variableName (n + k)⟩ := by
  obtain ⟨k, _, rfl⟩ := List.mem_mapIdx.1 h
  exact ⟨k, _, List.getElem_mem _, rfl⟩

theorem names_bound (n : Int) (slots : List Slot) :
    (bound n slots).map BoundArgument.name = slots.map Slot.name := by
  apply List.ext_getElem <;> simp [bound]

/-- The variables of slots are numbered without a gap. -/
theorem keys_values (n : Int) (slots : List Slot) :
    Keyed.keys (values n slots) = Bindings.namesBetween n (n + slots.length) := by
  apply List.ext_getElem <;> simp [values, Keyed.keys, Bindings.namesBetween]

/-- The variables that are passed are those of the slots. -/
theorem variableNames_bound (n : Int) (slots : List Slot) :
    (bound n slots).map BoundArgument.variableName = Keyed.keys (values n slots) := by
  apply List.ext_getElem <;> simp [bound, values, Keyed.keys]

end Slot

namespace FieldDef

variable {f : FieldDef}

/-- The slot for an argument of a name, if the field declares it and a value is supplied for it. Of
several values the first one counts. -/
def slot? (f : FieldDef) (arguments : Fields) (name : String) : Option Slot :=
  (f.argument? (.str name)).bind fun a => (arguments.lookup name).map fun v => ⟨name, a, v⟩

/-- Whether a field declares an argument of a name that was not used yet. -/
def admits (f : FieldDef) (done : List String) (name : String) : Bool :=
  f.declares name && !done.contains name

/-- The slots for arguments whose names were not used yet, each name once. -/
def slotsFrom (f : FieldDef) (done : List String) (arguments : Fields) : List Slot :=
  ((Keyed.keys arguments).filter (f.admits done)).eraseDups.filterMap (f.slot? arguments)

/-- The slots that supplied arguments fill on a field: each name once, names that the field does not
declare apart. -/
def slots (f : FieldDef) (arguments : Fields) : List Slot := f.slotsFrom [] arguments

theorem slot?_cons_of_ne {name other : String} (h : other ≠ name) (v : Value) (rest : Fields) :
    f.slot? ((name, v) :: rest) other = f.slot? rest other := by
  have differ : (other == name) = false := by simpa using h
  simp only [slot?, List.lookup_cons, differ]

/-- The slots for later names are not touched by one that is not among them. -/
theorem filterMap_slot?_cons {name : String} {done : List String}
    (skipped : f.admits done name = false) (v : Value) (rest : Fields) :
    ((Keyed.keys rest).filter (f.admits done)).eraseDups.filterMap
        (f.slot? ((name, v) :: rest)) = f.slotsFrom done rest := by
  refine List.filterMap_congr fun other hother => slot?_cons_of_ne ?_ v rest
  rintro rfl
  have kept := (List.mem_filter.1 (List.mem_eraseDups.1 hother)).2
  rw [skipped] at kept
  cases kept

/-- A name that is used already, or that the field does not declare, fills no slot. -/
theorem slotsFrom_cons_of_skipped {done : List String} {name : String}
    (skipped : f.admits done name = false) (v : Value) (rest : Fields) :
    f.slotsFrom done ((name, v) :: rest) = f.slotsFrom done rest := by
  rw [slotsFrom, Keyed.keys_cons, List.filter_cons_of_neg (by simpa using skipped)]
  exact filterMap_slot?_cons skipped v rest

/-- A name that the field declares fills a slot the first time that it is used. -/
theorem slotsFrom_cons_of_admitted {done : List String} {name : String} {a : ArgumentDef}
    (found : f.argument? (.str name) = some a) (new : done.contains name = false) (v : Value)
    (rest : Fields) : f.slotsFrom done ((name, v) :: rest) =
      ⟨name, a, v⟩ :: f.slotsFrom (name :: done) rest := by
  have taken : f.admits done name = true := by
    rw [admits, declares, found, new]
    rfl
  have first : f.slot? ((name, v) :: rest) name = some ⟨name, a, v⟩ := by
    rw [slot?, found, List.lookup_cons_self]
    rfl
  have used : f.admits (name :: done) name = false := by
    rw [admits, List.contains_cons, beq_self_eq_true, Bool.true_or, Bool.not_true, Bool.and_false]
  have later : ((Keyed.keys rest).filter (f.admits done)).filter (fun other => !(other == name)) =
      (Keyed.keys rest).filter (f.admits (name :: done)) := by
    rw [List.filter_filter]
    refine List.filter_congr fun other _ => ?_
    rw [admits, admits, List.contains_cons, Bool.not_or, Bool.and_left_comm]
  rw [slotsFrom, Keyed.keys_cons, List.filter_cons_of_pos taken, List.eraseDups_cons,
    List.filterMap_cons_some first, later, filterMap_slot?_cons used]

/-- The slots of a field are arguments that it declares, under names that were not used yet. -/
theorem admits_of_mem_slotsFrom {done : List String} {arguments : Fields} {x : Slot}
    (h : x ∈ f.slotsFrom done arguments) :
    f.argument? (.str x.name) = some x.argument ∧ f.admits done x.name = true := by
  obtain ⟨name, listed, slot⟩ := List.mem_filterMap.1 h
  obtain ⟨a, found, slot⟩ := Option.bind_eq_some_iff.1 slot
  obtain ⟨v, _, rfl⟩ := Option.map_eq_some_iff.1 slot
  exact ⟨found, (List.mem_filter.1 (List.mem_eraseDups.1 listed)).2⟩

theorem argument?_of_mem_slots {arguments : Fields} {x : Slot} (h : x ∈ f.slots arguments) :
    f.argument? (.str x.name) = some x.argument := (admits_of_mem_slotsFrom h).1

/-- Each name fills one slot. -/
theorem nodup_names_slotsFrom (f : FieldDef) (done : List String) (arguments : Fields) :
    ((f.slotsFrom done arguments).map Slot.name).Nodup := by
  induction arguments generalizing done with
  | nil => exact List.nodup_nil
  | cons m rest ih =>
    obtain ⟨name, v⟩ := m
    cases taken : f.admits done name with
    | false =>
      rw [slotsFrom_cons_of_skipped taken]
      exact ih done
    | true =>
      obtain ⟨declared, new⟩ := Bool.and_eq_true_iff.1 taken
      obtain ⟨a, found⟩ := Option.isSome_iff_exists.1 declared
      rw [slotsFrom_cons_of_admitted found (by simpa using new), List.map_cons, List.nodup_cons]
      refine ⟨?_, ih (name :: done)⟩
      intro again
      obtain ⟨x, hx, same⟩ := List.mem_map.1 again
      have unused := (admits_of_mem_slotsFrom hx).2
      rw [same, admits, List.contains_cons, beq_self_eq_true] at unused
      simp at unused

theorem nodup_names_slots (f : FieldDef) (arguments : Fields) :
    ((f.slots arguments).map Slot.name).Nodup := f.nodup_names_slotsFrom [] arguments

end FieldDef

/-! ### Bindings -/

namespace Bindings

/-- Every variable declared so far is numbered below the counter. -/
def Below (b : Bindings) : Prop :=
  ∀ d ∈ b.declarations, ∃ n, n < b.counter ∧ d.name = variableName n

/-- Behind the earlier declarations there is one for each of some slots. Together they declare the
variables between the two counters, and each of them is related to its slot. -/
def DeclaresEach (R : Slot → Declaration → Prop) (b : Bindings) (slots : List Slot)
    (b' : Bindings) : Prop :=
  ∃ declared, b'.declarations = b.declarations ++ declared ∧
    declared.map Declaration.name = namesBetween b.counter b'.counter ∧
    List.Forall₂ R slots declared

/-- Later bindings with the variables of slots and with diagnostics behind the earlier ones, and
with nothing else. -/
structure Adds (b : Bindings) (slots : List Slot) (reported : List Diagnostic) (b' : Bindings) :
    Prop where
  counter : b'.counter = b.counter + slots.length
  values : b'.variableValues = b.variableValues ++ Slot.values b.counter slots
  diagnostics : b'.diagnostics = b.diagnostics ++ reported
  declarations : b.Below → b.DeclaresEach Slot.TypedBy slots b'

variable {b b₁ b' : Bindings} {xs ys : List Slot} {R R' : Slot → Declaration → Prop}

theorem declaresEach_nil (R : Slot → Declaration → Prop) (b : Bindings) : b.DeclaresEach R [] b :=
  ⟨[], (List.append_nil _).symm, (namesBetween_self _).symm, .nil⟩

theorem DeclaresEach.below (h : b.DeclaresEach R xs b') (le : b.counter ≤ b'.counter)
    (below : b.Below) : b'.Below := by
  obtain ⟨declared, behind, names, _⟩ := h
  intro d hd
  rw [behind] at hd
  rcases List.mem_append.1 hd with earlier | new
  · obtain ⟨n, hn, name⟩ := below d earlier
    exact ⟨n, by omega, name⟩
  · have name : d.name ∈ namesBetween b.counter b'.counter :=
      names ▸ List.mem_map.2 ⟨d, new, rfl⟩
    obtain ⟨n, _, hn, same⟩ := mem_namesBetween name
    exact ⟨n, hn, same⟩

theorem DeclaresEach.trans (first : b.DeclaresEach R xs b₁) (second : b₁.DeclaresEach R ys b')
    (le : b.counter ≤ b₁.counter) (le' : b₁.counter ≤ b'.counter) :
    b.DeclaresEach R (xs ++ ys) b' := by
  obtain ⟨ds, behind, names, types⟩ := first
  obtain ⟨es, behind', names', types'⟩ := second
  refine ⟨ds ++ es, by rw [behind', behind, List.append_assoc], ?_, List.rel_append types types'⟩
  rw [List.map_append, names, names']
  exact namesBetween_append le le'

theorem DeclaresEach.mono (h : b.DeclaresEach R xs b') (weaker : ∀ x ∈ xs, ∀ d, R x d → R' x d) :
    b.DeclaresEach R' xs b' := by
  obtain ⟨declared, behind, names, types⟩ := h
  have each : List.Forall₂ (fun x d => x ∈ xs ∧ R x d) xs declared :=
    (List.forall₂_and_left xs declared).2 ⟨fun _ hx => hx, types⟩
  exact ⟨declared, behind, names, each.imp fun x d h => weaker x h.1 d h.2⟩

theorem adds_nil (b : Bindings) : b.Adds [] [] b where
  counter := (Int.add_zero _).symm
  values := (List.append_nil _).symm
  diagnostics := (List.append_nil _).symm
  declarations := fun _ => declaresEach_nil _ b

theorem adds_reports (b : Bindings) (ds : List Diagnostic) :
    b.Adds [] ds { b with diagnostics := b.diagnostics ++ ds } where
  counter := (Int.add_zero _).symm
  values := (List.append_nil _).symm
  diagnostics := rfl
  declarations := fun _ => declaresEach_nil _ b

theorem Adds.trans {ds es : List Diagnostic} (first : b.Adds xs ds b₁) (second : b₁.Adds ys es b') :
    b.Adds (xs ++ ys) (ds ++ es) b' := by
  have between := first.counter
  have counter := second.counter
  refine ⟨?_, ?_, ?_, fun below => ?_⟩
  · rw [List.length_append]
    omega
  · rw [second.values, first.values, List.append_assoc, Slot.values_append, between]
  · rw [second.diagnostics, first.diagnostics, List.append_assoc]
  · have declared := first.declarations below
    exact declared.trans (second.declarations (declared.below (by omega) below)) (by omega)
      (by omega)

/-- Binding an argument fills its slot: the variable is new, so that it is declared. -/
theorem adds_of_bind {a : ArgumentDef} {used : String} {v : Value} (name : String)
    (h : b.bind a v = .ok (used, b')) :
    b.Adds [⟨name, a, v⟩] [] b' ∧ [⟨name, used⟩] = Slot.bound b.counter [⟨name, a, v⟩] := by
  obtain ⟨rfl, values⟩ := bind_variableValues h
  have counter := bind_counter h
  obtain ⟨type, made, declarations⟩ := bind_declarations h
  refine ⟨⟨counter, ?_, ?_, fun below => ?_⟩, ?_⟩
  · rw [values]
    simp [Slot.values]
  · rw [bind_diagnostics h, List.append_nil]
  · have new : variableName b.counter ∉ b.declarations.map Declaration.name := by
      intro declared
      obtain ⟨d, hd, same⟩ := List.mem_map.1 declared
      obtain ⟨n, hn, name⟩ := below d hd
      have := variableName_inj (name.symm.trans same)
      omega
    refine ⟨[⟨variableName b.counter, type⟩], ?_, ?_, .cons made .nil⟩
    · rw [declarations]
      exact declare_of_not_mem new
    · rw [counter, namesBetween_succ (Int.le_refl _), namesBetween_self]
      rfl
  · simp [Slot.bound]

end Bindings

/-! ### Arguments -/

namespace FieldDef

variable {f : FieldDef} {path : List String} {arguments : Fields} {b b' : Bindings}
  {bound : List BoundArgument}

/-- The problem of an argument that a field does not declare. -/
def undeclared (f : FieldDef) (path : List String) (name : String) : Diagnostic :=
  ⟨.unknownArgument, "Argument \"" ++ name ++ "\" is not declared on field \"" ++ f.name.text ++
    "\". Skipping.", path⟩

/-- The names of supplied arguments that a field does not declare. -/
def unknownNames (f : FieldDef) (arguments : Fields) : List String :=
  (Keyed.keys arguments).filter fun name => !f.declares name

/-- Binding arguments fills the slots whose names were not used yet, and reports the names that the
field does not declare, as often as they are supplied. -/
theorem adds_of_bindNestedFrom {done : List String} (known : ∀ name ∈ done, f.declares name = true)
    (h : Runs (f.bindNestedFrom path done arguments) b bound b') :
    b.Adds (f.slotsFrom done arguments) ((f.unknownNames arguments).map (f.undeclared path)) b' ∧
      bound = Slot.bound b.counter (f.slotsFrom done arguments) := by
  induction arguments generalizing done b bound with
  | nil =>
    obtain ⟨rfl, rfl⟩ := runs_pure.1 h
    exact ⟨Bindings.adds_nil _, rfl⟩
  | cons p rest ih =>
    obtain ⟨name, v⟩ := p
    have declared (is : f.declares name = true) :
        f.unknownNames ((name, v) :: rest) = f.unknownNames rest :=
      List.filter_cons_of_neg (by simp [is])
    unfold bindNestedFrom at h
    split at h
    · rename_i used
      rw [slotsFrom_cons_of_skipped (by rw [admits, used, Bool.not_true, Bool.and_false]),
        declared (known name (by simpa using used))]
      exact ih known h
    · rename_i new
      split at h
      · rename_i missing
        have unknown : f.declares name = false := by rw [declares, missing]; rfl
        obtain ⟨_, b₁, hr, h₁⟩ := runs_bind.1 h
        rw [runs_report.1 hr] at h₁
        rw [slotsFrom_cons_of_skipped (by rw [admits, unknown]; rfl)]
        obtain ⟨adds, same⟩ := ih known h₁
        have first : f.unknownNames ((name, v) :: rest) = name :: f.unknownNames rest :=
          List.filter_cons_of_pos (by simp [unknown])
        rw [first]
        exact ⟨(b.adds_reports [f.undeclared path name]).trans adds, same⟩
      · rename_i a found
        have is : f.declares name = true := by rw [declares, found]; rfl
        obtain ⟨used, b₁, hn, h₁⟩ := runs_bind.1 h
        obtain ⟨others, b₂, hr, h₂⟩ := runs_bind.1 h₁
        obtain ⟨rfl, rfl⟩ := runs_pure.1 h₂
        obtain ⟨first, one⟩ := Bindings.adds_of_bind name (runs_bindArgument.1 hn)
        obtain ⟨adds, same⟩ := ih (List.forall_mem_cons.2 ⟨is, known⟩) hr
        rw [slotsFrom_cons_of_admitted found (by simpa using new), declared is]
        refine ⟨first.trans adds, ?_⟩
        show [_] ++ others = Slot.bound b.counter ([_] ++ f.slotsFrom (name :: done) rest)
        rw [Slot.bound_append, ← one, same, first.counter]

theorem adds_of_bindNested (h : Runs (f.bindNested path arguments) b bound b') :
    b.Adds (f.slots arguments) ((f.unknownNames arguments).map (f.undeclared path)) b' ∧
      bound = Slot.bound b.counter (f.slots arguments) :=
  adds_of_bindNestedFrom (List.forall_mem_nil _) h

end FieldDef

end GraphRequest
