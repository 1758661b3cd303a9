import GraphRequest.Query.Bindings

/-!
# Successful runs of a step

A step threads the bindings and may fail. `Runs x b a b'` says that the step `x`, started with the
bindings `b`, succeeds with the value `a` and leaves `b'`. Each operation that steps are built from
has one law here, so that a run of a compound step comes apart into runs of its parts.

* `runs_bind`: a run of two steps in a row is a run of the first and then one of the second.
* `Settles`, `OnlyReports`: steps that only report, the same problems whatever was gathered before.
* `Uniform`: steps that do so if they succeed at all.
* `Keeps`: an invariant that every successful run of a step preserves.
-/

namespace GraphRequest.Step

variable {α β : Type}

/-- The step succeeds with a value, and takes the first bindings to the second ones. -/
def Runs (x : Step α) (b : Bindings) (a : α) (b' : Bindings) : Prop := x.result b = .ok (a, b')

/-! ### Runs of the operations -/

theorem result_bind (x : Step α) (f : α → Step β) (b : Bindings) :
    (x >>= f).result b = x.result b >>= fun p => (f p.1).result p.2 := by
  have run : (x >>= f) b = ExceptT.bindCont f (x b).1 (x b).2 := rfl
  simp only [result, run]
  rcases x b with ⟨_ | a, b'⟩ <;> rfl

theorem runs_bind {x : Step α} {f : α → Step β} {c : β} {b b'' : Bindings} :
    Runs (x >>= f) b c b'' ↔ ∃ a b', Runs x b a b' ∧ Runs (f a) b' c b'' := by
  simp only [Runs, result_bind]
  cases x.result b with
  | error e => simp [bind, Except.bind]
  | ok p =>
    constructor
    · intro h
      exact ⟨p.1, p.2, rfl, h⟩
    · rintro ⟨a, b', h₁, h₂⟩
      cases h₁
      exact h₂

theorem runs_pure {a c : α} {b b' : Bindings} : Runs (pure a) b c b' ↔ c = a ∧ b' = b := by
  show (Except.ok (a, b) : Except Failure (α × Bindings)) = .ok (c, b') ↔ _
  rw [Except.ok.injEq, Prod.mk.injEq, eq_comm, @eq_comm _ b]

theorem runs_of {r : Except Failure α} {a : α} {b b' : Bindings} :
    Runs (of r) b a b' ↔ r = .ok a ∧ b' = b := by
  cases r with
  | error e => simp [Runs, result, of]
  | ok c => simp [Runs, result, of, @eq_comm _ b]

theorem runs_ofShape {r : Except ShapeFault α} {a : α} {b b' : Bindings} :
    Runs (ofShape r) b a b' ↔ r = .ok a ∧ b' = b := by
  have same : Failure.ofShape r = .ok a ↔ r = .ok a := by
    cases r with
    | error e => constructor <;> intro h <;> cases h
    | ok c => exact ⟨fun h => by cases h; rfl, fun h => by cases h; rfl⟩
  rw [ofShape, runs_of, same]

theorem runs_report {code : DiagnosticCode} {message : String} {path : List String} {u : Unit}
    {b b' : Bindings} :
    Runs (report code message path) b u b' ↔ b' = b.report ⟨code, message, path⟩ := by
  simp [Runs, result, report, @eq_comm _ b']

theorem runs_bindArgument {a : ArgumentDef} {v : Value} {name : String} {b b' : Bindings} :
    Runs (bindArgument a v) b name b' ↔ b.bind a v = .ok (name, b') := by
  cases h : b.bind a v <;> simp [Runs, result, bindArgument, h, Prod.ext_iff]

/-! ### Steps that only report -/

/-- The step returns a value and reports some problems, whatever was gathered before it. -/
def Settles (x : Step α) (a : α) (notes : List Diagnostic) : Prop :=
  ∀ b, Runs x b a { b with diagnostics := b.diagnostics ++ notes }

theorem settles_pure (a : α) : Settles (pure a) a [] := by
  intro b
  rw [List.append_nil]
  exact runs_pure.2 ⟨rfl, rfl⟩

theorem settles_ofShape {r : Except ShapeFault α} {a : α} (h : r = .ok a) :
    Settles (ofShape r) a [] := by
  intro b
  rw [List.append_nil]
  exact runs_ofShape.2 ⟨h, rfl⟩

theorem settles_report (code : DiagnosticCode) (message : String) (path : List String) :
    Settles (report code message path) () [⟨code, message, path⟩] :=
  fun _ => runs_report.2 rfl

theorem settles_bind {x : Step α} {f : α → Step β} {a : α} {c : β} {notes more : List Diagnostic}
    (first : Settles x a notes) (next : Settles (f a) c more) :
    Settles (x >>= f) c (notes ++ more) := by
  intro b
  rw [← List.append_assoc]
  exact runs_bind.2 ⟨a, _, first b, next _⟩

/-- The step only reports. -/
def OnlyReports (x : Step α) : Prop := ∃ a notes, Settles x a notes

theorem onlyReports_pure (a : α) : OnlyReports (pure a : Step α) := ⟨a, [], settles_pure a⟩

theorem onlyReports_bind {x : Step α} {f : α → Step β} {a : α} {notes : List Diagnostic}
    (first : Settles x a notes) (next : OnlyReports (f a)) : OnlyReports (x >>= f) := by
  obtain ⟨c, more, next⟩ := next
  exact ⟨c, notes ++ more, settles_bind first next⟩

/-- The step only reports, if it succeeds at all: it then returns the same value and reports the
same problems whatever was gathered before. -/
def Uniform (x : Step α) : Prop := ∀ b a b', Runs x b a b' → ∃ notes, Settles x a notes

theorem uniform_pure (a : α) : Uniform (pure a : Step α) := by
  intro b c b' h
  obtain ⟨rfl, rfl⟩ := runs_pure.1 h
  exact ⟨[], settles_pure _⟩

theorem uniform_ofShape (r : Except ShapeFault α) : Uniform (ofShape r) :=
  fun _ _ _ h => ⟨[], settles_ofShape (runs_ofShape.1 h).1⟩

theorem uniform_report (code : DiagnosticCode) (message : String) (path : List String) :
    Uniform (report code message path) :=
  fun _ _ _ _ => ⟨_, settles_report code message path⟩

theorem uniform_bind {x : Step α} {f : α → Step β} (first : Uniform x) (next : ∀ a, Uniform (f a)) :
    Uniform (x >>= f) := by
  intro b c b'' h
  obtain ⟨a, b', ran, h⟩ := runs_bind.1 h
  obtain ⟨notes, settles⟩ := first _ _ _ ran
  obtain ⟨more, settles'⟩ := next a _ _ _ h
  exact ⟨notes ++ more, settles_bind settles settles'⟩

/-- There is one run of a step that only reports. -/
theorem Settles.eq_of_runs {x : Step α} {a c : α} {notes : List Diagnostic} {b b' : Bindings}
    (h : Settles x a notes) (ran : Runs x b c b') :
    c = a ∧ b' = { b with diagnostics := b.diagnostics ++ notes } := by
  have same := Except.ok.inj (ran.symm.trans (h b))
  exact Prod.mk.inj same

/-! ### Invariants -/

/-- Every successful run of the step preserves the invariant. -/
def Keeps (I : Bindings → Prop) (x : Step α) : Prop := ∀ b a b', Runs x b a b' → I b → I b'

end GraphRequest.Step
