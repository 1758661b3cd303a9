import GraphRequest.Query.Arguments
import GraphRequest.Proofs.Query.Steps

/-!
# Steps that do not read what was reported

Diagnostics are gathered and never looked at again while a request compiles. A step therefore does
the same whatever was reported before it, and a step that reports one more problem on the way
differs from one that does not in that problem alone.

* `Step.Heedless`: earlier diagnostics stay in front and change nothing, with a law for each
  operation.
* `Step.Inserts`: a step that does as another one and reports one more problem, at a known place
  among the others.
* `inserts_report`, `inserts_before`, `inserts_behind`: where it is reported, and what is done
  before it and behind it.
-/

namespace GraphRequest

namespace Bindings

/-- The bindings with some diagnostics in front of their own. -/
def behind (earlier : List Diagnostic) (b : Bindings) : Bindings :=
  { b with diagnostics := earlier ++ b.diagnostics }

theorem bind_behind (earlier : List Diagnostic) (b : Bindings) (a : ArgumentDef) (v : Value) :
    (b.behind earlier).bind a v = (b.bind a v).map fun p => (p.1, p.2.behind earlier) := by
  simp only [bind]
  cases DeclaredType.ofArgument a <;> rfl

theorem report_behind (earlier : List Diagnostic) (b : Bindings) (d : Diagnostic) :
    (b.behind earlier).report d = (b.report d).behind earlier := by
  simp only [report, behind, List.append_assoc]

end Bindings

namespace Step

open Bindings (behind)

variable {α β γ : Type}

/-- With diagnostics in front of those gathered before, the step fails with the same failure, or it
returns the same value and leaves the same bindings but for these diagnostics in front. -/
def Heedless (x : Step α) : Prop :=
  ∀ earlier b, x.result (behind earlier b) = (x.result b).map fun p => (p.1, p.2.behind earlier)

/-! ### Laws -/

theorem heedless_of (r : Except Failure α) : Heedless (of r) := by
  intro earlier b
  cases r <;> rfl

theorem heedless_ofShape (r : Except ShapeFault α) : Heedless (ofShape r) := heedless_of _

theorem heedless_pure (a : α) : Heedless (pure a : Step α) := fun _ _ => rfl

theorem heedless_report (code : DiagnosticCode) (message : String) (path : List String) :
    Heedless (report code message path) := by
  intro earlier b
  show Except.ok ((), (b.behind earlier).report _) = Except.ok ((), (b.report _).behind earlier)
  rw [Bindings.report_behind]

theorem heedless_bindArgument (a : ArgumentDef) (v : Value) : Heedless (bindArgument a v) := by
  intro earlier b
  simp only [result, bindArgument, Bindings.bind_behind]
  cases b.bind a v <;> rfl

theorem heedless_bind {x : Step α} {f : α → Step β} (first : Heedless x)
    (next : ∀ b a b', Runs x b a b' → Heedless (f a)) : Heedless (x >>= f) := by
  intro earlier b
  rw [result_bind, result_bind, first]
  cases ran : x.result b with
  | error fault => rfl
  | ok p => exact next b p.1 p.2 ran earlier p.2

/-- On bindings with some diagnostics in front, a step runs as it does without them. -/
theorem Heedless.runs {x : Step α} (heedless : Heedless x) (front : List Diagnostic)
    {b b' : Bindings} {a : α} (h : Runs x b a b') :
    Runs x (behind front b) a (behind front b') := by
  rw [Runs, heedless, h]
  rfl

theorem Heedless.fails {x : Step α} (heedless : Heedless x) (front : List Diagnostic)
    {b : Bindings} {fault : Failure} (h : x.result b = .error fault) :
    x.result (behind front b) = .error fault := by
  rw [heedless, h]
  rfl

/-! ### One more problem -/

/-- Two steps that fail with the same failure, or return the same value and leave the same bindings,
but that the second one reports one more problem, right behind those reported in an early part. -/
def Inserts (d : Diagnostic) (early : Step γ) (x y : Step α) : Prop :=
  ∀ b, (∃ fault, x.result b = .error fault ∧ y.result b = .error fault) ∨
    ∃ c b₁ a b', Runs early b c b₁ ∧ Runs x b a (behind b₁.diagnostics b') ∧
      Runs y b a (behind (b₁.diagnostics ++ [d]) b')

/-- Reporting a problem before a step inserts it in front of the step. -/
theorem inserts_report (code : DiagnosticCode) (message : String) (path : List String) {x : Step α}
    (heedless : Heedless x) (c : γ) :
    Inserts ⟨code, message, path⟩ (pure c) x (report code message path >>= fun _ => x) := by
  intro b
  -- Either run is one on the bindings without diagnostics, with those reported so far in front.
  have plain : behind b.diagnostics { b with diagnostics := [] } = b := by
    simp only [behind, List.append_nil]
  have reported : behind (b.diagnostics ++ [⟨code, message, path⟩]) { b with diagnostics := [] } =
      b.report ⟨code, message, path⟩ := by
    simp only [behind, Bindings.report, List.append_nil]
  cases ran : x.result { b with diagnostics := [] } with
  | error fault =>
    refine .inl ⟨fault, plain ▸ heedless.fails _ ran, ?_⟩
    show x.result (b.report ⟨code, message, path⟩) = .error fault
    exact reported ▸ heedless.fails _ ran
  | ok p =>
    refine .inr ⟨c, b, p.1, p.2, runs_pure.2 ⟨rfl, rfl⟩, ?_, ?_⟩
    · have run := heedless.runs b.diagnostics ran
      rwa [plain] at run
    · have run := heedless.runs (b.diagnostics ++ [⟨code, message, path⟩]) ran
      rw [reported] at run
      exact runs_bind.2 ⟨(), _, runs_report.2 rfl, run⟩

/-- What is done before belongs to the early part. -/
theorem inserts_before {d : Diagnostic} {z : Step β} {early : β → Step γ} {f g : β → Step α}
    (inserts : ∀ c, Inserts d (early c) (f c) (g c)) :
    Inserts d (z >>= early) (z >>= f) (z >>= g) := by
  intro b
  rw [result_bind, result_bind]
  cases ran : z.result b with
  | error fault => exact .inl ⟨fault, rfl, rfl⟩
  | ok p =>
    obtain failed | ⟨c, b₁, a, b', early', plain, more⟩ := inserts p.1 p.2
    · exact .inl failed
    · exact .inr ⟨c, b₁, a, b', runs_bind.2 ⟨p.1, p.2, ran, early'⟩,
        runs_bind.2 ⟨p.1, p.2, ran, plain⟩, runs_bind.2 ⟨p.1, p.2, ran, more⟩⟩

/-- What is done behind is done in either case, and reports behind the problem. -/
theorem inserts_behind {d : Diagnostic} {early : Step γ} {x y : Step α} {f : α → Step β}
    (inserts : Inserts d early x y) (heedless : ∀ a, Heedless (f a)) :
    Inserts d early (x >>= f) (y >>= f) := by
  intro b
  obtain ⟨fault, failed, failed'⟩ | ⟨c, b₁, a, b', early', plain, more⟩ := inserts b
  · rw [result_bind, result_bind, failed, failed']
    exact .inl ⟨fault, rfl, rfl⟩
  · cases ran : (f a).result b' with
    | error fault =>
      rw [result_bind, result_bind, plain, more]
      exact .inl ⟨fault, (heedless a).fails _ ran, (heedless a).fails _ ran⟩
    | ok p =>
      exact .inr ⟨c, b₁, p.1, p.2, early', runs_bind.2 ⟨a, _, plain, (heedless a).runs _ ran⟩,
        runs_bind.2 ⟨a, _, more, (heedless a).runs _ ran⟩⟩

end Step

open Step

/-- Binding the arguments of a field below the root does not read what was reported. -/
theorem FieldDef.heedless_bindNestedFrom (f : FieldDef) (path done : List String)
    (arguments : Fields) : Heedless (f.bindNestedFrom path done arguments) := by
  induction arguments generalizing done with
  | nil => exact heedless_pure _
  | cons p rest ih =>
    obtain ⟨name, v⟩ := p
    unfold bindNestedFrom
    split
    · exact ih done
    · split
      · exact heedless_bind (heedless_report _ _ _) fun _ _ _ _ => ih done
      · refine heedless_bind (heedless_bindArgument _ v) fun _ _ _ _ => ?_
        exact heedless_bind (ih (name :: done)) fun _ _ _ _ => heedless_pure _

end GraphRequest
