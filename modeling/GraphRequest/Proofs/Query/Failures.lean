import GraphRequest.Proofs.Query.Steps

/-!
# Kinds of failures

Failures are told apart by their kind, whatever their message says. Four kinds are documented for
compiling a request: the schema is at fault, the request is, no candidate field exists, or the text
is no document. The others are misuses of the library and faults of shape that its own checks are to
rule out.

* `Failure.kind`: what tells failures apart.
* `Failure.FailsOnly`, `Step.Safe`: results and steps that fail only in some ways, with a law for
  each operation.
-/

namespace GraphRequest

/-- What is at fault in a failure. -/
inductive FailureKind
  | schema
  | request
  | unresolved
  | malformed
  | settings
  | execution
  | misuse
  | connection
  | shape (fault : ShapeFault)
deriving DecidableEq, Repr

namespace Failure

/-- The kind of a failure. -/
def kind : Failure → FailureKind
  | .schema _ => .schema
  | .request _ => .request
  | .unresolved _ _ => .unresolved
  | .malformed _ _ => .malformed
  | .settings _ => .settings
  | .execution _ => .execution
  | .misuse _ => .misuse
  | .connection _ => .connection
  | .shape fault => .shape fault

/-- The kinds of failures that are documented for compiling a request. -/
def documentedKinds : List FailureKind := [.schema, .request, .unresolved, .malformed]

/-- A result that is no failure, or one of some failures. -/
def FailsOnly {α : Type} (F : Failure → Prop) (r : Except Failure α) : Prop :=
  ∀ f, r = .error f → F f

/-- A result that is no failure, or a documented one. -/
abbrev Documented {α : Type} (r : Except Failure α) : Prop :=
  FailsOnly (fun f => f.kind ∈ documentedKinds) r

/-- Failures among which are all that compiling is documented to end in whatever the request: those
of the schema, of candidates that do not exist, and of a text that is no document. -/
structure Admitted (F : Failure → Prop) : Prop where
  schema : ∀ fault, F (.schema fault)
  unresolved : ∀ candidates root, F (.unresolved candidates root)
  malformed : ∀ text values, F (.malformed text values)

/-- Both results are failures of one kind, or both are values that a relation holds between. -/
inductive SameOutcome {α β : Type} (T : α → β → Prop) : Except Failure α → Except Failure β → Prop
  | failed {f g : Failure} (alike : f.kind = g.kind) : SameOutcome T (.error f) (.error g)
  | succeeded {a : α} {b : β} (related : T a b) : SameOutcome T (.ok a) (.ok b)

variable {α β : Type} {F : Failure → Prop}

theorem admitted_documented : Admitted fun f => f.kind ∈ documentedKinds where
  schema _ := .head _
  unresolved _ _ := .tail _ (.tail _ (.head _))
  malformed _ _ := .tail _ (.tail _ (.tail _ (.head _)))

theorem failsOnly_ok (a : α) : FailsOnly F (.ok a : Except Failure α) := nofun

theorem failsOnly_error {f : Failure} (h : F f) : FailsOnly F (.error f : Except Failure α) := by
  rintro _ ⟨⟩
  exact h

theorem failsOnly_ofRequest {r : Except RequestFault α}
    (h : ∀ fault, r = .error fault → F (.request fault)) : FailsOnly F (ofRequest r) := by
  intro f failed
  cases r with
  | error fault =>
    cases failed
    exact h fault rfl
  | ok a => cases failed

theorem failsOnly_bind {r : Except Failure α} {g : α → Except Failure β} (first : FailsOnly F r)
    (next : ∀ a, r = .ok a → FailsOnly F (g a)) : FailsOnly F (r >>= g) := by
  intro f h
  cases r with
  | error fault =>
    cases h
    exact first _ rfl
  | ok a => exact next a rfl f h

theorem documented_bind {r : Except Failure α} {g : α → Except Failure β} (first : Documented r)
    (next : ∀ a, r = .ok a → Documented (g a)) : Documented (r >>= g) :=
  failsOnly_bind first next

end Failure

open Failure

namespace Step

variable {α β : Type} {F : Failure → Prop}

/-- A step that fails only in some ways, whatever was gathered before it. -/
def Safe (F : Failure → Prop) (x : Step α) : Prop := ∀ b, FailsOnly F (x.result b)

theorem safe_pure (a : α) : Safe F (pure a : Step α) := fun _ => failsOnly_ok _

theorem safe_bind {x : Step α} {f : α → Step β} (first : Safe F x)
    (next : ∀ b a b', Runs x b a b' → Safe F (f a)) : Safe F (x >>= f) := by
  intro b
  rw [result_bind]
  exact failsOnly_bind (first b) fun p ran => next b p.1 p.2 ran p.2

theorem safe_of {r : Except Failure α} (h : FailsOnly F r) : Safe F (of r) := by
  intro b f failed
  cases r with
  | error fault =>
    cases failed
    exact h f rfl
  | ok a => cases failed

theorem safe_ofShape {r : Except ShapeFault α} {a : α} (h : r = .ok a) :
    Safe F (ofShape r) := by
  rw [h]
  exact safe_of (failsOnly_ok a)

theorem safe_report (code : DiagnosticCode) (message : String) (path : List String) :
    Safe F (report code message path) := fun _ => failsOnly_ok _

/-- A step that only reports fails in no way. -/
theorem Settles.safe {x : Step α} {a : α} {notes : List Diagnostic} (h : Settles x a notes) :
    Safe F x := by
  intro b
  rw [h b]
  exact failsOnly_ok _

theorem safe_bindArgument {a : ArgumentDef}
    (h : FailsOnly F (DeclaredType.ofArgument a)) (v : Value) :
    Safe F (bindArgument a v) := by
  intro b f failed
  unfold result bindArgument Bindings.bind at failed
  cases type : DeclaredType.ofArgument a with
  | error fault =>
    rw [type] at failed
    cases failed
    exact h f type
  | ok t =>
    rw [type] at failed
    cases failed

end Step

end GraphRequest
