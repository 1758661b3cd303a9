import GraphRequest.Proofs.Query.Invariants

/-!
# Which problems are reported where

Compiling a request adds diagnostics to those gathered before and takes none away. Binding the root
arguments reports problems with the rows to insert only, compiling a selection reports unknown
fields and arguments only, and looking for an envelope reports a missing one only.

* `Bindings.Reports`: the diagnostics added between two bindings, by their codes.
* `reports_bindRoot`, `reports_compileRoot`, `reports_envelope`: the parts of a plan.
* `reports_planned`: what is reported behind the root arguments.
-/

namespace GraphRequest

open Step

/-- Between two sets of bindings diagnostics were added, all with one of some codes. -/
def Bindings.Reports (C : DiagnosticCode → Prop) (b b' : Bindings) : Prop :=
  ∃ added, b'.diagnostics = b.diagnostics ++ added ∧ ∀ d ∈ added, C d.code

namespace Bindings

variable {C D : DiagnosticCode → Prop} {b b' : Bindings}

/-- Binding an argument reports nothing. -/
theorem allows_reports : Allows (fun _ => True) C (Reports C) where
  refl b := ⟨[], (List.append_nil _).symm, List.forall_mem_nil _⟩
  trans first second := by
    obtain ⟨added, same, codes⟩ := first
    obtain ⟨more, same', codes'⟩ := second
    refine ⟨added ++ more, by rw [same', same, List.append_assoc], ?_⟩
    exact List.forall_mem_append.2 ⟨codes, codes'⟩
  report b d code := ⟨[d], rfl, List.forall_mem_singleton.2 code⟩
  bind b a v name b' _ bound := by
    obtain ⟨type, _, bound⟩ := bind_eq_ok.1 bound
    cases bound
    exact ⟨[], (List.append_nil _).symm, List.forall_mem_nil _⟩

theorem Reports.mono (h : Reports C b b') (weaker : ∀ code, C code → D code) : Reports D b b' := by
  obtain ⟨added, same, codes⟩ := h
  exact ⟨added, same, fun d hd => weaker _ (codes d hd)⟩

/-- A code that is not among those reported is there afterwards just if it was there before. -/
theorem Reports.exists_code_iff (h : Reports C b b') {code : DiagnosticCode} (other : ¬ C code) :
    (∃ d ∈ b'.diagnostics, d.code = code) ↔ ∃ d ∈ b.diagnostics, d.code = code := by
  obtain ⟨added, same, codes⟩ := h
  rw [same]
  constructor
  · rintro ⟨d, hd, rfl⟩
    rcases List.mem_append.1 hd with before | new
    · exact ⟨d, before, rfl⟩
    · exact absurd (codes d new) other
  · rintro ⟨d, hd, rfl⟩
    exact ⟨d, List.mem_append_left _ hd, rfl⟩

end Bindings

open Bindings

namespace Schema

variable {s : Schema} {r : Request} {root : RootField} {b b' : Bindings}

theorem reports_bindRoot {f : FieldDef} {bound : List BoundArgument}
    (h : Runs (r.bindRoot f) b bound b') : Reports DiagnosticCode.IsOfPayload b b' :=
  Request.within_bindEach allows_reports (fun _ code => code) r f (fun _ _ => trivial) _ _ _ h

theorem reports_compileRoot {type : Value} {aggregate : Bool} {path : List String}
    {items : List Item} (h : Runs (s.compileRoot r type aggregate path) b items b') :
    Reports DiagnosticCode.IsOfSelection b b' :=
  within_compileRoot allows_reports (fun _ code => code) s.offers_true r type aggregate path _ _ _ h

theorem reports_envelope {a : Action} {f : FieldDef} {o : Option Envelope}
    (h : Runs (s.envelope (some a) f) b o b') : Reports (· = .missingEnvelope) b b' :=
  within_envelope (C := (· = .missingEnvelope)) allows_reports.toTracks rfl s a f _ _ _ h

/-- Behind the root arguments no problem with the rows to insert is reported. -/
theorem reports_planned {items : List Item} (h : Planned s r root b items b') :
    Reports (fun code => code.IsOfSelection ∨ code = .missingEnvelope) b b' := by
  have chain := (allows_reports (C := fun code => code.IsOfSelection ∨ code = .missingEnvelope))
  cases h with
  | enveloped envelope compiles =>
    exact chain.trans ((reports_envelope envelope).mono fun _ => .inr)
      ((reports_compileRoot compiles).mono fun _ => .inl)
  | plain envelope returned compiles =>
    exact chain.trans ((reports_envelope envelope).mono fun _ => .inr)
      ((reports_compileRoot compiles).mono fun _ => .inl)

end Schema

end GraphRequest
