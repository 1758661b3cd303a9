import GraphRequest.Delivery.Basic

/-!
# Sessions

A delivery depends on its subscription, and an attempt to start it may leave marks on the schema of
the subscription. A session is both of them, so that a run of any signals is a run of sessions.

* `Session.step` is what a signal does, `Session.steps` what a sequence of signals does.
-/

namespace GraphRequest

/-- A subscription with its delivery. -/
structure Session where
  subscription : Subscription
  delivery : Delivery

namespace Session

/-- A subscription before its delivery is started. -/
def idle (s : Subscription) : Session := ⟨s, .idle⟩

/-- The subscription after a signal: an attempt to start compiles its request. -/
def subscriptionAfter (c : Session) (signal : Signal) : Subscription :=
  match signal with
  | .start => Delivery.attempted c.subscription c.delivery
  | _ => c.subscription

/-- The session after a signal at a time. -/
def step (c : Session) (now : Rat) (signal : Signal) : Session :=
  ⟨c.subscriptionAfter signal, c.delivery.step c.subscription now signal⟩

/-- The session after signals at their times. -/
def steps (c : Session) (signals : List (Rat × Signal)) : Session :=
  signals.foldl (fun c x => c.step x.1 x.2) c

theorem steps_append (c : Session) (signals more : List (Rat × Signal)) :
    c.steps (signals ++ more) = (c.steps signals).steps more := List.foldl_append

/-- What a delivery needs from its subscription, the schema apart, never changes. -/
theorem exists_schema (c : Session) (now : Rat) (signal : Signal) :
    ∃ schema, (c.step now signal).subscription = { c.subscription with schema } := by
  cases signal with
  | start =>
    show ∃ schema, Delivery.attempted _ _ = _
    unfold Delivery.attempted
    split
    · exact ⟨_, rfl⟩
    · exact ⟨_, rfl⟩
  | _ => exact ⟨_, rfl⟩

end Session

end GraphRequest
