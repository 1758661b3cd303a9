/-!
# Lifecycle of a delivery

A delivery is idle until it is started and active until it ends; every other state is final.
-/

namespace GraphRequest

/-- The states of a delivery. -/
inductive Lifecycle
  | idle
  | active
  | completed
  | errored
  | cancelled
deriving DecidableEq, Repr, Inhabited

namespace Lifecycle

/-- The name of a state. -/
def text : Lifecycle → String
  | .idle => "idle"
  | .active => "active"
  | .completed => "completed"
  | .errored => "errored"
  | .cancelled => "cancelled"

/-- The name of a state inside messages. -/
def label (s : Lifecycle) : String := "DispatcherState." ++ s.text.toUpper

/-- Whether a state is final. -/
def isFinal : Lifecycle → Bool
  | .idle => false
  | .active => false
  | _ => true

end Lifecycle

end GraphRequest
