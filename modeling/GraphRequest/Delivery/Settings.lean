import GraphRequest.Failure

/-!
# Delivery settings

Whether results may be pushed, the least time between two deliveries, and the time between two
fetches. Times are given in milliseconds by any number; the settings keep the numbers as given.

* `Settings.ofFields` checks settings given by an object, `seconds` is a time in seconds. A time in
  seconds has double precision, which is too small for very large integers.
-/

namespace GraphRequest

/-- Delivery settings. -/
structure Settings where
  pushEnabled : Value
  deliveryInterval : Value
  pollInterval : Value
deriving Repr, DecidableEq

namespace Settings

/-- The settings used when none are given. -/
def standard : Settings := ⟨.bool true, .int 1000, .int 1000⟩

/-- The settings that an object may give. -/
def fieldNames : List String := ["push_enabled", "min_delivery_interval_ms", "poll_interval_ms"]

/-- A value as a number. -/
def number (v : Value) : Except Failure Rat :=
  match v.number? with
  | some n => .ok n
  | none => .error (.shape .wrongKind)

/-- The settings given by the entries of an object. -/
def ofFields (fields : Fields) : Except Failure Settings := do
  if fields.any fun f => !fieldNames.contains f.1 then .error (.shape .wrongKind)
  else
    let get (name : String) (default : Value) := (fields.lookup name).getD default
    let delivery := get "min_delivery_interval_ms" standard.deliveryInterval
    let poll := get "poll_interval_ms" standard.pollInterval
    if (← number delivery) < 0 then .error (.settings (.negativeDelivery delivery))
    else if (← number poll) ≤ 0 then .error (.settings (.nonPositivePoll poll))
    else .ok ⟨get "push_enabled" standard.pushEnabled, delivery, poll⟩

/-- A number of milliseconds. -/
def milliseconds (v : Value) : Rat := (v.number?).getD 0

/-- A number of milliseconds as the fraction of double precision nearest to it. -/
def asDouble (v : Value) : Option Decimal :=
  match v with
  | .float d => some d
  | v =>
    let n := milliseconds v
    Decimal.ofRatio (n < 0) n.num.natAbs n.den

/-- A number of milliseconds in seconds, in double precision. -/
def seconds (v : Value) : Except ShapeFault Value :=
  match asDouble v with
  | some d =>
    let n := d.exact
    match Decimal.ofRatio d.negative n.num.natAbs (n.den * 1000) with
    | some s => .ok (.float s)
    | none => .error .tooLarge
  | none => .error .tooLarge

end Settings

end GraphRequest
