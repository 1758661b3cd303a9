import GraphRequest.Delivery.Session

/-!
# Scripts for a delivery

A script drives one delivery on a clock that starts at zero and moves only when a step says so. The
connection is scripted, too: a queue of what its stream brings, and a list of what its fetches
bring. After each step all happens that can happen at that time.

* `Stage.next` is what happens next at the present time, `Stage.settle` lets all of it happen.
* `Stage.play` performs one step and reports it.
-/

namespace GraphRequest.DeliveryScript

/-- What a stream brings: an answer or a failure, or its end. -/
inductive Arrival
  | item (result : Except Failure Answer)
  | finish

/-- The signal of an arrival. -/
def Arrival.signal : Arrival → Signal
  | .item result => .item result
  | .finish => .finish

/-- What a fetch brings, and how long that takes. -/
structure Fetched where
  result : Except Failure Answer
  delay : Rat

/-- A step of a script. -/
inductive Step
  | start
  | cancel
  /-- Adds to what the stream brings. -/
  | push (arrivals : List Arrival)
  /-- Moves the clock on. -/
  | advance (time : Rat)
  /-- Asks whether the delivery has ended. -/
  | awaitEnd
  /-- Performs steps without letting anything happen between them. -/
  | batch (steps : List Step)
deriving Inhabited

/-- A delivery on its clock, with what its connection still brings. -/
structure Stage extends Session where
  clock : Rat
  arrivals : List Arrival
  results : List Fetched
  /-- The last answer to the question whether the delivery has ended. -/
  ending : Option (Option Lifecycle)

/-- An action on a stage that may fail; what it did before stays done. -/
abbrev Act := ExceptT Failure (StateM Stage) Unit

/-- What a step of a script shows. -/
structure Report where
  clock : Rat
  lifecycle : Lifecycle
  mode : Option Mode
  operationName : Option String
  events : List (Rat × Event)
  ending : Option (Option Lifecycle)
  failure : Option Failure

namespace Stage

/-- The stage of an idle delivery at time zero. -/
def idle (s : Subscription) (results : List Fetched) : Stage :=
  ⟨.idle s, 0, [], results, none⟩

/-- The stage after a signal. -/
def signal (st : Stage) (x : Signal) : Stage :=
  { st with toSession := st.toSession.step st.clock x }

/-- What the fetch under way brings: the result of its number, or the last one if there are fewer.
Without results it is an answer without data. -/
def fetched (st : Stage) : Fetched :=
  match st.results[st.delivery.fetches - 1]?, st.results.getLast? with
  | some r, _ => r
  | none, some r => r
  | none, none => ⟨.ok ⟨.null, .null⟩, 0⟩

/-- What happens next at the present time, if anything does. -/
def next (st : Stage) : Option Stage :=
  if st.delivery.stopping then some (st.signal .interrupt)
  else match st.delivery.task with
    | .ready => some (st.signal .run)
    | .listening => match st.arrivals with
      | [] => none
      | a :: rest => some ({ st with arrivals := rest }.signal a.signal)
    | .fetching since =>
      if since + st.fetched.delay ≤ st.clock then some (st.signal (.outcome st.fetched.result))
      else none
    | .sleeping due => if due ≤ st.clock then some (st.signal .wake) else none
    | .absent | .finished => none

/-- Lets happen what can happen now, at most a number of times. -/
def settleFor : Nat → Stage → Stage
  | 0, st => st
  | fuel + 1, st => match st.next with
    | none => st
    | some st => settleFor fuel st

/-- Lets all happen that can happen now: each arrival happens once, and the task goes through its
few states at most twice. -/
def settle (st : Stage) : Stage := settleFor (2 * st.arrivals.length + 8) st

/-- The time of the next timer. -/
def nextTimer (st : Stage) : Option Rat :=
  match st.delivery.pacer.bind Pacer.due with
  | some due => some due
  | none => match st.delivery.task with
    | .fetching since => some (since + st.fetched.delay)
    | .sleeping due => some due
    | _ => none

/-- Lets the timers run out that are due by a time, at most a number of times. -/
def runTimers : Nat → Rat → Stage → Stage
  | 0, _, st => st
  | fuel + 1, time, st => match st.nextTimer with
    | none => st
    | some due =>
      if due ≤ time then
        runTimers fuel time ({ st with clock := due }.signal .timer).settle
      else st

/-- The number of timers that may run out in a span of time: two for each fetch, and a few more. -/
def timersIn (st : Stage) (span : Rat) : Nat :=
  2 * (span / Settings.milliseconds st.subscription.settings.pollInterval).ceil.toNat + 8

/-- Moves the clock on by a span of time. -/
def advance (st : Stage) (span : Rat) : Stage :=
  let time := st.clock + span
  { runTimers (st.timersIn span) time st.settle with clock := time }

end Stage

/-- Starts the delivery. -/
def start : Act := do
  let st ← get
  set (st.signal .start)
  match st.delivery.start st.subscription with
  | .error fault => throw fault
  | .ok _ => pure ()

/-- Asks whether the delivery has ended. -/
def awaitEnd : Act := do
  let st := (← get).settle
  set st
  match st.delivery.ending? with
  | .error fault => throw fault
  | .ok ending => set { st with ending := some ending }

mutual

/-- Performs a step. -/
def perform : Step → Act
  | .start => start
  | .cancel => modify fun st => st.signal .cancel
  | .push arrivals => modify fun st => { st with arrivals := st.arrivals ++ arrivals }
  | .advance span => modify fun st => st.advance span
  | .awaitEnd => awaitEnd
  | .batch steps => performAll steps

/-- Performs steps one after the other. -/
def performAll : List Step → Act
  | [] => pure ()
  | step :: rest => do
    perform step
    performAll rest

end

namespace Stage

/-- Performs an action and lets happen what can happen then. -/
def playAct (st : Stage) (act : Act) : Report × Stage :=
  let (result, after) := act.run { st with ending := none }
  let after := after.settle
  let d := after.delivery
  let report := {
    clock := after.clock
    lifecycle := d.lifecycle
    mode := d.mode
    operationName := d.query.map CompiledQuery.operationName
    events := (d.trace.drop st.delivery.trace.length).map fun o => (o.time, o.event)
    ending := after.ending
    failure := match result with
      | .ok () => none
      | .error fault => some fault }
  (report, after)

/-- Performs a step and lets happen what can happen then. -/
def play (st : Stage) (step : Step) : Report × Stage := st.playAct (perform step)

/-- Performs the steps of a script. -/
def playAll (st : Stage) : List Step → List Report
  | [] => []
  | step :: rest =>
    let (report, st) := st.play step
    report :: st.playAll rest

/-- The reports of a script. A delivery may be started before the first step, which has to
succeed. -/
def rehearse (s : Subscription) (results : List Fetched) (startFirst : Bool) (steps : List Step) :
    Except Failure (List Report) :=
  let st := idle s results
  if startFirst then do
    let d ← st.delivery.start s
    .ok ({ st with delivery := d }.playAll steps)
  else .ok (st.playAll steps)

end Stage

end GraphRequest.DeliveryScript
