import GraphRequest.Delivery.Pacer
import GraphRequest.Delivery.Settings
import GraphRequest.Outcome
import GraphRequest.Query.Generate

/-!
# Deliveries

A delivery hands the results of one request to one consumer over time. Where the connection allows
it, results are pushed: the subscription form of the request is opened as a stream, and a pacer
keeps the results apart. Otherwise the query form is fetched again and again, and a result is handed
over if it differs from the one handed over last. An error ends a delivery.

A delivery moves by signals: the calls of its owner, what the connection brings, and the passing of
time. Nothing else changes it, and all that the consumer and the connection see of it is recorded in
its trace, with the state that they find it in. `Delivery.step` answers one signal at one time.

* `step_start_of_error`: a start that fails changes nothing.
* `cancel_of_final`: cancelling a delivery that is over changes nothing.
* `deliver_of_not_active`: only an active delivery hands values over.
-/

namespace GraphRequest

/-- What a consumer does when it is handed a value: it may cancel the delivery, and it may fail
then. -/
structure Reaction where
  cancels : Bool
  fault : Option Failure

/-- A consumer of results. -/
structure Consumer where
  /-- The reaction to a value, the number of values handed over so far being given with it. -/
  onData : Nat → Value → Reaction
  /-- Whether the callback for errors cancels the delivery, if there is such a callback. -/
  onError : Option Bool
  /-- Whether the callback for completion cancels the delivery, if there is such a callback. -/
  onComplete : Option Bool

/-- What is to be delivered, over which connection, and to whom. -/
structure Subscription where
  schema : Schema
  request : Request
  settings : Settings
  /-- Whether the connection can push results. -/
  supportsPush : Bool
  /-- Why no stream can be opened, if so. -/
  openFault : Option Failure
  /-- Why a stream cannot be closed, if so. -/
  closeFault : Option Failure := none
  /-- Which document a text is. -/
  read : String → Option Document := Document.ofText?
  consumer : Consumer

/-- How results reach a delivery. -/
inductive Mode
  | push
  | poll
deriving DecidableEq, Repr

namespace Mode

/-- The name of a mode. -/
def text : Mode → String
  | .push => "push"
  | .poll => "poll"

end Mode

/-- What the task of a delivery is doing. -/
inductive Task
  /-- There is no task before the start. -/
  | absent
  /-- It has not run yet. -/
  | ready
  /-- It waits for the next answer of its stream. -/
  | listening
  /-- It waits for the answer to a fetch since a time. -/
  | fetching (since : Rat)
  /-- It waits until the time of the next fetch. -/
  | sleeping (due : Rat)
  | finished
deriving DecidableEq, Repr

/-- What can be seen of a delivery from outside. -/
inductive Event
  /-- A stream is opened. -/
  | opened (query : CompiledQuery)
  /-- A document is fetched. -/
  | fetched (query : CompiledQuery)
  | data (v : Value)
  | error (fault : Failure)
  | complete
  /-- The stream is closed, from either side. -/
  | streamClosed
  /-- A failure of the consumer that nobody handles. -/
  | escaped (fault : Failure)

/-- An event, with its time and the state that the delivery is in when it begins. -/
structure Observation where
  time : Rat
  lifecycle : Lifecycle
  event : Event

/-- The state of a delivery. -/
structure Delivery where
  lifecycle : Lifecycle
  mode : Option Mode
  query : Option CompiledQuery
  pacer : Option (Pacer Value Unit)
  task : Task
  /-- Whether the task is asked to stop. -/
  stopping : Bool
  /-- Whether the end is announced, once there is a start. -/
  closed : Option Bool
  /-- The number of values handed over. -/
  delivered : Nat
  /-- The number of fetches begun. -/
  fetches : Nat
  /-- The value that polling handed over last. -/
  last : Option Value
  trace : List Observation

/-- What a delivery answers to. -/
inductive Signal
  | start
  | cancel
  /-- The task runs for the first time. -/
  | run
  /-- The stream brings an answer, or fails. -/
  | item (result : Except Failure Answer)
  /-- The stream ends. -/
  | finish
  /-- The fetch brings an answer, or fails. -/
  | outcome (result : Except Failure Answer)
  /-- The time between two fetches is over. -/
  | wake
  /-- The timer of the pacer runs out. -/
  | timer
  /-- A task that is asked to stop does so. -/
  | interrupt

namespace Delivery

/-- A delivery before its start. -/
def idle : Delivery := ⟨.idle, none, none, none, .absent, false, none, 0, 0, none, []⟩

/-- Whether a delivery is active. -/
def isActive (d : Delivery) : Bool := d.lifecycle == .active

/-- Records an event. -/
def record (d : Delivery) (now : Rat) (e : Event) : Delivery :=
  { d with trace := d.trace ++ [⟨now, d.lifecycle, e⟩] }

/-- Whether there is a task that has not finished. -/
def isRunning (d : Delivery) : Bool := d.task != .absent && d.task != .finished

/-! ### The end of a delivery -/

/-- Ends a delivery in a final state: its pacer stops and its end is announced. -/
def shutDown (d : Delivery) (lifecycle : Lifecycle) : Delivery :=
  { d with
    lifecycle
    pacer := d.pacer.map Pacer.cancel
    closed := d.closed.map fun _ => true }

/-- Cancels a delivery; its task is asked to stop. -/
def cancel (d : Delivery) : Delivery :=
  if d.lifecycle.isFinal then d
  else { d.shutDown .cancelled with stopping := d.stopping || d.isRunning }

/-- Calls a callback that may be absent: an event, after which it may cancel. -/
def callBack (d : Delivery) (now : Rat) (callback : Option Bool) (e : Event) : Delivery :=
  match callback with
  | none => d
  | some cancels => if cancels then (d.record now e).cancel else d.record now e

/-- Ends an active delivery by an error. -/
def fail (s : Subscription) (d : Delivery) (now : Rat) (fault : Failure) : Delivery :=
  if d.isActive then (d.shutDown .errored).callBack now s.consumer.onError (.error fault) else d

/-- Ends an active delivery after its last result. -/
def complete (s : Subscription) (d : Delivery) (now : Rat) : Delivery :=
  if d.isActive then (d.shutDown .completed).callBack now s.consumer.onComplete .complete else d

/-- The task finishes. -/
def finishTask (d : Delivery) : Delivery := { d with task := .finished, stopping := false }

/-- The task closes its stream and finishes. If the stream cannot be closed, the task finishes all
the same. -/
def closeStream (d : Delivery) (now : Rat) : Delivery := (d.record now .streamClosed).finishTask

/-! ### Handing values over -/

/-- A value is handed to the consumer. -/
def handed (d : Delivery) (now : Rat) (v : Value) : Delivery :=
  { d.record now (.data v) with delivered := d.delivered + 1 }

/-- What the consumer does when it is handed the next value. -/
def reaction (s : Subscription) (d : Delivery) (v : Value) : Reaction :=
  s.consumer.onData (d.delivered + 1) v

/-- Hands a value to the consumer, if the delivery is active, and tells whether that failed. -/
def deliver (s : Subscription) (d : Delivery) (now : Rat) (v : Value) :
    Delivery × Option Failure :=
  if d.isActive then
    (if (d.reaction s v).cancels then (d.handed now v).cancel else d.handed now v,
      (d.reaction s v).fault)
  else (d, none)

/-- Hands a value over if there is one. -/
def deliverAny (s : Subscription) (d : Delivery) (now : Rat) (v : Option Value) :
    Delivery × Option Failure :=
  match v with
  | none => (d, none)
  | some v => d.deliver s now v

/-- The value of the request in a result. -/
def extract (s : Subscription) (d : Delivery) (result : Except Failure Answer) :
    Except Failure Value := do
  let answer ← result
  let data ← answer.check
  Outcome.extract ((d.query.map CompiledQuery.field).getD "") s.request.collection
    s.request.isAggregate data

/-! ### Starting -/

/-- Whether results are pushed. -/
def usesPush (s : Subscription) : Bool := s.settings.pushEnabled.isTruthy && s.supportsPush

/-- The pacer of a subscription whose results are pushed. -/
def pacerOf (s : Subscription) : Pacer Value Unit :=
  .fresh (Settings.milliseconds s.settings.deliveryInterval)

/-- The operation that a mode compiles the request to. -/
def actionOf : Mode → Action
  | .push => .subscription
  | .poll => .query

/-- The mode of a subscription. -/
def modeOf (s : Subscription) : Mode := if usesPush s then .push else .poll

/-- The delivery once a query is compiled. -/
def started (s : Subscription) (d : Delivery) (query : CompiledQuery) : Delivery :=
  { d with
    lifecycle := .active
    mode := some (modeOf s)
    query := some query
    pacer := if modeOf s = .push then some (pacerOf s) else d.pacer
    task := .ready
    closed := some false }

/-- The request in the form that the mode of the subscription asks for. -/
def requestOf (s : Subscription) : Request := s.request.withAction (actionOf (modeOf s))

/-- Checks that there can be a pacer, if one is needed. -/
def checkPacer (s : Subscription) : Except Failure Unit :=
  if modeOf s = .push then
    Failure.ofShape ((Settings.seconds s.settings.deliveryInterval).map fun _ => ())
  else .ok ()

/-- Starts a delivery. It must be idle, and the request must compile. -/
def start (s : Subscription) (d : Delivery) : Except Failure Delivery :=
  if d.lifecycle ≠ .idle then .error (.misuse (.notIdle d.lifecycle))
  else do
    let query ← s.schema.compileBy s.read (requestOf s)
    checkPacer s
    .ok (started s d query)

/-- The subscription after an attempt to start a delivery, which compiles its request if the
delivery is idle. -/
def attempted (s : Subscription) (d : Delivery) : Subscription :=
  if d.lifecycle ≠ .idle then s else { s with schema := s.schema.afterCompiling (requestOf s) }

/-- The state in which a delivery ended, once its end is announced. Before the start there is no
end to wait for, unless the delivery is cancelled. -/
def ending? (d : Delivery) : Except Failure (Option Lifecycle) :=
  match d.closed with
  | none => if d.lifecycle.isFinal then .ok (some d.lifecycle) else .error (.misuse .neverStarted)
  | some closed => .ok (if closed then some d.lifecycle else none)

/-! ### Pushed results -/

/-- The task opens its stream. -/
def openStream (s : Subscription) (d : Delivery) (now : Rat) (query : CompiledQuery) : Delivery :=
  let d := d.record now (.opened query)
  match s.openFault with
  | some fault => (d.fail s now fault).finishTask
  | none => { d with task := .listening }

/-- A value comes to the pacer, which has it delivered or keeps it. -/
def pushValue (s : Subscription) (d : Delivery) (now : Rat) (v : Value) :
    Delivery × Option Failure :=
  match d.pacer with
  | none => (d, none)
  | some p =>
    let (p, out) := p.push now v
    deliverAny s { d with pacer := some p } now out

/-- An answer of the stream: its value is pushed. An error in the answer or a failure of the
consumer ends the delivery. -/
def takeAnswer (s : Subscription) (d : Delivery) (now : Rat) (answer : Answer) : Delivery :=
  match d.extract s (.ok answer) with
  | .error fault => (d.fail s now fault).closeStream now
  | .ok v =>
    match d.pushValue s now v with
    | (d, some fault) => (d.fail s now fault).closeStream now
    | (d, none) => d

/-- The stream brings an answer, or fails. -/
def takeItem (s : Subscription) (d : Delivery) (now : Rat) (result : Except Failure Answer) :
    Delivery :=
  match result with
  | .error fault => (d.closeStream now).fail s now fault
  | .ok answer => if d.isActive then d.takeAnswer s now answer else d.closeStream now

/-- The callback of a drained pacer completes the delivery. -/
def completeIf (s : Subscription) (d : Delivery) (now : Rat) (callback : Option Unit) : Delivery :=
  match callback with
  | none => d
  | some () => d.complete s now

/-- The stream ends: the delivery is complete once no value waits. If the stream cannot be closed,
that ends the task and leaves the delivery as it is. -/
def endStream (s : Subscription) (d : Delivery) (now : Rat) : Delivery :=
  let d := d.closeStream now
  if s.closeFault.isSome then d
  else if d.isActive then
    match d.pacer with
    | none => d
    | some p =>
      let (p, callback) := p.drain ()
      completeIf s { d with pacer := some p } now callback
  else d

/-- The value that waited is handed over, and then the callback that waits is called. A failure of
the consumer escapes, and the callback is not called. -/
def handOver (s : Subscription) (d : Delivery) (now : Rat) (v : Option Value) : Delivery :=
  match deliverAny s d now v with
  | (d, some fault) => d.record now (.escaped fault)
  | (d, none) =>
    match d.pacer with
    | none => d
    | some p =>
      let (p, callback) := p.settle
      completeIf s { d with pacer := some p } now callback

/-- The timer of the pacer, if it is set, runs out. -/
def expire (s : Subscription) (d : Delivery) (now : Rat) : Delivery :=
  match d.pacer with
  | none => d
  | some p =>
    if p.due.isSome then
      let (p, out) := p.expire now
      handOver s { d with pacer := some p } now out
    else d

/-! ### Fetched results -/

/-- The task fetches the document, if the delivery is active. -/
def fetch (d : Delivery) (now : Rat) (query : CompiledQuery) : Delivery :=
  if d.isActive then
    { d.record now (.fetched query) with task := .fetching now, fetches := d.fetches + 1 }
  else d.finishTask

/-- Whether a fetched value is news: there was none before, or it differs from the last one. -/
def isNews (d : Delivery) (v : Value) : Bool :=
  match d.last with
  | none => true
  | some last => !v.equals last

/-- The task waits for the next fetch; it ends when that is too far away to be told in seconds. -/
def sleep (s : Subscription) (d : Delivery) (now : Rat) : Delivery :=
  match Settings.seconds s.settings.pollInterval with
  | .ok _ => { d with task := .sleeping (now + Settings.milliseconds s.settings.pollInterval) }
  | .error _ => d.finishTask

/-- A fetched value is handed over if it is news. A failure of the consumer ends the task and leaves
the delivery as it is. -/
def takeValue (s : Subscription) (d : Delivery) (now : Rat) (v : Value) : Delivery :=
  if d.isNews v then
    match deliver s { d with last := some v } now v with
    | (d, some _) => d.finishTask
    | (d, none) => d.sleep s now
  else d.sleep s now

/-- The fetch brings an answer, or fails. -/
def takeOutcome (s : Subscription) (d : Delivery) (now : Rat) (result : Except Failure Answer) :
    Delivery :=
  match d.extract s result with
  | .error fault => (d.fail s now fault).finishTask
  | .ok v => d.takeValue s now v

/-! ### Signals -/

/-- The task runs for the first time. -/
def run (s : Subscription) (d : Delivery) (now : Rat) : Delivery :=
  match d.query with
  | none => d
  | some query => if d.mode = some .push then d.openStream s now query else d.fetch now query

/-- The time for the next fetch has come. -/
def wake (d : Delivery) (now : Rat) : Delivery :=
  match d.query with
  | none => d
  | some query => d.fetch now query

/-- A task that is asked to stop does so; an open stream is closed. -/
def interrupt (d : Delivery) (now : Rat) : Delivery :=
  if d.stopping then
    if d.task = .listening then d.closeStream now else d.finishTask
  else d

/-- The task goes on after a signal that it waits for; any other signal changes nothing. -/
def resume (s : Subscription) (d : Delivery) (now : Rat) (signal : Signal) : Delivery :=
  match signal, d.task with
  | .run, .ready => d.run s now
  | .item result, .listening => d.takeItem s now result
  | .finish, .listening => d.endStream s now
  | .outcome result, .fetching _ => d.takeOutcome s now result
  | .wake, .sleeping _ => d.wake now
  | _, _ => d

/-- The delivery after a signal at a time. A task that is asked to stop does not go on. -/
def step (s : Subscription) (d : Delivery) (now : Rat) (signal : Signal) : Delivery :=
  match signal with
  | .start => match d.start s with
    | .ok d => d
    | .error _ => d
  | .cancel => d.cancel
  | .timer => d.expire s now
  | .interrupt => d.interrupt now
  | signal => if d.stopping then d.interrupt now else d.resume s now signal

/-! ### Laws of single steps -/

theorem step_start_of_error {s : Subscription} {d : Delivery} {fault : Failure}
    (h : d.start s = .error fault) (now : Rat) : d.step s now .start = d := by
  simp [step, h]

theorem step_start_of_ok {s : Subscription} {d d' : Delivery} (h : d.start s = .ok d') (now : Rat) :
    d.step s now .start = d' := by
  simp [step, h]

theorem start_of_not_idle {s : Subscription} {d : Delivery} (h : d.lifecycle ≠ .idle) :
    d.start s = .error (.misuse (.notIdle d.lifecycle)) := by
  simp [start, h]

theorem cancel_of_final {d : Delivery} (h : d.lifecycle.isFinal = true) : d.cancel = d := by
  simp [cancel, h]

theorem deliver_of_not_active {s : Subscription} {d : Delivery} (h : d.isActive = false) (now : Rat)
    (v : Value) : d.deliver s now v = (d, none) := by
  simp [deliver, h]

theorem fail_of_not_active {s : Subscription} {d : Delivery} (h : d.isActive = false) (now : Rat)
    (fault : Failure) : d.fail s now fault = d := by
  simp [fail, h]

theorem complete_of_not_active {s : Subscription} {d : Delivery} (h : d.isActive = false)
    (now : Rat) : d.complete s now = d := by
  simp [complete, h]

end Delivery

end GraphRequest
