import GraphRequest.Proofs.Delivery.Calls
import GraphRequest.Proofs.Delivery.Latest
import GraphRequest.Proofs.Delivery.Slips

/-!
# Streams that end

While a delivery listens to its stream, its pacer goes on as a pacing does: an answer is a value
that comes, and a timer that runs out hands a value over. So all that is known of pacings holds of
the values that are handed over. When the stream ends, the end is told at once, or after the value
that waits.

* `Listens`: a delivery goes on as a pacing does.
* `Session.ended_of_stream`: a stream that ends normally is delivered to its end.
-/

namespace GraphRequest

namespace Delivery

variable {s : Subscription} {d : Delivery} {now : Rat} {query : CompiledQuery}
  {g : Pacing Value Unit} {values : List Value}

/-- A delivery listens to its stream. Its pacer is the one of a pacing, and it has handed over what
the pacing delivered. -/
structure Listens (query : CompiledQuery) (g : Pacing Value Unit) (d : Delivery) : Prop where
  active : d.lifecycle = .active
  task : d.task = .listening
  unasked : d.stopping = false
  unclosed : d.closed = some false
  query : d.query = some query
  pacer : d.pacer = some g.pacer
  unwaited : g.pacer.waiting = none
  calls : d.calls = g.deliveries.map fun x => (x.1, .data x.2)

/-! ### Answers -/

/-- A value that comes is handed over if the pacer lets it through. -/
theorem pushValue_of_calm (calm : s.consumer.Calm) (active : d.isActive = true)
    {p : Pacer Value Unit} (has : d.pacer = some p) (v : Value) :
    d.pushValue s now v =
      ((p.push now v).2.elim { d with pacer := some (p.push now v).1 }
        (handed { d with pacer := some (p.push now v).1 } now), none) := by
  unfold pushValue
  rw [has]
  exact deliverAny_of_calm (d := { d with pacer := some (p.push now v).1 }) calm active _

theorem step_item_of_calm (calm : s.consumer.Calm) (active : d.isActive = true)
    (task : d.task = .listening) (unasked : d.stopping = false) {p : Pacer Value Unit}
    (has : d.pacer = some p) {result : Except Failure Answer} {v : Value}
    (value : d.extract s result = .ok v) :
    d.step s now (.item result) =
      (p.push now v).2.elim { d with pacer := some (p.push now v).1 }
        (handed { d with pacer := some (p.push now v).1 } now) := by
  have goes : d.step s now (.item result) = d.takeItem s now result := by
    simp [step, resume, unasked, task]
  rw [goes]
  cases result with
  | error fault => cases value
  | ok answer =>
    unfold takeItem takeAnswer
    simp only [active, if_true, value, pushValue_of_calm calm active has]

theorem Listens.item (h : Listens query g d) (calm : s.consumer.Calm)
    {result : Except Failure Answer} {v : Value} (value : d.extract s result = .ok v) (now : Rat) :
    Listens query (g.push now v) (d.step s now (.item result)) := by
  have active : d.isActive = true := isActive_iff.2 h.active
  have pacer : (g.push now v).pacer = (g.pacer.push now v).1 := rfl
  have deliveries : (g.push now v).deliveries =
      g.deliveries ++ (g.pacer.push now v).2.toList.map (now, ·) :=
    Pacing.deliveries_deliver _ _ _
  have unwaited : (g.pacer.push now v).1.waiting = none := by
    obtain ⟨_, _, _, frame⟩ := g.pacer.push_frame now v
    rw [frame]
    exact h.unwaited
  rw [step_item_of_calm calm active h.task h.unasked h.pacer value]
  cases out : (g.pacer.push now v).2 with
  | none =>
    rw [out] at deliveries
    refine ⟨h.active, h.task, h.unasked, h.unclosed, h.query, by rw [pacer]; rfl, unwaited, ?_⟩
    rw [deliveries, Option.toList_none, List.map_nil, List.append_nil]
    exact h.calls
  | some w =>
    rw [out] at deliveries
    refine ⟨h.active, h.task, h.unasked, h.unclosed, h.query, by rw [pacer]; rfl, unwaited, ?_⟩
    rw [deliveries, List.map_append]
    refine (calls_handed { d with pacer := some (g.pacer.push now v).1 } now w).trans ?_
    show d.calls ++ _ = _
    rw [h.calls]
    rfl

/-! ### The timer -/

/-- When the timer runs out, the value that waits is handed over, and then the callback that waits
is called. -/
theorem expire_of_calm (now : Rat) (calm : s.consumer.Calm) (active : d.isActive = true)
    {p : Pacer Value Unit} (has : d.pacer = some p) (consistent : p.Consistent) {t : Rat}
    (set : p.due = some t) :
    ∃ v, p.pending = some v ∧
      d.expire s now = completeIf s
        { d.handed now v with pacer := some (p.expire now).1.settle.1 } now p.waiting := by
  obtain ⟨v, waits, runs, expires⟩ := consistent.expire_eq now set
  have out : (p.expire now).2 = some v := by rw [expires]
  have calls : (p.expire now).1.settle.2 = p.waiting := by
    rw [expires]
    simp [Pacer.settle, runs]
  have hands : deliverAny s { d with pacer := some (p.expire now).1 } now (some v) =
      (handed { d with pacer := some (p.expire now).1 } now v, none) :=
    deliverAny_of_calm (d := { d with pacer := some (p.expire now).1 }) calm active (some v)
  refine ⟨v, waits, ?_⟩
  unfold expire
  simp only [has, set, Option.isSome_some, if_true, out]
  unfold handOver
  rw [hands]
  show completeIf s _ now (p.expire now).1.settle.2 = _
  rw [calls]
  rfl

/-- The timer of a delivery that listens, if it is set, runs out as the timer of the pacing does. -/
theorem Listens.timer (h : Listens query g d) (calm : s.consumer.Calm) (spaced : g.Spaced)
    (timely : ∀ due ∈ g.pacer.due, due ≤ now) :
    ∃ due, Listens query (g.step now (.timer due)) (d.step s now .timer) := by
  have active : d.isActive = true := isActive_iff.2 h.active
  show ∃ due, Listens query (g.step now (.timer due)) (d.expire s now)
  cases set : g.pacer.due with
  | none =>
    have unset : ∀ p ∈ d.pacer, p.due = none := by
      rw [h.pacer]
      rintro _ ⟨⟩
      exact set
    have rests : g.step now (.timer 0) = g := by
      apply if_neg
      rw [spaced.timers, set]
      simp
    refine ⟨0, ?_⟩
    rw [rests, expire_of_due unset]
    exact h
  | some due =>
    have mine : due ∈ g.timers := by
      rw [spaced.timers, set]
      simp
    have fires : g.step now (.timer due) = g.expire now due := if_pos ⟨mine, timely due set⟩
    obtain ⟨v, waits, expires⟩ :=
      expire_of_calm now calm active h.pacer spaced.consistent set
    obtain ⟨w, waits', _, _, deliveries⟩ := spaced.deliveries_expire mine now
    cases waits.symm.trans waits'
    refine ⟨due, ?_⟩
    rw [fires, expires, h.unwaited]
    refine ⟨h.active, h.task, h.unasked, h.unclosed, h.query, rfl, rfl, ?_⟩
    rw [deliveries, List.map_append]
    refine (calls_handed d now v).trans ?_
    rw [h.calls]
    rfl

/-! ### The end -/

/-- A delivery that ended well: of the values that came it handed over the first and the last one
and some between them, an interval apart, and then it completed. -/
structure EndsWell (s : Subscription) (values : List Value) (d : Delivery) : Prop where
  among : (d.deliveries.map Prod.snd).Sublist values
  first : (d.deliveries.map Prod.snd).head? = values.head?
  last : (d.deliveries.map Prod.snd).getLast? = values.getLast?
  spaced : d.deliveries.IsChain fun x y =>
    x.1 + Settings.milliseconds s.settings.deliveryInterval ≤ y.1
  /-- The consumer is called with the values, then once with the end, and with nothing else. -/
  calls : ∃ now, d.calls = d.deliveries.map (fun x => (x.1, Event.data x.2)) ++
    s.consumer.onComplete.toList.map fun _ => (now, Event.complete)
  completed : d.lifecycle = .completed
  closed : d.closed = some true

/-- A delivery that hands over what a pacing delivers ends well when it completes. -/
theorem endsWell_of_complete (current : g.Current values)
    (interval : g.pacer.interval = Settings.milliseconds s.settings.deliveryInterval)
    (idle : g.pacer.pending = none) (active : d.isActive = true) (unclosed : d.closed = some false)
    (calls : d.calls = g.deliveries.map fun x => (x.1, .data x.2)) :
    EndsWell s values (d.complete s now) := by
  have completes : d.complete s now =
      (d.shutDown .completed).callBack now s.consumer.onComplete .complete := if_pos active
  have told : (d.complete s now).Told g.deliveries
      (s.consumer.onComplete.toList.map fun _ => (now, .complete)) := by
    refine ⟨?_, by simp [Event.value?]⟩
    rw [completes, calls_callBack d now rfl _ rfl, calls]
  have delivered : (d.complete s now).deliveries.map Prod.snd = g.delivered := by
    rw [told.deliveries_eq]
    rfl
  obtain ⟨trace, frame⟩ :=
    callBack_frame d now (l := .completed) rfl s.consumer.onComplete .complete
  refine ⟨?_, ?_, ?_, ?_, ⟨now, ?_⟩, ?_, ?_⟩
  · rw [delivered]
    exact current.among
  · rw [delivered]
    exact current.first
  · rw [delivered]
    exact current.last idle
  · rw [told.deliveries_eq, ← interval]
    exact current.spaced.spaced
  · rw [told.deliveries_eq]
    exact told.calls
  · rw [completes, frame]
    rfl
  · rw [completes, frame]
    show d.closed.map _ = _
    rw [unclosed]
    rfl

/-- A delivery that completes has no timer left. -/
theorem due_of_complete (active : d.isActive = true) :
    ∀ p ∈ (d.complete s now).pacer, p.due = none := by
  obtain ⟨trace, frame⟩ :=
    callBack_frame d now (l := .completed) rfl s.consumer.onComplete .complete
  rw [complete, if_pos active, frame]
  intro p has
  obtain ⟨_, _, rfl⟩ := Option.mem_map.1 has
  rfl

theorem step_finish_of_listens (h : Listens query g d) (closes : s.closeFault = none) (now : Rat) :
    d.step s now .finish = completeIf s
      { d.closeStream now with pacer := some (g.pacer.drain ()).1 } now (g.pacer.drain ()).2 := by
  have active : (d.closeStream now).isActive = true := isActive_iff.2 h.active
  have has : (d.closeStream now).pacer = some g.pacer := h.pacer
  rw [step_finish h.unasked h.task, endStream]
  simp only [closes, Option.isSome_none, Bool.false_eq_true, if_false, active, if_true, has]

/-- A delivery that awaits its end ends well when the timer runs out. -/
theorem endsWell_of_expire (calm : s.consumer.Calm) (active : d.isActive = true)
    (unclosed : d.closed = some false) (current : g.Current values)
    (interval : g.pacer.interval = Settings.milliseconds s.settings.deliveryInterval)
    (has : d.pacer = some g.pacer) (waits : g.pacer.waiting = some ())
    (calls : d.calls = g.deliveries.map fun x => (x.1, .data x.2)) {due : Rat}
    (set : g.pacer.due = some due) (timely : due ≤ now) :
    EndsWell s values (d.expire s now) := by
  have mine : due ∈ g.timers := by
    rw [current.spaced.timers, set]
    simp
  have fires : g.step now (.timer due) = g.expire now due := if_pos ⟨mine, timely⟩
  obtain ⟨v, pending, expires⟩ :=
    expire_of_calm now calm active has current.spaced.consistent set
  obtain ⟨w, pending', _, pacer, deliveries⟩ := current.spaced.deliveries_expire mine now
  cases pending.symm.trans pending'
  have current' : (g.expire now due).Current values := by
    have next := current.step now (x := .timer due) rfl
    rw [fires] at next
    exact (List.append_nil values) ▸ next
  have interval' : (g.expire now due).pacer.interval = g.pacer.interval := by
    rw [← fires]
    exact Pacing.interval_step g now (.timer due)
  have idle : (g.expire now due).pacer.pending = none := by
    show (g.pacer.expire now).1.pending = none
    rw [pacer]
  rw [expires, waits]
  refine endsWell_of_complete current' (interval'.trans interval) idle active unclosed ?_
  rw [deliveries, List.map_append]
  refine (calls_handed d now v).trans ?_
  rw [calls]
  rfl

/-- A stream ends, and the timer runs out if it is set. -/
theorem Listens.endsWell (h : Listens query g d) (calm : s.consumer.Calm)
    (closes : s.closeFault = none) (current : g.Current values)
    (interval : g.pacer.interval = Settings.milliseconds s.settings.deliveryInterval)
    {later : Rat} (timely : ∀ p ∈ (d.step s now .finish).pacer, ∀ due ∈ p.due, due ≤ later) :
    EndsWell s values ((d.step s now .finish).step s later .timer) := by
  have ends := step_finish_of_listens h closes now
  have silent : (d.closeStream now).calls = g.deliveries.map fun x => (x.1, .data x.2) :=
    (calls_closeStream d now).trans h.calls
  have active : (d.closeStream now).isActive = true := isActive_iff.2 h.active
  show EndsWell s values ((d.step s now .finish).expire s later)
  cases set : g.pacer.due with
  | none =>
    -- no value waits, so the end is told at once and the timer has nothing to do
    have drained : g.pacer.drain () = (g.pacer, some ()) := by
      simp [Pacer.drain, current.runs, set]
    rw [drained] at ends
    have completes : d.step s now .finish =
        complete s { d.closeStream now with pacer := some g.pacer } now := ends
    have unset : ∀ p ∈ (d.step s now .finish).pacer, p.due = none := by
      rw [completes]
      exact due_of_complete active
    rw [expire_of_due unset, completes]
    exact endsWell_of_complete current interval (current.spaced.consistent.pending_eq_none set)
      active h.unclosed silent
  | some due =>
    have drained : g.pacer.drain () = ((g.pacer.drain ()).1, none) := by
      simp [Pacer.drain, current.runs, set]
    have pacer : (g.pacer.drain ()).1 = { g.pacer with waiting := some () } := by
      simp [Pacer.drain, current.runs, set]
    rw [drained] at ends
    have awaits : d.step s now .finish =
        { d.closeStream now with pacer := some (g.pacer.drain ()).1 } := ends
    have current' : (g.drain now ()).Current values :=
      (List.append_nil values) ▸ current.step now (x := .drain ()) rfl
    have set' : (g.drain now ()).pacer.due = some due := by
      show (g.pacer.drain ()).1.due = _
      rw [pacer]
      exact set
    rw [awaits] at timely ⊢
    refine endsWell_of_expire calm active h.unclosed current' ?_ rfl ?_ ?_ set'
      (timely _ rfl due set')
    · exact (Pacing.interval_step g now (.drain ())).trans interval
    · show (g.pacer.drain ()).1.waiting = _
      rw [pacer]
    · have same : (g.drain now ()).deliveries = g.deliveries := Pacing.deliveries_call _ _ _
      rw [same]
      exact silent

/-! ### The start -/

/-- The stream of a delivery is opened. -/
theorem listens_run (now : Rat) {s' : Subscription} (pushes : usesPush s = true)
    (opens : s'.openFault = none) (starts : (idle.step s now .start).isActive = true)
    (later : Rat) :
    ∃ query, (idle.step s now .start).query = some query ∧
      Listens query (.fresh (Settings.milliseconds s.settings.deliveryInterval))
        ((idle.step s now .start).step s' later .run) := by
  cases result : idle.start s with
  | error fault =>
    rw [step_start_of_error result] at starts
    cases starts
  | ok d' =>
    rw [step_start_of_ok result]
    obtain ⟨query, _, _, rfl⟩ := start_eq_ok result
    have mode : modeOf s = .push := if_pos pushes
    refine ⟨query, rfl, ?_⟩
    have goes : (started s idle query).step s' later .run =
        { (started s idle query).record later (.opened query) with task := .listening } := by
      have opened : (started s idle query).step s' later .run =
          (started s idle query).openStream s' later query :=
        if_pos (congrArg some mode)
      rw [opened, openStream]
      simp only [opens]
    rw [goes]
    refine ⟨rfl, rfl, rfl, rfl, rfl, ?_, rfl, rfl⟩
    show (if modeOf s = .push then some (pacerOf s) else _) = _
    rw [if_pos mode]
    rfl

end Delivery

namespace Session

/-- Whether no timer of a pacer runs out before the time that it is set for. -/
def isTimely (c : Session) : List (Rat × Signal) → Bool
  | [] => true
  | x :: rest =>
    (match x.2 with
      | .timer => c.delivery.pacer.all fun p => p.due.all fun due => decide (due ≤ x.1)
      | _ => true) && isTimely (c.step x.1 x.2) rest

/-- What a stream brings: answers with the values that are read from them. The timer of the pacer
may run out between them. -/
inductive Brings (read : Except Failure Answer → Except Failure Value) :
    List (Rat × Signal) → List Value → Prop
  | nil : Brings read [] []
  | item {result : Except Failure Answer} {v : Value} {signals : List (Rat × Signal)}
      {values : List Value} (now : Rat) (value : read result = .ok v)
      (rest : Brings read signals values) :
      Brings read ((now, .item result) :: signals) (v :: values)
  | timer {signals : List (Rat × Signal)} {values : List Value} (now : Rat)
      (rest : Brings read signals values) : Brings read ((now, .timer) :: signals) values

variable {c : Session} {query : CompiledQuery} {g : Pacing Value Unit} {values : List Value}

theorem due_le_of_isTimely {now : Rat} {rest : List (Rat × Signal)}
    (timely : c.isTimely ((now, .timer) :: rest) = true) :
    ∀ p ∈ c.delivery.pacer, ∀ due ∈ p.due, due ≤ now := by
  intro p has due set
  rw [isTimely, Bool.and_eq_true, has] at timely
  simpa [Option.mem_def.1 set] using timely.1

theorem isTimely_append (c : Session) (signals more : List (Rat × Signal)) :
    c.isTimely (signals ++ more) = (c.isTimely signals && (c.steps signals).isTimely more) := by
  induction signals generalizing c with
  | nil => rfl
  | cons x rest ih =>
    rw [List.cons_append, isTimely, isTimely, ih, Bool.and_assoc]
    rfl

/-- A delivery goes on listening while its stream brings values. -/
theorem listens_steps {signals : List (Rat × Signal)} {more : List Value}
    (h : Delivery.Listens query g c.delivery) (calm : c.subscription.consumer.Calm)
    (current : g.Current values)
    (brings : Brings (c.delivery.extract c.subscription) signals more)
    (timely : c.isTimely signals = true) :
    (c.steps signals).subscription = c.subscription ∧
      ∃ g' : Pacing Value Unit, g'.Current (values ++ more) ∧
        g'.pacer.interval = g.pacer.interval ∧
        Delivery.Listens query g' (c.steps signals).delivery := by
  induction signals generalizing c g values more with
  | nil =>
    cases brings
    refine ⟨rfl, g, ?_, rfl, h⟩
    rw [List.append_nil]
    exact current
  | cons x rest ih =>
    have timely' : (c.step x.1 x.2).isTimely rest = true := by
      rw [isTimely, Bool.and_eq_true] at timely
      exact timely.2
    cases brings with
    | @item result v _ values' now value brings =>
      have listens := h.item calm value now
      have same := Delivery.extract_eq (s := c.subscription) rfl (h.query.trans listens.query.symm)
      rw [same] at brings
      obtain ⟨unchanged, g', current', interval, listens'⟩ := ih (c := c.step now (.item result))
        listens calm (current.step now (x := .push v) rfl) brings timely'
      refine ⟨unchanged, g', ?_, interval.trans (Pacing.interval_step g now (.push v)), listens'⟩
      simpa [Happening.value?] using current'
    | timer now brings =>
      have reached := due_le_of_isTimely timely g.pacer h.pacer
      obtain ⟨due, listens⟩ := h.timer calm current.spaced reached
      have same := Delivery.extract_eq (s := c.subscription) rfl (h.query.trans listens.query.symm)
      rw [same] at brings
      obtain ⟨unchanged, g', current', interval, listens'⟩ := ih (c := c.step now .timer)
        listens calm (current.step now (x := .timer due) rfl) brings timely'
      refine ⟨unchanged, g', ?_, interval.trans (Pacing.interval_step g now (.timer due)), listens'⟩
      simpa [Happening.value?] using current'

/-- A delivery that listens ends well when its stream brings values and ends. -/
theorem endsWell_steps {during : List (Rat × Signal)} {ending later : Rat}
    (h : Delivery.Listens query g c.delivery) (calm : c.subscription.consumer.Calm)
    (closes : c.subscription.closeFault = none) (current : g.Current [])
    (interval : g.pacer.interval = Settings.milliseconds c.subscription.settings.deliveryInterval)
    (brings : Brings (c.delivery.extract c.subscription) during values)
    (timely : c.isTimely (during ++ [(ending, Signal.finish), (later, Signal.timer)]) = true) :
    Delivery.EndsWell c.subscription values
      (c.steps (during ++ [(ending, Signal.finish), (later, Signal.timer)])).delivery := by
  rw [isTimely_append, Bool.and_eq_true] at timely
  obtain ⟨unchanged, g', current', interval', listens⟩ :=
    listens_steps h calm current brings timely.1
  have ends : ((c.steps during).step ending .finish).isTimely [(later, .timer)] = true := by
    simpa [isTimely] using timely.2
  have reached := due_le_of_isTimely ends
  rw [steps_append]
  rw [← unchanged] at calm closes interval ⊢
  exact listens.endsWell calm closes current' (interval'.trans interval) reached

/-- The stream of a session is opened. Only the schema of the subscription may change by that. -/
theorem listens_opened {s : Subscription} {starting : Rat} (pushes : Delivery.usesPush s = true)
    (opens : s.openFault = none)
    (starts : ((idle s).step starting .start).delivery.isActive = true) (running : Rat) :
    let c := ((idle s).step starting .start).step running .run
    ∃ schema query, c.subscription = { s with schema } ∧
      ((idle s).step starting .start).delivery.query = some query ∧
      Delivery.Listens query (.fresh (Settings.milliseconds s.settings.deliveryInterval))
        c.delivery := by
  obtain ⟨schema, same⟩ := (idle s).exists_schema starting .start
  have opens' : ((idle s).step starting .start).subscription.openFault = none := by
    rw [same]
    exact opens
  obtain ⟨query, asks, listens⟩ := Delivery.listens_run starting pushes opens' starts running
  exact ⟨schema, query, same, asks, listens⟩

/-- A stream that ends normally is delivered to its end: the first and the last of its values are
handed over and some between them, an interval apart, and after the last one the delivery completes.
At the end the timer runs out, if it is set; it never runs out early. -/
theorem ended_of_stream (s : Subscription) {starting running ending later : Rat}
    {during : List (Rat × Signal)} {values : List Value}
    (pushes : Delivery.usesPush s = true) (opens : s.openFault = none)
    (closes : s.closeFault = none) (calm : s.consumer.Calm)
    (starts : ((idle s).step starting .start).delivery.isActive = true)
    (brings : Brings (((idle s).step starting .start).delivery.extract s) during values)
    (timely : (idle s).isTimely ((starting, .start) :: (running, .run) :: during ++
      [(ending, .finish), (later, .timer)]) = true) :
    Delivery.EndsWell s values ((idle s).steps ((starting, .start) :: (running, .run) :: during ++
      [(ending, .finish), (later, .timer)])).delivery := by
  have timely' : (((idle s).step starting .start).step running .run).isTimely
      (during ++ [(ending, Signal.finish), (later, Signal.timer)]) = true := timely
  obtain ⟨schema, query, subscription, asks, listens⟩ :=
    listens_opened pushes opens starts running
  show Delivery.EndsWell s values ((((idle s).step starting .start).step running .run).steps
    (during ++ [(ending, Signal.finish), (later, Signal.timer)])).delivery
  have ends : Delivery.EndsWell { s with schema } values
      ((((idle s).step starting .start).step running .run).steps
        (during ++ [(ending, Signal.finish), (later, Signal.timer)])).delivery := by
    rw [← subscription]
    apply endsWell_steps listens _ _ (Pacing.current_fresh _) _ _ timely'
    · rw [subscription]
      exact calm
    · rw [subscription]
      exact closes
    · rw [subscription]
      rfl
    · rw [Delivery.extract_eq (t := s) (by rw [subscription]) (listens.query.trans asks.symm)]
      exact brings
  exact ⟨ends.among, ends.first, ends.last, ends.spaced, ends.calls, ends.completed, ends.closed⟩

end Session

namespace Sample

/-- An answer whose users are a number. -/
def counted (n : Int) : Except Failure Answer := .ok ⟨.obj [("users", .int n)], .null⟩

/-- Four answers come, of which the second and the third find the pacer busy, as does the last. -/
def streamed : List (Rat × Signal) :=
  [(0, .item (counted 1)), (100, .item (counted 2)), (250, .item (counted 3)), (1000, .timer),
    (1200, .item (counted 4))]

end Sample

namespace Session

/-- The values of the sample stream are delivered, the second one excepted. -/
theorem ended_of_stream_counted :
    let s := Sample.subscription true fun _ => ⟨false, none⟩
    let values : List Value := [.int 1, .int 2, .int 3, .int 4]
    let signals := (0, .start) :: (0, .run) :: Sample.streamed ++ [(1300, .finish), (2000, .timer)]
    Delivery.usesPush s = true ∧ s.openFault = none ∧ s.closeFault = none ∧ s.consumer.Calm ∧
      ((idle s).step 0 .start).delivery.isActive = true ∧
      Brings (((idle s).step 0 .start).delivery.extract s) Sample.streamed values ∧
      (idle s).isTimely signals = true ∧
      Delivery.EndsWell s values ((idle s).steps signals).delivery := by
  intro s values signals
  have pushes : Delivery.usesPush s = true := rfl
  have calm : s.consumer.Calm := fun _ _ => rfl
  obtain ⟨starts, field, timely⟩ : ((idle s).step 0 .start).delivery.isActive = true ∧
      ((idle s).step 0 .start).delivery.query.map CompiledQuery.field = some "users" ∧
      (idle s).isTimely signals = true := by decide +kernel
  have read (n : Int) :
      ((idle s).step 0 .start).delivery.extract s (Sample.counted n) = .ok (.int n) := by
    unfold Delivery.extract
    rw [field]
    rfl
  have brings : Brings (((idle s).step 0 .start).delivery.extract s) Sample.streamed values :=
    .item 0 (read 1) (.item 100 (read 2) (.item 250 (read 3) (.timer 1000
      (.item 1200 (read 4) .nil))))
  exact ⟨pushes, rfl, rfl, calm, starts, brings, timely,
    ended_of_stream s pushes rfl rfl calm starts brings timely⟩

end Session

end GraphRequest
