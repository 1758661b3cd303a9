import Mathlib.Data.List.Destutter
import GraphRequest.Proofs.Delivery.Calls
import GraphRequest.Value.Parts

/-!
# Deliveries that poll

A delivery that polls fetches again and again until a fetch fails. Of the values that were fetched
it hands over the changes: a value is left out if it equals the one handed over before it, whatever
was fetched between the two.

* `changes`: the values that polling hands over.
* `Course`: how far a delivery has come after some outcomes, kept by every signal.
* `Session.polled_of_steps`: the values handed over are the changes among the values fetched before
  the first failure, and that failure is the end.
-/

namespace GraphRequest

/-- Whether an event is the fetch of a document. -/
def Event.isFetch : Event → Bool
  | .fetched _ => true
  | _ => false

/-- Whether a task waits for the answer to a fetch. -/
def Task.isFetching : Task → Bool
  | .fetching _ => true
  | _ => false

/-! ### Changes -/

/-- A value differs from the one handed over before it. -/
def Value.Differs (last v : Value) : Prop := v.equals last = false

instance : DecidableRel Value.Differs := fun last v =>
  inferInstanceAs (Decidable (v.equals last = false))

/-- The values of a list, each one left out that equals the last one that is kept. -/
def changes (values : List Value) : List Value := values.destutter Value.Differs

section

variable {α : Type} {R : α → α → Prop} [DecidableRel R]

/-- What is kept begins with the first element. -/
theorem destutter'_head? (a : α) (l : List α) : (l.destutter' R a).head? = some a := by
  induction l generalizing a with
  | nil => rfl
  | cons b l ih =>
    by_cases h : R a b
    · rw [List.destutter'_cons_pos _ h, List.head?_cons]
    · rw [List.destutter'_cons_neg _ h, ih]

theorem destutter_head? (l : List α) : (l.destutter R).head? = l.head? := by
  cases l with
  | nil => rfl
  | cons a l => exact destutter'_head? a l

/-- One more element is compared with the last one that is kept. -/
theorem destutter'_concat (a : α) (l : List α) (x : α) :
    ∃ last, (l.destutter' R a).getLast? = some last ∧
      (l ++ [x]).destutter' R a = l.destutter' R a ++ if R last x then [x] else [] := by
  induction l generalizing a with
  | nil =>
    refine ⟨a, rfl, ?_⟩
    rw [List.nil_append, List.destutter'_singleton, List.destutter'_nil]
    split <;> rfl
  | cons b l ih =>
    rw [List.cons_append]
    by_cases h : R a b
    · obtain ⟨last, kept, next⟩ := ih b
      refine ⟨last, ?_, ?_⟩
      · rw [List.destutter'_cons_pos _ h, List.getLast?_cons, kept]
        rfl
      · rw [List.destutter'_cons_pos _ h, List.destutter'_cons_pos _ h, next]
        rfl
    · rw [List.destutter'_cons_neg _ h, List.destutter'_cons_neg _ h]
      exact ih a

end

namespace Delivery

variable {s : Subscription} {d : Delivery} {now : Rat} {query : CompiledQuery}
  {values : List Value}

/-- One more value is a change if it is news to a delivery that handed over the changes so far. -/
theorem changes_concat (last : d.last = (changes values).getLast?) (v : Value) :
    changes (values ++ [v]) = changes values ++ if d.isNews v then [v] else [] := by
  cases values with
  | nil =>
    have news : d.isNews v = true := by
      rw [isNews, last]
      rfl
    rw [news]
    rfl
  | cons a rest =>
    obtain ⟨w, kept, next⟩ := destutter'_concat (R := Value.Differs) a rest v
    have told : d.last = some w := last.trans kept
    have news : d.isNews v = true ↔ Value.Differs w v := by
      simp [isNews, told, Value.Differs]
    refine next.trans ?_
    show changes (a :: rest) ++ _ = _
    simp only [news]

/-- The last change equals the last value. -/
theorem equals_of_changes {v w : Value} (distinct : v.hasDistinctKeys = true)
    (last : values.getLast? = some v) (kept : (changes values).getLast? = some w) :
    v.equals w = true := by
  obtain ⟨before, rfl⟩ := List.getLast?_eq_some_iff.1 last
  cases before with
  | nil =>
    cases kept
    exact Value.equals_self distinct
  | cons a rest =>
    obtain ⟨u, kept', next⟩ := destutter'_concat (R := Value.Differs) a rest v
    have kept : ((rest ++ [v]).destutter' Value.Differs a).getLast? = some w := kept
    rw [next] at kept
    split at kept
    · rw [List.getLast?_concat] at kept
      cases kept
      exact Value.equals_self distinct
    · rename_i same
      rw [List.append_nil, kept'] at kept
      cases kept
      exact Bool.not_eq_false _ ▸ same

/-! ### Fetches -/

/-- The number of documents that were fetched. -/
def fetched (d : Delivery) : Nat := d.trace.countP fun o => o.event.isFetch

theorem fetched_record (d : Delivery) (now : Rat) (e : Event) :
    (d.record now e).fetched = d.fetched + if e.isFetch then 1 else 0 := by
  rw [fetched, record, List.countP_append, List.countP_singleton]
  rfl

/-- A fetch under way. -/
theorem fetch_of_active (active : d.isActive = true) (query : CompiledQuery) :
    d.fetch now query =
      { d.record now (.fetched query) with task := .fetching now, fetches := d.fetches + 1 } :=
  if_pos active

/-- A task rests between two fetches, unless that time cannot be told in seconds. -/
def Rests (s : Subscription) (task : Task) : Prop :=
  (∃ due, task = .sleeping due) ∨
    task = .finished ∧ ∃ fault, Settings.seconds s.settings.pollInterval = .error fault

theorem Rests.isFetching {task : Task} (h : Rests s task) : task.isFetching = false := by
  rcases h with ⟨due, rfl⟩ | ⟨rfl, _⟩
  · rfl
  · rfl

theorem sleep_rests (unasked : d.stopping = false) :
    ∃ task, Rests s task ∧ d.sleep s now = { d with task } := by
  unfold sleep
  split
  · exact ⟨_, .inl ⟨_, rfl⟩, rfl⟩
  · rename_i fault far
    refine ⟨.finished, .inr ⟨rfl, fault, far⟩, ?_⟩
    rw [finishTask, ← unasked]

/-- A fetched value is handed over if it is news, and the task rests. -/
theorem takeValue_of_calm (calm : s.consumer.Calm) (active : d.isActive = true)
    (unasked : d.stopping = false) (now : Rat) (v : Value) :
    ∃ task, Rests s task ∧ d.takeValue s now v =
      if d.isNews v then { handed { d with last := some v } now v with task }
      else { d with task } := by
  unfold takeValue
  split
  · rw [deliver_of_calm (d := { d with last := some v }) calm active v]
    exact sleep_rests (d := handed { d with last := some v } now v) unasked
  · exact sleep_rests unasked

/-! ### A delivery that polls -/

/-- A delivery polls. It has fetched some values and handed over the changes among them. -/
structure Polls (s : Subscription) (values : List Value) (d : Delivery) : Prop where
  active : d.lifecycle = .active
  unasked : d.stopping = false
  mode : d.mode = some .poll
  compiled : d.query.isSome = true
  unpaced : d.pacer = none
  last : d.last = (changes values).getLast?
  calls : d.calls.map Prod.snd = (changes values).map .data
  fetched : d.fetched = values.length + if d.task.isFetching then 1 else 0
  task : d.task = .ready ∨ (∃ since, d.task = .fetching since) ∨ Rests s d.task

/-- A delivery failed when it polled. It had handed over the changes before that, and its task has
finished. -/
structure Failed (s : Subscription) (values : List Value) (fault : Failure) (d : Delivery) :
    Prop where
  errored : d.lifecycle = .errored
  unasked : d.stopping = false
  unpaced : d.pacer = none
  calls : d.calls.map Prod.snd = (changes values).map .data ++
    s.consumer.onError.toList.map fun _ => Event.error fault
  fetched : d.fetched = values.length + 1
  task : d.task = .finished

/-- A delivery that fetches goes on polling. -/
theorem Polls.fetch (h : Polls s values d) (rests : d.task.isFetching = false) (now : Rat)
    (query : CompiledQuery) : Polls s values (d.fetch now query) := by
  rw [fetch_of_active (isActive_iff.2 h.active)]
  refine ⟨h.active, h.unasked, h.mode, h.compiled, h.unpaced, h.last, ?_, ?_, .inr (.inl ⟨_, rfl⟩)⟩
  · have silent : (d.record now (.fetched query)).calls = d.calls :=
      (calls_record d now (.fetched query)).trans (List.append_nil _)
    exact (congrArg (List.map Prod.snd) silent).trans h.calls
  · have counted := h.fetched
    rw [rests] at counted
    refine (fetched_record d now (.fetched query)).trans ?_
    rw [counted]
    rfl

/-- A delivery that has fetched a value goes on polling, and hands the value over if it is news. -/
theorem Polls.takeValue (h : Polls s values d) (calm : s.consumer.Calm)
    (fetching : d.task.isFetching = true) (now : Rat) (v : Value) :
    Polls s (values ++ [v]) (d.takeValue s now v) ∧ (d.takeValue s now v).query = d.query := by
  obtain ⟨task, rests, goes⟩ :=
    takeValue_of_calm calm (isActive_iff.2 h.active) h.unasked now v
  have news := changes_concat h.last v
  have counted : d.fetched = (values ++ [v]).length + 0 := by
    rw [h.fetched, fetching, List.length_append]
    rfl
  rw [goes]
  cases isNews : d.isNews v with
  | true =>
    rw [isNews, if_pos rfl] at news
    have handed : (Delivery.handed { d with last := some v } now v).calls =
        d.calls ++ [(now, Event.data v)] := calls_handed { d with last := some v } now v
    have same : (Delivery.handed { d with last := some v } now v).fetched = d.fetched :=
      fetched_record { d with last := some v } now (.data v)
    refine ⟨⟨h.active, h.unasked, h.mode, h.compiled, h.unpaced, ?_, ?_, ?_, .inr (.inr rests)⟩,
      rfl⟩
    · rw [news, List.getLast?_concat]
      rfl
    · refine (congrArg (List.map Prod.snd) handed).trans ?_
      rw [news, List.map_append, List.map_append, h.calls]
      rfl
    · refine same.trans ?_
      rw [counted]
      simp [rests.isFetching]
  | false =>
    rw [isNews, if_neg Bool.false_ne_true, List.append_nil] at news
    refine ⟨⟨h.active, h.unasked, h.mode, h.compiled, h.unpaced, ?_, ?_, ?_, .inr (.inr rests)⟩,
      rfl⟩
    · rw [news]
      exact h.last
    · rw [news]
      exact h.calls
    · refine counted.trans ?_
      simp [rests.isFetching]

/-- A delivery that polls fails when a fetch fails. -/
theorem Polls.fail (h : Polls s values d) (fetching : d.task.isFetching = true) (now : Rat)
    (fault : Failure) :
    Failed s values fault (d.fail s now fault).finishTask ∧
      (d.fail s now fault).finishTask.query = d.query := by
  have fails : d.fail s now fault =
      (d.shutDown .errored).callBack now s.consumer.onError (.error fault) :=
    if_pos (isActive_iff.2 h.active)
  have calls := calls_callBack d now (l := .errored) rfl s.consumer.onError (e := .error fault) rfl
  have unpaced : d.pacer.map Pacer.cancel = none := by
    rw [h.unpaced]
    rfl
  have counted : ((d.shutDown .errored).callBack now s.consumer.onError (.error fault)).fetched =
      values.length + 1 := by
    rw [callBack_of_final (d := d.shutDown .errored) rfl]
    have counted := h.fetched
    rw [fetching, if_pos rfl] at counted
    cases s.consumer.onError with
    | none => exact counted
    | some cancels => exact (fetched_record (d.shutDown .errored) now (.error fault)).trans counted
  obtain ⟨trace, frame⟩ :=
    callBack_frame d now (l := .errored) rfl s.consumer.onError (.error fault)
  rw [fails]
  rw [frame] at calls counted ⊢
  refine ⟨⟨rfl, rfl, unpaced, ?_, counted, rfl⟩, rfl⟩
  refine (congrArg (List.map Prod.snd) calls).trans ?_
  rw [List.map_append, h.calls, List.map_map]
  rfl

/-- A delivery whose results are not pushed polls as soon as it is started. -/
theorem polls_started (polls : usesPush s = false) (query : CompiledQuery) :
    Polls s [] (started s idle query) := by
  have mode : modeOf s = .poll := by
    rw [modeOf, polls]
    rfl
  refine ⟨rfl, rfl, congrArg some mode, rfl, ?_, rfl, rfl, rfl, .inl rfl⟩
  show (if modeOf s = .push then some (pacerOf s) else none) = none
  rw [mode]
  rfl

/-! ### Outcomes -/

/-- The outcome of a fetch that a signal brings, if the delivery waits for one. -/
def outcome? (d : Delivery) (signal : Signal) : Option (Except Failure Answer) :=
  match signal, d.task with
  | .outcome result, .fetching _ => some result
  | _, _ => none

/-- How far a delivery has come after some outcomes: it has not been started, or it polls, or the
last outcome was the first failure. -/
inductive Course (s : Subscription) : List (Except Failure Answer) → Delivery → Prop
  | idle : Course s [] idle
  | polls {outcomes : List (Except Failure Answer)} {values : List Value} {d : Delivery}
      (read : outcomes.map (d.extract s) = values.map .ok) (polls : Polls s values d) :
      Course s outcomes d
  | failed {outcomes : List (Except Failure Answer)} {values : List Value} {fault : Failure}
      {d : Delivery} (read : outcomes.map (d.extract s) = values.map .ok ++ [Except.error fault])
      (failed : Failed s values fault d) : Course s outcomes d

variable {outcomes : List (Except Failure Answer)} {signal : Signal}

theorem outcome?_eq_some {result : Except Failure Answer} (h : d.outcome? signal = some result) :
    signal = .outcome result ∧ ∃ since, d.task = .fetching since := by
  unfold outcome? at h
  split at h
  · rename_i task
    cases h
    exact ⟨rfl, _, task⟩
  · cases h

theorem outcome?_of_finished (task : d.task = .finished) (signal : Signal) :
    d.outcome? signal = none := by
  unfold outcome?
  rw [task]
  split
  · rename_i fetching
    cases fetching
  · rfl

/-- A delivery that has begun and has no pacer answers with its task, if it is not cancelled. -/
theorem step_eq_resume (begun : d.lifecycle ≠ .idle) (unasked : d.stopping = false)
    (unpaced : d.pacer = none) (uncancelled : signal ≠ .cancel) :
    d.step s now signal = d.resume s now signal := by
  cases signal with
  | start => exact step_start_of_error (start_of_not_idle begun) now
  | cancel => exact absurd rfl uncancelled
  | timer =>
    show d.expire s now = d
    rw [expire, unpaced]
  | interrupt =>
    show d.interrupt now = d
    rw [interrupt, unasked]
    rfl
  | _ => simp [step, unasked]

theorem resume_of_finished (task : d.task = .finished) (signal : Signal) :
    d.resume s now signal = d := by
  unfold resume
  rw [task]
  cases signal <;> rfl

/-- A delivery that polls goes on when no outcome comes. -/
theorem Polls.resume (h : Polls s values d) (nothing : d.outcome? signal = none) (now : Rat) :
    Polls s values (d.resume s now signal) ∧ (d.resume s now signal).query = d.query := by
  obtain ⟨query, asks⟩ := Option.isSome_iff_exists.1 h.compiled
  have fetches (rests : d.task.isFetching = false) :
      Polls s values (d.fetch now query) ∧ (d.fetch now query).query = d.query := by
    refine ⟨h.fetch rests now query, ?_⟩
    rw [fetch_of_active (isActive_iff.2 h.active)]
    rfl
  have deaf : d.task ≠ .listening := by
    rcases h.task with task | ⟨since, task⟩ | ⟨due, task⟩ | ⟨task, _⟩ <;> simp [task]
  unfold Delivery.resume
  split
  · rename_i task
    have goes : d.run s now = d.fetch now query := by
      simp [run, asks, h.mode]
    rw [goes]
    exact fetches (by rw [task]; rfl)
  · contradiction
  · contradiction
  · rename_i result since task
    simp [outcome?, task] at nothing
  · rename_i due task
    have goes : d.wake now = d.fetch now query := by
      simp [wake, asks]
    rw [goes]
    exact fetches (by rw [task]; rfl)
  · exact ⟨h, rfl⟩

/-- A delivery that polls takes an outcome. -/
theorem Polls.outcome (h : Polls s values d) (calm : s.consumer.Calm)
    (read : outcomes.map (d.extract s) = values.map .ok) {result : Except Failure Answer}
    (fetching : d.task.isFetching = true) (now : Rat) :
    Course s (outcomes ++ [result]) (d.takeOutcome s now result) := by
  unfold takeOutcome
  cases value : d.extract s result with
  | error fault =>
    obtain ⟨failed, query⟩ := h.fail fetching now fault
    refine .failed ?_ failed
    rw [extract_eq (t := s) rfl query, List.map_append, read, List.map_singleton, value]
  | ok v =>
    obtain ⟨polls, query⟩ := h.takeValue calm fetching now v
    refine .polls ?_ polls
    rw [extract_eq (t := s) rfl query, List.map_append, read, List.map_singleton, value,
      List.map_append]
    rfl

/-- Every signal but a cancellation leaves a delivery on its course. -/
theorem Course.step (h : Course s outcomes d) (polls : usesPush s = false)
    (calm : s.consumer.Calm) (now : Rat) (uncancelled : signal ≠ .cancel) :
    Course s (outcomes ++ (d.outcome? signal).toList) (d.step s now signal) := by
  cases h with
  | idle =>
    cases signal with
    | start =>
      cases starts : Delivery.idle.start s with
      | error fault =>
        rw [step_start_of_error starts]
        exact .idle
      | ok d' =>
        rw [step_start_of_ok starts]
        obtain ⟨query, _, _, rfl⟩ := start_eq_ok starts
        exact .polls rfl (polls_started polls query)
    | cancel => exact absurd rfl uncancelled
    | _ => exact .idle
  | polls read h =>
    have begun : d.lifecycle ≠ .idle := by
      rw [h.active]
      decide
    rw [step_eq_resume begun h.unasked h.unpaced uncancelled]
    cases outcome : d.outcome? signal with
    | none =>
      obtain ⟨goes, query⟩ := h.resume outcome now
      refine .polls ?_ goes
      rw [Option.toList_none, List.append_nil, extract_eq (t := s) rfl query, read]
    | some result =>
      obtain ⟨rfl, since, task⟩ := outcome?_eq_some outcome
      have goes : d.resume s now (.outcome result) = d.takeOutcome s now result := by
        simp [resume, task]
      rw [goes]
      exact h.outcome calm read (by rw [task]; rfl) now
  | failed read h =>
    have begun : d.lifecycle ≠ .idle := by
      rw [h.errored]
      decide
    rw [step_eq_resume begun h.unasked h.unpaced uncancelled, resume_of_finished h.task,
      outcome?_of_finished h.task, Option.toList_none, List.append_nil]
    exact .failed read h

/-- A course does not depend on the schema of its subscription. -/
theorem Course.of_schema (h : Course s outcomes d) (schema : Schema) :
    Course { s with schema } outcomes d := by
  cases h with
  | idle => exact .idle
  | polls read h =>
    exact .polls read ⟨h.active, h.unasked, h.mode, h.compiled, h.unpaced, h.last, h.calls,
      h.fetched, h.task⟩
  | failed read h =>
    exact .failed read ⟨h.errored, h.unasked, h.unpaced, h.calls, h.fetched, h.task⟩

/-! ### What was polled -/

/-- The values before the first failure. -/
def leading : List (Except Failure Value) → List Value
  | .ok v :: rest => v :: leading rest
  | _ => []

/-- The first failure. -/
def failure? : List (Except Failure Value) → Option Failure
  | .ok _ :: rest => failure? rest
  | .error fault :: _ => some fault
  | [] => none

theorem leading_append (values : List Value) (rest : List (Except Failure Value)) :
    leading (values.map .ok ++ rest) = values ++ leading rest := by
  induction values with
  | nil => rfl
  | cons v values ih => exact congrArg (v :: ·) ih

theorem failure?_append (values : List Value) (rest : List (Except Failure Value)) :
    failure? (values.map .ok ++ rest) = failure? rest := by
  induction values with
  | nil => rfl
  | cons v values ih => exact ih

/-- The calls that polling comes to: the changes, and then a failure if there is one. -/
def callsOf (s : Subscription) (values : List Value) (failure : Option Failure) : List Event :=
  (changes values).map .data ++ failure.toList.flatMap fun fault =>
    s.consumer.onError.toList.map fun _ => Event.error fault

/-- What polling comes to, after the results of some fetches. -/
structure Polled (s : Subscription) (results : List (Except Failure Value)) (d : Delivery) :
    Prop where
  /-- The changes among the values before the first failure are handed over. -/
  values : d.deliveries.map Prod.snd = changes (leading results)
  /-- The first value is handed over, whatever it is. -/
  first : (d.deliveries.map Prod.snd).head? = (leading results).head?
  /-- No value equals the one handed over before it. -/
  changing : (d.deliveries.map Prod.snd).IsChain Value.Differs
  /-- The value handed over last equals the value fetched last. -/
  current : ∀ v ∈ (leading results).getLast?, v.hasDistinctKeys = true →
    ∃ w ∈ (d.deliveries.map Prod.snd).getLast?, v.equals w = true
  /-- The consumer is called with the values, and once with the first failure. -/
  calls : d.calls.map Prod.snd = callsOf s (leading results) (failure? results)
  /-- There is no result behind the first failure. -/
  stops : results = (leading results).map .ok ++ (failure? results).toList.map .error
  /-- Each fetch has brought a result, except for the one under way. -/
  fetched : d.fetched = results.length + if d.task.isFetching then 1 else 0
  failed : (failure? results).isSome = true → d.lifecycle = .errored ∧ d.task = .finished
  /-- Without a failure the delivery goes on fetching, unless it cannot tell when. -/
  goesOn : failure? results = none → d.lifecycle ≠ .idle → d.lifecycle = .active ∧
    (d.task = .ready ∨ d.task.polls = true ∨
      ∃ fault, Settings.seconds s.settings.pollInterval = .error fault)

theorem deliveries_map_snd (d : Delivery) :
    d.deliveries.map Prod.snd = (d.calls.map Prod.snd).filterMap Event.value? := by
  rw [deliveries, List.map_filterMap, List.filterMap_map]
  congr 1
  funext x
  cases h : x.2.value? <;> simp [h]

theorem filterMap_callsOf (s : Subscription) (values : List Value) (failure : Option Failure) :
    (callsOf s values failure).filterMap Event.value? = changes values := by
  have all : ((changes values).map Event.data).filterMap Event.value? = changes values := by
    rw [List.filterMap_map]
    exact List.filterMap_some
  rw [callsOf, List.filterMap_append, all]
  cases failure with
  | none => exact List.append_nil _
  | some fault =>
    cases s.consumer.onError with
    | none => exact List.append_nil _
    | some cancels => exact List.append_nil _

/-- Values without a failure among them, and then a failure if there is one. -/
theorem polled_of_read {results : List (Except Failure Value)} (values : List Value)
    (failure : Option Failure)
    (read : results = values.map .ok ++ failure.toList.map .error)
    (calls : d.calls.map Prod.snd = callsOf s values failure)
    (fetched : d.fetched = results.length + if d.task.isFetching then 1 else 0)
    (failed : failure.isSome = true → d.lifecycle = .errored ∧ d.task = .finished)
    (goesOn : failure = none → d.lifecycle ≠ .idle → d.lifecycle = .active ∧
      (d.task = .ready ∨ d.task.polls = true ∨
        ∃ fault, Settings.seconds s.settings.pollInterval = .error fault)) :
    Polled s results d := by
  have first : leading results = values := by
    rw [read, leading_append]
    cases failure <;> exact List.append_nil _
  have last : failure? results = failure := by
    rw [read, failure?_append]
    cases failure <;> rfl
  have delivered : d.deliveries.map Prod.snd = changes values := by
    rw [deliveries_map_snd, calls, filterMap_callsOf]
  refine ⟨?_, ?_, ?_, ?_, ?_, ?_, fetched, ?_, ?_⟩
  · rw [first, delivered]
  · rw [first, delivered]
    exact destutter_head? values
  · rw [delivered]
    exact List.isChain_destutter _ values
  · rw [first, delivered]
    intro v fetchedLast distinct
    have some' : (changes values).getLast?.isSome = true := by
      rw [List.getLast?_isSome]
      intro empty
      rw [(List.destutter_eq_nil _).1 empty] at fetchedLast
      cases fetchedLast
    obtain ⟨w, kept⟩ := Option.isSome_iff_exists.1 some'
    exact ⟨w, kept, equals_of_changes distinct fetchedLast kept⟩
  · rw [first, last]
    exact calls
  · rw [first, last]
    exact read
  · rw [last]
    exact failed
  · rw [last]
    exact goesOn

/-- A course says what the polling came to. -/
theorem Course.polled (h : Course s outcomes d) : Polled s (outcomes.map (d.extract s)) d := by
  cases h with
  | idle =>
    refine polled_of_read [] none rfl rfl rfl ?_ ?_
    · intro failed
      cases failed
    · intro _ begun
      exact absurd rfl begun
  | @polls _ values _ read h =>
    refine polled_of_read values none ?_ ?_ ?_ ?_ ?_
    · rw [read]
      exact (List.append_nil _).symm
    · rw [h.calls]
      exact (List.append_nil _).symm
    · rw [read, List.length_map]
      exact h.fetched
    · intro failed
      cases failed
    · intro _ _
      refine ⟨h.active, ?_⟩
      rcases h.task with task | ⟨since, task⟩ | ⟨due, task⟩ | ⟨_, far⟩
      · exact .inl task
      · exact .inr (.inl (by rw [task]; rfl))
      · exact .inr (.inl (by rw [task]; rfl))
      · exact .inr (.inr far)
  | @failed _ values fault _ read h =>
    refine polled_of_read values (some fault) read ?_ ?_ ?_ ?_
    · rw [h.calls, callsOf]
      exact congrArg (_ ++ ·) (List.append_nil _).symm
    · rw [read, h.fetched, h.task, List.length_append, List.length_map]
      rfl
    · exact fun _ => ⟨h.errored, h.task⟩
    · intro none'
      cases none'

end Delivery

namespace Session

variable {c : Session}

/-- The outcomes that signals bring to a delivery that waits for them. -/
def outcomes (c : Session) : List (Rat × Signal) → List (Except Failure Answer)
  | [] => []
  | x :: rest => (c.delivery.outcome? x.2).toList ++ (c.step x.1 x.2).outcomes rest

theorem course_steps {before : List (Except Failure Answer)} {signals : List (Rat × Signal)}
    (h : Delivery.Course c.subscription before c.delivery)
    (polls : Delivery.usesPush c.subscription = false) (calm : c.subscription.consumer.Calm)
    (uncancelled : ∀ x ∈ signals, x.2 ≠ .cancel) :
    Delivery.Course (c.steps signals).subscription (before ++ c.outcomes signals)
      (c.steps signals).delivery ∧
      ∃ schema, (c.steps signals).subscription = { c.subscription with schema } := by
  induction signals generalizing c before with
  | nil => exact ⟨(List.append_nil before).symm ▸ h, _, rfl⟩
  | cons x rest ih =>
    obtain ⟨schema, same⟩ := c.exists_schema x.1 x.2
    have next : Delivery.Course (c.step x.1 x.2).subscription
        (before ++ (c.delivery.outcome? x.2).toList) (c.step x.1 x.2).delivery := by
      rw [same]
      exact (h.step polls calm x.1 (uncancelled x (by simp))).of_schema schema
    obtain ⟨course, schema', same'⟩ := ih next (by rw [same]; exact polls)
      (by rw [same]; exact calm) fun y hy => uncancelled y (by simp [hy])
    refine ⟨?_, schema', ?_⟩
    · rw [List.append_assoc] at course
      exact course
    · rw [same] at same'
      exact same'

/-- Polling hands over the changes: the values that were fetched before the first failure, each one
left out that equals the one handed over before it. The first failure is told once and ends the
delivery. -/
theorem polled_of_steps (s : Subscription) {signals : List (Rat × Signal)}
    (polls : Delivery.usesPush s = false) (calm : s.consumer.Calm)
    (uncancelled : ∀ x ∈ signals, x.2 ≠ .cancel) :
    Delivery.Polled s
      (((idle s).outcomes signals).map (((idle s).steps signals).delivery.extract s))
      ((idle s).steps signals).delivery := by
  obtain ⟨course, schema, same⟩ := course_steps (c := idle s) .idle polls calm uncancelled
  have same' : ((idle s).steps signals).subscription = { s with schema } := same
  rw [same'] at course
  exact (course.of_schema s.schema).polled

end Session

namespace Sample

/-- An answer whose users are a value. -/
def valued (v : Value) : Except Failure Answer := .ok ⟨.obj [("users", v)], .null⟩

/-- A delivery is started and fetches six times: null, one number three times with another one
between the last two, and then a failure. The second time the number is written as a fraction. -/
def polled : List (Rat × Signal) :=
  [(0, .start), (0, .run), (1, .outcome (valued .null)), (2, .wake),
    (3, .outcome (valued (.int 1))), (4, .wake), (5, .outcome (valued (.float ⟨false, 1, 0⟩))),
    (6, .wake), (7, .outcome (valued (.int 2))), (8, .wake), (9, .outcome (valued (.int 1))),
    (10, .wake), (11, .outcome (.error (.connection "failed")))]

end Sample

namespace Session

/-- Null, the number, the other number and the number again are handed over. -/
theorem polled_of_steps_changing :
    let s := Sample.subscription false fun _ => ⟨false, none⟩
    let d := ((idle s).steps Sample.polled).delivery
    let results := ((idle s).outcomes Sample.polled).map (d.extract s)
    Delivery.usesPush s = false ∧ s.consumer.Calm ∧ (∀ x ∈ Sample.polled, x.2 ≠ .cancel) ∧
      changes (Delivery.leading results) = [.null, .int 1, .int 2, .int 1] ∧
      Delivery.Polled s results d := by
  intro s d results
  have calm : s.consumer.Calm := fun _ _ => rfl
  have uncancelled : ∀ x ∈ Sample.polled, x.2 ≠ .cancel := by
    simp [Sample.polled]
  exact ⟨rfl, calm, uncancelled, by decide +kernel, polled_of_steps s rfl calm uncancelled⟩

end Session

end GraphRequest
