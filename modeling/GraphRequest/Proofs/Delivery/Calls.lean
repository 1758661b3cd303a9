import GraphRequest.Proofs.Delivery.Callbacks

/-!
# What a calm consumer is called with

A consumer is calm if it neither fails nor cancels when a value is handed to it. The calls of the
consumer are the part of the trace that it sees; the deliveries are the values among them.

* `deliver_of_calm`: handing a value to a calm consumer is one call and nothing else.
* `Told`: what the consumer was told, in full.
-/

namespace GraphRequest

/-- The value that an event hands over, if it does. -/
def Event.value? : Event → Option Value
  | .data v => some v
  | _ => none

/-- A consumer that neither fails nor cancels when a value is handed to it. -/
def Consumer.Calm (c : Consumer) : Prop := ∀ n v, c.onData n v = ⟨false, none⟩

namespace Delivery

variable {s : Subscription} {d : Delivery} {now : Rat}

/-- The calls of the consumer, with their times. -/
def calls (d : Delivery) : List (Rat × Event) :=
  (d.trace.filter fun o => o.event.isCallback).map fun o => (o.time, o.event)

/-- The values that were handed over, with their times. -/
def deliveries (d : Delivery) : List (Rat × Value) :=
  d.calls.filterMap fun x => x.2.value?.map (x.1, ·)

/-- The consumer was handed values at their times, and then told of an end at most. -/
structure Told (d : Delivery) (deliveries : List (Rat × Value)) (ending : List (Rat × Event)) :
    Prop where
  calls : d.calls = deliveries.map (fun x => (x.1, Event.data x.2)) ++ ending
  ends : ∀ x ∈ ending, x.2.value? = none

theorem Told.deliveries_eq {deliveries : List (Rat × Value)} {ending : List (Rat × Event)}
    (h : d.Told deliveries ending) : d.deliveries = deliveries := by
  have all : (deliveries.map fun x => (x.1, Event.data x.2)).filterMap
      (fun x => x.2.value?.map (x.1, ·)) = deliveries := by
    rw [List.filterMap_map]
    exact List.filterMap_some
  have none' : ending.filterMap (fun x => x.2.value?.map (x.1, ·)) = [] := by
    apply List.filterMap_eq_nil_iff.2
    intro x hx
    rw [h.ends x hx]
    rfl
  rw [Delivery.deliveries, h.calls, List.filterMap_append, all, none', List.append_nil]

/-! ### Calls -/

theorem calls_record (d : Delivery) (now : Rat) (e : Event) :
    (d.record now e).calls = d.calls ++ if e.isCallback then [(now, e)] else [] := by
  unfold calls record
  rw [List.filter_append, List.map_append]
  cases h : e.isCallback <;> simp [h]

theorem calls_handed (d : Delivery) (now : Rat) (v : Value) :
    (d.handed now v).calls = d.calls ++ [(now, Event.data v)] := calls_record d now (.data v)

theorem calls_closeStream (d : Delivery) (now : Rat) : (d.closeStream now).calls = d.calls :=
  (calls_record d now .streamClosed).trans (List.append_nil _)

/-- The callback of an end is called if there is one. -/
theorem calls_callBack (d : Delivery) (now : Rat) {l : Lifecycle} (final : l.isFinal = true)
    (callback : Option Bool) {e : Event} (seen : e.isCallback = true) :
    ((d.shutDown l).callBack now callback e).calls =
      d.calls ++ callback.toList.map fun _ => (now, e) := by
  rw [callBack_of_final (d := d.shutDown l) final]
  cases callback with
  | none => exact (List.append_nil _).symm
  | some cancels =>
    refine (calls_record (d.shutDown l) now e).trans ?_
    rw [seen]
    rfl

/-- What the end of an active delivery leaves as it is. -/
theorem callBack_frame (d : Delivery) (now : Rat) {l : Lifecycle} (final : l.isFinal = true)
    (callback : Option Bool) (e : Event) :
    ∃ trace, (d.shutDown l).callBack now callback e = { d.shutDown l with trace } := by
  rw [callBack_of_final (d := d.shutDown l) final]
  split
  · exact ⟨_, rfl⟩
  · exact ⟨_, rfl⟩

/-! ### Handing values over -/

/-- The value in an answer depends on the request and on the query that is delivered. -/
theorem extract_eq {t : Subscription} {e : Delivery} (request : s.request = t.request)
    (query : d.query = e.query) : d.extract s = e.extract t := by
  unfold extract
  rw [request, query]

theorem deliver_of_calm (calm : s.consumer.Calm) (active : d.isActive = true) (v : Value) :
    d.deliver s now v = (d.handed now v, none) := by
  have reacts : d.reaction s v = ⟨false, none⟩ := calm _ v
  rw [deliver, if_pos active, reacts]
  rfl

theorem deliverAny_of_calm (calm : s.consumer.Calm) (active : d.isActive = true)
    (out : Option Value) : d.deliverAny s now out = (out.elim d (d.handed now), none) := by
  cases out with
  | none => rfl
  | some v => exact deliver_of_calm calm active v

end Delivery

end GraphRequest
