/-
  Live/Sessions.lean --- `positions_ws` of `backend/api/ws.py`, with any number of clients.

  Every client has a handler of its own; between two awaited calls a handler runs alone.
  A handler leaves its `try` in one way or another: the client is gone, the database
  raises, the server cancels it, or `_is_stale` raises on an envelope that it cannot read.
  Whatever it was, the `finally` block gives the queue back and counts the connection down.

  The queues are those of `Live.Broadcast`: a run of the handlers is a run of its calls
  (`Follows`), and what is known of it is known of the queues here.
-/
import RtlsStream.Live.Broadcast
import Mathlib.Data.Finset.Card

set_option autoImplicit false

namespace RtlsStream.Live.Sessions

open RtlsStream.Foundation RtlsStream.Python RtlsStream.Store

/-! ## The handlers -/

/-- Where a handler is: before the `try`, at one of its awaited calls, or at its end. -/
inductive Handler where
  /-- `websocket.accept()` -/
  | accepting
  /-- `loop.run_in_executor(None, _snapshot, pool)` -/
  | reading
  | sendingSnapshot
  /-- `queue.get()` -/
  | waiting
  | sendingEnvelope
  | ended
  deriving DecidableEq, Repr

/-- The `finally` block is still to come. -/
def Handler.inTry : Handler → Bool
  | .reading | .sendingSnapshot | .waiting | .sendingEnvelope => true
  | .accepting | .ended => false

/-- The handlers, the broadcast and the gauge.  `snapshot` is what each handler has read, and
`sends` the envelopes it has called `send_json` with. -/
structure State (ι : Type) where
  handler : ι → Option Handler
  broadcast : Broadcast.State ι (Dict Json)
  /-- `WS_ACTIVE_CONNECTIONS` -/
  gauge : Int
  snapshot : ι → List Row
  sends : ι → List (Dict Json)

/-- What can happen. -/
inductive Event (ι : Type) where
  /-- a client asks for the endpoint -/
  | opens (q : ι)
  | accepts (q : ι)
  | readsSnapshot (q : ι) (rows : List Row)
  | sentSnapshot (q : ι)
  | gets (q : ι)
  | sentEnvelope (q : ι)
  /-- the awaited call raises, or the task is cancelled at it -/
  | raises (q : ι)
  /-- `broadcast.publish`; `order` is the order in which it iterates over the set -/
  | publish (envelope : Dict Json) (order : List ι)

variable {ι : Type} [DecidableEq ι]

/-- Nobody is connected. -/
def init : State ι := ⟨fun _ => none, Broadcast.init Live.maxsize, 0, fun _ => [], fun _ => []⟩

/-- Put a handler somewhere. -/
def State.at (s : State ι) (q : ι) (h : Handler) : State ι :=
  { s with handler := Function.update s.handler q (some h) }

/-- `accept` has returned: the gauge, and `broadcast.subscribe()` -/
def State.enter (s : State ι) (q : ι) : Option (State ι) :=
  (Broadcast.step s.broadcast (.subscribe q)).map fun b =>
    { s.at q .reading with broadcast := b, gauge := s.gauge + 1 }

/-- The `finally` block. -/
def State.finish (s : State ι) (q : ι) : Option (State ι) :=
  (Broadcast.step s.broadcast (.unsubscribe q)).map fun b =>
    { s.at q .ended with broadcast := b, gauge := s.gauge - 1 }

/-- `queue.get()` has returned the envelope. -/
def State.take (s : State ι) (q : ι) (envelope : Dict Json) : Option (State ι) :=
  match isStale envelope (snapshotTimestamps (s.snapshot q)) with
  | .error _ => s.finish q
  | .ok true => some s
  | .ok false => some { s.at q .sendingEnvelope with
      sends := Function.update s.sends q (s.sends q ++ [envelope]) }

/-- What an event does; nothing is for one that cannot happen. -/
def step (s : State ι) : Event ι → Option (State ι)
  | .opens q => if s.handler q = none then some (s.at q .accepting) else none
  | .accepts q => if s.handler q = some .accepting then s.enter q else none
  | .readsSnapshot q rows =>
    if s.handler q = some .reading then
      some { s.at q .sendingSnapshot with snapshot := Function.update s.snapshot q rows }
    else none
  | .sentSnapshot q => if s.handler q = some .sendingSnapshot then some (s.at q .waiting) else none
  | .gets q =>
    if s.handler q = some .waiting then
      match s.broadcast.backlog q with
      | envelope :: _ =>
        (Broadcast.step s.broadcast (.get q)).bind fun b =>
          State.take { s with broadcast := b } q envelope
      | [] => none
    else none
  | .sentEnvelope q => if s.handler q = some .sendingEnvelope then some (s.at q .waiting) else none
  | .raises q =>
    match s.handler q with
    | none | some .ended => none
    | some .accepting => some (s.at q .ended)
    | some .reading | some .sendingSnapshot | some .waiting | some .sendingEnvelope => s.finish q
  | .publish envelope order =>
    (Broadcast.step s.broadcast (.publish envelope order)).map fun b => { s with broadcast := b }

/-- The state after a list of events. -/
def run (events : List (Event ι)) : Option (State ι) := events.foldlM step init

/-! ## The calls to the broadcast -/

/-- What is published. -/
def Event.published : Event ι → Option (Dict Json)
  | .publish envelope _ => some envelope
  | _ => none

/-- The broadcast has seen calls that published what the events have. -/
def Follows (events : List (Event ι)) (b : Broadcast.State ι (Dict Json)) : Prop :=
  ∃ calls, Broadcast.run Live.maxsize calls = some b ∧
    calls.filterMap Broadcast.Event.published = events.filterMap Event.published

namespace Follows

variable {events : List (Event ι)} {b b' : Broadcast.State ι (Dict Json)}

/-- An event that calls nothing. -/
theorem silent (h : Follows events b) {e : Event ι} (he : e.published = none) :
    Follows (events ++ [e]) b := by
  obtain ⟨calls, hcalls, hpublished⟩ := h
  exact ⟨calls, hcalls, by simp [hpublished, he]⟩

/-- One more call. -/
theorem call (h : Follows events b) {c : Broadcast.Event ι (Dict Json)}
    (hcall : Broadcast.step b c = some b') {e : Event ι} (he : e.published = c.published) :
    Follows (events ++ [e]) b' := by
  obtain ⟨calls, hcalls, hpublished⟩ := h
  refine ⟨calls ++ [c], foldlM_concat.mpr ⟨b, hcalls, hcall⟩, ?_⟩
  rw [List.filterMap_append, List.filterMap_append, hpublished]
  simp [List.filterMap_cons, he]

/-- One more call of the same event. -/
theorem more (h : Follows events b) {c : Broadcast.Event ι (Dict Json)}
    (hcall : Broadcast.step b c = some b') (hc : c.published = none) : Follows events b' := by
  obtain ⟨calls, hcalls, hpublished⟩ := h
  exact ⟨calls ++ [c], foldlM_concat.mpr ⟨b, hcalls, hcall⟩, by simp [hpublished, hc]⟩

end Follows

section Calls

variable {b b' : Broadcast.State ι (Dict Json)} {q : ι}

theorem subscribe_eq (h : Broadcast.step b (.subscribe q) = some b') :
    b' = { b with
      subscribers := insert q b.subscribers
      queue := Function.update b.queue q (some ⟨b.maxsize, []⟩) } := by
  simp only [Broadcast.step] at h
  split at h <;> cases h
  rfl

theorem unsubscribe_eq (h : Broadcast.step b (.unsubscribe q) = some b') :
    b' = { b with subscribers := b.subscribers.erase q } := by
  simp only [Broadcast.step] at h
  split at h <;> cases h
  rfl

/-- A queue that is published to is one that was made. -/
theorem publish_eq {envelope : Dict Json} {order : List ι}
    (h : Broadcast.step b (.publish envelope order) = some b') :
    b'.subscribers = b.subscribers ∧ b'.received = b.received ∧
      ∀ q, (b'.queue q).isSome = (b.queue q).isSome := by
  simp only [Broadcast.step] at h
  split at h <;> cases h
  rename_i hiterated
  refine ⟨rfl, rfl, fun q => ?_⟩
  simp only [Broadcast.publishTo_apply hiterated.1]
  split <;> simp

theorem get_eq (h : Broadcast.step b (.get q) = some b') :
    ∃ envelope rest, b.backlog q = envelope :: rest ∧ b'.subscribers = b.subscribers ∧
      b'.received = Function.update b.received q (b.received q ++ [envelope]) ∧
      ∀ q', (b'.queue q').isSome = (b.queue q').isSome := by
  simp only [Broadcast.step] at h
  split at h <;> cases h
  rename_i maxsize envelope rest hqueue
  refine ⟨envelope, rest, by simp [Broadcast.State.backlog, hqueue], rfl, rfl, fun q' => ?_⟩
  by_cases hq : q' = q
  · subst hq
    simp [hqueue]
  · simp [Function.update_of_ne hq]

end Calls

/-! ## The account of the handlers -/

/-- The envelope is forwarded to a client with this snapshot. -/
def forwarded (rows : List Row) (envelope : Dict Json) : Bool :=
  match isStale envelope (snapshotTimestamps rows) with
  | .ok false => true
  | _ => false

/-- The handler is in its `try`. -/
def Tries : Option Handler → Prop
  | some h => h.inTry = true
  | none => False

/-- The handler has not subscribed. -/
def Outside : Option Handler → Prop
  | none | some .accepting => True
  | _ => False

/-- The handler has got nothing. -/
def Early : Option Handler → Prop
  | none | some .accepting | some .reading | some .sendingSnapshot => True
  | _ => False

/-- What holds of every handler after any events. -/
structure Good (s : State ι) : Prop where
  subscribed : ∀ q, q ∈ s.broadcast.subscribers ↔ Tries (s.handler q)
  gauge : s.gauge = s.broadcast.subscribers.card
  unmade : ∀ q, Outside (s.handler q) → s.broadcast.queue q = none
  made : ∀ q, Tries (s.handler q) → (s.broadcast.queue q).isSome
  early : ∀ q, Early (s.handler q) → s.broadcast.received q = []
  sends : ∀ q, s.sends q = (s.broadcast.received q).filter (forwarded (s.snapshot q))

theorem handler_at {s : State ι} {q q' : ι} {h : Handler} :
    (s.at q h).handler q' = if q' = q then some h else s.handler q' := by
  by_cases hq : q' = q
  · subst hq
    simp [State.at]
  · simp [State.at, hq]

/-- What is to hold after one handler has moved holds of it and of the others. -/
theorem forall_at {s : State ι} {q : ι} {after : Handler} (P : ι → Option Handler → Prop)
    (hself : P q (some after)) (hother : ∀ q', q' ≠ q → P q' (s.handler q')) :
    ∀ q', P q' ((s.at q after).handler q') := by
  intro q'
  rw [handler_at]
  split
  · rename_i hq
    exact hq ▸ hself
  · rename_i hq
    exact hother q' hq

namespace Good

variable {s t : State ι} {q : ι} {b : Broadcast.State ι (Dict Json)}

/-- A handler moves, and neither enters its `try` nor leaves it. -/
theorem move (h : Good s) {after : Handler} (htry : Tries (some after) ↔ Tries (s.handler q))
    (houtside : Outside (some after) → Outside (s.handler q))
    (hearly : Early (some after) → Early (s.handler q)) : Good (s.at q after) where
  subscribed := forall_at (fun q' h => q' ∈ s.broadcast.subscribers ↔ Tries h)
    ((h.subscribed q).trans htry.symm) fun q' _ => h.subscribed q'
  gauge := h.gauge
  unmade := forall_at (fun q' h => Outside h → s.broadcast.queue q' = none)
    (fun hout => h.unmade q (houtside hout)) fun q' _ => h.unmade q'
  made := forall_at (fun q' h => Tries h → (s.broadcast.queue q').isSome)
    (fun hin => h.made q (htry.mp hin)) fun q' _ => h.made q'
  early := forall_at (fun q' h => Early h → s.broadcast.received q' = [])
    (fun he => h.early q (hearly he)) fun q' _ => h.early q'
  sends := h.sends

/-- A handler enters its `try`. -/
theorem enter (h : Good s) (haccepting : s.handler q = some .accepting) (henter : s.enter q = some t) :
    Good t := by
  obtain ⟨b, hb, rfl⟩ := Option.map_eq_some_iff.mp henter
  obtain rfl := subscribe_eq hb
  have hnew : q ∉ s.broadcast.subscribers := by
    rw [h.subscribed, haccepting]
    simp [Tries, Handler.inTry]
  constructor
  case subscribed =>
    refine forall_at (fun q' h => q' ∈ insert q s.broadcast.subscribers ↔ Tries h) ?_ ?_
    · simp [Tries, Handler.inTry]
    · intro q' hq
      simpa [hq] using h.subscribed q'
  case gauge => simp [Finset.card_insert_of_notMem hnew, h.gauge]
  case unmade =>
    refine forall_at (fun q' h => Outside h → Function.update s.broadcast.queue q
      (some ⟨s.broadcast.maxsize, []⟩) q' = none) (by simp [Outside]) ?_
    intro q' hq houtside
    rw [Function.update_of_ne hq]
    exact h.unmade q' houtside
  case made =>
    refine forall_at (fun q' h => Tries h → (Function.update s.broadcast.queue q
      (some ⟨s.broadcast.maxsize, []⟩) q').isSome) (by simp) ?_
    intro q' hq htries
    rw [Function.update_of_ne hq]
    exact h.made q' htries
  case early =>
    exact forall_at (fun q' h => Early h → s.broadcast.received q' = [])
      (fun _ => h.early q (by simp [haccepting, Early])) fun q' _ => h.early q'
  case sends => exact h.sends

/-- A handler leaves its `try`. -/
theorem finish (h : Good s) (htries : Tries (s.handler q)) (hfinish : s.finish q = some t) :
    Good t := by
  obtain ⟨b, hb, rfl⟩ := Option.map_eq_some_iff.mp hfinish
  obtain rfl := unsubscribe_eq hb
  have hcard := Finset.card_erase_add_one ((h.subscribed q).mpr htries)
  constructor
  case subscribed =>
    refine forall_at (fun q' h => q' ∈ s.broadcast.subscribers.erase q ↔ Tries h) ?_ ?_
    · simp [Tries, Handler.inTry]
    · intro q' hq
      simpa [hq] using h.subscribed q'
  case gauge =>
    have hgauge := h.gauge
    simp only
    omega
  case unmade =>
    exact forall_at (fun q' h => Outside h → s.broadcast.queue q' = none) (by simp [Outside])
      fun q' _ => h.unmade q'
  case made =>
    exact forall_at (fun q' h => Tries h → (s.broadcast.queue q').isSome)
      (by simp [Tries, Handler.inTry]) fun q' _ => h.made q'
  case early =>
    exact forall_at (fun q' h => Early h → s.broadcast.received q' = []) (by simp [Early])
      fun q' _ => h.early q'
  case sends => exact h.sends

omit [DecidableEq ι] in
/-- The queues change, but not what was made of them nor what was got. -/
theorem withBroadcast (h : Good s) (hsubscribers : b.subscribers = s.broadcast.subscribers)
    (hreceived : b.received = s.broadcast.received)
    (hqueue : ∀ q, (b.queue q).isSome = (s.broadcast.queue q).isSome) :
    Good { s with broadcast := b } := by
  refine ⟨?_, ?_, ?_, ?_, ?_, ?_⟩
  · simpa [hsubscribers] using h.subscribed
  · simpa [hsubscribers] using h.gauge
  · intro q houtside
    have hnone := h.unmade q houtside
    simpa [hnone] using hqueue q
  · intro q htries
    rw [hqueue]
    exact h.made q htries
  · simpa [hreceived] using h.early
  · simpa [hreceived] using h.sends

/-- An envelope is got, and forwarded if it is to be. -/
theorem got (h : Good s) (hwaiting : s.handler q = some .waiting) {envelope : Dict Json}
    (hsubscribers : b.subscribers = s.broadcast.subscribers)
    (hreceived : b.received =
      Function.update s.broadcast.received q (s.broadcast.received q ++ [envelope]))
    (hqueue : ∀ q', (b.queue q').isSome = (s.broadcast.queue q').isSome) :
    Good { s with
      broadcast := b
      sends := Function.update s.sends q
        (s.sends q ++ if forwarded (s.snapshot q) envelope then [envelope] else []) } := by
  refine ⟨?_, ?_, ?_, ?_, ?_, ?_⟩
  · simpa [hsubscribers] using h.subscribed
  · simpa [hsubscribers] using h.gauge
  · intro q' houtside
    have hnone := h.unmade q' houtside
    simpa [hnone] using hqueue q'
  · intro q' htries
    rw [hqueue]
    exact h.made q' htries
  · intro q' hearly
    by_cases hq : q' = q
    · subst hq
      simp [hwaiting, Early] at hearly
    · simpa [hreceived, hq] using h.early q' hearly
  · intro q'
    by_cases hq : q' = q
    · subst hq
      simp only [hreceived, Function.update_self, List.filter_append, h.sends, List.filter_cons,
        List.filter_nil]
    · simpa [hreceived, hq] using h.sends q'

/-- The first snapshot is read before anything is got. -/
theorem withSnapshot (h : Good s) (hearly : Early (s.handler q)) (rows : List Row) :
    Good { s with snapshot := Function.update s.snapshot q rows } := by
  refine ⟨h.subscribed, h.gauge, h.unmade, h.made, h.early, fun q' => ?_⟩
  by_cases hq : q' = q
  · subst hq
    simp [h.sends, h.early q' hearly]
  · simpa [hq] using h.sends q'

/-- What a handler does with an envelope that it has got. -/
theorem take (h : Good s) (hwaiting : s.handler q = some .waiting) {envelope : Dict Json}
    {rest : List (Dict Json)} (hbacklog : s.broadcast.backlog q = envelope :: rest)
    (hb : Broadcast.step s.broadcast (.get q) = some b)
    (htake : State.take { s with broadcast := b } q envelope = some t) : Good t := by
  obtain ⟨envelope', rest', hbacklog', hsubscribers, hreceived, hqueue⟩ := get_eq hb
  obtain ⟨rfl, -⟩ := List.cons.inj (hbacklog.symm.trans hbacklog')
  have hgot := h.got hwaiting hsubscribers hreceived hqueue
  unfold State.take at htake
  cases hstale : isStale envelope (snapshotTimestamps (s.snapshot q)) with
  | error e =>
    simp only [hstale] at htake
    simp only [forwarded, hstale, Bool.false_eq_true, if_false, List.append_nil,
      Function.update_eq_self] at hgot
    exact hgot.finish (by simp [hwaiting, Tries, Handler.inTry]) htake
  | ok stale =>
    cases stale with
    | true =>
      simp only [hstale, Option.some.injEq] at htake
      simp only [forwarded, hstale, Bool.false_eq_true, if_false, List.append_nil,
        Function.update_eq_self] at hgot
      exact htake ▸ hgot
    | false =>
      simp only [hstale, Option.some.injEq] at htake
      simp only [forwarded, hstale, if_true] at hgot
      rw [← htake]
      have htry : Tries (some .sendingEnvelope) ↔ Tries (s.handler q) := by
        simp [hwaiting, Tries, Handler.inTry]
      exact hgot.move htry (by simp [Outside]) (by simp [Early])

theorem step {e : Event ι} (h : Good s) (hstep : Sessions.step s e = some t) : Good t := by
  cases e with
  | opens q =>
    simp only [Sessions.step] at hstep
    split at hstep
    · rename_i hnone
      rw [← Option.some.inj hstep]
      exact h.move (by simp [hnone, Tries, Handler.inTry]) (by simp [hnone, Outside])
        (by simp [hnone, Early])
    · cases hstep
  | accepts q =>
    simp only [Sessions.step] at hstep
    split at hstep
    · rename_i haccepting
      exact h.enter haccepting hstep
    · cases hstep
  | readsSnapshot q rows =>
    simp only [Sessions.step] at hstep
    split at hstep
    · rename_i hreading
      rw [← Option.some.inj hstep]
      have hmoved : Good (s.at q .sendingSnapshot) :=
        h.move (by simp [hreading, Tries, Handler.inTry]) (by simp [Outside])
          (by simp [hreading, Early])
      exact hmoved.withSnapshot (q := q) (by simp [handler_at, Early]) rows
    · cases hstep
  | sentSnapshot q | sentEnvelope q =>
    simp only [Sessions.step] at hstep
    split at hstep
    · rename_i hsending
      rw [← Option.some.inj hstep]
      exact h.move (by simp [hsending, Tries, Handler.inTry]) (by simp [Outside]) (by simp [Early])
    · cases hstep
  | gets q =>
    simp only [Sessions.step] at hstep
    split at hstep
    · rename_i hwaiting
      split at hstep
      · rename_i envelope rest hbacklog
        obtain ⟨b, hb, htake⟩ := Option.bind_eq_some_iff.mp hstep
        exact h.take hwaiting hbacklog hb htake
      · cases hstep
    · cases hstep
  | raises q =>
    simp only [Sessions.step] at hstep
    split at hstep
    · cases hstep
    · cases hstep
    · rename_i haccepting
      rw [← Option.some.inj hstep]
      exact h.move (by simp [haccepting, Tries, Handler.inTry]) (by simp [Outside]) (by simp [Early])
    all_goals
      rename_i hcase
      exact h.finish (by simp [hcase, Tries, Handler.inTry]) hstep
  | publish envelope order =>
    obtain ⟨b, hb, rfl⟩ := Option.map_eq_some_iff.mp hstep
    obtain ⟨hsubscribers, hreceived, hqueue⟩ := publish_eq hb
    exact h.withBroadcast hsubscribers hreceived hqueue

end Good

section Runs

variable {s t : State ι} {q : ι} {events : List (Event ι)}

theorem enter_call (h : s.enter q = some t) :
    Broadcast.step s.broadcast (.subscribe q) = some t.broadcast := by
  obtain ⟨b, hb, rfl⟩ := Option.map_eq_some_iff.mp h
  exact hb

theorem finish_call (h : s.finish q = some t) :
    Broadcast.step s.broadcast (.unsubscribe q) = some t.broadcast := by
  obtain ⟨b, hb, rfl⟩ := Option.map_eq_some_iff.mp h
  exact hb

/-- What is got is kept or given back with the queue. -/
theorem take_call {envelope : Dict Json} (h : s.take q envelope = some t) :
    t.broadcast = s.broadcast ∨ Broadcast.step s.broadcast (.unsubscribe q) = some t.broadcast := by
  unfold State.take at h
  split at h
  · exact .inr (finish_call h)
  · rw [← Option.some.inj h]
    exact .inl rfl
  · rw [← Option.some.inj h]
    exact .inl rfl

/-- The calls behind an event. -/
theorem Follows.step {e : Event ι} (h : Follows events s.broadcast)
    (hstep : Sessions.step s e = some t) : Follows (events ++ [e]) t.broadcast := by
  cases e with
  | opens | readsSnapshot | sentSnapshot | sentEnvelope =>
    simp only [Sessions.step] at hstep
    split at hstep
    · rw [← Option.some.inj hstep]
      exact h.silent rfl
    · cases hstep
  | accepts q =>
    simp only [Sessions.step] at hstep
    split at hstep
    · exact h.call (enter_call hstep) rfl
    · cases hstep
  | gets q =>
    simp only [Sessions.step] at hstep
    split at hstep
    · split at hstep
      · obtain ⟨b, hb, htake⟩ := Option.bind_eq_some_iff.mp hstep
        have hgot : Follows (events ++ [.gets q]) b := h.call hb rfl
        rcases take_call htake with hsame | hgiven
        · exact hsame ▸ hgot
        · exact hgot.more hgiven rfl
      · cases hstep
    · cases hstep
  | raises q =>
    simp only [Sessions.step] at hstep
    split at hstep
    · cases hstep
    · cases hstep
    · rw [← Option.some.inj hstep]
      exact h.silent rfl
    all_goals exact h.call (finish_call hstep) rfl
  | publish envelope order =>
    obtain ⟨b, hb, rfl⟩ := Option.map_eq_some_iff.mp hstep
    exact h.call hb rfl

theorem good (h : run events = some s) : Good s ∧ Follows events s.broadcast := by
  refine foldlM_induction (P := fun events s => Good s ∧ Follows events s.broadcast) ?_ ?_ h
  · refine ⟨⟨?_, rfl, fun _ _ => rfl, ?_, fun _ _ => rfl, fun _ => rfl⟩, [], rfl, rfl⟩
    · simp [init, Broadcast.init, Tries]
    · simp [init, Tries]
  · rintro events s e t - ⟨hgood, hfollows⟩ hstep
    exact ⟨hgood.step hstep, hfollows.step hstep⟩

/-- A handler that has been accepted subscribes, and one in its `try` leaves it. -/
theorem Good.accepts_raises (h : Good s) (q : ι) :
    (s.handler q = some .accepting → (Sessions.step s (.accepts q)).isSome) ∧
      (Tries (s.handler q) → (Sessions.step s (.raises q)).isSome) := by
  constructor
  · intro haccepting
    have hnone := h.unmade q (by simp [haccepting, Outside])
    simp [Sessions.step, haccepting, State.enter, Broadcast.step, hnone]
  · intro htries
    have hmade := h.made q htries
    cases hq : s.handler q with
    | none => simp [hq, Tries] at htries
    | some handler =>
      cases handler with
      | accepting | ended => simp [hq, Tries, Handler.inTry] at htries
      | _ => simp [Sessions.step, hq, State.finish, Broadcast.step, hmade]

/-- After any events, in any order and whatever raises: the gauge counts the subscribers,
which are the handlers in their `try`, and each of these can still leave it.  Every client
has been sent, in the order of publishing, what its handler got and `_is_stale` let through. -/
theorem sessions_accounted (hrun : run events = some s) :
    s.gauge = s.broadcast.subscribers.card ∧
      (∀ q, q ∈ s.broadcast.subscribers ↔ Tries (s.handler q)) ∧
      (∀ q, s.handler q = some .accepting → (Sessions.step s (.accepts q)).isSome) ∧
      (∀ q, Tries (s.handler q) → (Sessions.step s (.raises q)).isSome) ∧
      ∀ q, s.sends q = (s.broadcast.received q).filter (forwarded (s.snapshot q)) ∧
        (s.broadcast.received q ++ s.broadcast.backlog q).Sublist
          (events.filterMap Event.published) := by
  obtain ⟨hgood, calls, hcalls, hpublished⟩ := good hrun
  refine ⟨hgood.gauge, hgood.subscribed, fun q => (hgood.accepts_raises q).1,
    fun q => (hgood.accepts_raises q).2, fun q => ⟨hgood.sends q, ?_⟩⟩
  have hmax : (1 : Int) ≤ Live.maxsize := by decide
  have hcontent := (Broadcast.accounted hmax hcalls q).content
  have hsublist := Broadcast.delivered_sublist (Live.maxsize : Int) calls q
  rw [← hcontent, hpublished] at hsublist
  exact hsublist

end Runs

/-- One client reads along; the other's connection breaks while its snapshot is read. -/
def brokenOff : List (Event Bool) :=
  [.opens true, .accepts true, .opens false, .readsSnapshot true [], .accepts false,
    .publish (envelopeAt 1000) [false, true], .raises false, .sentSnapshot true, .gets true,
    .publish (envelopeAt 2000) [true]]

theorem sessions_accounted_broken : ∃ s, run brokenOff = some s ∧
    (s.broadcast.subscribers.card : Int) = 1 ∧ s.sends true = [envelopeAt 1000] := by
  obtain ⟨s, hs⟩ : ∃ s, run brokenOff = some s := Option.isSome_iff_exists.mp (by decide +kernel)
  obtain ⟨hgauge, -⟩ := sessions_accounted hs
  have hread : (run brokenOff).map (fun s => (s.gauge, s.sends true)) =
      some (1, [envelopeAt 1000]) := by decide +kernel
  simp only [hs, Option.map_some, Option.some.injEq, Prod.mk.injEq] at hread
  exact ⟨s, hs, hgauge.symm.trans hread.1, hread.2⟩

end RtlsStream.Live.Sessions
