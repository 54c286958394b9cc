/-
  Live/Broadcast.lean --- `backend/broadcast.py`, under any interleaving of its callers.

  Every subscriber has a bounded queue of its own.  `publish` offers the envelope to
  the queues of the set one after the other, in the order in which the set happens to
  be iterated, and drops it for a queue that is full.  The event loop runs one call at
  a time, so a run is a list of calls.  A subscriber that waits in `queue.get()` makes
  its step when there is something to get.

  What a subscriber has is compared with the calls themselves: with what was published
  while it was subscribed and its own queue had room.
-/
import Mathlib.Data.Finset.Basic
import Mathlib.Data.Finset.Dedup
import RtlsStream.Live.System

set_option autoImplicit false

namespace RtlsStream.Live

open RtlsStream.Foundation RtlsStream.Python RtlsStream.Store

namespace Broadcast

/-! ## Queues -/

/-- `asyncio.Queue` -/
structure Queue (α : Type*) where
  maxsize : Int
  items : List α

variable {ι α : Type*}

/-- A `maxsize` that is not positive means no bound. -/
def Queue.full (queue : Queue α) : Bool :=
  decide (0 < queue.maxsize) && decide (queue.maxsize ≤ queue.items.length)

/-- Nothing is `QueueFull`. -/
def Queue.putNowait (queue : Queue α) (item : α) : Option (Queue α) :=
  if queue.full then none else some { queue with items := queue.items ++ [item] }

/-- The body of the loop of `publish`: a full queue is left alone. -/
def Queue.offer (queue : Queue α) (item : α) : Queue α :=
  (queue.putNowait item).getD queue

theorem Queue.offer_of_room {queue : Queue α} (item : α)
    (hroom : (queue.items.length : Int) < queue.maxsize) :
    queue.offer item = { queue with items := queue.items ++ [item] } := by
  have hfull : queue.full = false := by
    simp only [Queue.full, Bool.and_eq_false_iff, decide_eq_false_iff_not]
    omega
  simp [Queue.offer, Queue.putNowait, hfull]

theorem Queue.offer_of_full {queue : Queue α} (item : α) (hmax : 1 ≤ queue.maxsize)
    (hroom : ¬ (queue.items.length : Int) < queue.maxsize) : queue.offer item = queue := by
  have hfull : queue.full = true := by
    simp only [Queue.full, Bool.and_eq_true, decide_eq_true_eq]
    omega
  simp [Queue.offer, Queue.putNowait, hfull]

/-- A queue within its bound takes a message exactly when it is not at its bound, and stays
within. -/
theorem Queue.offer_items {queue : Queue α} (item : α) (hmax : 1 ≤ queue.maxsize)
    (hlength : (queue.items.length : Int) ≤ queue.maxsize) :
    (queue.offer item).items =
        queue.items ++ (if (queue.items.length : Int) ≠ queue.maxsize then [item] else []) ∧
      ((queue.offer item).items.length : Int) ≤ queue.maxsize := by
  by_cases hroom : (queue.items.length : Int) < queue.maxsize
  · rw [queue.offer_of_room item hroom]
    refine ⟨by simp [hroom.ne], ?_⟩
    simp only [List.length_append, List.length_singleton, Nat.cast_add, Nat.cast_one]
    omega
  · have hfull : (queue.items.length : Int) = queue.maxsize := by omega
    rw [queue.offer_of_full item hmax hroom]
    exact ⟨by simp [hfull], hlength⟩

@[simp] theorem Queue.offer_maxsize (queue : Queue α) (item : α) :
    (queue.offer item).maxsize = queue.maxsize := by
  unfold Queue.offer Queue.putNowait
  split <;> rfl

/-! ## The broadcast and its callers -/

/-- The queues `subscribe` has made, whether or not still subscribed, and what was got
from each. -/
structure State (ι α : Type*) where
  maxsize : Int
  subscribers : Finset ι
  queue : ι → Option (Queue α)
  received : ι → List α

/-- What is waiting in a queue. -/
def State.backlog (s : State ι α) (q : ι) : List α :=
  match s.queue q with
  | some queue => queue.items
  | none => []

/-- A call; `order` is the order in which `publish` iterates over the set. -/
inductive Event (ι α : Type*) where
  | subscribe (q : ι)
  | unsubscribe (q : ι)
  | publish (envelope : α) (order : List ι)
  | get (q : ι)

variable [DecidableEq ι]

/-- `Broadcast()` -/
def init (maxsize : Int) : State ι α := ⟨maxsize, ∅, fun _ => none, fun _ => []⟩

/-- The loop of `publish`. -/
def publishTo (queues : ι → Option (Queue α)) (envelope : α) : List ι → ι → Option (Queue α)
  | [] => queues
  | q :: rest =>
    publishTo (Function.update queues q ((queues q).map (·.offer envelope))) envelope rest

/-- What a call does.  Nothing is for a call that cannot be made: every `subscribe` makes a
queue of its own, only queues that were made can be given back or read, the set is
iterated over as it is, and `get` waits while there is nothing to get. -/
def step (s : State ι α) : Event ι α → Option (State ι α)
  | .subscribe q =>
    if (s.queue q).isSome then none
    else some { s with
      subscribers := insert q s.subscribers
      queue := Function.update s.queue q (some ⟨s.maxsize, []⟩) }
  | .unsubscribe q =>
    if (s.queue q).isSome then some { s with subscribers := s.subscribers.erase q } else none
  | .publish envelope order =>
    if order.Nodup ∧ order.toFinset = s.subscribers then
      some { s with queue := publishTo s.queue envelope order }
    else none
  | .get q =>
    match s.queue q with
    | some ⟨maxsize, item :: rest⟩ => some { s with
        queue := Function.update s.queue q (some ⟨maxsize, rest⟩)
        received := Function.update s.received q (s.received q ++ [item]) }
    | _ => none

/-- The state after a list of calls. -/
def run (maxsize : Int) (events : List (Event ι α)) : Option (State ι α) :=
  events.foldlM step (init maxsize)

/-- Every queue of the set is offered the envelope once. -/
theorem publishTo_apply {queues : ι → Option (Queue α)} {envelope : α} {order : List ι}
    (hnodup : order.Nodup) (q : ι) :
    publishTo queues envelope order q =
      if q ∈ order then (queues q).map (·.offer envelope) else queues q := by
  induction order generalizing queues with
  | nil => simp [publishTo]
  | cons first rest ih =>
    obtain ⟨hfirst, hrest⟩ := List.nodup_cons.mp hnodup
    rw [publishTo, ih hrest]
    by_cases hq : q = first
    · subst hq
      simp [hfirst]
    · simp [hq]

/-! ## One subscriber's view -/

/-- What a subscriber notices of a call. -/
inductive Seen (α : Type*) where
  | subscribed
  | unsubscribed
  | published (envelope : α)
  | got

/-- Nothing of the calls on other queues. -/
def Event.seenBy (q : ι) : Event ι α → Option (Seen α)
  | .subscribe r => if r = q then some .subscribed else none
  | .unsubscribe r => if r = q then some .unsubscribed else none
  | .publish envelope _ => some (.published envelope)
  | .get r => if r = q then some .got else none

/-- A subscriber alone with the publisher. -/
structure Subscription (α : Type*) where
  subscribed : Bool
  queue : Option (Queue α)
  received : List α

def Subscription.see (maxsize : Int) (v : Subscription α) : Seen α → Subscription α
  | .subscribed => { v with subscribed := true, queue := some ⟨maxsize, []⟩ }
  | .unsubscribed => { v with subscribed := false }
  | .published envelope =>
    if v.subscribed then { v with queue := v.queue.map (·.offer envelope) } else v
  | .got =>
    match v.queue with
    | some ⟨bound, item :: rest⟩ =>
      { v with queue := some ⟨bound, rest⟩, received := v.received ++ [item] }
    | _ => v

/-- The part of the state that is one subscriber's. -/
def State.subscription (s : State ι α) (q : ι) : Subscription α where
  subscribed := decide (q ∈ s.subscribers)
  queue := s.queue q
  received := s.received q

theorem step_maxsize {s t : State ι α} {e : Event ι α} (h : step s e = some t) :
    t.maxsize = s.maxsize := by
  cases e with
  | subscribe | unsubscribe | publish =>
    simp only [step] at h
    split at h <;> cases h
    rfl
  | get =>
    simp only [step] at h
    split at h <;> cases h
    rfl

/-- A call changes a subscriber's part as if the others were not there. -/
theorem step_subscription {s t : State ι α} {e : Event ι α} (h : step s e = some t) (q : ι) :
    t.subscription q =
      match e.seenBy q with
      | some seen => (s.subscription q).see s.maxsize seen
      | none => s.subscription q := by
  cases e with
  | subscribe r =>
    simp only [step] at h
    split at h <;> cases h
    by_cases hr : r = q
    · subst hr
      simp [State.subscription, Event.seenBy, Subscription.see]
    · simp [State.subscription, Event.seenBy, hr, Ne.symm hr]
  | unsubscribe r =>
    simp only [step] at h
    split at h <;> cases h
    by_cases hr : r = q
    · subst hr
      simp [State.subscription, Event.seenBy, Subscription.see]
    · simp [State.subscription, Event.seenBy, hr, Ne.symm hr]
  | publish envelope order =>
    simp only [step] at h
    split at h <;> cases h
    rename_i hiterated
    have hmem : q ∈ order ↔ q ∈ s.subscribers := by rw [← hiterated.2, List.mem_toFinset]
    simp only [State.subscription, Event.seenBy, Subscription.see,
      publishTo_apply hiterated.1, hmem, decide_eq_true_eq]
    split <;> rfl
  | get r =>
    simp only [step] at h
    split at h <;> cases h
    rename_i maxsize item rest hqueue
    by_cases hr : r = q
    · subst hr
      simp [State.subscription, Event.seenBy, Subscription.see, hqueue]
    · simp [State.subscription, Event.seenBy, hr, Ne.symm hr]

/-- A subscriber alone with the publisher, from the start. -/
def Subscription.fresh : Subscription α := ⟨false, none, []⟩

/-- What a subscriber has is a function of what it notices. -/
theorem run_subscription {maxsize : Int} {events : List (Event ι α)} {s : State ι α}
    (h : run maxsize events = some s) (q : ι) :
    s.maxsize = maxsize ∧
      s.subscription q =
        (events.filterMap (Event.seenBy q)).foldl (Subscription.see maxsize) .fresh := by
  refine foldlM_induction (P := fun events s => s.maxsize = maxsize ∧ s.subscription q =
    (events.filterMap (Event.seenBy q)).foldl (Subscription.see maxsize) .fresh) ⟨rfl, rfl⟩ ?_ h
  rintro events t e s - ⟨hmax, hview⟩ hstep
  refine ⟨(step_maxsize hstep).trans hmax, ?_⟩
  rw [step_subscription hstep q, hmax, hview, List.filterMap_append, List.foldl_append]
  cases hseen : e.seenBy q <;> simp [hseen]

/-! ## What a subscriber is owed -/

def Event.subscribes (q : ι) : Event ι α → Bool
  | .subscribe r => r = q
  | _ => false

def Event.unsubscribes (q : ι) : Event ι α → Bool
  | .unsubscribe r => r = q
  | _ => false

def Event.published : Event ι α → Option α
  | .publish envelope _ => some envelope
  | _ => none

/-- Between the `subscribe` that made the queue and its `unsubscribe`. -/
def subscribedAfter (events : List (Event ι α)) (q : ι) : Bool :=
  events.any (·.subscribes q) && !events.any (·.unsubscribes q)

/-- What waits in a queue after a list of calls. -/
def backlogAfter (maxsize : Int) (events : List (Event ι α)) (q : ι) : List α :=
  match run maxsize events with
  | some s => s.backlog q
  | none => []

/-- What the call number `i` publishes to `q`: nothing outside of the subscription, and
nothing while `maxsize` messages wait. -/
def deliveredAt (maxsize : Int) (events : List (Event ι α)) (q : ι) (i : Nat) : Option α :=
  match events[i]? with
  | some e =>
    if subscribedAfter (events.take i) q ∧
        ((backlogAfter maxsize (events.take i) q).length : Int) ≠ maxsize then e.published
    else none
  | none => none

/-- The published messages `q` is to get, call by call. -/
def delivered (maxsize : Int) (events : List (Event ι α)) (q : ι) : List α :=
  (List.range events.length).filterMap (deliveredAt maxsize events q)

theorem delivered_append_singleton (maxsize : Int) (events : List (Event ι α)) (e : Event ι α)
    (q : ι) : delivered maxsize (events ++ [e]) q = delivered maxsize events q ++
      (if subscribedAfter events q ∧ ((backlogAfter maxsize events q).length : Int) ≠ maxsize then
        e.published.toList
      else []) := by
  have hbefore : ∀ i ∈ List.range events.length,
      deliveredAt maxsize (events ++ [e]) q i = deliveredAt maxsize events q i := by
    intro i hi
    have hlt : i < events.length := List.mem_range.mp hi
    rw [deliveredAt, deliveredAt, List.getElem?_append_left hlt,
      List.take_append_of_le_length hlt.le]
  have hlast : deliveredAt maxsize (events ++ [e]) q events.length =
      if subscribedAfter events q ∧ ((backlogAfter maxsize events q).length : Int) ≠ maxsize then
        e.published
      else none := by
    simp [deliveredAt]
  rw [delivered, List.length_append, List.length_singleton, List.range_succ,
    List.filterMap_append, List.filterMap_congr hbefore, delivered]
  congr 1
  rw [List.filterMap_cons, hlast, List.filterMap_nil]
  split_ifs
  · cases e.published <;> rfl
  · rfl

/-- What is delivered is some of what was published, in the same order. -/
theorem delivered_sublist (maxsize : Int) (events : List (Event ι α)) (q : ι) :
    (delivered maxsize events q).Sublist (events.filterMap Event.published) := by
  induction events using List.reverseRecOn with
  | nil => simp [delivered]
  | append_singleton events e ih =>
    rw [delivered_append_singleton, List.filterMap_append]
    refine ih.append ?_
    split_ifs
    · cases he : e.published <;> simp [he]
    · exact List.nil_sublist _

/-! ## The account of a subscriber -/

theorem subscribes_eq (e : Event ι α) (q : ι) :
    e.subscribes q = match e.seenBy q with
      | some .subscribed => true
      | _ => false := by
  cases e with
  | publish => rfl
  | subscribe r | unsubscribe r | get r =>
    by_cases hr : r = q <;> simp [Event.subscribes, Event.seenBy, hr]

theorem unsubscribes_eq (e : Event ι α) (q : ι) :
    e.unsubscribes q = match e.seenBy q with
      | some .unsubscribed => true
      | _ => false := by
  cases e with
  | publish => rfl
  | subscribe r | unsubscribe r | get r =>
    by_cases hr : r = q <;> simp [Event.unsubscribes, Event.seenBy, hr]

theorem published_eq (e : Event ι α) (q : ι) :
    e.published = match e.seenBy q with
      | some (.published envelope) => some envelope
      | _ => none := by
  cases e with
  | publish => rfl
  | subscribe r | unsubscribe r | get r =>
    by_cases hr : r = q <;> simp [Event.published, Event.seenBy, hr]

/-- A queue is made by one `subscribe` only. -/
theorem unmade_of_subscribed {s t : State ι α} {e : Event ι α} {q : ι} (h : step s e = some t)
    (hseen : e.seenBy q = some .subscribed) : s.queue q = none := by
  cases e with
  | subscribe r =>
    by_cases hr : r = q
    · subst hr
      simp only [step] at h
      split at h
      · cases h
      · rename_i hnone
        simpa using hnone
    · simp [Event.seenBy, hr] at hseen
  | publish => cases hseen
  | unsubscribe r | get r =>
    simp only [Event.seenBy] at hseen
    split at hseen <;> cases hseen

/-- Only a queue that was made is given back. -/
theorem made_of_unsubscribed {s t : State ι α} {e : Event ι α} {q : ι} (h : step s e = some t)
    (hseen : e.seenBy q = some .unsubscribed) : (s.queue q).isSome := by
  cases e with
  | unsubscribe r =>
    by_cases hr : r = q
    · subst hr
      simp only [step] at h
      split at h
      · assumption
      · cases h
    · simp [Event.seenBy, hr] at hseen
  | publish => cases hseen
  | subscribe r | get r =>
    simp only [Event.seenBy] at hseen
    split at hseen <;> cases hseen

def Subscription.backlog (v : Subscription α) : List α :=
  match v.queue with
  | some queue => queue.items
  | none => []

/-- What holds of a subscriber after a list of calls. -/
structure Accounted (maxsize : Int) (events : List (Event ι α)) (q : ι) (v : Subscription α) :
    Prop where
  made : v.queue.isSome = events.any (·.subscribes q)
  given : events.any (·.unsubscribes q) → v.queue.isSome
  subscribed : v.subscribed = subscribedAfter events q
  bound : ∀ queue, v.queue = some queue →
    queue.maxsize = maxsize ∧ (queue.items.length : Int) ≤ maxsize
  content : v.received ++ v.backlog = delivered maxsize events q

/-- A call that the subscriber does not notice. -/
theorem Accounted.unseen {maxsize : Int} {events : List (Event ι α)} {q : ι} {v : Subscription α}
    (h : Accounted maxsize events q v) {e : Event ι α} (hseen : e.seenBy q = none) :
    Accounted maxsize (events ++ [e]) q v := by
  constructor
  case made => simp [h.made, subscribes_eq, hseen]
  case given => simpa [unsubscribes_eq, hseen] using h.given
  case subscribed =>
    simp [h.subscribed, subscribedAfter, subscribes_eq e, unsubscribes_eq e, hseen]
  case bound => exact h.bound
  case content =>
    simp [delivered_append_singleton, published_eq e q, hseen, h.content]

/-- The queue is new: nothing was published to it before. -/
theorem Accounted.subscribe {maxsize : Int} (hmax : 1 ≤ maxsize) {events : List (Event ι α)}
    {q : ι} {v : Subscription α} (h : Accounted maxsize events q v) {e : Event ι α}
    (hseen : e.seenBy q = some .subscribed) (hnone : v.queue = none) :
    Accounted maxsize (events ++ [e]) q (v.see maxsize .subscribed) := by
  have hfirst : events.any (·.unsubscribes q) = false := by
    rw [← Bool.not_eq_true]
    intro hany
    simpa [hnone] using h.given hany
  constructor
  case made => simp [Subscription.see, subscribes_eq, hseen]
  case given => simp [Subscription.see]
  case subscribed =>
    simp [Subscription.see, subscribedAfter, subscribes_eq e, unsubscribes_eq e, hseen, hfirst]
  case bound =>
    rintro queue hqueue
    cases hqueue
    exact ⟨rfl, by simpa using (by omega : (0 : Int) ≤ maxsize)⟩
  case content =>
    have hcontent := h.content
    rw [Subscription.backlog, hnone] at hcontent
    simpa [delivered_append_singleton, published_eq e q, hseen, Subscription.see,
      Subscription.backlog] using hcontent

theorem Accounted.unsubscribe {maxsize : Int} {events : List (Event ι α)} {q : ι}
    {v : Subscription α} (h : Accounted maxsize events q v) {e : Event ι α}
    (hseen : e.seenBy q = some .unsubscribed) (hmade : v.queue.isSome) :
    Accounted maxsize (events ++ [e]) q (v.see maxsize .unsubscribed) := by
  constructor
  case made => simp [Subscription.see, h.made, subscribes_eq e, hseen]
  case given => exact fun _ => hmade
  case subscribed => simp [Subscription.see, subscribedAfter, unsubscribes_eq e, hseen]
  case bound => exact h.bound
  case content =>
    have hcontent := h.content
    simpa [delivered_append_singleton, published_eq e q, hseen, Subscription.see,
      Subscription.backlog] using hcontent

/-- The envelope reaches the queue if the queue is subscribed and has room. -/
theorem Accounted.publish {maxsize : Int} (hmax : 1 ≤ maxsize) {events : List (Event ι α)}
    {q : ι} {v : Subscription α} (h : Accounted maxsize events q v)
    (hbacklog : backlogAfter maxsize events q = v.backlog) {e : Event ι α} {envelope : α}
    (hseen : e.seenBy q = some (.published envelope)) :
    Accounted maxsize (events ++ [e]) q (v.see maxsize (.published envelope)) := by
  have hsubscribes : e.subscribes q = false := by rw [subscribes_eq, hseen]
  have hunsubscribes : e.unsubscribes q = false := by rw [unsubscribes_eq, hseen]
  have hafter : delivered maxsize (events ++ [e]) q = delivered maxsize events q ++
      (if v.subscribed ∧ (v.backlog.length : Int) ≠ maxsize then [envelope] else []) := by
    rw [delivered_append_singleton, hbacklog, published_eq e q, hseen, h.subscribed]
    rfl
  have hsubscribed : v.subscribed = subscribedAfter (events ++ [e]) q := by
    simp [h.subscribed, subscribedAfter, hsubscribes, hunsubscribes]
  cases hopen : v.subscribed with
  | false =>
    have hsees : v.see maxsize (.published envelope) = v := by simp [Subscription.see, hopen]
    rw [hsees]
    constructor
    case made => simp [h.made, hsubscribes]
    case given => simpa [hunsubscribes] using h.given
    case subscribed => exact hsubscribed
    case bound => exact h.bound
    case content => simp [hafter, hopen, h.content]
  | true =>
    obtain ⟨queue, hqueue⟩ : ∃ queue, v.queue = some queue := by
      have hafter := h.subscribed
      rw [hopen, subscribedAfter, eq_comm, Bool.and_eq_true] at hafter
      rw [← Option.isSome_iff_exists, h.made]
      exact hafter.1
    obtain ⟨rfl, hlength⟩ := h.bound queue hqueue
    obtain ⟨hitems, hbounded⟩ := queue.offer_items envelope hmax hlength
    have hwaiting : v.backlog = queue.items := by rw [Subscription.backlog, hqueue]
    have hsees : v.see queue.maxsize (.published envelope) =
        { v with queue := some (queue.offer envelope) } := by
      simp [Subscription.see, hopen, hqueue]
    rw [hsees]
    constructor
    case made => simpa [hqueue, hsubscribes] using h.made
    case given => simp
    case subscribed => exact hsubscribed
    case bound =>
      rintro queue' hqueue'
      obtain rfl := Option.some.inj hqueue'
      exact ⟨queue.offer_maxsize envelope, hbounded⟩
    case content =>
      rw [hafter, ← h.content, hopen, hwaiting, List.append_assoc]
      refine congrArg (v.received ++ ·) (hitems.trans ?_)
      simp

/-- What is got moves from the queue to the end of what was received. -/
theorem Accounted.get {maxsize : Int} {events : List (Event ι α)} {q : ι} {v : Subscription α}
    (h : Accounted maxsize events q v) {e : Event ι α} (hseen : e.seenBy q = some .got) :
    Accounted maxsize (events ++ [e]) q (v.see maxsize .got) := by
  have hkept : Accounted maxsize (events ++ [e]) q v := by
    constructor
    case made => simp [h.made, subscribes_eq, hseen]
    case given => simpa [unsubscribes_eq, hseen] using h.given
    case subscribed =>
      simp [h.subscribed, subscribedAfter, subscribes_eq e, unsubscribes_eq e, hseen]
    case bound => exact h.bound
    case content => simp [delivered_append_singleton, published_eq e q, hseen, h.content]
  rw [Subscription.see]
  split
  · rename_i bound item rest hqueue
    constructor
    case made => simpa [hqueue] using hkept.made
    case given => simp
    case subscribed => exact hkept.subscribed
    case bound =>
      rintro queue hrest
      obtain rfl := Option.some.inj hrest
      obtain ⟨hsize, hlength⟩ := h.bound _ hqueue
      refine ⟨hsize, ?_⟩
      simp only [List.length_cons, Nat.cast_add, Nat.cast_one] at hlength ⊢
      omega
    case content =>
      have hcontent := hkept.content
      rw [Subscription.backlog, hqueue] at hcontent
      simpa [Subscription.backlog] using hcontent
  · exact hkept

/-- A call keeps the account of every subscriber. -/
theorem Accounted.step {maxsize : Int} (hmax : 1 ≤ maxsize) {events : List (Event ι α)}
    {s t : State ι α} {q : ι} (hrun : run maxsize events = some s)
    (h : Accounted maxsize events q (s.subscription q)) {e : Event ι α}
    (hstep : Broadcast.step s e = some t) :
    Accounted maxsize (events ++ [e]) q (t.subscription q) := by
  have hbacklog : backlogAfter maxsize events q = (s.subscription q).backlog := by
    simp [backlogAfter, hrun, State.backlog, Subscription.backlog, State.subscription]
  rw [step_subscription hstep q, (run_subscription hrun q).1]
  cases hseen : e.seenBy q with
  | none => exact h.unseen hseen
  | some seen =>
    cases seen with
    | subscribed => exact h.subscribe hmax hseen (unmade_of_subscribed hstep hseen)
    | unsubscribed => exact h.unsubscribe hseen (made_of_unsubscribed hstep hseen)
    | published envelope => exact h.publish hmax hbacklog hseen
    | got => exact h.get hseen

/-- Every run keeps the account of every subscriber. -/
theorem accounted {maxsize : Int} (hmax : 1 ≤ maxsize) {events : List (Event ι α)}
    {s : State ι α} (h : run maxsize events = some s) (q : ι) :
    Accounted maxsize events q (s.subscription q) := by
  refine foldlM_induction
    (P := fun events s => Accounted maxsize events q (s.subscription q)) ?_ ?_ h
  · exact ⟨rfl, by simp, rfl, by rintro queue ⟨⟩, rfl⟩
  · intro events t e s hrun haccounted hstep
    exact haccounted.step hmax hrun hstep

/-- At every point of every run, what a subscriber has got and what waits for it are, in
the order of publishing, the messages published while it was subscribed with room in
its queue; the queue keeps its bound; and any other run in which the subscriber sees the
same calls gives it the same, whatever the others do. -/
theorem broadcast_delivery {maxsize : Int} (hmax : 1 ≤ maxsize) {events : List (Event ι α)}
    {s : State ι α} (hrun : run maxsize events = some s) (q : ι) :
    s.received q ++ s.backlog q = delivered maxsize events q ∧
      (delivered maxsize events q).Sublist (events.filterMap Event.published) ∧
      ((s.backlog q).length : Int) ≤ maxsize ∧
      ∀ (events' : List (Event ι α)) (s' : State ι α), run maxsize events' = some s' →
        events'.filterMap (Event.seenBy q) = events.filterMap (Event.seenBy q) →
        s'.received q = s.received q ∧ s'.backlog q = s.backlog q := by
  have haccount := accounted hmax hrun q
  refine ⟨haccount.content, delivered_sublist maxsize events q, ?_, ?_⟩
  · unfold State.backlog
    cases hqueue : s.queue q with
    | none => simpa using (by omega : (0 : Int) ≤ maxsize)
    | some queue => exact (haccount.bound queue hqueue).2
  · intro events' s' hrun' hseen
    have hsame : s'.subscription q = s.subscription q := by
      rw [(run_subscription hrun' q).2, (run_subscription hrun q).2, hseen]
    obtain ⟨-, hqueue, hreceived⟩ := Subscription.mk.inj hsame
    exact ⟨hreceived, by rw [State.backlog, hqueue, State.backlog]⟩

/-- Two subscribers with queues of one message: one does not read, the other leaves. -/
def slowAndGone : List (Event Bool Nat) :=
  [.subscribe true, .subscribe false, .publish 1 [true, false], .get true,
    .publish 2 [false, true], .unsubscribe true, .publish 3 [false], .get true]

/-- The slow one misses the second message; the other gets what waited when it left. -/
theorem broadcast_delivery_slow_and_gone :
    ∃ s, run 1 slowAndGone = some s ∧ s.received true ++ s.backlog true = [1, 2] ∧
      s.received false ++ s.backlog false = [1] := by
  obtain ⟨s, hs⟩ : ∃ s, run 1 slowAndGone = some s :=
    Option.isSome_iff_exists.mp (by decide)
  refine ⟨s, hs, ?_, ?_⟩
  · exact (broadcast_delivery (by decide) hs true).1.trans (by decide)
  · exact (broadcast_delivery (by decide) hs false).1.trans (by decide)

/-! ## The queue of a session -/

/-- The queue of a session that has subscribed is a queue of a `Broadcast()`. -/
theorem offer_session [Runtime] [Postgres] (S : Session) (e : LiveEnvelope) (hstage : S.stage ≠ .accepted) :
    (S.offer e).queue = (Queue.offer ⟨Live.maxsize, S.queue⟩ e).items := by
  have hoffer : (S.offer e).queue =
      if S.queue.length < Live.maxsize then S.queue ++ [e] else S.queue := by
    unfold Session.offer
    split
    · rename_i haccepted
      exact absurd haccepted hstage
    · split <;> rfl
  have hmax : (1 : Int) ≤ Live.maxsize := by decide
  rw [hoffer]
  by_cases hroom : S.queue.length < Live.maxsize
  · rw [if_pos hroom, Queue.offer_of_room e (by simpa using hroom)]
  · rw [if_neg hroom, Queue.offer_of_full e hmax (by simpa using hroom)]

end Broadcast

end RtlsStream.Live
