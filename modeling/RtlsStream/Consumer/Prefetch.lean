/-
  Consumer/Prefetch.lean --- the consumer's connections and the broker's deliveries.

  `Consumer.Supervisor` has the connections, `Consumer.Delivery` the messages.  Here a
  delivery belongs to a connection: the broker delivers over an open connection only, no
  more than `prefetch_count` messages that it has no ack for, and when a connection closes
  what was unacked on it is ready again.

  The limit is one of each channel.  It holds of the whole (`prefetch_and_shutdown`)
  because the supervisor never has two connections open.  Any message that is ready may be
  delivered next here; `Consumer.Queue` adds the order in which the broker keeps them.
-/
import RtlsStream.Consumer.Progress
import RtlsStream.Consumer.Supervisor
import Mathlib.Data.Set.Card

set_option autoImplicit false

namespace RtlsStream.Consumer.Prefetch

open RtlsStream.Foundation RtlsStream.Python RtlsStream.Store
open RtlsStream.Consumer.Delivery (Accepted)

/-- `prefetch_count` -/
def prefetchCount : ℕ∞ := 10

/-- `queue.consume` may have been called on the connection. -/
def consuming : Supervisor.Pc → Prop
  | .check | .connecting | .stopped => False
  | .setup call => call = .consume
  | _ => True

/-- The consumer with its connections, the broker with its messages, and the connection of
each delivery. -/
structure State (μ : Type) where
  supervisor : Supervisor.State
  delivery : Delivery.State μ
  owner : Nat → Nat

variable {μ : Type}

/-- The messages unacked on a connection -/
def State.unackedOn (s : State μ) (c : Nat) : Set μ :=
  {m | ∃ d, s.delivery.place m = .unacked d ∧ s.owner d = c}

/-- The messages unacked -/
def State.unacked (s : State μ) : Set μ := {m | ∃ d, s.delivery.place m = .unacked d}

/-- What was unacked on connections that are closed is ready again. -/
def State.requeued (s : State μ) : Delivery.Place → Delivery.Place
  | .unacked d => if s.supervisor.isOpen (s.owner d) then .unacked d else .ready
  | place => place

def State.requeue (s : State μ) : State μ :=
  { s with delivery := { s.delivery with place := s.requeued ∘ s.delivery.place } }

/-! ## Unacked messages -/

variable {s : State μ}

/-- What is unacked is unacked by a delivery of an open connection, and on no connection
more than the limit. -/
structure Held (s : State μ) : Prop where
  task : ∀ m d, s.delivery.place m = .unacked d → s.delivery.task d ≠ none
  isOpen : ∀ m d, s.delivery.place m = .unacked d → s.supervisor.isOpen (s.owner d) = true
  few : ∀ c, (s.unackedOn c).encard ≤ prefetchCount

/-- Requeueing leaves what is unacked on open connections. -/
theorem place_requeue {m : μ} {d : Nat} : s.requeue.delivery.place m = .unacked d ↔
    s.delivery.place m = .unacked d ∧ s.supervisor.isOpen (s.owner d) = true := by
  cases hplace : s.delivery.place m with
  | unacked d' =>
    by_cases hopen : s.supervisor.isOpen (s.owner d') = true
    · simp only [State.requeue, Function.comp_apply, hplace, State.requeued, if_pos hopen,
        Delivery.Place.unacked.injEq, iff_self_and]
      rintro rfl
      exact hopen
    · simp only [State.requeue, Function.comp_apply, hplace, State.requeued, if_neg hopen,
        Delivery.Place.unacked.injEq, reduceCtorEq, false_iff, not_and]
      rintro rfl
      exact hopen
  | absent | ready | gone => simp [State.requeue, hplace, State.requeued]

theorem unackedOn_mono {t : State μ} {c : Nat} (howner : t.owner = s.owner)
    (hless : ∀ m d, t.delivery.place m = .unacked d → s.delivery.place m = .unacked d) :
    t.unackedOn c ⊆ s.unackedOn c := by
  rintro m ⟨d, hplace, hc⟩
  exact ⟨d, hless m d hplace, by rw [← howner, hc]⟩

namespace Held

theorem supervisor (h : Held s) (next : Supervisor.State) :
    Held (State.requeue { s with supervisor := next }) := by
  constructor
  case task =>
    intro m d hplace
    exact h.task m d (place_requeue.mp hplace).1
  case isOpen =>
    intro m d hplace
    exact (place_requeue.mp hplace).2
  case few =>
    intro c
    have hless : (State.requeue { s with supervisor := next }).unackedOn c ⊆ s.unackedOn c :=
      unackedOn_mono rfl fun m d hplace => (place_requeue.mp hplace).1
    exact (Set.encard_le_encard hless).trans (h.few c)

end Held

/-- What is unacked is unacked on one connection. -/
theorem unacked_subset (hheld : Held s) (hsafe : Supervisor.Safe s.supervisor) {c : Nat}
    (hopen : s.supervisor.isOpen c = true) : s.unacked ⊆ s.unackedOn c := by
  rintro m ⟨d, hplace⟩
  have howner := hsafe.held _ (hheld.isOpen m d hplace)
  exact ⟨d, hplace, Option.some.inj (howner.symm.trans (hsafe.held c hopen))⟩

theorem unacked_empty (hheld : Held s) (hidle : s.supervisor.Idle) : s.unacked = ∅ := by
  refine Set.eq_empty_iff_forall_notMem.mpr ?_
  rintro m ⟨d, hplace⟩
  have hopen := hheld.isOpen m d hplace
  simp [hidle _] at hopen

/-- A connection that closes takes every delivery with it, or there was none. -/
theorem requeue_eq (hheld : Held s) (hsafe : Supervisor.Safe s.supervisor)
    (next : Supervisor.State) :
    (State.requeue { s with supervisor := next }).delivery = s.delivery ∨
      (State.requeue { s with supervisor := next }).delivery = s.delivery.disconnect := by
  by_cases hkept : ∀ m d, s.delivery.place m = .unacked d → next.isOpen (s.owner d) = true
  · left
    have hplace : State.requeued { s with supervisor := next } ∘ s.delivery.place =
        s.delivery.place := by
      funext m
      cases hm : s.delivery.place m with
      | unacked d => simp [hm, State.requeued, hkept m d hm]
      | absent | ready | gone => simp [hm, State.requeued]
    rw [State.requeue, hplace]
  · right
    simp only [not_forall, Bool.not_eq_true] at hkept
    obtain ⟨m₀, d₀, hplace₀, hclosed⟩ := hkept
    -- every delivery was one of the connection that has closed
    have hsame : ∀ m d, s.delivery.place m = .unacked d → s.owner d = s.owner d₀ := by
      intro m d hplace
      have hone := hsafe.held _ (hheld.isOpen m d hplace)
      exact Option.some.inj (hone.symm.trans (hsafe.held _ (hheld.isOpen m₀ d₀ hplace₀)))
    have hplace : State.requeued { s with supervisor := next } ∘ s.delivery.place =
        s.delivery.disconnect.place := by
      funext m
      cases hm : s.delivery.place m with
      | unacked d => simp [hm, State.requeued, Delivery.State.disconnect, hsame m d hm, hclosed]
      | absent | ready | gone => simp [hm, State.requeued, Delivery.State.disconnect]
    rw [State.requeue, hplace]
    rfl

variable [DecidableEq μ]

/-- One more message is delivered. -/
theorem Held.deliver (h : Held s) {m : μ} {d c : Nat} (hopen : s.supervisor.isOpen c = true)
    (hroom : (s.unackedOn c).encard < prefetchCount) (hfree : s.delivery.task d = none) :
    Held { s with
      delivery := { s.delivery.at d m .received with
        place := Function.update s.delivery.place m (.unacked d) }
      owner := Function.update s.owner d c } := by
  -- what was unacked before is a delivery of its own, and keeps its connection
  have hother : ∀ {m' d'}, m' ≠ m → Function.update s.delivery.place m (.unacked d) m' = .unacked d' →
      s.delivery.place m' = .unacked d' ∧ d' ≠ d := by
    intro m' d' hm hplace
    rw [Function.update_of_ne hm] at hplace
    refine ⟨hplace, ?_⟩
    rintro rfl
    exact h.task m' d' hplace hfree
  constructor
  case task =>
    intro m' d' hplace
    by_cases hm : m' = m
    · subst hm
      simp only [Function.update_self, Delivery.Place.unacked.injEq] at hplace
      simp [Delivery.State.at, hplace]
    · obtain ⟨hbefore, hd⟩ := hother hm hplace
      simpa [Delivery.State.at, Function.update_of_ne hd] using h.task m' d' hbefore
  case isOpen =>
    intro m' d' hplace
    by_cases hm : m' = m
    · subst hm
      simp only [Function.update_self, Delivery.Place.unacked.injEq] at hplace
      simpa [← hplace] using hopen
    · obtain ⟨hbefore, hd⟩ := hother hm hplace
      simpa [Function.update_of_ne hd] using h.isOpen m' d' hbefore
  case few =>
    intro c'
    by_cases hc : c' = c
    · subst hc
      refine (Set.encard_le_encard (t := insert m (s.unackedOn c')) ?_).trans
        ((Set.encard_insert_le _ _).trans (Order.add_one_le_of_lt hroom))
      rintro m' ⟨d', hplace, howner⟩
      by_cases hm : m' = m
      · exact .inl hm
      · obtain ⟨hbefore, hd⟩ := hother hm hplace
        simp only [Function.update_of_ne hd] at howner
        exact .inr ⟨d', hbefore, howner⟩
    · refine (Set.encard_le_encard (t := s.unackedOn c') ?_).trans (h.few c')
      rintro m' ⟨d', hplace, howner⟩
      by_cases hm : m' = m
      · subst hm
        simp only [Function.update_self, Delivery.Place.unacked.injEq] at hplace
        simp only [← hplace, Function.update_self] at howner
        exact absurd howner.symm hc
      · obtain ⟨hbefore, hd⟩ := hother hm hplace
        simp only [Function.update_of_ne hd] at howner
        exact ⟨d', hbefore, howner⟩

/-! ## The whole -/

section Consumer

variable [Runtime] [Postgres]

/-- One step of the supervisor, of the broker or of a task. -/
inductive Step (body : μ → Bytes) : State μ → State μ → Prop
  | supervisor {s : State μ} {next : Supervisor.State} : Supervisor.Step s.supervisor next →
      Step body s (State.requeue { s with supervisor := next })
  | deliver {s : State μ} {m : μ} {d c : Nat} : s.supervisor.isOpen c = true →
      consuming s.supervisor.pc → (s.unackedOn c).encard < prefetchCount →
      s.delivery.place m = .ready → s.delivery.task d = none →
      Step body s { s with
        delivery := { s.delivery.at d m .received with
          place := Function.update s.delivery.place m (.unacked d) }
        owner := Function.update s.owner d c }
  /-- any other step of the broker or of a task; `aio_pika` restores a lost connection by
  itself, and then everything unacked is ready again -/
  | other {s : State μ} {next : Delivery.State μ} : Delivery.Step body s.delivery next →
      (∀ m d, next.place m = .unacked d → s.delivery.place m = .unacked d) →
      Step body s { s with delivery := next }

/-- The application has just started, and nothing is published. -/
def machine (body : μ → Bytes) : Machine (State μ) where
  init s := Supervisor.machine.init s.supervisor ∧ (Delivery.machine body).init s.delivery
  step := Step body

variable {body : μ → Bytes}

/-- A task that exists goes on existing. -/
theorem task_step {s t : Delivery.State μ} (h : Delivery.Step body s t) {d : Nat}
    (htask : s.task d ≠ none) : t.task d ≠ none := by
  obtain ⟨⟨m, stage⟩, hsome⟩ := Option.ne_none_iff_exists'.mp htask
  obtain ⟨next, hnext⟩ := Delivery.task_kept h hsome
  simp [hnext]

theorem Held.other (h : Held s) {next : Delivery.State μ} (hnext : Delivery.Step body s.delivery next)
    (hless : ∀ m d, next.place m = .unacked d → s.delivery.place m = .unacked d) :
    Held { s with delivery := next } := by
  refine ⟨fun m d hplace => task_step hnext (h.task m d (hless m d hplace)),
    fun m d hplace => h.isOpen m d (hless m d hplace), fun c => ?_⟩
  have hsub : State.unackedOn { s with delivery := next } c ⊆ s.unackedOn c :=
    unackedOn_mono rfl hless
  exact (Set.encard_le_encard hsub).trans (h.few c)

theorem held (h : (machine body).Reachable s) : Held s := by
  refine Machine.invariant ?_ ?_ h
  · rintro s ⟨-, hplace, -⟩
    refine ⟨by simp [hplace], by simp [hplace], fun c => ?_⟩
    have hnone : s.unackedOn c = ∅ := by simp [State.unackedOn, hplace]
    simp [hnone]
  · intro s t _ hheld hstep
    cases hstep with
    | supervisor => exact hheld.supervisor _
    | deliver hopen _ hroom _ hfree => exact hheld.deliver hopen hroom hfree
    | other hnext hless => exact hheld.other hnext hless

/-! ## The supervisor in it -/

theorem toSupervisor :
    Machine.Simulation (machine body) Supervisor.machine fun s t => t = s.supervisor := by
  constructor
  case init =>
    rintro s ⟨hinit, -⟩
    exact ⟨_, hinit, rfl⟩
  case step =>
    rintro s s' _ - rfl hstep
    cases hstep with
    | supervisor hnext => exact ⟨_, .single hnext, rfl⟩
    | deliver | other => exact ⟨_, .refl, rfl⟩

theorem supervisor_safe (h : (machine body).Reachable s) : Supervisor.Safe s.supervisor := by
  obtain ⟨_, hreach, rfl⟩ := toSupervisor.reachable h
  exact Supervisor.safe hreach

/-! ## The broker in it -/

theorem toDelivery :
    Machine.Simulation (machine body) (Delivery.machine body) fun s t => t = s.delivery := by
  constructor
  case init =>
    rintro s ⟨-, hinit⟩
    exact ⟨_, hinit, rfl⟩
  case step =>
    rintro s s' _ hreach rfl hstep
    cases hstep with
    | @supervisor next hnext =>
      rcases requeue_eq (held hreach) (supervisor_safe hreach) next with hsame | hlost
      · exact ⟨_, .refl, hsame.symm⟩
      · exact ⟨_, .single .connectionLoss, hlost.symm⟩
    | deliver _ _ _ hready hfree => exact ⟨_, .single (.deliver hready hfree), rfl⟩
    | other hnext => exact ⟨_, .single hnext, rfl⟩

theorem delivery_safe (h : (machine body).Reachable s) : Delivery.Safe body s.delivery := by
  obtain ⟨_, hreach, rfl⟩ := toDelivery.reachable h
  exact Delivery.safe hreach

/-! ## Results -/

/-- However often the consumer reconnects, at most ten messages are unacked at a time, and
none while no connection is open.  After the shutdown every message that was published is in
the queue, or its row is committed, or nothing of it could be stored. -/
theorem prefetch_and_shutdown (body : μ → Bytes) :
    ∀ s, (machine body).Reachable s →
      s.unacked.encard ≤ prefetchCount ∧ (s.supervisor.Idle → s.unacked = ∅) ∧
        (s.supervisor.lifespan = .finished → ∀ m, s.delivery.place m ≠ .absent →
          s.delivery.place m = .ready ∨
            s.delivery.place m = .gone ∧ (Accepted (body m) → s.delivery.Committed m)) := by
  intro s h
  have hheld := held h
  have hsafe := supervisor_safe h
  have hempty := unacked_empty hheld
  refine ⟨?_, hempty, ?_⟩
  · by_cases hidle : s.supervisor.Idle
    · simp [hempty hidle]
    · simp only [Supervisor.State.Idle, not_forall, Bool.not_eq_false] at hidle
      obtain ⟨c, hopen⟩ := hidle
      exact (Set.encard_le_encard (unacked_subset hheld hsafe hopen)).trans (hheld.few c)
  · intro hfinished m hknown
    have hidle := hsafe.idle (by simp [hsafe.finished hfinished, Supervisor.Pc.idle])
    cases hplace : s.delivery.place m with
    | absent => exact absurd hplace hknown
    | ready => exact .inl rfl
    | gone => exact .inr ⟨rfl, (delivery_safe h).left m hplace⟩
    | unacked d =>
      have hmem : m ∈ s.unacked := ⟨d, hplace⟩
      simp [hempty hidle] at hmem

/-- A step of the supervisor alone. -/
def Aside (body : μ → Bytes) (s t : State μ) : Prop := Step body s t ∧ t.delivery = s.delivery

/-- While nothing is published the supervisor runs alone. -/
theorem run_of_supervisor (body : μ → Bytes) {u : Supervisor.State}
    (h : Supervisor.machine.Reachable u) :
    ∃ s₀ s, (machine body).init s₀ ∧ Relation.ReflTransGen (Aside body) s₀ s ∧
      s.supervisor = u ∧ s.delivery = s₀.delivery := by
  refine Machine.invariant (P := fun u => ∃ s₀ s, (machine body).init s₀ ∧
    Relation.ReflTransGen (Aside body) s₀ s ∧ s.supervisor = u ∧ s.delivery = s₀.delivery) ?_ ?_ h
  · intro u hinit
    let s₀ : State μ := ⟨u, ⟨fun _ => .absent, fun _ => none, .empty, []⟩, id⟩
    exact ⟨s₀, s₀, ⟨hinit, fun _ => rfl, fun _ => rfl, rfl, rfl⟩, .refl, rfl, rfl⟩
  · rintro u v - ⟨s₀, s, hinit, hrun, rfl, hsame⟩ hstep
    have hkept : (State.requeue { s with supervisor := v }).delivery = s.delivery := by
      have hplace : State.requeued { s with supervisor := v } ∘ s.delivery.place =
          s.delivery.place := by
        funext m
        simp [State.requeued, hsame, hinit.2.1 m]
      rw [State.requeue, hplace]
    exact ⟨s₀, _, hinit, hrun.tail ⟨.supervisor hstep, hkept⟩, rfl, hkept.trans hsame⟩

/-- The consumer is registered, and nothing is published. -/
theorem exists_consuming (body : μ → Bytes) :
    ∃ s₀ s, (machine body).init s₀ ∧ Relation.ReflTransGen (Aside body) s₀ s ∧
      s.delivery = s₀.delivery ∧ s.supervisor.isOpen 0 = true ∧ consuming s.supervisor.pc := by
  have hbound := ((((Supervisor.reachable_secondAttempt.next (.own (.callReturns rfl))).next
    (.own (.callReturns (rfl : _ = Supervisor.Pc.setup .setQos)))).next
    (.own (.callReturns (rfl : _ = Supervisor.Pc.setup .declareExchange)))).next
    (.own (.callReturns (rfl : _ = Supervisor.Pc.setup .declareQueue))))
  have hcalls := hbound.next (.own (.callReturns (rfl : _ = Supervisor.Pc.setup .bind)))
  obtain ⟨s₀, s, hinit, hrun, hsupervisor, hsame⟩ := run_of_supervisor body hcalls
  refine ⟨s₀, s, hinit, hrun, hsame, ?_, ?_⟩
  · simp [hsupervisor, Supervisor.secondAttempt]
  · simp [hsupervisor, consuming, Supervisor.Pc.afterCall, Supervisor.SetupCall.next]

end Consumer

section Examples

attribute [local instance] asciiRuntime ownTypes

/-- A message is delivered as soon as the consumer is registered. -/
theorem prefetch_and_shutdown_one : ∃ s : State Unit,
    (machine fun _ => Delivery.sampleBody).Reachable s ∧ () ∈ s.unacked ∧
      s.unacked.encard ≤ prefetchCount := by
  obtain ⟨s₀, s, hinit, hrun, hsame, hopen, hconsuming⟩ :=
    exists_consuming (μ := Unit) fun _ => Delivery.sampleBody
  have hreach := (Machine.Reachable.start hinit).trans (hrun.lift id fun _ _ hstep => hstep.1)
  have hplace : ∀ m, s.delivery.place m = .absent := hsame ▸ hinit.2.1
  have htask : ∀ d, s.delivery.task d = none := hsame ▸ hinit.2.2.1
  have hpublished := hreach.next (.other (.publish (hplace ())) (by simp [hplace]))
  have hnone : State.unackedOn { s with delivery := { s.delivery with
      place := Function.update s.delivery.place () .ready } } 0 = ∅ := by
    simp [State.unackedOn]
  have hdelivered := hpublished.next (.deliver (m := ()) (d := 0) (c := 0) hopen hconsuming
    (by simp [hnone, prefetchCount]) (by simp) (htask 0))
  refine ⟨_, hdelivered, ⟨0, by simp⟩, ?_⟩
  exact (prefetch_and_shutdown _ _ hdelivered).1

end Examples

end RtlsStream.Consumer.Prefetch
