/-
  Consumer/Unstorable.lean --- messages that can neither be dropped nor stored.

  A body that the checks let through may still have no row: `extract_params` raises, or the
  server refuses a value.  Its write fails each time, and each time it is requeued.  So does
  a body that is JSON but no object, whose `get` raises.

  Such messages stay for good, and each one at the head of the queue takes one of the
  `prefetch_count` places again and again.  Up to nine of them block nothing: the messages
  after them can still be stored over the connection that is open.  With ten of them before
  it, a message is never delivered, however often the consumer reconnects.
-/
import RtlsStream.Consumer.Drain

set_option autoImplicit false

namespace RtlsStream.Consumer.Prefetch

open RtlsStream.Foundation RtlsStream.Python RtlsStream.Store
open RtlsStream.Consumer.Delivery (rowOfBody Place)
open RtlsStream.Consumer.Queue (stuck)

section Ordered

variable {μ : Type} [DecidableEq μ] [Runtime] [Postgres] {body : μ → Bytes} {s : State μ × List μ}

/-- What the queue is of the whole. -/
def queue (s : State μ) (order : List μ) : Queue.State μ := ⟨s.delivery, order⟩

/-- The consumer with its connections, and a broker that keeps the order. -/
def ordered (body : μ → Bytes) : Machine (State μ × List μ) :=
  (machine body).along queue (Queue.machine body)

/-- A step that leaves the connections as they are and loses none. -/
structure Steady (body : μ → Bytes) (s t : State μ × List μ) : Prop where
  step : (ordered body).step s t
  supervisor : t.1.supervisor = s.1.supervisor
  settled : ∀ m d, s.1.delivery.place m = .unacked d →
    t.1.delivery.place m = .unacked d ∨ t.1.delivery.task d = some (m, .finished)

/-- The whole, from any state on, while the connection holds. -/
def steady (body : μ → Bytes) : Machine (State μ × List μ) where
  init s := (ordered body).Reachable s
  step := Steady body

/-- A connection over which messages are delivered. -/
structure Serving (c : Nat) (s : State μ × List μ) : Prop where
  isOpen : s.1.supervisor.isOpen c = true
  consuming : consuming s.1.supervisor.pc

/-- What the queue can do while a connection holds, the whole can do over that connection. -/
theorem follow {c : Nat} (hserving : Serving c s)
    {u : Queue.State μ} (hstep : Queue.Steady body (queue s.1 s.2) u) :
    ∃ t, Steady body s t ∧ queue t.1 t.2 = u ∧ t.1.supervisor = s.1.supervisor := by
  obtain ⟨hqueue, hsettled⟩ := hstep
  cases hqueue with
  | @publish m habsent =>
    refine ⟨(_, s.2 ++ [m]), ⟨⟨.other (.publish habsent) ?_, .inl (.publish habsent)⟩, rfl, hsettled⟩,
      rfl, rfl⟩
    exact fun _ _ => Delivery.unacked_of_update (by simp)
  | @deliver m d hfirst hroom hfree =>
    obtain ⟨_, _, -, hready, -⟩ := id hfirst
    have hroom' : (s.1.unackedOn c).encard < prefetchCount := by
      refine (Set.encard_le_encard ?_).trans_lt hroom
      rintro m' ⟨d', hplace, -⟩
      exact ⟨d', hplace⟩
    exact ⟨(_, s.2), ⟨⟨.deliver hserving.isOpen hserving.consuming hroom' hready hfree,
      .inl (.deliver hfirst hroom hfree)⟩, rfl, hsettled⟩, rfl, rfl⟩
  | other hquiet =>
    exact ⟨(_, s.2), ⟨⟨.other hquiet.step hquiet.unacked, .inl (.other hquiet)⟩, rfl, hsettled⟩,
      rfl, rfl⟩

theorem canReach_of_queue {c : Nat} (hreach : (ordered body).Reachable s) (hserving : Serving c s)
    {P : Queue.State μ → Prop} (h : (Queue.steady body).CanReach (queue s.1 s.2) P) :
    (steady body).CanReach s fun t => P (queue t.1 t.2) := by
  refine (Machine.CanReach.lift (M := steady body) (fun s => queue s.1 s.2)
    (fun s => (ordered body).Reachable s ∧ Serving c s) ?_ ⟨hreach, hserving⟩ h).mono
    fun t ht => ht.2
  rintro s u ⟨hreach, hserving⟩ hstep
  obtain ⟨t, hsteady, hview, hsupervisor⟩ := follow hserving hstep
  refine ⟨t, hsteady, hview, hreach.next hsteady.step, ?_, ?_⟩
  · rw [hsupervisor]
    exact hserving.isOpen
  · rw [hsupervisor]
    exact hserving.consuming

theorem publish_ordered {s : State μ} {order : List μ} (h : (ordered body).Reachable (s, order))
    {m : μ} (habsent : s.delivery.place m = .absent) :
    (ordered body).Reachable ({ s with delivery := { s.delivery with
      place := Function.update s.delivery.place m .ready } }, order ++ [m]) := by
  refine h.next ⟨.other (.publish habsent) ?_, .inl (.publish habsent)⟩
  exact fun _ _ => Delivery.unacked_of_update (by simp)

/-- In a run the order only grows. -/
theorem order_run {t : State μ × List μ} (hrun : Relation.ReflTransGen (ordered body).step s t) :
    s.2 <+: t.2 := by
  induction hrun with
  | refl => exact List.prefix_rfl
  | @tail t u _ hlast ih =>
    obtain ⟨-, hstep | hsame⟩ := hlast
    · exact ih.trans (Queue.Step.order hstep)
    · have horder : u.2 = t.2 := congrArg Queue.State.order hsame
      rwa [horder]

/-- A message that is neither dropped nor can be stored never leaves the broker and is never
stored.  With fewer than ten of them published before it, a message that can be stored can
still be stored and acked over the connection that is open; with ten it stays in the queue
and is not stored in any run, also over later connections. -/
theorem unstorable_blocks_at_ten (body : μ → Bytes) :
    ∀ s, (ordered body).Reachable s →
      (∀ m, stuck (body m) = true →
        s.1.delivery.place m ≠ .gone ∧ ¬ s.1.delivery.Committed m) ∧
      ∀ before m after r, s.2 = before ++ m :: after → rowOfBody (body m) = some r →
        ((before.filter fun m' => stuck (body m')).length < 10 →
          ∀ c, s.1.supervisor.isOpen c = true → consuming s.1.supervisor.pc →
            (steady body).CanReach s fun t =>
              t.1.delivery.place m = .gone ∧ t.1.delivery.Committed m) ∧
        (10 ≤ (before.filter fun m' => stuck (body m')).length →
          ∀ t, Relation.ReflTransGen (ordered body).step s t →
            t.1.delivery.place m = .ready ∧ ¬ t.1.delivery.Committed m) := by
  intro s hreach
  have hqueue : (Queue.machine body).Reachable (queue s.1 s.2) := hreach.along_right
  refine ⟨fun m hstuck => Queue.stuck_stays hqueue hstuck, ?_⟩
  intro before m after r horder hrow
  constructor
  · intro hfew c hopen hconsuming
    exact canReach_of_queue hreach ⟨hopen, hconsuming⟩
      (Queue.canReach_stored (s := queue s.1 s.2) hqueue horder hrow hfew)
  · intro hmany t hrun
    obtain ⟨more, hmore⟩ := order_run hrun
    have horder' : t.2 = before ++ m :: (after ++ more) := by
      rw [← hmore, horder, List.append_assoc, List.cons_append]
    exact Queue.blocked (s := queue t.1 t.2) (hreach.trans hrun).along_right horder' hmany

end Ordered

section Examples

attribute [local instance] asciiRuntime ownTypes

/-- An envelope with nothing but a tag. -/
def tagOnlyBody : Bytes :=
  (text "\x7b\"payload\":\x7b\"tag_id\":\"00A320\"\x7d\x7d").map UInt8.ofNat

/-- Of two messages in the queue the first, which cannot be stored, stays, and the other can go. -/
theorem unstorable_blocks_at_ten_two :
    ∃ s : State Bool × List Bool,
      (ordered fun m => if m then Delivery.sampleBody else tagOnlyBody).Reachable s ∧
      s.1.delivery.place false = .ready ∧ ¬ s.1.delivery.Committed false ∧
      (steady fun m => if m then Delivery.sampleBody else tagOnlyBody).CanReach s fun t =>
        t.1.delivery.place true = .gone ∧ t.1.delivery.Committed true := by
  let body : Bool → Bytes := fun m => if m then Delivery.sampleBody else tagOnlyBody
  obtain ⟨r, hrow⟩ : ∃ r, rowOfBody (body true) = some r :=
    Option.isSome_iff_exists.mp (by decide +kernel)
  have hstuck : stuck (body false) = true := by decide +kernel
  obtain ⟨s₀, s, hinit, hrun, hsame, hopen, hconsuming⟩ := exists_consuming body
  have hplace : ∀ m, s.delivery.place m = .absent := hsame ▸ hinit.2.1
  have hreach : (ordered body).Reachable (s, []) := by
    have hstart : (ordered body).Reachable (s₀, []) := .start ⟨hinit, hinit.2, rfl⟩
    refine hstart.trans ?_
    refine hrun.lift (fun s => (s, [])) fun t u hstep => ⟨hstep.1, .inr ?_⟩
    rw [queue, queue, hstep.2]
  have hfirst := publish_ordered hreach (m := false) (hplace false)
  have hsecond := publish_ordered hfirst (m := true) (by simp [hplace])
  obtain ⟨hkept, hothers⟩ := unstorable_blocks_at_ten body _ hsecond
  exact ⟨_, hsecond, by simp, (hkept false hstuck).2,
    (hothers [false] true [] r rfl hrow).1 (by simp [hstuck]) 0 hopen hconsuming⟩

end Examples

end RtlsStream.Consumer.Prefetch
