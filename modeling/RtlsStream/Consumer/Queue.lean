/-
  Consumer/Queue.lean --- the order in which the broker delivers.

  `Consumer.Delivery` lets the broker deliver any message that is ready.  A queue of
  RabbitMQ keeps its messages in the order in which they were published, and a message that
  is requeued goes back to its place: the first ready message is delivered next, and none
  while `prefetch_count` of them are unacked.

  So what is requeued again and again stands in the way of what was published after it.
  `blocked` says when for good: a message with ten before it that are neither dropped nor
  stored is never delivered at all.
-/
import RtlsStream.Consumer.Prefetch

set_option autoImplicit false

namespace RtlsStream.Consumer.Queue

open RtlsStream.Foundation RtlsStream.Python RtlsStream.Store
open RtlsStream.Consumer.Delivery (Accepted rowOfBody Place Stage)
open RtlsStream.Consumer.Prefetch (prefetchCount)

/-! ## What becomes of a body -/

section Bodies

variable [Runtime] [Postgres]

/-- `_on_message` returns without a write, and the message is acked. -/
def drops (body : Bytes) : Bool :=
  match examine body with
  | .malformed | .missingTagId => true
  | .raises _ | .accepted _ _ => false

/-- `_on_message` raises whatever the database does, and the message is requeued. -/
def stuck (body : Bytes) : Bool := !drops body && (rowOfBody body).isNone

theorem stuck_eq_false {body : Bytes} :
    stuck body = false ↔ drops body = true ∨ ∃ r, rowOfBody body = some r := by
  simp only [stuck, Bool.and_eq_false_iff, Bool.not_eq_false', ← Option.isSome_iff_exists]
  cases rowOfBody body <;> simp

omit [Postgres] in
theorem not_accepted_of_drops {body : Bytes} (h : drops body = true) : ¬ Accepted body := by
  rintro ⟨envelope, payload, hexamine⟩
  simp [drops, hexamine] at h

end Bodies

/-! ## The queue -/

/-- The broker, the tasks and the tables, and the messages in the order in which they were
published. -/
structure State (μ : Type) where
  delivery : Delivery.State μ
  order : List μ

variable {μ : Type}

/-- The messages unacked -/
def State.unacked (s : State μ) : Set μ := {m | ∃ d, s.delivery.place m = .unacked d}

/-- The message that the broker delivers next -/
def State.First (s : State μ) (m : μ) : Prop :=
  ∃ before after, s.order = before ++ m :: after ∧ s.delivery.place m = .ready ∧
    ∀ m' ∈ before, s.delivery.place m' ≠ .ready

variable [DecidableEq μ] [Runtime] [Postgres] (body : μ → Bytes)

/-- A step that publishes and delivers nothing, and in which a task drops or raises as the
checks do. -/
structure Quiet (s t : Delivery.State μ) : Prop where
  step : Delivery.Step body s t
  absent : ∀ m, t.place m = .absent ↔ s.place m = .absent
  unacked : ∀ m d, t.place m = .unacked d → s.place m = .unacked d
  drops : ∀ d m, t.task d = some (m, .dropped) →
    s.task d = some (m, .dropped) ∨ drops (body m) = true
  raises : ∀ d m, s.task d = some (m, .received) → t.task d = some (m, .failed) →
    Queue.drops (body m) = false

/-- One step of the broker or of a task. -/
inductive Step : State μ → State μ → Prop
  | publish {s : State μ} {m : μ} : s.delivery.place m = .absent →
      Step s
        ⟨{ s.delivery with place := Function.update s.delivery.place m .ready }, s.order ++ [m]⟩
  | deliver {s : State μ} {m : μ} {d : Nat} : s.First m → s.unacked.encard < prefetchCount →
      s.delivery.task d = none →
      Step s ⟨{ s.delivery.at d m .received with
        place := Function.update s.delivery.place m (.unacked d) }, s.order⟩
  | other {s : State μ} {next : Delivery.State μ} : Quiet body s.delivery next →
      Step s ⟨next, s.order⟩

/-- Nothing is published. -/
def machine : Machine (State μ) where
  init s := (Delivery.machine body).init s.delivery ∧ s.order = []
  step := Step body

variable {body} {s t : State μ}

/-- The queue delivers as `Consumer.Delivery` may. -/
theorem Step.delivery (h : Step body s t) : Delivery.Step body s.delivery t.delivery := by
  cases h with
  | publish habsent => exact .publish habsent
  | deliver hfirst _ hfree =>
    obtain ⟨_, _, -, hready, -⟩ := hfirst
    exact .deliver hready hfree
  | other hquiet => exact hquiet.step

theorem reachable_delivery (h : (machine body).Reachable s) :
    (Delivery.machine body).Reachable s.delivery := by
  obtain ⟨s₀, ⟨hinit, -⟩, hrun⟩ := h
  exact (Machine.Reachable.start hinit).trans (hrun.lift _ fun _ _ => Step.delivery)

theorem safe (h : (machine body).Reachable s) : Delivery.Safe body s.delivery :=
  Delivery.safe (reachable_delivery h)

theorem busy (h : (machine body).Reachable s) : Delivery.Busy s.delivery :=
  Delivery.busy (reachable_delivery h)

/-! ## The order -/

/-- The order only grows. -/
theorem Step.order (h : Step body s t) : s.order <+: t.order := by
  cases h with
  | publish => exact List.prefix_append _ _
  | deliver | other => exact List.prefix_rfl

omit [DecidableEq μ] [Runtime] [Postgres] in
/-- A message has one place in the order. -/
theorem before_unique {order before before' after after' : List μ} {m : μ} (hnodup : order.Nodup)
    (h : order = before ++ m :: after) (h' : order = before' ++ m :: after') :
    before = before' ∧ after = after' := by
  subst h
  obtain ⟨-, hafter, hdisjoint⟩ := List.nodup_append.mp hnodup
  have hnot : m ∉ before := fun hmem => hdisjoint m hmem m List.mem_cons_self rfl
  obtain ⟨hbefore, -, hafter⟩ :=
    (List.append_cons_inj_of_notMem hnot (List.nodup_cons.mp hafter).1).mp h'
  exact ⟨hbefore, hafter⟩

/-- The order has each message that was published, once. -/
structure Listed (s : State μ) : Prop where
  nodup : s.order.Nodup
  mem : ∀ m, m ∈ s.order ↔ s.delivery.place m ≠ .absent

theorem listed (h : (machine body).Reachable s) : Listed s := by
  refine Machine.invariant ?_ ?_ h
  · rintro s ⟨⟨hplace, -⟩, horder⟩
    exact ⟨by simp [horder], by simp [horder, hplace]⟩
  · intro s t _ hlisted hstep
    cases hstep with
    | @publish m habsent =>
      have hnew : m ∉ s.order := fun hmem => (hlisted.mem m).mp hmem habsent
      constructor
      case nodup => exact List.nodup_append.mpr ⟨hlisted.nodup, by simp, by grind⟩
      case mem =>
        intro m'
        by_cases hm : m' = m
        · simp [hm]
        · simpa [hm] using hlisted.mem m'
    | @deliver m d hfirst =>
      obtain ⟨_, _, -, hready, -⟩ := hfirst
      refine ⟨hlisted.nodup, fun m' => ?_⟩
      by_cases hm : m' = m
      · subst hm
        simp [hlisted.mem m', hready]
      · simpa [hm] using hlisted.mem m'
    | other hquiet =>
      exact ⟨hlisted.nodup, fun m => (hlisted.mem m).trans (not_congr (hquiet.absent m)).symm⟩

/-! ## What is stuck -/

/-- What is dropped is what the checks drop, and what has left the broker is that or stored. -/
structure Checked (body : μ → Bytes) (s : State μ) : Prop where
  dropped : ∀ d m, s.delivery.task d = some (m, .dropped) → drops (body m) = true
  left : ∀ m, s.delivery.place m = .gone → s.delivery.Committed m ∨ drops (body m) = true

theorem checked (h : (machine body).Reachable s) : Checked body s := by
  refine Machine.invariant ?_ ?_ h
  · rintro s ⟨⟨hplace, htask, -⟩, -⟩
    exact ⟨by simp [htask], by simp [hplace]⟩
  · intro s t hreach hchecked hstep
    constructor
    case dropped =>
      intro d m htask
      cases hstep with
      | publish => exact hchecked.dropped d m htask
      | deliver =>
        rcases Delivery.task_at.mp htask with ⟨-, -, hstage⟩ | ⟨-, hother⟩
        · cases hstage
        · exact hchecked.dropped d m hother
      | other hquiet =>
        rcases hquiet.drops d m htask with hbefore | hdrops
        · exact hchecked.dropped d m hbefore
        · exact hdrops
    case left =>
      intro m hgone
      rcases Delivery.gone_step hstep.delivery hgone with hbefore | ⟨d, htask | htask⟩
      · rcases hchecked.left m hbefore with hcommitted | hdrops
        · exact .inl (Delivery.Committed.step hcommitted hstep.delivery)
        · exact .inr hdrops
      · have hcommitted : s.delivery.Committed m := ((safe hreach).tasks d m _ htask).2
        exact .inl (Delivery.Committed.step hcommitted hstep.delivery)
      · exact .inr (hchecked.dropped d m htask)

/-- What is stuck stays in the broker, and no row is stored for it. -/
theorem stuck_stays (h : (machine body).Reachable s) {m : μ} (hstuck : stuck (body m) = true) :
    s.delivery.place m ≠ .gone ∧ ¬ s.delivery.Committed m := by
  have hnot : ¬ (drops (body m) = true ∨ ∃ r, rowOfBody (body m) = some r) := by
    simp [← stuck_eq_false, hstuck]
  have hstored : ¬ s.delivery.Committed m := by
    rintro ⟨e, he⟩
    exact hnot (.inr ⟨_, ((safe h).logged m e he).2.2⟩)
  refine ⟨fun hgone => ?_, hstored⟩
  rcases (checked h).left m hgone with hcommitted | hdrops
  · exact hstored hcommitted
  · exact hnot (.inl hdrops)

omit [Runtime] [Postgres] in
theorem length_le_encard {messages : List μ} (hnodup : messages.Nodup) {S : Set μ}
    (h : ∀ m ∈ messages, m ∈ S) : (messages.length : ℕ∞) ≤ S.encard := by
  rw [← List.toFinset_card_of_nodup hnodup, ← Set.encard_coe_eq_coe_finsetCard]
  exact Set.encard_le_encard fun m hm => h m (List.mem_toFinset.mp hm)

omit [Runtime] [Postgres] in
theorem encard_le_length (messages : List μ) : {m | m ∈ messages}.encard ≤ messages.length := by
  rw [← List.coe_toFinset, Set.encard_coe_eq_coe_finsetCard]
  exact Nat.cast_le.mpr (List.toFinset_card_le messages)

/-- While a message is the next, what is stuck before it is unacked. -/
theorem stuck_unacked (h : (machine body).Reachable s) {before after : List μ} {m : μ}
    (hsplit : s.order = before ++ m :: after) (hfirst : s.First m) :
    ((before.filter fun m' => stuck (body m')).length : ℕ∞) ≤ s.unacked.encard := by
  have hlisted := listed h
  obtain ⟨before', after', hsplit', -, hready⟩ := hfirst
  obtain ⟨rfl, -⟩ := before_unique hlisted.nodup hsplit hsplit'
  have hnodup : before.Nodup := (List.nodup_append.mp (hsplit ▸ hlisted.nodup)).1
  refine length_le_encard (hnodup.filter _) fun m' hm' => ?_
  obtain ⟨hmem, hstuck⟩ := List.mem_filter.mp hm'
  cases hplace : s.delivery.place m' with
  | absent =>
    have hlist : m' ∈ s.order := by simp [hsplit, hmem]
    exact absurd hplace ((hlisted.mem m').mp hlist)
  | ready => exact absurd hplace (hready m' hmem)
  | gone => exact absurd hplace (stuck_stays h hstuck).1
  | unacked d => exact ⟨d, hplace⟩

/-- With ten stuck messages before it, a message was never delivered. -/
theorem never_delivered (h : (machine body).Reachable s) :
    ∀ before m after, s.order = before ++ m :: after →
      10 ≤ (before.filter fun m' => stuck (body m')).length → ¬ s.delivery.Delivered m := by
  refine Machine.invariant (P := fun s => ∀ before m after, s.order = before ++ m :: after →
    10 ≤ (before.filter fun m' => stuck (body m')).length → ¬ s.delivery.Delivered m) ?_ ?_ h
  · rintro s ⟨-, horder⟩ before m after hsplit
    simp [horder] at hsplit
  · intro s t hreach hbefore hstep before m after hsplit hmany hdelivered
    have hlisted := listed hreach
    cases hstep with
    | @publish m' habsent =>
      rcases List.eq_nil_or_concat' after with rfl | ⟨after', last, rfl⟩
      · -- what is published last is not delivered yet
        obtain ⟨-, hlast⟩ := List.append_inj' hsplit rfl
        obtain rfl := List.singleton_inj.mp hlast
        obtain ⟨d, stage, htask⟩ := hdelivered
        exact ((safe hreach).tasks d _ stage htask).1 habsent
      · rw [← List.cons_append, ← List.append_assoc] at hsplit
        exact hbefore before m after' (List.append_inj' hsplit rfl).1 hmany hdelivered
    | @deliver m' d hfirst hroom hfree =>
      rcases Delivery.delivered_at hdelivered with rfl | hold
      · have hfew := (stuck_unacked hreach hsplit hfirst).trans_lt hroom
        rw [prefetchCount, ← Nat.cast_ofNat, Nat.cast_lt] at hfew
        exact absurd hmany (not_le.mpr hfew)
      · exact hbefore before m after hsplit hmany hold
    | other hquiet =>
      rcases Delivery.delivered_step hquiet.step hdelivered with hold | ⟨hready, d, hunacked⟩
      · exact hbefore before m after hsplit hmany hold
      · cases hready.symm.trans (hquiet.unacked m d hunacked)

/-- With ten stuck messages before it, a message stays in the queue for good. -/
theorem blocked (h : (machine body).Reachable s) {before after : List μ} {m : μ}
    (hsplit : s.order = before ++ m :: after)
    (hmany : 10 ≤ (before.filter fun m' => stuck (body m')).length) :
    s.delivery.place m = .ready ∧ ¬ s.delivery.Committed m := by
  have hnever := never_delivered h before m after hsplit hmany
  have hdelivered := Delivery.delivered (reachable_delivery h) m
  refine ⟨?_, fun hcommitted => hnever (hdelivered (.inr hcommitted))⟩
  cases hplace : s.delivery.place m with
  | absent => exact absurd hplace (((listed h).mem m).mp (by simp [hsplit]))
  | ready => rfl
  | gone => exact absurd (hdelivered (.inl hplace)) hnever
  | unacked d =>
    obtain ⟨stage, htask, -⟩ := busy h m d hplace
    exact absurd ⟨d, stage, htask⟩ hnever

end RtlsStream.Consumer.Queue
