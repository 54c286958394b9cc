/-
  Consumer/Drain.lean --- how far a queue can be emptied over one connection.

  Whatever is unacked can be settled by its task (`canReach_settled`).  Then the queue can be
  gone through from its head: what is dropped or stored is acked, and what is stuck is left
  unacked, so that the broker goes on to the message after it (`canReach_handled`).  Each
  stuck message takes one of the `prefetch_count` places, so the way is free up to the tenth
  of them, and what stands behind ten is never delivered at all (`Queue.blocked`).
-/
import RtlsStream.Consumer.Queue
import RtlsStream.Foundation.Recovery

set_option autoImplicit false

namespace RtlsStream.Consumer.Queue

open RtlsStream.Foundation RtlsStream.Python RtlsStream.Store
open RtlsStream.Consumer.Delivery (Accepted rowOfBody Place Stage)
open RtlsStream.Consumer.Prefetch (prefetchCount)

variable {μ : Type} [DecidableEq μ] [Runtime] [Postgres] {body : μ → Bytes} {s t : State μ}

/-- A step that loses no connection: what is not unacked any more was acked or rejected by its
task. -/
structure Steady (body : μ → Bytes) (s t : State μ) : Prop where
  step : Step body s t
  settled : ∀ m d, s.delivery.place m = .unacked d →
    t.delivery.place m = .unacked d ∨ t.delivery.task d = some (m, .finished)

/-- The queue, from any state on, while the connection holds. -/
def steady (body : μ → Bytes) : Machine (State μ) where
  init s := (machine body).Reachable s
  step := Steady body

theorem reachable_of_steady (h : (steady body).Reachable s) : (machine body).Reachable s := by
  obtain ⟨s₀, h₀, hrun⟩ := h
  exact h₀.trans (hrun.lift id fun _ _ hstep => hstep.step)

/-- One message has moved, and nothing was published. -/
def Moves (s : State μ) (m : μ) (dest : Place) (t : State μ) : Prop :=
  t.order = s.order ∧ t.delivery.place = Function.update s.delivery.place m dest

/-! ## Steps of a task -/

omit [DecidableEq μ] [Runtime] [Postgres] in
theorem stage_at {s : Delivery.State μ} {d : Nat} {m : μ} {stage : Stage} :
    (s.at d m stage).task d = some (m, stage) := by
  simp [Delivery.State.at]

/-- A task moves to another stage as the checks say, and its message does not move. -/
theorem steady_stage {next : Delivery.State μ} {d : Nat} {m : μ} {stage stage' : Stage}
    (htask : s.delivery.task d = some (m, stage)) (hnext : Delivery.Step body s.delivery next)
    (hplace : next.place = s.delivery.place)
    (hstage : next.task = (s.delivery.at d m stage').task)
    (hdrops : stage' = .dropped → drops (body m) = true)
    (hraises : stage' = .failed → stage = .received → drops (body m) = false) :
    (steady body).step s ⟨next, s.order⟩ := by
  refine ⟨.other ⟨hnext, by simp [hplace], by simp [hplace], ?_, ?_⟩, ?_⟩
  · intro d' m' hdropped
    rw [hstage] at hdropped
    rcases Delivery.task_at.mp hdropped with ⟨-, rfl, hsame⟩ | ⟨-, hother⟩
    · exact .inr (hdrops hsame)
    · exact .inl hother
  · intro d' m' hreceived hfailed
    rw [hstage] at hfailed
    rcases Delivery.task_at.mp hfailed with ⟨rfl, rfl, hsame⟩ | ⟨-, hother⟩
    · obtain ⟨-, hbefore⟩ := Prod.mk.inj (Option.some.inj (htask.symm.trans hreceived))
      exact hraises hsame hbefore
    · cases hreceived.symm.trans hother
  · intro m' d' hunacked
    exact .inl (by simpa [hplace] using hunacked)

/-- The checks drop a message. -/
theorem steady_drop {d : Nat} {m : μ} (htask : s.delivery.task d = some (m, .received))
    (hdrops : drops (body m) = true) :
    (steady body).step s ⟨s.delivery.at d m .dropped, s.order⟩ :=
  steady_stage htask (.drop htask (not_accepted_of_drops hdrops)) rfl rfl (fun _ => hdrops) (by simp)

omit [Runtime] [Postgres] in
/-- What settling does to a message that is unacked under the delivery. -/
theorem settle_eq {s : Delivery.State μ} {m : μ} {d : Nat} {dest : Place}
    (hplace : s.place m = .unacked d) :
    s.settle d m dest = { s with place := Function.update s.place m dest } := by
  simp [Delivery.State.settle, hplace]

/-- An ack or a reject. -/
theorem canReach_settle {m : μ} {d : Nat} {dest : Place} (hplace : s.delivery.place m = .unacked d)
    (hnext : Delivery.Step body s.delivery ((s.delivery.settle d m dest).at d m .finished))
    (hdest : dest = .ready ∨ dest = .gone) : (steady body).CanReach s (Moves s m dest) := by
  have hnot : ∀ k, dest ≠ .unacked k := by rcases hdest with rfl | rfl <;> simp
  have hother : ∀ {d' m' stage}, stage ≠ .finished →
      ((s.delivery.settle d m dest).at d m .finished).task d' = some (m', stage) →
      s.delivery.task d' = some (m', stage) := by
    intro d' m' stage hstage htask
    rcases Delivery.task_at.mp htask with ⟨-, -, hsame⟩ | ⟨-, hother⟩
    · exact absurd hsame.symm hstage
    · rwa [Delivery.task_settle] at hother
  refine .next ⟨.other ⟨hnext, ?_, ?_, ?_, ?_⟩, ?_⟩ (.here ⟨rfl, by rw [settle_eq hplace]; rfl⟩)
  · intro m'
    by_cases hm : m' = m
    · subst hm
      rcases hdest with rfl | rfl <;> simp [settle_eq hplace, Delivery.State.at, hplace]
    · simp [settle_eq hplace, Delivery.State.at, Function.update_of_ne hm]
  · intro m' d' hunacked
    rw [settle_eq hplace] at hunacked
    exact Delivery.unacked_of_update hnot hunacked
  · intro d' m' htask
    exact .inl (hother (by simp) htask)
  · intro d' m' hreceived hfailed
    cases hreceived.symm.trans (hother (by simp) hfailed)
  · intro m' d' hunacked
    by_cases hm : m' = m
    · subst hm
      obtain rfl := Place.unacked.inj (hplace.symm.trans hunacked)
      exact .inr stage_at
    · left
      rw [settle_eq hplace]
      simpa [Delivery.State.at, Function.update_of_ne hm] using hunacked

/-- A task goes on, and from there the message moves. -/
theorem canReach_moves_next {next : Delivery.State μ} {d : Nat} {m : μ} {stage : Stage}
    {dest : Place} (hstep : (steady body).step s ⟨next, s.order⟩)
    (hplace : next.place = s.delivery.place) (hstage : next.task = (s.delivery.at d m stage).task)
    (h : ∀ t : State μ, t.delivery.place = s.delivery.place →
      t.delivery.task d = some (m, stage) → (steady body).CanReach t (Moves t m dest)) :
    (steady body).CanReach s (Moves s m dest) := by
  refine .next hstep ((h _ hplace (by rw [hstage]; exact stage_at)).mono ?_)
  rintro t ⟨horder, ht⟩
  exact ⟨horder, by rw [ht, hplace]⟩

/-- A task that has come to its end is over with an ack or a reject. -/
theorem canReach_ended {m : μ} {d : Nat} {stage : Stage} (hplace : s.delivery.place m = .unacked d)
    (htask : s.delivery.task d = some (m, stage)) :
    (stage = .failed → (steady body).CanReach s (Moves s m .ready)) ∧
      (stage = .broadcast ∨ stage = .dropped → (steady body).CanReach s (Moves s m .gone)) := by
  constructor
  · rintro rfl
    exact canReach_settle hplace (.reject htask) (.inl rfl)
  · intro hstage
    exact canReach_settle hplace (.ack htask hstage) (.inr rfl)

/-- Whatever is unacked can be settled by its task. -/
theorem canReach_settled (h : (steady body).Reachable s) {m : μ} {d : Nat}
    (hplace : s.delivery.place m = .unacked d) :
    (steady body).CanReach s (Moves s m .ready) ∨ (steady body).CanReach s (Moves s m .gone) := by
  -- a task that fails, and one on its way to the database
  have hfails : ∀ {s : State μ} {stage : Stage} {next : Delivery.State μ},
      s.delivery.place m = .unacked d → s.delivery.task d = some (m, stage) →
      Delivery.Step body s.delivery next → next.place = s.delivery.place →
      next.task = (s.delivery.at d m .failed).task →
      (stage = .received → drops (body m) = false) →
      (steady body).CanReach s (Moves s m .ready) := by
    intro s stage next hplace htask hnext hsame hstage hdrops
    refine canReach_moves_next (steady_stage htask hnext hsame hstage (by simp) fun _ => hdrops)
      hsame hstage ?_
    exact fun t ht htask' => (canReach_ended (by rw [ht, hplace]) htask').1 rfl
  obtain ⟨stage, htask, hstage⟩ := busy (reachable_of_steady h) m d hplace
  cases stage with
  | received =>
    by_cases hdrops : drops (body m) = true
    · right
      refine canReach_moves_next (steady_drop htask hdrops) rfl rfl ?_
      exact fun t ht htask' => (canReach_ended (by rw [ht, hplace]) htask').2 (.inr rfl)
    · left
      rw [Bool.not_eq_true] at hdrops
      by_cases haccepted : Accepted (body m)
      · refine canReach_moves_next (steady_stage htask (.accept htask haccepted) rfl rfl (by simp)
          (by simp)) rfl rfl ?_
        exact fun t ht htask' => hfails (by rw [ht, hplace]) htask' (.writeFails htask') rfl rfl
          (by simp)
      · exact hfails hplace htask (.raises htask haccepted) rfl rfl fun _ => hdrops
  | writing => exact .inl (hfails hplace htask (.writeFails htask) rfl rfl (by simp))
  | committed => exact .inl (hfails hplace htask (.broadcastFails htask) rfl rfl (by simp))
  | failed => exact .inl ((canReach_ended hplace htask).1 rfl)
  | broadcast | dropped => exact .inr ((canReach_ended hplace htask).2 (by simp))
  | finished => exact absurd rfl hstage

/-- A task that has just begun acks its message, if that is not stuck. -/
theorem canReach_acked {m : μ} {d : Nat} (hplace : s.delivery.place m = .unacked d)
    (htask : s.delivery.task d = some (m, .received)) (hnot : stuck (body m) = false) :
    (steady body).CanReach s (Moves s m .gone) := by
  rcases stuck_eq_false.mp hnot with hdrops | ⟨r, hrow⟩
  · refine canReach_moves_next (steady_drop htask hdrops) rfl rfl ?_
    exact fun t ht hdropped => (canReach_ended (by rw [ht, hplace]) hdropped).2 (.inr rfl)
  · have haccepted := Delivery.accepted_of_rowOfBody hrow
    refine canReach_moves_next
      (steady_stage htask (.accept htask haccepted) rfl rfl (by simp) (by simp)) rfl rfl ?_
    intro t ht hwriting
    have hcommit : Delivery.Step body t.delivery
        ((t.delivery.persist m ⟨0, r⟩).at d m .committed) := .commit hwriting hrow
    refine canReach_moves_next (steady_stage hwriting hcommit rfl rfl (by simp) (by simp)) rfl rfl ?_
    intro u hu hcommitted
    refine canReach_moves_next
      (steady_stage hcommitted (.broadcast hcommitted) rfl rfl (by simp) (by simp)) rfl rfl ?_
    exact fun v hv hbroadcast =>
      (canReach_ended (by rw [hv, hu, ht, hplace]) hbroadcast).2 (.inl rfl)

/-! ## From the head of the queue -/

/-- The message is not unacked. -/
def Free (m : μ) (s : State μ) : Prop := ∀ d, s.delivery.place m ≠ .unacked d

omit [Runtime] [Postgres] in
/-- A message that goes to the queue or leaves it is not unacked, and no other is. -/
theorem Moves.free {m : μ} {dest : Place} (h : Moves s m dest t) (hdest : ∀ d, dest ≠ .unacked d) :
    Free m t ∧ ∀ m', Free m' s → Free m' t := by
  obtain ⟨-, hplace⟩ := h
  constructor
  · intro d
    rw [hplace, Function.update_self]
    exact hdest d
  · intro m' hfree d hunacked
    rw [hplace] at hunacked
    exact hfree d (Delivery.unacked_of_update hdest hunacked)

/-- Every task can settle its message, so that nothing is unacked. -/
theorem canReach_idle (h : (steady body).Reachable s) :
    (steady body).CanReach s fun t =>
      (steady body).Reachable t ∧ t.order = s.order ∧ ∀ m, Free m t := by
  have hone : ∀ m ∈ s.order, ∀ t, (steady body).Reachable t ∧ t.order = s.order →
      (steady body).CanReach t fun u => ((steady body).Reachable u ∧ u.order = s.order) ∧
        Free m u ∧ ∀ m', Free m' t → Free m' u := by
    rintro m - t ⟨hreach, horder⟩
    have hmoves : ∀ dest, (∀ d, dest ≠ .unacked d) → (steady body).CanReach t (Moves t m dest) →
        (steady body).CanReach t fun u => ((steady body).Reachable u ∧ u.order = s.order) ∧
          Free m u ∧ ∀ m', Free m' t → Free m' u := by
      intro dest hdest hcan
      refine (hcan.reachable hreach).mono ?_
      rintro u ⟨hu, hmoves⟩
      exact ⟨⟨hu, hmoves.1.trans horder⟩, hmoves.free hdest⟩
    by_cases hfree : Free m t
    · exact .here ⟨⟨hreach, horder⟩, hfree, fun _ hm' => hm'⟩
    · simp only [Free, ne_eq, not_forall, not_not] at hfree
      obtain ⟨d, hplace⟩ := hfree
      rcases canReach_settled hreach hplace with hready | hgone
      · exact hmoves _ (by simp) hready
      · exact hmoves _ (by simp) hgone
  refine (Machine.CanReach.all s.order hone ⟨h, rfl⟩).mono ?_
  rintro t ⟨⟨hreach, horder⟩, hall, -⟩
  refine ⟨hreach, horder, fun m d hplace => ?_⟩
  have hmem : m ∈ t.order := ((listed (reachable_of_steady hreach)).mem m).mpr (by simp [hplace])
  exact hall m (horder ▸ hmem) d hplace

/-- The messages of a list were handled: what is stuck of them is all that is unacked, and the
rest has left the broker. -/
structure Handled (body : μ → Bytes) (messages : List μ) (s : State μ) : Prop where
  gone : ∀ m ∈ messages, stuck (body m) = false → s.delivery.place m = .gone
  unacked : ∀ m, (∃ d, s.delivery.place m = .unacked d) ↔ m ∈ messages ∧ stuck (body m) = true

namespace Handled

variable {before after : List μ} {m : μ}

/-- How the next message moves decides whether it is handled. -/
theorem move (h : Handled body before s) {dest : Place} (hgone : stuck (body m) = false → dest = .gone)
    (hunacked : stuck (body m) = true → ∃ d, dest = .unacked d) (hmoves : Moves s m dest t) :
    Handled body (before ++ [m]) t := by
  obtain ⟨-, hplace⟩ := hmoves
  constructor
  case gone =>
    intro m' hmem hnot
    by_cases hm : m' = m
    · subst hm
      rw [hplace, Function.update_self, hgone hnot]
    · have hmem' : m' ∈ before := by simpa [hm] using hmem
      rw [hplace, Function.update_of_ne hm, h.gone m' hmem' hnot]
  case unacked =>
    intro m'
    by_cases hm : m' = m
    · subst hm
      cases hstuck : stuck (body m')
      · simp [hplace, hgone hstuck]
      · obtain ⟨d, rfl⟩ := hunacked hstuck
        simp [hplace]
    · simp [hplace, h.unacked m', hm]

omit [DecidableEq μ] in
/-- The message after them is the next to be delivered. -/
theorem first (h : Handled body before s) (horder : s.order = before ++ m :: after)
    (hready : s.delivery.place m = .ready) : s.First m := by
  refine ⟨before, after, horder, hready, fun m' hmem hready' => ?_⟩
  cases hstuck : stuck (body m')
  · cases hready'.symm.trans (h.gone m' hmem hstuck)
  · obtain ⟨d, hunacked⟩ := (h.unacked m').mpr ⟨hmem, hstuck⟩
    cases hready'.symm.trans hunacked

/-- The stuck ones take the places. -/
theorem room (h : Handled body before s)
    (hfew : (before.filter fun m => stuck (body m)).length < 10) :
    s.unacked.encard < prefetchCount := by
  have hsubset : s.unacked ⊆ {m | m ∈ before.filter fun m => stuck (body m)} := by
    intro m hunacked
    simpa using (h.unacked m).mp hunacked
  refine ((Set.encard_le_encard hsubset).trans (encard_le_length _)).trans_lt ?_
  rw [prefetchCount, ← Nat.cast_ofNat]
  exact Nat.cast_lt.mpr hfew

end Handled

/-- A ready message that is the next can be delivered, and acked unless it is stuck. -/
theorem canReach_moved (h : (steady body).Reachable s) {m : μ} (hfirst : s.First m)
    (hready : s.delivery.place m = .ready) (hroom : s.unacked.encard < prefetchCount) :
    ∃ dest, (stuck (body m) = false → dest = .gone) ∧
      (stuck (body m) = true → ∃ d, dest = .unacked d) ∧
      (steady body).CanReach s (Moves s m dest) := by
  obtain ⟨bound, hbound⟩ := Delivery.few (reachable_delivery (reachable_of_steady h))
  have hdelivered : (steady body).step s _ :=
    ⟨.deliver hfirst hroom (hbound bound le_rfl), fun m' d' hunacked => .inl ?_⟩
  · cases hstuck : stuck (body m)
    · refine ⟨.gone, by simp, by simp, .next hdelivered ?_⟩
      refine (canReach_acked (d := bound) (by simp) stage_at hstuck).mono ?_
      rintro t ⟨horder, hplace⟩
      exact ⟨horder, by rw [hplace, Function.update_idem]⟩
    · exact ⟨.unacked bound, by simp, by simp, .next hdelivered (.here ⟨rfl, rfl⟩)⟩
  · have hne : m' ≠ m := by
      rintro rfl
      cases hready.symm.trans hunacked
    simpa [Function.update_of_ne hne] using hunacked

/-- While there is room, the next message is handled. -/
theorem canReach_handled_next (h : (steady body).Reachable s) {before after : List μ} {m : μ}
    (horder : s.order = before ++ m :: after) (hbefore : Handled body before s)
    (hfew : (before.filter fun m' => stuck (body m')).length < 10) :
    (steady body).CanReach s fun t => t.order = s.order ∧ Handled body (before ++ [m]) t := by
  have hreach := reachable_of_steady h
  have hlisted := listed hreach
  cases hplace : s.delivery.place m with
  | absent => exact absurd hplace ((hlisted.mem m).mp (by simp [horder]))
  | unacked d =>
    have hnodup := hlisted.nodup
    rw [horder, List.nodup_append] at hnodup
    exact absurd rfl (hnodup.2.2 m ((hbefore.unacked m).mp ⟨d, hplace⟩).1 m List.mem_cons_self)
  | gone =>
    have hnot : stuck (body m) = false := by
      rw [← Bool.not_eq_true]
      exact fun hstuck => (stuck_stays hreach hstuck).1 hplace
    refine .here ⟨rfl, hbefore.move (fun _ => rfl) (by simp [hnot]) ⟨rfl, ?_⟩⟩
    rw [← hplace, Function.update_eq_self]
  | ready =>
    obtain ⟨dest, hgone, hunacked, hcan⟩ :=
      canReach_moved h (hbefore.first horder hplace) hplace (hbefore.room hfew)
    exact hcan.mono fun t hmoves => ⟨hmoves.1, hbefore.move hgone hunacked hmoves⟩

/-- From the head on, the queue can be handled up to the tenth that is stuck. -/
theorem canReach_handled (h : (steady body).Reachable s) (hidle : ∀ m, Free m s)
    (before after : List μ) (horder : s.order = before ++ after)
    (hfew : (before.filter fun m => stuck (body m)).length < 10) :
    (steady body).CanReach s fun t =>
      (steady body).Reachable t ∧ t.order = s.order ∧ Handled body before t := by
  induction before using List.reverseRecOn generalizing after with
  | nil =>
    refine .here ⟨h, rfl, by simp, fun m => ?_⟩
    simpa using fun d => hidle m d
  | append_singleton before m ih =>
    have hless : (before.filter fun m => stuck (body m)).length < 10 := by
      rw [List.filter_append, List.length_append] at hfew
      omega
    rw [List.append_assoc, List.singleton_append] at horder
    refine (ih (m :: after) horder hless).bind ?_
    rintro t ⟨hreach, horder', hhandled⟩
    refine ((canReach_handled_next hreach (horder'.trans horder) hhandled hless).reachable
      hreach).mono ?_
    rintro u ⟨hreach', horder'', hhandled'⟩
    exact ⟨hreach', horder''.trans horder', hhandled'⟩

/-- Up to the tenth that is stuck, every message that can be stored can be stored and acked. -/
theorem canReach_stored (h : (machine body).Reachable s) {before after : List μ} {m : μ}
    (horder : s.order = before ++ m :: after) {r : Row} (hrow : rowOfBody (body m) = some r)
    (hfew : (before.filter fun m' => stuck (body m')).length < 10) :
    (steady body).CanReach s fun t => t.delivery.place m = .gone ∧ t.delivery.Committed m := by
  refine (canReach_idle (.start h)).bind ?_
  rintro t ⟨hreach, horder', hidle⟩
  refine (canReach_handled hreach hidle before (m :: after) (horder'.trans horder) hfew).bind ?_
  rintro u ⟨hreach, horder'', hhandled⟩
  refine ((canReach_handled_next hreach ((horder''.trans horder').trans horder) hhandled
    hfew).reachable hreach).mono ?_
  rintro v ⟨hreach, -, hhandled⟩
  have hgone := hhandled.gone m (by simp) (stuck_eq_false.mpr (.inr ⟨r, hrow⟩))
  exact ⟨hgone, (safe (reachable_of_steady hreach)).left m hgone (Delivery.accepted_of_rowOfBody hrow)⟩

/-- With fewer than ten stuck, everything else can leave the queue. -/
theorem canReach_drained (h : (machine body).Reachable s)
    (hfew : (s.order.filter fun m => stuck (body m)).length < 10) :
    (steady body).CanReach s fun t => t.order = s.order ∧ Handled body s.order t := by
  refine (canReach_idle (.start h)).bind ?_
  rintro t ⟨hreach, horder, hidle⟩
  refine (canReach_handled hreach hidle s.order [] (by simpa using horder) hfew).mono ?_
  rintro u ⟨-, horder', hhandled⟩
  exact ⟨horder'.trans horder, hhandled⟩

end RtlsStream.Consumer.Queue
