/-
  Deployment/Display.lean --- what a browser shows of what was sent.

  A message leaves the broker after a task has published its envelope (`Announced`), so
  once every message that can be stored is gone, everything committed was published.  A
  browser that has caught up then shows of each tag the greatest time that was sent
  (`shown_iff_newest`), and any two browsers that have caught up show the same
  (`browsers_agree`), although their snapshots were read at different moments and their
  queues were offered different envelopes.
-/
import RtlsStream.Deployment.Browsers
import Mathlib.Order.Bounds.Basic

set_option autoImplicit false

namespace RtlsStream.Deployment

open RtlsStream.Foundation RtlsStream.Python RtlsStream.Store RtlsStream.Consumer RtlsStream.Live
open RtlsStream.Consumer.Delivery (Accepted rowOfBody task_at)

variable [Runtime] [Postgres]
variable {μ β : Type} {feed : Feed μ} {s : State μ β}

/-! ## What has been published -/

/-- A row of the log for the message is behind everything committed, and a published envelope
behind every task that has published and every accepted message that is gone. -/
structure Announced (feed : Feed μ) (s : State μ β) : Prop where
  logged : ∀ e ∈ s.committed, ∃ m id, (m, ⟨id, e.row⟩) ∈ s.delivery.log ∧ Carries (feed.body m) e
  task : ∀ d m, s.delivery.task d = some (m, .broadcast) →
    ∃ e ∈ s.published, Carries (feed.body m) e
  gone : ∀ m, s.delivery.place m = .gone → Accepted (feed.body m) →
    ∃ e ∈ s.published, Carries (feed.body m) e

omit [Runtime] [Postgres] in
/-- Settling moves no message but the task's own. -/
theorem gone_of_settle [DecidableEq μ] {s : Delivery.State μ} {d : Nat} {m m' : μ} {dest : Delivery.Place}
    (h : (s.settle d m dest).place m' = .gone) : s.place m' = .gone ∨ m' = m ∧ dest = .gone := by
  unfold Delivery.State.settle at h
  split at h
  · split at h
    · by_cases hm : m' = m
      · subst hm
        simp only [Function.update_self] at h
        exact .inr ⟨rfl, h⟩
      · simp only [Function.update_of_ne hm] at h
        exact .inl h
    · exact .inl h
  · exact .inl h

/-- A message that is gone was gone before, unless a task that has published it, or that has
refused it, acks it. -/
theorem gone_of_step [DecidableEq μ] {body : μ → Bytes} {s t : Delivery.State μ}
    (h : Delivery.Step body s t) (hsafe : Delivery.Safe body s) {m : μ} (hgone : t.place m = .gone)
    (haccepted : Accepted (body m)) :
    s.place m = .gone ∨ ∃ d, s.task d = some (m, .broadcast) := by
  cases h with
  | publish | deliver => exact .inl (Delivery.gone_of_update (by simp) hgone)
  | connectionLoss =>
    refine .inl ?_
    simp only [Delivery.State.disconnect] at hgone
    split at hgone
    · cases hgone
    · exact hgone
  | @ack m' d stage htask hstage =>
    rcases gone_of_settle (s := s) hgone with hbefore | ⟨rfl, -⟩
    · exact .inl hbefore
    · rcases hstage with rfl | rfl
      · exact .inr ⟨d, htask⟩
      · exact absurd haccepted (hsafe.tasks d m _ htask).2
  | reject =>
    rcases gone_of_settle (s := s) hgone with hbefore | ⟨-, hready⟩
    · exact .inl hbefore
    · cases hready
  | _ => exact .inl hgone

namespace Announced

theorem consumer [DecidableEq μ] (h : Announced feed s)
    (hsafe : Delivery.Safe feed.body s.delivery) {next : Delivery.State μ}
    (hnext : Delivery.Step feed.body s.delivery next) (hlog : next.log = s.delivery.log)
    (hquiet : ∀ d m, next.task d = some (m, .broadcast) →
      s.delivery.task d = some (m, .broadcast)) :
    Announced feed { s with delivery := next } := by
  refine ⟨?_, fun d m htask => h.task d m (hquiet d m htask), ?_⟩
  · intro e he
    rw [hlog]
    exact h.logged e he
  intro m hgone haccepted
  rcases gone_of_step hnext hsafe hgone haccepted with hbefore | ⟨d, htask⟩
  · exact h.gone m hbefore haccepted
  · exact h.task d m htask

theorem commit (h : Announced feed s) {m : μ} {d id : Nat} {e : LiveEnvelope}
    {stage : Delivery.Stage} (hcarries : Carries (feed.body m) e)
    (hstage : stage = .committed ∨ stage = .failed) :
    Announced feed { s with
      delivery := (s.delivery.persist m ⟨id, e.row⟩).at d m stage
      committed := s.committed ++ [e] } := by
  refine ⟨?_, ?_, h.gone⟩
  · intro e' he'
    rcases List.mem_append.mp he' with he' | he'
    · obtain ⟨m', id', hmem, hcarries'⟩ := h.logged e' he'
      exact ⟨m', id', List.mem_append_left _ hmem, hcarries'⟩
    · obtain rfl := List.mem_singleton.mp he'
      exact ⟨m, id, List.mem_append_right _ (List.mem_singleton_self _), hcarries⟩
  · intro d' m' htask
    rw [task_at] at htask
    rcases htask with ⟨-, -, rfl⟩ | ⟨-, htask⟩
    · rcases hstage with hstage | hstage <;> cases hstage
    · exact h.task d' m' htask

theorem broadcast (h : Announced feed s) {m : μ} {d : Nat} {e : LiveEnvelope}
    (hcarries : Carries (feed.body m) e) :
    Announced feed { s with
      delivery := s.delivery.at d m .broadcast
      published := e :: s.published
      browser := fun b => (s.browser b).offer e } := by
  have hmore : ∀ m', (∃ e' ∈ s.published, Carries (feed.body m') e') →
      ∃ e' ∈ e :: s.published, Carries (feed.body m') e' := by
    rintro m' ⟨e', he', hcarries'⟩
    exact ⟨e', List.mem_cons_of_mem _ he', hcarries'⟩
  refine ⟨h.logged, ?_, fun m' hgone haccepted => hmore m' (h.gone m' hgone haccepted)⟩
  intro d' m' htask
  rw [task_at] at htask
  rcases htask with ⟨-, rfl, -⟩ | ⟨-, htask⟩
  · exact ⟨e, List.mem_cons_self, hcarries⟩
  · exact hmore m' (h.task d' m' htask)

end Announced

variable [DecidableEq μ] [DecidableEq β]

theorem announced (h : (machine feed).Reachable s) : Announced feed s := by
  refine Machine.invariant ?_ ?_ h
  · rintro s ⟨⟨hplace, hfree, -, -⟩, hcommitted, -⟩
    exact ⟨by simp [hcommitted], by simp [hfree], by simp [hplace]⟩
  · intro s t hreach hannounced hstep
    cases hstep with
    | consumer hnext hlog hquiet => exact hannounced.consumer (safe hreach) hnext hlog hquiet
    | commit _ hcarries hstage => exact hannounced.commit hcarries hstage
    | broadcast _ hcarries => exact hannounced.broadcast hcarries
    | browser => exact ⟨hannounced.logged, hannounced.task, hannounced.gone⟩

/-! ## Caught up -/

/-- Every message that can be stored has left the broker. -/
def Consumed (feed : Feed μ) (s : State μ β) : Prop :=
  ∀ m e, s.delivery.place m ≠ .absent → Carries (feed.body m) e → s.delivery.place m = .gone

/-- The snapshot is applied, everything after it has arrived and been read, and the queue has
never overflowed. -/
structure CaughtUp (s : State μ β) (b : β) : Prop where
  session : ∃ S, (s.browser b).session = some S ∧ S.queue = [] ∧ S.wire = [] ∧ S.overflowed = false
  applied : (s.browser b).client.gotSnapshot = true
  parsed : (s.browser b).client.unparsed = false

/-- The times of what was sent and can be stored are not before the epoch, and a binary64
number can hold them. -/
def TimesExact (feed : Feed μ) (s : State μ β) : Prop :=
  ∀ m e, s.delivery.place m ≠ .absent → Carries (feed.body m) e → 0 ≤ e.tsUtcMs ∧ e.tsUtcMs ≤ 2 ^ 53

/-- The times sent for a tag, of what can be stored -/
def sentTimes (feed : Feed μ) (s : State μ β) (tag : Str) : Set ℚ :=
  {t | ∃ m e, s.delivery.place m ≠ .absent ∧ Carries (feed.body m) e ∧ e.tagId = tag ∧
    (e.tsUtcMs : ℚ) = t}

/-- The times a browser shows -/
def shownTimes (s : State μ β) (b : β) (tag : Str) : Set ℚ :=
  {t | ∃ p, (s.browser b).client.positions.find? tag = some p ∧ p.ts = t}

/-- What is committed was sent. -/
theorem sent_of_committed (h : (machine feed).Reachable s) {e : LiveEnvelope}
    (he : e ∈ s.committed) : ∃ m, s.delivery.place m ≠ .absent ∧ Carries (feed.body m) e := by
  obtain ⟨m, id, hmem, hcarries⟩ := (announced h).logged e he
  exact ⟨m, ((safe h).logged m _ hmem).1, hcarries⟩

/-- What was sent has been published, once it is consumed. -/
theorem published_of_consumed (h : (machine feed).Reachable s) (hconsumed : Consumed feed s) {m : μ}
    {e : LiveEnvelope} (hsent : s.delivery.place m ≠ .absent) (hcarries : Carries (feed.body m) e) :
    e ∈ s.published := by
  obtain ⟨e', he', hcarries'⟩ :=
    (announced h).gone m (hconsumed m e hsent hcarries) hcarries.accepted
  rwa [hcarries.unique hcarries']

/-- A browser that has caught up is settled, once everything is consumed. -/
theorem CaughtUp.settled (h : (machine feed).Reachable s) (hconsumed : Consumed feed s) {b : β}
    (hb : CaughtUp s b) (pending : List LiveEnvelope) :
    ∃ S, Settled (s.view b pending) S := by
  obtain ⟨S, hS, hqueue, hwire, hroom⟩ := hb.session
  refine ⟨S, hS, hb.applied, hb.parsed, hqueue, hwire, hroom, ?_⟩
  intro e he
  obtain ⟨m, hsent, hcarries⟩ := sent_of_committed h he
  exact published_of_consumed h hconsumed hsent hcarries

/-- What is shown was sent. -/
theorem shown_sent (h : (machine feed).Reachable s) (hexact : TimesExact feed s) (b : β) (tag : Str) :
    shownTimes s b tag ⊆ sentTimes feed s tag := by
  rintro t ⟨p, hp, rfl⟩
  obtain ⟨pending, hview⟩ := reachable_view h b
  obtain ⟨e, he, htag, hshown⟩ := (sourced hview).shown tag p hp
  obtain ⟨m, hsent, hcarries⟩ := sent_of_committed h he
  obtain ⟨hpos, hle⟩ := hexact m e hsent hcarries
  refine ⟨m, e, hsent, hcarries, htag, ?_⟩
  rw [hshown.key.2, Binary64.value_nearest_exact (by omega)]

/-- What was sent is shown, or something newer is. -/
theorem sent_shown (h : (machine feed).Reachable s) (hconsumed : Consumed feed s)
    (hexact : TimesExact feed s) {b : β} (hb : CaughtUp s b) {tag : Str} {t : ℚ}
    (ht : t ∈ sentTimes feed s tag) : ∃ u ∈ shownTimes s b tag, t ≤ u := by
  obtain ⟨m, e, hsent, hcarries, rfl, rfl⟩ := ht
  obtain ⟨pending, hview⟩ := reachable_view h b
  obtain ⟨S, hsettled⟩ := hb.settled h hconsumed pending
  have hcommitted : e ∈ s.committed :=
    (sourced hview).published e (published_of_consumed h hconsumed hsent hcarries)
  obtain ⟨hpos, hle⟩ := hexact m e hsent hcarries
  obtain ⟨p, hp, hts⟩ := shows_of_settled hview hsettled hcommitted hpos
  rw [Binary64.value_nearest_exact (by omega)] at hts
  exact ⟨p.ts, ⟨p, hp, rfl⟩, hts⟩

/-- A browser that has caught up shows of each tag the newest time that was sent. -/
theorem shown_iff_newest (h : (machine feed).Reachable s) (hconsumed : Consumed feed s)
    (hexact : TimesExact feed s) {b : β} (hb : CaughtUp s b) (tag : Str) (t : ℚ) :
    t ∈ shownTimes s b tag ↔ IsGreatest (sentTimes feed s tag) t := by
  have hupper : ∀ t ∈ shownTimes s b tag, t ∈ upperBounds (sentTimes feed s tag) := by
    rintro t ⟨p, hp, rfl⟩ u hu
    obtain ⟨_, ⟨q, hq, rfl⟩, hle⟩ := sent_shown h hconsumed hexact hb hu
    obtain rfl : p = q := Option.some.inj (hp.symm.trans hq)
    exact hle
  constructor
  · exact fun ht => ⟨shown_sent h hexact b tag ht, hupper t ht⟩
  · rintro ⟨hmem, hbound⟩
    obtain ⟨u, hu, hle⟩ := sent_shown h hconsumed hexact hb hmem
    rwa [le_antisymm hle (hbound (shown_sent h hexact b tag hu))]

/-- Any two browsers that have caught up show the same tags at the same times. -/
theorem browsers_agree (h : (machine feed).Reachable s) (hconsumed : Consumed feed s)
    (hexact : TimesExact feed s) {b b' : β} (hb : CaughtUp s b) (hb' : CaughtUp s b') (tag : Str) :
    shownTimes s b tag = shownTimes s b' tag := by
  ext t
  rw [shown_iff_newest h hconsumed hexact hb, shown_iff_newest h hconsumed hexact hb']

/-- What any browser shows never goes back in time and never disappears. -/
theorem shown_never_back (h : (machine feed).Reachable s) {s' : State μ β}
    (hrun : Relation.ReflTransGen (Step feed) s s') (b : β) (tag : Str) :
    ∀ t ∈ shownTimes s b tag, ∃ u ∈ shownTimes s' b tag, t ≤ u := by
  obtain ⟨t, hreach, hseen⟩ := (toBrowser b).reachable h
  obtain ⟨t', hrun', hseen'⟩ := (toBrowser b).run h hseen hrun
  obtain ⟨_, -, rfl⟩ := hseen
  obtain ⟨_, -, rfl⟩ := hseen'
  have hmono := Machine.run_induction (M := Live.machine)
    (R := fun t t' => NoEarlier t.client t'.client) hreach (.refl _)
    (fun _ _ hreach hsofar hstep => hsofar.trans (noEarlier_step hreach hstep)) hrun'
  rintro _ ⟨p, hp, rfl⟩
  obtain ⟨q, hq, hle⟩ := hmono tag p hp
  exact ⟨q.ts, ⟨q, hq, rfl⟩, hle⟩

end RtlsStream.Deployment
