/-
  Consumer/Progress.lean --- what every run of the broker and the consumer leaves possible.

  At any moment finitely many deliveries were made (`few`), so there is a number for one
  more.  A delivery that the broker waits for has a task, and the task has not finished
  (`busy`): whatever is unacked can still be acked or rejected.
-/
import RtlsStream.Consumer.Delivery

set_option autoImplicit false

namespace RtlsStream.Consumer.Delivery

open RtlsStream.Foundation RtlsStream.Python RtlsStream.Store

variable {μ : Type}

section Tasks

variable {s : State μ} {m m' : μ} {d d' : Nat} {stage stage' : Stage}

/-- The tasks after one has moved to another stage. -/
theorem task_at : (s.at d m stage).task d' = some (m', stage') ↔
    d' = d ∧ m = m' ∧ stage = stage' ∨ d' ≠ d ∧ s.task d' = some (m', stage') := by
  by_cases hd : d' = d
  · subst hd
    simp [State.at]
  · simp [State.at, hd]

variable [DecidableEq μ]

@[simp] theorem task_settle {dest : Place} : (s.settle d m dest).task = s.task := by
  unfold State.settle
  split
  · split <;> rfl
  · rfl

@[simp] theorem log_settle {dest : Place} : (s.settle d m dest).log = s.log := by
  unfold State.settle
  split
  · split <;> rfl
  · rfl

end Tasks

/-! ## Finitely many tasks -/

/-- Finitely many deliveries were made. -/
def Few (s : State μ) : Prop := ∃ bound, ∀ d, bound ≤ d → s.task d = none

theorem Few.stage {s : State μ} (h : Few s) (d : Nat) (m : μ) (next : Stage) :
    Few (s.at d m next) := by
  obtain ⟨bound, hbound⟩ := h
  refine ⟨max bound (d + 1), ?_⟩
  intro d' hd'
  have hne : d' ≠ d := by omega
  simp [State.at, Function.update_of_ne hne, hbound d' (by omega)]

theorem few [DecidableEq μ] [Runtime] [Postgres] {body : μ → Bytes} {s : State μ}
    (h : (machine body).Reachable s) : Few s := by
  refine Machine.invariant ?_ ?_ h
  · rintro s ⟨-, htask, -⟩
    exact ⟨0, by simp [htask]⟩
  · intro s t _ hfew hstep
    cases hstep with
    | publish | connectionLoss => exact hfew
    | deliver | accept | drop | raises | writeFails | broadcast | broadcastFails =>
      exact Few.stage hfew _ _ _
    | @commit m d id r => exact Few.stage (s := s.persist m ⟨id, r⟩) hfew _ _ _
    | @commitUnseen m d id r => exact Few.stage (s := s.persist m ⟨id, r⟩) hfew _ _ _
    | ack | reject =>
      refine Few.stage ?_ _ _ _
      rwa [Few, task_settle]

/-! ## Deliveries that are waited for -/

section Busy

variable {s : State μ}

/-- Every delivery that the broker waits for has a task of that message that has not finished. -/
def Busy (s : State μ) : Prop :=
  ∀ m d, s.place m = .unacked d → ∃ stage, s.task d = some (m, stage) ∧ stage ≠ .finished

/-- A task goes on. -/
theorem Busy.at (h : Busy s) {d : Nat} {m : μ} {stage next : Stage}
    (htask : s.task d = some (m, stage)) (hnext : next ≠ .finished) : Busy (s.at d m next) := by
  intro m' d' hplace
  obtain ⟨stage', htask', hstage'⟩ := h m' d' hplace
  by_cases hd : d' = d
  · subst hd
    obtain ⟨rfl, -⟩ := Prod.mk.inj (Option.some.inj (htask.symm.trans htask'))
    exact ⟨next, by simp [State.at], hnext⟩
  · exact ⟨stage', by simpa [State.at, Function.update_of_ne hd] using htask', hstage'⟩

variable [DecidableEq μ]

theorem unacked_of_update {place : μ → Place} {m m' : μ} {dest : Place} {d : Nat}
    (hdest : ∀ k, dest ≠ .unacked k) (h : Function.update place m dest m' = .unacked d) :
    place m' = .unacked d := by
  by_cases hm : m' = m
  · subst hm
    rw [Function.update_self] at h
    exact absurd h (hdest d)
  · rwa [Function.update_of_ne hm] at h

/-- Settling moves the message of this delivery, and no other. -/
theorem unacked_of_settle {d d' : Nat} {m m' : μ} {dest : Place} (hdest : ∀ k, dest ≠ .unacked k)
    (h : (s.settle d m dest).place m' = .unacked d') :
    s.place m' = .unacked d' ∧ ¬ (m' = m ∧ d' = d) := by
  unfold State.settle at h
  split at h
  · rename_i k hk
    split at h
    · by_cases hm : m' = m
      · subst hm
        exact absurd (by simpa using h) (hdest d')
      · simp only [Function.update_of_ne hm] at h
        exact ⟨h, fun hboth => hm hboth.1⟩
    · rename_i hne
      refine ⟨h, ?_⟩
      rintro ⟨rfl, rfl⟩
      exact hne (Place.unacked.inj (hk.symm.trans h))
  · rename_i hnone
    refine ⟨h, ?_⟩
    rintro ⟨rfl, rfl⟩
    exact hnone _ h

/-- A task that acks or rejects has finished, and nobody waits for it. -/
theorem Busy.settle (h : Busy s) {d : Nat} {m : μ} {stage : Stage} {dest : Place}
    (htask : s.task d = some (m, stage)) (hdest : ∀ k, dest ≠ .unacked k) :
    Busy ((s.settle d m dest).at d m .finished) := by
  intro m' d' hplace
  obtain ⟨hbefore, hother⟩ := unacked_of_settle hdest hplace
  obtain ⟨stage', htask', hstage'⟩ := h m' d' hbefore
  have hd : d' ≠ d := by
    rintro rfl
    obtain ⟨rfl, -⟩ := Prod.mk.inj (Option.some.inj (htask.symm.trans htask'))
    exact hother ⟨rfl, rfl⟩
  refine ⟨stage', ?_, hstage'⟩
  simpa [State.at, Function.update_of_ne hd] using htask'

theorem Busy.step [Runtime] [Postgres] {body : μ → Bytes} {t : State μ} (h : Busy s)
    (hstep : Step body s t) : Busy t := by
  cases hstep with
  | publish =>
    intro m' d' hplace
    exact h m' d' (unacked_of_update (by simp) hplace)
  | @deliver m d _ hfree =>
    intro m' d' hplace
    by_cases hm : m' = m
    · subst hm
      simp only [Function.update_self, Place.unacked.injEq] at hplace
      exact ⟨.received, by simp [State.at, hplace], by simp⟩
    · simp only [Function.update_of_ne hm] at hplace
      obtain ⟨stage, htask, hstage⟩ := h m' d' hplace
      have hd : d' ≠ d := by
        rintro rfl
        simp [hfree] at htask
      exact ⟨stage, by simpa [State.at, Function.update_of_ne hd] using htask, hstage⟩
  | accept htask | drop htask | raises htask | writeFails htask | broadcast htask
  | broadcastFails htask => exact h.at htask (by simp)
  | @commit m d id r htask => exact Busy.at (s := s.persist m ⟨id, r⟩) h htask (by simp)
  | @commitUnseen m d id r htask => exact Busy.at (s := s.persist m ⟨id, r⟩) h htask (by simp)
  | ack htask | reject htask => exact h.settle htask (by simp)
  | connectionLoss =>
    intro m' d' hplace
    simp only [State.disconnect] at hplace
    split at hplace
    · cases hplace
    · rename_i hother
      exact absurd hplace (hother d')

theorem busy [Runtime] [Postgres] {body : μ → Bytes} (h : (machine body).Reachable s) : Busy s := by
  refine Machine.invariant ?_ (fun _ _ _ hbusy hstep => hbusy.step hstep) h
  rintro s ⟨hplace, -⟩ m d hunacked
  simp [hplace] at hunacked

end Busy

/-! ## Messages that were delivered -/

section Delivered

variable {s t : State μ} {m m' : μ} {d : Nat} {stage : Stage}

/-- Some delivery of the message was made. -/
def State.Delivered (s : State μ) (m : μ) : Prop := ∃ d stage, s.task d = some (m, stage)

theorem delivered_at : (s.at d m stage).Delivered m' → m' = m ∨ s.Delivered m' := by
  rintro ⟨d', stage', htask⟩
  rcases task_at.mp htask with ⟨-, rfl, -⟩ | ⟨-, hother⟩
  · exact .inl rfl
  · exact .inr ⟨d', stage', hother⟩

/-- A delivery is of one message. -/
theorem kept_at {d' : Nat} {stage' : Stage} (hone : ∀ m₀ stage₀, s.task d = some (m₀, stage₀) → m₀ = m)
    (h : s.task d' = some (m', stage')) : ∃ next, (s.at d m stage).task d' = some (m', next) := by
  by_cases hd : d' = d
  · subst hd
    obtain rfl := hone m' stage' h
    exact ⟨stage, by simp [State.at]⟩
  · exact ⟨stage', task_at.mpr (.inr ⟨hd, h⟩)⟩

variable [DecidableEq μ] [Runtime] [Postgres] {body : μ → Bytes}

/-- A task stays, with its message. -/
theorem task_kept (hstep : Step body s t) (h : s.task d = some (m, stage)) :
    ∃ next, t.task d = some (m, next) := by
  have hone : ∀ {d' : Nat} {m' : μ} {stage' : Stage}, s.task d' = some (m', stage') →
      ∀ m₀ stage₀, s.task d' = some (m₀, stage₀) → m₀ = m' := by
    intro d' m' stage' htask m₀ stage₀ h₀
    exact (Prod.mk.inj (Option.some.inj (h₀.symm.trans htask))).1
  cases hstep with
  | publish | connectionLoss => exact ⟨stage, h⟩
  | deliver _ hfree => exact kept_at (fun m₀ stage₀ h₀ => by cases hfree.symm.trans h₀) h
  | accept htask | drop htask | raises htask | writeFails htask | broadcast htask
  | broadcastFails htask => exact kept_at (hone htask) h
  | @commit m' d' id r htask | @commitUnseen m' d' id r htask =>
    exact kept_at (s := s.persist m' ⟨id, r⟩) (hone htask) h
  | ack htask | reject htask =>
    refine kept_at ?_ (by rwa [task_settle])
    rw [task_settle]
    exact hone htask

theorem Delivered.step (h : s.Delivered m) (hstep : Step body s t) : t.Delivered m := by
  obtain ⟨d, stage, htask⟩ := h
  exact ⟨d, task_kept hstep htask⟩

/-- Only the broker starts tasks, for what is ready. -/
theorem delivered_step (hstep : Step body s t) (h : t.Delivered m) :
    s.Delivered m ∨ s.place m = .ready ∧ ∃ d, t.place m = .unacked d := by
  cases hstep with
  | publish | connectionLoss => exact .inl h
  | deliver hready =>
    rcases delivered_at h with rfl | hbefore
    · exact .inr ⟨hready, _, Function.update_self ..⟩
    · exact .inl hbefore
  | accept htask | drop htask | raises htask | writeFails htask | broadcast htask
  | broadcastFails htask | commit htask | commitUnseen htask =>
    rcases delivered_at h with rfl | hbefore
    · exact .inl ⟨_, _, htask⟩
    · exact .inl hbefore
  | ack htask | reject htask =>
    rcases delivered_at h with rfl | hbefore
    · exact .inl ⟨_, _, htask⟩
    · rw [State.Delivered, task_settle] at hbefore
      exact .inl hbefore

/-- Only a task commits. -/
theorem committed_step (hstep : Step body s t) (h : t.Committed m) :
    s.Committed m ∨ s.Delivered m := by
  have hpersist : ∀ {m' : μ} {d : Nat} {e : EventRow} {stage : Stage},
      s.task d = some (m', stage) → (s.persist m' e).Committed m →
      s.Committed m ∨ s.Delivered m := by
    rintro m' d e stage htask ⟨e', hmem⟩
    rcases List.mem_append.mp hmem with hbefore | hnew
    · exact .inl ⟨e', hbefore⟩
    · obtain ⟨rfl, -⟩ := Prod.mk.inj (List.mem_singleton.mp hnew)
      exact .inr ⟨d, stage, htask⟩
  cases hstep with
  | publish | deliver | accept | drop | raises | writeFails | broadcast | broadcastFails
  | connectionLoss => exact .inl h
  | commit htask | commitUnseen htask => exact hpersist htask h
  | ack | reject =>
    obtain ⟨e, hmem⟩ := h
    exact .inl ⟨e, by simpa [State.at] using hmem⟩

/-- What is committed stays. -/
theorem Committed.step (h : s.Committed m) (hstep : Step body s t) : t.Committed m := by
  obtain ⟨e, hmem⟩ := h
  cases hstep with
  | publish | deliver | accept | drop | raises | writeFails | broadcast | broadcastFails
  | connectionLoss => exact ⟨e, hmem⟩
  | commit | commitUnseen => exact ⟨e, List.mem_append_left _ hmem⟩
  | ack | reject => exact ⟨e, by simpa [State.at] using hmem⟩

/-- Only an ack takes a message from the broker. -/
theorem gone_step (hstep : Step body s t) (h : t.place m = .gone) : s.place m = .gone ∨
    ∃ d, s.task d = some (m, .broadcast) ∨ s.task d = some (m, .dropped) := by
  have hsettle : ∀ {m' : μ} {d : Nat} {dest : Place}, (s.settle d m' dest).place m = .gone →
      s.place m = .gone ∨ m = m' ∧ dest = .gone := by
    intro m' d dest h
    unfold State.settle at h
    split at h
    · split at h
      · by_cases hm : m = m'
        · subst hm
          exact .inr ⟨rfl, by simpa using h⟩
        · exact .inl (by simpa [Function.update_of_ne hm] using h)
      · exact .inl h
    · exact .inl h
  cases hstep with
  | publish | deliver => exact .inl (gone_of_update (by simp) h)
  | accept | drop | raises | commit | commitUnseen | writeFails | broadcast | broadcastFails =>
    exact .inl h
  | ack htask hstage =>
    rcases hsettle h with hbefore | ⟨rfl, -⟩
    · exact .inl hbefore
    · rcases hstage with rfl | rfl
      · exact .inr ⟨_, .inl htask⟩
      · exact .inr ⟨_, .inr htask⟩
  | reject htask =>
    rcases hsettle h with hbefore | ⟨-, hdest⟩
    · exact .inl hbefore
    · cases hdest
  | connectionLoss =>
    left
    cases hplace : s.place m <;> simp_all [State.disconnect]

/-- What is in the tables or has left the broker was delivered. -/
theorem delivered (h : (machine body).Reachable s) (m : μ) :
    s.place m = .gone ∨ s.Committed m → s.Delivered m := by
  refine Machine.invariant (P := fun s => s.place m = .gone ∨ s.Committed m → s.Delivered m) ?_ ?_ h
  · rintro s ⟨hplace, -, -, hlog⟩
    simp [hplace, State.Committed, hlog]
  · rintro s t - hbefore hstep (hgone | hcommitted)
    · refine Delivered.step ?_ hstep
      rcases gone_step hstep hgone with hgone | ⟨d, htask | htask⟩
      · exact hbefore (.inl hgone)
      · exact ⟨d, _, htask⟩
      · exact ⟨d, _, htask⟩
    · refine Delivered.step ?_ hstep
      rcases committed_step hstep hcommitted with hcommitted | hdelivered
      · exact hbefore (.inr hcommitted)
      · exact hdelivered

end Delivered

end RtlsStream.Consumer.Delivery
