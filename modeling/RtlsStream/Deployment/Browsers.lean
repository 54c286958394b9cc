/-
  Deployment/Browsers.lean --- what one browser sees of the whole.

  The envelopes between commit and publish are those of the tasks at that stage
  (`Pending`).  Listed in some order they are the `pending` of `Live.System`, and with them
  every step of the whole is a step of `Live.System` for each browser, or none at all
  (`toBrowser`).  A task whose publish fails is a task of `Live.System` that is abandoned.

  So every browser is sourced and handed over to as if it were alone, and what it shows
  never goes back in time, whatever the other browsers, the broker and the tasks do.
-/
import RtlsStream.Consumer.Progress
import RtlsStream.Deployment.Run

set_option autoImplicit false

namespace RtlsStream.Deployment

open RtlsStream.Foundation RtlsStream.Python RtlsStream.Store RtlsStream.Consumer RtlsStream.Live
open RtlsStream.Consumer.Delivery (Accepted rowOfBody task_at)

variable [Runtime] [Postgres]
variable {μ β : Type} {feed : Feed μ}

/-! ## Tasks between commit and publish -/

/-- How the tasks between commit and publish change when nothing is written or published: they
stay, or one of them fails. -/
theorem committed_of_quiet [DecidableEq μ] {body : μ → Bytes} {s t : Delivery.State μ}
    (h : Delivery.Step body s t) (hlog : t.log = s.log)
    (hquiet : ∀ d m, t.task d = some (m, .broadcast) → s.task d = some (m, .broadcast)) :
    (∀ d m, t.task d = some (m, .committed) ↔ s.task d = some (m, .committed)) ∨
      ∃ d₀ m₀, s.task d₀ = some (m₀, .committed) ∧
        ∀ d m, t.task d = some (m, .committed) ↔ d ≠ d₀ ∧ s.task d = some (m, .committed) := by
  have hmoves : ∀ {d m stage stage'}, s.task d = some (m, stage) → stage ≠ .committed →
      stage' ≠ .committed → ∀ d' m', (s.at d m stage').task d' = some (m', .committed) ↔
        s.task d' = some (m', .committed) := by
    intro d m stage stage' htask hstage hstage' d' m'
    rw [task_at]
    by_cases hd : d' = d
    · subst hd
      simp [htask, hstage, hstage']
    · simp [hd]
  cases h with
  | publish | connectionLoss => exact .inl fun _ _ => .rfl
  | @deliver m d _ hfree =>
    refine .inl fun d' m' => ?_
    change (s.at d m .received).task d' = _ ↔ _
    rw [task_at]
    by_cases hd : d' = d
    · subst hd
      simp [hfree]
    · simp [hd]
  | accept htask | drop htask | raises htask | writeFails htask =>
    exact .inl (hmoves htask (by simp) (by simp))
  | commit | commitUnseen => simp [Delivery.State.at, Delivery.State.persist] at hlog
  | @broadcast m d htask =>
    have hbefore := hquiet d m (task_at.mpr (.inl ⟨rfl, rfl, rfl⟩))
    simp [htask] at hbefore
  | @broadcastFails m d htask =>
    refine .inr ⟨d, m, htask, fun d' m' => ?_⟩
    rw [task_at]
    simp
  | @ack m d stage htask hstage =>
    have hstage' : stage ≠ .committed := by rcases hstage with rfl | rfl <;> simp
    refine .inl fun d' m' => ?_
    rw [← hmoves htask hstage' (by simp : Delivery.Stage.finished ≠ .committed)]
    unfold Delivery.State.settle
    split
    · split <;> exact .rfl
    · exact .rfl
  | @reject m d htask =>
    refine .inl fun d' m' => ?_
    rw [← hmoves htask (by simp) (by simp : Delivery.Stage.finished ≠ .committed)]
    unfold Delivery.State.settle
    split
    · split <;> exact .rfl
    · exact .rfl

/-- The tasks between commit and publish, with their envelopes. -/
structure Pending (feed : Feed μ) (s : Delivery.State μ) (tasks : List (Nat × LiveEnvelope)) :
    Prop where
  nodup : (tasks.map (·.1)).Nodup
  mem : ∀ d e, (d, e) ∈ tasks ↔ ∃ m, s.task d = some (m, .committed) ∧ Carries (feed.body m) e

namespace Pending

variable {s t : Delivery.State μ} {tasks : List (Nat × LiveEnvelope)}

theorem congr (h : Pending feed s tasks)
    (hsame : ∀ d m, t.task d = some (m, .committed) ↔ s.task d = some (m, .committed)) :
    Pending feed t tasks :=
  ⟨h.nodup, fun d e => by simp only [h.mem, hsame]⟩

/-- One more task has committed. -/
theorem add (h : Pending feed s tasks) {d : Nat} {m : μ} {e : LiveEnvelope}
    (hcarries : Carries (feed.body m) e) (hbefore : ∀ m', s.task d ≠ some (m', .committed))
    (hafter : ∀ d' m', t.task d' = some (m', .committed) ↔
      d' = d ∧ m = m' ∨ d' ≠ d ∧ s.task d' = some (m', .committed)) :
    Pending feed t ((d, e) :: tasks) := by
  constructor
  case nodup =>
    rw [List.map_cons, List.nodup_cons]
    refine ⟨?_, h.nodup⟩
    intro hmem
    obtain ⟨⟨d', e'⟩, hmem', hkey⟩ := List.mem_map.mp hmem
    obtain rfl : d' = d := hkey
    obtain ⟨m', htask, -⟩ := (h.mem d' e').mp hmem'
    exact hbefore m' htask
  case mem =>
    intro d' e'
    rw [List.mem_cons, h.mem, Prod.mk.injEq]
    by_cases hd : d' = d
    · subst hd
      simp only [hafter, true_and, not_true_eq_false, false_and, ne_eq, or_false,
        exists_eq_left', hbefore, false_and, exists_false]
      exact ⟨fun heq => heq ▸ hcarries, fun hcarries' => hcarries'.unique hcarries⟩
    · simp [hafter, hd]

/-- A task goes on. -/
theorem remove {before after : List (Nat × LiveEnvelope)} {d : Nat} {e : LiveEnvelope}
    (h : Pending feed s (before ++ (d, e) :: after))
    (hafter : ∀ d' m', t.task d' = some (m', .committed) ↔
      d' ≠ d ∧ s.task d' = some (m', .committed)) :
    Pending feed t (before ++ after) := by
  have hnodup := h.nodup
  rw [List.map_append, List.map_cons, List.nodup_middle, List.nodup_cons] at hnodup
  constructor
  case nodup => simpa using hnodup.2
  case mem =>
    intro d' e'
    by_cases hd : d' = d
    · subst hd
      have hgone : (d', e') ∉ before ++ after := by
        intro hmem
        have hkey := List.mem_map_of_mem (f := Prod.fst) hmem
        rw [List.map_append] at hkey
        exact hnodup.1 hkey
      simp [hafter, hgone]
    · have hmem := h.mem d' e'
      simp only [List.mem_append, List.mem_cons, Prod.mk.injEq, hd, false_and, false_or] at hmem
      simp [hafter, hd, hmem]

/-- The place of a task in the list. -/
theorem split (h : Pending feed s tasks) {d : Nat} {m : μ} {e : LiveEnvelope}
    (htask : s.task d = some (m, .committed)) (hcarries : Carries (feed.body m) e) :
    ∃ before after, tasks = before ++ (d, e) :: after :=
  List.mem_iff_append.mp ((h.mem d e).mpr ⟨m, htask, hcarries⟩)

end Pending

/-! ## The projection -/

/-- The state of `Live.System` that belongs to a browser. -/
def SeenBy (feed : Feed μ) (b : β) (s : State μ β) (t : Live.State) : Prop :=
  ∃ tasks, Pending feed s.delivery tasks ∧ t = s.view b (tasks.map (·.2))

/-- A step of a browser leaves everything else alone, and does not need to know which tasks
are between commit and publish. -/
theorem browser_step {s : State μ β} {b : β} {next : Live.State}
    (h : Live.Step (s.view b []) next) (hcommitted : next.committed = s.committed)
    (pending : List LiveEnvelope) :
    Live.Step (s.view b pending)
      ⟨s.delivery.db, s.committed, pending, s.published, next.session, next.client⟩ := by
  cases h with
  | commit => simp [State.view] at hcommitted
  | publish hpending => simp [State.view] at hpending
  | abandon hpending => simp [State.view] at hpending
  | connect hnone => exact .connect hnone
  | subscribe hS hstage => exact .subscribe hS hstage
  | readSnapshot hS hstage hperm => exact .readSnapshot hS hstage hperm
  | sendSnapshot hS hstage => exact .sendSnapshot hS hstage
  | skip hS hstage hqueue hstale => exact .skip hS hstage hqueue hstale
  | forward hS hstage hqueue hfresh => exact .forward hS hstage hqueue hfresh
  | receive hS hwire => exact .receive hS hwire
  | close => exact .close

/-- What a task has committed carries an envelope. -/
theorem carries_of_committed {s : Delivery.State μ} (hsafe : Delivery.Safe feed.body s) {d : Nat}
    {m : μ} (htask : s.task d = some (m, .committed)) : ∃ e, Carries (feed.body m) e := by
  obtain ⟨-, e, hmem⟩ := hsafe.tasks d m _ htask
  exact feed.live m _ (hsafe.logged m e hmem).2.2

/-- What writes no row leaves the tables as they are. -/
theorem db_of_quiet [DecidableEq μ] {body : μ → Bytes} {s t : Delivery.State μ}
    (h : Delivery.Step body s t) (hlog : t.log = s.log) : t.db = s.db := by
  cases h with
  | commit | commitUnseen => simp [Delivery.State.at, Delivery.State.persist] at hlog
  | ack | reject =>
    simp only [Delivery.State.at, Delivery.State.settle]
    split
    · split <;> rfl
    · rfl
  | _ => rfl

variable {s : State μ β} {b : β} {tasks : List (Nat × LiveEnvelope)}

/-- A task that fails after its commit is abandoned; nothing else is seen. -/
theorem Pending.consumer [DecidableEq μ] (h : Pending feed s.delivery tasks)
    (hsafe : Delivery.Safe feed.body s.delivery) {next : Delivery.State μ}
    (hnext : Delivery.Step feed.body s.delivery next) (hlog : next.log = s.delivery.log)
    (hquiet : ∀ d m, next.task d = some (m, .broadcast) →
      s.delivery.task d = some (m, .broadcast)) :
    ∃ t, Relation.ReflTransGen Live.Step (s.view b (tasks.map (·.2))) t ∧
      SeenBy feed b { s with delivery := next } t := by
  have hdb := db_of_quiet hnext hlog
  rcases committed_of_quiet hnext hlog hquiet with hsame | ⟨d, m, htask, hafter⟩
  · refine ⟨_, .refl, tasks, h.congr hsame, ?_⟩
    simp [State.view, hdb]
  · obtain ⟨e, hcarries⟩ := carries_of_committed hsafe htask
    obtain ⟨before, after, rfl⟩ := h.split htask hcarries
    have hpending : (s.view b ((before ++ (d, e) :: after).map (·.2))).pending =
        before.map (·.2) ++ e :: after.map (·.2) := by simp [State.view]
    refine ⟨_, .single (.abandon hpending), before ++ after, h.remove hafter, ?_⟩
    simp [State.view, hdb]

/-- A task that fails in its commit is abandoned at once. -/
theorem Pending.commit (h : Pending feed s.delivery tasks) {m : μ} {d id : Nat} {e : LiveEnvelope}
    {stage : Delivery.Stage} (htask : s.delivery.task d = some (m, .writing))
    (hcarries : Carries (feed.body m) e) (hstage : stage = .committed ∨ stage = .failed) :
    ∃ t, Relation.ReflTransGen Live.Step (s.view b (tasks.map (·.2))) t ∧
      SeenBy feed b { s with
        delivery := (s.delivery.persist m ⟨id, e.row⟩).at d m stage
        committed := s.committed ++ [e] } t := by
  have hbefore : ∀ m', s.delivery.task d ≠ some (m', .committed) := by simp [htask]
  have hcommit := Live.Step.commit (s := s.view b (tasks.map (·.2))) e id
  rcases hstage with rfl | rfl
  · refine ⟨_, .single hcommit, (d, e) :: tasks, h.add hcarries hbefore ?_, rfl⟩
    intro d' m'
    rw [task_at]
    simp [Delivery.State.persist]
  · have hpending : e :: (s.view b (tasks.map (·.2))).pending = [] ++ e :: tasks.map (·.2) := rfl
    have habandon := (Relation.ReflTransGen.single hcommit).tail (.abandon hpending)
    refine ⟨_, habandon, tasks, h.congr ?_, rfl⟩
    intro d' m'
    rw [task_at]
    by_cases hd : d' = d
    · subst hd
      simp [hbefore]
    · simp [hd, Delivery.State.persist]

theorem Pending.broadcast (h : Pending feed s.delivery tasks) {m : μ} {d : Nat} {e : LiveEnvelope}
    (htask : s.delivery.task d = some (m, .committed)) (hcarries : Carries (feed.body m) e) :
    ∃ t, Relation.ReflTransGen Live.Step (s.view b (tasks.map (·.2))) t ∧
      SeenBy feed b { s with
        delivery := s.delivery.at d m .broadcast
        published := e :: s.published
        browser := fun b => (s.browser b).offer e } t := by
  obtain ⟨before, after, rfl⟩ := h.split htask hcarries
  have hpending : (s.view b ((before ++ (d, e) :: after).map (·.2))).pending =
      before.map (·.2) ++ e :: after.map (·.2) := by simp [State.view]
  refine ⟨_, .single (.publish hpending), before ++ after, h.remove ?_, ?_⟩
  · intro d' m'
    rw [task_at]
    simp
  · simp [State.view, Delivery.State.at, Browser.offer]

/-- A browser sees its own steps. -/
theorem Pending.browser [DecidableEq β] (h : Pending feed s.delivery tasks) {b' : β}
    {next : Live.State} (hnext : Live.Step (s.view b' []) next)
    (hcommitted : next.committed = s.committed) :
    ∃ t, Relation.ReflTransGen Live.Step (s.view b (tasks.map (·.2))) t ∧
      SeenBy feed b
        { s with browser := Function.update s.browser b' ⟨next.session, next.client⟩ } t := by
  by_cases hb : b' = b
  · subst hb
    refine ⟨_, .single (browser_step hnext hcommitted (tasks.map (·.2))), tasks, h, ?_⟩
    simp [State.view]
  · refine ⟨_, .refl, tasks, h, ?_⟩
    simp [State.view, Function.update_of_ne (Ne.symm hb)]

variable [DecidableEq μ] [DecidableEq β]

/-- Every browser takes the whole for `Live.System`. -/
theorem toBrowser (b : β) :
    Machine.Simulation (machine feed) Live.machine (SeenBy feed b) := by
  constructor
  case init =>
    rintro s ⟨⟨-, hfree, hdb, -⟩, hcommitted, hpublished, hbrowser⟩
    refine ⟨_, rfl, [], ⟨.nil, by simp [hfree]⟩, ?_⟩
    simp [State.view, hdb, hcommitted, hpublished, hbrowser]
  case step =>
    rintro s s' _ hreach ⟨tasks, hpending, rfl⟩ hstep
    cases hstep with
    | consumer hnext hlog hquiet => exact hpending.consumer (safe hreach) hnext hlog hquiet
    | commit htask hcarries hstage => exact hpending.commit htask hcarries hstage
    | broadcast htask hcarries => exact hpending.broadcast htask hcarries
    | browser hnext hcommitted => exact hpending.browser hnext hcommitted

theorem reachable_view {s : State μ β} (h : (machine feed).Reachable s) (b : β) :
    ∃ pending, Live.machine.Reachable (s.view b pending) := by
  obtain ⟨_, hreach, tasks, -, rfl⟩ := (toBrowser b).reachable h
  exact ⟨_, hreach⟩

end RtlsStream.Deployment
