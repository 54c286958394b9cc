/-
  Deployment/Recover.lean --- from any state, everything can still be consumed and shown.

  The broker keeps the order in which messages were published (`ordered`).  While fewer than
  ten of them can be neither dropped nor stored, every message that can be stored can be
  handed to a task that stores, publishes and acks it (`canReach_consumed`), and then every
  browser can connect anew and read a snapshot of it all (`canReach_caughtUp`).  Failed
  writes, publishes nobody heard, deliveries of a lost connection, full queues and closed
  sockets are all made up for.
-/
import RtlsStream.Consumer.Drain
import RtlsStream.Deployment.Display

set_option autoImplicit false

namespace RtlsStream.Deployment

open RtlsStream.Foundation RtlsStream.Python RtlsStream.Store RtlsStream.Consumer RtlsStream.Live
open RtlsStream.Consumer.Delivery (Accepted rowOfBody task_at)

variable [Runtime] [Postgres]
variable {μ β : Type} [DecidableEq μ] [DecidableEq β] {feed : Feed μ} {s : State μ β}

/-! ## A broker that keeps the order -/

/-- What the queue is of the whole. -/
def queue (s : State μ β) (order : List μ) : Queue.State μ := ⟨s.delivery, order⟩

/-- The whole, and a broker that delivers in the order of publication, ten at a time. -/
def ordered (feed : Feed μ) : Machine (State μ β × List μ) :=
  (machine feed).along queue (Queue.machine feed.body)

omit [Runtime] [Postgres] [DecidableEq μ] in
/-- A task that moves to a stage before `broadcast.publish` publishes nothing. -/
theorem quiet_at {s : Delivery.State μ} {d : Nat} {m : μ} {stage : Delivery.Stage}
    (hstage : stage ≠ .broadcast) : ∀ d' m', (s.at d m stage).task d' = some (m', .broadcast) →
      s.task d' = some (m', .broadcast) := by
  intro d' m' htask
  rcases task_at.mp htask with ⟨-, -, hsame⟩ | ⟨-, hother⟩
  · exact absurd hsame hstage
  · exact hother

/-- The whole can follow every step of the broker and of its tasks. -/
theorem follow_delivery (h : (machine feed).Reachable s) {next : Delivery.State μ}
    (hnext : Delivery.Step feed.body s.delivery next) :
    ∃ t, Step feed s t ∧ t.delivery = next := by
  have hsettled : ∀ {d m dest}, next = (s.delivery.settle d m dest).at d m .finished →
      Step feed s { s with delivery := next } := by
    rintro d m dest rfl
    refine .consumer hnext (by simp [Delivery.State.at]) fun d' m' htask => ?_
    simpa using quiet_at (by simp) d' m' htask
  have hat : ∀ {d m stage}, stage ≠ .broadcast → next = s.delivery.at d m stage →
      Step feed s { s with delivery := next } := by
    rintro d m stage hstage rfl
    exact .consumer hnext rfl (quiet_at hstage)
  cases hnext with
  | publish habsent => exact ⟨_, .consumer (.publish habsent) rfl fun _ _ htask => htask, rfl⟩
  | deliver hready hfree =>
    exact ⟨_, .consumer (.deliver hready hfree) rfl (quiet_at (by simp)), rfl⟩
  | accept | drop | raises | writeFails | broadcastFails => exact ⟨_, hat (by simp) rfl, rfl⟩
  | commit htask hrow | commitUnseen htask hrow =>
    obtain ⟨e, hcarries⟩ := feed.live _ _ hrow
    obtain rfl := Option.some.inj (hrow.symm.trans hcarries.row)
    exact ⟨_, .commit htask hcarries (by simp), rfl⟩
  | @broadcast m d htask =>
    obtain ⟨entry, hmem⟩ : s.delivery.Committed m := ((safe h).tasks d m _ htask).2
    obtain ⟨e, hcarries⟩ := feed.live _ _ ((safe h).logged m entry hmem).2.2
    exact ⟨_, .broadcast htask hcarries, rfl⟩
  | ack | reject => exact ⟨_, hsettled rfl, rfl⟩
  | connectionLoss => exact ⟨_, .consumer .connectionLoss rfl fun _ _ htask => htask, rfl⟩

/-- What the queue can do, the whole can do. -/
theorem canReach_of_queue {s : State μ β × List μ} (h : (ordered feed).Reachable s)
    {P : Queue.State μ → Prop} (hqueue : (Queue.steady feed.body).CanReach (queue s.1 s.2) P) :
    (ordered feed).CanReach s fun t => (ordered feed).Reachable t ∧ P (queue t.1 t.2) := by
  refine Machine.CanReach.lift (fun s => queue s.1 s.2) (ordered feed).Reachable ?_ h hqueue
  rintro s u hreach ⟨hstep, -⟩
  obtain ⟨t, hfollows, hdelivery⟩ := follow_delivery hreach.along_left hstep.delivery
  have hview : queue t u.order = u := by rw [queue, hdelivery]
  have hordered : (ordered feed).step s (t, u.order) := ⟨hfollows, .inl (hview.symm ▸ hstep)⟩
  exact ⟨_, hordered, hview, hreach.next hordered⟩

/-! ## Every message -/

omit [Runtime] [Postgres] [DecidableEq μ] [DecidableEq β] in
/-- The same messages were sent. -/
def SameSent (s t : State μ β) : Prop :=
  ∀ m, t.delivery.place m = .absent ↔ s.delivery.place m = .absent

omit [DecidableEq μ] [DecidableEq β] in
theorem SameSent.sentTimes {t : State μ β} (h : SameSent s t) (tag : Str) :
    sentTimes feed t tag = sentTimes feed s tag := by
  simp only [Deployment.sentTimes, ne_eq, h _]

theorem sent_iff {s : State μ β × List μ} (h : (ordered feed).Reachable s) (m : μ) :
    m ∈ s.2 ↔ s.1.delivery.place m ≠ .absent :=
  (Queue.listed (s := queue s.1 s.2) h.along_right).mem m

/-- While fewer than ten are stuck, every message that was sent and can be stored can still be
stored and acked. -/
theorem canReach_consumed {s : State μ β × List μ} (h : (ordered feed).Reachable s)
    (hfew : (s.2.filter fun m => Queue.stuck (feed.body m)).length < 10) :
    (ordered feed).CanReach s fun t =>
      (ordered feed).Reachable t ∧ SameSent s.1 t.1 ∧ Consumed feed t.1 := by
  refine (canReach_of_queue h (Queue.canReach_drained (s := queue s.1 s.2) h.along_right hfew)).mono ?_
  rintro t ⟨hreach, horder, hhandled⟩
  have hsame : ∀ m, m ∈ t.2 ↔ m ∈ s.2 := fun m => by rw [show t.2 = s.2 from horder]
  refine ⟨hreach, fun m => ?_, fun m e hsent hcarries => ?_⟩
  · exact not_iff_not.mp ((sent_iff hreach m).symm.trans ((hsame m).trans (sent_iff h m)))
  · have hmem : m ∈ s.2 := (hsame m).mp ((sent_iff hreach m).mpr hsent)
    exact hhandled.gone m hmem (Queue.stuck_eq_false.mpr (.inr ⟨_, hcarries.row⟩))

/-! ## Every browser -/

/-- A step of a browser or its session. -/
structure OwnStep (t u : Live.State) : Prop where
  step : Live.Step t u
  db : u.db = t.db
  committed : u.committed = t.committed
  pending : u.pending = t.pending
  published : u.published = t.published

omit [DecidableEq μ] in
/-- The whole after a browser has come to a state. -/
def State.withBrowser (s : State μ β) (b : β) (u : Live.State) : State μ β :=
  { s with browser := Function.update s.browser b ⟨u.session, u.client⟩ }

omit [DecidableEq μ] [DecidableEq β] in
/-- Such a step moves the session and the client only. -/
theorem OwnStep.eq {t u : Live.State} (h : OwnStep t u) :
    u = { t with session := u.session, client := u.client } := by
  obtain ⟨-, hdb, hcommitted, hpending, hpublished⟩ := h
  cases u
  cases hdb
  cases hcommitted
  cases hpending
  cases hpublished
  rfl

/-- What a browser and its session can do alone they can do in the whole. -/
theorem run_browser {b : β} {u : Live.State} {order : List μ}
    (hrun : Relation.ReflTransGen OwnStep (s.view b []) u) :
    Relation.ReflTransGen (ordered feed).step (s, order) (s.withBrowser b u, order) ∧
      (s.withBrowser b u).view b [] = u := by
  induction hrun with
  | refl =>
    have hsame : s.withBrowser b (s.view b []) = s := by simp [State.withBrowser, State.view]
    rw [hsame]
    exact ⟨.refl, rfl⟩
  | @tail u v _ hown ih =>
    obtain ⟨hrun, hview⟩ := ih
    constructor
    · have hstep : Step feed (s.withBrowser b u) ((s.withBrowser b u).withBrowser b v) := by
        refine .browser ?_ ?_
        · rw [hview]
          exact hown.step
        · rw [hown.committed, ← hview]
          rfl
      have hidem : (s.withBrowser b u).withBrowser b v = s.withBrowser b v := by
        simp [State.withBrowser]
      exact hrun.tail ⟨hidem ▸ hstep, .inr rfl⟩
    · rw [hown.eq, ← hview]
      simp [State.withBrowser, State.view]

omit [DecidableEq μ] [DecidableEq β] in
/-- Connecting anew is up to the browser and its session. -/
theorem run_reconnect (t : Live.State) : Relation.ReflTransGen OwnStep t t.connected := by
  have hconnected : Relation.ReflTransGen OwnStep t _ :=
    (Relation.ReflTransGen.single ⟨.close, rfl, rfl, rfl, rfl⟩).tail
      ⟨.connect rfl, rfl, rfl, rfl, rfl⟩
  have hread := (hconnected.tail ⟨.subscribe rfl rfl, rfl, rfl, rfl, rfl⟩).tail
    ⟨.readSnapshot rfl rfl (List.Perm.refl _), rfl, rfl, rfl, rfl⟩
  have hsent := hread.tail ⟨.sendSnapshot rfl rfl, rfl, rfl, rfl, rfl⟩
  exact hsent.tail ⟨.receive (S := ⟨_, [], false, [.snapshot t.db.current.rows]⟩) rfl rfl, rfl, rfl,
    rfl, rfl⟩

/-- `JSON.parse` accepts the rows of everything sent. -/
def Readable (feed : Feed μ) (s : State μ β) : Prop :=
  ∀ m e, s.delivery.place m ≠ .absent → Carries (feed.body m) e →
    parseable (.obj (currentPositionItem e.row))

/-- A snapshot of what was sent can be read. -/
theorem snapshot_parseable (h : (machine feed).Reachable s) (hreadable : Readable feed s) (b : β) :
    (Message.snapshot s.delivery.db.current.rows).parseable := by
  obtain ⟨pending, hview⟩ := reachable_view h b
  refine List.all_eq_true.mpr ?_
  intro r hr
  obtain ⟨e, he, rfl⟩ := (sourced hview).row_of_mem hr
  obtain ⟨m, hsent, hcarries⟩ := sent_of_committed h he
  exact hreadable m e hsent hcarries

/-- A browser that connects anew catches up, and the others do not notice. -/
theorem canReach_caughtUp_one {s : State μ β × List μ} (h : (ordered feed).Reachable s)
    (hreadable : Readable feed s.1) (b : β) :
    (ordered feed).CanReach s fun t =>
      t.1.delivery = s.1.delivery ∧ CaughtUp t.1 b ∧ ∀ b', CaughtUp s.1 b' → CaughtUp t.1 b' := by
  have hrun : Relation.ReflTransGen (ordered feed).step s _ :=
    (run_browser (run_reconnect (s.1.view b []))).1
  have hparseable := snapshot_parseable h.along_left hreadable b
  have hcaught : CaughtUp (s.1.withBrowser b (s.1.view b []).connected) b := by
    constructor
    case session =>
      refine ⟨⟨.streaming s.1.delivery.db.current.rows, [], false, []⟩, ?_, rfl, rfl, rfl⟩
      simp [State.withBrowser, State.connected, State.view]
    case applied =>
      simp [State.withBrowser, State.connected, State.view, Client.onMessage, hparseable]
    case parsed =>
      simp [State.withBrowser, State.connected, State.view, Client.onMessage, hparseable]
  refine ⟨_, hrun, rfl, hcaught, ?_⟩
  intro b' hb'
  by_cases hb : b' = b
  · subst hb
    exact hcaught
  · obtain ⟨hsession, happlied, hparsed⟩ := hb'
    constructor <;> simpa [State.withBrowser, Function.update_of_ne hb]

/-- Finitely many browsers can catch up one after the other. -/
theorem canReach_caughtUp {s : State μ β × List μ} (h : (ordered feed).Reachable s)
    (hreadable : Readable feed s.1) (browsers : List β) :
    (ordered feed).CanReach s fun t => (ordered feed).Reachable t ∧
      t.1.delivery = s.1.delivery ∧ ∀ b ∈ browsers, CaughtUp t.1 b := by
  have hone : ∀ b ∈ browsers, ∀ t, (ordered feed).Reachable t ∧ t.1.delivery = s.1.delivery →
      (ordered feed).CanReach t fun u =>
        ((ordered feed).Reachable u ∧ u.1.delivery = s.1.delivery) ∧
          CaughtUp u.1 b ∧ ∀ b', CaughtUp t.1 b' → CaughtUp u.1 b' := by
    rintro b - t ⟨hreach, hsame⟩
    have hreadable' : Readable feed t.1 := by rwa [Readable, hsame]
    refine ((canReach_caughtUp_one hreach hreadable' b).reachable hreach).mono ?_
    rintro u ⟨hreach', hsame', hrest⟩
    exact ⟨⟨hreach', hsame'.trans hsame⟩, hrest⟩
  have hall : (ordered feed).CanReach s fun t =>
      ((ordered feed).Reachable t ∧ t.1.delivery = s.1.delivery) ∧
        (∀ b ∈ browsers, CaughtUp t.1 b) ∧ ∀ b, CaughtUp s.1 b → CaughtUp t.1 b :=
    Machine.CanReach.all browsers hone ⟨h, rfl⟩
  refine hall.mono ?_
  rintro t ⟨⟨hreach, hsame⟩, hcaught, -⟩
  exact ⟨hreach, hsame, hcaught⟩

/-! ## Both -/

/-- While fewer than ten are stuck, everything sent that can be stored can still be consumed,
and finitely many browsers can then show of each tag the newest time that was sent. -/
theorem canReach_shown {s : State μ β × List μ} (h : (ordered feed).Reachable s)
    (hfew : (s.2.filter fun m => Queue.stuck (feed.body m)).length < 10)
    (hexact : TimesExact feed s.1) (hreadable : Readable feed s.1) (browsers : List β) :
    (ordered feed).CanReach s fun t =>
      (ordered feed).Reachable t ∧ SameSent s.1 t.1 ∧ Consumed feed t.1 ∧
        ∀ b ∈ browsers, CaughtUp t.1 b ∧
          ∀ tag u, u ∈ shownTimes t.1 b tag ↔ IsGreatest (sentTimes feed s.1 tag) u := by
  refine (canReach_consumed h hfew).bind ?_
  rintro t ⟨hreach, hsame, hconsumed⟩
  have hsent : ∀ m, t.1.delivery.place m ≠ .absent → s.1.delivery.place m ≠ .absent :=
    fun m hm habsent => hm ((hsame m).mpr habsent)
  have hreadable' : Readable feed t.1 := fun m e hm => hreadable m e (hsent m hm)
  refine (canReach_caughtUp hreach hreadable' browsers).mono ?_
  rintro u ⟨hreach', hdelivery, hcaught⟩
  have hsame' : SameSent s.1 u.1 := by rwa [SameSent, hdelivery]
  have hconsumed' : Consumed feed u.1 := by rwa [Consumed, hdelivery]
  have hexact' : TimesExact feed u.1 := by
    intro m e hm
    rw [hdelivery] at hm
    exact hexact m e (hsent m hm)
  refine ⟨hreach', hsame', hconsumed', fun b hb => ⟨hcaught b hb, fun tag v => ?_⟩⟩
  rw [← hsame'.sentTimes]
  exact shown_iff_newest hreach'.along_left hconsumed' hexact' (hcaught b hb) tag v

end RtlsStream.Deployment
