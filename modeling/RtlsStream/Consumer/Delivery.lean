/-
  Consumer/Delivery.lean --- broker, consumer tasks and tables, with redelivery.

  The broker has each message in one place: not published yet, ready, unacked under
  a delivery, or gone.  A delivery starts a task that runs `_on_message`; any number
  of tasks runs at once.  When the connection is lost every unacked message is
  ready again, while the tasks of the old deliveries keep running: their database
  writes may still commit, their acks and rejects have no effect any more.

  What the model takes from `aio_pika`: `process(requeue=True)` acks on a normal exit
  and rejects with requeue on an exception.  A write is one step here, by
  `Store.Transaction.simulates_store`.
-/
import RtlsStream.Consumer.OnMessage
import RtlsStream.Store.Tables

set_option autoImplicit false

namespace RtlsStream.Consumer

open RtlsStream.Foundation RtlsStream.Python RtlsStream.Store

namespace Delivery

/-- Where the broker has a message. -/
inductive Place where
  | absent
  | ready
  | unacked (delivery : Nat)
  | gone

/-- How far the task of a delivery has come. -/
inductive Stage where
  | received
  /-- `_write_to_db` runs in the executor -/
  | writing
  | committed
  | broadcast
  /-- the handler returned without a write -/
  | dropped
  /-- the handler raised -/
  | failed
  /-- the ack or reject was sent -/
  | finished

/-- The broker, the tasks and the tables.  `log` says for which message each row of
`position_events` was written. -/
structure State (μ : Type) where
  place : μ → Place
  task : Nat → Option (μ × Stage)
  db : Database
  log : List (μ × EventRow)

variable {μ : Type}

/-- Put a task at a stage. -/
def State.at (s : State μ) (d : Nat) (m : μ) (stage : Stage) : State μ :=
  { s with task := Function.update s.task d (some (m, stage)) }

variable [DecidableEq μ]

/-- Move a message, if the broker still has it under this delivery. -/
def State.settle (s : State μ) (d : Nat) (m : μ) (dest : Place) : State μ :=
  match s.place m with
  | .unacked d' => if d' = d then { s with place := Function.update s.place m dest } else s
  | _ => s

/-- Every unacked message is ready again. -/
def State.disconnect (s : State μ) : State μ :=
  { s with place := fun m =>
      match s.place m with
      | .unacked _ => .ready
      | place => place }

/-- A row for `m` is committed. -/
def State.persist (s : State μ) (m : μ) (e : EventRow) : State μ :=
  { s with db := s.db.persist e, log := s.log ++ [(m, e)] }

theorem update_known {place : μ → Place} {m m' : μ} {dest : Place} (hdest : dest ≠ .absent)
    (h : place m' ≠ .absent) : Function.update place m dest m' ≠ .absent := by
  by_cases hm : m' = m
  · subst hm
    rwa [Function.update_self]
  · rwa [Function.update_of_ne hm]

theorem gone_of_update {place : μ → Place} {m m' : μ} {dest : Place} (hdest : dest ≠ .gone)
    (h : Function.update place m dest m' = .gone) : place m' = .gone := by
  by_cases hm : m' = m
  · subst hm
    rw [Function.update_self] at h
    exact absurd h hdest
  · rwa [Function.update_of_ne hm] at h

variable [Runtime] [Postgres]

/-- The body is a JSON object with an object payload that contains `tag_id`. -/
def Accepted (body : Bytes) : Prop := ∃ envelope payload, examine body = .accepted envelope payload

/-- The row a body is stored as. -/
def rowOfBody (body : Bytes) : Option Row :=
  match examine body with
  | .accepted envelope _ => rowOf envelope
  | _ => none

/-- One step of the broker or of one task; `body m` is the body of message `m`. -/
inductive Step (body : μ → Bytes) : State μ → State μ → Prop
  | publish {s : State μ} {m : μ} : s.place m = .absent →
      Step body s { s with place := Function.update s.place m .ready }
  | deliver {s : State μ} {m : μ} {d : Nat} : s.place m = .ready → s.task d = none →
      Step body s
        { s.at d m .received with place := Function.update s.place m (.unacked d) }
  /-- the checks of `_on_message` let the body through -/
  | accept {s : State μ} {m : μ} {d : Nat} : s.task d = some (m, .received) →
      Accepted (body m) → Step body s (s.at d m .writing)
  | drop {s : State μ} {m : μ} {d : Nat} : s.task d = some (m, .received) →
      ¬ Accepted (body m) → Step body s (s.at d m .dropped)
  | raises {s : State μ} {m : μ} {d : Nat} : s.task d = some (m, .received) →
      ¬ Accepted (body m) → Step body s (s.at d m .failed)
  /-- the write commits and returns -/
  | commit {s : State μ} {m : μ} {d id : Nat} {r : Row} : s.task d = some (m, .writing) →
      rowOfBody (body m) = some r →
      Step body s ((s.persist m ⟨id, r⟩).at d m .committed)
  /-- the write commits but its success is not reported -/
  | commitUnseen {s : State μ} {m : μ} {d id : Nat} {r : Row} : s.task d = some (m, .writing) →
      rowOfBody (body m) = some r →
      Step body s ((s.persist m ⟨id, r⟩).at d m .failed)
  /-- the extraction, a statement or the commit raises -/
  | writeFails {s : State μ} {m : μ} {d : Nat} : s.task d = some (m, .writing) →
      Step body s (s.at d m .failed)
  | broadcast {s : State μ} {m : μ} {d : Nat} : s.task d = some (m, .committed) →
      Step body s (s.at d m .broadcast)
  | broadcastFails {s : State μ} {m : μ} {d : Nat} : s.task d = some (m, .committed) →
      Step body s (s.at d m .failed)
  | ack {s : State μ} {m : μ} {d : Nat} {stage : Stage} : s.task d = some (m, stage) →
      stage = .broadcast ∨ stage = .dropped →
      Step body s ((s.settle d m .gone).at d m .finished)
  | reject {s : State μ} {m : μ} {d : Nat} : s.task d = some (m, .failed) →
      Step body s ((s.settle d m .ready).at d m .finished)
  | connectionLoss {s : State μ} : Step body s s.disconnect

/-- Before anything is published, over empty tables. -/
def machine (body : μ → Bytes) : Machine (State μ) where
  init s := (∀ m, s.place m = .absent) ∧ (∀ d, s.task d = none) ∧ s.db = .empty ∧ s.log = []
  step := Step body

variable {body : μ → Bytes} {s : State μ}

/-! ## The invariant -/

/-- A row of `position_events` was committed for the message. -/
def State.Committed (s : State μ) (m : μ) : Prop := ∃ e, (m, e) ∈ s.log

/-- What a stage says about the message. -/
def State.Justifies (body : μ → Bytes) (s : State μ) (m : μ) : Stage → Prop
  | .writing => Accepted (body m)
  | .committed | .broadcast => s.Committed m
  | .dropped => ¬ Accepted (body m)
  | .received | .failed | .finished => True

/-- What holds in every reachable state. -/
structure Safe (body : μ → Bytes) (s : State μ) : Prop where
  tasks : ∀ d m stage, s.task d = some (m, stage) →
    s.place m ≠ .absent ∧ s.Justifies body m stage
  left : ∀ m, s.place m = .gone → Accepted (body m) → s.Committed m
  logged : ∀ m e, (m, e) ∈ s.log →
    s.place m ≠ .absent ∧ Accepted (body m) ∧ rowOfBody (body m) = some e.row
  events : s.db.events = s.log.map (·.2)
  current : s.db.Current

omit [DecidableEq μ] in
/-- A task moves to a stage that what is committed justifies. -/
theorem Safe.at (h : Safe body s) {d : Nat} {m : μ} {stage : Stage}
    (hplace : s.place m ≠ .absent) (hstage : s.Justifies body m stage) :
    Safe body (s.at d m stage) := by
  refine ⟨?_, h.left, h.logged, h.events, h.current⟩
  intro d' m' stage' htask
  by_cases hd : d' = d
  · subst hd
    simp only [State.at, Function.update_self, Option.some.injEq, Prod.mk.injEq] at htask
    obtain ⟨rfl, rfl⟩ := htask
    cases stage <;> exact ⟨hplace, hstage⟩
  · simp only [State.at, Function.update_of_ne hd] at htask
    obtain ⟨hplace', hjustified⟩ := h.tasks d' m' stage' htask
    cases stage' <;> exact ⟨hplace', hjustified⟩

omit [DecidableEq μ] in
/-- The broker moves a message that may go where it goes. -/
theorem Safe.move (h : Safe body s) {place : μ → Place}
    (hknown : ∀ m, s.place m ≠ .absent → place m ≠ .absent)
    (hleft : ∀ m, place m = .gone → s.place m = .gone ∨ (Accepted (body m) → s.Committed m)) :
    Safe body { s with place := place } := by
  refine ⟨?_, ?_, ?_, h.events, h.current⟩
  · intro d m stage htask
    obtain ⟨hplace, hjustified⟩ := h.tasks d m stage htask
    cases stage <;> exact ⟨hknown m hplace, hjustified⟩
  · intro m hgone haccepted
    rcases hleft m hgone with hbefore | hcommitted
    · exact h.left m hbefore haccepted
    · exact hcommitted haccepted
  · intro m e hmem
    obtain ⟨hplace, hrest⟩ := h.logged m e hmem
    exact ⟨hknown m hplace, hrest⟩

theorem Safe.settle (h : Safe body s) {d : Nat} {m : μ} {dest : Place} (hdest : dest ≠ .absent)
    (hleft : dest = .gone → Accepted (body m) → s.Committed m) : Safe body (s.settle d m dest) := by
  unfold State.settle
  split
  · split
    · refine h.move (fun _ => update_known hdest) ?_
      · intro m' hgone
        by_cases hm : m' = m
        · subst hm
          rw [Function.update_self] at hgone
          exact Or.inr (hleft hgone)
        · rw [Function.update_of_ne hm] at hgone
          exact Or.inl hgone
    · exact h
  · exact h

omit [Runtime] [Postgres] in
/-- Settling moves a message from one place in the broker to another. -/
theorem settle_known {d : Nat} {m m' : μ} {dest : Place} (hdest : dest ≠ .absent)
    (h : s.place m' ≠ .absent) : (s.settle d m dest).place m' ≠ .absent := by
  unfold State.settle
  split
  · split
    · exact update_known hdest h
    · exact h
  · exact h

omit [DecidableEq μ] in
/-- A commit adds a row for the message to both tables. -/
theorem Safe.persist (h : Safe body s) {m : μ} {id : Nat} {r : Row}
    (hplace : s.place m ≠ .absent) (haccepted : Accepted (body m))
    (hrow : rowOfBody (body m) = some r) : Safe body (s.persist m ⟨id, r⟩) := by
  have hmore : ∀ m', s.Committed m' → (s.persist m ⟨id, r⟩).Committed m' := by
    rintro m' ⟨e, he⟩
    exact ⟨e, List.mem_append_left _ he⟩
  constructor
  case tasks =>
    intro d m' stage htask
    obtain ⟨hplace', hjustified⟩ := h.tasks d m' stage htask
    refine ⟨hplace', ?_⟩
    cases stage with
    | committed | broadcast => exact hmore m' hjustified
    | _ => exact hjustified
  case left =>
    intro m' hgone haccepted'
    exact hmore m' (h.left m' hgone haccepted')
  case logged =>
    intro m' e hmem
    rcases List.mem_append.mp hmem with hmem | hmem
    · exact h.logged m' e hmem
    · obtain ⟨rfl, rfl⟩ := Prod.mk.inj (List.mem_singleton.mp hmem)
      exact ⟨hplace, haccepted, hrow⟩
  case events => simp [State.persist, Database.persist, h.events]
  case current => exact h.current.persist _

theorem Safe.step {t : State μ} (h : Safe body s) (hstep : Step body s t) : Safe body t := by
  cases hstep with
  | @publish m hplace =>
    exact h.move (fun _ => update_known (by simp))
      fun _ hgone => Or.inl (gone_of_update (by simp) hgone)
  | @deliver m d hplace hfree =>
    have hat : Safe body (s.at d m .received) := h.at (by rw [hplace]; simp) trivial
    exact hat.move (fun _ => update_known (by simp))
      fun _ hgone => Or.inl (gone_of_update (by simp) hgone)
  | accept htask haccepted => exact h.at (h.tasks _ _ _ htask).1 haccepted
  | drop htask hrefused => exact h.at (h.tasks _ _ _ htask).1 hrefused
  | raises htask _ => exact h.at (h.tasks _ _ _ htask).1 trivial
  | @commit m d id r htask hrow =>
    obtain ⟨hplace, haccepted⟩ := h.tasks _ _ _ htask
    refine (h.persist hplace haccepted hrow).at hplace ?_
    exact ⟨⟨id, r⟩, by simp [State.persist]⟩
  | commitUnseen htask hrow =>
    obtain ⟨hplace, haccepted⟩ := h.tasks _ _ _ htask
    exact (h.persist hplace haccepted hrow).at hplace trivial
  | writeFails htask => exact h.at (h.tasks _ _ _ htask).1 trivial
  | broadcast htask => exact h.at (h.tasks _ _ _ htask).1 (h.tasks _ _ _ htask).2
  | broadcastFails htask => exact h.at (h.tasks _ _ _ htask).1 trivial
  | ack htask hstage =>
    obtain ⟨hplace, hjustified⟩ := h.tasks _ _ _ htask
    refine (h.settle (by simp) ?_).at (settle_known (by simp) hplace) trivial
    intro _ haccepted
    rcases hstage with rfl | rfl
    · exact hjustified
    · exact absurd haccepted hjustified
  | reject htask =>
    obtain ⟨hplace, -⟩ := h.tasks _ _ _ htask
    exact (h.settle (by simp) (by simp)).at (settle_known (by simp) hplace) trivial
  | connectionLoss =>
    refine h.move ?_ ?_
    · intro m hknown
      cases hplace : s.place m with
      | absent => exact absurd hplace hknown
      | ready | unacked _ | gone => simp
    · intro m hgone
      cases hplace : s.place m <;> simp_all

theorem safe (h : (machine body).Reachable s) : Safe body s := by
  refine Machine.invariant ?_ ?_ h
  · rintro s₀ ⟨hplace, htask, hdb, hlog⟩
    constructor
    case tasks => simp [htask]
    case left => simp [hplace]
    case logged => simp [hlog]
    case events => simp [hdb, hlog, Database.empty]
    case current =>
      rw [hdb]
      exact Database.current_empty
  · intro s₀ t _ hsafe hstep
    exact hsafe.step hstep

/-! ## Nothing is lost, and redelivery is harmless -/

/-- The tables after persisting each message of a list once, in that order. -/
def persistEach (body : μ → Bytes) (messages : List μ) : Database :=
  Database.empty.persistAll ((messages.filterMap fun m => rowOfBody (body m)).map (⟨0, ·⟩))

omit [DecidableEq μ] in
theorem mem_persistEach {messages : List μ} {tag : PgText} {r : Row} :
    r ∈ (persistEach body messages).eventsOf tag ↔
      (∃ m ∈ messages, rowOfBody (body m) = some r) ∧ r.tagId = tag := by
  unfold persistEach Database.eventsOf
  simp [Database.empty, List.mem_filter]

/-- The body of a message as the receiver publishes them, cut down to what a row needs. -/
def sampleBody : Bytes :=
  (text "\x7b\"schema_version\":\"1.0\",\"event_type\":\"position\",\"origin\":\"ls-1000\",\"normalized\":true,\"ingested_at_ms\":1,\"payload\":\x7b\"tag_id\":\"00A320\",\"ts_utc_ms\":1000\x7d\x7d").map
    UInt8.ofNat

def sampleTag : PgText := ⟨text "00A320", isPgText_sampleTag⟩

/-- A message with a tagged payload leaves the broker only after a row for it is
committed; and once each of the published ones is, with no timestamp shared by two of
one tag, the live table is what persisting each once leaves, in whatever order. -/
theorem no_loss_and_harmless_redelivery (body : μ → Bytes) :
    ∀ s, (machine body).Reachable s →
      (∀ m, s.place m = .gone → Accepted (body m) →
        ∃ e ∈ s.db.events, (m, e) ∈ s.log ∧ rowOfBody (body m) = some e.row) ∧
      ((∀ m, s.place m ≠ .absent → Accepted (body m) → ∃ e ∈ s.db.events, (m, e) ∈ s.log) →
        (∀ m m' r r', rowOfBody (body m) = some r → rowOfBody (body m') = some r' →
          s.place m ≠ .absent → s.place m' ≠ .absent →
          r.tagId = r'.tagId → r.ts = r'.ts → m = m') →
        ∀ order : List μ, order.Nodup →
          (∀ m, m ∈ order ↔ s.place m ≠ .absent ∧ Accepted (body m)) →
          ∀ tag, s.db.current.find? tag = (persistEach body order).current.find? tag) := by
  intro s hreach
  have hsafe := safe hreach
  have hevent : ∀ {m e}, (m, e) ∈ s.log → e ∈ s.db.events := by
    intro m e hmem
    rw [hsafe.events]
    exact List.mem_map.mpr ⟨(m, e), hmem, rfl⟩
  constructor
  · intro m hgone haccepted
    obtain ⟨e, hmem⟩ := hsafe.left m hgone haccepted
    exact ⟨e, hevent hmem, hmem, (hsafe.logged m e hmem).2.2⟩
  · intro hall hdistinct order _ horder tag
    have honce : (persistEach body order).Current := Database.current_empty.persistAll _
    rw [hsafe.current tag, honce tag]
    -- the rows of the tag, as the log and as the list have them
    have hrow : ∀ r, r ∈ s.db.eventsOf tag ↔
        (∃ m, s.place m ≠ .absent ∧ Accepted (body m) ∧ rowOfBody (body m) = some r) ∧
          r.tagId = tag := by
      intro r
      rw [Database.mem_eventsOf]
      constructor
      · rintro ⟨e, he, rfl, htag⟩
        rw [hsafe.events] at he
        obtain ⟨⟨m, e'⟩, hmem, rfl⟩ := List.mem_map.mp he
        exact ⟨⟨m, hsafe.logged m e' hmem⟩, htag⟩
      · rintro ⟨⟨m, hplace, haccepted, hr⟩, htag⟩
        obtain ⟨e, he, hmem⟩ := hall m hplace haccepted
        have heq : some e.row = some r := by
          rw [← hr, (hsafe.logged m e hmem).2.2]
        exact ⟨e, he, Option.some.inj heq, htag⟩
    refine newest_congr ?_ ?_
    · intro r
      rw [hrow, mem_persistEach]
      refine and_congr_left fun _ => ?_
      constructor
      · rintro ⟨m, hplace, haccepted, hr⟩
        exact ⟨m, (horder m).mpr ⟨hplace, haccepted⟩, hr⟩
      · rintro ⟨m, hm, hr⟩
        obtain ⟨hplace, haccepted⟩ := (horder m).mp hm
        exact ⟨m, hplace, haccepted, hr⟩
    · intro r hr r' hr' hts
      obtain ⟨⟨m, hplace, _, hm⟩, htag⟩ := (hrow r).mp hr
      obtain ⟨⟨m', hplace', _, hm'⟩, htag'⟩ := (hrow r').mp hr'
      obtain rfl := hdistinct m m' r r' hm hm' hplace hplace' (htag.trans htag'.symm) hts
      exact Option.some.inj (hm.symm.trans hm')

theorem accepted_of_rowOfBody {b : Bytes} {r : Row} (h : rowOfBody b = some r) : Accepted b := by
  unfold rowOfBody at h
  split at h
  · rename_i envelope payload hexamine
    exact ⟨envelope, payload, hexamine⟩
  · cases h

omit [Runtime] [Postgres] in
/-- A message is committed, requeued by a connection loss, delivered and committed
again, and only then acked. -/
theorem redelivered_once :
    ∃ s, (@machine Unit _ asciiRuntime ownTypes fun _ => sampleBody).Reachable s ∧
      s.db.events.length = 2 ∧ s.place () = .gone ∧
      s.db.current.find? sampleTag =
        (@persistEach Unit asciiRuntime ownTypes (fun _ => sampleBody) [()]).current.find?
          sampleTag := by
  let := asciiRuntime
  let := ownTypes
  obtain ⟨r, hr⟩ : ∃ r, rowOfBody sampleBody = some r :=
    Option.isSome_iff_exists.mp (by decide +kernel)
  have haccepted := accepted_of_rowOfBody hr
  let body : Unit → Bytes := fun _ => sampleBody
  let s₀ : State Unit := ⟨fun _ => .absent, fun _ => none, .empty, []⟩
  have h₀ : (machine body).Reachable s₀ := .start ⟨fun _ => rfl, fun _ => rfl, rfl, rfl⟩
  have h₁ := h₀.next (@Step.publish _ _ _ _ body _ () rfl)
  have h₂ := h₁.next (@Step.deliver _ _ _ _ body _ () 0 rfl rfl)
  have h₃ := h₂.next (@Step.accept _ _ _ _ body _ () 0 rfl haccepted)
  have h₄ := h₃.next (@Step.commit _ _ _ _ body _ () 0 1 r rfl hr)
  have h₅ := h₄.next (@Step.connectionLoss _ _ _ _ body _)
  have h₆ := h₅.next (@Step.deliver _ _ _ _ body _ () 1 rfl rfl)
  have h₇ := h₆.next (@Step.accept _ _ _ _ body _ () 1 rfl haccepted)
  have h₈ := h₇.next (@Step.commit _ _ _ _ body _ () 1 2 r rfl hr)
  have h₉ := h₈.next (@Step.broadcast _ _ _ _ body _ () 1 rfl)
  have h₁₀ := h₉.next (@Step.ack _ _ _ _ body _ () 1 .broadcast rfl (Or.inl rfl))
  refine ⟨_, h₁₀, rfl, rfl, ?_⟩
  refine (no_loss_and_harmless_redelivery body _ h₁₀).2 ?_ ?_ [()] (by simp) ?_ sampleTag
  · intro m _ _
    exact ⟨⟨1, r⟩, List.mem_cons_self, List.mem_cons_self⟩
  · intro m m' _ _ _ _ _ _ _ _
    rfl
  · intro m
    refine ⟨fun _ => ⟨?_, haccepted⟩, fun _ => by simp⟩
    intro habsent
    cases habsent

end Delivery

end RtlsStream.Consumer
