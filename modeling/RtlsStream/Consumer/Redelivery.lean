/-
  Consumer/Redelivery.lean --- how often a message can be stored.

  Nothing between the broker and `position_events` knows whether a message has been
  seen before: the body carries no id, the insert has no conflict clause and the only
  key of the table is a serial number.  A delivery writes at most one row, so a
  message has at most as many rows as it was delivered, and a message delivered
  again may have more than one.

  The runs are those of `Consumer/Delivery.lean`, with handlers that are cancelled.
-/
import Mathlib.Data.Set.Card
import RtlsStream.Consumer.Delivery
import RtlsStream.History.Query

set_option autoImplicit false

namespace RtlsStream.Consumer

open RtlsStream.Foundation RtlsStream.Python RtlsStream.Store RtlsStream.History

namespace Delivery

section

variable {μ : Type} [DecidableEq μ] [Runtime] [Postgres]

/-- The steps of `Step`, and the cancellation of a handler: `process(requeue=True)` gives
the message back. -/
inductive CancelStep (body : μ → Bytes) : State μ → State μ → Prop
  | step {s t : State μ} : Step body s t → CancelStep body s t
  /-- the executor thread keeps writing, and nobody waits for it -/
  | cancelWriting {s : State μ} {m : μ} {d : Nat} : s.task d = some (m, .writing) →
      CancelStep body s (s.settle d m .ready)
  | cancel {s : State μ} {m : μ} {d : Nat} {stage : Stage} : s.task d = some (m, stage) →
      stage ≠ .writing → CancelStep body s ((s.settle d m .ready).at d m .finished)

/-- `machine`, with cancellation. -/
def cancelling (body : μ → Bytes) : Machine (State μ) where
  init := (machine body).init
  step := CancelStep body

variable {body : μ → Bytes} {s : State μ}

omit [Runtime] [Postgres] in
/-- The deliveries of a message so far. -/
def State.deliveries (s : State μ) (m : μ) : Set Nat := {d | ∃ stage, s.task d = some (m, stage)}

/-- The rows of `position_events` that were written for a message. -/
def State.rowsOf (s : State μ) (m : μ) : List (μ × EventRow) := s.log.filter (·.1 = m)

/-- The task may have written its row. -/
def Stage.Past : Stage → Prop
  | .received | .writing => False
  | _ => True

/-- Every row has a delivery of its own that wrote it. -/
structure Written (s : State μ) : Prop where
  events : s.db.events = s.log.map (·.2)
  writers : ∀ m, ∃ ds : List Nat, ds.Nodup ∧ ds.length = (s.rowsOf m).length ∧
    ∀ d ∈ ds, ∃ stage : Stage, s.task d = some (m, stage) ∧ stage.Past

omit [Runtime] [Postgres] in
@[simp] theorem settle_task (s : State μ) (d : Nat) (m : μ) (dest : Place) :
    (s.settle d m dest).task = s.task := by
  unfold State.settle
  split
  · split <;> rfl
  · rfl

omit [Runtime] [Postgres] in
@[simp] theorem settle_log (s : State μ) (d : Nat) (m : μ) (dest : Place) :
    (s.settle d m dest).log = s.log := by
  unfold State.settle
  split
  · split <;> rfl
  · rfl

omit [Runtime] [Postgres] in
@[simp] theorem settle_db (s : State μ) (d : Nat) (m : μ) (dest : Place) :
    (s.settle d m dest).db = s.db := by
  unfold State.settle
  split
  · split <;> rfl
  · rfl

omit [Runtime] [Postgres] in
/-- The writers are still known where the tables and the log are the same and no task has
gone back. -/
theorem Written.keep {t : State μ} (h : Written s) (hdb : t.db = s.db) (hlog : t.log = s.log)
    (htask : ∀ d m stage, s.task d = some (m, stage) → stage.Past →
      ∃ stage' : Stage, t.task d = some (m, stage') ∧ stage'.Past) : Written t := by
  constructor
  case events => rw [hdb, hlog, h.events]
  case writers =>
    intro m
    obtain ⟨ds, hnodup, hlength, hds⟩ := h.writers m
    refine ⟨ds, hnodup, by rw [hlength, State.rowsOf, State.rowsOf, hlog], ?_⟩
    intro d hd
    obtain ⟨stage, hstage, hpast⟩ := hds d hd
    exact htask d m stage hstage hpast

omit [Runtime] [Postgres] in
/-- A task moves on. -/
theorem Written.at (h : Written s) {d : Nat} {m : μ} {stage stage' : Stage}
    (htask : s.task d = some (m, stage)) (hpast : stage.Past → stage'.Past) :
    Written (s.at d m stage') := by
  refine h.keep rfl rfl ?_
  intro d' m' stage₀ htask' hpast'
  by_cases hd : d' = d
  · subst hd
    obtain ⟨rfl, rfl⟩ := Prod.mk.inj (Option.some.inj (htask.symm.trans htask'))
    exact ⟨stage', by simp [State.at], hpast hpast'⟩
  · exact ⟨stage₀, by simpa [State.at, hd] using htask', hpast'⟩

omit [Runtime] [Postgres] in
/-- The task of a delivery writes its row. -/
theorem Written.persist (h : Written s) {d : Nat} {m : μ} {e : EventRow} {stage : Stage}
    (htask : s.task d = some (m, .writing)) (hpast : stage.Past) :
    Written ((s.persist m e).at d m stage) := by
  have hother : ∀ d' m' stage₀, s.task d' = some (m', stage₀) → stage₀.Past →
      d' ≠ d ∧ ((s.persist m e).at d m stage).task d' = some (m', stage₀) := by
    intro d' m' stage₀ htask' hpast'
    have hd : d' ≠ d := by
      rintro rfl
      obtain ⟨-, rfl⟩ := Prod.mk.inj (Option.some.inj (htask.symm.trans htask'))
      exact hpast'
    exact ⟨hd, by simpa [State.at, State.persist, hd] using htask'⟩
  constructor
  case events => simp [State.at, State.persist, Database.persist, h.events]
  case writers =>
    intro m'
    obtain ⟨ds, hnodup, hlength, hds⟩ := h.writers m'
    by_cases hm : m = m'
    · subst hm
      refine ⟨d :: ds, ?_, ?_, ?_⟩
      · refine List.nodup_cons.mpr ⟨?_, hnodup⟩
        intro hd
        obtain ⟨stage₀, hstage, hpast'⟩ := hds d hd
        exact (hother d m stage₀ hstage hpast').1 rfl
      · simp [State.rowsOf, State.at, State.persist, hlength]
      · intro d' hd'
        rcases List.mem_cons.mp hd' with rfl | hd'
        · exact ⟨stage, by simp [State.at], hpast⟩
        · obtain ⟨stage₀, hstage, hpast'⟩ := hds d' hd'
          exact ⟨stage₀, (hother d' m stage₀ hstage hpast').2, hpast'⟩
    · refine ⟨ds, hnodup, ?_, ?_⟩
      · simp [State.rowsOf, State.at, State.persist, hlength, hm]
      · intro d' hd'
        obtain ⟨stage₀, hstage, hpast'⟩ := hds d' hd'
        exact ⟨stage₀, (hother d' m' stage₀ hstage hpast').2, hpast'⟩

omit [Runtime] [Postgres] in
theorem Written.settle (h : Written s) (d : Nat) (m : μ) (dest : Place) :
    Written (s.settle d m dest) :=
  h.keep (settle_db ..) (settle_log ..) fun _ _ stage htask hpast =>
    ⟨stage, by rwa [settle_task], hpast⟩

theorem Written.step {t : State μ} (h : Written s) (hstep : Step body s t) : Written t := by
  cases hstep with
  | publish => exact h.keep rfl rfl fun _ _ stage htask hpast => ⟨stage, htask, hpast⟩
  | @deliver m d hplace hfree =>
    refine h.keep rfl rfl ?_
    intro d' m' stage htask hpast
    have hd : d' ≠ d := by
      rintro rfl
      rw [hfree] at htask
      cases htask
    exact ⟨stage, by simpa [State.at, hd] using htask, hpast⟩
  | accept htask _ => exact h.at htask (fun hpast => hpast)
  | drop htask _ => exact h.at htask (fun _ => trivial)
  | raises htask _ => exact h.at htask (fun _ => trivial)
  | commit htask _ => exact h.persist htask trivial
  | commitUnseen htask _ => exact h.persist htask trivial
  | writeFails htask => exact h.at htask (fun _ => trivial)
  | broadcast htask => exact h.at htask (fun _ => trivial)
  | broadcastFails htask => exact h.at htask (fun _ => trivial)
  | ack htask _ => exact (h.settle ..).at (by rwa [settle_task]) (fun _ => trivial)
  | reject htask => exact (h.settle ..).at (by rwa [settle_task]) (fun _ => trivial)
  | connectionLoss => exact h.keep rfl rfl fun _ _ stage htask hpast => ⟨stage, htask, hpast⟩

theorem written (h : (cancelling body).Reachable s) : Written s := by
  refine Machine.invariant ?_ ?_ h
  · rintro s₀ ⟨-, -, hdb, hlog⟩
    constructor
    case events => simp [hdb, hlog, Database.empty]
    case writers => exact fun m => ⟨[], by simp [State.rowsOf, hlog]⟩
  · intro s₀ t _ hwritten hstep
    cases hstep with
    | step hstep => exact hwritten.step hstep
    | cancelWriting => exact hwritten.settle ..
    | cancel htask _ =>
      exact (hwritten.settle ..).at (by rwa [settle_task]) (fun _ => trivial)

/-! ## Rows, deliveries and the history -/

omit [Runtime] [Postgres] in
/-- No more rows than deliveries. -/
theorem Written.rowsOf_le (h : Written s) (m : μ) :
    ((s.rowsOf m).length : ℕ∞) ≤ (s.deliveries m).encard := by
  obtain ⟨ds, hnodup, hlength, hds⟩ := h.writers m
  have hsubset : (ds.toFinset : Set Nat) ⊆ s.deliveries m := by
    intro d hd
    obtain ⟨stage, hstage, -⟩ := hds d (by simpa using hd)
    exact ⟨stage, hstage⟩
  calc ((s.rowsOf m).length : ℕ∞) = (ds.toFinset : Set Nat).encard := by
        rw [Set.encard_coe_eq_coe_finsetCard, List.toFinset_card_of_nodup hnodup, hlength]
    _ ≤ (s.deliveries m).encard := Set.encard_le_encard hsubset

omit [Runtime] [Postgres] in
/-- Where every message has one row at most, the messages of the rows are distinct. -/
theorem nodup_of_rowsOf (h : ∀ m, (s.rowsOf m).length ≤ 1) : (s.log.map (·.1)).Nodup := by
  rw [List.nodup_iff_count_le_one]
  intro m
  have hcount : (s.log.map (·.1)).count m = (s.rowsOf m).length := by
    rw [State.rowsOf, ← List.countP_eq_length_filter, List.count, List.countP_map]
    refine List.countP_congr ?_
    intro p _
    simp
  rw [hcount]
  exact h m

/-- The rows a history request is about, with their messages. -/
def State.selected (s : State μ) (f : Filter) : List (μ × EventRow) :=
  s.log.filter fun p => f.selects p.2.row

omit [DecidableEq μ] [Runtime] [Postgres] in
theorem matching_eq_selected (h : s.db.events = s.log.map (·.2)) (f : Filter) :
    matching f s.db = (s.selected f).map (·.2) := by
  rw [matching, h, List.filter_map, State.selected]
  rfl

/-- A message has a row of its own for each of its deliveries at most; the count counts
these rows and a page is some of them.  Where nothing was delivered twice, no message
is counted twice. -/
theorem history_once_per_delivery (body : μ → Bytes) :
    ∀ s, (cancelling body).Reachable s →
      (∀ m, ((s.rowsOf m).length : ℕ∞) ≤ (s.deliveries m).encard) ∧
      (∀ f, countPositionHistory f s.db = (s.selected f).length ∧
        ∀ order limit offset,
          (getPositionHistory order f s.db limit offset).Subperm ((s.selected f).map (·.2))) ∧
      ((∀ m, (s.deliveries m).encard ≤ 1) → ∀ f, ((s.selected f).map (·.1)).Nodup) := by
  intro s hreach
  have hwritten := written hreach
  refine ⟨hwritten.rowsOf_le, ?_, ?_⟩
  · intro f
    have hmatching := matching_eq_selected hwritten.events f
    refine ⟨by rw [countPositionHistory, hmatching, List.length_map], ?_⟩
    intro order limit offset
    rw [← hmatching]
    exact (((List.take_sublist _ _).trans (List.drop_sublist _ _)).subperm).trans
      (order.listing_perm _).subperm
  · intro honce f
    refine List.Nodup.sublist ((List.filter_sublist ..).map _) (nodup_of_rowsOf ?_)
    intro m
    exact_mod_cast (hwritten.rowsOf_le m).trans (honce m)

end

section Examples

attribute [local instance] asciiRuntime ownTypes

/-- A handler is cancelled while its row is being written; the message is delivered again
and written again. -/
theorem redelivered_row :
    ∃ r s, rowOfBody sampleBody = some r ∧
      (cancelling fun _ : Unit => sampleBody).Reachable s ∧
      s.log = [((), ⟨1, r⟩), ((), ⟨2, r⟩)] := by
  obtain ⟨r, hr⟩ : ∃ r, rowOfBody sampleBody = some r :=
    Option.isSome_iff_exists.mp (by decide +kernel)
  have haccepted := accepted_of_rowOfBody hr
  let body : Unit → Bytes := fun _ => sampleBody
  let s₀ : State Unit := ⟨fun _ => .absent, fun _ => none, .empty, []⟩
  have h₀ : (cancelling body).Reachable s₀ := .start ⟨fun _ => rfl, fun _ => rfl, rfl, rfl⟩
  have h₁ := h₀.next (.step (@Step.publish _ _ _ _ body _ () rfl))
  have h₂ := h₁.next (.step (@Step.deliver _ _ _ _ body _ () 0 rfl rfl))
  have h₃ := h₂.next (.step (@Step.accept _ _ _ _ body _ () 0 rfl haccepted))
  have h₄ := h₃.next (@CancelStep.cancelWriting _ _ _ _ body _ () 0 rfl)
  have h₅ := h₄.next (.step (@Step.deliver _ _ _ _ body _ () 1 rfl rfl))
  have h₆ := h₅.next (.step (@Step.accept _ _ _ _ body _ () 1 rfl haccepted))
  have h₇ := h₆.next (.step (@Step.commitUnseen _ _ _ _ body _ () 0 1 r rfl hr))
  have h₈ := h₇.next (.step (@Step.commit _ _ _ _ body _ () 1 2 r rfl hr))
  exact ⟨r, _, hr, h₈, rfl⟩

def sampleFilter : Filter := ⟨sampleTag, none, none⟩

theorem selects_sample {r : Row} (h : rowOfBody sampleBody = some r) : sampleFilter.selects r := by
  have htag : (rowOfBody sampleBody).map (sampleFilter.selects ·) = some true := by decide +kernel
  rw [h] at htag
  exact Option.some.inj htag

/-- One message, two rows: the history counts it twice and returns it twice. -/
theorem history_twice :
    ∃ s, (cancelling fun _ : Unit => sampleBody).Reachable s ∧ (s.rowsOf ()).length = 2 ∧
      countPositionHistory sampleFilter s.db = 2 ∧
      (getPositionHistory newestFirst sampleFilter s.db 1000 0).length = 2 := by
  obtain ⟨r, s, hrow, hreach, hlog⟩ := redelivered_row
  have hmatching : matching sampleFilter s.db = [⟨1, r⟩, ⟨2, r⟩] := by
    simp [matching_eq_selected (written hreach).events, State.selected, hlog, selects_sample hrow]
  refine ⟨s, hreach, ?_, ?_, ?_⟩
  · simp [State.rowsOf, hlog]
  · simp [countPositionHistory, hmatching]
  · rw [getPositionHistory, ListingOrder.window, List.length_take, List.length_drop,
      (newestFirst.listing_perm _).length_eq, hmatching]
    rfl

/-- The two rows of a message that was redelivered. -/
theorem history_once_per_delivery_twice :
    ∃ s, (cancelling fun _ : Unit => sampleBody).Reachable s ∧ 2 ≤ (s.deliveries ()).encard ∧
      countPositionHistory sampleFilter s.db = 2 ∧
      (getPositionHistory newestFirst sampleFilter s.db 1000 0).length ≤ 2 := by
  obtain ⟨r, s, hrow, hreach, hlog⟩ := redelivered_row
  have hselects := selects_sample hrow
  obtain ⟨hrows, hhistory, -⟩ := history_once_per_delivery _ s hreach
  obtain ⟨hcount, hpage⟩ := hhistory sampleFilter
  have hselected : s.selected sampleFilter = [((), ⟨1, r⟩), ((), ⟨2, r⟩)] := by
    simp [State.selected, hlog, hselects]
  refine ⟨s, hreach, ?_, ?_, ?_⟩
  · simpa [State.rowsOf, hlog] using hrows ()
  · rw [hcount, hselected]
    rfl
  · simpa [hselected] using (hpage newestFirst 1000 0).length_le

end Examples

end Delivery

end RtlsStream.Consumer
