/-
  Store/Transaction.lean --- `_write_to_db` calls as interleaved transactions.

  A call takes a connection, inserts into `position_events`, upserts into
  `current_positions` and commits; it may raise at any of these points, and then
  the pool rolls its transaction back.  Several calls run at once.  What the
  model takes from PostgreSQL (read committed): a statement sees the latest
  committed rows, the upsert holds the lock on its tag's row from the statement
  to the end of the transaction, whether or not its guard let it write, and a
  commit makes both writes visible at once.

  The lock is what makes the split between deciding a write and making it visible
  harmless: the transactions simulate the store that persists whole envelopes
  one after the other (`simulates_store`), so what holds of that store holds here.
-/
import RtlsStream.Store.Tables

set_option autoImplicit false

namespace RtlsStream.Store

open RtlsStream.Foundation RtlsStream.Python

namespace Transaction

/-- How far a `_write_to_db` call has come. -/
inductive Phase where
  | waiting
  | connected
  /-- the event is inserted, but visible to this transaction only -/
  | inserted (e : EventRow)
  /-- the upsert has run: it holds the lock and will write `write` -/
  | upserted (e : EventRow) (write : Option Row)
  | committed (e : EventRow)
  | failed

/-- The calls, the committed tables and the sequence behind `position_events.id`. -/
structure State (ι : Type) where
  phase : ι → Phase
  db : Database
  nextId : Nat

variable {ι : Type} [DecidableEq ι]

/-- Move one call to another phase. -/
def State.goto (s : State ι) (i : ι) (p : Phase) : State ι :=
  { s with phase := Function.update s.phase i p }

/-- Nobody holds the lock on the `current_positions` row of a tag. -/
def State.Unlocked (s : State ι) (tag : PgText) : Prop :=
  ∀ i e w, s.phase i = .upserted e w → e.row.tagId ≠ tag

theorem goto_self (s : State ι) (i : ι) (p : Phase) : (s.goto i p).phase i = p := by
  simp [State.goto]

theorem goto_other (s : State ι) {i j : ι} (p : Phase) (h : j ≠ i) :
    (s.goto i p).phase j = s.phase j := by
  simp [State.goto, h]

variable [Runtime] [Postgres]

/-- One step of one call; `envelope i` is the argument of call `i`. -/
inductive Step (envelope : ι → Dict Json) : State ι → State ι → Prop
  /-- `pool.connection()` -/
  | connect {s : State ι} {i : ι} :
      s.phase i = .waiting → Step envelope s (s.goto i .connected)
  | connectFails {s : State ι} {i : ι} :
      s.phase i = .waiting → Step envelope s (s.goto i .failed)
  /-- `insert_position_event` -/
  | insert {s : State ι} {i : ι} {r : Row} :
      s.phase i = .connected → insertPositionEvent.rowOf (envelope i) = some r →
      Step envelope s { s.goto i (.inserted ⟨s.nextId, r⟩) with nextId := s.nextId + 1 }
  /-- the extraction or the statement raises; a sequence value may be lost -/
  | insertFails {s : State ι} {i : ι} {lost : Nat} :
      s.phase i = .connected →
      Step envelope s { s.goto i .failed with nextId := s.nextId + lost }
  /-- `upsert_current_position`, once the row lock is free -/
  | upsert {s : State ι} {i : ι} {e : EventRow} {r : Row} :
      s.phase i = .inserted e → upsertCurrentPosition.rowOf (envelope i) = some r →
      s.Unlocked r.tagId →
      Step envelope s
        (s.goto i (.upserted e (excludedWrite (s.db.current.find? r.tagId) r)))
  | upsertFails {s : State ι} {i : ι} {e : EventRow} :
      s.phase i = .inserted e → Step envelope s (s.goto i .failed)
  /-- `connection.commit()` -/
  | commit {s : State ι} {i : ι} {e : EventRow} {w : Option Row} :
      s.phase i = .upserted e w →
      Step envelope s { s.goto i (.committed e) with
        db := ⟨s.db.events ++ [e], s.db.current.apply w⟩ }
  | commitFails {s : State ι} {i : ι} {e : EventRow} {w : Option Row} :
      s.phase i = .upserted e w → Step envelope s (s.goto i .failed)

/-- Calls that have not started, over empty tables. -/
def machine (envelope : ι → Dict Json) : Machine (State ι) where
  init s := (∀ i, s.phase i = .waiting) ∧ s.db = .empty
  step := Step envelope

/-! ## What holds while transactions are open -/

/-- The event a call has inserted, if any. -/
def Phase.event : Phase → Option EventRow
  | .inserted e | .upserted e _ | .committed e => some e
  | .waiting | .connected | .failed => none

/-- The invariant of the open transactions: a call works on its own envelope, no two
calls hold one lock, and the write decided under a lock is still the one the
committed table calls for. -/
structure Sound (envelope : ι → Dict Json) (s : State ι) : Prop where
  own : ∀ i e, (s.phase i).event = some e → rowOf (envelope i) = some e.row
  exclusive : ∀ i j e e' w w', s.phase i = .upserted e w → s.phase j = .upserted e' w' →
    e.row.tagId = e'.row.tagId → i = j
  pending : ∀ i e w, s.phase i = .upserted e w →
    w = excludedWrite (s.db.current.find? e.row.tagId) e.row
  logged : ∀ e, e ∈ s.db.events ↔ ∃ i, s.phase i = .committed e

variable {envelope : ι → Dict Json} {s : State ι}

/-- A call that moves on still works on its own envelope. -/
theorem Sound.own_goto (h : Sound envelope s) {i : ι} {p : Phase}
    (hown : ∀ e, p.event = some e → rowOf (envelope i) = some e.row) :
    ∀ j e, ((s.goto i p).phase j).event = some e → rowOf (envelope j) = some e.row := by
  intro j e hj
  by_cases hji : j = i
  · subst hji
    exact hown e (by rwa [show _ = p from goto_self s j p] at hj)
  · exact h.own j e (by rwa [show _ = s.phase j from goto_other s p hji] at hj)

omit [Runtime] [Postgres] in
/-- A call that moves on without committing leaves the committed calls as they are. -/
theorem committed_goto {i : ι} {p : Phase} (hbefore : ∀ e, s.phase i ≠ .committed e)
    (hafter : ∀ e, p ≠ .committed e) (e : EventRow) :
    (∃ j, s.phase j = .committed e) ↔ ∃ j, (s.goto i p).phase j = .committed e := by
  constructor
  · rintro ⟨j, hj⟩
    have hji : j ≠ i := by
      rintro rfl
      exact hbefore e hj
    exact ⟨j, by rwa [show _ = s.phase j from goto_other s p hji]⟩
  · rintro ⟨j, hj⟩
    have hji : j ≠ i := by
      rintro rfl
      exact hafter e (by rwa [show _ = p from goto_self s j p] at hj)
    exact ⟨j, by rwa [show _ = s.phase j from goto_other s p hji] at hj⟩

/-- A call may move on without holding a lock or having committed. -/
theorem Sound.goto (h : Sound envelope s) {i : ι} {p : Phase} (nextId : Nat)
    (hown : ∀ e, p.event = some e → rowOf (envelope i) = some e.row)
    (hfree : ∀ e w, p ≠ .upserted e w)
    (hbefore : ∀ e, s.phase i ≠ .committed e) (hafter : ∀ e, p ≠ .committed e) :
    Sound envelope { s.goto i p with nextId := nextId } := by
  have hstill : ∀ j e w, (s.goto i p).phase j = .upserted e w → s.phase j = .upserted e w := by
    intro j e w hj
    by_cases hji : j = i
    · subst hji
      rw [goto_self] at hj
      exact absurd hj (hfree e w)
    · rwa [goto_other s p hji] at hj
  constructor
  case own => exact h.own_goto hown
  case exclusive =>
    intro j k e e' w w' hj hk htag
    exact h.exclusive j k e e' w w' (hstill j e w hj) (hstill k e' w' hk) htag
  case pending =>
    intro j e w hj
    exact h.pending j e w (hstill j e w hj)
  case logged => exact fun e => (h.logged e).trans (committed_goto hbefore hafter e)

/-- Taking a lock that is free keeps the locks exclusive. -/
theorem Sound.upsert (h : Sound envelope s) {i : ι} {e : EventRow} {r : Row}
    (hphase : s.phase i = .inserted e) (hrow : rowOf (envelope i) = some r)
    (hlock : s.Unlocked r.tagId) :
    Sound envelope (s.goto i (.upserted e (excludedWrite (s.db.current.find? r.tagId) r))) := by
  have hown : rowOf (envelope i) = some e.row := h.own i e (by rw [hphase]; rfl)
  obtain rfl : e.row = r := Option.some.inj (hown.symm.trans hrow)
  constructor
  case own => exact h.own_goto fun e' he' => Option.some.inj he' ▸ hown
  case exclusive =>
    intro j k e₁ e₂ w₁ w₂ hj hk htag
    by_cases hji : j = i <;> by_cases hki : k = i
    · rw [hji, hki]
    · subst hji
      rw [goto_self] at hj
      rw [goto_other s _ hki] at hk
      injection hj with he
      subst he
      exact absurd htag.symm (hlock k e₂ w₂ hk)
    · subst hki
      rw [goto_other s _ hji] at hj
      rw [goto_self] at hk
      injection hk with he
      subst he
      exact absurd htag (hlock j e₁ w₁ hj)
    · rw [goto_other s _ hji] at hj
      rw [goto_other s _ hki] at hk
      exact h.exclusive j k e₁ e₂ w₁ w₂ hj hk htag
  case pending =>
    intro j e' w hj
    by_cases hji : j = i
    · subst hji
      rw [goto_self] at hj
      injection hj with he hw
      subst he
      exact hw.symm
    · rw [goto_other s _ hji] at hj
      exact h.pending j e' w hj
  case logged =>
    exact fun e' => (h.logged e').trans (committed_goto (by simp [hphase]) (by simp) e')

omit [DecidableEq ι] in
/-- A commit writes what persisting the envelope as a whole would write. -/
theorem Sound.commit_eq_persist (h : Sound envelope s) {i : ι} {e : EventRow} {w : Option Row}
    (hphase : s.phase i = .upserted e w) :
    (⟨s.db.events ++ [e], s.db.current.apply w⟩ : Database) = s.db.persist e := by
  rw [h.pending i e w hphase]
  rfl

/-- A commit leaves the other locks and the writes decided under them as they are. -/
theorem Sound.commit (h : Sound envelope s) {i : ι} {e : EventRow} {w : Option Row}
    (hphase : s.phase i = .upserted e w) :
    Sound envelope { s.goto i (.committed e) with
      db := ⟨s.db.events ++ [e], s.db.current.apply w⟩ } := by
  have hself : (s.goto i (.committed e)).phase i = .committed e := goto_self s i _
  have hstill : ∀ j e' w', (s.goto i (.committed e)).phase j = .upserted e' w' →
      j ≠ i ∧ s.phase j = .upserted e' w' := by
    intro j e' w' hj
    by_cases hji : j = i
    · subst hji
      rw [hself] at hj
      cases hj
    · rw [goto_other s _ hji] at hj
      exact ⟨hji, hj⟩
  rw [h.commit_eq_persist hphase]
  constructor
  case own =>
    have hown : rowOf (envelope i) = some e.row := h.own i e (by rw [hphase]; rfl)
    exact h.own_goto fun e' he' => Option.some.inj he' ▸ hown
  case exclusive =>
    intro j k e₁ e₂ w₁ w₂ hj hk htag
    exact h.exclusive j k e₁ e₂ w₁ w₂ (hstill j e₁ w₁ hj).2 (hstill k e₂ w₂ hk).2 htag
  case pending =>
    intro j e' w' hj
    obtain ⟨hji, hj'⟩ := hstill j e' w' hj
    -- the lock of `j` is on another tag, whose row this commit does not touch
    have htag : e.row.tagId ≠ e'.row.tagId := fun htag =>
      hji (h.exclusive i j e e' w w' hphase hj' htag).symm
    show w' = excludedWrite ((s.db.current.upsert e.row).find? e'.row.tagId) e'.row
    rw [CurrentPositions.find?_upsert, if_neg htag]
    exact h.pending j e' w' hj'
  case logged =>
    intro e'
    show e' ∈ s.db.events ++ [e] ↔ ∃ j, (s.goto i (.committed e)).phase j = .committed e'
    rw [List.mem_append, List.mem_singleton, h.logged e']
    constructor
    · rintro (⟨j, hj⟩ | rfl)
      · have hji : j ≠ i := by
          rintro rfl
          rw [hphase] at hj
          cases hj
        exact ⟨j, by rwa [goto_other s _ hji]⟩
      · exact ⟨i, hself⟩
    · rintro ⟨j, hj⟩
      by_cases hji : j = i
      · subst hji
        rw [hself] at hj
        injection hj with he
        exact Or.inr he.symm
      · rw [goto_other s _ hji] at hj
        exact Or.inl ⟨j, hj⟩

theorem Sound.step {t : State ι} (h : Sound envelope s) (hstep : Step envelope s t) :
    Sound envelope t := by
  cases hstep with
  | connect hp | connectFails hp | insertFails hp =>
    exact h.goto _ (by simp [Phase.event]) (by simp) (by simp [hp]) (by simp)
  | upsertFails hp | commitFails hp =>
    exact h.goto _ (by simp [Phase.event]) (by simp) (by simp [hp]) (by simp)
  | insert hp hrow =>
    refine h.goto _ ?_ (by simp) (by simp [hp]) (by simp)
    intro e he
    obtain rfl := Option.some.inj he
    exact hrow
  | upsert hp hrow hlock => exact h.upsert hp hrow hlock
  | commit hp => exact h.commit hp

theorem sound (h : (machine envelope).Reachable s) : Sound envelope s := by
  refine Machine.invariant ?_ ?_ h
  · rintro s₀ ⟨hwaiting, hdb⟩
    constructor
    case own => simp [hwaiting, Phase.event]
    case exclusive => simp [hwaiting]
    case pending => simp [hwaiting]
    case logged => simp [hwaiting, hdb, Database.empty]
  · intro s₀ t _ hsound hstep
    exact hsound.step hstep

/-! ## Refinement -/

/-- The interleaved transactions simulate a store that persists whole envelopes, one
after the other in the order of the commits. -/
theorem simulates_store :
    Machine.Simulation (machine envelope) Database.store fun s db => s.db = db where
  init := by
    rintro s₀ ⟨-, hdb⟩
    exact ⟨.empty, rfl, hdb⟩
  step := by
    rintro s₀ t db hreach rfl hstep
    cases hstep with
    | @commit i e w hp =>
      exact ⟨s₀.db.persist e, .single ⟨e, rfl⟩, (sound hreach).commit_eq_persist hp⟩
    | connect | connectFails | insert | insertFails | upsert | upsertFails | commitFails =>
      exact ⟨s₀.db, .refl, rfl⟩

theorem current (h : (machine envelope).Reachable s) : s.db.Current := by
  obtain ⟨db, hdb, heq⟩ := simulates_store.reachable h
  rw [heq]
  exact Database.store_current hdb

/-- A call that runs while no other holds a lock persists its envelope. -/
theorem persist_alone (h : (machine envelope).Reachable s) {i : ι} {r : Row}
    (hwaiting : s.phase i = .waiting) (hrow : rowOf (envelope i) = some r)
    (hfree : ∀ j e w, s.phase j ≠ .upserted e w) :
    ∃ t, (machine envelope).Reachable t ∧ t.db = s.db.persist ⟨s.nextId, r⟩ ∧
      t.phase i = .committed ⟨s.nextId, r⟩ ∧ ∀ j, j ≠ i → t.phase j = s.phase j := by
  have hconnected := h.next (Step.connect hwaiting)
  have hinserted := hconnected.next (Step.insert (goto_self s i _) hrow)
  have hother : ∀ j, j ≠ i →
      ((s.goto i .connected).goto i (.inserted ⟨s.nextId, r⟩)).phase j = s.phase j := by
    intro j hj
    rw [goto_other _ _ hj, goto_other _ _ hj]
  have hupserted := hinserted.next (Step.upsert (goto_self _ i _) ((upsert_rowOf _).trans hrow) (by
    intro j e w hj
    by_cases hji : j = i
    · subst hji
      have hself : Phase.inserted ⟨s.nextId, r⟩ = .upserted e w :=
        (goto_self (s.goto j .connected) j _).symm.trans hj
      cases hself
    · exact absurd ((hother j hji).symm.trans hj) (hfree j e w)))
  have hcommitted := hupserted.next (Step.commit (goto_self _ i _))
  refine ⟨_, hcommitted, rfl, goto_self _ i _, ?_⟩
  intro j hj
  exact (goto_other _ _ hj).trans ((goto_other _ _ hj).trans (hother j hj))

/-- A tag has a row in `current_positions` exactly when it has an event; the row is
that of the envelope of one committed call, and of the events of the tag it is the
last committed one among those with the largest timestamp. -/
theorem current_positions_newest (envelope : ι → Dict Json) :
    ∀ s, (machine envelope).Reachable s → ∀ tag,
      ((s.db.current.find? tag).isSome ↔ ∃ e ∈ s.db.events, e.row.tagId = tag) ∧
      ∀ r, s.db.current.find? tag = some r →
        (∃ e ∈ s.db.events, e.row.tagId = tag ∧ e.row.ts = r.ts) ∧
        (∀ e ∈ s.db.events, e.row.tagId = tag → e.row.ts ≤ r.ts) ∧
        ∃ i e before after, s.phase i = .committed e ∧ rowOf (envelope i) = some r ∧ e.row = r ∧
          s.db.events = before ++ e :: after ∧
          (∀ e' ∈ before, e'.row.tagId = tag → e'.row.ts ≤ r.ts) ∧
          ∀ e' ∈ after, e'.row.tagId = tag → e'.row.ts < r.ts := by
  intro s hreach tag
  have hcurrent := current hreach tag
  have hsound := sound hreach
  constructor
  · rw [hcurrent, Option.isSome_iff_ne_none, Ne, newest_eq_none_iff, Database.eventsOf_eq_nil]
    push Not
    rfl
  · intro r hr
    rw [hcurrent] at hr
    obtain ⟨before, e, after, hevents, rfl, htag, hbefore, hafter⟩ :=
      Database.split_events (newest_lastOfLargest hr)
    have hmem : e ∈ s.db.events := by simp [hevents]
    obtain ⟨i, hphase⟩ := (hsound.logged e).mp hmem
    refine ⟨⟨e, hmem, htag, rfl⟩, ?_, i, e, before, after, hphase, ?_, rfl, hevents, hbefore,
      hafter⟩
    · intro e' he' htag'
      exact key_le_of_newest hr (Database.mem_eventsOf.mpr ⟨e', he', rfl, htag'⟩)
    · exact hsound.own i e (by rw [hphase]; rfl)

omit [Runtime] [Postgres] in
/-- Two calls for one tag; the one with the older event commits last. -/
theorem current_positions_newest_late_commit :
    ∃ s, (@machine Bool _ asciiRuntime ownTypes
        fun late => envelopeAt (if late then 1000 else 2000)).Reachable s ∧
      s.db.events.length = 2 ∧
      ∀ r, s.db.current.find? ⟨text "00A320", by decide +kernel⟩ = some r → 2000 ≤ r.ts := by
  let := asciiRuntime
  let := ownTypes
  obtain ⟨newer, hnewer⟩ : ∃ r, rowOf (envelopeAt 2000) = some r ∧
      r.ts = 2000 ∧ r.tagId.1 = text "00A320" :=
    ⟨(rowOf (envelopeAt 2000)).get (by decide +kernel), by simp, by decide +kernel,
      by decide +kernel⟩
  obtain ⟨older, holder⟩ : ∃ r, rowOf (envelopeAt 1000) = some r :=
    ⟨(rowOf (envelopeAt 1000)).get (by decide +kernel), by simp⟩
  let calls : Bool → Dict Json := fun late => envelopeAt (if late then 1000 else 2000)
  have h₀ : (machine calls).Reachable ⟨fun _ => .waiting, .empty, 1⟩ :=
    .start ⟨fun _ => rfl, rfl⟩
  have h₁ := (h₀.next (@Step.connect _ _ _ _ calls _ false rfl)).next
    (@Step.connect _ _ _ _ calls _ true rfl)
  have h₂ := (h₁.next (@Step.insert _ _ _ _ calls _ true older rfl holder)).next
    (@Step.insert _ _ _ _ calls _ false newer rfl hnewer.1)
  have h₃ := h₂.next (@Step.upsert _ _ _ _ calls _ false _ newer rfl
    ((upsert_rowOf _).trans hnewer.1) (by
    intro i e w hi
    cases i <;> cases hi))
  have h₄ := h₃.next (@Step.commit _ _ _ _ calls _ false _ _ rfl)
  have h₅ := h₄.next (@Step.upsert _ _ _ _ calls _ true _ older rfl
    ((upsert_rowOf _).trans holder) (by
    intro i e w hi
    cases i <;> cases hi))
  have h₆ := h₅.next (@Step.commit _ _ _ _ calls _ true _ _ rfl)
  refine ⟨_, h₆, rfl, ?_⟩
  intro r hr
  have hmax := ((current_positions_newest calls _ h₆ _).2 r hr).2.1 ⟨2, newer⟩ (by
    simp [State.goto, Database.empty])
  have hts := hmax (Subtype.ext hnewer.2.2)
  rwa [show (EventRow.row ⟨2, newer⟩).ts = 2000 from hnewer.2.1] at hts

end Transaction

end RtlsStream.Store
