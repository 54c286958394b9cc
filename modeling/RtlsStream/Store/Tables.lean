/-
  Store/Tables.lean --- the two tables and the statements that write them.

  `position_events` is an append-only log; its list order is the order in which
  the rows were committed, which no query can see.  `current_positions` has at
  most one row for each `tag_id`: the primary key is a field of the structure.
  `upsert_current_position.sql` is split at the point where PostgreSQL splits it:
  `excludedWrite` is what the statement decides under the row lock, `install` is
  what the commit makes visible.

  Seen from one tag the table is a register that keeps the newest row
  (`find?_upsert`), so `Foundation.newest` says what a run leaves in it.
-/
import RtlsStream.Store.Params
import RtlsStream.Foundation.Machine
import RtlsStream.Foundation.Newest
import RtlsStream.Foundation.Table

set_option autoImplicit false

namespace RtlsStream.Store

open RtlsStream.Foundation RtlsStream.Python

/-- The value the recency guard compares. -/
def Row.ts (r : Row) : Int := r.tsUtcMs.1

theorem isPgText_sampleTag : IsPgText (text "00A320") := by decide +kernel

/-- A row of one tag that carries nothing but its time. -/
def rowAt (tsUtcMs : Bigint) : Row where
  schemaVersion := ⟨text "1.0", by decide +kernel⟩
  eventType := ⟨text "position", by decide +kernel⟩
  origin := ⟨text "ls-1000", by decide +kernel⟩
  normalized := true
  ingestedAtMs := tsUtcMs
  tagId := ⟨text "00A320", isPgText_sampleTag⟩
  tsUtcMs := tsUtcMs
  sourceType := ⟨text "status1", by decide +kernel⟩
  status := none
  layer := none
  area := none
  x := none
  y := none
  z := none
  lng := none
  lat := none
  rawMessage := ⟨[], by decide +kernel⟩
  parseWarnings := text "[]"

/-! ## `current_positions` -/

/-- `current_positions`, with its primary key `tag_id`. -/
abbrev CurrentPositions := Table Row.tagId

/-- `DO UPDATE SET`: the assignments of the statement, `EXCLUDED` being the row that was
to be inserted.  `tag_id` is not among them. -/
def doUpdateSet (current excluded : Row) : Row where
  schemaVersion := excluded.schemaVersion
  eventType := excluded.eventType
  origin := excluded.origin
  normalized := excluded.normalized
  ingestedAtMs := excluded.ingestedAtMs
  tagId := current.tagId
  tsUtcMs := excluded.tsUtcMs
  sourceType := excluded.sourceType
  status := excluded.status
  layer := excluded.layer
  area := excluded.area
  x := excluded.x
  y := excluded.y
  z := excluded.z
  lng := excluded.lng
  lat := excluded.lat
  rawMessage := excluded.rawMessage
  parseWarnings := excluded.parseWarnings

/-- The hand-written list of assignments misses no column: on a conflict the row
becomes the excluded one. -/
theorem doUpdateSet_eq {current excluded : Row} (h : current.tagId = excluded.tagId) :
    doUpdateSet current excluded = excluded := by
  cases excluded
  simp only [doUpdateSet, h]

/-- What the upsert writes, given the committed row of its tag; `none` where the guard
`EXCLUDED.ts_utc_ms >= current_positions.ts_utc_ms` stops it. -/
def excludedWrite (committed : Option Row) (r : Row) : Option Row :=
  match committed with
  | none => some r
  | some current =>
    if r.tsUtcMs.1 ≥ current.tsUtcMs.1 then some (doUpdateSet current r) else none

namespace CurrentPositions

/-- Make what an upsert decided to write visible, if it writes anything. -/
def apply (t : CurrentPositions) : Option Row → CurrentPositions
  | some w => t.put w
  | none => t

/-- `upsert_current_position.sql` as one indivisible step. -/
def upsert (t : CurrentPositions) (r : Row) : CurrentPositions :=
  t.apply (excludedWrite (t.find? r.tagId) r)

/-- The upsert of a tag is a write to its register, and touches no other tag. -/
theorem find?_upsert (t : CurrentPositions) (r : Row) (tag : PgText) :
    (t.upsert r).find? tag =
      if r.tagId = tag then keepNewest Row.ts (t.find? tag) r else t.find? tag := by
  by_cases htag : r.tagId = tag
  · subst htag
    rw [if_pos rfl, upsert]
    cases hheld : t.find? r.tagId with
    | none => simp [excludedWrite, apply, Table.find?_put, keepNewest]
    | some current =>
      have heq := doUpdateSet_eq (Table.key_of_find? hheld)
      by_cases hguard : current.tsUtcMs.1 ≤ r.tsUtcMs.1
      · simp [excludedWrite, hguard, apply, Table.find?_put, heq, keepNewest, Row.ts]
      · simp [excludedWrite, hguard, apply, hheld, keepNewest, Row.ts]
  · rw [if_neg htag, upsert]
    cases hheld : t.find? r.tagId with
    | none => simp [excludedWrite, apply, Table.find?_put, htag]
    | some current =>
      have heq := doUpdateSet_eq (Table.key_of_find? hheld)
      by_cases hguard : current.tsUtcMs.1 ≤ r.tsUtcMs.1
      · simp [excludedWrite, hguard, apply, Table.find?_put, heq, htag]
      · simp [excludedWrite, hguard, apply]

end CurrentPositions

/-! ## The database -/

/-- A row of `position_events` with its `BIGSERIAL` id. -/
structure EventRow where
  id : Nat
  row : Row
  deriving DecidableEq

/-- The committed contents of both tables. -/
structure Database where
  events : List EventRow
  current : CurrentPositions

namespace Database

/-- The tables as the migration creates them. -/
def empty : Database := ⟨[], .empty⟩

/-- `persist_envelope` as one indivisible step. -/
def persist (db : Database) (e : EventRow) : Database :=
  ⟨db.events ++ [e], db.current.upsert e.row⟩

/-- The events of a tag, in commit order. -/
def eventsOf (db : Database) (tag : PgText) : List Row :=
  (db.events.map (·.row)).filter (·.tagId = tag)

theorem mem_eventsOf {db : Database} {tag : PgText} {r : Row} :
    r ∈ db.eventsOf tag ↔ ∃ e ∈ db.events, e.row = r ∧ r.tagId = tag := by
  simp only [eventsOf, List.mem_filter, List.mem_map, decide_eq_true_eq]
  constructor
  · rintro ⟨⟨e, he, rfl⟩, htag⟩
    exact ⟨e, he, rfl, htag⟩
  · rintro ⟨e, he, rfl, htag⟩
    exact ⟨⟨e, he, rfl⟩, htag⟩

theorem eventsOf_eq_nil {db : Database} {tag : PgText} :
    db.eventsOf tag = [] ↔ ∀ e ∈ db.events, e.row.tagId ≠ tag := by
  simp [eventsOf, List.filter_eq_nil_iff]

/-- The last of the newest events of a tag, as a split of the whole log. -/
theorem split_events {db : Database} {tag : PgText} {r : Row}
    (h : LastOfLargest Row.ts (db.eventsOf tag) r) :
    ∃ before e after, db.events = before ++ e :: after ∧ e.row = r ∧ r.tagId = tag ∧
      (∀ e' ∈ before, e'.row.tagId = tag → e'.row.ts ≤ r.ts) ∧
      ∀ e' ∈ after, e'.row.tagId = tag → e'.row.ts < r.ts := by
  obtain ⟨front, back, hsplit, htag, hfront, hback⟩ := h.of_filter
  obtain ⟨before, rest, hevents, rfl, hrest⟩ := List.map_eq_append_iff.mp hsplit
  obtain ⟨e, after, rfl, rfl, rfl⟩ := List.map_eq_cons_iff.mp hrest
  refine ⟨before, e, after, hevents, rfl, by simpa using htag, ?_, ?_⟩
  · intro e' he' htag'
    exact hfront e'.row (List.mem_map_of_mem he') (by simpa using htag')
  · intro e' he' htag'
    exact hback e'.row (List.mem_map_of_mem he') (by simpa using htag')

/-- `current_positions` holds of each tag the last of its newest events. -/
def Current (db : Database) : Prop :=
  ∀ tag, db.current.find? tag = newest Row.ts (db.eventsOf tag)

theorem current_empty : Current empty := by
  intro tag
  rfl

/-- One more envelope keeps the two tables in step. -/
theorem Current.persist {db : Database} (h : db.Current) (e : EventRow) :
    (db.persist e).Current := by
  intro tag
  have hevents : (db.persist e).eventsOf tag =
      db.eventsOf tag ++ (if e.row.tagId = tag then [e.row] else []) := by
    by_cases htag : e.row.tagId = tag <;> simp [eventsOf, Database.persist, htag]
  rw [hevents]
  show (db.current.upsert e.row).find? tag = _
  rw [CurrentPositions.find?_upsert, h tag]
  by_cases htag : e.row.tagId = tag
  · rw [if_pos htag, if_pos htag, newest_concat]
  · rw [if_neg htag, if_neg htag, List.append_nil]

/-- The store seen from outside: whole envelopes are persisted, one after the other. -/
def store : Machine Database where
  init db := db = empty
  step db db' := ∃ e, db' = db.persist e

theorem store_current {db : Database} (h : store.Reachable db) : db.Current := by
  refine Machine.invariant ?_ ?_ h
  · rintro db rfl
    exact current_empty
  · rintro db db' - hcurrent ⟨e, rfl⟩
    exact hcurrent.persist e

/-- Persist a list of events. -/
def persistAll (db : Database) (events : List EventRow) : Database :=
  events.foldl persist db

@[simp] theorem events_persistAll (db : Database) (events : List EventRow) :
    (db.persistAll events).events = db.events ++ events := by
  induction events generalizing db with
  | nil => simp [persistAll]
  | cons e rest ih => simpa [persistAll, persist] using ih (db.persist e)

theorem Current.persistAll {db : Database} (h : db.Current) (events : List EventRow) :
    (db.persistAll events).Current := by
  induction events generalizing db with
  | nil => exact h
  | cons e rest ih => exact ih (h.persist e)

end Database

end RtlsStream.Store
