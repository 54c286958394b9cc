/-
  History/Query.lean --- the two statements behind `GET /positions/history`.

  `select_position_history.sql` lists the rows of a tag newest first and returns a
  window of them; `count_position_history.sql` counts them.  Both get the same
  clauses on `ts_utc_ms` from `_build_time_filters`.  How rows of one timestamp
  are ordered is the database's choice; it is the parameter `HistoryOrder`, with
  the assumption that the choice is always the same.
-/
import RtlsStream.Store.Tables
import RtlsStream.Foundation.Window

set_option autoImplicit false

namespace RtlsStream.History

open RtlsStream.Foundation RtlsStream.Store

/-- `ORDER BY ts_utc_ms DESC`, with one fixed order among equal timestamps. -/
structure HistoryOrder extends ListingOrder EventRow where
  descending : ∀ a b, le a b → b.row.ts ≤ a.row.ts
  fixed : ∀ a b, le a b → le b a → a.id = b.id

/-- Rows of one timestamp in the order of their ids. -/
def newestFirst : HistoryOrder where
  le a b := decide (b.row.ts < a.row.ts) || (decide (b.row.ts = a.row.ts) && decide (a.id ≤ b.id))
  total a b := by grind
  trans a b c := by grind
  descending a b := by grind
  fixed a b := by grind

/-- The path and query parameters of a history request, without the window. -/
structure Filter where
  tagId : PgText
  fromTs : Option Int
  toTs : Option Int

/-- `WHERE tag_id = ...` and the clauses of `_build_time_filters`. -/
def Filter.selects (f : Filter) (r : Row) : Bool :=
  r.tagId = f.tagId && f.fromTs.all (· ≤ r.ts) && f.toTs.all (r.ts ≤ ·)

theorem Filter.selects_iff {f : Filter} {r : Row} :
    f.selects r ↔ r.tagId = f.tagId ∧ (∀ from_ts ∈ f.fromTs, from_ts ≤ r.ts) ∧
      ∀ to_ts ∈ f.toTs, r.ts ≤ to_ts := by
  unfold Filter.selects
  cases f.fromTs <;> cases f.toTs <;> simp [and_assoc]

/-- The rows a history request is about. -/
def matching (f : Filter) (db : Database) : List EventRow :=
  db.events.filter fun e => f.selects e.row

theorem mem_matching {f : Filter} {db : Database} {e : EventRow} :
    e ∈ matching f db ↔ e ∈ db.events ∧ f.selects e.row := by
  simp [matching]

/-- `get_position_history` -/
def getPositionHistory (order : HistoryOrder) (f : Filter) (db : Database)
    (limit offset : Nat) : List EventRow :=
  order.window (matching f db) offset limit

/-- `count_position_history` -/
def countPositionHistory (f : Filter) (db : Database) : Nat :=
  (matching f db).length

/-- An item of the response: the columns of `_HISTORY_COLUMNS`. -/
structure PositionOut where
  tagId : PgText
  tsUtcMs : Bigint
  sourceType : PgText
  status : Option PgText
  layer : Option Integer4
  area : Option PgText
  x : Option Binary64
  y : Option Binary64
  z : Option Binary64
  lng : Option Binary64
  lat : Option Binary64
  origin : PgText

def positionOut (r : Row) : PositionOut where
  tagId := r.tagId
  tsUtcMs := r.tsUtcMs
  sourceType := r.sourceType
  status := r.status
  layer := r.layer
  area := r.area
  x := r.x
  y := r.y
  z := r.z
  lng := r.lng
  lat := r.lat
  origin := r.origin

/-- The ids of a log are its primary key. -/
def DistinctIds (db : Database) : Prop := (db.events.map (·.id)).Nodup

theorem DistinctIds.nodup_matching {db : Database} (h : DistinctIds db) (f : Filter) :
    (matching f db).Nodup :=
  (List.Nodup.of_map _ h).filter _

/-- No two rows of a log tie. -/
theorem DistinctIds.strict {db : Database} (h : DistinctIds db) (order : HistoryOrder)
    (f : Filter) : order.Strict (matching f db) := by
  intro a ha b hb hab hba
  exact List.inj_on_of_nodup_map h (mem_matching.mp ha).1 (mem_matching.mp hb).1
    (order.fixed a b hab hba)

theorem DistinctIds.persist {db : Database} {e : EventRow} (h : DistinctIds db)
    (hnew : e.id ∉ db.events.map (·.id)) : DistinctIds (db.persist e) := by
  unfold DistinctIds Database.persist
  rw [List.map_append, List.nodup_append]
  refine ⟨h, by simp, ?_⟩
  intro id hid id' hid' heq
  simp only [List.map_cons, List.map_nil, List.mem_singleton] at hid'
  exact hnew (by rwa [← hid', ← heq])

/-- An insert leaves the rows a request is about, and may add one. -/
theorem matching_sublist_persist (f : Filter) (db : Database) (e : EventRow) :
    (matching f db).Sublist (matching f (db.persist e)) := by
  unfold matching Database.persist
  rw [List.filter_append]
  exact List.sublist_append_left _ _

end RtlsStream.History
