/-
  Store/Statements.lean --- the column lists of the queries.

  A row passes through two hand-written lists on its way out, the list of a `SELECT`
  and the tuple of names its result is zipped with.  They meet position by position:
  `get?_currentRow` and `get?_historyRow` say that every name gets the column of that
  name.
-/
import RtlsStream.Store.Tables

set_option autoImplicit false

namespace RtlsStream.Store

open RtlsStream.Foundation RtlsStream.Python

/-- The columns of a row by name.  `parse_warnings` is selected nowhere. -/
def Row.columns (r : Row) : Dict Json :=
  [(text "schema_version", .str r.schemaVersion.1), (text "event_type", .str r.eventType.1),
    (text "origin", .str r.origin.1), (text "normalized", .bool r.normalized),
    (text "ingested_at_ms", .int r.ingestedAtMs.1), (text "tag_id", .str r.tagId.1),
    (text "ts_utc_ms", .int r.tsUtcMs.1), (text "source_type", .str r.sourceType.1),
    (text "status", .ofOption (fun s : PgText => .str s.1) r.status),
    (text "layer", .ofOption (fun n : Integer4 => .int n.1) r.layer),
    (text "area", .ofOption (fun s : PgText => .str s.1) r.area),
    (text "x", .ofOption .float r.x), (text "y", .ofOption .float r.y),
    (text "z", .ofOption .float r.z), (text "lng", .ofOption .float r.lng),
    (text "lat", .ofOption .float r.lat), (text "raw_message", .str r.rawMessage.1)]

/-- `_CURRENT_POS_COLUMNS` -/
def currentPosColumns : List Str :=
  [text "tag_id", text "ts_utc_ms", text "source_type", text "status", text "layer", text "area",
    text "x", text "y", text "z", text "lng", text "lat", text "origin"]

/-- `_HISTORY_COLUMNS` -/
def historyColumns : List Str := currentPosColumns

/-- The list of `select_all_current_positions.sql` -/
def selectAllCurrentPositions : List Str :=
  [text "tag_id", text "ts_utc_ms", text "source_type", text "status", text "layer", text "area",
    text "x", text "y", text "z", text "lng", text "lat", text "origin"]

/-- The list of `select_position_history.sql` -/
def selectPositionHistory : List Str :=
  [text "tag_id", text "ts_utc_ms", text "source_type", text "status", text "layer", text "area",
    text "x", text "y", text "z", text "lng", text "lat", text "origin"]

/-- The tuple `fetchall` returns for a row. -/
def Row.tuple (r : Row) (select : List Str) : List Json :=
  select.map fun column => (r.columns.get? column).getD .null

/-- `dict(zip(names, row))` -/
def dictZip (names : List Str) (row : List Json) : Dict Json :=
  (names.zip row).foldl (fun d m => d.set m.1 m.2) []

/-- A row as `get_all_current_positions` returns it. -/
def currentRow (r : Row) : Dict Json :=
  dictZip currentPosColumns (r.tuple selectAllCurrentPositions)

/-- A row as `get_position_history` returns it. -/
def historyRow (r : Row) : Dict Json :=
  dictZip historyColumns (r.tuple selectPositionHistory)

/-- A name that is listed once gets the value in its place. -/
theorem get?_dictZip {names : List Str} (hnodup : names.Nodup) (f : Str → Json) {name : Str}
    (h : name ∈ names) : (dictZip names (names.map f)).get? name = some (f name) := by
  have hupdate : dictZip names (names.map f) =
      Dict.update [] (names.map fun name => (name, f name)) := by
    rw [dictZip, List.map_prod_left_eq_zip, Dict.update]
  have hdistinct : Dict.Distinct (names.map fun name => (name, f name)) := by
    simpa [Dict.Distinct, Function.comp_def] using hnodup
  rw [hupdate, Dict.get?_update hdistinct]
  exact .inl (List.mem_map_of_mem h)

theorem nodup_currentPosColumns : currentPosColumns.Nodup := by decide

/-- What a row holds under the twelve names. -/
theorem map_columns (r : Row) : currentPosColumns.map r.columns.get? =
    [some (.str r.tagId.1), some (.int r.tsUtcMs.1), some (.str r.sourceType.1),
      some (.ofOption (fun s : PgText => .str s.1) r.status),
      some (.ofOption (fun n : Integer4 => .int n.1) r.layer),
      some (.ofOption (fun s : PgText => .str s.1) r.area), some (.ofOption .float r.x),
      some (.ofOption .float r.y), some (.ofOption .float r.z), some (.ofOption .float r.lng),
      some (.ofOption .float r.lat), some (.str r.origin.1)] := rfl

theorem exists_column (r : Row) {name : Str} (h : name ∈ currentPosColumns) :
    ∃ v, r.columns.get? name = some v := by
  have hmem : r.columns.get? name ∈ currentPosColumns.map r.columns.get? := List.mem_map_of_mem h
  rw [map_columns] at hmem
  refine Option.isSome_iff_exists.mp ?_
  generalize r.columns.get? name = column at hmem
  revert column
  simp only [List.forall_mem_cons]
  simp

/-- The `SELECT` list and the tuple of names are in one order. -/
theorem get?_currentRow (r : Row) {name : Str} (h : name ∈ currentPosColumns) :
    (currentRow r).get? name = r.columns.get? name := by
  have hselect : selectAllCurrentPositions = currentPosColumns := rfl
  obtain ⟨v, hv⟩ := exists_column r h
  rw [currentRow, hselect, Row.tuple, get?_dictZip nodup_currentPosColumns _ h, hv]
  rfl

theorem get?_currentRow_tagId (r : Row) :
    (currentRow r).get? (text "tag_id") = some (.str r.tagId.1) :=
  (get?_currentRow r (by decide)).trans rfl

theorem get?_currentRow_tsUtcMs (r : Row) :
    (currentRow r).get? (text "ts_utc_ms") = some (.int r.tsUtcMs.1) :=
  (get?_currentRow r (by decide)).trans rfl

theorem get?_historyRow (r : Row) {name : Str} (h : name ∈ currentPosColumns) :
    (historyRow r).get? name = r.columns.get? name := by
  have hselect : selectPositionHistory = currentPosColumns := rfl
  have hnames : historyColumns = currentPosColumns := rfl
  obtain ⟨v, hv⟩ := exists_column r h
  rw [historyRow, hselect, hnames, Row.tuple, get?_dictZip nodup_currentPosColumns _ h, hv]
  rfl

end RtlsStream.Store
