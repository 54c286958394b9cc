/-
  History/Endpoint.lean --- the texts of the history queries.

  `get_position_history` inserts the clauses on `ts_utc_ms` before the `ORDER BY` of one
  file, `count_position_history` appends them to another.  What the texts mean is read
  off by parsing them: of the bounds they depend only on which are there
  (`buildTimeFilters_fst`), so there are four texts of each.

  The server is the one of `Sql`, with the columns of a row by name, and rows of one
  timestamp come in the order of a `HistoryOrder`.  It raises for a parameter that
  PostgreSQL has no value for: a text with a NUL or a lone surrogate, and a number of rows
  that is no `BIGINT` (`history_contract_fails`).
-/
import RtlsStream.History.Query
import RtlsStream.Sql.Select
import RtlsStream.Store.Statements

set_option autoImplicit false

namespace RtlsStream.History

open RtlsStream.Foundation RtlsStream.Python RtlsStream.Store RtlsStream.Sql

/-! ## The code -/

/-- `select_position_history.sql` -/
def selectPositionHistorySql : Str :=
  text "SELECT tag_id, ts_utc_ms, source_type, status, layer, area,\n" ++
  text "       x, y, z, lng, lat, origin\n" ++
  text "FROM position_events\n" ++
  text "WHERE tag_id = %(tag_id)s\n" ++
  text "ORDER BY ts_utc_ms DESC\n" ++
  text "LIMIT %(limit)s OFFSET %(offset)s\n"

/-- `count_position_history.sql` -/
def countPositionHistorySql : Str :=
  text "SELECT COUNT(*)\n" ++
  text "FROM position_events\n" ++
  text "WHERE tag_id = %(tag_id)s\n"

/-- `load_sql`, given the content of the file. -/
def loadSql (content : Str) : Str := strip content

/-- `_build_time_filters` -/
def buildTimeFilters (fromTs toTs : Option Int) : Str × Dict Json :=
  let clauses := []
  let params := []
  let (clauses, params) := match fromTs with
    | some ts => (clauses ++ text " AND ts_utc_ms >= %(from_ts)s",
        Dict.set params (text "from_ts") (.int ts))
    | none => (clauses, params)
  match toTs with
  | some ts => (clauses ++ text " AND ts_utc_ms <= %(to_ts)s",
      Dict.set params (text "to_ts") (.int ts))
  | none => (clauses, params)

/-- The query of `get_position_history`. -/
def historyText (timeClauses : Str) : Str :=
  replace (text "ORDER BY") (timeClauses ++ text "\nORDER BY") (loadSql selectPositionHistorySql)

/-- The query of `count_position_history`. -/
def countText (timeClauses : Str) : Str := loadSql countPositionHistorySql ++ timeClauses

/-- How the driver sends, and how the server compares and counts. -/
def jsonValues [Postgres] : Values Json where
  sends
    | .str s => (Postgres.text (.str s)).isSome
    | _ => true
  compare
    | _, .null, _ => some none
    | _, _, .null => some none
    | .equal, .str a, .str b => some (some (a = b))
    | .equal, .int a, .int b => some (some (a = b))
    | .atLeast, .int a, .int b => some (some (b ≤ a))
    | .atMost, .int a, .int b => some (some (a ≤ b))
    | _, _, _ => none
  ofCount n := .int n
  toCount
    | .int n => (Postgres.bigint (.int n)).bind fun n => if 0 ≤ n.1 then some n.1.toNat else none
    | _ => none

/-- `position_events` -/
def positionEvents (order : HistoryOrder) (db : Database) : Relation EventRow Json where
  rows := db.events
  column e name := e.row.columns.get? name
  listed name := if name = text "ts_utc_ms" then some order.toListingOrder else none

/-- The tables the history queries may name. -/
def historyTables (order : HistoryOrder) (db : Database) (name : Name) :
    Option (Relation EventRow Json) :=
  if name = text "position_events" then some (positionEvents order db) else none

namespace Endpoint

/-- `get_position_history`; `none` where the server reports an error. -/
def getPositionHistory [Postgres] (order : HistoryOrder) (db : Database) (tagId : Str)
    (fromTs toTs : Option Int) (limit offset : Nat) : Option (List (Dict Json)) :=
  let filters := buildTimeFilters fromTs toTs
  let params : Dict Json :=
    [(text "tag_id", .str tagId), (text "limit", .int limit), (text "offset", .int offset)]
  let rows := execute jsonValues (historyTables order db) (historyText filters.1)
    (params.update filters.2).get?
  rows.map fun rows => rows.map (dictZip historyColumns)

/-- `count_position_history` -/
def countPositionHistory [Postgres] (order : HistoryOrder) (db : Database) (tagId : Str)
    (fromTs toTs : Option Int) : Option Json :=
  let filters := buildTimeFilters fromTs toTs
  let params : Dict Json := [(text "tag_id", .str tagId)]
  let rows := execute jsonValues (historyTables order db) (countText filters.1)
    (params.update filters.2).get?
  rows.bind fun rows =>
    match rows.head? with
    | some row => row.head?
    | none => some (.int 0)

end Endpoint

/-! ## What the texts mean -/

/-- The clauses for the bounds that are there. -/
def timeClauses (fromTs toTs : Bool) : Str :=
  (if fromTs then text " AND ts_utc_ms >= %(from_ts)s" else []) ++
    if toTs then text " AND ts_utc_ms <= %(to_ts)s" else []

theorem buildTimeFilters_fst (fromTs toTs : Option Int) :
    (buildTimeFilters fromTs toTs).1 = timeClauses fromTs.isSome toTs.isSome := by
  cases fromTs <;> cases toTs <;> rfl

/-- The conditions of `WHERE`. -/
def historyConditions (fromTs toTs : Bool) : List Condition :=
  ⟨text "tag_id", .equal, text "tag_id"⟩ ::
    ((if fromTs then [⟨text "ts_utc_ms", .atLeast, text "from_ts"⟩] else []) ++
      if toTs then [⟨text "ts_utc_ms", .atMost, text "to_ts"⟩] else [])

/-- The query of a page. -/
def historyQuery (fromTs toTs : Bool) : Query where
  selected := .columns selectPositionHistory
  table := text "position_events"
  conditions := historyConditions fromTs toTs
  orderBy := some (text "ts_utc_ms")
  limit := some (text "limit")
  offset := some (text "offset")

/-- The query of the count. -/
def countQuery (fromTs toTs : Bool) : Query where
  selected := .count
  table := text "position_events"
  conditions := historyConditions fromTs toTs
  orderBy := none
  limit := none
  offset := none

theorem parse_historyText : ∀ fromTs toTs : Bool,
    parse (historyText (timeClauses fromTs toTs)) = some (historyQuery fromTs toTs) := by
  decide +kernel

theorem parse_countText : ∀ fromTs toTs : Bool,
    parse (countText (timeClauses fromTs toTs)) = some (countQuery fromTs toTs) := by
  decide +kernel

/-! ## What the queries return -/

/-- The rows a request is about. -/
def Requested (tagId : Str) (fromTs toTs : Option Int) (r : Row) : Prop :=
  r.tagId.1 = tagId ∧ (∀ from_ts ∈ fromTs, from_ts ≤ r.ts) ∧ ∀ to_ts ∈ toTs, r.ts ≤ to_ts

instance (tagId : Str) (fromTs toTs : Option Int) (r : Row) :
    Decidable (Requested tagId fromTs toTs r) := by
  unfold Requested
  infer_instance

/-- The conditions with their parameters. -/
def historyTests (tagId : Str) (fromTs toTs : Option Int) : List (Test Json) :=
  ⟨text "tag_id", .equal, .str tagId⟩ ::
    ((fromTs.map fun ts => ⟨text "ts_utc_ms", .atLeast, .int ts⟩).toList ++
      (toTs.map fun ts => ⟨text "ts_utc_ms", .atMost, .int ts⟩).toList)

/-- A row meets the tests if and only if it is one of the rows requested. -/
theorem admits_historyTests [Postgres] (order : HistoryOrder) (db : Database) (tagId : Str)
    (fromTs toTs : Option Int) (e : EventRow) :
    admits jsonValues (positionEvents order db) (historyTests tagId fromTs toTs) e =
      some (decide (Requested tagId fromTs toTs e.row)) := by
  have htag : (positionEvents order db).column e (text "tag_id") = some (.str e.row.tagId.1) := rfl
  have hts : (positionEvents order db).column e (text "ts_utc_ms") = some (.int e.row.ts) := rfl
  cases fromTs <;> cases toTs <;>
    simp [admits, historyTests, Test.holds, jsonValues, htag, hts, Requested]

theorem mapM_column (order : HistoryOrder) (db : Database) (e : EventRow) :
    selectPositionHistory.mapM ((positionEvents order db).column e) =
      some (e.row.tuple selectPositionHistory) := by
  refine mapM_eq_some fun name hname => ?_
  obtain ⟨v, hv⟩ := exists_column e.row hname
  simp [positionEvents, hv]

/-- The rows a request is about. -/
def requested (db : Database) (tagId : Str) (fromTs toTs : Option Int) : List EventRow :=
  db.events.filter fun e => Requested tagId fromTs toTs e.row

theorem listed_ts (order : HistoryOrder) (db : Database) :
    (positionEvents order db).listed (text "ts_utc_ms") = some order.toListingOrder := by
  simp [positionEvents]

theorem historyTables_events (order : HistoryOrder) (db : Database) :
    historyTables order db (text "position_events") = some (positionEvents order db) :=
  if_pos rfl

/-- The parameters of a query: those of the bounds, and its own. -/
theorem get?_update_filters (params : Dict Json) (fromTs toTs : Option Int) (name : Str) :
    (params.update (buildTimeFilters fromTs toTs).2).get? name =
      if name = text "from_ts" then (fromTs.map .int).or (params.get? name)
      else if name = text "to_ts" then (toTs.map .int).or (params.get? name)
      else params.get? name := by
  have hne : text "from_ts" ≠ text "to_ts" := by decide +kernel
  by_cases hfrom : name = text "from_ts"
  · subst hfrom
    cases fromTs <;> cases toTs <;>
      simp [buildTimeFilters, Dict.update, Dict.set, Dict.get?_set, hne, hne.symm]
  · by_cases hto : name = text "to_ts"
    · subst hto
      cases fromTs <;> cases toTs <;>
        simp [buildTimeFilters, Dict.update, Dict.set, Dict.get?_set, hne, hne.symm]
    · cases fromTs <;> cases toTs <;>
        simp [buildTimeFilters, Dict.update, Dict.set, Dict.get?_set, hne, Ne.symm hfrom,
          Ne.symm hto, hfrom, hto]

/-- The parameters of a query: its own, and those of the bounds. -/
structure Bound (params : Dict Json) (tagId : Str) (fromTs toTs : Option Int) : Prop where
  tag : params.get? (text "tag_id") = some (.str tagId)
  fromTs : params.get? (text "from_ts") = fromTs.map .int
  toTs : params.get? (text "to_ts") = toTs.map .int

theorem bound_update {params : Dict Json} {tagId : Str} (fromTs toTs : Option Int)
    (htag : params.get? (text "tag_id") = some (.str tagId))
    (hfrom : params.get? (text "from_ts") = none) (hto : params.get? (text "to_ts") = none) :
    Bound (params.update (buildTimeFilters fromTs toTs).2) tagId fromTs toTs where
  tag := by
    have hne : text "tag_id" ≠ text "from_ts" := by decide +kernel
    have hne' : text "tag_id" ≠ text "to_ts" := by decide +kernel
    rw [get?_update_filters, if_neg hne, if_neg hne', htag]
  fromTs := by rw [get?_update_filters, if_pos rfl, hfrom, Option.or_none]
  toTs := by
    have hne : text "to_ts" ≠ text "from_ts" := by decide +kernel
    rw [get?_update_filters, if_neg hne, if_pos rfl, hto, Option.or_none]

/-- For a tag that a row can have these are the rows of a `Filter`. -/
theorem requested_eq_matching (f : Filter) (db : Database) :
    requested db f.tagId.1 f.fromTs f.toTs = matching f db := by
  refine List.filter_congr fun e _ => ?_
  rw [Bool.eq_iff_iff, decide_eq_true_iff, Filter.selects_iff, Requested, Subtype.ext_iff]

section Queries

variable [Postgres]

/-- Both queries bind their placeholders to the parameters of the request. -/
theorem Bound.conditions {params : Dict Json} {tagId : Str} {fromTs toTs : Option Int}
    (htag : IsPgText tagId) (h : Bound params tagId fromTs toTs) :
    (historyConditions fromTs.isSome toTs.isSome).mapM (·.bind jsonValues params.get?) =
      some (historyTests tagId fromTs toTs) := by
  have hsent : jsonValues.sends (.str tagId) = true := by
    simp only [jsonValues, Postgres.text_str, dif_pos htag, Option.isSome_some]
  have hint : ∀ n, jsonValues.sends (.int n) = true := fun _ => rfl
  cases fromTs <;> cases toTs <;>
    simp [historyConditions, historyTests, Condition.bind, h.tag, h.fromTs, h.toTs, hsent, hint]

/-- A parameter that gives a number of rows. -/
theorem bound_update_count {params : Dict Json} {name : Str} {n : Nat} (fromTs toTs : Option Int)
    (hn : n < 2 ^ 63) (hparam : params.get? name = some (.int n)) (hfrom : name ≠ text "from_ts")
    (hto : name ≠ text "to_ts") :
    jsonValues.bound (params.update (buildTimeFilters fromTs toTs).2).get? (some name) =
      some (some n) := by
  have hbigint : -2 ^ 63 ≤ (n : Int) ∧ (n : Int) < 2 ^ 63 := by omega
  have hcount : jsonValues.toCount (.int n) = some n := by
    simp only [jsonValues, Postgres.bigint_int, dif_pos hbigint, Option.bind_some,
      if_pos (Int.natCast_nonneg n), Int.toNat_natCast]
  rw [Values.bound, get?_update_filters, if_neg hfrom, if_neg hto, hparam, Option.bind_some,
    hcount, Option.map_some]

/-- A page is the window of the rows requested, newest first. -/
theorem getPositionHistory_eq (order : HistoryOrder) (db : Database) {tagId : Str}
    (fromTs toTs : Option Int) {limit offset : Nat} (htagId : IsPgText tagId)
    (hlim : limit < 2 ^ 63) (hoff : offset < 2 ^ 63) :
    Endpoint.getPositionHistory order db tagId fromTs toTs limit offset =
      some ((order.window (requested db tagId fromTs toTs) offset limit).map
        fun e => historyRow e.row) := by
  unfold Endpoint.getPositionHistory
  extract_lets filters params rows
  have hparse : parse (historyText filters.1) = some (historyQuery fromTs.isSome toTs.isSome) := by
    rw [buildTimeFilters_fst, parse_historyText]
  have htag : params.get? (text "tag_id") = some (.str tagId) := by
    simp [params, Dict.get?_cons, text]
  have hfrom : params.get? (text "from_ts") = none := by simp [params, Dict.get?_cons, text]
  have hto : params.get? (text "to_ts") = none := by simp [params, Dict.get?_cons, text]
  have hlimit : params.get? (text "limit") = some (.int limit) := by
    simp [params, Dict.get?_cons, text]
  have hoffset : params.get? (text "offset") = some (.int offset) := by
    simp [params, Dict.get?_cons, text]
  have hrows : rows = some ((order.window (requested db tagId fromTs toTs) offset limit).map
      fun e => e.row.tuple selectPositionHistory) := by
    refine (execute_eq hparse (historyTables_events order db)).trans (run_listed rfl
      ((bound_update fromTs toTs htag hfrom hto).conditions htagId)
      (fun e _ => admits_historyTests order db tagId fromTs toTs e) rfl (listed_ts order db)
      (bound_update_count fromTs toTs hlim hlimit (by decide +kernel) (by decide +kernel))
      (bound_update_count fromTs toTs hoff hoffset (by decide +kernel) (by decide +kernel))
      (mapM_column order db))
  rw [hrows, Option.map_some, List.map_map]
  simp only [Function.comp_def, historyRow]

/-- The count is the number of the rows requested. -/
theorem countPositionHistory_eq (order : HistoryOrder) (db : Database) {tagId : Str}
    (fromTs toTs : Option Int) (htagId : IsPgText tagId) :
    Endpoint.countPositionHistory order db tagId fromTs toTs =
      some (.int (requested db tagId fromTs toTs).length) := by
  unfold Endpoint.countPositionHistory
  extract_lets filters params rows
  have hparse : parse (countText filters.1) = some (countQuery fromTs.isSome toTs.isSome) := by
    rw [buildTimeFilters_fst, parse_countText]
  have htag : params.get? (text "tag_id") = some (.str tagId) := by simp [params, Dict.get?_cons]
  have hfrom : params.get? (text "from_ts") = none := by simp [params, Dict.get?_cons, text]
  have hto : params.get? (text "to_ts") = none := by simp [params, Dict.get?_cons, text]
  have hrows : rows = some [[.int (requested db tagId fromTs toTs).length]] :=
    (execute_eq hparse (historyTables_events order db)).trans (run_count rfl
      ((bound_update fromTs toTs htag hfrom hto).conditions htagId)
      (fun e _ => admits_historyTests order db tagId fromTs toTs e) rfl rfl rfl)
  rw [hrows]
  rfl

/-! ## The contract -/

/-- The texts do what `History.getPositionHistory` and `History.countPositionHistory` say. -/
theorem endpoint_refines (order : HistoryOrder) (f : Filter) (db : Database) {limit offset : Nat}
    (hlimit : limit < 2 ^ 63) (hoffset : offset < 2 ^ 63) :
    Endpoint.getPositionHistory order db f.tagId.1 f.fromTs f.toTs limit offset =
        some ((getPositionHistory order f db limit offset).map fun e => historyRow e.row) ∧
      Endpoint.countPositionHistory order db f.tagId.1 f.fromTs f.toTs =
        some (.int (countPositionHistory f db)) := by
  rw [getPositionHistory_eq order db _ _ f.tagId.2 hlimit hoffset,
    countPositionHistory_eq order db _ _ f.tagId.2, requested_eq_matching]
  exact ⟨rfl, rfl⟩

/-- Every page is the slice it asks for of one list, the rows requested from the newest on,
and the count is the length of that list; the tag is a `TEXT`, and the window is given in
`BIGINT`s. -/
theorem history_contract (order : HistoryOrder) (db : Database) (tagId : Str)
    (fromTs toTs : Option Int) (htagId : IsPgText tagId) :
    ∃ newest : List EventRow,
      newest.Perm (db.events.filter fun e => Requested tagId fromTs toTs e.row) ∧
      newest.Pairwise (fun a b => b.row.ts ≤ a.row.ts) ∧
      (∀ limit < 2 ^ 63, ∀ offset < 2 ^ 63,
        Endpoint.getPositionHistory order db tagId fromTs toTs limit offset =
          some (((newest.drop offset).take limit).map fun e => historyRow e.row)) ∧
      Endpoint.countPositionHistory order db tagId fromTs toTs = some (.int newest.length) := by
  refine ⟨order.listing (requested db tagId fromTs toTs), order.listing_perm _, ?_, ?_, ?_⟩
  · exact (order.listing_sorted _).imp fun {a b} => order.descending a b
  · intro limit hlimit offset hoffset
    exact getPositionHistory_eq order db fromTs toTs htagId hlimit hoffset
  · rw [countPositionHistory_eq order db fromTs toTs htagId, (order.listing_perm _).length_eq]

end Queries

section Examples

attribute [local instance] ownTypes

/-- Three rows of a tag. -/
def threeRows : Database where
  events := [⟨1, rowAt ⟨5, by decide⟩⟩, ⟨2, rowAt ⟨7, by decide⟩⟩, ⟨3, rowAt ⟨9, by decide⟩⟩]
  current := .empty

theorem history_contract_three : ∃ newest : List EventRow,
    newest.Perm (threeRows.events.filter fun e =>
      Requested (text "00A320") (some 5) (some 8) e.row) ∧
    newest.Pairwise (fun a b => b.row.ts ≤ a.row.ts) ∧
    (∀ limit < 2 ^ 63, ∀ offset < 2 ^ 63,
      Endpoint.getPositionHistory newestFirst threeRows (text "00A320") (some 5) (some 8)
          limit offset =
        some (((newest.drop offset).take limit).map fun e => historyRow e.row)) ∧
    Endpoint.countPositionHistory newestFirst threeRows (text "00A320") (some 5) (some 8) =
      some (.int newest.length) :=
  history_contract newestFirst threeRows (text "00A320") (some 5) (some 8) (by decide +kernel)

/-- The server has no number of rows from `2 ^ 63` on, and the driver no parameter for a text
with a NUL. -/
theorem history_contract_fails :
    Endpoint.getPositionHistory newestFirst threeRows (text "00A320") none none 1 (2 ^ 63) = none ∧
      Endpoint.getPositionHistory newestFirst threeRows [0] none none 1 0 = none := by
  decide +kernel

/-- Of the three rows two lie between the bounds. -/
example : Endpoint.countPositionHistory newestFirst threeRows (text "00A320") (some 5) (some 8) =
    some (.int 2) := by
  decide +kernel

end Examples

end RtlsStream.History
