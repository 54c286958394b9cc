/-
  Store/Params.lean --- from a decoded envelope to the columns of a row.

  `extractParams` is `_extract_params` of `backend/repository/positions.py`: it
  reads eighteen parameters out of an envelope and may raise on the way.  Two `INSERT`
  statements hand them on by hand-written lists, the columns and the `VALUES`, which
  meet position by position: every column is assigned the parameter of its own name
  (`assigned_eq`).  `bindColumns` is what the driver and PostgreSQL make of them under
  the column types of `migrations/0001_create_position_tables.py`, which both tables
  share.
  The conversions themselves are not code of the repository; they are the fields
  of `Postgres`, with what the program relies on: a value of a column's own type
  is stored unchanged or rejected, and a null is rejected by a `NOT NULL` column.
-/
import RtlsStream.Python.Bytes

set_option autoImplicit false

namespace RtlsStream.Store

open RtlsStream.Foundation RtlsStream.Python

/-! ## Column types -/

/-- A `BIGINT`. -/
abbrev Bigint := {n : Int // -2 ^ 63 ≤ n ∧ n < 2 ^ 63}

/-- An `INTEGER`. -/
abbrev Integer4 := {n : Int // -2 ^ 31 ≤ n ∧ n < 2 ^ 31}

/-- What a `TEXT` column can hold: no NUL, and encodable as UTF-8. -/
abbrev IsPgText (s : Str) : Prop := 0 ∉ s ∧ (encodeUtf8 s).isSome

/-- A `TEXT`. -/
abbrev PgText := {s : Str // IsPgText s}

/-- A row of either table, without the `id` of `position_events`.  A `JSONB` value is
represented by the text it was read from. -/
structure Row where
  schemaVersion : PgText
  eventType : PgText
  origin : PgText
  normalized : Bool
  ingestedAtMs : Bigint
  tagId : PgText
  tsUtcMs : Bigint
  sourceType : PgText
  status : Option PgText
  layer : Option Integer4
  area : Option PgText
  x : Option Binary64
  y : Option Binary64
  z : Option Binary64
  lng : Option Binary64
  lat : Option Binary64
  rawMessage : PgText
  parseWarnings : Str
  deriving DecidableEq

/-! ## Parameters of the statements -/

/-- The dictionary `_extract_params` returns. -/
structure Params where
  schemaVersion : Json
  eventType : Json
  origin : Json
  normalized : Json
  ingestedAtMs : Json
  tagId : Json
  tsUtcMs : Json
  sourceType : Json
  status : Json
  layer : Json
  area : Json
  x : Json
  y : Json
  z : Json
  lng : Json
  lat : Json
  rawMessage : Json
  parseWarnings : Str
  deriving DecidableEq

/-- The parameters by name. -/
def Params.dict (p : Params) : Dict Json :=
  [(text "schema_version", p.schemaVersion), (text "event_type", p.eventType),
    (text "origin", p.origin), (text "normalized", p.normalized),
    (text "ingested_at_ms", p.ingestedAtMs), (text "tag_id", p.tagId),
    (text "ts_utc_ms", p.tsUtcMs), (text "source_type", p.sourceType), (text "status", p.status),
    (text "layer", p.layer), (text "area", p.area), (text "x", p.x), (text "y", p.y),
    (text "z", p.z), (text "lng", p.lng), (text "lat", p.lat),
    (text "raw_message", p.rawMessage), (text "parse_warnings", .str p.parseWarnings)]

/-- `d.get(key, default)` -/
def getD (d : Dict Json) (key : String) (default : Json) : Json :=
  (d.get? (text key)).getD default

/-- `_extract_params` -/
def extractParams [Runtime] (envelope : Dict Json) : Except PyError Params := do
  let payload ← asDict (getD envelope "payload" (.obj []))
  let warnings := getD payload "parse_warnings" (.arr [])
  .ok {
    schemaVersion := ← envelope.item (text "schema_version")
    eventType := ← envelope.item (text "event_type")
    origin := ← envelope.item (text "origin")
    normalized := ← envelope.item (text "normalized")
    ingestedAtMs := ← envelope.item (text "ingested_at_ms")
    tagId := ← payload.item (text "tag_id")
    tsUtcMs := ← payload.item (text "ts_utc_ms")
    sourceType := getD payload "source_type" (.str (text "unknown"))
    status := getD payload "status" .null
    layer := getD payload "layer" .null
    area := getD payload "area" .null
    x := getD payload "x" .null
    y := getD payload "y" .null
    z := getD payload "z" .null
    lng := getD payload "lng" .null
    lat := getD payload "lat" .null
    rawMessage := getD payload "raw_message" (.str [])
    parseWarnings := ← dumps ascii warnings }

/-- The keys of the envelope that `_extract_params` subscripts. -/
def envelopeKeys : List Str :=
  [text "schema_version", text "event_type", text "origin", text "normalized",
    text "ingested_at_ms"]

/-- The keys of the payload that `_extract_params` subscripts. -/
def payloadKeys : List Str := [text "tag_id", text "ts_utc_ms"]

/-- The extraction subscripts these keys and no others, so it succeeds where they are
all there and the warnings can be printed. -/
theorem extractParams_ok_iff [Runtime] {envelope payload : Dict Json}
    (hpayload : envelope.get? (text "payload") = some (.obj payload))
    (hwarnings : ∃ t, dumps ascii (getD payload "parse_warnings" (.arr [])) = .ok t) :
    (∃ p, extractParams envelope = .ok p) ↔
      (∀ key ∈ envelopeKeys, envelope.contains key) ∧ ∀ key ∈ payloadKeys, payload.contains key := by
  have hdict : asDict (getD envelope "payload" (.obj [])) = .ok payload := by
    simp [getD, hpayload, asDict]
  simp only [envelopeKeys, payloadKeys, List.forall_mem_cons, Dict.contains_iff]
  constructor
  · rintro ⟨p, hp⟩
    simp only [extractParams, bind_eq_ok, hdict, Except.ok.injEq, Dict.item_eq_ok] at hp
    obtain ⟨_, rfl, v₁, h₁, v₂, h₂, v₃, h₃, v₄, h₄, v₅, h₅, v₆, h₆, v₇, h₇, _⟩ := hp
    exact ⟨⟨⟨v₁, h₁⟩, ⟨v₂, h₂⟩, ⟨v₃, h₃⟩, ⟨v₄, h₄⟩, ⟨v₅, h₅⟩, by simp⟩, ⟨v₆, h₆⟩, ⟨v₇, h₇⟩, by simp⟩
  · rintro ⟨⟨⟨v₁, h₁⟩, ⟨v₂, h₂⟩, ⟨v₃, h₃⟩, ⟨v₄, h₄⟩, ⟨v₅, h₅⟩, _⟩, ⟨v₆, h₆⟩, ⟨v₇, h₇⟩, _⟩
    obtain ⟨t, ht⟩ := hwarnings
    simp [extractParams, hdict, ht, Dict.item_eq_ok.mpr h₁, Dict.item_eq_ok.mpr h₂,
      Dict.item_eq_ok.mpr h₃, Dict.item_eq_ok.mpr h₄, Dict.item_eq_ok.mpr h₅,
      Dict.item_eq_ok.mpr h₆, Dict.item_eq_ok.mpr h₇, bind, Except.bind]

/-- The parameters of an envelope whose payload is an object. -/
theorem key_of_extractParams [Runtime] {envelope payload : Dict Json} {p : Params}
    (hpayload : envelope.get? (text "payload") = some (.obj payload))
    (h : extractParams envelope = .ok p) :
    payload.get? (text "tag_id") = some p.tagId ∧
      payload.get? (text "ts_utc_ms") = some p.tsUtcMs := by
  have hdict : asDict (getD envelope "payload" (.obj [])) = .ok payload := by
    simp [getD, hpayload, asDict]
  simp only [extractParams, bind_eq_ok, hdict, Except.ok.injEq, Dict.item_eq_ok] at h
  obtain ⟨_, rfl, _, -, _, -, _, -, _, -, _, -, tag, htag, ts, hts, _, -, hp⟩ := h
  subst hp
  exact ⟨htag, hts⟩

/-! ## The lists of the statements -/

/-- An `INSERT`: its columns, and the parameters its `VALUES` name. -/
structure Insert where
  columns : List Str
  values : List Str

/-- `insert_position_event.sql` -/
def insertPositionEvent : Insert where
  columns := [text "schema_version", text "event_type", text "origin", text "normalized",
    text "ingested_at_ms", text "tag_id", text "ts_utc_ms", text "source_type", text "status",
    text "layer", text "area", text "x", text "y", text "z", text "lng", text "lat",
    text "raw_message", text "parse_warnings"]
  values := [text "schema_version", text "event_type", text "origin", text "normalized",
    text "ingested_at_ms", text "tag_id", text "ts_utc_ms", text "source_type", text "status",
    text "layer", text "area", text "x", text "y", text "z", text "lng", text "lat",
    text "raw_message", text "parse_warnings"]

/-- The `INSERT` of `upsert_current_position.sql` -/
def upsertCurrentPosition : Insert where
  columns := [text "schema_version", text "event_type", text "origin", text "normalized",
    text "ingested_at_ms", text "tag_id", text "ts_utc_ms", text "source_type", text "status",
    text "layer", text "area", text "x", text "y", text "z", text "lng", text "lat",
    text "raw_message", text "parse_warnings"]
  values := [text "schema_version", text "event_type", text "origin", text "normalized",
    text "ingested_at_ms", text "tag_id", text "ts_utc_ms", text "source_type", text "status",
    text "layer", text "area", text "x", text "y", text "z", text "lng", text "lat",
    text "raw_message", text "parse_warnings"]

/-- What the statement assigns to its columns. -/
def Insert.assigned (s : Insert) (params : Dict Json) : Dict Json :=
  s.columns.zip (s.values.map fun value => (params.get? value).getD .null)

/-- Either statement assigns every column the parameter of its own name. -/
theorem assigned_eq (p : Params) :
    ∀ s ∈ [insertPositionEvent, upsertCurrentPosition], s.assigned p.dict = p.dict := by
  simp only [List.forall_mem_cons]
  exact ⟨rfl, rfl, by simp⟩

/-! ## Binding -/

/-- How the driver and the server take a parameter into a column of each type; `none`
is an error of the statement. -/
class Postgres where
  text : Json → Option PgText
  boolean : Json → Option Bool
  bigint : Json → Option Bigint
  integer : Json → Option Integer4
  double : Json → Option Binary64
  /-- whether a text is accepted by a `JSONB` column -/
  jsonb : Str → Bool
  /-- A text is stored whatever its length; that an index takes no entry above some
  thousands of bytes is left out. -/
  text_str : ∀ s, text (.str s) = if h : IsPgText s then some ⟨s, h⟩ else none
  text_null : text .null = none
  boolean_bool : ∀ b, boolean (.bool b) = some b
  boolean_null : boolean .null = none
  bigint_int : ∀ n, bigint (.int n) = if h : -2 ^ 63 ≤ n ∧ n < 2 ^ 63 then some ⟨n, h⟩ else none
  bigint_bool : ∀ b, bigint (.bool b) = none
  bigint_null : bigint .null = none
  integer_int : ∀ n, integer (.int n) = if h : -2 ^ 31 ≤ n ∧ n < 2 ^ 31 then some ⟨n, h⟩ else none
  integer_bool : ∀ b, integer (.bool b) = none
  double_float : ∀ x, double (.float x) = some x

/-- A driver that takes into a column only values of the column's own type. -/
@[reducible] def ownTypes : Postgres where
  text
    | .str s => if h : IsPgText s then some ⟨s, h⟩ else none
    | _ => none
  boolean
    | .bool b => some b
    | _ => none
  bigint
    | .int n => if h : -2 ^ 63 ≤ n ∧ n < 2 ^ 63 then some ⟨n, h⟩ else none
    | _ => none
  integer
    | .int n => if h : -2 ^ 31 ≤ n ∧ n < 2 ^ 31 then some ⟨n, h⟩ else none
    | _ => none
  double
    | .float x => some x
    | _ => none
  jsonb _ := true
  text_str _ := rfl
  text_null := rfl
  boolean_bool _ := rfl
  boolean_null := rfl
  bigint_int _ := rfl
  bigint_bool _ := rfl
  bigint_null := rfl
  integer_int _ := rfl
  integer_bool _ := rfl
  double_float _ := rfl

/-- A column declared `NULL` also takes a null. -/
def nullable {α : Type} (column : Json → Option α) : Json → Option (Option α)
  | .null => some none
  | v => (column v).map some

variable [Postgres]

/-- A text for a `JSONB` column. -/
def jsonbText (t : Str) : Option Str := if Postgres.jsonb t then some t else none

/-- A parameter for a `JSONB` column. -/
def jsonbColumn : Json → Option Str
  | .str t => jsonbText t
  | _ => none

/-- The row of the columns that are assigned; a column that is not is null. -/
def bindColumns (columns : Dict Json) : Option Row := do
  some {
    schemaVersion := ← Postgres.text (getD columns "schema_version" .null)
    eventType := ← Postgres.text (getD columns "event_type" .null)
    origin := ← Postgres.text (getD columns "origin" .null)
    normalized := ← Postgres.boolean (getD columns "normalized" .null)
    ingestedAtMs := ← Postgres.bigint (getD columns "ingested_at_ms" .null)
    tagId := ← Postgres.text (getD columns "tag_id" .null)
    tsUtcMs := ← Postgres.bigint (getD columns "ts_utc_ms" .null)
    sourceType := ← Postgres.text (getD columns "source_type" .null)
    status := ← nullable Postgres.text (getD columns "status" .null)
    layer := ← nullable Postgres.integer (getD columns "layer" .null)
    area := ← nullable Postgres.text (getD columns "area" .null)
    x := ← nullable Postgres.double (getD columns "x" .null)
    y := ← nullable Postgres.double (getD columns "y" .null)
    z := ← nullable Postgres.double (getD columns "z" .null)
    lng := ← nullable Postgres.double (getD columns "lng" .null)
    lat := ← nullable Postgres.double (getD columns "lat" .null)
    rawMessage := ← Postgres.text (getD columns "raw_message" .null)
    parseWarnings := ← jsonbColumn (getD columns "parse_warnings" .null) }

/-- The row a statement writes for its parameters; `none` where it raises. -/
def Insert.row (statement : Insert) (p : Params) : Option Row :=
  bindColumns (statement.assigned p.dict)

/-- The row that holds in every column the parameter of its own name. -/
def bindParams (p : Params) : Option Row := do
  some {
    schemaVersion := ← Postgres.text p.schemaVersion
    eventType := ← Postgres.text p.eventType
    origin := ← Postgres.text p.origin
    normalized := ← Postgres.boolean p.normalized
    ingestedAtMs := ← Postgres.bigint p.ingestedAtMs
    tagId := ← Postgres.text p.tagId
    tsUtcMs := ← Postgres.bigint p.tsUtcMs
    sourceType := ← Postgres.text p.sourceType
    status := ← nullable Postgres.text p.status
    layer := ← nullable Postgres.integer p.layer
    area := ← nullable Postgres.text p.area
    x := ← nullable Postgres.double p.x
    y := ← nullable Postgres.double p.y
    z := ← nullable Postgres.double p.z
    lng := ← nullable Postgres.double p.lng
    lat := ← nullable Postgres.double p.lat
    rawMessage := ← Postgres.text p.rawMessage
    parseWarnings := ← jsonbText p.parseWarnings }

/-- Either statement writes that row. -/
theorem row_eq (p : Params) :
    ∀ statement ∈ [insertPositionEvent, upsertCurrentPosition],
      statement.row p = bindParams p := by
  intro statement hstatement
  rw [Insert.row, assigned_eq p statement hstatement]
  rfl

/-- Every column of `r` is what its parameter is stored as. -/
structure Bound (p : Params) (r : Row) : Prop where
  schemaVersion : Postgres.text p.schemaVersion = some r.schemaVersion
  eventType : Postgres.text p.eventType = some r.eventType
  origin : Postgres.text p.origin = some r.origin
  normalized : Postgres.boolean p.normalized = some r.normalized
  ingestedAtMs : Postgres.bigint p.ingestedAtMs = some r.ingestedAtMs
  tagId : Postgres.text p.tagId = some r.tagId
  tsUtcMs : Postgres.bigint p.tsUtcMs = some r.tsUtcMs
  sourceType : Postgres.text p.sourceType = some r.sourceType
  status : nullable Postgres.text p.status = some r.status
  layer : nullable Postgres.integer p.layer = some r.layer
  area : nullable Postgres.text p.area = some r.area
  x : nullable Postgres.double p.x = some r.x
  y : nullable Postgres.double p.y = some r.y
  z : nullable Postgres.double p.z = some r.z
  lng : nullable Postgres.double p.lng = some r.lng
  lat : nullable Postgres.double p.lat = some r.lat
  rawMessage : Postgres.text p.rawMessage = some r.rawMessage
  parseWarnings : jsonbText p.parseWarnings = some r.parseWarnings

/-- A row holds the parameters if and only if every column is bound to its own. -/
theorem bindParams_eq_some_iff {p : Params} {r : Row} : bindParams p = some r ↔ Bound p r := by
  constructor
  · intro h
    unfold bindParams at h
    obtain ⟨_, h1, h⟩ := Option.bind_eq_some_iff.mp h
    obtain ⟨_, h2, h⟩ := Option.bind_eq_some_iff.mp h
    obtain ⟨_, h3, h⟩ := Option.bind_eq_some_iff.mp h
    obtain ⟨_, h4, h⟩ := Option.bind_eq_some_iff.mp h
    obtain ⟨_, h5, h⟩ := Option.bind_eq_some_iff.mp h
    obtain ⟨_, h6, h⟩ := Option.bind_eq_some_iff.mp h
    obtain ⟨_, h7, h⟩ := Option.bind_eq_some_iff.mp h
    obtain ⟨_, h8, h⟩ := Option.bind_eq_some_iff.mp h
    obtain ⟨_, h9, h⟩ := Option.bind_eq_some_iff.mp h
    obtain ⟨_, h10, h⟩ := Option.bind_eq_some_iff.mp h
    obtain ⟨_, h11, h⟩ := Option.bind_eq_some_iff.mp h
    obtain ⟨_, h12, h⟩ := Option.bind_eq_some_iff.mp h
    obtain ⟨_, h13, h⟩ := Option.bind_eq_some_iff.mp h
    obtain ⟨_, h14, h⟩ := Option.bind_eq_some_iff.mp h
    obtain ⟨_, h15, h⟩ := Option.bind_eq_some_iff.mp h
    obtain ⟨_, h16, h⟩ := Option.bind_eq_some_iff.mp h
    obtain ⟨_, h17, h⟩ := Option.bind_eq_some_iff.mp h
    obtain ⟨_, h18, h⟩ := Option.bind_eq_some_iff.mp h
    obtain rfl := Option.some.inj h
    exact ⟨h1, h2, h3, h4, h5, h6, h7, h8, h9,
      h10, h11, h12, h13, h14, h15, h16, h17, h18⟩
  · intro h
    simp [bindParams, h.schemaVersion, h.eventType, h.origin, h.normalized, h.ingestedAtMs, h.tagId, h.tsUtcMs,
      h.sourceType, h.status, h.layer, h.area, h.x, h.y, h.z, h.lng, h.lat, h.rawMessage,
      h.parseWarnings]

/-- The row a statement writes for an envelope, if it writes one at all. -/
def Insert.rowOf [Runtime] (statement : Insert) (envelope : Dict Json) : Option Row :=
  match extractParams envelope with
  | .ok p => statement.row p
  | .error _ => none

/-- The row an envelope is stored as, if it can be stored at all. -/
def rowOf [Runtime] (envelope : Dict Json) : Option Row := insertPositionEvent.rowOf envelope

theorem rowOf_eq [Runtime] (envelope : Dict Json) :
    ∀ statement ∈ [insertPositionEvent, upsertCurrentPosition],
      statement.rowOf envelope = rowOf envelope := by
  intro statement hstatement
  unfold rowOf Insert.rowOf
  cases extractParams envelope with
  | error e => rfl
  | ok p =>
    exact (row_eq p statement hstatement).trans (row_eq p insertPositionEvent (by simp)).symm

/-- The upsert proposes the row that is inserted. -/
@[simp] theorem upsert_rowOf [Runtime] (envelope : Dict Json) :
    upsertCurrentPosition.rowOf envelope = rowOf envelope :=
  rowOf_eq envelope _ (by simp)

/-- The parameters behind a stored row. -/
theorem params_of_rowOf [Runtime] {envelope : Dict Json} {r : Row} (h : rowOf envelope = some r) :
    ∃ p, extractParams envelope = .ok p ∧ bindParams p = some r := by
  unfold rowOf Insert.rowOf at h
  split at h
  · rename_i p hp
    exact ⟨p, hp, (row_eq p insertPositionEvent (by simp)).symm.trans h⟩
  · cases h

/-- An envelope as the receiver builds them, cut down to what a row needs. -/
def envelopeAt (ts : Int) : Dict Json :=
  [(text "schema_version", .str (text "1.0")), (text "event_type", .str (text "position")),
    (text "origin", .str (text "ls-1000")), (text "normalized", .bool true),
    (text "ingested_at_ms", .int 1700000000100),
    (text "payload", .obj [(text "tag_id", .str (text "00A320")), (text "ts_utc_ms", .int ts)])]

end RtlsStream.Store
