/-
  Live/Envelope.lean --- envelopes and rows as the live view sees them.

  An envelope that reaches the broadcast has been stored, and its `tag_id` is a
  string and its `ts_utc_ms` an integer: `LiveEnvelope` carries these facts.  The
  browser gets it in two shapes, as an item of the snapshot and as the payload of
  an envelope, and `Position` is what `usePositions` makes of either.  Its numbers
  are binary64: `ts_utc_ms` is read as the nearest one.
-/
import RtlsStream.Store.Tables
import RtlsStream.Foundation.Rounding

set_option autoImplicit false

namespace RtlsStream.Live

open RtlsStream.Foundation RtlsStream.Python RtlsStream.Store

/-- An envelope that can be stored, with the row it is stored as. -/
structure LiveEnvelope [Runtime] [Postgres] where
  envelope : Dict Json
  payload : Dict Json
  tagId : Str
  tsUtcMs : Int
  row : Row
  payload_eq : envelope.get? (text "payload") = some (.obj payload)
  tagId_eq : payload.get? (text "tag_id") = some (.str tagId)
  tsUtcMs_eq : payload.get? (text "ts_utc_ms") = some (.int tsUtcMs)
  stored : rowOf envelope = some row

section Stored

variable [Runtime] [Postgres]

namespace LiveEnvelope

variable (e : LiveEnvelope)

theorem row_key : e.row.tagId.1 = e.tagId ∧ e.row.ts = e.tsUtcMs := by
  obtain ⟨p, hp, hrow⟩ := params_of_rowOf e.stored
  have hbound := bindParams_eq_some_iff.mp hrow
  have htag := hbound.tagId
  have hts := hbound.tsUtcMs
  obtain ⟨htag', hts'⟩ := key_of_extractParams e.payload_eq hp
  have htagEq : Json.str e.tagId = p.tagId := Option.some.inj (e.tagId_eq.symm.trans htag')
  have htsEq : Json.int e.tsUtcMs = p.tsUtcMs := Option.some.inj (e.tsUtcMs_eq.symm.trans hts')
  rw [← htagEq, Postgres.text_str] at htag
  rw [← htsEq, Postgres.bigint_int] at hts
  constructor
  · split at htag
    · rw [← Option.some.inj htag]
    · cases htag
  · split at hts
    · unfold Row.ts
      rw [← Option.some.inj hts]
    · cases hts

@[simp] theorem row_tagId : e.row.tagId.1 = e.tagId := e.row_key.1

@[simp] theorem row_ts : e.row.ts = e.tsUtcMs := e.row_key.2

theorem tagId_eq_iff {e e' : LiveEnvelope} : e.row.tagId = e'.row.tagId ↔ e.tagId = e'.tagId := by
  rw [Subtype.ext_iff, e.row_tagId, e'.row_tagId]

/-- A stored time is a `BIGINT`, so a browser reads it as a finite number. -/
theorem tsUtcMs_lt : e.tsUtcMs.natAbs < 2 ^ 200 := by
  have hrange := e.row.tsUtcMs.2
  have hts : e.row.tsUtcMs.1 = e.tsUtcMs := e.row_ts
  rw [hts] at hrange
  have hbig : e.tsUtcMs.natAbs ≤ 2 ^ 63 := by omega
  exact hbig.trans_lt (by norm_num)

end LiveEnvelope

/-- The envelope of one tag at a given time. -/
def liveAt (ts : Int) (h : (rowOf (envelopeAt ts)).isSome) : LiveEnvelope where
  envelope := envelopeAt ts
  payload := [(text "tag_id", .str (text "00A320")), (text "ts_utc_ms", .int ts)]
  tagId := text "00A320"
  tsUtcMs := ts
  row := (rowOf (envelopeAt ts)).get h
  payload_eq := rfl
  tagId_eq := rfl
  tsUtcMs_eq := rfl
  stored := by simp

end Stored

/-! ## Positions of the browser -/

/-- A position in the map of `usePositions`, with the object it was read from. -/
structure Position where
  tagId : Str
  tsUtcMs : Binary64
  fields : Dict Json

/-- The time the map shows. -/
def Position.ts (p : Position) : ℚ := p.tsUtcMs.value

/-- An item of the snapshot: the row under `_CURRENT_POS_COLUMNS`. -/
def currentPositionItem (r : Row) : Dict Json :=
  [(text "tag_id", .str r.tagId.1), (text "ts_utc_ms", .int r.tsUtcMs.1),
    (text "source_type", .str r.sourceType.1),
    (text "status", .ofOption (fun s : PgText => .str s.1) r.status),
    (text "layer", .ofOption (fun n : Integer4 => .int n.1) r.layer),
    (text "area", .ofOption (fun s : PgText => .str s.1) r.area),
    (text "x", .ofOption .float r.x), (text "y", .ofOption .float r.y),
    (text "z", .ofOption .float r.z), (text "lng", .ofOption .float r.lng),
    (text "lat", .ofOption .float r.lat), (text "origin", .str r.origin.1)]

/-- `positionFromSnapshot` -/
def positionFromSnapshot (r : Row) : Position :=
  ⟨r.tagId.1, .nearest r.ts, currentPositionItem r⟩

/-- The object `positionFromEnvelope` returns: the payload if it has a string tag. -/
def positionFromEnvelope (envelope : Dict Json) : Dict Json :=
  match envelope.get? (text "payload") with
  | some (.obj payload) =>
    match Dict.get? payload (text "tag_id") with
    | some (.str _) => payload
    | _ => envelope
  | _ => envelope

section Position

variable [Runtime] [Postgres] (e : LiveEnvelope)

/-- The position of an envelope that was broadcast. -/
def LiveEnvelope.position : Position :=
  ⟨e.tagId, .nearest e.tsUtcMs, positionFromEnvelope e.envelope⟩

/-- The browser takes the payload for the position. -/
theorem LiveEnvelope.position_fields : e.position.fields = e.payload := by
  simp [position, positionFromEnvelope, e.payload_eq, e.tagId_eq]

/-- A position the browser may hold for an envelope. -/
def LiveEnvelope.ShownAs (p : Position) : Prop :=
  p = positionFromSnapshot e.row ∨ p = e.position

variable {e}

theorem LiveEnvelope.ShownAs.key {p : Position} (h : e.ShownAs p) :
    p.tagId = e.tagId ∧ p.ts = (Binary64.nearest e.tsUtcMs).value := by
  rcases h with rfl | rfl
  · exact ⟨e.row_tagId, by rw [Position.ts, positionFromSnapshot, e.row_ts]⟩
  · exact ⟨rfl, rfl⟩

end Position

/-! ## What `JSON.parse` accepts -/

mutual

/-- No float in the value is a NaN or an infinity, which `json.dumps` prints as bare words
that are not JSON. -/
def parseable : Json → Bool
  | .float x => x.isFinite
  | .arr items => parseableItems items
  | .obj members => parseableMembers members
  | .null | .bool _ | .int _ | .str _ => true

def parseableItems : List Json → Bool
  | [] => true
  | v :: rest => parseable v && parseableItems rest

def parseableMembers : List (Str × Json) → Bool
  | [] => true
  | (_, v) :: rest => parseable v && parseableMembers rest

end

mutual

/-- What `JSON.parse` makes of a printed value: every number is a binary64. -/
def jsonParse : Json → Json
  | .int n => .float (.nearest n)
  | .arr items => .arr (jsonParseItems items)
  | .obj members => .obj (jsonParseMembers members)
  | .null => .null
  | .bool b => .bool b
  | .float x => .float x
  | .str s => .str s

def jsonParseItems : List Json → List Json
  | [] => []
  | v :: rest => jsonParse v :: jsonParseItems rest

def jsonParseMembers : List (Str × Json) → List (Str × Json)
  | [] => []
  | (key, v) :: rest => (key, jsonParse v) :: jsonParseMembers rest

end

theorem get?_jsonParseMembers (d : Dict Json) (key : Str) :
    Dict.get? (jsonParseMembers d) key = (d.get? key).map jsonParse := by
  induction d with
  | nil => rfl
  | cons m rest ih =>
    rw [jsonParseMembers, Dict.get?_cons, Dict.get?_cons]
    split
    · rfl
    · exact ih

/-- What `usePositions` makes of a message; `none` where `JSON.parse` throws. -/
def clientPosition (envelope : Dict Json) : Option (Dict Json) :=
  if parseable (.obj envelope) then some (positionFromEnvelope (jsonParseMembers envelope))
  else none

/-- The client takes the payload of a message with a string tag. -/
theorem clientPosition_eq {envelope payload : Dict Json} {tag : Str}
    (hparse : parseable (.obj envelope))
    (hpayload : envelope.get? (text "payload") = some (.obj payload))
    (htag : payload.get? (text "tag_id") = some (.str tag)) :
    clientPosition envelope = some (jsonParseMembers payload) := by
  rw [clientPosition, if_pos hparse]
  simp [positionFromEnvelope, get?_jsonParseMembers, hpayload, htag, jsonParse]

/-- That position has the tag and the time under which the map keeps it. -/
theorem LiveEnvelope.clientPosition_key [Runtime] [Postgres] (e : LiveEnvelope)
    (hparse : parseable (.obj e.envelope)) :
    ∃ shown, clientPosition e.envelope = some shown ∧
      shown.get? (text "tag_id") = some (.str e.position.tagId) ∧
      shown.get? (text "ts_utc_ms") = some (.float e.position.tsUtcMs) := by
  refine ⟨_, clientPosition_eq hparse e.payload_eq e.tagId_eq, ?_, ?_⟩
  · rw [get?_jsonParseMembers, e.tagId_eq]
    rfl
  · rw [get?_jsonParseMembers, e.tsUtcMs_eq]
    rfl

/-! ## The staleness filter -/

/-- `_snapshot_timestamps` -/
def snapshotTimestamps (snapshot : List Row) : Dict Int :=
  snapshot.foldl (fun d r => d.set r.tagId.1 r.ts) []

/-- `ts < n`, where Python can compare. -/
def lessThan (ts : Json) (n : Int) : Except PyError Bool :=
  match ts with
  | .int k => .ok (k < n)
  | .bool b => .ok ((if b then 1 else 0) < n)
  | .float .nan => .ok false
  | .float (.infinity negative) => .ok negative
  | .float x => .ok (x.value < n)
  | _ => .error (.typeError (text "'<' not supported"))

/-- `snapshot_ts.get(tag_id, 0)`; a list or a dictionary is no key. -/
def snapshotTime (snapshotTs : Dict Int) (tagId : Json) : Except PyError Int :=
  match tagId with
  | .str tag => .ok ((snapshotTs.get? tag).getD 0)
  | .arr _ | .obj _ => .error (.typeError (text "unhashable type"))
  | _ => .ok 0

/-- `_is_stale` -/
def isStale (envelope : Dict Json) (snapshotTs : Dict Int) : Except PyError Bool := do
  let payload ← asDict (getD envelope "payload" (.obj []))
  match getD payload "tag_id" .null, getD payload "ts_utc_ms" .null with
  | .null, _ => .ok false
  | _, .null => .ok false
  | tagId, ts => do
    let time ← snapshotTime snapshotTs tagId
    lessThan ts time

/-- On a live envelope the filter compares two integers. -/
theorem isStale_live [Runtime] [Postgres] (e : LiveEnvelope) (snapshotTs : Dict Int) :
    isStale e.envelope snapshotTs =
      .ok (decide (e.tsUtcMs < (snapshotTs.get? e.tagId).getD 0)) := by
  have hdict : asDict (getD e.envelope "payload" (.obj [])) = .ok e.payload := by
    simp [getD, e.payload_eq, asDict]
  have htag : getD e.payload "tag_id" .null = .str e.tagId := by simp [getD, e.tagId_eq]
  have hts : getD e.payload "ts_utc_ms" .null = .int e.tsUtcMs := by simp [getD, e.tsUtcMs_eq]
  simp [isStale, hdict, htag, hts, snapshotTime, lessThan, bind, Except.bind]

theorem get?_foldl_set {rows : List Row} {d : Dict Int} {tag : Str} {ts : Int}
    (h : (rows.foldl (fun d r => d.set r.tagId.1 r.ts) d).get? tag = some ts) :
    d.get? tag = some ts ∨ ∃ r ∈ rows, r.tagId.1 = tag ∧ r.ts = ts := by
  induction rows generalizing d with
  | nil => exact Or.inl h
  | cons r rest ih =>
    rcases ih h with hd | ⟨r', hr', hkey⟩
    · rw [Dict.get?_set] at hd
      split at hd
      · rename_i htag
        exact Or.inr ⟨r, List.mem_cons_self, htag, Option.some.inj hd⟩
      · exact Or.inl hd
    · exact Or.inr ⟨r', List.mem_cons_of_mem _ hr', hkey⟩

/-- The time of a tag in the map is that of its row in the snapshot. -/
theorem snapshotTimestamps_row {snapshot : List Row} {tag : Str} {ts : Int}
    (h : (snapshotTimestamps snapshot).get? tag = some ts) :
    ∃ r ∈ snapshot, r.tagId.1 = tag ∧ r.ts = ts := by
  rcases get?_foldl_set h with hempty | hrow
  · cases hempty
  · exact hrow

end RtlsStream.Live
