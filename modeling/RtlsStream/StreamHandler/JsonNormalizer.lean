/-
  StreamHandler/JsonNormalizer.lean --- `JsonStreamNormalizer.normalize`.

  Any JSON object with a tag is an event.  Where no time can be read the event gets
  the time of the clock, and a warning says so.
-/
import RtlsStream.StreamHandler.Event

set_option autoImplicit false

namespace RtlsStream.StreamHandler

open RtlsStream.Foundation RtlsStream.Python

/-- `JsonStreamNormalizer` -/
structure JsonStreamNormalizer where
  origin : Str

namespace JsonStreamNormalizer

/-- The warning of an event that got the time of the clock. -/
def timestampMissing : Str := text "timestamp_missing_used_ingestion_time"

variable [Runtime]

/-- The three coordinates an object has, as `_extract_xyz` returns them. -/
def xyzOf (obj : Dict Json) :
    Except PyError (Option Binary64 × Option Binary64 × Option Binary64) := do
  let x ← firstFloat obj [text "x"]
  let y ← firstFloat obj [text "y"]
  let z ← firstFloat obj [text "z"]
  .ok (x, y, z)

/-- `_extract_xyz`: those of `position` if it has any, else those of the object itself. -/
def extractXyz (obj : Dict Json) :
    Except PyError (Option Binary64 × Option Binary64 × Option Binary64) :=
  match obj.get? (text "position") with
  | some (.obj position) => do
    let p ← xyzOf position
    if p.1.isSome ∨ p.2.1.isSome ∨ p.2.2.isSome then .ok p else xyzOf obj
  | _ => xyzOf obj

/-- The event of an object whose tag has been read; `now` is `int(time.time() * 1000)`. -/
def eventOf (self : JsonStreamNormalizer) (obj : Dict Json) (rawMessage : Str) (now : Int)
    (tagId : Str) : Except PyError NormalizedEvent := do
  let ts ← firstInt false obj tsKeys
  let p ← extractXyz obj
  let lng ← firstFloat obj lngKeys
  let lat ← firstFloat obj latKeys
  let layer ← firstInt false obj layerKeys
  let area ← firstStr obj [text "area", text "rgn"]
  let status ← firstStr obj [text "status"]
  .ok {
    origin := self.origin
    tagId := tagId
    tsUtcMs := ts.getD (.int now)
    x := p.1
    y := p.2.1
    z := p.2.2
    layer := layer
    area := area
    status := status
    sourceType := text "json"
    rawMessage := rawMessage
    lng := lng
    lat := lat
    parseWarnings := if ts.isNone then [timestampMissing] else [] }

/-- `normalize` -/
def normalize (self : JsonStreamNormalizer) (value : Json) (rawMessage : Str) (now : Int) :
    Except PyError (Option NormalizedEvent) := do
  let obj ← asDict value
  match ← firstStr obj tagKeys with
  | none => .ok none
  | some tagId => (eventOf self obj rawMessage now tagId).map some

/-! ## What has been read for an event -/

theorem xyzOf_eq_ok {obj : Dict Json} {x y z : Option Binary64} :
    xyzOf obj = .ok (x, y, z) ↔ firstFloat obj [text "x"] = .ok x ∧
      firstFloat obj [text "y"] = .ok y ∧ firstFloat obj [text "z"] = .ok z := by
  simp only [xyzOf, bind_eq_ok, Except.ok.injEq, Prod.mk.injEq]
  constructor
  · rintro ⟨_, hx, _, hy, _, hz, rfl, rfl, rfl⟩
    exact ⟨hx, hy, hz⟩
  · rintro ⟨hx, hy, hz⟩
    exact ⟨x, hx, y, hy, z, hz, rfl, rfl, rfl⟩

/-- What the event of an object takes from it. -/
structure StreamEvent (normalizer : JsonStreamNormalizer) (obj : Dict Json) (rawMessage : Str)
    (now : Int) (tagId : Str) (e : NormalizedEvent) : Prop where
  origin : e.origin = normalizer.origin
  tagId : e.tagId = tagId
  time : ∃ ts, firstInt false obj tsKeys = .ok ts ∧ e.tsUtcMs = ts.getD (.int now) ∧
    e.parseWarnings = if ts.isNone then [timestampMissing] else []
  xyz : extractXyz obj = .ok (e.x, e.y, e.z)
  layer : firstInt false obj layerKeys = .ok e.layer
  area : firstStr obj [text "area", text "rgn"] = .ok e.area
  status : firstStr obj [text "status"] = .ok e.status
  sourceType : e.sourceType = text "json"
  rawMessage : e.rawMessage = rawMessage
  lng : firstFloat obj lngKeys = .ok e.lng
  lat : firstFloat obj latKeys = .ok e.lat

theorem eventOf_eq_ok {self : JsonStreamNormalizer} {obj : Dict Json} {rawMessage tagId : Str}
    {now : Int} {e : NormalizedEvent} :
    self.eventOf obj rawMessage now tagId = .ok e ↔
      StreamEvent self obj rawMessage now tagId e := by
  simp only [eventOf, bind_eq_ok]
  constructor
  · rintro ⟨ts, hts, p, hp, lng, hlng, lat, hlat, layer, hlayer, area, harea, status, hstatus, heq⟩
    obtain rfl := Except.ok.inj heq
    exact ⟨rfl, rfl, ⟨ts, hts, rfl, rfl⟩, hp, hlayer, harea, hstatus, rfl, rfl, hlng, hlat⟩
  · rintro ⟨horigin, htag, ⟨ts, hts, htime, hwarnings⟩, hp, hlayer, harea, hstatus, hsource, hraw,
      hlng, hlat⟩
    refine ⟨ts, hts, _, hp, _, hlng, _, hlat, _, hlayer, _, harea, _, hstatus, ?_⟩
    cases e
    simp_all

/-- The normaliser's event of an object with a tag. -/
theorem normalize_eq_ok {self : JsonStreamNormalizer} {obj : Dict Json} {rawMessage tagId : Str}
    {now : Int} {e : NormalizedEvent} (htag : firstStr obj tagKeys = .ok (some tagId)) :
    self.normalize (.obj obj) rawMessage now = .ok (some e) ↔
      StreamEvent self obj rawMessage now tagId e := by
  simp only [normalize, asDict, bind_eq_ok, Except.ok.injEq, exists_eq_left', htag, map_eq_ok,
    Option.some.injEq, exists_eq_right, eventOf_eq_ok]

/-- What `normalize` has read for an event. -/
theorem normalize_ok {self : JsonStreamNormalizer} {value : Json} {rawMessage : Str} {now : Int}
    {e : NormalizedEvent} (h : self.normalize value rawMessage now = .ok (some e)) :
    ∃ obj tagId, value = .obj obj ∧ firstStr obj tagKeys = .ok (some tagId) ∧
      StreamEvent self obj rawMessage now tagId e := by
  have hread := h
  simp only [normalize, bind_eq_ok] at hread
  obtain ⟨obj, hobj, tag, htag, hevent⟩ := hread
  obtain rfl : value = .obj obj := by
    cases value <;> cases hobj
    rfl
  cases tag with
  | none => cases hevent
  | some tagId => exact ⟨obj, tagId, rfl, htag, (normalize_eq_ok htag).mp h⟩

end JsonStreamNormalizer

end RtlsStream.StreamHandler
