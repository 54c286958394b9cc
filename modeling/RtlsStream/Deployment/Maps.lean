/-
  Deployment/Maps.lean --- the markers on the two maps.

  `IndoorMap` and `GeoMap` draw the positions that have both coordinates of their map, in the
  live mode those of `usePositions` and in the history those of the player; the tags can be
  hidden, and on the floor plan the second coordinate can be counted from below.  While they
  are shown, the marker of a tag stands where one of the newest events says that were
  reported for it and can be stored, up to the player's clock in the history
  (`live_markers`, `replay_markers`).  Older events do not matter: a tag whose newest event is a status is on
  neither map.
-/
import RtlsStream.Deployment.Replay

set_option autoImplicit false

namespace RtlsStream.Deployment

open RtlsStream.Foundation RtlsStream.Python RtlsStream.Store RtlsStream.Consumer RtlsStream.Live
open RtlsStream.StreamHandler RtlsStream.Receiver RtlsStream.History
open RtlsStream.Pipeline hiding Position
open RtlsStream.Consumer.Delivery (rowOfBody)
open RtlsStream.Player (lastShown Watched watch FramesOrdered)

/-! ## The maps -/

/-- A marker of a tag, and its two coordinates -/
structure Marker where
  tagId : Str
  point : Json × Json

/-- A property of an object, where it is `!= null` -/
def property (fields : Dict Json) (name : Str) : Option Json :=
  match fields.get? name with
  | none | some .null => none
  | some v => some v

/-- The marker of a position that has both coordinates -/
def marker (first second tagId : Str) (fields : Dict Json) : Option Marker :=
  match property fields first, property fields second with
  | some u, some v => some ⟨tagId, (u, v)⟩
  | _, _ => none

variable {α : Type} {key : α → Str}

/-- The markers of a map, over positions with their objects -/
def markers (first second : Str) (fields : α → Dict Json) (positions : Table key) : List Marker :=
  positions.rows.filterMap fun p => marker first second (key p) (fields p)

/-- What the maps are told beside the positions -/
structure Props where
  showTags : Bool
  invertY : Bool

/-- `PLAN_HEIGHT` -/
def planHeight : Nat := 600

/-- `PLAN_HEIGHT - y`, rounded -/
def fromBelow : Binary64 → Binary64
  | .nan => .nan
  | .infinity negative => .infinity !negative
  | .finite negative m e h =>
    let top : ℚ := planHeight - (Binary64.finite negative m e h).value
    .ofRat (top < 0) |top|

/-- `top` of a marker on the floor plan; a coordinate is a number. -/
def Props.top (props : Props) : Json → Json
  | .float y => .float (if props.invertY then fromBelow y else y)
  | .int y => .float (if props.invertY then fromBelow (.nearest y) else .nearest y)
  | v => v

/-- `indoorPositions`, as `IndoorMap` draws them at `left` and `top` -/
def indoorMarkers (props : Props) (fields : α → Dict Json) (positions : Table key) : List Marker :=
  if props.showTags then
    (markers (text "x") (text "y") fields positions).map fun m =>
      ⟨m.tagId, (m.point.1, props.top m.point.2)⟩
  else []

/-- `geoPositions`, as `GeoMap` draws them -/
def geoMarkers (props : Props) (fields : α → Dict Json) (positions : Table key) : List Marker :=
  if props.showTags then markers (text "lat") (text "lng") fields positions else []

section Markers

variable {first second tag : Str} {fields : α → Dict Json} {positions : Table key}

theorem marker_eq_some {tagId : Str} {object : Dict Json} {m : Marker} :
    marker first second tagId object = some m ↔ m.tagId = tagId ∧
      property object first = some m.point.1 ∧ property object second = some m.point.2 := by
  obtain ⟨_, u, v⟩ := m
  unfold marker
  split
  · rename_i hu hv
    simp [hu, hv, eq_comm]
  · rename_i hnone
    simp only [reduceCtorEq, false_iff, not_and]
    exact fun _ hu hv => hnone u v hu hv

/-- A tag has at most one marker on a map, that of its position. -/
theorem mem_markers_iff {m : Marker} : m ∈ markers first second fields positions ↔
    ∃ p, positions.find? m.tagId = some p ∧ property (fields p) first = some m.point.1 ∧
      property (fields p) second = some m.point.2 := by
  simp only [markers, List.mem_filterMap, marker_eq_some]
  constructor
  · rintro ⟨p, hp, htag, hproperties⟩
    exact ⟨p, htag ▸ Table.find?_of_mem hp, hproperties⟩
  · rintro ⟨p, hp, hproperties⟩
    exact ⟨p, Table.mem_of_find? hp, (Table.key_of_find? hp).symm, hproperties⟩

/-- A coordinate is there unless it is null. -/
theorem property_eq_some_iff {object : Dict Json} {name : Str} {c : Option Binary64}
    (h : object.get? name = some (.ofOption .float c)) {v : Json} :
    property object name = some v ↔ ∃ x, c = some x ∧ v = .float x := by
  cases c with
  | none => simp [property, h, Json.ofOption]
  | some x => simp [property, h, Json.ofOption, eq_comm]

theorem mem_markers_of_find? {p : α} (hp : positions.find? tag = some p) {c d : Option Binary64}
    (hfirst : (fields p).get? first = some (.ofOption .float c))
    (hsecond : (fields p).get? second = some (.ofOption .float d)) (point : Json × Json) :
    ⟨tag, point⟩ ∈ markers first second fields positions ↔
      ∃ x y, c = some x ∧ d = some y ∧ point = (.float x, .float y) := by
  obtain ⟨u, v⟩ := point
  simp only [mem_markers_iff, hp, Option.some.injEq, exists_eq_left', property_eq_some_iff hfirst,
    property_eq_some_iff hsecond, Prod.mk.injEq]
  constructor
  · rintro ⟨⟨x, hx, hu⟩, y, hy, hv⟩
    exact ⟨x, y, hx, hy, hu, hv⟩
  · rintro ⟨x, y, hx, hy, hu, hv⟩
    exact ⟨⟨x, hx, hu⟩, y, hy, hv⟩

/-- A marker on the floor plan is one of a position, with its `top`. -/
theorem mem_indoorMarkers_iff {props : Props} {m : Marker} :
    m ∈ indoorMarkers props fields positions ↔ props.showTags = true ∧
      ∃ v, ⟨m.tagId, (m.point.1, v)⟩ ∈ markers (text "x") (text "y") fields positions ∧
        m.point.2 = props.top v := by
  obtain ⟨tagId, u, w⟩ := m
  unfold indoorMarkers
  split
  · rename_i hshow
    simp only [List.mem_map, hshow, true_and]
    constructor
    · rintro ⟨⟨tagId', u', v⟩, hm, heq⟩
      simp only [Marker.mk.injEq, Prod.mk.injEq] at heq
      obtain ⟨rfl, rfl, rfl⟩ := heq
      exact ⟨v, hm, rfl⟩
    · rintro ⟨v, hm, rfl⟩
      exact ⟨_, hm, rfl⟩
  · rename_i hhide
    simp [hhide]

theorem mem_geoMarkers_iff {props : Props} {m : Marker} :
    m ∈ geoMarkers props fields positions ↔
      props.showTags = true ∧ m ∈ markers (text "lat") (text "lng") fields positions := by
  unfold geoMarkers
  split
  · rename_i hshow
    simp [hshow]
  · rename_i hhide
    simp [hhide]

/-- Who has a marker has a position. -/
theorem exists_of_marker {props : Props} {m : Marker}
    (h : m ∈ indoorMarkers props fields positions ++ geoMarkers props fields positions) :
    ∃ p, positions.find? m.tagId = some p := by
  rcases List.mem_append.mp h with hm | hm
  · obtain ⟨-, v, hv, -⟩ := mem_indoorMarkers_iff.mp hm
    obtain ⟨p, hp, -⟩ := mem_markers_iff.mp hv
    exact ⟨p, hp⟩
  · obtain ⟨p, hp, -⟩ := mem_markers_iff.mp (mem_geoMarkers_iff.mp hm).2
    exact ⟨p, hp⟩

theorem not_mem_markers (props : Props) (h : positions.find? tag = none) (point : Json × Json) :
    ⟨tag, point⟩ ∉ indoorMarkers props fields positions ∧
      ⟨tag, point⟩ ∉ geoMarkers props fields positions := by
  have hnone : ⟨tag, point⟩ ∉ indoorMarkers props fields positions ++
      geoMarkers props fields positions := by
    intro hmem
    obtain ⟨p, hp⟩ := exists_of_marker hmem
    cases h.symm.trans hp
  simpa using hnone

end Markers

/-! ## Where an event says the tag is -/

/-- On each map is the marker of the event, if the tags are shown and it has the
coordinates. -/
structure Marks (props : Props) (fields : α → Dict Json) (positions : Table key)
    (event : NormalizedEvent) : Prop where
  indoor : ∀ point, ⟨event.tagId, point⟩ ∈ indoorMarkers props fields positions ↔
    props.showTags = true ∧ ∃ x y, event.x = some x ∧ event.y = some y ∧
      point = (.float x, .float (if props.invertY then fromBelow y else y))
  geo : ∀ point, ⟨event.tagId, point⟩ ∈ geoMarkers props fields positions ↔
    props.showTags = true ∧ ∃ lat lng, event.lat = some lat ∧ event.lng = some lng ∧
      point = (.float lat, .float lng)

/-- The object has the coordinates of the event. -/
structure HasCoordinates (object : Dict Json) (event : NormalizedEvent) : Prop where
  x : object.get? (text "x") = some (.ofOption .float event.x)
  y : object.get? (text "y") = some (.ofOption .float event.y)
  lat : object.get? (text "lat") = some (.ofOption .float event.lat)
  lng : object.get? (text "lng") = some (.ofOption .float event.lng)

theorem HasCoordinates.marks {fields : α → Dict Json} {positions : Table key}
    {event : NormalizedEvent} {p : α} (h : HasCoordinates (fields p) event)
    (hp : positions.find? event.tagId = some p) (props : Props) :
    Marks props fields positions event where
  indoor := by
    rintro ⟨u, w⟩
    simp only [mem_indoorMarkers_iff, mem_markers_of_find? hp h.x h.y, Prod.mk.injEq]
    refine and_congr_right fun _ => ⟨?_, ?_⟩
    · rintro ⟨_, ⟨x, y, hx, hy, rfl, rfl⟩, rfl⟩
      exact ⟨x, y, hx, hy, rfl, rfl⟩
    · rintro ⟨x, y, hx, hy, rfl, rfl⟩
      exact ⟨_, ⟨x, y, hx, hy, rfl, rfl⟩, rfl⟩
  geo point := by
    rw [mem_geoMarkers_iff, mem_markers_of_find? hp h.lat h.lng]

section Reported

variable [Runtime] [Postgres]
variable {iterErrors : IterErrors} {μ β : Type}

/-- The markers of a tag are those of one of the newest events, among those whose times are
given, or the tag is on neither map and there are none. -/
def MarksNewest (sent : μ → Sent iterErrors) (s : State μ β) (tag : Str) (times : Set ℚ)
    (props : Props) (fields : α → Dict Json) (positions : Table key) : Prop :=
  (times = ∅ ∧ ∀ point, ⟨tag, point⟩ ∉ indoorMarkers props fields positions ∧
      ⟨tag, point⟩ ∉ geoMarkers props fields positions) ∨
    ∃ m event n, s.delivery.place m ≠ .absent ∧ (rowOfBody (sent m).message).isSome ∧
      (sent m).Reports event ∧ event.tagId = tag ∧ event.tsUtcMs = .int n ∧
      IsGreatest times n ∧ Marks props fields positions event

variable {sent : μ → Sent iterErrors} {s : State μ β} {tag : Str} {times : Set ℚ} {props : Props}
variable {fields : α → Dict Json} {positions : Table key}

theorem MarksNewest.of_none (h : positions.find? tag = none) (hempty : times = ∅) :
    MarksNewest sent s tag times props fields positions :=
  .inl ⟨hempty, not_mem_markers props h⟩

/-! ## The live mode -/

omit [Runtime] [Postgres] in
theorem coordinates_of_row {event : NormalizedEvent} {r : Row} (h : RowOfEvent event r) :
    event.x = r.x ∧ event.y = r.y ∧ event.lat = r.lat ∧ event.lng = r.lng := by
  have hposition := h.position
  simp only [rowPosition, eventPosition, Pipeline.Position.mk.injEq] at hposition
  obtain ⟨hx, hy, -, hlng, hlat⟩ := hposition
  exact ⟨hx.symm, hy.symm, hlat.symm, hlng.symm⟩

/-- Whatever way an event took to a browser, the position has its coordinates. -/
theorem coordinates_of_shownAs (hvalid : Validates iterErrors) {x : Sent iterErrors}
    {e : LiveEnvelope} (hcarries : Carries x.message e) {p : Live.Position} (hp : e.ShownAs p) :
    ∃ event, x.Reports event ∧ CarriesEvent event e ∧ HasCoordinates p.fields event := by
  obtain ⟨event, hreports, hevent⟩ := carries_event hvalid hcarries
  refine ⟨event, hreports, hevent, ?_⟩
  rcases hp with rfl | rfl
  · obtain ⟨hx, hy, hlat, hlng⟩ := coordinates_of_row hevent.row
    constructor
    case x => rw [hx]; rfl
    case y => rw [hy]; rfl
    case lat => rw [hlat]; rfl
    case lng => rw [hlng]; rfl
  · obtain ⟨event', hreports', hexamine⟩ := x.reports hvalid
    obtain rfl := hreports.unique hreports'
    obtain ⟨payload, hexamine'⟩ := hcarries
    obtain ⟨henvelope, -⟩ := Admission.accepted.inj (hexamine.symm.trans hexamine')
    have hpayload := e.payload_eq
    rw [← henvelope] at hpayload
    rw [e.position_fields, ← Json.obj.inj (Option.some.inj hpayload)]
    exact ⟨rfl, rfl, rfl, rfl⟩

variable [DecidableEq μ] [DecidableEq β]

/-- Once everything that can be stored is consumed, each map of a browser that has caught up
has the marker of a tag where one of the newest events says that were reported for it and can
be stored, and no marker if this event does not say or the tags are hidden. -/
theorem live_markers (hvalid : Validates iterErrors) (sent : μ → Sent iterErrors)
    (h : (machine (Feed.ofSent hvalid sent)).Reachable s)
    (hconsumed : Consumed (Feed.ofSent hvalid sent) s) (htimes : TimesReadable sent s) (b : β)
    (hb : CaughtUp s b) (props : Props) (tag : Str) :
    MarksNewest sent s tag (reportedTimes sent s tag) props Live.Position.fields
      (s.browser b).client.positions := by
  have hexact : TimesExact (Feed.ofSent hvalid sent) s := htimes.exact
  rw [← sentTimes_ofSent hvalid]
  cases hp : (s.browser b).client.positions.find? tag with
  | none =>
    refine .of_none hp (Set.eq_empty_iff_forall_notMem.mpr fun t ht => ?_)
    obtain ⟨u, ⟨p, hp', -⟩, -⟩ := sent_shown h hconsumed hexact hb ht
    cases hp.symm.trans hp'
  | some p =>
    obtain ⟨pending, hview⟩ := reachable_view h b
    obtain ⟨e, he, rfl, hshown⟩ := (sourced hview).shown tag p hp
    obtain ⟨m, hsent, hcarries⟩ := sent_of_committed h he
    obtain ⟨event, hreports, hevent, hcoordinates⟩ := coordinates_of_shownAs hvalid hcarries hshown
    obtain ⟨hpos, hle⟩ := hexact m e hsent hcarries
    have hts : p.ts = e.tsUtcMs := by
      rw [hshown.key.2, Binary64.value_nearest_exact (by omega)]
    have hstored : (rowOfBody (sent m).message).isSome := Option.isSome_of_eq_some hcarries.row
    refine .inr ⟨m, event, e.tsUtcMs, hsent, hstored, hreports, hevent.tagId.symm, hevent.tsUtcMs,
      ?_, ?_⟩
    · exact (shown_iff_newest h hconsumed hexact hb e.tagId _).mp ⟨p, hp, hts⟩
    · rw [hevent.tagId] at hp
      exact hcoordinates.marks hp props

/-! ## The history -/

variable {fromTs toTs : Option Int} {listing : PgText → Nat → List EventRow}
variable {selectedTags : List PgText} {points : List PositionOut}
variable {before after : List (Player.Event ℚ)} {hook : Player.Hook ℚ} {w : Watched ℚ} {now : ℚ}

/-- A point that was loaded is an event that was reported. -/
theorem event_of_loaded (hvalid : Validates iterErrors) {sent : μ → Sent iterErrors}
    (h : (machine (Feed.ofSent hvalid sent)).Reachable s) (htimes : TimesReadable sent s)
    (hchoice : Choice s.delivery.db fromTs toTs listing)
    (hload : handleLoad s.delivery.db fromTs toTs listing selectedTags = some points)
    {p : Player.Position ℚ} (hp : p ∈ points.map fetched) :
    ∃ m event n, s.delivery.place m ≠ .absent ∧ (rowOfBody (sent m).message).isSome ∧
      (sent m).Reports event ∧ event.tagId = p.tagId ∧ event.tsUtcMs = .int n ∧ p.tsUtcMs = n ∧
      HasCoordinates p.others event := by
  obtain ⟨q, hpoint, rfl⟩ := List.mem_map.mp hp
  obtain ⟨-, e, he, rfl⟩ := row_of_point hchoice hload hpoint
  obtain ⟨hmem, -⟩ := mem_matching_iff.mp he
  obtain ⟨m, x, hsent, hcarries, hrow⟩ := sent_of_event h hmem
  obtain ⟨event, hreports, hevent⟩ := carries_event hvalid hcarries
  have hrowOf := hrow ▸ hevent.row
  obtain ⟨hx, hy, hlat, hlng⟩ := coordinates_of_row hrowOf
  refine ⟨m, event, e.row.ts, hsent, Option.isSome_of_eq_some hcarries.row, hreports,
    hrowOf.tagId.symm, hrowOf.tsUtcMs, fetched_ts h htimes.exact hmem, ?_⟩
  constructor
  case x => rw [hx]; rfl
  case y => rw [hy]; rfl
  case lat => rw [hlat]; rfl
  case lng => rw [hlng]; rfl

/-- Once everything that can be stored is consumed, a player that has loaded the history of
some tags and stands at a time: each map has the marker of a loaded tag where one of the
newest events says that was reported for it up to there and between the bounds, and no marker
of any other tag. -/
theorem replay_markers (hvalid : Validates iterErrors) (sent : μ → Sent iterErrors)
    (h : (machine (Feed.ofSent hvalid sent)).Reachable s)
    (hconsumed : Consumed (Feed.ofSent hvalid sent) s) (htimes : TimesReadable sent s)
    (hchoice : Choice s.delivery.db fromTs toTs listing) (hset : selectedTags.Nodup)
    (hload : handleLoad s.delivery.db fromTs toTs listing selectedTags = some points)
    (hkeep : ∀ e ∈ after, keepsPoints e = true)
    (hwatch : watch (before ++ .load (points.map fetched) :: after) = some (hook, w))
    (hordered : FramesOrdered (before ++ .load (points.map fetched) :: after))
    (hmoved : w.moved = true) (hnow : hook.currentTimeMs = some now) (props : Props) :
    (∀ tag ∈ selectedTags, MarksNewest sent s tag.1
      {u | u ∈ reportedTimes sent s tag.1 ∧ InBounds fromTs toTs u ∧ u ≤ now}
      props Player.Position.others hook.currentPositions) ∧
    ∀ m ∈ indoorMarkers props Player.Position.others hook.currentPositions ++
        geoMarkers props Player.Position.others hook.currentPositions,
      ∃ selected ∈ selectedTags, selected.1 = m.tagId := by
  have hfind := find?_of_watch hkeep hwatch hordered hmoved hnow
  constructor
  · intro tag htag
    have hreported := loaded_iff_reported hvalid sent h hconsumed htimes hchoice hset hload htag now
    cases hp : hook.currentPositions.find? tag.1 with
    | none =>
      refine .of_none hp (Set.eq_empty_iff_forall_notMem.mpr fun u hu => ?_)
      obtain ⟨p, hmem, htagId, rfl, hle⟩ := (hreported u).mpr hu
      rw [hfind] at hp
      exact absurd hle (not_le.mpr (lt_of_lastShown_eq_none hp hmem htagId))
    | some p =>
      rw [hfind] at hp
      obtain ⟨hmem, htagId, -⟩ := mem_of_lastShown hp
      obtain ⟨m, event, n, hsent, hstored, hreports, hevent, hts, hpts, hcoordinates⟩ :=
        event_of_loaded hvalid h htimes hchoice hload hmem
      refine .inr ⟨m, event, n, hsent, hstored, hreports, hevent.trans htagId, hts, ?_, ?_⟩
      · have hgreatest := lastShown_iff_newest.mp ⟨p, hp, hpts⟩
        simpa only [hreported] using hgreatest
      · rw [← hfind, ← htagId, ← hevent] at hp
        exact hcoordinates.marks hp props
  · intro m hm
    obtain ⟨p, hp⟩ := exists_of_marker hm
    rw [hfind] at hp
    obtain ⟨hmem, htagId, -⟩ := mem_of_lastShown hp
    rw [← htagId]
    exact selected_of_loaded hchoice hload hmem

end Reported

section Examples

attribute [local instance] asciiRuntime ownTypes

/-- The event of a `status2` datagram has no place. -/
theorem noPlace_status2 {x : Sent schemeErrors}
    (hx : x.datagram = received (text "status2:7,00A320,0,1700000000000")) {event : NormalizedEvent}
    (h : x.Reports event) : event.x = none ∧ event.lat = none := by
  obtain ⟨decoded, hdecoded, hevent⟩ := h
  have hdecode : decodeUtf8 false x.datagram.data =
      some (text "status2:7,00A320,0,1700000000000") := by
    rw [hx]
    decide +kernel
  obtain rfl := Option.some.inj (hdecode.symm.trans hdecoded)
  have hread : ((LS1000Parser.parseMessage ⟨⟩
      (text "status2:7,00A320,0,1700000000000")).toOption.bind fun r =>
        r.toOption.map fun event => (event.x, event.lat)) = some (none, none) := by decide +kernel
  cases hevent with
  | parser hparsed => simpa [hparsed, Except.toOption] using hread
  | normalizer hrejected => simp [hrejected, Except.toOption] at hread

/-- Without a place the tag is on no map. -/
theorem MarksNewest.noPlace {α : Type} {key : α → Str} {props : Props} {fields : α → Dict Json}
    {positions : Table key} {x : Sent schemeErrors} {s : State Unit Unit} {tag : Str}
    {times : Set ℚ} (h : MarksNewest (fun _ => x) s tag times props fields positions)
    (hx : x.datagram = received (text "status2:7,00A320,0,1700000000000")) (point : Json × Json) :
    ⟨tag, point⟩ ∉ indoorMarkers props fields positions ∧
      ⟨tag, point⟩ ∉ geoMarkers props fields positions := by
  rcases h with ⟨-, hoff⟩ | ⟨_, event, _, -, -, hreports, rfl, -, -, hmarks⟩
  · exact hoff point
  · obtain ⟨hnoX, hnoLat⟩ := noPlace_status2 hx hreports
    constructor
    · intro hmem
      obtain ⟨-, _, _, hsome, -⟩ := (hmarks.indoor point).mp hmem
      cases hnoX.symm.trans hsome
    · intro hmem
      obtain ⟨-, _, _, hsome, -⟩ := (hmarks.geo point).mp hmem
      cases hnoLat.symm.trans hsome

/-- A tag that has sent nothing but its status is on no map. -/
theorem live_markers_status2 : ∃ (x : Sent schemeErrors) (s : State Unit Unit),
    (machine (Feed.ofSent validates_schemeErrors fun _ => x)).Reachable s ∧
      (reportedTimes (fun _ => x) s (text "00A320")).Nonempty ∧
      ∀ props point, ⟨text "00A320", point⟩ ∉
          indoorMarkers props Live.Position.fields (s.browser ()).client.positions ∧
        ⟨text "00A320", point⟩ ∉
          geoMarkers props Live.Position.fields (s.browser ()).client.positions := by
  obtain ⟨x, s, hx, hstored, hreach, hconsumed, hcaught, hsent⟩ := exists_caughtUp_status2
  refine ⟨x, s, hreach, (reportedTimes_status2 hx hstored hsent).nonempty, fun props => ?_⟩
  exact (live_markers validates_schemeErrors (fun _ => x) hreach hconsumed
    (timesReadable_status2 hx s) () hcaught props (text "00A320")).noPlace hx

/-- Nor is it in the history. -/
theorem replay_markers_status2 : ∃ (x : Sent schemeErrors) (s : State Unit Unit)
    (hook : Player.Hook ℚ),
    (machine (Feed.ofSent validates_schemeErrors fun _ => x)).Reachable s ∧
      (reportedTimes (fun _ => x) s (text "00A320")).Nonempty ∧
      ∀ props point, ⟨text "00A320", point⟩ ∉
          indoorMarkers props Player.Position.others hook.currentPositions ∧
        ⟨text "00A320", point⟩ ∉
          geoMarkers props Player.Position.others hook.currentPositions := by
  obtain ⟨x, s, listing, points, hook, w, now, hx, hreach, hconsumed, hgreatest, hchoice, hload,
    hwatch, hmoved, hnow, -⟩ := exists_replay_status2
  refine ⟨x, s, hook, hreach, hgreatest.nonempty, fun props => ?_⟩
  exact ((replay_markers validates_schemeErrors (fun _ => x) hreach hconsumed
    (timesReadable_status2 hx s) hchoice (by simp) hload (by simp [keepsPoints]) hwatch
    List.Pairwise.nil hmoved hnow props).1 status2Tag (List.mem_singleton_self _)).noPlace hx

/-- On the floor plan of 600 the third row from above is the 597th from below. -/
example : fromBelow (.nearest 3) = .nearest 597 := by decide +kernel

end Examples

end RtlsStream.Deployment
