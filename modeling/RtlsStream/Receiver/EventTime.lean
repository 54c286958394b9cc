/-
  Receiver/EventTime.lean --- the time of a datagram that the schema accepts.

  The parser reads no time from such a datagram and rejects it; the schema lets it
  through; the normaliser reads no time from it either and takes the clock.  So
  what is published has the time at which the datagram was processed, whatever its
  `timestamp` says (`eventTime_of_valid`), and a datagram that arrives late counts
  as the newer one.
-/
import RtlsStream.Receiver.Published

set_option autoImplicit false

namespace RtlsStream.Receiver

open RtlsStream.Foundation RtlsStream.Python RtlsStream.StreamHandler

section Valid

variable [Runtime]

/-- A datagram whose JSON is valid under the schema. -/
structure ValidDatagram (data : Bytes) (decoded : Str) (obj : Dict Json) : Prop where
  decodes : decodeUtf8 false data = some decoded
  loads : loads decoded = .ok (.obj obj)
  accepted : scheme (.obj obj)

/-- `ts_utc_ms` of what the server publishes for a datagram, as the consumer reads it. -/
def UdpServer.eventTime (self : UdpServer) (d : Datagram) : Option Json :=
  match self.prepare d with
  | .error _ => none
  | .ok (message, _) =>
    match loadsBytes message with
    | .ok (.obj envelope) =>
      match Dict.get? envelope (text "payload") with
      | some (.obj payload) => Dict.get? payload (text "ts_utc_ms")
      | _ => none
    | _ => none

/-- The digits of a `timestamp`.  They go from the year to the millisecond, so their
lexicographic order is that of the times. -/
def timestampDigits (obj : Dict Json) : List Nat :=
  match obj.get? (text "timestamp") with
  | some (.str s) => s.filterMap decimalDigit
  | _ => []

/-- Whenever and from wherever the datagram arrives, its event has the same time. -/
def TimeOfData (server : UdpServer) (data : Bytes) : Prop :=
  ∀ d d' : Datagram, d.data = data → d'.data = data → ∀ t t', server.eventTime d = some t →
    server.eventTime d' = some t' → t = t'

/-- Event time comes from the device: the events of two datagrams depend on nothing but
their data, and are ordered as the timestamps in the data are. -/
structure DeviceTime (server : UdpServer) (a b : Bytes) (aObj bObj : Dict Json) : Prop where
  first : TimeOfData server a
  second : TimeOfData server b
  ordered : ∀ d d' : Datagram, d.data = a → d'.data = b → ∀ t t', server.eventTime d = some t →
    server.eventTime d' = some t' → ∃ n n' : Int, t = .int n ∧ t' = .int n' ∧
      (n < n' ↔ timestampDigits aObj < timestampDigits bObj) ∧
      (n' < n ↔ timestampDigits bObj < timestampDigits aObj)

/-! ## What the server makes of a valid datagram -/

variable {iterErrors : IterErrors} {data : Bytes} {decoded : Str} {obj : Dict Json}

namespace ValidDatagram

/-- The parser finds the markers and the tag, but no time. -/
theorem rejected (h : ValidDatagram data decoded obj) :
    ∃ e, LS1000Parser.parseMessage ⟨⟩ decoded = .ok (.error e) := by
  obtain ⟨devid, hdevid, htag, -⟩ := firstStr_tag h.accepted
  obtain ⟨position, -, -, -, hposition, -⟩ := position_of_accepted h.accepted
  obtain ⟨samples, hsamples, harray⟩ := required_of_accepted h.accepted (text "samples")
    (arrayScheme sampleScheme) (by decide) rfl
  have hmarkers : LS1000Parser.jsonMarkers.any (Dict.contains obj) = true :=
    List.any_eq_true.mpr ⟨text "devid", by decide, Dict.contains_iff.mpr ⟨_, hdevid⟩⟩
  have hjson : LS1000Parser.isLs1000Json obj = true := by
    simp only [LS1000Parser.isLs1000Json, hmarkers, hposition, hsamples]
    cases samples with
    | arr items => rfl
    | null | bool | int | float | str | obj => cases harray
  have hobject : LS1000Parser.parseObject decoded obj =
      LS1000Parser.err decoded (text "json") "missing_field"
        "Missing timestamp in JSON payload" := by
    simp only [LS1000Parser.parseObject, hjson, htag, firstInt_ts true h.accepted, not_true_eq_false,
      if_false]
  rw [parseMessage_of_loads _ h.loads, hobject]
  exact ⟨_, rfl⟩

theorem noTraceKeys (h : ValidDatagram data decoded obj) : stripTraceKeys obj = obj := by
  refine stripTraceKeys_eq ?_
  intro key hkey
  refine absent_key h.accepted ?_
  revert key
  decide

/-- The event is the normaliser's, and its time the clock's. -/
theorem event (h : ValidDatagram data decoded obj) {now : Int} {e : NormalizedEvent}
    (hevent : EventOf decoded now e) : ∃ tag, firstStr obj tagKeys = .ok (some tag) ∧
      startNormalizer.eventOf obj decoded now tag = .ok e := by
  obtain ⟨rejection, hrejected⟩ := h.rejected
  cases hevent with
  | parser hparsed =>
    rw [hrejected] at hparsed
    cases hparsed
  | @normalizer _ obj' tag _ _ hloads _ htag he =>
    obtain rfl := Json.obj.inj (Except.ok.inj (hloads.symm.trans h.loads))
    rw [h.noTraceKeys] at htag he
    exact ⟨tag, htag, he⟩

end ValidDatagram

theorem eventTime_eq_some_iff (hvalid : Validates iterErrors) {d : Datagram} {t : Json} :
    (startUdp iterErrors).eventTime d = some t ↔
      ∃ decoded e message, decodeUtf8 false d.data = some decoded ∧
        EventOf decoded d.clock.normalizer e ∧
        UdpServer.serializeMessage (eventEnvelope d.clock.envelope e) = .ok message ∧
        t = e.tsUtcMs.json := by
  have hread : ∀ {message headers e}, (startUdp iterErrors).prepare d = .ok (message, headers) →
      UdpServer.serializeMessage (eventEnvelope d.clock.envelope e) = .ok message →
      (startUdp iterErrors).eventTime d = some e.tsUtcMs.json := by
    intro message headers e hprepare hmessage
    simp only [UdpServer.eventTime, hprepare, loadsBytes_message hmessage]
    rfl
  constructor
  · intro h
    cases hprepare : (startUdp iterErrors).prepare d with
    | error exc => simp [UdpServer.eventTime, hprepare] at h
    | ok r =>
      obtain ⟨message, headers⟩ := r
      obtain ⟨decoded, e, hdecoded, hevent, hmessage⟩ := (prepare_ok_iff hvalid).mp ⟨headers, hprepare⟩
      rw [hread hprepare hmessage] at h
      exact ⟨decoded, e, message, hdecoded, hevent, hmessage, (Option.some.inj h).symm⟩
  · rintro ⟨decoded, e, message, hdecoded, hevent, hmessage, rfl⟩
    obtain ⟨headers, hprepare⟩ :=
      (prepare_ok_iff hvalid).mpr ⟨decoded, e, hdecoded, hevent, hmessage⟩
    exact hread hprepare hmessage

/-- Whatever a valid datagram says, the time of its event is the clock's. -/
theorem eventTime_of_valid (hvalid : Validates iterErrors) {d : Datagram}
    (h : ValidDatagram d.data decoded obj) {t : Json}
    (ht : (startUdp iterErrors).eventTime d = some t) :
    t = .int d.clock.normalizer ∧ ∀ v ∈ coordinates obj, tooLarge v = false := by
  obtain ⟨decoded', e, message, hdecoded, hevent, -, rfl⟩ := (eventTime_eq_some_iff hvalid).mp ht
  obtain rfl := Option.some.inj (hdecoded.symm.trans h.decodes)
  obtain ⟨tag, -, he⟩ := h.event hevent
  refine ⟨?_, (eventOf_ok_iff startNormalizer h.accepted _ _ tag).mp ⟨e, he⟩⟩
  rw [(eventOf_fromClock h.accepted he).tsUtcMs]
  rfl

/-- A valid datagram is published unless one of its coordinates is too large. -/
theorem ValidDatagram.message (h : ValidDatagram data decoded obj)
    (hsmall : ∀ v ∈ coordinates obj, tooLarge v = false) {clock : Clock}
    (hclock : Dumpable compact 0 (.int clock.normalizer))
    (hnow : Dumpable compact 0 (.int clock.envelope)) :
    ∃ e message, EventOf decoded clock.normalizer e ∧
      UdpServer.serializeMessage (eventEnvelope clock.envelope e) = .ok message := by
  obtain ⟨rejection, hrejected⟩ := h.rejected
  obtain ⟨devid, -, htag, hascii⟩ := firstStr_tag h.accepted
  obtain ⟨e, he⟩ := (eventOf_ok_iff startNormalizer h.accepted decoded clock.normalizer
    (strip devid)).mpr hsmall
  have hfrom := eventOf_fromClock h.accepted he
  have hevent : EventOf decoded clock.normalizer e := by
    have hobj := h.noTraceKeys
    exact .normalizer hrejected h.loads (by rw [hobj]; exact h.accepted) (by rw [hobj]; exact htag)
      (by rw [hobj]; exact he)
  have hencodable : EncodableEvent e := by
    constructor
    case origin => rw [hfrom.origin]; decide
    case tagId => rw [hfrom.tagId]; exact encodable_of_ascii fun c hc => (hascii c hc).1
    case area => simp [hfrom.area]
    case status => simp [hfrom.status]
    case sourceType => rw [hfrom.sourceType]; decide
    case rawMessage => rw [hfrom.rawMessage]; exact encodable_of_decodeUtf8 h.decodes
    case parseWarnings => rw [hfrom.parseWarnings]; decide
  have hts : Dumpable compact 0 e.tsUtcMs.json := by
    rw [hfrom.tsUtcMs]
    exact hclock
  have hlayer : Dumpable compact 0 (.ofOption PyInt.json e.layer) := by
    rw [hfrom.layer]
    exact ⟨_, rfl⟩
  obtain ⟨message, hmessage⟩ := serializeMessage_event hencodable hnow hts hlayer
  exact ⟨e, message, hevent, hmessage⟩

theorem eventTime_isSome (hvalid : Validates iterErrors) {d : Datagram}
    (h : ValidDatagram d.data decoded obj) (hsmall : ∀ v ∈ coordinates obj, tooLarge v = false)
    (hclock : Dumpable compact 0 (.int d.clock.normalizer))
    (hnow : Dumpable compact 0 (.int d.clock.envelope)) :
    (startUdp iterErrors).eventTime d = some (.int d.clock.normalizer) := by
  obtain ⟨e, message, hevent, hmessage⟩ := h.message hsmall hclock hnow
  obtain ⟨tag, -, he⟩ := h.event hevent
  refine (eventTime_eq_some_iff hvalid).mpr ⟨decoded, e, message, h.decodes, hevent, hmessage, ?_⟩
  rw [(eventOf_fromClock h.accepted he).tsUtcMs]
  rfl

/-! ## When the claim holds -/

/-- What is published twice with different clocks has two times. -/
theorem tooLarge_of_timeOfData (hvalid : Validates iterErrors) (h : ValidDatagram data decoded obj)
    (htime : TimeOfData (startUdp iterErrors) data) : ∃ v ∈ coordinates obj, tooLarge v := by
  by_contra hnone
  have hsmall : ∀ v ∈ coordinates obj, tooLarge v = false := by
    intro v hv
    exact Bool.eq_false_iff.mpr fun htrue => hnone ⟨v, hv, htrue⟩
  have htimes : ∀ now : Int, Dumpable compact 0 (.int now) →
      (startUdp iterErrors).eventTime ⟨data, [], 0, ⟨now, now⟩⟩ = some (.int now) :=
    fun now hnow => eventTime_isSome hvalid h hsmall hnow hnow
  have hsame := htime _ _ rfl rfl _ _ (htimes 0 ⟨_, rfl⟩) (htimes 1 ⟨_, rfl⟩)
  exact absurd hsame (by decide)

theorem eventTime_of_tooLarge (hvalid : Validates iterErrors) (h : ValidDatagram data decoded obj)
    (hlarge : ∃ v ∈ coordinates obj, tooLarge v) {d : Datagram} (hd : d.data = data) :
    (startUdp iterErrors).eventTime d = none := by
  subst hd
  obtain ⟨v, hv, htrue⟩ := hlarge
  refine Option.eq_none_iff_forall_ne_some.mpr ?_
  intro t ht
  rw [(eventTime_of_valid hvalid h ht).2 v hv] at htrue
  cases htrue

/-- The event time of two valid datagrams, of one device or of two, comes from the device
exactly when neither datagram is ever published: each has a coordinate that is an integer
too large for a float. -/
theorem deviceTime_iff (hvalid : Validates iterErrors) {a b : Bytes} {aText bText : Str}
    {aObj bObj : Dict Json} (ha : ValidDatagram a aText aObj) (hb : ValidDatagram b bText bObj) :
    DeviceTime (startUdp iterErrors) a b aObj bObj ↔
      (∃ v ∈ coordinates aObj, tooLarge v) ∧ ∃ v ∈ coordinates bObj, tooLarge v := by
  constructor
  · intro h
    exact ⟨tooLarge_of_timeOfData hvalid ha h.first, tooLarge_of_timeOfData hvalid hb h.second⟩
  · rintro ⟨hlargeA, hlargeB⟩
    constructor
    case first =>
      intro d d' hd _ t t' ht
      rw [eventTime_of_tooLarge hvalid ha hlargeA hd] at ht
      cases ht
    case second =>
      intro d d' hd _ t t' ht
      rw [eventTime_of_tooLarge hvalid hb hlargeB hd] at ht
      cases ht
    case ordered =>
      intro d d' hd _ t t' ht
      rw [eventTime_of_tooLarge hvalid ha hlargeA hd] at ht
      cases ht

end Valid

/-! ## A late datagram -/

/-- What a device sends at a given time, with a given coordinate. -/
def sentAt (timestamp : String) (x : Str) : Str :=
  text ("\x7b\"devid\":\"00A320\",\"seq\":7,\"timestamp\":\"" ++ timestamp ++
    "\",\"samples\":[],\"position\":\x7b\"rgn\":1,\"x\":") ++ x ++
    text ",\"y\":2,\"z\":0\x7d\x7d"

/-- The object it reads as. -/
def objectAt (timestamp : String) (x : Int) : Dict Json :=
  [(text "devid", .str (text "00A320")), (text "seq", .int 7),
    (text "timestamp", .str (text timestamp)), (text "samples", .arr []),
    (text "position", .obj [(text "rgn", .int 1), (text "x", .int x), (text "y", .int 2),
      (text "z", .int 0)])]

section Examples

attribute [local instance] asciiRuntime

/-- The digits of `10 ^ 400 - 1`, which no float can hold. -/
def nines : Str := List.replicate 400 57

theorem valid_older : ValidDatagram ((sentAt "2024-01-01 12:00:00.000" (text "1")).map UInt8.ofNat)
    (sentAt "2024-01-01 12:00:00.000" (text "1")) (objectAt "2024-01-01 12:00:00.000" 1) :=
  ⟨by decide +kernel, by decide +kernel, by decide +kernel⟩

theorem valid_newer : ValidDatagram ((sentAt "2024-01-01 12:00:01.000" (text "1")).map UInt8.ofNat)
    (sentAt "2024-01-01 12:00:01.000" (text "1")) (objectAt "2024-01-01 12:00:01.000" 1) :=
  ⟨by decide +kernel, by decide +kernel, by decide +kernel⟩

theorem valid_nines : ValidDatagram ((sentAt "2024-01-01 12:00:00.000" nines).map UInt8.ofNat)
    (sentAt "2024-01-01 12:00:00.000" nines) (objectAt "2024-01-01 12:00:00.000" (10 ^ 400 - 1)) :=
  ⟨by decide +kernel, by decide +kernel, by decide +kernel⟩

/-- A datagram that is never published. -/
theorem deviceTime_unpublished :
    DeviceTime (startUdp schemeErrors)
      ((sentAt "2024-01-01 12:00:00.000" nines).map UInt8.ofNat)
      ((sentAt "2024-01-01 12:00:00.000" nines).map UInt8.ofNat)
      (objectAt "2024-01-01 12:00:00.000" (10 ^ 400 - 1))
      (objectAt "2024-01-01 12:00:00.000" (10 ^ 400 - 1)) :=
  (deviceTime_iff validates_schemeErrors valid_nines valid_nines).mpr
    ⟨⟨.int (10 ^ 400 - 1), by decide +kernel, by decide +kernel⟩,
      ⟨.int (10 ^ 400 - 1), by decide +kernel, by decide +kernel⟩⟩

/-- A datagram of 12:00:01 is processed at second one, and a datagram of 12:00:00 of the
same device is processed at second two: the older one gets the later time. -/
theorem deviceTime_late :
    ∃ newer older newerText olderText newerObj olderObj,
      ValidDatagram newer newerText newerObj ∧ ValidDatagram older olderText olderObj ∧
      Dict.get? newerObj (text "devid") = Dict.get? olderObj (text "devid") ∧
      ¬ DeviceTime (startUdp schemeErrors) newer older newerObj olderObj := by
  refine ⟨_, _, _, _, _, _, valid_newer, valid_older, by decide +kernel, ?_⟩
  intro h
  let first : Datagram := ⟨(sentAt "2024-01-01 12:00:01.000" (text "1")).map UInt8.ofNat,
    text "10.0.0.1", 9000, ⟨1000, 1000⟩⟩
  let second : Datagram := ⟨(sentAt "2024-01-01 12:00:00.000" (text "1")).map UInt8.ofNat,
    text "10.0.0.1", 9000, ⟨2000, 2000⟩⟩
  have hfirst : (startUdp schemeErrors).eventTime first = some (.int 1000) :=
    eventTime_isSome validates_schemeErrors valid_newer (by decide +kernel) ⟨_, rfl⟩ ⟨_, rfl⟩
  have hsecond : (startUdp schemeErrors).eventTime second = some (.int 2000) :=
    eventTime_isSome validates_schemeErrors valid_older (by decide +kernel) ⟨_, rfl⟩ ⟨_, rfl⟩
  obtain ⟨n, n', hn, hn', -, horder⟩ := h.ordered _ _ rfl rfl _ _ hfirst hsecond
  obtain rfl := Json.int.inj hn
  obtain rfl := Json.int.inj hn'
  have hdigits : timestampDigits (objectAt "2024-01-01 12:00:00.000" 1) <
      timestampDigits (objectAt "2024-01-01 12:00:01.000" 1) := by decide +kernel
  exact absurd (horder.mpr hdigits) (by decide)

end Examples

end RtlsStream.Receiver
