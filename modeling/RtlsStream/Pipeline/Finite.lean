/-
  Pipeline/Finite.lean --- which datagrams are published as JSON.

  `json.dumps` writes a NaN and the infinities as bare words, which `JSON.parse` does not
  read; the coordinates are the only floats of an envelope.  They come from the datagram
  unchecked, so what is published is JSON exactly when the values that the coordinates
  are read from are finite (`finite_published_iff`).
-/
import RtlsStream.Live.Envelope
import RtlsStream.Pipeline.Storable
import RtlsStream.StreamHandler.Coordinates

set_option autoImplicit false

namespace RtlsStream.Pipeline

open RtlsStream.Foundation RtlsStream.Python RtlsStream.StreamHandler RtlsStream.Receiver
open RtlsStream.Live
open LS1000Parser (typeOf fieldsOf)

/-! ## What is published -/

/-- The names of the coordinates in a payload. -/
def coordinateNames : List Str := [text "x", text "y", text "z", text "lng", text "lat"]

/-- Every coordinate of the payload is null or a finite number. -/
def FiniteCoordinates (payload : Dict Json) : Prop :=
  ∀ name ∈ coordinateNames, payload.get? name = some .null ∨
    ∃ x, payload.get? name = some (.float x) ∧ x.isFinite

/-- A member of a payload is null or a finite number. -/
def finiteMember : Option Json → Bool
  | some .null => true
  | some (.float x) => x.isFinite
  | _ => false

instance (payload : Dict Json) : Decidable (FiniteCoordinates payload) :=
  decidable_of_iff (∀ name ∈ coordinateNames, finiteMember (payload.get? name)) <|
    forall₂_congr fun name _ => by
      rcases payload.get? name with _ | v
      · simp [finiteMember]
      · cases v <;> simp [finiteMember]

/-- `JSON.parse` reads the message, and every coordinate of its payload is null or a finite
number. -/
def FiniteMessage [Runtime] (message : Bytes) : Prop :=
  ∃ envelope payload : Dict Json, loadsBytes message = .ok (.obj envelope) ∧
    envelope.get? (text "payload") = some (.obj payload) ∧ parseable (.obj envelope) ∧
    FiniteCoordinates payload

theorem parseable_ofOption {o : Option Binary64} :
    parseable (.ofOption .float o) ↔ FiniteOption o := by
  cases o with
  | none => simp [Json.ofOption, parseable, finiteOption_none]
  | some x => simp [Json.ofOption, parseable, finiteOption_some]

theorem parseableItems_str (texts : List Str) : parseableItems (texts.map .str) = true := by
  induction texts with
  | nil => rfl
  | cons s rest ih => simp [parseableItems, parseable, ih]

theorem parseable_asdict {e : NormalizedEvent} : parseable (.obj (asdict e)) ↔ FiniteEvent e := by
  have hts : parseable e.tsUtcMs.json = true := by cases e.tsUtcMs <;> rfl
  have hlayer : parseable (.ofOption PyInt.json e.layer) = true := by
    cases e.layer with
    | none => rfl
    | some n => cases n <;> rfl
  have hstr : ∀ o : Option Str, parseable (.ofOption .str o) = true := by
    intro o
    cases o <;> rfl
  rw [finiteEvent_iff]
  simp only [← parseable_ofOption]
  simp [asdict, parseable, parseableMembers, hts, hlayer, hstr, parseableItems_str,
    and_assoc]

/-- Only the payload of an envelope can fail to be JSON. -/
theorem parseable_build {payload : Json} {context : EnvelopeContext}
    (horigin : parseable context.origin) :
    parseable (.obj (envelopeV1Builder.build payload context)) ↔ parseable payload := by
  simp [envelopeV1Builder, parseable, parseableMembers, horigin]

theorem coordinate_iff {o : Option Binary64} :
    (Json.ofOption Json.float o = .null ∨
      ∃ x, Json.ofOption Json.float o = .float x ∧ x.isFinite) ↔ FiniteOption o := by
  cases o with
  | none => simp [Json.ofOption, finiteOption_none]
  | some x => simp [Json.ofOption, finiteOption_some]

theorem finiteCoordinates_asdict {e : NormalizedEvent} :
    FiniteCoordinates (asdict e) ↔ FiniteEvent e := by
  have hnames : coordinateNames.map (asdict e).get? =
      [e.x, e.y, e.z, e.lng, e.lat].map fun o => some (.ofOption .float o) := rfl
  have hall : FiniteCoordinates (asdict e) ↔ ∀ c ∈ coordinateNames.map (asdict e).get?,
      c = some .null ∨ ∃ x, c = some (.float x) ∧ x.isFinite := by
    rw [List.forall_mem_map, FiniteCoordinates]
  rw [hall, hnames, List.forall_mem_map]
  simp only [Option.some.injEq, coordinate_iff]
  rfl

section Published

variable [Runtime]

/-- The message of an event is JSON exactly when its coordinates are finite. -/
theorem finiteMessage_iff {now : Int} {e : NormalizedEvent} {message : Bytes}
    (h : UdpServer.serializeMessage (eventEnvelope now e) = .ok message) :
    FiniteMessage message ↔ FiniteEvent e := by
  have hloads := loadsBytes_message h
  have hpayload : Dict.get? (eventEnvelope now e) (text "payload") = some (.obj (asdict e)) := rfl
  have hjson : parseable (.obj (eventEnvelope now e)) ↔ FiniteEvent e :=
    (parseable_build rfl).trans parseable_asdict
  constructor
  · rintro ⟨envelope, payload, henvelope, -, hparse, -⟩
    obtain rfl := Json.obj.inj (Except.ok.inj (hloads.symm.trans henvelope))
    exact hjson.mp hparse
  · intro hfinite
    exact ⟨_, _, hloads, hpayload, hjson.mpr hfinite, finiteCoordinates_asdict.mpr hfinite⟩

/-! ## The datagram -/

/-- The values that the coordinates of a text are read from are finite. -/
def FiniteContent (decoded : Str) : Prop :=
  if (strip decoded).head? = some 123 then
    ∀ obj, loads (strip decoded) = .ok (.obj obj) → FiniteObject obj
  else ∀ type ∈ typeOf (strip decoded), FiniteFields type (fieldsOf (strip decoded))

/-- The values that the coordinates of a datagram are read from are finite. -/
def FiniteDatagram (d : Datagram) : Prop :=
  ∀ decoded, decodeUtf8 false d.data = some decoded → FiniteContent decoded

theorem finiteUnder_strip (obj : Dict Json) {keys : List Str}
    (hkeys : ∀ key ∈ keys, key ∉ traceKeys) :
    FiniteUnder (stripTraceKeys obj) keys ↔ FiniteUnder obj keys :=
  under_congr fun key hkey => get?_stripTraceKeys (hkeys key hkey)

theorem finiteObject_strip (obj : Dict Json) :
    FiniteObject (stripTraceKeys obj) ↔ FiniteObject obj := by
  have hxyz : FiniteXyz (stripTraceKeys obj) ↔ FiniteXyz obj := by
    unfold FiniteXyz
    rw [finiteUnder_strip _ (by decide), finiteUnder_strip _ (by decide),
      finiteUnder_strip _ (by decide)]
  have hposition : FinitePosition (stripTraceKeys obj) ↔ FinitePosition obj := by
    unfold FinitePosition
    rw [get?_stripTraceKeys (by decide)]
    split <;> simp only [hxyz]
  have hlng : FiniteUnder (stripTraceKeys obj) lngKeys ↔ FiniteUnder obj lngKeys :=
    finiteUnder_strip _ (by decide)
  have hlat : FiniteUnder (stripTraceKeys obj) latKeys ↔ FiniteUnder obj latKeys :=
    finiteUnder_strip _ (by decide)
  exact ⟨fun ⟨h₁, h₂, h₃⟩ => ⟨hposition.mp h₁, hlng.mp h₂, hlat.mp h₃⟩,
    fun ⟨h₁, h₂, h₃⟩ => ⟨hposition.mpr h₁, hlng.mpr h₂, hlat.mpr h₃⟩⟩

/-- A valid object has its coordinates where the parser would look for them. -/
theorem finiteEvent_normalizer_iff {self : JsonStreamNormalizer} {obj : Dict Json}
    (haccepted : scheme (.obj obj)) {rawMessage tag : Str} {now : Int} {e : NormalizedEvent}
    (h : self.eventOf obj rawMessage now tag = .ok e) : FiniteEvent e ↔ FiniteObject obj := by
  obtain ⟨position, hposition, hnested, hxSome, hySome, hlng, hlat⟩ :=
    coordinates_of_event haccepted h
  have hfinite := finiteXyz_iff hnested
  obtain ⟨hx, hy, -⟩ := readable_of_xyzOf hnested
  have hboth : Readable position "x" ∧ Readable position "y" := ⟨hx.mpr hxSome, hy.mpr hySome⟩
  have hplace : FinitePosition obj ↔ FiniteXyz position := by
    simp [FinitePosition, hposition, hboth]
  rw [finiteEvent_iff, ← hfinite, ← hplace, ← finiteUnder_iff hlng, ← finiteUnder_iff hlat]
  constructor
  · rintro ⟨h₁, h₂, h₃⟩
    exact ⟨h₁, h₂, h₃⟩
  · rintro ⟨h₁, h₂, h₃⟩
    exact ⟨h₁, h₂, h₃⟩

theorem finiteEvent_iff_content {decoded : Str} {now : Int} {e : NormalizedEvent}
    (h : EventOf decoded now e) : FiniteEvent e ↔ FiniteContent decoded := by
  unfold FiniteContent
  cases h with
  | parser hparsed =>
    rcases LS1000Parser.parseMessage_ok hparsed with
      ⟨hbrace, obj, hloads, hobject⟩ | ⟨hbrace, type, htype, hfields⟩
    · rw [if_pos hbrace, finiteEvent_object_iff hobject, hloads]
      simp
    · rw [if_neg hbrace, finiteEvent_fields_iff hfields, htype]
      simp
  | normalizer _ hloads haccepted _ he =>
    obtain ⟨hbrace, hraw⟩ := loads_strip hloads
    rw [if_pos hbrace, finiteEvent_normalizer_iff haccepted he, finiteObject_strip, hraw]
    simp

/-- What is published for a datagram is JSON with finite coordinates exactly when the values
that its coordinates are read from are finite. -/
theorem finite_published_iff {iterErrors : IterErrors} (hvalid : Validates iterErrors)
    {d : Datagram} {message : Bytes} {headers : Headers}
    (h : (startUdp iterErrors).prepare d = .ok (message, headers)) :
    FiniteMessage message ↔ FiniteDatagram d := by
  obtain ⟨decoded, e, hdecoded, hevent, hmessage⟩ := (prepare_ok_iff hvalid).mp ⟨headers, h⟩
  rw [finiteMessage_iff hmessage, finiteEvent_iff_content hevent, FiniteDatagram, hdecoded]
  simp

end Published

/-! ## Coordinates that are no numbers -/

section Examples

attribute [local instance] asciiRuntime

/-- The coordinates of a `display` message in three fields. -/
theorem finite_published_display :
    ∃ message headers, (startUdp schemeErrors).prepare
        (received (text "display:1,00A320,0,1000,1,3,4,0")) = .ok (message, headers) ∧
      FiniteMessage message := by
  obtain ⟨⟨message, headers⟩, hprepare⟩ : ∃ r, (startUdp schemeErrors).prepare
      (received (text "display:1,00A320,0,1000,1,3,4,0")) = .ok r :=
    exists_of_isOk (by decide +kernel)
  refine ⟨message, headers, hprepare, (finite_published_iff validates_schemeErrors hprepare).mpr ?_⟩
  intro decoded hdecoded
  have hdecode : decodeUtf8 false (received (text "display:1,00A320,0,1000,1,3,4,0")).data =
      some (text "display:1,00A320,0,1000,1,3,4,0") := by decide +kernel
  obtain rfl := Option.some.inj (hdecode.symm.trans hdecoded)
  have htype : typeOf (strip (text "display:1,00A320,0,1000,1,3,4,0")) = some .display := by
    decide +kernel
  have hthree : ThreeNumbers (fieldsOf (strip (text "display:1,00A320,0,1000,1,3,4,0"))) 5 := by
    decide +kernel
  unfold FiniteContent
  rw [if_neg (by decide +kernel), htype]
  simp only [Option.mem_def, Option.some.injEq, forall_eq']
  exact ⟨fun _ => by decide +kernel, fun hnot => absurd hthree hnot⟩

/-- A longitude of `nan` is published as a NaN. -/
theorem nan_published :
    ∃ message headers, (startUdp schemeErrors).prepare
        (received (text "gpsposi:1,00A320,0,1000,1,nan,0")) = .ok (message, headers) ∧
      ¬ FiniteMessage message := by
  obtain ⟨⟨message, headers⟩, hprepare⟩ : ∃ r, (startUdp schemeErrors).prepare
      (received (text "gpsposi:1,00A320,0,1000,1,nan,0")) = .ok r :=
    exists_of_isOk (by decide +kernel)
  refine ⟨message, headers, hprepare, ?_⟩
  have hread : ((loadsBytes message).toOption.bind fun v => (asDict v).toOption.bind fun envelope =>
      (envelope.get? (text "payload")).bind fun p => (asDict p).toOption.bind fun payload =>
        payload.get? (text "lng")) = some (.float .nan) := by
    have hall : (((startUdp schemeErrors).prepare
        (received (text "gpsposi:1,00A320,0,1000,1,nan,0"))).toOption.bind fun r =>
          (loadsBytes r.1).toOption.bind fun v => (asDict v).toOption.bind fun envelope =>
            (envelope.get? (text "payload")).bind fun p => (asDict p).toOption.bind fun payload =>
              payload.get? (text "lng")) = some (.float .nan) := by decide +kernel
    simpa [hprepare, Except.toOption] using hall
  rintro ⟨envelope, payload, hloads, hpayload, -, hnames⟩
  simp only [hloads, Except.toOption, asDict, Option.bind_some, hpayload] at hread
  rcases hnames (text "lng") (by decide) with hnull | ⟨x, hx, hfinite⟩
  · cases hread.symm.trans hnull
  · obtain rfl := Json.float.inj (Option.some.inj (hread.symm.trans hx))
    cases hfinite

end Examples

end RtlsStream.Pipeline
