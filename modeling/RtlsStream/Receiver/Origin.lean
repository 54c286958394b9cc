/-
  Receiver/Origin.lean --- the server of `start_udp` for any configured origin.

  The origin of a record is decided twice: the payload has that of the event, and the
  envelope the one in the headers.  The parser writes its own name in both places,
  and the validator and the normaliser of `start_udp` are built with one configured
  name, so the two are the same on every path (`envelopeOf_origin`).
-/
import RtlsStream.Receiver.Published
import RtlsStream.StreamHandler.EventFields

set_option autoImplicit false

namespace RtlsStream.StreamHandler.LS1000Parser

open RtlsStream.Foundation RtlsStream.Python

variable [Runtime] {rawMessage : Str} {tokens : List Str} {e : NormalizedEvent}

theorem origin_of_parseFields {type : BaseType}
    (h : parseFields type rawMessage tokens = .ok (.ok e)) : e.origin = text "ls-1000" := by
  obtain ⟨ts, -, hevent⟩ := event_of_parseFields h
  cases hevent <;> rfl

theorem origin_of_parseObject {obj : Dict Json}
    (h : parseObject rawMessage obj = .ok (.ok e)) : e.origin = text "ls-1000" := by
  unfold parseObject at h
  split at h
  · cases h
  · split at h
    · cases h
    · cases h
    · split at h
      · cases h
      · cases h
      · simp only [jsonEvent, bind_eq_ok] at h
        obtain ⟨p, -, lng, -, lat, -, layer, -, status, -, area, -, heq⟩ := h
        obtain rfl := Except.ok.inj (Except.ok.inj heq)
        rfl

/-- The parser has one origin for all its events. -/
theorem origin_of_parseMessage (h : parseMessage ⟨⟩ rawMessage = .ok (.ok e)) :
    e.origin = text "ls-1000" := by
  rcases parseMessage_ok h with ⟨-, obj, -, hobject⟩ | ⟨-, type, -, hfields⟩
  · exact origin_of_parseObject hobject
  · exact origin_of_parseFields hfields

end RtlsStream.StreamHandler.LS1000Parser

namespace RtlsStream.StreamHandler.JsonStreamNormalizer

open RtlsStream.Python

/-- The normaliser gives its events the origin it was built with. -/
theorem origin_of_normalize [Runtime] {self : JsonStreamNormalizer} {v : Json} {rawMessage : Str}
    {now : Int} {e : NormalizedEvent} (h : self.normalize v rawMessage now = .ok (some e)) :
    e.origin = self.origin := by
  obtain ⟨_, _, -, -, hread⟩ := normalize_ok h
  exact hread.origin

end RtlsStream.StreamHandler.JsonStreamNormalizer

namespace RtlsStream.Receiver

open RtlsStream.Foundation RtlsStream.Python RtlsStream.StreamHandler

variable [Runtime]

/-- The server of `start_udp` for a configured `validation.origin`. -/
def startUdpAt (origin : Str) (iterErrors : IterErrors) : UdpServer :=
  { startUdp iterErrors with
    validator := some ⟨origin, iterErrors⟩
    jsonNormalizer := some ⟨origin⟩ }

omit [Runtime] in
theorem startUdp_eq (iterErrors : IterErrors) :
    startUdp iterErrors = startUdpAt settingsOrigin iterErrors := rfl

/-- The envelope of a record whose payload names its origin. -/
def recordEnvelope (ingestedAtMs : Int) (e : NormalizedEvent) : Dict Json :=
  envelopeV1Builder.build (.obj (asdict e)) {
    schemaVersion := text "1.0"
    eventType := text "position"
    origin := .str e.origin
    normalized := true
    ingestedAtMs := ingestedAtMs }

variable {origin : Str} {iterErrors : IterErrors}

theorem validated_origin {cleaned : Str} {v : Json} {named : Str}
    (h : (startUdpAt origin iterErrors).validated cleaned = .ok (v, named)) : named = origin := by
  have hvalidator : (startUdpAt origin iterErrors).validator = some ⟨origin, iterErrors⟩ := rfl
  simp only [UdpServer.validated, hvalidator, Validator.getValidatedObject] at h
  split at h
  · cases h
  · cases h
  · rename_i validated hvalidated
    obtain ⟨-, rfl⟩ := Prod.mk.inj (Except.ok.inj h)
    split at hvalidated
    · cases hvalidated
    · cases hvalidated
    · split at hvalidated
      · cases hvalidated
      · obtain rfl := Except.ok.inj (Except.ok.inj hvalidated)
        rfl
      · cases hvalidated

/-- On every path the headers name the origin of the event. -/
theorem processDatagram_origin {data : Bytes} {headers headers' : Headers} {clock : Clock}
    {payload : Json}
    (h : (startUdpAt origin iterErrors).processDatagram data headers clock =
      .ok (payload, headers')) :
    ∃ e, payload = .obj (asdict e) ∧ headers'.get? (text "origin") = some e.origin := by
  have hparser : (startUdpAt origin iterErrors).parser = some ⟨⟩ := rfl
  have hnormalizer : (startUdpAt origin iterErrors).jsonNormalizer = some ⟨origin⟩ := rfl
  obtain ⟨decoded, -, ⟨e, hparsed, rfl, rfl⟩ | ⟨rejected, -, hnormalized⟩⟩ :=
    processDatagram_ok hparser h
  · exact ⟨e, rfl, by simp [Dict.get?_set, LS1000Parser.origin_of_parseMessage hparsed, text]⟩
  · simp only [UdpServer.normalizeJsonPayload, bind_eq_ok, hnormalizer, Prod.exists] at hnormalized
    obtain ⟨cleaned, -, v, named, hvalidated, r, hr, hresult⟩ := hnormalized
    obtain rfl := validated_origin hvalidated
    cases r with
    | none => cases hresult
    | some e =>
      obtain ⟨rfl, rfl⟩ := Prod.mk.inj (Except.ok.inj hresult)
      exact ⟨e, rfl, by simp [Dict.get?_set, JsonStreamNormalizer.origin_of_normalize hr, text]⟩

/-- The envelope names the origin that its payload names. -/
theorem envelopeOf_origin {d : Datagram} {envelope : Dict Json} {headers : Headers}
    (h : (startUdpAt origin iterErrors).envelopeOf d = .ok (envelope, headers)) :
    ∃ e, envelope = recordEnvelope d.clock.envelope e := by
  simp only [UdpServer.envelopeOf, bind_eq_ok, Prod.exists, Except.ok.injEq, Prod.mk.injEq] at h
  obtain ⟨payload, headers', hprocess, envelope', hbuild, rfl, -⟩ := h
  obtain ⟨e, rfl, horigin⟩ := processDatagram_origin hprocess
  have hregistry : (startUdpAt origin iterErrors).envelopeRegistry.get
      (startUdpAt origin iterErrors).envelopeVersion = .ok envelopeV1Builder := rfl
  have hnormalized : UdpServer.isNormalized (.obj (asdict e)) = true := rfl
  simp only [UdpServer.buildEnvelope, hregistry, UdpServer.originOf, horigin, hnormalized,
    Except.map] at hbuild
  exact ⟨e, (Except.ok.inj hbuild).symm⟩

theorem loadsBytes_record {e : NormalizedEvent} {now : Int} {message : Bytes}
    (h : UdpServer.serializeMessage (recordEnvelope now e) = .ok message) :
    loadsBytes message = .ok (.obj (recordEnvelope now e)) :=
  loadsBytes_serialized (by simp [recordEnvelope, envelopeV1Builder])
    (wellKeyed_build (wellKeyed_asdict e) trivial) h

/-- What is published for a datagram is the record of an event. -/
theorem prepare_record {d : Datagram} {message : Bytes} {headers : Headers}
    (h : (startUdpAt origin iterErrors).prepare d = .ok (message, headers)) :
    ∃ e, loadsBytes message = .ok (.obj (recordEnvelope d.clock.envelope e)) := by
  simp only [UdpServer.prepare, bind_eq_ok, Prod.exists, Except.ok.injEq, Prod.mk.injEq] at h
  obtain ⟨envelope, headers', henvelope, message', hmessage, rfl, -⟩ := h
  obtain ⟨e, rfl⟩ := envelopeOf_origin henvelope
  exact ⟨e, loadsBytes_record hmessage⟩

end RtlsStream.Receiver
