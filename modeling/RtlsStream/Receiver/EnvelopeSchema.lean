/-
  Receiver/EnvelopeSchema.lean --- `config/envelope_v1_schema.json`.

  No code checks an envelope against its schema.  What a server publishes is valid under
  it exactly if the clock is not before 1970 and the payload is an object, which it always
  is with a normaliser and with what a parser has read (`published_fits_iff`).  A server
  with neither publishes whatever document it receives.
-/
import RtlsStream.Receiver.SchemaFields
import RtlsStream.Receiver.TraceTransparent

set_option autoImplicit false

namespace RtlsStream.Receiver

open RtlsStream.Foundation RtlsStream.Python RtlsStream.StreamHandler

/-! ## The schema -/

/-- `"type": "string"` with `"const"` -/
def constScheme (value : Str) : Scheme
  | .str s => s = value
  | _ => false

/-- `"type": "boolean"` -/
def booleanScheme : Scheme
  | .bool _ => true
  | _ => false

/-- `"minimum"` alone -/
def minimumScheme (minimum : Int) : Scheme := fun v =>
  match numberOf v with
  | some q => decide ((minimum : ℚ) ≤ q)
  | none => true

/-- `"type": "object"` alone -/
def anyObject : Scheme
  | .obj _ => true
  | _ => false

/-- The properties of an envelope -/
def envelopeProperties : List (Str × Scheme) :=
  [(text "schema_version", constScheme (text "1.0")), (text "event_type", textScheme),
    (text "origin", textScheme), (text "normalized", booleanScheme),
    (text "ingested_at_ms", fun v => integerScheme v && minimumScheme 0 v),
    (text "payload", anyObject)]

/-- `config/envelope_v1_schema.json` -/
def envelopeScheme : Scheme :=
  objectScheme envelopeProperties
    [text "schema_version", text "event_type", text "origin", text "normalized",
      text "ingested_at_ms", text "payload"]

/-- What the builder leaves to be checked. -/
theorem envelopeScheme_build (payload : Json) (context : EnvelopeContext) :
    envelopeScheme (.obj (envelopeV1Builder.build payload context)) =
      (textScheme context.origin && decide (0 ≤ context.ingestedAtMs) && anyObject payload) := by
  have hminimum : minimumScheme 0 (.int context.ingestedAtMs) = decide (0 ≤ context.ingestedAtMs) := by
    simp [minimumScheme, numberOf]
  have hrequired : [text "schema_version", text "event_type", text "origin", text "normalized",
      text "ingested_at_ms", text "payload"].all
        (Dict.contains (envelopeV1Builder.build payload context)) = true := rfl
  simp only [envelopeScheme, objectScheme, hrequired, Bool.and_true]
  simp [envelopeV1Builder, envelopeProperties, text, constScheme, textScheme, booleanScheme,
    integerScheme, hminimum, Bool.and_assoc]

/-! ## The payload -/

section Published

variable [Runtime] {self : UdpServer} {decoded : Str}

/-- What is validated was read from the text. -/
theorem loads_validated {cleaned : Str} {v : Json} {origin : Str}
    (h : self.validated cleaned = .ok (v, origin)) : loads cleaned = .ok v := by
  cases hloads : loads cleaned with
  | ok w => rw [validated_eq hloads h]
  | error exc =>
    unfold UdpServer.validated at h
    split at h
    · rw [hloads] at h
      cases h
    · cases exc <;> simp [Validator.getValidatedObject, hloads] at h

/-- The cleaned text is an object exactly if the text is one. -/
theorem cleaned_object_iff {cleaned : Str} {v : Json} (hcleaned : stripTraceFromString decoded = .ok cleaned)
    (hv : loads cleaned = .ok v) : anyObject v = true ↔ ∃ obj, loads decoded = .ok (.obj obj) := by
  constructor
  · intro hobject
    by_contra hnone
    have hsame : cleaned = decoded := by
      unfold stripTraceFromString at hcleaned
      split at hcleaned
      · rename_i obj hobj
        exact absurd ⟨obj, hobj⟩ hnone
      · exact (Except.ok.inj hcleaned).symm
      · exact (Except.ok.inj hcleaned).symm
      · exact (Except.ok.inj hcleaned).symm
      · cases hcleaned
    rw [hsame] at hv
    cases v <;> simp [anyObject] at hobject
    exact hnone ⟨_, hv⟩
  · rintro ⟨obj, hobj⟩
    obtain ⟨cleaned', hcleaned', hread⟩ := loads_cleaned hobj
    rw [hcleaned] at hcleaned'
    rw [← Except.ok.inj hcleaned', hv] at hread
    rw [Except.ok.inj hread]
    rfl

/-- Whether the payload will be an object can be told from the text. -/
def UdpServer.ObjectPayload (self : UdpServer) (decoded : Str) : Prop :=
  self.jsonNormalizer ≠ none ∨
    (∃ parser e, self.parser = some parser ∧ parser.parseMessage decoded = .ok (.ok e)) ∨
    ∃ obj, loads decoded = .ok (.obj obj)

/-- The payload is one that can be printed and read back, and the headers name an origin. -/
structure Payload (server : UdpServer) (decoded : Str) (payload : Json) (headers : Headers) :
    Prop where
  wellKeyed : WellKeyed payload
  object : anyObject payload = true ↔ server.ObjectPayload decoded
  origin : ∃ origin, headers.get? (text "origin") = some origin

theorem payload_of_normalizeJsonPayload {headers headers' : Headers} {clock : Clock} {payload : Json}
    (hunread : ∀ parser e, self.parser = some parser → parser.parseMessage decoded ≠ .ok (.ok e))
    (h : self.normalizeJsonPayload decoded headers clock = .ok (payload, headers')) :
    Payload self decoded payload headers' := by
  simp only [UdpServer.normalizeJsonPayload, bind_eq_ok, Prod.exists] at h
  obtain ⟨cleaned, hcleaned, v, origin, hvalidated, h⟩ := h
  have hv := loads_validated hvalidated
  cases hnormalizer : self.jsonNormalizer with
  | none =>
    simp only [hnormalizer, Except.ok.injEq, Prod.mk.injEq] at h
    obtain ⟨rfl, rfl⟩ := h
    refine ⟨wellKeyed_of_decode (decodeDocument_of_loads hv), ?_, origin, by simp [Dict.get?_set]⟩
    rw [cleaned_object_iff hcleaned hv, UdpServer.ObjectPayload]
    simp only [hnormalizer, ne_eq, not_true_eq_false, false_or]
    refine ⟨.inr, fun h => h.resolve_left ?_⟩
    rintro ⟨parser, e, hparser, hparsed⟩
    exact hunread parser e hparser hparsed
  | some normalizer =>
    simp only [hnormalizer, bind_eq_ok] at h
    obtain ⟨r, -, h⟩ := h
    cases r with
    | none => cases h
    | some e =>
      obtain ⟨rfl, rfl⟩ := Prod.mk.inj (Except.ok.inj h)
      exact ⟨wellKeyed_asdict e, by simp [anyObject, UdpServer.ObjectPayload, hnormalizer], origin,
        by simp [Dict.get?_set, text]⟩

theorem payload_of_processDatagram {data : Bytes} {headers headers' : Headers} {clock : Clock}
    {payload : Json} (h : self.processDatagram data headers clock = .ok (payload, headers')) :
    ∃ decoded, decodeUtf8 false data = some decoded ∧ Payload self decoded payload headers' := by
  cases hparser : self.parser with
  | some parser =>
    obtain ⟨decoded, hdecoded, hread | hunread⟩ := processDatagram_ok hparser h
    · obtain ⟨e, hparsed, rfl, rfl⟩ := hread
      refine ⟨decoded, hdecoded, wellKeyed_asdict e, ?_, text "ls-1000", by simp [Dict.get?_set, text]⟩
      simp only [anyObject, true_iff]
      exact .inr (.inl ⟨parser, e, hparser, hparsed⟩)
    · obtain ⟨rejected, hparsed, hnormalized⟩ := hunread
      refine ⟨decoded, hdecoded, payload_of_normalizeJsonPayload ?_ hnormalized⟩
      intro parser' e hparser' hparsed'
      obtain rfl := Option.some.inj (hparser.symm.trans hparser')
      cases hparsed.symm.trans hparsed'
  | none =>
    unfold UdpServer.processDatagram at h
    split at h
    · cases h
    · rename_i decoded hdecoded
      simp only [UdpServer.tryParseLs1000, hparser] at h
      refine ⟨decoded, hdecoded, payload_of_normalizeJsonPayload ?_ h⟩
      simp [hparser]

/-! ## What is published -/

/-- A message is read back as an envelope, and it says from the datagram alone whether the
envelope is valid. -/
theorem prepare_fits_iff (hregistry : self.envelopeRegistry = defaultEnvelopeRegistry) {d : Datagram}
    {message : Bytes} {headers : Headers} (h : self.prepare d = .ok (message, headers)) :
    ∃ decoded envelope, decodeUtf8 false d.data = some decoded ∧ loadsBytes message = .ok envelope ∧
      (envelopeScheme envelope = true ↔ 0 ≤ d.clock.envelope ∧ self.ObjectPayload decoded) := by
  simp only [UdpServer.prepare, UdpServer.envelopeOf, bind_eq_ok, Prod.exists, Except.ok.injEq,
    Prod.mk.injEq] at h
  obtain ⟨_, _, ⟨payload, headers', hprocess, envelope, hbuild, rfl, rfl⟩, _, hmessage, rfl, rfl⟩ := h
  obtain ⟨decoded, hdecoded, hpayload⟩ := payload_of_processDatagram hprocess
  cases hbuilder : self.envelopeRegistry.get self.envelopeVersion with
  | error exc =>
    rw [UdpServer.buildEnvelope, hbuilder] at hbuild
    cases hbuild
  | ok builder =>
    rw [UdpServer.buildEnvelope, hbuilder] at hbuild
    rw [hregistry] at hbuilder
    obtain rfl := builder_of_default hbuilder
    obtain rfl := Except.ok.inj hbuild
    have horigin : textScheme (UdpServer.originOf payload headers') = true := by
      obtain ⟨origin, horigin⟩ := hpayload.origin
      cases payload <;> simp [UdpServer.originOf, horigin, textScheme]
    have hread := loadsBytes_serialized (by simp [envelopeV1Builder])
      (wellKeyed_build hpayload.wellKeyed (wellKeyed_originOf hpayload.wellKeyed headers')) hmessage
    refine ⟨decoded, _, hdecoded, hread, ?_⟩
    rw [envelopeScheme_build, horigin, Bool.true_and, Bool.and_eq_true, decide_eq_true_iff,
      hpayload.object]

/-- Whatever a server is configured with and however its publisher fails: every message that
it passes to the publisher is read back as an envelope, which is valid under the schema
exactly if the clock is not before 1970 and there is a normaliser, or the parser has read the
datagram, or the datagram is an object. -/
theorem published_fits_iff {σ : Type} (server : UdpServer)
    (hregistry : server.envelopeRegistry = defaultEnvelopeRegistry) (out : Outside σ)
    (incoming : List Received) (w : World σ) :
    ∃ calls : List (List Call),
      (serveForever server out incoming w).calls = w.calls ++ calls.flatten ∧
        List.Forall₂ (fun d calls => ∀ topic message, (topic, message) ∈ publications calls →
          ∃ decoded envelope, decodeUtf8 false d.data = some decoded ∧
            loadsBytes message = .ok envelope ∧
            (envelopeScheme envelope = true ↔
              0 ≤ d.clock.envelope ∧ server.ObjectPayload decoded)) (datagrams incoming) calls := by
  obtain ⟨calls, hcalls, hall⟩ := serveForever_outcomes server out incoming w
  refine ⟨calls, hcalls, hall.imp ?_⟩
  intro d calls houtcome topic message hmem
  cases houtcome with
  | rejected => simp [publications] at hmem
  | published hprepare | unpublished hprepare =>
    simp only [publications, List.filterMap_cons, List.filterMap_nil, List.mem_singleton,
      Prod.mk.injEq] at hmem
    obtain ⟨rfl, rfl⟩ := hmem
    exact prepare_fits_iff hregistry hprepare

end Published

section Examples

attribute [local instance] asciiRuntime

/-- A server that takes what it receives as it is. -/
def bareServer : UdpServer :=
  { startUdp schemeErrors with
    validator := none
    parser := none
    jsonNormalizer := none }

/-- It publishes an array in an envelope that is not valid. -/
theorem published_fits_iff_bare : ∃ topic message envelope,
    (topic, message) ∈ publications
      (serveForever bareServer quiet [.datagram (datagramOf (text "[]"))] ⟨(), []⟩).calls ∧
    loadsBytes message = .ok envelope ∧ envelopeScheme envelope = false := by
  obtain ⟨calls, hcalls, hall⟩ := published_fits_iff bareServer rfl quiet
    [.datagram (datagramOf (text "[]"))] ⟨(), []⟩
  obtain ⟨⟨topic, message⟩, hone⟩ : ∃ p, publications
      (serveForever bareServer quiet [.datagram (datagramOf (text "[]"))] ⟨(), []⟩).calls = [p] :=
    List.length_eq_one_iff.mp (by decide +kernel)
  rw [hcalls] at hone ⊢
  simp only [datagrams, List.forall₂_cons_left_iff, List.forall₂_nil_left_iff] at hall
  obtain ⟨first, _, hfits, rfl, rfl⟩ := hall
  have hmem : (topic, message) ∈ publications first := by
    rw [List.flatten_singleton, List.nil_append] at hone
    simp [hone]
  obtain ⟨decoded, envelope, hdecoded, hread, hiff⟩ := hfits topic message hmem
  refine ⟨topic, message, envelope, by rw [hone]; exact List.mem_singleton_self _, hread, ?_⟩
  have hdecoded' : decodeUtf8 false (datagramOf (text "[]")).data = some (text "[]") := by
    decide +kernel
  obtain rfl := Option.some.inj (hdecoded.symm.trans hdecoded')
  rw [Bool.eq_false_iff, ne_eq, hiff]
  rintro ⟨-, hnormalizer | ⟨_, _, hparser, -⟩ | ⟨obj, hobj⟩⟩
  · exact hnormalizer rfl
  · cases hparser
  · have harray : loads (text "[]") = .ok (.arr []) := by decide +kernel
    cases harray.symm.trans hobj

end Examples

end RtlsStream.Receiver
