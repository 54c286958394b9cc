/-
  Receiver/Published.lean --- the event behind what the server of `start_udp` publishes.

  A text has an event in one of two ways (`EventOf`): the parser reads it, or the
  parser rejects it, it is an object the schema accepts once the trace keys are
  gone, and the normaliser reads that object.  Every envelope that is built is the
  envelope of such an event (`envelopeOf_iff`), and its message decodes to the very
  same envelope (`loadsBytes_message`).
-/
import RtlsStream.Python.Encodable
import RtlsStream.Receiver.Accepted

set_option autoImplicit false

namespace RtlsStream.Receiver

open RtlsStream.Foundation RtlsStream.Python RtlsStream.StreamHandler

/-! ## Trace keys -/

theorem stripTraceKeys_sublist (obj : Dict Json) : (stripTraceKeys obj).Sublist obj := by
  simp only [stripTraceKeys, traceKeys, List.foldl_cons, List.foldl_nil, Dict.pop_eq_filter]
  exact List.filter_sublist.trans List.filter_sublist

theorem get?_stripTraceKeys {obj : Dict Json} {key : Str} (h : key ∉ traceKeys) :
    (stripTraceKeys obj).get? key = obj.get? key := by
  simp only [traceKeys, List.mem_cons, List.not_mem_nil, or_false, not_or] at h
  simp only [stripTraceKeys, traceKeys, List.foldl_cons, List.foldl_nil, Dict.get?_pop,
    if_neg (Ne.symm h.1), if_neg (Ne.symm h.2)]

theorem wellKeyed_stripTraceKeys {obj : Dict Json} (h : WellKeyed (.obj obj)) :
    WellKeyed (.obj (stripTraceKeys obj)) := by
  have hsub := stripTraceKeys_sublist obj
  refine ⟨h.1.sublist (hsub.map _), wellKeyedMembers_iff.mpr ?_⟩
  intro m hm
  exact wellKeyedMembers_iff.mp h.2 m (hsub.subset hm)

theorem stripTraceKeys_eq {obj : Dict Json} (h : ∀ key ∈ traceKeys, obj.get? key = none) :
    stripTraceKeys obj = obj := by
  have hkeep : ∀ key ∈ traceKeys, obj.pop key = obj := by
    intro key hkey
    rw [Dict.pop_eq_filter, List.filter_eq_self]
    intro m hm
    simp only [ne_eq, decide_not, Bool.not_eq_eq_eq_not, Bool.not_true, decide_eq_false_iff_not]
    rintro rfl
    have hnone := h m.1 hkey
    simp only [Dict.get?, Option.map_eq_none_iff, List.find?_eq_none] at hnone
    exact hnone m hm (by simp)
  simp only [stripTraceKeys, traceKeys, List.foldl_cons, List.foldl_nil]
  rw [hkeep _ (by simp [traceKeys]), hkeep _ (by simp [traceKeys])]

variable [Runtime]

/-- An object is read the same from the stripped text. -/
theorem loads_strip {s : Str} {obj : Dict Json} (h : loads s = .ok (.obj obj)) :
    (strip s).head? = some 123 ∧ loads (strip s) = .ok (.obj obj) := by
  have hdecode := decodeDocument_of_loads h
  obtain ⟨t, hbrace⟩ := strip_of_decode_obj hdecode
  have hraw := decodeDocument_strip hdecode
  rw [hbrace] at hraw ⊢
  exact ⟨rfl, by rw [loads, if_neg (by simp), hraw]⟩

/-- A text that is an object is read as one by the parser. -/
theorem parseMessage_of_loads (parser : LS1000Parser) {decoded : Str} {obj : Dict Json}
    (h : loads decoded = .ok (.obj obj)) :
    parser.parseMessage decoded = LS1000Parser.parseObject decoded obj := by
  obtain ⟨hbrace, hraw⟩ := loads_strip h
  have hne : strip decoded ≠ [] := by
    intro hnil
    rw [hnil] at hbrace
    cases hbrace
  simp only [LS1000Parser.parseMessage, if_neg hne, if_pos hbrace, LS1000Parser.parseJson, hraw,
    asDict, Except.bind]

/-- Without the trace keys an object is printed, and read back. -/
theorem loads_cleaned {decoded : Str} {obj : Dict Json} (h : loads decoded = .ok (.obj obj)) :
    ∃ cleaned, stripTraceFromString decoded = .ok cleaned ∧
      loads cleaned = .ok (.obj (stripTraceKeys obj)) := by
  have hdecode := decodeDocument_of_loads h
  obtain ⟨depth, hdepth⟩ : ∃ depth, Runtime.jsonDepth = depth + 1 :=
    Nat.exists_eq_add_of_lt (Nat.zero_lt_of_lt Runtime.jsonDepth_ge) |>.imp fun _ h => by omega
  have hdumpable : Dumpable compact Runtime.jsonDepth (.obj (stripTraceKeys obj)) := by
    have hall : Dumpable compact Runtime.jsonDepth (.obj obj) := dumpable_of_decodeDocument hdecode
    rw [hdepth, dumpable_obj] at hall ⊢
    exact fun m hm => hall m ((stripTraceKeys_sublist obj).subset hm)
  obtain ⟨cleaned, hcleaned⟩ := hdumpable
  refine ⟨cleaned, ?_, loads_dumps (wellKeyed_stripTraceKeys (wellKeyed_of_decode hdecode)) hcleaned⟩
  simp only [stripTraceFromString, h]
  exact hcleaned

/-! ## The event of a datagram -/

omit [Runtime] in
/-- The normaliser of `start_udp`. -/
abbrev startNormalizer : JsonStreamNormalizer := ⟨settingsOrigin⟩

/-- The event the server of `start_udp` gets from a decoded datagram. -/
inductive EventOf (decoded : Str) (now : Int) : NormalizedEvent → Prop
  | parser {e : NormalizedEvent} :
      LS1000Parser.parseMessage ⟨⟩ decoded = .ok (.ok e) → EventOf decoded now e
  | normalizer {rejected : ParseError} {obj : Dict Json} {tag : Str} {e : NormalizedEvent} :
      LS1000Parser.parseMessage ⟨⟩ decoded = .ok (.error rejected) →
      loads decoded = .ok (.obj obj) → scheme (.obj (stripTraceKeys obj)) →
      firstStr (stripTraceKeys obj) tagKeys = .ok (some tag) →
      startNormalizer.eventOf (stripTraceKeys obj) decoded now tag = .ok e →
      EventOf decoded now e

omit [Runtime] in
/-- The envelope of an event. -/
def eventEnvelope (ingestedAtMs : Int) (e : NormalizedEvent) : Dict Json :=
  envelopeV1Builder.build (.obj (asdict e)) {
    schemaVersion := text "1.0"
    eventType := text "position"
    origin := .str settingsOrigin
    normalized := true
    ingestedAtMs := ingestedAtMs }

omit [Runtime] in
/-- Whichever of the two read the event, it is wrapped the same way. -/
theorem buildEnvelope_event (iterErrors : IterErrors) {headers : Headers}
    (horigin : headers.get? (text "origin") = some settingsOrigin) (e : NormalizedEvent)
    (clock : Clock) :
    (startUdp iterErrors).buildEnvelope (.obj (asdict e)) headers clock =
      .ok (eventEnvelope clock.envelope e) := by
  have hregistry : (startUdp iterErrors).envelopeRegistry.get
      (startUdp iterErrors).envelopeVersion = .ok envelopeV1Builder := rfl
  have hnormalized : UdpServer.isNormalized (.obj (asdict e)) = true := rfl
  simp only [UdpServer.buildEnvelope, hregistry, UdpServer.originOf, horigin, hnormalized,
    Except.map]
  rfl

variable {iterErrors : IterErrors}

/-- What the validator accepts is an object without trace keys, and the schema accepts it. -/
theorem validated_ok_iff (hvalid : Validates iterErrors) {decoded cleaned : Str}
    (hcleaned : stripTraceFromString decoded = .ok cleaned) {v : Json} {origin : Str} :
    (startUdp iterErrors).validated cleaned = .ok (v, origin) ↔
      origin = settingsOrigin ∧ ∃ obj, loads decoded = .ok (.obj obj) ∧
        v = .obj (stripTraceKeys obj) ∧ scheme v := by
  have hvalidated : (startUdp iterErrors).validated cleaned = .ok (v, origin) ↔
      origin = settingsOrigin ∧ loads cleaned = .ok v ∧ scheme v := by
    simp only [UdpServer.validated, startUdp, Validator.getValidatedObject, ← hvalid v]
    cases hloads : loads cleaned with
    | error e => cases e <;> simp
    | ok w =>
      simp only [Except.ok.injEq]
      cases herrors : iterErrors w with
      | error e =>
        simp only [reduceCtorEq, false_iff, not_and]
        rintro - rfl
        simp [herrors]
      | ok errors =>
        cases errors with
        | nil =>
          simp only [Except.ok.injEq, Prod.mk.injEq]
          constructor
          · rintro ⟨rfl, rfl⟩
            exact ⟨rfl, rfl, herrors⟩
          · rintro ⟨rfl, rfl, -⟩
            exact ⟨rfl, rfl⟩
        | cons first others =>
          simp only [reduceCtorEq, false_iff, not_and]
          rintro - rfl
          simp [herrors]
  rw [hvalidated]
  constructor
  · rintro ⟨horigin, hloads, hscheme⟩
    refine ⟨horigin, ?_⟩
    obtain ⟨obj, rfl⟩ := obj_of_accepted hscheme
    cases hdecoded : loads decoded with
    | error e =>
      have hsame : cleaned = decoded := by
        simp only [stripTraceFromString, hdecoded] at hcleaned
        cases e <;> simp_all
      rw [hsame, hdecoded] at hloads
      cases hloads
    | ok w =>
      cases w with
      | obj original =>
        obtain ⟨cleaned', hcleaned', hloads'⟩ := loads_cleaned hdecoded
        obtain rfl := Except.ok.inj (hcleaned'.symm.trans hcleaned)
        obtain rfl := Json.obj.inj (Except.ok.inj (hloads'.symm.trans hloads))
        exact ⟨original, rfl, rfl, hscheme⟩
      | null | bool | int | float | str | arr =>
        simp only [stripTraceFromString, hdecoded, Except.ok.injEq] at hcleaned
        rw [← hcleaned, hdecoded] at hloads
        cases hloads
  · rintro ⟨horigin, obj, hloads, rfl, hscheme⟩
    obtain ⟨cleaned', hcleaned', hloads'⟩ := loads_cleaned hloads
    obtain rfl := Except.ok.inj (hcleaned'.symm.trans hcleaned)
    exact ⟨horigin, hloads', hscheme⟩

/-- The second way to an event. -/
theorem normalizeJsonPayload_ok_iff (hvalid : Validates iterErrors) {decoded : Str}
    {headers : Headers} {clock : Clock} {payload : Json} {headers' : Headers} :
    (startUdp iterErrors).normalizeJsonPayload decoded headers clock = .ok (payload, headers') ↔
      ∃ obj tag e, loads decoded = .ok (.obj obj) ∧ scheme (.obj (stripTraceKeys obj)) ∧
        firstStr (stripTraceKeys obj) tagKeys = .ok (some tag) ∧
        startNormalizer.eventOf (stripTraceKeys obj) decoded clock.normalizer tag = .ok e ∧
        payload = .obj (asdict e) ∧
        headers' = (headers.set (text "origin") settingsOrigin).set (text "parser")
          (text "json-normalizer") := by
  have hnormalizer : (startUdp iterErrors).jsonNormalizer = some startNormalizer := rfl
  simp only [UdpServer.normalizeJsonPayload, bind_eq_ok, hnormalizer, Prod.exists]
  constructor
  · rintro ⟨cleaned, hcleaned, v, origin, hvalidated, r, hr, hresult⟩
    obtain ⟨rfl, obj, hloads, rfl, hscheme⟩ := (validated_ok_iff hvalid hcleaned).mp hvalidated
    cases r with
    | none => cases hresult
    | some e =>
      obtain ⟨_, tag, hobj, htag, he⟩ := JsonStreamNormalizer.normalize_ok hr
      obtain rfl := Json.obj.inj hobj
      obtain ⟨rfl, rfl⟩ := Prod.mk.inj (Except.ok.inj hresult)
      exact ⟨obj, tag, e, hloads, hscheme, htag, JsonStreamNormalizer.eventOf_eq_ok.mpr he, rfl,
        rfl⟩
  · rintro ⟨obj, tag, e, hloads, hscheme, htag, he, rfl, rfl⟩
    obtain ⟨cleaned, hcleaned, -⟩ := loads_cleaned hloads
    refine ⟨cleaned, hcleaned, .obj (stripTraceKeys obj), settingsOrigin,
      (validated_ok_iff hvalid hcleaned).mpr ⟨rfl, obj, hloads, rfl, hscheme⟩, some e, ?_, rfl⟩
    exact (JsonStreamNormalizer.normalize_eq_ok htag).mpr (JsonStreamNormalizer.eventOf_eq_ok.mp he)

/-- A server with a parser publishes what it parses; what it rejects goes on to the
normaliser. -/
theorem processDatagram_ok {server : UdpServer} {parser : LS1000Parser}
    (hparser : server.parser = some parser) {data : Bytes} {headers : Headers} {clock : Clock}
    {payload : Json} {headers' : Headers}
    (h : server.processDatagram data headers clock = .ok (payload, headers')) :
    ∃ decoded, decodeUtf8 false data = some decoded ∧
      ((∃ e, parser.parseMessage decoded = .ok (.ok e) ∧ payload = .obj (asdict e) ∧
          headers' = (headers.set (text "origin") (text "ls-1000")).set (text "parser")
            (text "ls1000")) ∨
        ∃ rejected, parser.parseMessage decoded = .ok (.error rejected) ∧
          server.normalizeJsonPayload decoded headers clock = .ok (payload, headers')) := by
  unfold UdpServer.processDatagram at h
  split at h
  · cases h
  · rename_i decoded hdecoded
    refine ⟨decoded, hdecoded, ?_⟩
    simp only [UdpServer.tryParseLs1000, hparser] at h
    cases hparsed : parser.parseMessage decoded with
    | error exc => simp [hparsed] at h
    | ok result =>
      cases result with
      | ok e =>
        simp only [hparsed, Except.ok.injEq, Prod.mk.injEq] at h
        exact Or.inl ⟨e, rfl, h.1.symm, h.2.symm⟩
      | error rejected =>
        simp only [hparsed] at h
        exact Or.inr ⟨rejected, rfl, h⟩

theorem event_of_processDatagram (hvalid : Validates iterErrors) {data : Bytes}
    {headers : Headers} {clock : Clock} {payload : Json} {headers' : Headers}
    (h : (startUdp iterErrors).processDatagram data headers clock = .ok (payload, headers')) :
    ∃ decoded e, decodeUtf8 false data = some decoded ∧ EventOf decoded clock.normalizer e ∧
      payload = .obj (asdict e) ∧ headers'.get? (text "origin") = some settingsOrigin := by
  have hparser : (startUdp iterErrors).parser = some ⟨⟩ := rfl
  obtain ⟨decoded, hdecoded, ⟨e, hparsed, rfl, rfl⟩ | ⟨rejected, hparsed, hnormalized⟩⟩ :=
    processDatagram_ok hparser h
  · exact ⟨decoded, e, hdecoded, .parser hparsed, rfl,
      by simp [Dict.get?_set, settingsOrigin, text]⟩
  · obtain ⟨obj, tag, e, hloads, hscheme, htag, he, rfl, rfl⟩ :=
      (normalizeJsonPayload_ok_iff hvalid).mp hnormalized
    exact ⟨decoded, e, hdecoded, .normalizer hparsed hloads hscheme htag he, rfl,
      by simp [Dict.get?_set, text]⟩

theorem processDatagram_of_event (hvalid : Validates iterErrors) {data : Bytes} {decoded : Str}
    (hdecoded : decodeUtf8 false data = some decoded) (headers : Headers) {clock : Clock}
    {e : NormalizedEvent} (h : EventOf decoded clock.normalizer e) :
    ∃ headers', (startUdp iterErrors).processDatagram data headers clock =
      .ok (.obj (asdict e), headers') ∧ headers'.get? (text "origin") = some settingsOrigin := by
  have hparser : (startUdp iterErrors).parser = some ⟨⟩ := rfl
  simp only [UdpServer.processDatagram, hdecoded, UdpServer.tryParseLs1000, hparser]
  cases h with
  | parser hparsed =>
    simp only [hparsed]
    exact ⟨_, rfl, by simp [Dict.get?_set, settingsOrigin, text]⟩
  | normalizer hparsed hloads hscheme htag he =>
    simp only [hparsed]
    exact ⟨_, (normalizeJsonPayload_ok_iff hvalid).mpr
      ⟨_, _, _, hloads, hscheme, htag, he, rfl, rfl⟩, by simp [Dict.get?_set, text]⟩

/-- The envelopes the server builds are those of events. -/
theorem envelopeOf_iff (hvalid : Validates iterErrors) {d : Datagram} {envelope : Dict Json} :
    (∃ headers, (startUdp iterErrors).envelopeOf d = .ok (envelope, headers)) ↔
      ∃ decoded e, decodeUtf8 false d.data = some decoded ∧
        EventOf decoded d.clock.normalizer e ∧ envelope = eventEnvelope d.clock.envelope e := by
  simp only [UdpServer.envelopeOf, bind_eq_ok, Prod.exists, Except.ok.injEq, Prod.mk.injEq]
  constructor
  · rintro ⟨headers, payload, headers', hprocess, envelope', hbuild, rfl, -⟩
    obtain ⟨decoded, e, hdecoded, hevent, rfl, horigin⟩ := event_of_processDatagram hvalid hprocess
    rw [buildEnvelope_event _ horigin] at hbuild
    exact ⟨decoded, e, hdecoded, hevent, (Except.ok.inj hbuild).symm⟩
  · rintro ⟨decoded, e, hdecoded, hevent, rfl⟩
    obtain ⟨headers, hprocess, horigin⟩ :=
      processDatagram_of_event hvalid hdecoded (UdpServer.initialHeaders d) hevent
    exact ⟨headers, _, headers, hprocess, _, buildEnvelope_event _ horigin e d.clock, rfl, rfl⟩

/-! ## The message of an event -/

omit [Runtime] in
theorem wellKeyed_ofOption {α : Type} {f : α → Json} (hf : ∀ a, WellKeyed (f a)) (o : Option α) :
    WellKeyed (.ofOption f o) := by
  cases o with
  | none => trivial
  | some a => exact hf a

omit [Runtime] in
theorem PyInt.wellKeyed (n : PyInt) : WellKeyed n.json := by
  cases n <;> trivial

omit [Runtime] in
theorem wellKeyed_asdict (e : NormalizedEvent) : WellKeyed (.obj (asdict e)) := by
  have hfloat : ∀ o : Option Binary64, WellKeyed (.ofOption .float o) :=
    wellKeyed_ofOption fun _ => trivial
  have hstr : ∀ o : Option Str, WellKeyed (.ofOption .str o) := wellKeyed_ofOption fun _ => trivial
  have hwarnings : WellKeyed (.arr (e.parseWarnings.map .str)) := by
    refine wellKeyedItems_iff.mpr ?_
    intro v hv
    obtain ⟨s, -, rfl⟩ := List.mem_map.mp hv
    trivial
  refine ⟨by simp [Dict.Distinct, asdict, text], ?_⟩
  simp only [asdict, WellKeyedMembers, hfloat, hstr, PyInt.wellKeyed,
    wellKeyed_ofOption PyInt.wellKeyed, hwarnings, and_true]
  trivial

omit [Runtime] in
theorem wellKeyed_build {payload : Json} {context : EnvelopeContext} (hpayload : WellKeyed payload)
    (horigin : WellKeyed context.origin) :
    WellKeyed (.obj (envelopeV1Builder.build payload context)) := by
  refine ⟨by simp [Dict.Distinct, envelopeV1Builder, text], ?_⟩
  simp only [envelopeV1Builder, WellKeyedMembers, hpayload, horigin, and_true]
  trivial

omit [Runtime] in
theorem wellKeyed_eventEnvelope (now : Int) (e : NormalizedEvent) :
    WellKeyed (.obj (eventEnvelope now e)) :=
  wellKeyed_build (wellKeyed_asdict e) trivial

/-- What is published is read back as the envelope it was made of. -/
theorem loadsBytes_serialized {envelope : Dict Json} {message : Bytes} (hne : envelope ≠ [])
    (hkeys : WellKeyed (.obj envelope))
    (h : UdpServer.serializeMessage envelope = .ok message) :
    loadsBytes message = .ok (.obj envelope) := by
  unfold UdpServer.serializeMessage at h
  split at h
  · cases h
  · rename_i t hdump
    split at h
    · cases h
    · rename_i m hencode
      obtain rfl := Except.ok.inj h
      exact loadsBytes_dumps hne hkeys hdump hencode

/-- What is published, and what the consumer reads from it. -/
theorem loadsBytes_message {e : NormalizedEvent} {now : Int} {message : Bytes}
    (h : UdpServer.serializeMessage (eventEnvelope now e) = .ok message) :
    loadsBytes message = .ok (.obj (eventEnvelope now e)) :=
  loadsBytes_serialized (by simp [eventEnvelope, envelopeV1Builder]) (wellKeyed_eventEnvelope now e)
    h

omit [Runtime] in
/-- An event whose texts can be encoded. -/
structure EncodableEvent (e : NormalizedEvent) : Prop where
  origin : IsEncodable e.origin
  tagId : IsEncodable e.tagId
  area : ∀ s ∈ e.area, IsEncodable s
  status : ∀ s ∈ e.status, IsEncodable s
  sourceType : IsEncodable e.sourceType
  rawMessage : IsEncodable e.rawMessage
  parseWarnings : ∀ s ∈ e.parseWarnings, IsEncodable s

omit [Runtime] in
/-- The keys of a payload are those of the dataclass. -/
theorem keys_asdict (e : NormalizedEvent) : ∀ key ∈ (asdict e).map (·.1), IsEncodable key := by
  have hkeys : (asdict e).map (·.1) =
      [text "origin", text "tag_id", text "ts_utc_ms", text "x", text "y", text "z", text "layer",
        text "area", text "status", text "source_type", text "raw_message", text "lng", text "lat",
        text "parse_warnings"] := rfl
  rw [hkeys]
  decide

omit [Runtime] in
theorem EncodableEvent.envelope {e : NormalizedEvent} (h : EncodableEvent e) (now : Int) :
    EncodableJson (.obj (eventEnvelope now e)) := by
  have hint : ∀ n : PyInt, EncodableJson n.json := by
    intro n
    cases n <;> trivial
  have hlayer : EncodableJson (.ofOption PyInt.json e.layer) := by
    cases e.layer with
    | none => trivial
    | some n => exact hint n
  have hfloat : ∀ o : Option Binary64, EncodableJson (.ofOption .float o) := by
    intro o
    cases o <;> trivial
  have hstr : ∀ o : Option Str, (∀ s ∈ o, IsEncodable s) → EncodableJson (.ofOption .str o) := by
    intro o ho
    cases o with
    | none => trivial
    | some s => exact ho s rfl
  have hwarnings : EncodableItems (e.parseWarnings.map .str) := by
    refine encodableItems_iff.mpr ?_
    intro v hv
    obtain ⟨s, hs, rfl⟩ := List.mem_map.mp hv
    exact h.parseWarnings s hs
  have hpayload : EncodableJson (.obj (asdict e)) := by
    refine encodableMembers_iff.mpr ⟨keys_asdict e, ?_⟩
    simp only [asdict, List.forall_mem_cons]
    exact ⟨h.origin, h.tagId, hint _, hfloat _, hfloat _, hfloat _, hlayer, hstr _ h.area,
      hstr _ h.status, h.sourceType, h.rawMessage, hfloat _, hfloat _, hwarnings, by simp⟩
  have hkeys : (eventEnvelope now e).map (·.1) =
      [text "schema_version", text "event_type", text "origin", text "normalized",
        text "ingested_at_ms", text "payload"] := rfl
  refine encodableMembers_iff.mpr ⟨by rw [hkeys]; decide, ?_⟩
  simp only [eventEnvelope, envelopeV1Builder, List.forall_mem_cons]
  exact ⟨show IsEncodable _ by decide, show IsEncodable _ by decide, show IsEncodable _ by decide,
    trivial, trivial, hpayload, by simp⟩

/-- A message is made of every envelope that can be printed and encoded. -/
theorem serializeMessage_ok_iff {envelope : Dict Json} :
    (∃ message, UdpServer.serializeMessage envelope = .ok message) ↔
      Dumpable compact Runtime.jsonDepth (.obj envelope) ∧ EncodableJson (.obj envelope) := by
  unfold UdpServer.serializeMessage
  constructor
  · rintro ⟨message, h⟩
    split at h
    · cases h
    · rename_i t hdump
      split at h
      · cases h
      · rename_i m hencode
        have ht : IsEncodable t := encodeUtf8_isSome.mp (by simp [hencode])
        exact ⟨⟨t, hdump⟩, encodableJson_of_dump hdump ht⟩
  · rintro ⟨⟨t, ht⟩, hencodable⟩
    obtain ⟨message, hmessage⟩ := Option.isSome_iff_exists.mp
      (encodeUtf8_isSome.mpr (encodable_of_dump hencodable ht))
    have hdumps : dumps compact (.obj envelope) = .ok t := ht
    exact ⟨message, by simp only [hdumps, hmessage]⟩

/-- An event whose texts can be encoded and whose integers can be written is serialised. -/
theorem serializeMessage_event {e : NormalizedEvent} {now : Int} (hencodable : EncodableEvent e)
    (hnow : Dumpable compact 0 (.int now)) (hts : Dumpable compact 0 e.tsUtcMs.json)
    (hlayer : Dumpable compact 0 (.ofOption PyInt.json e.layer)) :
    ∃ message, UdpServer.serializeMessage (eventEnvelope now e) = .ok message := by
  have hroom : ∀ {v : Json} {room : Nat}, Dumpable compact 0 v → Dumpable compact room v :=
    fun h => h.mono (Nat.zero_le _)
  have hfloat : ∀ (o : Option Binary64) (room : Nat),
      Dumpable compact room (.ofOption .float o) := by
    intro o room
    cases o <;> exact ⟨_, rfl⟩
  have hstr : ∀ (o : Option Str) (room : Nat), Dumpable compact room (.ofOption .str o) := by
    intro o room
    cases o <;> exact ⟨_, rfl⟩
  have hwarnings : Dumpable compact 1 (.arr (e.parseWarnings.map .str)) := by
    refine dumpable_arr.mpr ?_
    intro v hv
    obtain ⟨s, -, rfl⟩ := List.mem_map.mp hv
    exact ⟨_, rfl⟩
  have hpayload : Dumpable compact 2 (.obj (asdict e)) := by
    refine dumpable_obj.mpr ?_
    simp only [asdict, List.forall_mem_cons]
    exact ⟨⟨_, rfl⟩, ⟨_, rfl⟩, hroom hts, hfloat _ _, hfloat _ _, hfloat _ _, hroom hlayer,
      hstr _ _, hstr _ _, ⟨_, rfl⟩, ⟨_, rfl⟩, hfloat _ _, hfloat _ _, hwarnings, by simp⟩
  have henvelope : Dumpable compact 3 (.obj (eventEnvelope now e)) := by
    refine dumpable_obj.mpr ?_
    simp only [eventEnvelope, envelopeV1Builder, List.forall_mem_cons]
    exact ⟨⟨_, rfl⟩, ⟨_, rfl⟩, ⟨_, rfl⟩, ⟨_, rfl⟩, hroom hnow, hpayload, by simp⟩
  exact serializeMessage_ok_iff.mpr
    ⟨henvelope.mono (le_trans (by decide) Runtime.jsonDepth_ge), hencodable.envelope now⟩

/-- What the server of `start_udp` publishes. -/
theorem prepare_ok_iff {iterErrors : IterErrors} (hvalid : Validates iterErrors) {d : Datagram}
    {message : Bytes} :
    (∃ headers, (startUdp iterErrors).prepare d = .ok (message, headers)) ↔
      ∃ decoded e, decodeUtf8 false d.data = some decoded ∧ EventOf decoded d.clock.normalizer e ∧
        UdpServer.serializeMessage (eventEnvelope d.clock.envelope e) = .ok message := by
  simp only [UdpServer.prepare, bind_eq_ok, Prod.exists, Except.ok.injEq, Prod.mk.injEq]
  constructor
  · rintro ⟨headers, envelope, headers', henvelope, message', hmessage, rfl, -⟩
    obtain ⟨decoded, e, hdecoded, hevent, rfl⟩ := (envelopeOf_iff hvalid).mp ⟨headers', henvelope⟩
    exact ⟨decoded, e, hdecoded, hevent, hmessage⟩
  · rintro ⟨decoded, e, hdecoded, hevent, hmessage⟩
    obtain ⟨headers, henvelope⟩ := (envelopeOf_iff hvalid).mpr ⟨decoded, e, hdecoded, hevent, rfl⟩
    exact ⟨headers, _, headers, henvelope, message, hmessage, rfl, rfl⟩

end RtlsStream.Receiver
