/-
  Receiver/TraceTransparent.lean --- a datagram with a trace context and without.

  The parser sees the trace keys and the normaliser does not, but neither reads them:
  every key that is looked up is another one (`parseObject_strip`), and what the
  normaliser is given is printed from the stripped object.  So two datagrams that
  differ in their trace keys only are processed alike under any configuration, and
  what is published differs at most in `raw_message` (`trace_transparent`).
-/
import RtlsStream.Foundation.TwoRuns
import RtlsStream.Receiver.Published

set_option autoImplicit false

namespace RtlsStream.Receiver

open RtlsStream.Foundation RtlsStream.Python RtlsStream.StreamHandler

/-! ## Events that differ in their raw message -/

/-- The same event, read from another text. -/
def Retold (rawMessage rawMessage' : Str) (e e' : NormalizedEvent) : Prop :=
  e.rawMessage = rawMessage ∧ e' = { e with rawMessage := rawMessage' }

namespace Retold

variable {rawMessage rawMessage' : Str} {e e' : NormalizedEvent}

theorem symm (h : Retold rawMessage rawMessage' e e') : Retold rawMessage' rawMessage e' e := by
  obtain ⟨rfl, rfl⟩ := h
  exact ⟨rfl, rfl⟩

/-- One member of the payload is set. -/
theorem asdict_eq (h : Retold rawMessage rawMessage' e e') :
    asdict e' = Dict.set (asdict e) (text "raw_message") (.str rawMessage') := by
  obtain ⟨rfl, rfl⟩ := h
  rfl

end Retold

section Twins

variable [Runtime]

/-! ## Readers that do not look at the trace keys -/

omit [Runtime] in
theorem firstOf_strip {α : Type} (parse : Json → Except PyError (Option α)) (obj : Dict Json)
    {keys : List Str} (hkeys : ∀ key ∈ keys, key ∉ traceKeys) :
    firstOf parse (stripTraceKeys obj) keys = firstOf parse obj keys :=
  firstOf_congr fun key hkey => get?_stripTraceKeys (hkeys key hkey)

omit [Runtime] in
theorem isLs1000Json_strip (obj : Dict Json) :
    LS1000Parser.isLs1000Json (stripTraceKeys obj) = LS1000Parser.isLs1000Json obj := by
  have hmarkers : LS1000Parser.jsonMarkers.any (stripTraceKeys obj).contains =
      LS1000Parser.jsonMarkers.any obj.contains := by
    have hother : ∀ key ∈ LS1000Parser.jsonMarkers, key ∉ traceKeys := by decide
    rw [Bool.eq_iff_iff, List.any_eq_true, List.any_eq_true]
    refine exists_congr fun key => and_congr_right fun hkey => ?_
    simp only [Dict.contains, get?_stripTraceKeys (hother key hkey)]
  unfold LS1000Parser.isLs1000Json
  rw [hmarkers, get?_stripTraceKeys (by decide), get?_stripTraceKeys (by decide)]

theorem extractXyzFromJson_strip (obj : Dict Json) :
    LS1000Parser.extractXyzFromJson (stripTraceKeys obj) = LS1000Parser.extractXyzFromJson obj := by
  have hxyz : LS1000Parser.firstXyz (stripTraceKeys obj) = LS1000Parser.firstXyz obj := by
    unfold LS1000Parser.firstXyz firstFloat
    rw [firstOf_strip _ _ (by decide), firstOf_strip _ _ (by decide), firstOf_strip _ _ (by decide)]
  unfold LS1000Parser.extractXyzFromJson
  rw [get?_stripTraceKeys (by decide), hxyz]

/-- The parser reads the same from an object with trace keys and without. -/
theorem parseObject_strip (rawMessage : Str) (obj : Dict Json) :
    LS1000Parser.parseObject rawMessage (stripTraceKeys obj) =
      LS1000Parser.parseObject rawMessage obj := by
  unfold LS1000Parser.parseObject LS1000Parser.jsonEvent firstStr firstInt firstFloat
  rw [isLs1000Json_strip, extractXyzFromJson_strip]
  iterate 7 rw [firstOf_strip _ _ (by decide)]

/-! ## Readers that do not look at the raw message -/

/-- The parser reads the same whatever the raw message is. -/
theorem parseObject_both (rawMessage rawMessage' : Str) (obj : Dict Json) :
    Both (Both (Retold rawMessage rawMessage')) (LS1000Parser.parseObject rawMessage obj)
      (LS1000Parser.parseObject rawMessage' obj) := by
  have hevent : ∀ tagId ts, Both (Both (Retold rawMessage rawMessage'))
      (LS1000Parser.jsonEvent rawMessage obj tagId ts)
      (LS1000Parser.jsonEvent rawMessage' obj tagId ts) := by
    intro tagId ts
    unfold LS1000Parser.jsonEvent
    refine .bind_same _ fun p => .bind_same _ fun lng => .bind_same _ fun lat => ?_
    refine .bind_same _ fun layer => .bind_same _ fun status => .bind_same _ fun area => ?_
    exact show Retold _ _ _ _ from ⟨rfl, rfl⟩
  unfold LS1000Parser.parseObject
  split
  · trivial
  · cases firstStr obj tagKeys with
    | error e => trivial
    | ok tag =>
      cases tag with
      | none => trivial
      | some tagId =>
        cases firstInt true obj tsKeys with
        | error e => trivial
        | ok ts =>
          cases ts with
          | none => trivial
          | some ts => exact hevent tagId ts

theorem normalize_both (self : JsonStreamNormalizer) (v : Json) (rawMessage rawMessage' : Str)
    (now : Int) :
    Both (Option.Rel (Retold rawMessage rawMessage')) (self.normalize v rawMessage now)
      (self.normalize v rawMessage' now) := by
  have hevent : ∀ obj tagId, Both (Retold rawMessage rawMessage')
      (self.eventOf obj rawMessage now tagId) (self.eventOf obj rawMessage' now tagId) := by
    intro obj tagId
    unfold JsonStreamNormalizer.eventOf
    refine .bind_same _ fun ts => .bind_same _ fun p => .bind_same _ fun lng => ?_
    refine .bind_same _ fun lat => .bind_same _ fun layer => .bind_same _ fun area => ?_
    exact .bind_same _ fun status => show Retold _ _ _ _ from ⟨rfl, rfl⟩
  unfold JsonStreamNormalizer.normalize
  refine .bind_same _ fun obj => .bind_same _ fun tag => ?_
  cases tag with
  | none => exact Option.Rel.none
  | some tagId => exact (hevent obj tagId).map fun _ _ => Option.Rel.some

/-! ## Two datagrams -/

/-- JSON objects that are the same once the trace keys are gone, processed at the same
readings of the clock. -/
structure TraceTwins (d d' : Datagram) : Prop where
  clock : d.clock = d'.clock
  objects : ∃ decoded obj decoded' obj', decodeUtf8 false d.data = some decoded ∧
    loads decoded = .ok (.obj obj) ∧ decodeUtf8 false d'.data = some decoded' ∧
    loads decoded' = .ok (.obj obj') ∧ stripTraceKeys obj = stripTraceKeys obj'

/-- What becomes of the two: the same object, or two events that differ in the text they
were read from. -/
inductive PayloadTwins (self : UdpServer) : Json → Json → Prop
  | same {obj : Dict Json} :
      WellKeyed (.obj obj) → (∀ key ∈ traceKeys, obj.get? key = none) →
      PayloadTwins self (.obj obj) (.obj obj)
  | events {decoded decoded' : Str} {e e' : NormalizedEvent} :
      Retold decoded decoded' e e' → IsEncodable decoded → IsEncodable decoded' →
      (self.parser.isSome ∨ self.jsonNormalizer.isSome) →
      PayloadTwins self (.obj (asdict e)) (.obj (asdict e'))

omit [Runtime] in
/-- The headers name the same parser and the same origin. -/
structure HeaderTwins (headers headers' : Headers) : Prop where
  parser : headers.get? (text "parser") = headers'.get? (text "parser")
  origin : headers.get? (text "origin") = headers'.get? (text "origin")

omit [Runtime] in
theorem HeaderTwins.set {headers headers' : Headers} (h : HeaderTwins headers headers')
    (key value : Str) : HeaderTwins (headers.set key value) (headers'.set key value) := by
  constructor
  · rw [Dict.get?_set, Dict.get?_set, h.parser]
  · rw [Dict.get?_set, Dict.get?_set, h.origin]

omit [Runtime] in
theorem headerTwins_initial (d d' : Datagram) :
    HeaderTwins (UdpServer.initialHeaders d) (UdpServer.initialHeaders d') := by
  have habsent : ∀ (d : Datagram) (key : Str), key ≠ text "source_ip" →
      key ≠ text "source_port" → (UdpServer.initialHeaders d).get? key = none := by
    intro d key hip hport
    simp [UdpServer.initialHeaders, Dict.get?_cons, Ne.symm hip, Ne.symm hport]
  constructor
  · rw [habsent d _ (by decide) (by decide), habsent d' _ (by decide) (by decide)]
  · rw [habsent d _ (by decide) (by decide), habsent d' _ (by decide) (by decide)]

omit [Runtime] in
theorem absent_stripTraceKeys (obj : Dict Json) :
    ∀ key ∈ traceKeys, (stripTraceKeys obj).get? key = none := by
  intro key hkey
  simp only [traceKeys, List.mem_cons, List.not_mem_nil, or_false] at hkey
  simp only [stripTraceKeys, traceKeys, List.foldl_cons, List.foldl_nil, Dict.get?_pop]
  rcases hkey with rfl | rfl <;> simp

/-- What the parser makes of the two. -/
def ParseTwins (self : UdpServer) (r r' : Option (Dict Json) × Headers) : Prop :=
  HeaderTwins r.2 r'.2 ∧
    ((r.1 = none ∧ r'.1 = none) ∨
      ∃ obj obj', r.1 = some obj ∧ r'.1 = some obj' ∧ PayloadTwins self (.obj obj) (.obj obj'))

/-- What becomes of the two, with their headers. -/
def ResultTwins (self : UdpServer) (r r' : Json × Headers) : Prop :=
  PayloadTwins self r.1 r'.1 ∧ HeaderTwins r.2 r'.2

section Texts

variable {decoded decoded' : Str} {obj obj' : Dict Json} {headers headers' : Headers}

theorem parseMessage_both (parser : LS1000Parser) (hloads : loads decoded = .ok (.obj obj))
    (hloads' : loads decoded' = .ok (.obj obj'))
    (hstrip : stripTraceKeys obj = stripTraceKeys obj') :
    Both (Both (Retold decoded decoded')) (parser.parseMessage decoded)
      (parser.parseMessage decoded') := by
  rw [parseMessage_of_loads parser hloads, parseMessage_of_loads parser hloads',
    ← parseObject_strip decoded obj, ← parseObject_strip decoded' obj', hstrip]
  exact parseObject_both decoded decoded' _

theorem tryParseLs1000_both (self : UdpServer) (hloads : loads decoded = .ok (.obj obj))
    (hloads' : loads decoded' = .ok (.obj obj'))
    (hstrip : stripTraceKeys obj = stripTraceKeys obj') (hdecoded : IsEncodable decoded)
    (hdecoded' : IsEncodable decoded') (hheaders : HeaderTwins headers headers') :
    Both (ParseTwins self) (self.tryParseLs1000 decoded headers)
      (self.tryParseLs1000 decoded' headers') := by
  unfold UdpServer.tryParseLs1000
  cases hparser : self.parser with
  | none => exact ⟨hheaders, Or.inl ⟨rfl, rfl⟩⟩
  | some parser =>
    simp only
    rcases (parseMessage_both parser hloads hloads' hstrip).cases with
      ⟨exc, exc', hexc, hexc'⟩ | ⟨r, r', hr, hr', hboth⟩
    · rw [hexc, hexc']
      trivial
    · rw [hr, hr']
      rcases hboth.cases with ⟨rejected, rejected', rfl, rfl⟩ | ⟨e, e', rfl, rfl, hretold⟩
      · exact ⟨hheaders, Or.inl ⟨rfl, rfl⟩⟩
      · exact ⟨(hheaders.set _ _).set _ _, Or.inr ⟨_, _, rfl, rfl,
          .events hretold hdecoded hdecoded' (Or.inl (by simp [hparser]))⟩⟩

/-- What is validated is the object that was printed. -/
theorem validated_eq {self : UdpServer} {cleaned : Str} {v w : Json} {origin : Str}
    (hloads : loads cleaned = .ok v) (h : self.validated cleaned = .ok (w, origin)) : w = v := by
  unfold UdpServer.validated at h
  split at h
  · rw [hloads] at h
    exact ((Prod.mk.inj (Except.ok.inj h)).1).symm
  · simp only [Validator.getValidatedObject, hloads] at h
    split at h
    · cases h
    · cases h
    · rename_i validated hvalidated
      split at hvalidated
      · cases hvalidated
      · obtain rfl := Except.ok.inj (Except.ok.inj hvalidated)
        exact ((Prod.mk.inj (Except.ok.inj h)).1).symm
      · cases hvalidated

theorem normalizeJsonPayload_both (self : UdpServer) (hloads : loads decoded = .ok (.obj obj))
    (hloads' : loads decoded' = .ok (.obj obj'))
    (hstrip : stripTraceKeys obj = stripTraceKeys obj') (hdecoded : IsEncodable decoded)
    (hdecoded' : IsEncodable decoded') (hheaders : HeaderTwins headers headers') (clock : Clock) :
    Both (ResultTwins self) (self.normalizeJsonPayload decoded headers clock)
      (self.normalizeJsonPayload decoded' headers' clock) := by
  obtain ⟨cleaned, hcleaned, hread⟩ := loads_cleaned hloads
  have hcleaned' : stripTraceFromString decoded' = .ok cleaned := by
    rw [← hcleaned]
    simp only [stripTraceFromString, hloads, hloads', hstrip]
  unfold UdpServer.normalizeJsonPayload
  rw [hcleaned, hcleaned']
  simp only [bind, Except.bind]
  cases hvalidated : self.validated cleaned with
  | error exc => trivial
  | ok r =>
    obtain ⟨rawJson, origin⟩ := r
    obtain rfl := validated_eq hread hvalidated
    have horigin := hheaders.set (text "origin") origin
    cases hnormalizer : self.jsonNormalizer with
    | none =>
      exact ⟨.same (wellKeyed_stripTraceKeys (wellKeyed_of_decode (decodeDocument_of_loads hloads)))
        (absent_stripTraceKeys obj), horigin⟩
    | some normalizer =>
      simp only
      rcases (normalize_both normalizer (.obj (stripTraceKeys obj)) decoded decoded'
        clock.normalizer).cases with ⟨exc, exc', hexc, hexc'⟩ | ⟨r, r', hr, hr', hboth⟩
      · rw [hexc, hexc']
        trivial
      · rw [hr, hr']
        cases hboth with
        | none => trivial
        | some hretold =>
          exact ⟨.events hretold hdecoded hdecoded' (Or.inr (by simp [hnormalizer])),
            horigin.set _ _⟩

theorem processDatagram_both (self : UdpServer) {d d' : Datagram} (h : TraceTwins d d')
    (hheaders : HeaderTwins headers headers') :
    Both (ResultTwins self) (self.processDatagram d.data headers d.clock)
      (self.processDatagram d'.data headers' d'.clock) := by
  obtain ⟨decoded, obj, decoded', obj', hdecode, hloads, hdecode', hloads', hstrip⟩ := h.objects
  have hencodable := encodable_of_decodeUtf8 hdecode
  have hencodable' := encodable_of_decodeUtf8 hdecode'
  unfold UdpServer.processDatagram
  rw [hdecode, hdecode', ← h.clock]
  simp only
  rcases (tryParseLs1000_both self hloads hloads' hstrip hencodable hencodable' hheaders).cases with
    ⟨exc, exc', hexc, hexc'⟩ | ⟨⟨r, h₁⟩, ⟨r', h₂⟩, hr, hr', hheaders', hboth⟩
  · rw [hexc, hexc']
    trivial
  · rw [hr, hr']
    rcases hboth with ⟨hnone, hnone'⟩ | ⟨payload, payload', hsome, hsome', htwins⟩
    · obtain rfl : r = none := hnone
      obtain rfl : r' = none := hnone'
      exact normalizeJsonPayload_both self hloads hloads' hstrip hencodable hencodable' hheaders'
        d.clock
    · obtain rfl : r = some payload := hsome
      obtain rfl : r' = some payload' := hsome'
      exact ⟨htwins, hheaders'⟩

end Texts

/-! ## What is published -/

/-- A message is published for the datagram: its headers, and the payload that is read from
its bytes. -/
def Publishes (self : UdpServer) (d : Datagram) (payload : Json) (headers : Headers) : Prop :=
  ∃ message envelope, self.prepare d = .ok (message, headers) ∧
    loadsBytes message = .ok (.obj envelope) ∧ Dict.get? envelope (text "payload") = some payload

/-- The datagram is rejected. -/
def Rejects (self : UdpServer) (d : Datagram) : Prop := ∃ exc, self.prepare d = .error exc

omit [Runtime] in
/-- The payloads are objects that agree on every key but `raw_message`. -/
def SameButRaw (payload payload' : Json) : Prop :=
  ∃ obj obj' : Dict Json, payload = .obj obj ∧ payload' = .obj obj' ∧
    ∀ key ≠ text "raw_message", obj.get? key = obj'.get? key

omit [Runtime] in
theorem PayloadTwins.sameButRaw {self : UdpServer} {payload payload' : Json}
    (h : PayloadTwins self payload payload') : SameButRaw payload payload' := by
  cases h with
  | same => exact ⟨_, _, rfl, rfl, fun _ _ => rfl⟩
  | events hretold =>
    refine ⟨_, _, rfl, rfl, ?_⟩
    intro key hkey
    rw [hretold.asdict_eq, Dict.get?_set, if_neg (Ne.symm hkey)]

omit [Runtime] in
theorem PayloadTwins.wellKeyed {self : UdpServer} {payload payload' : Json}
    (h : PayloadTwins self payload payload') : WellKeyed payload ∧ WellKeyed payload' := by
  cases h with
  | same hkeys => exact ⟨hkeys, hkeys⟩
  | events => exact ⟨wellKeyed_asdict _, wellKeyed_asdict _⟩

omit [Runtime] in
theorem PayloadTwins.symm {self : UdpServer} {payload payload' : Json}
    (h : PayloadTwins self payload payload') : PayloadTwins self payload' payload := by
  cases h with
  | same hkeys habsent => exact .same hkeys habsent
  | events hretold hdecoded hdecoded' hself => exact .events hretold.symm hdecoded' hdecoded hself

omit [Runtime] in
/-- The envelope says the same of both. -/
theorem context_eq {self : UdpServer} {payload payload' : Json} {headers headers' : Headers}
    (h : PayloadTwins self payload payload') (hheaders : HeaderTwins headers headers') :
    UdpServer.originOf payload headers = UdpServer.originOf payload' headers' ∧
      UdpServer.isNormalized payload = UdpServer.isNormalized payload' := by
  obtain ⟨obj, obj', rfl, rfl, hsame⟩ := h.sameButRaw
  constructor
  · simp only [UdpServer.originOf, hheaders.origin, hsame _ (show text "origin" ≠ _ by decide)]
  · simp only [UdpServer.isNormalized, Dict.contains, hsame _ (show text "tag_id" ≠ _ by decide),
      hsame _ (show text "ts_utc_ms" ≠ _ by decide)]

omit [Runtime] in
theorem wellKeyed_originOf {payload : Json} (h : WellKeyed payload) (headers : Headers) :
    WellKeyed (UdpServer.originOf payload headers) := by
  unfold UdpServer.originOf
  split
  · rename_i obj
    split
    · trivial
    · cases horigin : Dict.get? obj (text "origin") with
      | none => trivial
      | some v => exact wellKeyedMembers_iff.mp h.2 _ (Dict.get?_eq_some_mem horigin)
  · trivial

/-- A message is made of both envelopes or of none. -/
theorem serializeMessage_build {self : UdpServer} {payload payload' : Json}
    {context : EnvelopeContext} (h : PayloadTwins self payload payload')
    (hmessage : ∃ message, UdpServer.serializeMessage (envelopeV1Builder.build payload context) =
      .ok message) :
    ∃ message, UdpServer.serializeMessage (envelopeV1Builder.build payload' context) =
      .ok message := by
  obtain ⟨hdump, hencodable⟩ := serializeMessage_ok_iff.mp hmessage
  have hpayload : Dict.get? (envelopeV1Builder.build payload context) (text "payload") =
      some payload := rfl
  have hset : envelopeV1Builder.build payload' context =
      Dict.set (envelopeV1Builder.build payload context) (text "payload") payload' := rfl
  rw [hset]
  cases h with
  | same => exact hmessage
  | events hretold _ hdecoded' =>
    have hprinted := hdump.member hpayload
    have hencoded := hencodable.get? hpayload
    rw [hretold.asdict_eq]
    exact serializeMessage_ok_iff.mpr
      ⟨hdump.set _ (hprinted.set _ ⟨_, rfl⟩),
        hencodable.set (by decide) (hencoded.set (by decide) hdecoded')⟩

omit [Runtime] in
theorem builder_of_default {version : Str} {builder : EnvelopeBuilder}
    (h : defaultEnvelopeRegistry.get version = .ok builder) : builder = envelopeV1Builder := by
  have hregistry : defaultEnvelopeRegistry = [(text "1.0", envelopeV1Builder)] := rfl
  unfold EnvelopeRegistry.get at h
  rw [hregistry, Dict.get?_cons] at h
  split at h
  · rename_i b hb
    split at hb
    · obtain rfl := Option.some.inj hb
      exact (Except.ok.inj h).symm
    · cases hb
  · cases h

omit [Runtime] in
/-- The envelopes of the two, with their headers. -/
def EnvelopeTwins (self : UdpServer) (r r' : Dict Json × Headers) : Prop :=
  HeaderTwins r.2 r'.2 ∧ ∃ payload payload' context, PayloadTwins self payload payload' ∧
    WellKeyed context.origin ∧ r.1 = envelopeV1Builder.build payload context ∧
    r'.1 = envelopeV1Builder.build payload' context

theorem envelopeOf_both (self : UdpServer)
    (hregistry : self.envelopeRegistry = defaultEnvelopeRegistry) {d d' : Datagram}
    (h : TraceTwins d d') :
    Both (EnvelopeTwins self) (self.envelopeOf d) (self.envelopeOf d') := by
  refine (processDatagram_both self h (headerTwins_initial d d')).bind ?_
  rintro ⟨payload, headers⟩ ⟨payload', headers'⟩ ⟨htwins, hheaders⟩
  obtain ⟨horigin, hnormalized⟩ := context_eq htwins hheaders
  simp only [UdpServer.buildEnvelope, ← h.clock, ← horigin, ← hnormalized]
  cases hbuilder : self.envelopeRegistry.get self.envelopeVersion with
  | error exc => trivial
  | ok builder =>
    rw [hregistry] at hbuilder
    obtain rfl := builder_of_default hbuilder
    exact ⟨hheaders, payload, payload', _, htwins,
      wellKeyed_originOf htwins.wellKeyed.1 headers, rfl, rfl⟩

omit [Runtime] in
/-- The payload has neither of the trace keys. -/
def NoTraceKeys (payload : Json) : Prop :=
  ∃ obj, payload = .obj obj ∧ ∀ key ∈ traceKeys, Dict.get? obj key = none

theorem publishes_of_envelope {self : UdpServer} {d : Datagram} {payload : Json}
    {context : EnvelopeContext} {headers : Headers}
    (henvelope : self.envelopeOf d = .ok (envelopeV1Builder.build payload context, headers))
    (hpayload : WellKeyed payload) (horigin : WellKeyed context.origin) {message : Bytes}
    (hmessage : UdpServer.serializeMessage (envelopeV1Builder.build payload context) =
      .ok message) : Publishes self d payload headers := by
  refine ⟨message, envelopeV1Builder.build payload context, ?_, ?_, rfl⟩
  · simp [UdpServer.prepare, henvelope, hmessage, bind, Except.bind]
  · exact loadsBytes_serialized (by simp [envelopeV1Builder]) (wellKeyed_build hpayload horigin)
      hmessage

/-- Whatever the server is configured with, it rejects both datagrams or publishes both,
under the same parser and origin, with payloads that differ at most in the raw message. -/
theorem trace_transparent (self : UdpServer)
    (hregistry : self.envelopeRegistry = defaultEnvelopeRegistry) {d d' : Datagram}
    (h : TraceTwins d d') :
    (Rejects self d ∧ Rejects self d') ∨
      ∃ payload payload' headers headers', Publishes self d payload headers ∧
        Publishes self d' payload' headers' ∧ HeaderTwins headers headers' ∧
        SameButRaw payload payload' ∧
        (self.parser = none → self.jsonNormalizer = none →
          payload' = payload ∧ NoTraceKeys payload) := by
  rcases (envelopeOf_both self hregistry h).cases with
    ⟨exc, exc', hexc, hexc'⟩ |
      ⟨⟨_, headers⟩, ⟨_, headers'⟩, hok, hok', hheaders, payload, payload', context, htwins,
        horigin, rfl, rfl⟩
  · exact Or.inl ⟨⟨exc, by simp [UdpServer.prepare, hexc, bind, Except.bind]⟩,
      exc', by simp [UdpServer.prepare, hexc', bind, Except.bind]⟩
  cases hmessage : UdpServer.serializeMessage (envelopeV1Builder.build payload context) with
  | error exc =>
    cases hmessage' : UdpServer.serializeMessage (envelopeV1Builder.build payload' context) with
    | error exc' =>
      exact Or.inl ⟨⟨exc, by simp [UdpServer.prepare, hok, hmessage, bind, Except.bind]⟩,
        exc', by simp [UdpServer.prepare, hok', hmessage', bind, Except.bind]⟩
    | ok message' =>
      obtain ⟨message, hmade⟩ := serializeMessage_build htwins.symm ⟨message', hmessage'⟩
      rw [hmessage] at hmade
      cases hmade
  | ok message =>
    obtain ⟨message', hmessage'⟩ := serializeMessage_build htwins ⟨message, hmessage⟩
    refine Or.inr ⟨payload, payload', headers, headers',
      publishes_of_envelope hok htwins.wellKeyed.1 horigin hmessage,
      publishes_of_envelope hok' htwins.wellKeyed.2 horigin hmessage', hheaders,
      htwins.sameButRaw, ?_⟩
    intro hparser hnormalizer
    cases htwins with
    | same _ habsent => exact ⟨rfl, _, rfl, habsent⟩
    | events _ _ _ hself => simp [hparser, hnormalizer] at hself

end Twins

section Examples

attribute [local instance] asciiRuntime

/-- A text as the data of a datagram. -/
def datagramOf (s : Str) : Datagram where
  data := s.map UInt8.ofNat
  ip := text "10.0.0.1"
  port := 9000
  clock := ⟨1000, 1000⟩

def untracedText : Str := text "\x7b\"id\":\"7\",\"seq\":1,\"ts\":5\x7d"

def tracedText : Str :=
  text "\x7b\"id\":\"7\",\"seq\":1,\"ts\":5,\"traceparent\":\"00\"\x7d"

def untracedObject : Dict Json :=
  [(text "id", .str (text "7")), (text "seq", .int 1), (text "ts", .int 5)]

def tracedObject : Dict Json := untracedObject ++ [(text "traceparent", .str (text "00"))]

/-- A datagram with a trace context and the same without one. -/
theorem trace_transparent_injected :
    ∃ d d', TraceTwins d d' ∧
      ((Rejects (startUdp schemeErrors) d ∧ Rejects (startUdp schemeErrors) d') ∨
        ∃ payload payload' headers headers', Publishes (startUdp schemeErrors) d payload headers ∧
          Publishes (startUdp schemeErrors) d' payload' headers' ∧ HeaderTwins headers headers' ∧
          SameButRaw payload payload') := by
  have hclock : (datagramOf tracedText).clock = (datagramOf untracedText).clock := by
    simp only [datagramOf]
  have hdecodes : decodeUtf8 false (datagramOf tracedText).data = some tracedText := by
    decide +kernel
  have hdecodes' : decodeUtf8 false (datagramOf untracedText).data = some untracedText := by
    decide +kernel
  have hloads : loads tracedText = .ok (.obj tracedObject) := by decide +kernel
  have hloads' : loads untracedText = .ok (.obj untracedObject) := by decide +kernel
  have hstrip : stripTraceKeys tracedObject = stripTraceKeys untracedObject := by decide +kernel
  have htwins : TraceTwins (datagramOf tracedText) (datagramOf untracedText) :=
    ⟨hclock, _, _, _, _, hdecodes, hloads, hdecodes', hloads', hstrip⟩
  refine ⟨_, _, htwins, ?_⟩
  rcases trace_transparent (startUdp schemeErrors) rfl htwins with hrejects | hpublishes
  · exact Or.inl hrejects
  · obtain ⟨payload, payload', headers, headers', h₁, h₂, h₃, h₄, -⟩ := hpublishes
    exact Or.inr ⟨payload, payload', headers, headers', h₁, h₂, h₃, h₄⟩

end Examples

end RtlsStream.Receiver
