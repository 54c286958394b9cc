/-
  Pipeline/Storable.lean --- what is published against the columns it is stored in.

  The consumer decodes a message, extracts the parameters of its statements and
  binds them to the columns of the migration.  A message fits (`Storable`) exactly
  when the event it carries does, and that is a question about the datagram and the
  two clocks (`Fitting`): the receiver passes on any integer `int` can read, a
  `bool` where it looks for an integer, and any text that is UTF-8.
-/
import RtlsStream.Receiver.Published
import RtlsStream.Store.Params
import RtlsStream.StreamHandler.EventFields

set_option autoImplicit false

namespace RtlsStream.Pipeline

open RtlsStream.Foundation RtlsStream.Python RtlsStream.StreamHandler RtlsStream.Receiver
open RtlsStream.Store
open LS1000Parser (BaseType typeOf fieldsOf layerField token)

/-! ## Columns -/

/-- `BIGINT` -/
def InBigint (n : Int) : Prop := -2 ^ 63 ≤ n ∧ n < 2 ^ 63

/-- `INTEGER` -/
def InInteger (n : Int) : Prop := -2 ^ 31 ≤ n ∧ n < 2 ^ 31

instance (n : Int) : Decidable (InBigint n) := inferInstanceAs (Decidable (_ ∧ _))

instance (n : Int) : Decidable (InInteger n) := inferInstanceAs (Decidable (_ ∧ _))

/-- Every parameter fits the column it is bound to. -/
structure Fits (p : Params) : Prop where
  tsUtcMs : ∃ n, p.tsUtcMs = .int n ∧ InBigint n
  ingestedAtMs : ∃ n, p.ingestedAtMs = .int n ∧ InBigint n
  layer : p.layer = .null ∨ ∃ n, p.layer = .int n ∧ InInteger n
  /-- the columns declared `NOT NULL` -/
  notNull : ∀ v ∈ [p.schemaVersion, p.eventType, p.origin, p.normalized, p.ingestedAtMs, p.tagId,
    p.tsUtcMs, p.sourceType, p.rawMessage], v ≠ .null
  /-- the columns of type `TEXT` -/
  texts : ∀ v ∈ [p.schemaVersion, p.eventType, p.origin, p.tagId, p.sourceType, p.status, p.area,
    p.rawMessage], ∀ s, v = .str s → 0 ∉ s

/-- The consumer can store a message: it extracts parameters that fit. -/
def Storable [Runtime] (message : Bytes) : Prop :=
  ∃ envelope p, loadsBytes message = .ok (.obj envelope) ∧ extractParams envelope = .ok p ∧ Fits p

/-! ## The parameters of an event -/

/-- What `_extract_params` returns for the envelope of an event. -/
def eventParams (now : Int) (e : NormalizedEvent) (parseWarnings : Str) : Params where
  schemaVersion := .str (text "1.0")
  eventType := .str (text "position")
  origin := .str settingsOrigin
  normalized := .bool true
  ingestedAtMs := .int now
  tagId := .str e.tagId
  tsUtcMs := e.tsUtcMs.json
  sourceType := .str e.sourceType
  status := .ofOption .str e.status
  layer := .ofOption PyInt.json e.layer
  area := .ofOption .str e.area
  x := .ofOption .float e.x
  y := .ofOption .float e.y
  z := .ofOption .float e.z
  lng := .ofOption .float e.lng
  lat := .ofOption .float e.lat
  rawMessage := .str e.rawMessage
  parseWarnings := parseWarnings

theorem extractParams_event [Runtime] (now : Int) (e : NormalizedEvent) :
    ∃ warnings, extractParams (eventEnvelope now e) = .ok (eventParams now e warnings) := by
  have hdumpable : Dumpable ascii 1 (.arr (e.parseWarnings.map .str)) := by
    refine dumpable_arr.mpr ?_
    intro v hv
    obtain ⟨s, -, rfl⟩ := List.mem_map.mp hv
    exact ⟨_, rfl⟩
  obtain ⟨warnings, hwarnings⟩ := hdumpable.mono (le_trans (by decide) Runtime.jsonDepth_ge)
  have hdumps : dumps ascii (.arr (e.parseWarnings.map .str)) = .ok warnings := hwarnings
  have hextract : extractParams (eventEnvelope now e) =
      (dumps ascii (.arr (e.parseWarnings.map .str))).bind
        fun w => .ok (eventParams now e w) := rfl
  rw [hextract, hdumps]
  exact ⟨warnings, rfl⟩

/-- An event that fits. -/
structure EventFits (e : NormalizedEvent) : Prop where
  tsUtcMs : ∃ n, e.tsUtcMs = .int n ∧ InBigint n
  layer : ∀ l ∈ e.layer, ∃ n, l = .int n ∧ InInteger n
  tagId : 0 ∉ e.tagId
  sourceType : 0 ∉ e.sourceType
  rawMessage : 0 ∉ e.rawMessage
  status : ∀ s ∈ e.status, 0 ∉ s
  area : ∀ s ∈ e.area, 0 ∉ s

theorem json_eq_int {p : PyInt} {n : Int} : p.json = .int n ↔ p = .int n := by
  cases p <;> simp [PyInt.json]

theorem ofOption_str_eq {o : Option Str} {s : Str} : Json.ofOption .str o = .str s ↔ s ∈ o := by
  cases o <;> simp [Json.ofOption, eq_comm]

/-- The columns that are not read from the event always fit, but for the clock. -/
theorem fits_eventParams_iff {now : Int} {e : NormalizedEvent} {warnings : Str} :
    Fits (eventParams now e warnings) ↔ InBigint now ∧ EventFits e := by
  constructor
  · intro h
    obtain ⟨n, hn, hnow⟩ := h.ingestedAtMs
    obtain rfl := Json.int.inj hn
    refine ⟨hnow, ?_⟩
    constructor
    case tsUtcMs =>
      obtain ⟨n, hn, hrange⟩ := h.tsUtcMs
      exact ⟨n, json_eq_int.mp hn, hrange⟩
    case layer =>
      intro l hl
      have hjson : (eventParams now e warnings).layer = l.json := by
        simp [eventParams, Option.mem_def.mp hl, Json.ofOption]
      rcases h.layer with hnull | ⟨n, hn, hrange⟩
      · rw [hjson] at hnull
        cases l <;> cases hnull
      · rw [hjson] at hn
        exact ⟨n, json_eq_int.mp hn, hrange⟩
    case tagId => exact h.texts (.str e.tagId) (by simp [eventParams]) _ rfl
    case sourceType => exact h.texts (.str e.sourceType) (by simp [eventParams]) _ rfl
    case rawMessage => exact h.texts (.str e.rawMessage) (by simp [eventParams]) _ rfl
    case status =>
      intro s hs
      exact h.texts (.ofOption .str e.status) (by simp [eventParams]) s (ofOption_str_eq.mpr hs)
    case area =>
      intro s hs
      exact h.texts (.ofOption .str e.area) (by simp [eventParams]) s (ofOption_str_eq.mpr hs)
  · rintro ⟨hnow, h⟩
    obtain ⟨ts, hts, hrange⟩ := h.tsUtcMs
    constructor
    case tsUtcMs => exact ⟨ts, json_eq_int.mpr hts, hrange⟩
    case ingestedAtMs => exact ⟨now, rfl, hnow⟩
    case layer =>
      cases hlayer : e.layer with
      | none => exact Or.inl (by simp [eventParams, hlayer, Json.ofOption])
      | some l =>
        obtain ⟨n, rfl, hn⟩ := h.layer l hlayer
        exact Or.inr ⟨n, by simp [eventParams, hlayer, Json.ofOption, PyInt.json], hn⟩
    case notNull => simp [eventParams, hts, PyInt.json]
    case texts =>
      simp only [eventParams, List.forall_mem_cons, Json.str.injEq, forall_eq', ofOption_str_eq]
      exact ⟨by decide, by decide, by decide, h.tagId, h.sourceType, h.status, h.area,
        h.rawMessage, by simp⟩

section Published

variable [Runtime]

/-- A message is stored exactly when its event fits. -/
theorem storable_iff {now : Int} {e : NormalizedEvent} {message : Bytes}
    (h : UdpServer.serializeMessage (eventEnvelope now e) = .ok message) :
    Storable message ↔ InBigint now ∧ EventFits e := by
  obtain ⟨warnings, hparams⟩ := extractParams_event now e
  have hloads := loadsBytes_message h
  constructor
  · rintro ⟨envelope, p, henvelope, hp, hfits⟩
    obtain rfl := Json.obj.inj (Except.ok.inj (hloads.symm.trans henvelope))
    obtain rfl := Except.ok.inj (hparams.symm.trans hp)
    exact fits_eventParams_iff.mp hfits
  · intro hfits
    exact ⟨_, _, hloads, hparams, fits_eventParams_iff.mpr hfits⟩

/-! ## The datagram behind an event -/

/-- A text message whose fields fit. -/
structure TextFits (decoded : Str) : Prop where
  noNul : 0 ∉ decoded
  timestamp : ∀ n ∈ parseIntText true (token (fieldsOf (strip decoded)) 3), InBigint n
  layer : ∀ type ∈ typeOf (strip decoded),
    ∀ n ∈ parseIntText true (token (fieldsOf (strip decoded)) (layerField type)), InInteger n

/-- An LS-1000 object whose first readable time and layer fit, neither being a `bool`, and
whose texts are free of NUL. -/
structure ObjectFits (obj : Dict Json) : Prop where
  timestamp : ∀ ts, firstInt true obj tsKeys = .ok (some ts) → ∃ n, ts = .int n ∧ InBigint n
  layer : ∀ l, firstInt true obj layerKeys = .ok (some l) → ∃ n, l = .int n ∧ InInteger n
  texts : ∀ keys ∈ [tagKeys, [text "status"], [text "area"]], ∀ s,
    firstStr obj keys = .ok (some s) → 0 ∉ s

/-- The content of a datagram: an object with a time the parser reads, an object without
one, whose time will be the clock's, or a text message. -/
def ContentFits (decoded : Str) (now : Int) : Prop :=
  if (strip decoded).head? = some 123 then
    ∀ obj, loads (strip decoded) = .ok (.obj obj) →
      match firstInt true obj tsKeys with
      | .ok (some _) => ObjectFits obj
      | _ => InBigint now
  else TextFits decoded

/-- A datagram that fits, with the clock while it is processed. -/
def Fitting (d : Datagram) : Prop :=
  InBigint d.clock.envelope ∧
    ∀ decoded, decodeUtf8 false d.data = some decoded → ContentFits decoded d.clock.normalizer

theorem eventFits_text_iff {type : BaseType} {decoded : Str} {e : NormalizedEvent}
    (htype : typeOf (strip decoded) = some type)
    (h : LS1000Parser.TextEvent type decoded (fieldsOf (strip decoded)) e) :
    EventFits e ↔ TextFits decoded := by
  obtain ⟨ts, hts, htsUtcMs⟩ := h.tsUtcMs
  have hlayer := h.layer
  constructor
  · intro hfits
    constructor
    case noNul =>
      rw [← h.rawMessage]
      exact hfits.rawMessage
    case timestamp =>
      intro n hn
      obtain ⟨m, hm, hrange⟩ := hfits.tsUtcMs
      obtain rfl := Option.some.inj (hts.symm.trans hn)
      obtain rfl := PyInt.int.inj (htsUtcMs.symm.trans hm)
      exact hrange
    case layer =>
      intro type' htype' n hn
      obtain rfl := Option.some.inj (htype.symm.trans htype')
      simp only [LS1000Parser.layerOf, Option.mem_def.mp hn, Option.map_some] at hlayer
      obtain ⟨m, hm, hrange⟩ := hfits.layer _ hlayer
      obtain rfl := PyInt.int.inj hm
      exact hrange
  · intro hfits
    -- every text of the event is made of characters of the message
    have hpart : ∀ t ∈ fieldsOf (strip decoded), 0 ∉ t := fun t ht hmem =>
      hfits.noNul (mem_of_mem_strip (LS1000Parser.mem_of_mem_fieldsOf ht hmem))
    constructor
    case tsUtcMs => exact ⟨ts, htsUtcMs, hfits.timestamp ts hts⟩
    case layer =>
      intro l hl
      rw [Option.mem_def, hlayer] at hl
      obtain ⟨n, hn, rfl⟩ := Option.map_eq_some_iff.mp hl
      exact ⟨n, rfl, hfits.layer type htype n hn⟩
    case tagId =>
      obtain ⟨i, hi⟩ := h.tagId
      rw [hi]
      intro hmem
      obtain ⟨t, ht, hc⟩ := LS1000Parser.mem_of_mem_token hmem
      exact hpart t ht hc
    case sourceType =>
      rw [h.sourceType]
      cases type <;> decide
    case rawMessage =>
      rw [h.rawMessage]
      exact hfits.noNul
    case status =>
      intro s hs hmem
      obtain ⟨t, ht, hc⟩ := h.status s hs 0 hmem
      exact hpart t ht hc
    case area =>
      intro s hs hmem
      obtain ⟨t, ht, hc⟩ := h.area s hs 0 hmem
      exact hpart t ht hc

/-- The text of a JSON message has no NUL in it, whatever its strings denote. -/
theorem eventFits_object_iff {decoded : Str} {obj : Dict Json} {e : NormalizedEvent}
    (hloads : loads (strip decoded) = .ok (.obj obj))
    (h : LS1000Parser.ObjectEvent decoded obj e) : EventFits e ↔ ObjectFits obj := by
  have hnul : 0 ∉ decoded := fun hmem =>
    nul_notMem_of_decode (decodeDocument_of_loads hloads) (mem_strip hmem (by decide))
  constructor
  · intro hfits
    constructor
    case timestamp =>
      intro ts hts
      obtain rfl := Option.some.inj (Except.ok.inj (h.tsUtcMs.symm.trans hts))
      exact hfits.tsUtcMs
    case layer =>
      intro l hl
      exact hfits.layer l (Except.ok.inj (h.layer.symm.trans hl))
    case texts =>
      intro keys hkeys s hs
      simp only [List.mem_cons, List.not_mem_nil, or_false] at hkeys
      rcases hkeys with rfl | rfl | rfl
      · obtain rfl := Option.some.inj (Except.ok.inj (h.tagId.symm.trans hs))
        exact hfits.tagId
      · exact hfits.status s (Except.ok.inj (h.status.symm.trans hs))
      · exact hfits.area s (Except.ok.inj (h.area.symm.trans hs))
  · intro hfits
    constructor
    case tsUtcMs => exact hfits.timestamp _ h.tsUtcMs
    case layer =>
      intro l hl
      exact hfits.layer l (by rw [h.layer, Option.mem_def.mp hl])
    case tagId => exact hfits.texts _ (by simp) _ h.tagId
    case sourceType => rw [h.sourceType]; decide
    case rawMessage => rw [h.rawMessage]; exact hnul
    case status =>
      intro s hs
      exact hfits.texts [text "status"] (by simp) s (by rw [h.status, Option.mem_def.mp hs])
    case area =>
      intro s hs
      exact hfits.texts [text "area"] (by simp) s (by rw [h.area, Option.mem_def.mp hs])

/-- The clock's time is all there is to check of a datagram that went through the schema. -/
theorem eventFits_normalizer_iff {decoded tag : Str} {obj : Dict Json} {now : Int}
    {e : NormalizedEvent} (hloads : loads decoded = .ok (.obj obj))
    (haccepted : scheme (.obj (stripTraceKeys obj)))
    (htag : firstStr (stripTraceKeys obj) tagKeys = .ok (some tag))
    (h : startNormalizer.eventOf (stripTraceKeys obj) decoded now tag = .ok e) :
    EventFits e ↔ InBigint now := by
  have hfrom := eventOf_fromClock haccepted h
  have hnul : 0 ∉ decoded := nul_notMem_of_decode (decodeDocument_of_loads hloads)
  obtain ⟨devid, -, htag', hchars⟩ := firstStr_tag haccepted
  obtain rfl := Option.some.inj (Except.ok.inj (htag.symm.trans htag'))
  constructor
  · intro hfits
    obtain ⟨n, hn, hrange⟩ := hfits.tsUtcMs
    obtain rfl := PyInt.int.inj (hfrom.tsUtcMs.symm.trans hn)
    exact hrange
  · intro hrange
    constructor
    case tsUtcMs => exact ⟨now, hfrom.tsUtcMs, hrange⟩
    case layer => simp [hfrom.layer]
    case tagId =>
      rw [hfrom.tagId]
      exact fun hmem => (hchars 0 hmem).2 rfl
    case sourceType => rw [hfrom.sourceType]; decide
    case rawMessage => rw [hfrom.rawMessage]; exact hnul
    case status => simp [hfrom.status]
    case area => simp [hfrom.area]

/-- An event fits exactly when the content of its datagram does. -/
theorem eventFits_iff {decoded : Str} {now : Int} {e : NormalizedEvent}
    (h : EventOf decoded now e) : EventFits e ↔ ContentFits decoded now := by
  unfold ContentFits
  cases h with
  | parser hparsed =>
    rcases LS1000Parser.parseMessage_ok hparsed with
      ⟨hbrace, obj, hloads, hobject⟩ | ⟨hbrace, type, htype, hfields⟩
    · have hevent := LS1000Parser.parseObject_ok hobject
      rw [if_pos hbrace, eventFits_object_iff hloads hevent, hloads]
      simp [hevent.tsUtcMs]
    · rw [if_neg hbrace]
      exact eventFits_text_iff htype (LS1000Parser.parseFields_ok hfields)
  | @normalizer _ obj _ _ _ hloads haccepted htag he =>
    obtain ⟨hbrace, hraw⟩ := loads_strip hloads
    have htime : firstInt true obj tsKeys = .ok none := by
      rw [← firstInt_ts true haccepted]
      refine firstOf_congr ?_
      intro key hkey
      refine (get?_stripTraceKeys ?_).symm
      revert key
      decide
    rw [if_pos hbrace, eventFits_normalizer_iff hloads haccepted htag he, hraw]
    simp [htime]

/-- What the server publishes can be stored exactly when the datagram fits. -/
theorem published_storable_iff {iterErrors : IterErrors} (hvalid : Validates iterErrors)
    {d : Datagram} {message : Bytes} {headers : Headers}
    (h : (startUdp iterErrors).prepare d = .ok (message, headers)) :
    Storable message ↔ Fitting d := by
  obtain ⟨decoded, e, hdecoded, hevent, hmessage⟩ := (prepare_ok_iff hvalid).mp ⟨headers, h⟩
  rw [storable_iff hmessage, eventFits_iff hevent, Fitting, hdecoded]
  simp

end Published

section Examples

attribute [local instance] asciiRuntime

/-- A datagram that arrives at second one. -/
def received (data : Str) : Datagram :=
  ⟨data.map UInt8.ofNat, text "10.0.0.1", 9000, ⟨1000, 1000⟩⟩

theorem exists_of_isOk {α : Type} {x : Except PyError α} (h : x.isOk) : ∃ a, x = .ok a := by
  cases x with
  | error e => cases h
  | ok a => exact ⟨a, rfl⟩

/-- A text message with a time in range is published, and what is published can be stored. -/
theorem published_storable_status2 :
    ∃ message headers, (startUdp schemeErrors).prepare
        (received (text "status2:7,00A320,0,1700000000000")) = .ok (message, headers) ∧
      Storable message := by
  obtain ⟨⟨message, headers⟩, hprepare⟩ : ∃ r, (startUdp schemeErrors).prepare
      (received (text "status2:7,00A320,0,1700000000000")) = .ok r :=
    exists_of_isOk (by decide +kernel)
  refine ⟨message, headers, hprepare, (published_storable_iff validates_schemeErrors hprepare).mpr ?_⟩
  refine ⟨by decide, ?_⟩
  intro decoded hdecoded
  have hdecode : decodeUtf8 false (received (text "status2:7,00A320,0,1700000000000")).data =
      some (text "status2:7,00A320,0,1700000000000") := by decide +kernel
  obtain rfl := Option.some.inj (hdecode.symm.trans hdecoded)
  unfold ContentFits
  rw [if_neg (by decide +kernel)]
  exact ⟨by decide +kernel, by decide +kernel, by decide +kernel⟩

/-- An object whose time is `true` is published with `true` for its time. -/
theorem published_bool :
    ∃ message headers, (startUdp schemeErrors).prepare
        (received (text "\x7b\"devid\":\"00A320\",\"ts_utc_ms\":true\x7d")) = .ok (message, headers) ∧
      ¬ Storable message := by
  obtain ⟨⟨message, headers⟩, hprepare⟩ : ∃ r, (startUdp schemeErrors).prepare
      (received (text "\x7b\"devid\":\"00A320\",\"ts_utc_ms\":true\x7d")) = .ok r :=
    exists_of_isOk (by decide +kernel)
  refine ⟨message, headers, hprepare, ?_⟩
  obtain ⟨decoded, e, hdecoded, hevent, hmessage⟩ :=
    (prepare_ok_iff validates_schemeErrors).mp ⟨headers, hprepare⟩
  have hdecode : decodeUtf8 false
      (received (text "\x7b\"devid\":\"00A320\",\"ts_utc_ms\":true\x7d")).data =
      some (text "\x7b\"devid\":\"00A320\",\"ts_utc_ms\":true\x7d") := by decide +kernel
  obtain rfl := Option.some.inj (hdecode.symm.trans hdecoded)
  let obj : Dict Json := [(text "devid", .str (text "00A320")), (text "ts_utc_ms", .bool true)]
  rw [storable_iff hmessage, eventFits_iff hevent, ContentFits, if_pos (by decide +kernel)]
  rintro ⟨-, hcontent⟩
  have hfits := hcontent obj (by decide +kernel)
  have htime : firstInt true obj tsKeys = .ok (some (.bool true)) := by decide +kernel
  simp only [htime] at hfits
  obtain ⟨n, hn, -⟩ := hfits.timestamp _ htime
  cases hn

end Examples

end RtlsStream.Pipeline
