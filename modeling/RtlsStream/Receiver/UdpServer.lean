/-
  Receiver/UdpServer.lean --- what `UdpServer` makes of one datagram.

  The methods write into the dictionary of headers that `serve_forever` created for
  the datagram, so they return it along with their result; an exception leaves both
  behind.  `prepare` is the part of the loop's body that neither traces nor
  publishes: the message and the headers, or the exception.
-/
import RtlsStream.Python.Bytes
import RtlsStream.Receiver.Envelope
import RtlsStream.Receiver.Validate
import RtlsStream.StreamHandler.JsonNormalizer
import RtlsStream.StreamHandler.LS1000Parser

set_option autoImplicit false

namespace RtlsStream.Receiver

open RtlsStream.Foundation RtlsStream.Python RtlsStream.StreamHandler

/-- The headers of a message. -/
abbrev Headers : Type := Dict Str

/-- The readings of `int(time.time() * 1000)` while a datagram is processed. -/
structure Clock where
  /-- the one a normaliser takes for a missing time -/
  normalizer : Int
  /-- the one of `ingested_at_ms` -/
  envelope : Int

/-- What `recvfrom` returns, and the clock while it is processed. -/
structure Datagram where
  data : Bytes
  ip : Str
  port : UInt16
  clock : Clock

/-- The configuration of a `UdpServer`. -/
structure UdpServer where
  topic : Str
  validator : Option Validator
  parser : Option LS1000Parser
  jsonNormalizer : Option JsonStreamNormalizer
  envelopeVersion : Str
  envelopeRegistry : EnvelopeRegistry
  eventType : Str

/-- `_TRACE_KEYS` -/
def traceKeys : List Str := [text "traceparent", text "tracestate"]

/-- `strip_trace_keys` -/
def stripTraceKeys (obj : Dict Json) : Dict Json := traceKeys.foldl Dict.pop obj

variable [Runtime]

/-- `_extract_trace_context`: the object the context is extracted from, if there is one. -/
def extractTraceContext (data : Bytes) : Option (Dict Json) :=
  match loadsBytes data with
  | .ok (.obj obj) => if Dict.contains obj (text "traceparent") then some obj else none
  | _ => none

/-- `_strip_trace_from_string` -/
def stripTraceFromString (decoded : Str) : Except PyError Str :=
  match loads decoded with
  | .ok (.obj obj) => dumps compact (.obj (stripTraceKeys obj))
  | .ok _ | .error (.jsonDecodeError _ _) | .error .unicodeDecodeError => .ok decoded
  | .error e => .error e

namespace UdpServer

/-- `_try_parse_ls1000` -/
def tryParseLs1000 (self : UdpServer) (decoded : Str) (headers : Headers) :
    Except PyError (Option (Dict Json) × Headers) :=
  match self.parser with
  | none => .ok (none, headers)
  | some parser =>
    match parser.parseMessage decoded with
    | .error e => .error e
    | .ok (.error _) => .ok (none, headers)
    | .ok (.ok parsed) =>
      .ok (some (asdict parsed),
        (headers.set (text "origin") (text "ls-1000")).set (text "parser") (text "ls1000"))

/-- The value and the origin `_normalize_json_payload` works on. -/
def validated (self : UdpServer) (cleaned : Str) : Except PyError (Json × Str) :=
  match self.validator with
  | none => (loads cleaned).map fun v => (v, text "json")
  | some validator =>
    match validator.getValidatedObject cleaned 1 with
    | .error e => .error e
    | .ok (.error errors) => .error (.valueError (text "Validation failed: " ++ reprErrors errors))
    | .ok (.ok validated) => .ok (validated.data, validated.origin)

/-- `_normalize_json_payload` -/
def normalizeJsonPayload (self : UdpServer) (decoded : Str) (headers : Headers) (clock : Clock) :
    Except PyError (Json × Headers) := do
  let cleaned ← stripTraceFromString decoded
  let (rawJson, origin) ← self.validated cleaned
  let headers := headers.set (text "origin") origin
  match self.jsonNormalizer with
  | none => .ok (rawJson, headers)
  | some normalizer =>
    match ← normalizer.normalize rawJson decoded clock.normalizer with
    | none => .error (.valueError
        (text "JSON normalizer failed to map message into normalized payload"))
    | some normalized =>
      .ok (.obj (asdict normalized), headers.set (text "parser") (text "json-normalizer"))

/-- `_process_datagram` -/
def processDatagram (self : UdpServer) (data : Bytes) (headers : Headers) (clock : Clock) :
    Except PyError (Json × Headers) :=
  match decodeUtf8 false data with
  | none => .error .unicodeDecodeError
  | some decoded =>
    match self.tryParseLs1000 decoded headers with
    | .error e => .error e
    | .ok (some obj, headers) => .ok (.obj obj, headers)
    | .ok (none, headers) => self.normalizeJsonPayload decoded headers clock

omit [Runtime] in
/-- The origin `_build_envelope` gives a payload. -/
def originOf (payload : Json) (headers : Headers) : Json :=
  match payload with
  | .obj obj =>
    match headers.get? (text "origin") with
    | some origin => .str origin
    | none => (Dict.get? obj (text "origin")).getD (.str (text "unknown"))
  | _ => .str (text "unknown")

omit [Runtime] in
/-- `isinstance(payload, dict) and "tag_id" in payload and "ts_utc_ms" in payload` -/
def isNormalized : Json → Bool
  | .obj obj => Dict.contains obj (text "tag_id") && Dict.contains obj (text "ts_utc_ms")
  | _ => false

omit [Runtime] in
/-- `_build_envelope` -/
def buildEnvelope (self : UdpServer) (payload : Json) (headers : Headers) (clock : Clock) :
    Except PyError (Dict Json) :=
  (self.envelopeRegistry.get self.envelopeVersion).map fun builder => builder.build payload {
    schemaVersion := self.envelopeVersion
    eventType := self.eventType
    origin := originOf payload headers
    normalized := isNormalized payload
    ingestedAtMs := clock.envelope }

/-- `_serialize_message` -/
def serializeMessage (envelope : Dict Json) : Except PyError Bytes :=
  match dumps compact (.obj envelope) with
  | .error e => .error e
  | .ok t =>
    match encodeUtf8 t with
    | none => .error .unicodeEncodeError
    | some message => .ok message

omit [Runtime] in
/-- The headers a datagram starts with. -/
def initialHeaders (d : Datagram) : Headers :=
  [(text "source_ip", d.ip), (text "source_port", natText d.port.toNat)]

/-- The envelope of a datagram and its headers. -/
def envelopeOf (self : UdpServer) (d : Datagram) : Except PyError (Dict Json × Headers) := do
  let (obj, headers) ← self.processDatagram d.data (initialHeaders d) d.clock
  let envelope ← self.buildEnvelope obj headers d.clock
  .ok (envelope, headers)

/-- The message of a datagram and its headers, before the trace ids are injected. -/
def prepare (self : UdpServer) (d : Datagram) : Except PyError (Bytes × Headers) := do
  let (envelope, headers) ← self.envelopeOf d
  let message ← serializeMessage envelope
  .ok (message, headers)

end UdpServer

/-- `validation.origin` of `config/settings.yaml` -/
def settingsOrigin : Str := text "ls-1000"

/-- The server of `start_udp`, with the settings of the repository. -/
def startUdp (iterErrors : IterErrors) : UdpServer where
  topic := text "rtls.events"
  validator := some ⟨settingsOrigin, iterErrors⟩
  parser := some ⟨⟩
  jsonNormalizer := some ⟨settingsOrigin⟩
  envelopeVersion := text "1.0"
  envelopeRegistry := defaultEnvelopeRegistry
  eventType := text "position"

end RtlsStream.Receiver
