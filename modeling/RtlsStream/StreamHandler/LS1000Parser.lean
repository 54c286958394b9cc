/-
  StreamHandler/LS1000Parser.lean --- `LS1000Parser.parse_message`.

  A message is either a JSON object or `<type>:<payload>` with comma-separated
  fields.  The parser returns an event or a `ParseError`; apart from that it lets
  through what `json.loads` raises besides `JSONDecodeError`, and what `int` and
  `float` raise on a number they cannot convert.
-/
import RtlsStream.StreamHandler.Event

set_option autoImplicit false

namespace RtlsStream.StreamHandler

open RtlsStream.Foundation RtlsStream.Python

/-- `LS1000Parser` keeps no state. -/
structure LS1000Parser where
  deriving DecidableEq

/-- An event or a parse error, unless the call raises. -/
abbrev Parsed : Type := Except PyError (Except ParseError NormalizedEvent)

namespace LS1000Parser

/-! ## The types of a message -/

/-- `_BASE_TYPES` -/
inductive BaseType where
  | display
  | status1
  | status2
  | gpsposi
  deriving DecidableEq

/-- The name a message uses for the type. -/
def BaseType.name : BaseType → Str
  | .display => text "display"
  | .status1 => text "status1"
  | .status2 => text "status2"
  | .gpsposi => text "gpsposi"

/-- The type of a name. -/
def baseType (name : Str) : Option BaseType :=
  [BaseType.display, .status1, .status2, .gpsposi].find? fun t => t.name = name

/-- `_UNSUPPORTED_TYPES` -/
def unsupportedTypes : List Str := [text "warning", text "summary", text "rawdata"]

/-- `_JSON_MARKERS` -/
def jsonMarkers : List Str := [text "devid", text "seq", text "samples", text "position"]

/-! ## Helpers -/

/-- `tokens[i]`, where the number of tokens was checked before. -/
def token (tokens : List Str) (i : Nat) : Str := tokens.getD i []

/-- `_safe_token` -/
def safeToken (tokens : List Str) (i : Nat) : Option Str :=
  if tokens.length ≤ i then none
  else if strip (token tokens i) = [] then none else some (strip (token tokens i))

/-- `_err` -/
def err (rawMessage sourceType : Str) (code message : String) : Parsed :=
  .ok (.error ⟨text code, text message, rawMessage, sourceType⟩)

variable [Runtime]

/-- `\d` of a regular expression -/
def isDigit (c : CodePoint) : Bool := (decimalDigit c).isSome

/-- A match of `_COORD_RE` at the start of a text, and the rest. -/
def matchCoord (s : Str) : Option (Str × Str) :=
  let (sign, unsigned) : Str × Str := match s with
    | 43 :: rest => ([43], rest)
    | 45 :: rest => ([45], rest)
    | _ => ([], s)
  let digits := unsigned.takeWhile isDigit
  if digits = [] then none
  else match unsigned.dropWhile isDigit with
    | 46 :: rest =>
      let fraction := rest.takeWhile isDigit
      if fraction = [] then some (sign ++ digits, 46 :: rest)
      else some (sign ++ digits ++ 46 :: fraction, rest.dropWhile isDigit)
    | rest => some (sign ++ digits, rest)

/-- The matches of `_COORD_RE` from the left; the fuel is the length of the text. -/
def findCoords : (fuel : Nat) → Str → List Str
  | 0, _ => []
  | _ + 1, [] => []
  | fuel + 1, c :: rest =>
    match matchCoord (c :: rest) with
    | some (coord, rest') => coord :: findCoords fuel rest'
    | none => findCoords fuel rest

/-- `float(text)` outside a `try` -/
def floatOrRaise (s : Str) : Except PyError Binary64 :=
  match floatOfText s with
  | some x => .ok x
  | none => .error (.valueError (text "could not convert string to float"))

/-- `x`, `y` and `z`, each of which may be missing. -/
structure Coordinates where
  x : Option Binary64
  y : Option Binary64
  z : Option Binary64

/-- `_extract_xyz_from_tokens`: three fields, or one field with three numbers in it. -/
def extractXyzFromTokens (tokens : List Str) (start : Nat) : Except PyError Coordinates :=
  let fields : Option (Binary64 × Binary64 × Binary64) :=
    if start + 3 ≤ tokens.length then do
      let x ← parseFloatText (token tokens start)
      let y ← parseFloatText (token tokens (start + 1))
      let z ← parseFloatText (token tokens (start + 2))
      some (x, y, z)
    else none
  match fields with
  | some (x, y, z) => .ok ⟨some x, some y, some z⟩
  | none =>
    if start < tokens.length then
      match findCoords (token tokens start).length (token tokens start) with
      | a :: b :: c :: _ => do
        let x ← floatOrRaise a
        let y ← floatOrRaise b
        let z ← floatOrRaise c
        .ok ⟨some x, some y, some z⟩
      | _ => .ok ⟨none, none, none⟩
    else .ok ⟨none, none, none⟩

/-! ## Text messages -/

/-- What the event of a text message does not read from its fields. -/
def textEvent (rawMessage : Str) (type : BaseType) (tagId : Str) (ts : Int) : NormalizedEvent where
  origin := text "ls-1000"
  tagId := tagId
  tsUtcMs := .int ts
  x := none
  y := none
  z := none
  layer := none
  area := none
  status := none
  sourceType := type.name
  rawMessage := rawMessage
  lng := none
  lat := none
  parseWarnings := []

/-- `_parse_int` of a field, as a layer -/
def layerOf (s : Str) : Option PyInt := (parseIntText true s).map .int

/-- `_parse_display` -/
def parseDisplay (rawMessage : Str) (tokens : List Str) : Parsed :=
  if tokens.length < 5 then
    err rawMessage (text "display") "invalid_payload" "display requires at least 5 fields"
  else match parseIntText true (token tokens 3) with
    | none => err rawMessage (text "display") "invalid_timestamp" "Invalid TIMESTAMP field"
    | some ts => do
      let p ← extractXyzFromTokens tokens 5
      .ok (.ok { textEvent rawMessage .display (token tokens 1) ts with
        x := p.x
        y := p.y
        z := p.z
        layer := layerOf (token tokens 4)
        area := if p.x.isNone then safeToken tokens 6 else none })

/-- `_parse_status1` -/
def parseStatus1 (rawMessage : Str) (tokens : List Str) : Parsed :=
  if tokens.length < 6 then
    err rawMessage (text "status1") "invalid_payload" "status1 requires at least 6 fields"
  else match parseIntText true (token tokens 3) with
    | none => err rawMessage (text "status1") "invalid_timestamp" "Invalid TIMESTAMP field"
    | some ts =>
      .ok (.ok { textEvent rawMessage .status1 (token tokens 2) ts with
        layer := layerOf (token tokens 5)
        status := safeToken tokens 7 })

/-- `_parse_status2` -/
def parseStatus2 (rawMessage : Str) (tokens : List Str) : Parsed :=
  if tokens.length < 4 then
    err rawMessage (text "status2") "invalid_payload" "status2 requires at least 4 fields"
  else match parseIntText true (token tokens 3) with
    | none => err rawMessage (text "status2") "invalid_timestamp" "Invalid TIMESTAMP field"
    | some ts =>
      .ok (.ok { textEvent rawMessage .status2 (token tokens 1) ts with
        layer := if 4 < tokens.length then layerOf (token tokens 4) else none })

/-- `_parse_gpsposi` -/
def parseGpsposi (rawMessage : Str) (tokens : List Str) : Parsed :=
  if tokens.length < 7 then
    err rawMessage (text "gpsposi") "invalid_payload" "gpsposi requires at least 7 fields"
  else match parseIntText true (token tokens 3) with
    | none => err rawMessage (text "gpsposi") "invalid_timestamp" "Invalid TIMESTAMP field"
    | some ts =>
      match parseFloatText (token tokens 5), parseFloatText (token tokens 6) with
      | some lng, some lat =>
        .ok (.ok { textEvent rawMessage .gpsposi (token tokens 1) ts with
          z := if 7 < tokens.length then parseFloatText (token tokens 7) else none
          layer := layerOf (token tokens 4)
          lng := some lng
          lat := some lat })
      | _, _ => err rawMessage (text "gpsposi") "invalid_coordinates" "Invalid lng/lat values"

/-- The parser of a type. -/
def parseFields : BaseType → Str → List Str → Parsed
  | .display => parseDisplay
  | .status1 => parseStatus1
  | .status2 => parseStatus2
  | .gpsposi => parseGpsposi

/-! ## JSON messages -/

/-- `_is_ls1000_json` -/
def isLs1000Json (obj : Dict Json) : Bool :=
  jsonMarkers.any obj.contains &&
    (match obj.get? (text "position") with
      | none | some .null | some (.obj _) => true
      | some _ => false) &&
    (match obj.get? (text "samples") with
      | none | some .null | some (.arr _) => true
      | some _ => false)

/-- `_parse_float(d.get(key))` -/
def floatAt (d : Dict Json) (key : String) : Except PyError (Option Binary64) :=
  parseFloat ((d.get? (text key)).getD .null)

/-- `_first_float` of the three coordinates -/
def firstXyz (obj : Dict Json) : Except PyError Coordinates := do
  let x ← firstFloat obj [text "x"]
  let y ← firstFloat obj [text "y"]
  let z ← firstFloat obj [text "z"]
  .ok ⟨x, y, z⟩

/-- `_extract_xyz_from_json` -/
def extractXyzFromJson (obj : Dict Json) : Except PyError Coordinates :=
  match obj.get? (text "position") with
  | some (.obj position) => do
    let x ← floatAt position "x"
    let y ← floatAt position "y"
    let z ← floatAt position "z"
    if x.isSome ∧ y.isSome then .ok ⟨x, y, z⟩ else firstXyz obj
  | _ => firstXyz obj

/-- The event of a JSON message whose tag and time have been read. -/
def jsonEvent (rawMessage : Str) (obj : Dict Json) (tagId : Str) (ts : PyInt) : Parsed := do
  let p ← extractXyzFromJson obj
  let lng ← firstFloat obj lngKeys
  let lat ← firstFloat obj latKeys
  let layer ← firstInt true obj layerKeys
  let status ← firstStr obj [text "status"]
  let area ← firstStr obj [text "area"]
  .ok (.ok {
    origin := text "ls-1000"
    tagId := tagId
    tsUtcMs := ts
    x := p.x
    y := p.y
    z := p.z
    layer := layer
    area := area
    status := status
    sourceType := text "json"
    rawMessage := rawMessage
    lng := lng
    lat := lat
    parseWarnings := [] })

/-- `_parse_json` of the object that was read -/
def parseObject (rawMessage : Str) (obj : Dict Json) : Parsed :=
  if ¬ isLs1000Json obj then
    err rawMessage (text "json") "unsupported_json_payload"
      "JSON payload does not match LS-1000 markers"
  else match firstStr obj tagKeys with
    | .error e => .error e
    | .ok none => err rawMessage (text "json") "missing_field" "Missing tag id in JSON payload"
    | .ok (some tagId) =>
      match firstInt true obj tsKeys with
      | .error e => .error e
      | .ok none => err rawMessage (text "json") "missing_field" "Missing timestamp in JSON payload"
      | .ok (some ts) => jsonEvent rawMessage obj tagId ts

/-- `_parse_json`.  A text that starts with a brace is read as an object or not at all. -/
def parseJson (rawMessage raw : Str) : Parsed :=
  match loads raw with
  | .error (.jsonDecodeError msg pos) =>
    .ok (.error ⟨text "invalid_json", text "Invalid JSON: " ++ jsonErrorText raw msg pos, rawMessage,
      text "json"⟩)
  | .error e => .error e
  | .ok v => (asDict v).bind (parseObject rawMessage)

/-! ## `parse_message` -/

/-- The part of `parse_message` behind the check for a brace. -/
def parseText (rawMessage raw : Str) : Parsed :=
  if 58 ∉ raw then
    err rawMessage (text "unknown") "invalid_format" "Expected '<type>:<payload>' format"
  else
    let sourceType := Runtime.lower (strip (splitFirst 58 raw).1)
    if sourceType ∈ unsupportedTypes then
      .ok (.error ⟨text "unsupported_message_type",
        text "Message type '" ++ sourceType ++ text "' is not included in MVP", rawMessage,
        sourceType⟩)
    else match baseType sourceType with
      | none => .ok (.error ⟨text "unknown_message_type",
          text "Unknown message type '" ++ sourceType ++ text "'", rawMessage, sourceType⟩)
      | some type =>
        let tokens := (split 44 (splitFirst 58 raw).2).map strip
        if tokens.all (·.isEmpty) then
          err rawMessage sourceType "invalid_payload" "Payload is empty"
        else parseFields type rawMessage tokens

/-- `parse_message` -/
def parseMessage (_ : LS1000Parser) (rawMessage : Str) : Parsed :=
  let raw := strip rawMessage
  if raw = [] then err rawMessage (text "unknown") "empty_message" "Message is empty"
  else if raw.head? = some 123 then parseJson rawMessage raw
  else parseText rawMessage raw

end LS1000Parser

end RtlsStream.StreamHandler
