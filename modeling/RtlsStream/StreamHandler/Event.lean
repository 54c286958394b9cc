/-
  StreamHandler/Event.lean --- the normalised event, and the readers both
  normalisers share.

  `LS1000Parser` and `JsonStreamNormalizer` read the same kinds of field by the
  same rules; where they differ (only the first reads hexadecimal timestamps) the
  reader takes a parameter.  A `bool` passes `isinstance(value, int)` and is
  returned as it is, so an integer field may hold one.
-/
import RtlsStream.Python.Repr

set_option autoImplicit false

namespace RtlsStream.StreamHandler

open RtlsStream.Foundation RtlsStream.Python

/-- What passes `isinstance(value, int)`. -/
inductive PyInt where
  | int (n : Int)
  | bool (b : Bool)
  deriving DecidableEq

/-- The value as `json` sees it. -/
def PyInt.json : PyInt → Json
  | .int n => .int n
  | .bool b => .bool b

/-- `NormalizedEvent` -/
structure NormalizedEvent where
  origin : Str
  tagId : Str
  tsUtcMs : PyInt
  x : Option Binary64
  y : Option Binary64
  z : Option Binary64
  layer : Option PyInt
  area : Option Str
  status : Option Str
  sourceType : Str
  rawMessage : Str
  lng : Option Binary64
  lat : Option Binary64
  parseWarnings : List Str
  deriving DecidableEq

/-- `ParseError` -/
structure ParseError where
  code : Str
  message : Str
  rawMessage : Str
  sourceType : Str
  deriving DecidableEq

/-- `dataclasses.asdict`: the fields in the order of their declaration. -/
def asdict (e : NormalizedEvent) : Dict Json :=
  [(text "origin", .str e.origin), (text "tag_id", .str e.tagId),
    (text "ts_utc_ms", e.tsUtcMs.json), (text "x", .ofOption .float e.x),
    (text "y", .ofOption .float e.y), (text "z", .ofOption .float e.z),
    (text "layer", .ofOption PyInt.json e.layer), (text "area", .ofOption .str e.area),
    (text "status", .ofOption .str e.status), (text "source_type", .str e.sourceType),
    (text "raw_message", .str e.rawMessage), (text "lng", .ofOption .float e.lng),
    (text "lat", .ofOption .float e.lat), (text "parse_warnings", .arr (e.parseWarnings.map .str))]

variable [Runtime]

/-! ## Readers -/

/-- `_parse_int` of a string; `hex` says whether `0x` is understood. -/
def parseIntText (hex : Bool) (s : Str) : Option Int :=
  let t := strip s
  if t = [] then none
  else if hex ∧ (text "0x").isPrefixOf (Runtime.lower t) then intOfHexText t
  else intOfText t

/-- `_parse_int` -/
def parseInt (hex : Bool) : Json → Except PyError (Option PyInt)
  | .bool b => .ok (some (.bool b))
  | .int n => .ok (some (.int n))
  | .float x => (intOfFloat x).map fun n => some (.int n)
  | .str s => .ok ((parseIntText hex s).map .int)
  | .null | .arr _ | .obj _ => .ok none

/-- `_parse_float` of a string -/
def parseFloatText (s : Str) : Option Binary64 :=
  let t := strip s
  if t = [] then none else floatOfText t

/-- `_parse_float` -/
def parseFloat : Json → Except PyError (Option Binary64)
  | .bool b => (floatOfInt (if b then 1 else 0)).map some
  | .int n => (floatOfInt n).map some
  | .float x => .ok (some x)
  | .str s => .ok (parseFloatText s)
  | .null | .arr _ | .obj _ => .ok none

/-- The text `_first_str` takes a value for. -/
def parseStr : Json → Except PyError (Option Str)
  | .null => .ok none
  | v => (pyStr v).map fun s => if strip s = [] then none else some (strip s)

omit [Runtime] in
/-- The first of the keys whose value can be read; an absent key is read as `None` is. -/
def firstOf {α : Type} (parse : Json → Except PyError (Option α)) (obj : Dict Json) :
    List Str → Except PyError (Option α)
  | [] => .ok none
  | key :: keys =>
    match obj.get? key with
    | none => firstOf parse obj keys
    | some v =>
      match parse v with
      | .error e => .error e
      | .ok (some a) => .ok (some a)
      | .ok none => firstOf parse obj keys

omit [Runtime] in
/-- The values under the keys up to the first that can be read satisfy `p`. -/
def Under {α : Type} (parse : Json → Except PyError (Option α)) (p : Json → Prop)
    (obj : Dict Json) : List Str → Prop
  | [] => True
  | key :: keys =>
    match obj.get? key with
    | none => Under parse p obj keys
    | some v => p v ∧ (parse v = .ok none → Under parse p obj keys)

/-- `_first_str` -/
def firstStr (obj : Dict Json) (keys : List Str) : Except PyError (Option Str) :=
  firstOf parseStr obj keys

/-- `_first_int` -/
def firstInt (hex : Bool) (obj : Dict Json) (keys : List Str) : Except PyError (Option PyInt) :=
  firstOf (parseInt hex) obj keys

/-- `_first_float` -/
def firstFloat (obj : Dict Json) (keys : List Str) : Except PyError (Option Binary64) :=
  firstOf parseFloat obj keys

/-! ## Keys -/

omit [Runtime] in
/-- The keys a tag may stand under. -/
def tagKeys : List Str := [text "tag_id", text "devid", text "dev_id", text "tag", text "id"]

omit [Runtime] in
def tsKeys : List Str := [text "ts_utc_ms", text "timestamp", text "ts"]

omit [Runtime] in
def layerKeys : List Str := [text "layer", text "layid", text "floor"]

omit [Runtime] in
def lngKeys : List Str := [text "lng", text "lon", text "longitude"]

omit [Runtime] in
def latKeys : List Str := [text "lat", text "latitude"]

/-! ## Facts about the readers -/

omit [Runtime] in
/-- Keys under which nothing can be read give nothing. -/
theorem firstOf_none {α : Type} {parse : Json → Except PyError (Option α)} {obj : Dict Json}
    {keys : List Str}
    (h : ∀ key ∈ keys, ∀ v, obj.get? key = some v → parse v = .ok none) :
    firstOf parse obj keys = .ok none := by
  induction keys with
  | nil => rfl
  | cons key keys ih =>
    simp only [List.forall_mem_cons] at h
    have hrest := ih h.2
    unfold firstOf
    cases hv : obj.get? key with
    | none => exact hrest
    | some v => simpa [h.1 v hv] using hrest

omit [Runtime] in
/-- Only the values under the keys matter. -/
theorem firstOf_congr {α : Type} {parse : Json → Except PyError (Option α)} {obj obj' : Dict Json}
    {keys : List Str} (h : ∀ key ∈ keys, obj.get? key = obj'.get? key) :
    firstOf parse obj keys = firstOf parse obj' keys := by
  induction keys with
  | nil => rfl
  | cons key keys ih =>
    simp only [List.forall_mem_cons] at h
    unfold firstOf
    rw [h.1, ih h.2]

omit [Runtime] in
theorem under_congr {α : Type} {parse : Json → Except PyError (Option α)} {p : Json → Prop}
    {obj obj' : Dict Json} {keys : List Str} (h : ∀ key ∈ keys, obj.get? key = obj'.get? key) :
    Under parse p obj keys ↔ Under parse p obj' keys := by
  induction keys with
  | nil => exact Iff.rfl
  | cons key keys ih =>
    simp only [List.forall_mem_cons] at h
    unfold Under
    rw [h.1]
    cases obj'.get? key with
    | none => exact ih h.2
    | some v => simp only [ih h.2]

omit [Runtime] in
/-- Reading raises nothing exactly when none of the values it comes to does. -/
theorem firstOf_ok_iff {α : Type} {parse : Json → Except PyError (Option α)} {p : Json → Prop}
    {obj : Dict Json} {keys : List Str}
    (h : ∀ key v, obj.get? key = some v → ((∃ r, parse v = .ok r) ↔ p v)) :
    (∃ r, firstOf parse obj keys = .ok r) ↔ Under parse p obj keys := by
  induction keys with
  | nil => exact iff_of_true ⟨none, rfl⟩ trivial
  | cons key keys ih =>
    unfold firstOf Under
    cases hv : obj.get? key with
    | none => exact ih
    | some v =>
      simp only [← h key v hv]
      cases hread : parse v with
      | error e => simp
      | ok r =>
        cases r with
        | none => simpa using ih
        | some a => simp

end RtlsStream.StreamHandler
