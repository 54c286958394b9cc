/-
  Receiver/Accepted.lean --- what the normaliser reads from a valid datagram.

  The schema requires a time of the form `YYYY-MM-DD HH:mm:ss.SSS`, and `int` reads
  no text with a colon in it; so neither the parser nor the normaliser ever finds a
  time in a datagram that the schema accepts (`firstInt_ts`).  What they do find is
  the tag, and coordinates that are numbers, which `float` converts unless an
  integer is too large for it.
-/
import RtlsStream.Python.Padding
import RtlsStream.Receiver.UdpServer
import Mathlib.Tactic.IntervalCases

set_option autoImplicit false

namespace RtlsStream.Receiver

open RtlsStream.Foundation RtlsStream.Python RtlsStream.StreamHandler

/-! ## Objects of a schema -/

/-- A member of an accepted object has a property, whose schema accepts its value. -/
theorem property_of_accepted {properties : List (Str × Scheme)} {required : List Str}
    {obj : Dict Json} (h : objectScheme properties required (.obj obj)) {key : Str} {v : Json}
    (hget : obj.get? key = some v) :
    ∃ property, properties.find? (·.1 = key) = some property ∧ property.2 v := by
  simp only [objectScheme, Bool.and_eq_true, List.all_eq_true] at h
  have hmember := h.1 _ (Dict.get?_eq_some_mem hget)
  split at hmember
  · rename_i property hproperty
    exact ⟨property, hproperty, hmember⟩
  · cases hmember

theorem absent_of_accepted {properties : List (Str × Scheme)} {required : List Str}
    {obj : Dict Json} (h : objectScheme properties required (.obj obj)) {key : Str}
    (hnone : properties.find? (·.1 = key) = none) : obj.get? key = none := by
  cases hget : obj.get? key with
  | none => rfl
  | some v =>
    obtain ⟨property, hproperty, -⟩ := property_of_accepted h hget
    rw [hnone] at hproperty
    cases hproperty

theorem required_of_accepted {properties : List (Str × Scheme)} {required : List Str}
    {obj : Dict Json} (h : objectScheme properties required (.obj obj)) (key : Str) (s : Scheme)
    (hkey : key ∈ required) (hproperty : properties.find? (·.1 = key) = some (key, s)) :
    ∃ v, obj.get? key = some v ∧ s v := by
  have hall := h
  simp only [objectScheme, Bool.and_eq_true, List.all_eq_true] at hall
  obtain ⟨v, hv⟩ := Dict.contains_iff.mp (hall.2 key hkey)
  obtain ⟨property, hproperty', haccepted⟩ := property_of_accepted h hv
  rw [hproperty] at hproperty'
  obtain rfl := Option.some.inj hproperty'
  exact ⟨v, hv, haccepted⟩

theorem obj_of_accepted {properties : List (Str × Scheme)} {required : List Str} {v : Json}
    (h : objectScheme properties required v) : ∃ obj, v = .obj obj := by
  cases v with
  | obj members => exact ⟨members, rfl⟩
  | null | bool | int | float | str | arr => cases h

/-! ## Times -/

theorem mem_takeSign {s : Str} {c : CodePoint} (hc : c ∈ s) (hplus : c ≠ 43) (hminus : c ≠ 45) :
    c ∈ (takeSign s).2 := by
  unfold takeSign
  split
  · simpa [hminus] using hc
  · simpa [hplus] using hc
  · exact hc

theorem mem_dropHexPrefix {s : Str} {c : CodePoint} (hc : c ∈ s)
    (h : c ∉ ([48, 120, 88, 95] : Str)) : c ∈ dropHexPrefix s := by
  simp only [List.mem_cons, List.not_mem_nil, or_false, not_or] at h
  obtain ⟨h₁, h₂, h₃, h₄⟩ := h
  unfold dropHexPrefix
  split <;> simpa [h₁, h₂, h₃, h₄] using hc

/-- Digits stop at what is neither a digit nor an underscore. -/
theorem readDigits_none (digit : CodePoint → Option Nat) {c : CodePoint} (hdigit : digit c = none)
    (hc : c ≠ 95) {due : Bool} {s : Str} (h : c ∈ s) : readDigits digit due s = none := by
  induction s generalizing due with
  | nil => cases h
  | cons d rest ih =>
    unfold readDigits
    rcases List.mem_cons.mp h with rfl | hrest
    · simp [hc, hdigit]
    · split
      · split
        · rfl
        · exact ih hrest
      · split
        · rfl
        · rw [ih hrest]
          rfl

variable [Runtime]

theorem mem_numeral {s : Str} {c : Nat} (hc : c ∈ s) (hascii : c < 128)
    (hspace : isAsciiSpace c = false) : c ∈ numeral s := by
  have hmem : c ∈ toAsciiNumeral s := List.mem_map.mpr ⟨c, hc, by simp [hascii]⟩
  exact mem_rdropWhile (mem_dropWhile hmem hspace) hspace

/-- `int` reads no text with a colon in it. -/
theorem intOfText_colon {s : Str} (h : 58 ∈ s) : intOfText s = none := by
  have hmem := mem_takeSign (mem_numeral h (by decide) (by decide)) (by decide) (by decide)
  unfold intOfText
  simp only [readDigits_none asciiDigit (by decide) (by decide) hmem]

theorem intOfHexText_colon {s : Str} (h : 58 ∈ s) : intOfHexText s = none := by
  have hmem := mem_dropHexPrefix (mem_takeSign (mem_numeral h (by decide) (by decide))
    (by decide) (by decide)) (by decide)
  unfold intOfHexText
  simp only [readDigits_none asciiHexDigit (by decide) (by decide) hmem]
  rfl

/-- A text of a shape has the characters the shape fixes. -/
theorem mem_of_fits {shape : List (Option CodePoint)} {s : Str} (h : fits shape s) {c : CodePoint}
    (hc : some c ∈ shape) : c ∈ s := by
  fun_induction fits shape s with
  | case1 => cases hc
  | case2 shape d s ih =>
    simp only [Bool.and_eq_true] at h
    have hrest : some c ∈ shape := by simpa using hc
    exact List.mem_cons_of_mem _ (ih h.2 hrest)
  | case3 d shape e s ih =>
    simp only [Bool.and_eq_true, decide_eq_true_eq] at h
    rcases List.mem_cons.mp hc with heq | hrest
    · obtain rfl := Option.some.inj heq
      rw [h.1]
      exact List.mem_cons_self
    · exact List.mem_cons_of_mem _ (ih h.2 hrest)
  | case4 => cases h

/-- No time of the schema's form is an integer to `_parse_int`. -/
theorem parseIntText_timestamp (hex : Bool) {s : Str} (h : timestampPattern s) :
    parseIntText hex s = none := by
  have hcolon : 58 ∈ dropFinalNewline s := mem_of_fits h (by decide)
  have hmem : 58 ∈ s := by
    unfold dropFinalNewline at hcolon
    split at hcolon
    · exact (List.dropLast_sublist _).subset hcolon
    · exact hcolon
  have hstrip := mem_strip hmem (by decide)
  unfold parseIntText
  simp only [intOfText_colon hstrip, intOfHexText_colon hstrip]
  split
  · rfl
  · split <;> rfl

/-! ## The readers on a valid datagram -/

omit [Runtime] in
/-- The keys a datagram may have. -/
def propertyKeys : List Str :=
  [text "devid", text "seq", text "timestamp", text "samples", text "position", text "lat",
    text "lng"]

/-- No other key is there. -/
theorem absent_key {obj : Dict Json} (h : scheme (.obj obj)) {key : Str}
    (hkey : key ∉ propertyKeys) : obj.get? key = none := by
  refine absent_of_accepted h (List.find?_eq_none.mpr ?_)
  intro property hproperty heq
  have hmem : property.1 ∈ properties.map (·.1) := List.mem_map_of_mem hproperty
  have hkeys : properties.map (·.1) = propertyKeys := rfl
  rw [hkeys, of_decide_eq_true heq] at hmem
  exact hkey hmem

/-- Neither the parser nor the normaliser finds a time. -/
theorem firstInt_ts (hex : Bool) {obj : Dict Json} (h : scheme (.obj obj)) :
    firstInt hex obj tsKeys = .ok none := by
  refine firstOf_none ?_
  intro key hkey v hv
  obtain ⟨property, hproperty, haccepted⟩ := property_of_accepted h hv
  simp only [tsKeys, List.mem_cons, List.not_mem_nil, or_false] at hkey
  rcases hkey with rfl | rfl | rfl
  · rw [absent_key h (by decide)] at hv
    cases hv
  · have hsome : properties.find? (·.1 = text "timestamp") =
      some (text "timestamp", patternScheme timestampPattern) := rfl
    rw [hsome] at hproperty
    obtain rfl := Option.some.inj hproperty
    cases v with
    | str s => simp [parseInt, parseIntText_timestamp hex haccepted]
    | null | bool | int | float | arr | obj => cases haccepted
  · rw [absent_key h (by decide)] at hv
    cases hv

/-- Nothing is read from keys that are no property. -/
theorem firstOf_absent {α : Type} (parse : Json → Except PyError (Option α)) {obj : Dict Json}
    (h : scheme (.obj obj)) {keys : List Str}
    (hkeys : ∀ key ∈ keys, key ∉ propertyKeys) : firstOf parse obj keys = .ok none := by
  refine firstOf_none ?_
  intro key hkey v hv
  rw [absent_key h (hkeys key hkey)] at hv
  cases hv

omit [Runtime] in
theorem isUpperHex_ascii {c : Nat} (h : isUpperHex c) : c < 128 ∧ isSpace c = false ∧ c ≠ 0 := by
  have hrange : 48 ≤ c ∧ c ≤ 70 := by
    simp only [isUpperHex, Bool.or_eq_true, Bool.and_eq_true, decide_eq_true_eq] at h
    rcases h with ⟨hlo, hhi⟩ | ⟨hlo, hhi⟩
    · exact ⟨hlo, hhi.trans (by norm_num)⟩
    · exact ⟨le_trans (by norm_num) hlo, hhi⟩
  obtain ⟨hlo, hhi⟩ := hrange
  interval_cases c <;> decide

omit [Runtime] in
/-- The characters of a device's name: hexadecimal digits, and a newline at the end. -/
theorem chars_of_hexPattern {s : Str} (h : hexPattern s) :
    (∃ c ∈ s, isUpperHex c) ∧ ∀ c ∈ s, isUpperHex c ∨ c = 10 := by
  simp only [hexPattern, Bool.and_eq_true, decide_eq_true_eq, List.all_eq_true] at h
  obtain ⟨hne, hall⟩ := h
  have hsub : (dropFinalNewline s).Sublist s := by
    unfold dropFinalNewline
    split
    · exact List.dropLast_sublist _
    · exact List.Sublist.refl _
  constructor
  · obtain ⟨c, rest, hcons⟩ := List.exists_cons_of_ne_nil hne
    have hc : c ∈ dropFinalNewline s := by simp [hcons]
    exact ⟨c, hsub.subset hc, hall c hc⟩
  · intro c hc
    unfold dropFinalNewline at hall
    split at hall
    · rename_i hlast
      obtain ⟨front, rfl⟩ := List.getLast?_eq_some_iff.mp hlast
      rcases List.mem_append.mp hc with hc | hc
      · exact Or.inl (hall c (by simpa using hc))
      · exact Or.inr (by simpa using hc)
    · exact Or.inl (hall c hc)

/-- The tag of a valid datagram is the name of its device. -/
theorem firstStr_tag {obj : Dict Json} (h : scheme (.obj obj)) :
    ∃ devid, obj.get? (text "devid") = some (.str devid) ∧
      firstStr obj tagKeys = .ok (some (strip devid)) ∧
      ∀ c ∈ strip devid, (c : Nat) < 128 ∧ c ≠ 0 := by
  obtain ⟨v, hget, haccepted⟩ := required_of_accepted h (text "devid") (stringScheme hexPattern 1 32)
    (by decide) rfl
  have habsent : obj.get? (text "tag_id") = none := absent_key h (by decide)
  cases v with
  | str s =>
    simp only [stringScheme, Bool.and_eq_true] at haccepted
    obtain ⟨⟨c, hc, hhex⟩, hchars⟩ := chars_of_hexPattern haccepted.1.1
    have hne : strip s ≠ [] := List.ne_nil_of_mem (mem_strip hc (isUpperHex_ascii hhex).2.1)
    refine ⟨s, hget, ?_, ?_⟩
    · simp [firstStr, tagKeys, firstOf, habsent, hget, parseStr, pyStr, Except.map, hne]
    · intro d hd
      rcases hchars d (mem_of_mem_strip hd) with hd' | rfl
      · exact ⟨(isUpperHex_ascii hd').1, (isUpperHex_ascii hd').2.2⟩
      · decide
  | null | bool | int | float | arr | obj => cases haccepted

/-! ## Coordinates -/

omit [Runtime] in
/-- An integer `float` raises `OverflowError` for. -/
def tooLarge : Json → Bool
  | .int n => (Binary64.ofInt n).isNone
  | _ => false

theorem parseFloat_number {v : Json} (h : numberScheme v) (hsmall : tooLarge v = false) :
    ∃ x, parseFloat v = .ok (some x) := by
  cases v with
  | int n =>
    simp only [tooLarge, Option.isNone_eq_false_iff, Option.isSome_iff_exists] at hsmall
    obtain ⟨x, hx⟩ := hsmall
    exact ⟨x, by simp [parseFloat, floatOfInt, hx, Except.map]⟩
  | float x => exact ⟨x, rfl⟩
  | null | bool | str | arr | obj => cases h

/-- Where `float` returns, the value was not too large for it. -/
theorem small_of_parseFloat {v : Json} {r : Option Binary64} (h : parseFloat v = .ok r) :
    tooLarge v = false := by
  cases v with
  | int n =>
    obtain ⟨x, hx, -⟩ := map_eq_ok.mp h
    unfold floatOfInt at hx
    split at hx
    · rename_i hsome
      simp [tooLarge, hsome]
    · cases hx
  | null | bool | float | str | arr | obj => rfl

omit [Runtime] in
/-- The coordinates of a datagram. -/
def coordinates (obj : Dict Json) : List Json :=
  (match obj.get? (text "position") with
    | some (.obj position) => [text "x", text "y", text "z"].filterMap (Dict.get? position)
    | _ => []) ++ [text "lng", text "lat"].filterMap obj.get?

omit [Runtime] in
theorem firstOf_single {α : Type} (parse : Json → Except PyError (Option α)) {obj : Dict Json}
    {key : Str} {v : Json} (hget : obj.get? key = some v) :
    firstOf parse obj [key] = parse v := by
  simp only [firstOf, hget]
  cases parse v with
  | error => rfl
  | ok r => cases r <;> rfl

/-- The coordinates in `position` are all there and are all numbers. -/
theorem position_of_accepted {obj : Dict Json} (h : scheme (.obj obj)) :
    ∃ position x y z, obj.get? (text "position") = some (.obj position) ∧
      Dict.get? position (text "x") = some x ∧ Dict.get? position (text "y") = some y ∧
      Dict.get? position (text "z") = some z ∧ numberScheme x ∧ numberScheme y ∧ numberScheme z := by
  obtain ⟨v, hget, haccepted⟩ := required_of_accepted h (text "position") positionScheme
    (by decide) rfl
  obtain ⟨position, rfl⟩ := obj_of_accepted haccepted
  obtain ⟨x, hx, hx'⟩ := required_of_accepted haccepted (text "x") numberScheme
    (by decide) rfl
  obtain ⟨y, hy, hy'⟩ := required_of_accepted haccepted (text "y") numberScheme
    (by decide) rfl
  obtain ⟨z, hz, hz'⟩ := required_of_accepted haccepted (text "z") numberScheme
    (by decide) rfl
  exact ⟨position, x, y, z, hget, hx, hy, hz, hx', hy', hz'⟩

/-- A coordinate that may be missing. -/
theorem firstFloat_optional {obj : Dict Json} (h : scheme (.obj obj)) (key : Str)
    (others : List Str) (hproperty : properties.find? (·.1 = key) = some (key, numberScheme))
    (hothers : ∀ k ∈ others, k ∉ propertyKeys)
    (hsmall : ∀ v, obj.get? key = some v → tooLarge v = false) :
    ∃ r, firstFloat obj (key :: others) = .ok r := by
  have hrest := firstOf_absent parseFloat h hothers
  unfold firstFloat firstOf
  cases hget : obj.get? key with
  | none => exact ⟨none, hrest⟩
  | some v =>
    obtain ⟨property, hproperty', haccepted⟩ := property_of_accepted h hget
    rw [hproperty] at hproperty'
    obtain rfl := Option.some.inj hproperty'
    obtain ⟨x, hx⟩ := parseFloat_number haccepted (hsmall v hget)
    exact ⟨some x, by simp [hx]⟩

/-- A number that is read is there. -/
theorem isSome_of_number {d : Dict Json} {key : Str} {v : Json} {r : Option Binary64}
    (hget : d.get? key = some v) (hv : numberScheme v) (h : firstFloat d [key] = .ok r) :
    r.isSome := by
  rw [firstFloat, firstOf_single _ hget] at h
  obtain ⟨x, hx⟩ := parseFloat_number hv (small_of_parseFloat h)
  obtain rfl := Except.ok.inj (hx.symm.trans h)
  rfl

/-- A valid object has its coordinates where the parser would look for them. -/
theorem coordinates_of_event {self : JsonStreamNormalizer} {obj : Dict Json}
    (h : scheme (.obj obj)) {rawMessage tag : Str} {now : Int} {e : NormalizedEvent}
    (hevent : self.eventOf obj rawMessage now tag = .ok e) :
    ∃ position, obj.get? (text "position") = some (.obj position) ∧
      JsonStreamNormalizer.xyzOf position = .ok (e.x, e.y, e.z) ∧ e.x.isSome ∧ e.y.isSome ∧
      firstFloat obj lngKeys = .ok e.lng ∧ firstFloat obj latKeys = .ok e.lat := by
  obtain ⟨position, x, y, z, hposition, hx, hy, -, hx', hy', -⟩ := position_of_accepted h
  have hread := JsonStreamNormalizer.eventOf_eq_ok.mp hevent
  have hp := hread.xyz
  simp only [JsonStreamNormalizer.extractXyz, hposition, bind_eq_ok] at hp
  obtain ⟨⟨qx, qy, qz⟩, hnested, hchoice⟩ := hp
  obtain ⟨hqx, hqy, -⟩ := JsonStreamNormalizer.xyzOf_eq_ok.mp hnested
  have hxSome := isSome_of_number hx hx' hqx
  rw [if_pos (Or.inl hxSome)] at hchoice
  obtain ⟨rfl, hyz⟩ := Prod.mk.inj (Except.ok.inj hchoice)
  obtain ⟨rfl, rfl⟩ := Prod.mk.inj hyz
  exact ⟨position, hposition, hnested, hxSome, isSome_of_number hy hy' hqy, hread.lng, hread.lat⟩

omit [Runtime] in
/-- The first key is always tried. -/
theorem firstOf_head {α : Type} {parse : Json → Except PyError (Option α)} {obj : Dict Json}
    {key : Str} {others : List Str} {r : Option α} (h : firstOf parse obj (key :: others) = .ok r)
    {v : Json} (hget : obj.get? key = some v) : ∃ r', parse v = .ok r' := by
  simp only [firstOf, hget] at h
  cases hv : parse v with
  | error e => simp [hv] at h
  | ok r' => exact ⟨r', rfl⟩

/-! ## The event of a valid datagram -/

omit [Runtime] in
/-- An event whose time is the clock's. -/
structure FromClock (origin rawMessage : Str) (now : Int) (tagId : Str) (e : NormalizedEvent) :
    Prop where
  origin : e.origin = origin
  tagId : e.tagId = tagId
  tsUtcMs : e.tsUtcMs = .int now
  layer : e.layer = none
  area : e.area = none
  status : e.status = none
  sourceType : e.sourceType = text "json"
  rawMessage : e.rawMessage = rawMessage
  parseWarnings : e.parseWarnings = [JsonStreamNormalizer.timestampMissing]

theorem eventOf_fromClock {self : JsonStreamNormalizer} {obj : Dict Json} (h : scheme (.obj obj))
    {rawMessage tagId : Str} {now : Int} {e : NormalizedEvent}
    (hevent : self.eventOf obj rawMessage now tagId = .ok e) :
    FromClock self.origin rawMessage now tagId e := by
  have hlayer : firstInt false obj layerKeys = .ok none := firstOf_absent _ h (by decide)
  have harea : firstStr obj [text "area", text "rgn"] = .ok none := firstOf_absent _ h (by decide)
  have hstatus : firstStr obj [text "status"] = .ok none := firstOf_absent _ h (by decide)
  have hread := JsonStreamNormalizer.eventOf_eq_ok.mp hevent
  obtain ⟨ts, hts, htime, hwarnings⟩ := hread.time
  obtain rfl := Except.ok.inj ((firstInt_ts false h).symm.trans hts)
  exact ⟨hread.origin, hread.tagId, htime, Except.ok.inj (hread.layer.symm.trans hlayer),
    Except.ok.inj (hread.area.symm.trans harea), Except.ok.inj (hread.status.symm.trans hstatus),
    hread.sourceType, hread.rawMessage, hwarnings⟩

omit [Runtime] in
theorem mem_coordinates {obj position : Dict Json}
    (hposition : obj.get? (text "position") = some (.obj position)) {v : Json} :
    v ∈ coordinates obj ↔ (∃ key ∈ [text "x", text "y", text "z"], Dict.get? position key = some v) ∨
      ∃ key ∈ [text "lng", text "lat"], obj.get? key = some v := by
  simp only [coordinates, hposition, List.mem_append, List.mem_filterMap]

/-- There is an event unless `float` raises for one of the coordinates. -/
theorem eventOf_ok_iff (self : JsonStreamNormalizer) {obj : Dict Json} (h : scheme (.obj obj))
    (rawMessage : Str) (now : Int) (tagId : Str) :
    (∃ e, self.eventOf obj rawMessage now tagId = .ok e) ↔
      ∀ v ∈ coordinates obj, tooLarge v = false := by
  obtain ⟨position, x, y, z, hposition, hx, hy, hz, hx', hy', hz'⟩ := position_of_accepted h
  have hlayer : firstInt false obj layerKeys = .ok none := firstOf_absent _ h (by decide)
  have harea : firstStr obj [text "area", text "rgn"] = .ok none := firstOf_absent _ h (by decide)
  have hstatus : firstStr obj [text "status"] = .ok none := firstOf_absent _ h (by decide)
  simp only [mem_coordinates hposition]
  constructor
  · rintro ⟨e, he⟩ v hv
    have hread := JsonStreamNormalizer.eventOf_eq_ok.mp he
    have hp := hread.xyz
    simp only [JsonStreamNormalizer.extractXyz, hposition, bind_eq_ok] at hp
    obtain ⟨⟨qx, qy, qz⟩, hq, -⟩ := hp
    obtain ⟨hqx, hqy, hqz⟩ := JsonStreamNormalizer.xyzOf_eq_ok.mp hq
    have hsmall : ∀ {d : Dict Json} {key : Str} {others : List Str} {r : Option Binary64},
        firstFloat d (key :: others) = .ok r → d.get? key = some v → tooLarge v = false := by
      intro d key others r hread hget
      obtain ⟨r', hr'⟩ := firstOf_head hread hget
      exact small_of_parseFloat hr'
    simp only [List.mem_cons, List.not_mem_nil, or_false] at hv
    rcases hv with ⟨key, rfl | rfl | rfl, hget⟩ | ⟨key, rfl | rfl, hget⟩
    · exact hsmall hqx hget
    · exact hsmall hqy hget
    · exact hsmall hqz hget
    · exact hsmall hread.lng hget
    · exact hsmall hread.lat hget
  · intro hsmall
    obtain ⟨fx, hfx⟩ := parseFloat_number hx' (hsmall x (Or.inl ⟨_, by simp, hx⟩))
    obtain ⟨fy, hfy⟩ := parseFloat_number hy' (hsmall y (Or.inl ⟨_, by simp, hy⟩))
    obtain ⟨fz, hfz⟩ := parseFloat_number hz' (hsmall z (Or.inl ⟨_, by simp, hz⟩))
    have hxyz : JsonStreamNormalizer.xyzOf position = .ok (some fx, some fy, some fz) := by
      simp only [JsonStreamNormalizer.xyzOf, firstFloat, firstOf_single _ hx, firstOf_single _ hy,
        firstOf_single _ hz, hfx, hfy, hfz]
      rfl
    have hp : JsonStreamNormalizer.extractXyz obj = .ok (some fx, some fy, some fz) := by
      simp only [JsonStreamNormalizer.extractXyz, hposition, hxyz]
      rfl
    obtain ⟨lng, hlng⟩ := firstFloat_optional h (text "lng")
      [text "lon", text "longitude"] rfl (by decide)
      fun v hv => hsmall v (Or.inr ⟨_, by simp, hv⟩)
    obtain ⟨lat, hlat⟩ := firstFloat_optional h (text "lat")
      [text "latitude"] rfl (by decide) fun v hv => hsmall v (Or.inr ⟨_, by simp, hv⟩)
    have hlng' : firstFloat obj lngKeys = .ok lng := hlng
    have hlat' : firstFloat obj latKeys = .ok lat := hlat
    simp only [JsonStreamNormalizer.eventOf, firstInt_ts false h, hp, hlng', hlat', hlayer, harea,
      hstatus]
    exact ⟨_, rfl⟩

end RtlsStream.Receiver
