/-
  StreamHandler/Reported.lean --- when `parse_message` returns.

  Every text message is answered with an event or a `ParseError`
  (`parseFields_returns`): what `_COORD_RE` matches, `float` can read.  A JSON message
  is not.  `_parse_json` catches `JSONDecodeError` only, and outside the `try` of their
  string branches `_parse_int` and `_parse_float` convert a float that is no number and
  an integer beyond the range of a double.  `reports_iff` says exactly which messages
  are answered.
-/
import RtlsStream.Foundation.Overflow
import RtlsStream.Python.JsonLimits
import RtlsStream.Python.Nesting
import RtlsStream.Python.Numerals
import RtlsStream.StreamHandler.Coordinates

set_option autoImplicit false

namespace RtlsStream.StreamHandler

open RtlsStream.Foundation RtlsStream.Python LS1000Parser

variable [Runtime]

/-! ## Coordinates in one field -/

/-- A match of `_COORD_RE`. -/
structure CoordText (sign digits fraction : Str) : Prop where
  sign : sign = [] ∨ sign = [43] ∨ sign = [45]
  digits : digits ≠ [] ∧ ∀ c ∈ digits, isDigit c
  fraction : fraction = [] ∨ ∃ ds, ds ≠ [] ∧ (∀ c ∈ ds, isDigit c) ∧ fraction = 46 :: ds

theorem matchCoord_sound {s coord rest : Str} (h : matchCoord s = some (coord, rest)) :
    ∃ sign digits fraction, coord = sign ++ digits ++ fraction ∧ CoordText sign digits fraction := by
  unfold matchCoord at h
  split at h
  rename_i sign unsigned hsign
  have hsign' : sign = [] ∨ sign = [43] ∨ sign = [45] := by
    split at hsign <;> obtain ⟨rfl, -⟩ := Prod.mk.inj hsign <;> simp
  simp only at h
  split at h
  · cases h
  · rename_i hdigits
    have hall : ∀ c ∈ unsigned.takeWhile isDigit, isDigit c :=
      fun c hc => List.mem_takeWhile_imp hc
    split at h
    · rename_i tail _
      split at h
      · obtain ⟨rfl, -⟩ := Prod.mk.inj (Option.some.inj h)
        exact ⟨sign, _, [], by simp, hsign', ⟨hdigits, hall⟩, Or.inl rfl⟩
      · rename_i hfraction
        obtain ⟨rfl, -⟩ := Prod.mk.inj (Option.some.inj h)
        exact ⟨sign, _, 46 :: tail.takeWhile isDigit, by simp, hsign', ⟨hdigits, hall⟩,
          Or.inr ⟨_, hfraction, fun c hc => List.mem_takeWhile_imp hc, rfl⟩⟩
    · obtain ⟨rfl, -⟩ := Prod.mk.inj (Option.some.inj h)
      exact ⟨sign, _, [], by simp, hsign', ⟨hdigits, hall⟩, Or.inl rfl⟩

theorem matchCoord_of_mem_findCoords {fuel : Nat} {s coord : Str}
    (h : coord ∈ findCoords fuel s) : ∃ s' rest, matchCoord s' = some (coord, rest) := by
  induction fuel generalizing s with
  | zero => cases h
  | succ fuel ih =>
    cases s with
    | nil => cases h
    | cons c tail =>
      unfold findCoords at h
      split at h
      · rename_i coord' rest' hmatch
        rcases List.mem_cons.mp h with rfl | h
        · exact ⟨_, _, hmatch⟩
        · exact ih h
      · exact ih h

/-- The double nearest to a match of `_COORD_RE`. -/
def coordValue (sign digits fraction : Str) : Binary64 :=
  .ofDecimal (sign = [45]) (ofDigitList 10 ((digits ++ fraction).filterMap decimalDigit))
    (-((fraction.length - 1 : Nat) : Int))

theorem spellsNumber_coord {sign digits fraction : Str} (h : CoordText sign digits fraction) :
    SpellsNumber (coordValue sign digits fraction)
      (toAsciiNumeral (sign ++ digits ++ fraction)) := by
  obtain ⟨hdigits, hlength⟩ := toAsciiNumeral_digits h.digits.2
  have hlt : ∀ {s : Str}, ∀ d ∈ s.filterMap decimalDigit, d < 10 := by
    intro s d hd
    obtain ⟨c, -, hc⟩ := List.mem_filterMap.mp hd
    exact decimalDigit_lt hc
  have hne : digits.filterMap decimalDigit ≠ [] := by
    rw [← List.length_pos_iff, hlength, List.length_pos_iff]
    exact h.digits.1
  have hsign : toAsciiNumeral sign = sign := by
    rcases h.sign with rfl | rfl | rfl <;> rfl
  refine ⟨sign, digits.filterMap decimalDigit, toAsciiNumeral fraction,
    fraction.filterMap decimalDigit, [], 0, h.sign, hlt, hlt, by simp [hne], ?_,
    Or.inl ⟨rfl, rfl⟩, ?_, ?_⟩
  · rcases h.fraction with rfl | ⟨fs, -, hfs, rfl⟩
    · exact Or.inr ⟨rfl, rfl⟩
    · left
      have hpoint : decimalDigit 46 = none := rfl
      rw [List.filterMap_cons_none hpoint, ← (toAsciiNumeral_digits hfs).1]
      rfl
  · rw [toAsciiNumeral_append, toAsciiNumeral_append, hsign, hdigits, List.append_nil,
      List.append_assoc]
  · rw [coordValue, List.filterMap_append]
    rcases h.fraction with rfl | ⟨fs, -, hfs, rfl⟩
    · rfl
    · have hpoint : decimalDigit 46 = none := rfl
      rw [List.filterMap_cons_none hpoint, (toAsciiNumeral_digits hfs).2]
      simp

/-- `float` reads a match as the number it stands for. -/
theorem floatOfText_coord {sign digits fraction : Str} (h : CoordText sign digits fraction) :
    floatOfText (sign ++ digits ++ fraction) = some (coordValue sign digits fraction) := by
  have hspelled := spellsNumber_coord h
  rw [floatOfText_congr (toAsciiNumeral_plain hspelled.plain).symm]
  exact floatOfText_spelled hspelled

/-- The coordinates of a text message are always found or missing. -/
theorem extractXyzFromTokens_returns (tokens : List Str) (start : Nat) :
    ∃ c, extractXyzFromTokens tokens start = .ok c := by
  unfold extractXyzFromTokens
  simp only
  split
  · exact ⟨_, rfl⟩
  · split
    · split
      · rename_i a b c rest hcoords
        have hread : ∀ s ∈ a :: b :: c :: rest, ∃ x, floatOrRaise s = .ok x := by
          intro s hs
          rw [← hcoords] at hs
          obtain ⟨s', rest', hmatch⟩ := matchCoord_of_mem_findCoords hs
          obtain ⟨sign, digits, fraction, rfl, htext⟩ := matchCoord_sound hmatch
          exact ⟨_, floatOrRaise_eq_ok.mpr (floatOfText_coord htext)⟩
        obtain ⟨x, hx⟩ := hread a (by simp)
        obtain ⟨y, hy⟩ := hread b (by simp)
        obtain ⟨z, hz⟩ := hread c (by simp)
        exact ⟨⟨some x, some y, some z⟩, by simp [hx, hy, hz, bind, Except.bind]⟩
      · exact ⟨_, rfl⟩
    · exact ⟨_, rfl⟩

/-- Every text message of a known type is answered. -/
theorem parseFields_returns (type : BaseType) (rawMessage : Str) (tokens : List Str) :
    ∃ r, parseFields type rawMessage tokens = .ok r := by
  cases parseFields_parsed type rawMessage tokens with
  | tooFew _ herror | badTime _ _ herror | badPlace _ _ _ _ herror =>
    obtain ⟨error, hr, -⟩ := herror
    exact ⟨_, hr⟩
  | raises hplace =>
    obtain ⟨p, hp⟩ := extractXyzFromTokens_returns tokens 5
    cases hplace.symm.trans hp
  | event _ _ _ hreturns => exact ⟨_, hreturns⟩

/-! ## Conversions -/

/-- `int(value)` does not raise for the value. -/
def IntConverts : Json → Prop
  | .float x => x.isFinite
  | _ => True

/-- `float(value)` does not raise for the value. -/
def FloatConverts : Json → Prop
  | .int n => n.natAbs < Binary64.overflowNat
  | _ => True

instance : DecidablePred FloatConverts
  | .int n => inferInstanceAs (Decidable (n.natAbs < Binary64.overflowNat))
  | .null | .bool _ | .float _ | .str _ | .arr _ | .obj _ => .isTrue trivial

/-- `str(value)` does not raise for the value. -/
def StrConverts (v : Json) : Prop := nesting v ≤ Runtime.reprDepth

theorem parseInt_returns_iff {hex : Bool} {v : Json} :
    (∃ r, parseInt hex v = .ok r) ↔ IntConverts v := by
  cases v with
  | float x => cases x <;> simp [parseInt, IntConverts, intOfFloat, Binary64.isFinite, Except.map]
  | null | bool | int | str | arr | obj => simp [parseInt, IntConverts]

omit [Runtime] in
theorem floatOfInt_returns_iff {n : Int} :
    (∃ x, floatOfInt n = .ok x) ↔ n.natAbs < Binary64.overflowNat := by
  rw [← Binary64.ofInt_isSome_iff]
  unfold floatOfInt
  cases Binary64.ofInt n <;> simp

theorem parseFloat_returns_iff {v : Json} : (∃ r, parseFloat v = .ok r) ↔ FloatConverts v := by
  cases v with
  | int n =>
    rw [FloatConverts, ← floatOfInt_returns_iff, parseFloat]
    cases floatOfInt n <;> simp [Except.map]
  | bool b =>
    have hsmall : (if b then (1 : Int) else 0).natAbs < Binary64.overflowNat := by
      cases b <;> decide +kernel
    obtain ⟨x, hx⟩ := floatOfInt_returns_iff.mpr hsmall
    simp [parseFloat, FloatConverts, hx, Except.map]
  | null | float | str | arr | obj => simp [parseFloat, FloatConverts]

theorem parseStr_returns_iff {style : DumpStyle} {room : Nat} {v : Json}
    (h : Dumpable style room v) : (∃ r, parseStr v = .ok r) ↔ StrConverts v := by
  rw [StrConverts, ← pyStr_ok_iff h]
  cases v with
  | null => simp [parseStr, pyStr, reprValue]
  | str s => simp [parseStr, pyStr, Except.map]
  | bool | int | float | arr | obj =>
    unfold parseStr
    cases hs : pyStr _ <;> simp [hs, Except.map]

/-! ## Objects -/

/-- The coordinates of a dictionary convert. -/
def XyzConvert (d : Dict Json) : Prop :=
  ∀ key ∈ [text "x", text "y", text "z"], ∀ v, d.get? key = some v → FloatConverts v

/-- The coordinates of a nested position convert, and where it lacks `x` or `y` those of the
object. -/
def PositionConverts (obj : Dict Json) : Prop :=
  match obj.get? (text "position") with
  | some (.obj position) => XyzConvert position ∧
      (¬ (Readable position "x" ∧ Readable position "y") → XyzConvert obj)
  | _ => XyzConvert obj

/-- What is read once there is a tag and a time converts. -/
structure FieldsConvert (obj : Dict Json) : Prop where
  position : PositionConverts obj
  lng : Under parseFloat FloatConverts obj lngKeys
  lat : Under parseFloat FloatConverts obj latKeys
  layer : Under (parseInt true) IntConverts obj layerKeys
  status : Under parseStr StrConverts obj [text "status"]
  area : Under parseStr StrConverts obj [text "area"]

/-- What the parser reads of an object converts. -/
def ObjectConverts (obj : Dict Json) : Prop :=
  isLs1000Json obj → Under parseStr StrConverts obj tagKeys ∧
    ∀ tag, firstStr obj tagKeys = .ok (some tag) →
      Under (parseInt true) IntConverts obj tsKeys ∧
        ∀ ts, firstInt true obj tsKeys = .ok (some ts) → FieldsConvert obj

theorem firstFloat_returns_iff {obj : Dict Json} {keys : List Str} :
    (∃ r, firstFloat obj keys = .ok r) ↔ Under parseFloat FloatConverts obj keys :=
  firstOf_ok_iff fun _ _ _ => parseFloat_returns_iff

theorem firstInt_returns_iff {obj : Dict Json} {keys : List Str} :
    (∃ r, firstInt true obj keys = .ok r) ↔ Under (parseInt true) IntConverts obj keys :=
  firstOf_ok_iff fun _ _ _ => parseInt_returns_iff

theorem firstStr_returns_iff {style : DumpStyle} {room : Nat} {obj : Dict Json}
    (h : Dumpable style room (.obj obj)) {keys : List Str} :
    (∃ r, firstStr obj keys = .ok r) ↔ Under parseStr StrConverts obj keys :=
  firstOf_ok_iff fun _ _ hget => parseStr_returns_iff (h.get? hget)

omit [Runtime] in
theorem bind_returns_iff {α β : Type} {x : Except PyError α} {f : α → Except PyError β} :
    (∃ b, (x >>= f) = .ok b) ↔ ∃ a, x = .ok a ∧ ∃ b, f a = .ok b := by
  simp only [bind_eq_ok]
  exact ⟨fun ⟨b, a, ha, hb⟩ => ⟨a, ha, b, hb⟩, fun ⟨a, ha, b, hb⟩ => ⟨b, a, ha, hb⟩⟩

theorem firstFloat_single (d : Dict Json) (key : Str) :
    (∃ r, firstFloat d [key] = .ok r) ↔ ∀ v, d.get? key = some v → FloatConverts v := by
  rw [firstFloat_returns_iff]
  unfold Under
  cases d.get? key <;> simp [Under]

theorem firstXyz_returns_iff {d : Dict Json} : (∃ c, firstXyz d = .ok c) ↔ XyzConvert d := by
  have hx := firstFloat_single d (text "x")
  have hy := firstFloat_single d (text "y")
  have hz := firstFloat_single d (text "z")
  simp only [firstXyz, bind_returns_iff, XyzConvert, List.forall_mem_cons, ← hx, ← hy, ← hz]
  constructor
  · rintro ⟨x, hx, y, hy, z, hz, -⟩
    exact ⟨⟨x, hx⟩, ⟨y, hy⟩, ⟨z, hz⟩, by simp⟩
  · rintro ⟨⟨x, hx⟩, ⟨y, hy⟩, ⟨z, hz⟩, -⟩
    exact ⟨x, hx, y, hy, z, hz, _, rfl⟩

theorem positionConverts_of_not_nested {obj : Dict Json}
    (h : ∀ position, obj.get? (text "position") ≠ some (.obj position)) :
    PositionConverts obj ↔ XyzConvert obj := by
  unfold PositionConverts
  split
  · rename_i position hposition
    exact absurd hposition (h position)
  · exact Iff.rfl

theorem extractXyzFromJson_returns_iff {obj : Dict Json} :
    (∃ c, extractXyzFromJson obj = .ok c) ↔ PositionConverts obj := by
  unfold extractXyzFromJson
  split
  · rename_i position hposition
    unfold PositionConverts
    simp only [hposition, floatAt_eq, bind_returns_iff, ← firstXyz_returns_iff]
    constructor
    · rintro ⟨x, hx, y, hy, z, hz, c, hc⟩
      refine ⟨⟨⟨x, y, z⟩, by simp [firstXyz, hx, hy, hz, bind, Except.bind]⟩, ?_⟩
      intro hnot
      rw [← floatAt_eq] at hx hy
      rw [readable_iff hx, readable_iff hy] at hnot
      rw [if_neg hnot] at hc
      exact ⟨c, hc⟩
    · rintro ⟨⟨c, hc⟩, hobj⟩
      simp only [firstXyz, bind_eq_ok] at hc
      obtain ⟨x, hx, y, hy, z, hz, -⟩ := hc
      refine ⟨x, hx, y, hy, z, hz, ?_⟩
      split
      · exact ⟨_, rfl⟩
      · rename_i hnot
        rw [← floatAt_eq] at hx hy
        rw [readable_iff hx, readable_iff hy] at hobj
        exact hobj hnot
  · rename_i hother
    rw [positionConverts_of_not_nested hother]
    exact firstXyz_returns_iff

theorem jsonEvent_returns_iff {style : DumpStyle} {room : Nat} {obj : Dict Json}
    (h : Dumpable style room (.obj obj)) (rawMessage tagId : Str) (ts : PyInt) :
    (∃ r, jsonEvent rawMessage obj tagId ts = .ok r) ↔ FieldsConvert obj := by
  simp only [jsonEvent, bind_returns_iff]
  constructor
  · rintro ⟨p, hp, lng, hlng, lat, hlat, layer, hlayer, status, hstatus, area, harea, -⟩
    exact ⟨extractXyzFromJson_returns_iff.mp ⟨p, hp⟩, firstFloat_returns_iff.mp ⟨lng, hlng⟩,
      firstFloat_returns_iff.mp ⟨lat, hlat⟩, firstInt_returns_iff.mp ⟨layer, hlayer⟩,
      (firstStr_returns_iff h).mp ⟨status, hstatus⟩, (firstStr_returns_iff h).mp ⟨area, harea⟩⟩
  · rintro ⟨hp, hlng, hlat, hlayer, hstatus, harea⟩
    obtain ⟨p, hp⟩ := extractXyzFromJson_returns_iff.mpr hp
    obtain ⟨lng, hlng⟩ := firstFloat_returns_iff.mpr hlng
    obtain ⟨lat, hlat⟩ := firstFloat_returns_iff.mpr hlat
    obtain ⟨layer, hlayer⟩ := firstInt_returns_iff.mpr hlayer
    obtain ⟨status, hstatus⟩ := (firstStr_returns_iff h).mpr hstatus
    obtain ⟨area, harea⟩ := (firstStr_returns_iff h).mpr harea
    exact ⟨p, hp, lng, hlng, lat, hlat, layer, hlayer, status, hstatus, area, harea, _, rfl⟩

theorem parseObject_returns_iff {style : DumpStyle} {room : Nat} {obj : Dict Json}
    (h : Dumpable style room (.obj obj)) (rawMessage : Str) :
    (∃ r, parseObject rawMessage obj = .ok r) ↔ ObjectConverts obj := by
  unfold parseObject ObjectConverts err
  rw [← firstStr_returns_iff h, ← firstInt_returns_iff]
  split
  · rename_i hmarkers
    simp [hmarkers]
  · rename_i hmarkers
    have hmarkers : isLs1000Json obj = true := by simpa using hmarkers
    simp only [hmarkers, true_imp_iff]
    split
    · rename_i e htag
      simp [htag]
    · rename_i htag
      simp [htag]
    · rename_i tag htag
      split
      · rename_i e hts
        simp [htag, hts]
      · rename_i hts
        simp [htag, hts]
      · rename_i ts hts
        rw [jsonEvent_returns_iff h]
        simp [htag, hts]

/-! ## Messages -/

/-- The message an event or an error was made of. -/
def rawMessageOf : Except ParseError NormalizedEvent → Str
  | .ok e => e.rawMessage
  | .error e => e.rawMessage

/-- `parse_message` returns an event or an error, which holds the message as it was given. -/
def Reports (s : Str) : Prop := ∃ r, parseMessage ⟨⟩ s = .ok r ∧ rawMessageOf r = s

/-- A JSON message within the limits of `json.loads` whose values convert, or a text message. -/
def Reportable (s : Str) : Prop :=
  (strip s).head? = some 123 → ¬ ValueBeyond Runtime.jsonDepth (strip s) ∧
    ∀ obj, loads (strip s) = .ok (.obj obj) → ObjectConverts obj

section

variable {rawMessage sourceType : Str} {e : ParseError}

omit [Runtime] in
theorem rawMessage_of_err {code message : String}
    (h : err rawMessage sourceType code message = .ok (.error e)) : e.rawMessage = rawMessage := by
  obtain rfl := Except.error.inj (Except.ok.inj h)
  rfl

theorem rawMessage_of_parseFields {type : BaseType} {tokens : List Str}
    (h : parseFields type rawMessage tokens = .ok (.error e)) : e.rawMessage = rawMessage := by
  cases parseFields_parsed type rawMessage tokens with
  | tooFew _ herror | badTime _ _ herror | badPlace _ _ _ _ herror =>
    obtain ⟨error, hr, -, hraw⟩ := herror
    obtain rfl := Except.error.inj (Except.ok.inj (hr.symm.trans h))
    exact hraw
  | raises _ hraises => cases hraises.symm.trans h
  | event _ _ _ hreturns => cases hreturns.symm.trans h

theorem rawMessage_of_parseObject {obj : Dict Json}
    (h : parseObject rawMessage obj = .ok (.error e)) : e.rawMessage = rawMessage := by
  unfold parseObject at h
  split at h
  · exact rawMessage_of_err h
  · split at h
    · cases h
    · exact rawMessage_of_err h
    · split at h
      · cases h
      · exact rawMessage_of_err h
      · simp only [jsonEvent, bind_eq_ok] at h
        obtain ⟨_, -, _, -, _, -, _, -, _, -, _, -, heq⟩ := h
        cases heq

theorem rawMessage_of_parseJson {raw : Str} (h : parseJson rawMessage raw = .ok (.error e)) :
    e.rawMessage = rawMessage := by
  unfold parseJson at h
  split at h
  · obtain rfl := Except.error.inj (Except.ok.inj h)
    rfl
  · cases h
  · rename_i v _
    cases v with
    | obj obj => exact rawMessage_of_parseObject h
    | null | bool | int | float | str | arr => cases h

theorem rawMessage_of_parseText {raw : Str} (h : parseText rawMessage raw = .ok (.error e)) :
    e.rawMessage = rawMessage := by
  rcases (parseText_parsed rawMessage raw).refused_or_fields with
    ⟨_, error, herror, -, hraw⟩ | ⟨type, -, hfields⟩
  · obtain rfl := Except.error.inj (Except.ok.inj (herror.symm.trans h))
    exact hraw
  · exact rawMessage_of_parseFields (hfields.trans h)

end

/-- What is returned holds the message as it was given. -/
theorem rawMessage_of_parseMessage {s : Str} {r : Except ParseError NormalizedEvent}
    (h : parseMessage ⟨⟩ s = .ok r) : rawMessageOf r = s := by
  cases r with
  | ok e =>
    rcases parseMessage_ok h with ⟨-, obj, -, hobject⟩ | ⟨-, type, -, hfields⟩
    · exact (parseObject_ok hobject).rawMessage
    · exact (parseFields_ok hfields).rawMessage
  | error e =>
    unfold parseMessage at h
    simp only at h
    split at h
    · exact rawMessage_of_err h
    · split at h
      · exact rawMessage_of_parseJson h
      · exact rawMessage_of_parseText h

/-- Every text message is answered. -/
theorem parseText_returns (rawMessage raw : Str) : ∃ r, parseText rawMessage raw = .ok r := by
  rcases (parseText_parsed rawMessage raw).refused_or_fields with
    ⟨_, error, herror, -⟩ | ⟨type, -, hfields⟩
  · exact ⟨_, herror⟩
  · exact hfields ▸ parseFields_returns _ _ _

theorem parseJson_returns_iff {rawMessage raw : Str} (hbrace : raw.head? = some 123) :
    (∃ r, parseJson rawMessage raw = .ok r) ↔ ¬ ValueBeyond Runtime.jsonDepth raw ∧
      ∀ obj, loads raw = .ok (.obj obj) → ObjectConverts obj := by
  rw [← loads_uncaught_iff hbrace]
  unfold parseJson
  cases hloads : loads raw with
  | error e =>
    cases e with
    | jsonDecodeError msg pos => simp [Uncaught]
    | _ => simp [Uncaught]
  | ok v =>
    obtain ⟨obj, rfl⟩ := obj_of_loads_brace hbrace hloads
    have hdumpable : Dumpable compact Runtime.jsonDepth (.obj obj) :=
      dumpable_of_decodeDocument (decodeDocument_of_loads hloads)
    simp [asDict, Except.bind, parseObject_returns_iff hdumpable]

/-- `parse_message` reports exactly the messages that are within the limits of `json.loads`
and whose values convert. -/
theorem reports_iff (s : Str) : Reports s ↔ Reportable s := by
  have hraw : Reports s ↔ ∃ r, parseMessage ⟨⟩ s = .ok r :=
    ⟨fun ⟨r, hr, _⟩ => ⟨r, hr⟩, fun ⟨r, hr⟩ => ⟨r, hr, rawMessage_of_parseMessage hr⟩⟩
  rw [hraw]
  unfold parseMessage Reportable
  simp only [err]
  split
  · rename_i hempty
    refine iff_of_true ⟨_, rfl⟩ ?_
    rw [hempty]
    intro hbrace
    cases hbrace
  · split
    · rename_i hbrace
      simp only [hbrace, true_imp_iff]
      exact parseJson_returns_iff hbrace
    · rename_i hbrace
      exact iff_of_true (parseText_returns _ _) fun h => absurd h hbrace

omit [Runtime] in
/-- A time of `1e999` is an infinity, and no integer. -/
theorem infinite_time_raises :
    ¬ @Reports asciiRuntime (text "\x7b\"devid\":\"00A320\",\"ts\":1e999\x7d") := by
  rintro ⟨r, hr, -⟩
  have hraises : (@parseMessage asciiRuntime ⟨⟩
      (text "\x7b\"devid\":\"00A320\",\"ts\":1e999\x7d")).isOk = false := by decide +kernel
  rw [hr] at hraises
  cases hraises

end RtlsStream.StreamHandler
