/-
  StreamHandler/PathsAgree.lean --- the two readers of JSON objects compared.

  `LS1000Parser._parse_json` and `JsonStreamNormalizer.normalize` read the same keys
  with helpers of their own, and differ in three places: only the first reads
  hexadecimal integers, the first takes a nested position only with both `x` and `y`
  and the second with any coordinate, and only the second takes `rgn` for the area.
  An object that the first accepts gives the second the same event exactly when it
  meets none of the three (`paths_agree_iff`).
-/
import RtlsStream.StreamHandler.JsonNormalizer
import RtlsStream.StreamHandler.EventFields

set_option autoImplicit false

namespace RtlsStream.StreamHandler

open RtlsStream.Foundation RtlsStream.Python LS1000Parser JsonStreamNormalizer

section

variable [Runtime]

/-! ## Integers -/

/-- Under the keys up to the first that can be read, both `_parse_int` read the same; or
they do not, and yet both find the same number. -/
def ReadAlike (obj : Dict Json) : List Str → Prop
  | [] => True
  | key :: keys =>
    match obj.get? key with
    | none => ReadAlike obj keys
    | some v =>
      (parseInt false v = parseInt true v → parseInt true v = .ok none → ReadAlike obj keys) ∧
      (parseInt false v ≠ parseInt true v →
        firstInt false obj (key :: keys) = firstInt true obj (key :: keys))

/-- Only a hexadecimal literal is read differently. -/
theorem hexadecimal_of_parseInt_ne {v : Json} (h : parseInt false v ≠ parseInt true v) :
    ∃ s, v = .str s ∧ (text "0x").isPrefixOf (Runtime.lower (strip s)) := by
  cases v with
  | str s =>
    refine ⟨s, rfl, ?_⟩
    by_contra hprefix
    exact h (by simp [parseInt, parseIntText, hprefix])
  | null | bool | int | float | arr | obj => exact absurd rfl h

theorem readAlike_iff (obj : Dict Json) (keys : List Str) :
    ReadAlike obj keys ↔ firstInt false obj keys = firstInt true obj keys := by
  induction keys with
  | nil => exact ⟨fun _ => rfl, fun _ => trivial⟩
  | cons key keys ih =>
    unfold ReadAlike
    cases hv : obj.get? key with
    | none =>
      simp only [firstInt, firstOf, hv]
      exact ih
    | some v =>
      by_cases hsame : parseInt false v = parseInt true v
      · simp only [hsame, ne_eq, not_true_eq_false, false_imp_iff, and_true, true_imp_iff]
        simp only [firstInt, firstOf, hv, hsame]
        cases hread : parseInt true v with
        | error e => simp
        | ok r =>
          cases r with
          | none => simpa [firstInt] using ih
          | some n => simp
      · simp [hsame]

/-! ## Coordinates -/

/-- `_parse_float` reads the value under the key. -/
def Readable (d : Dict Json) (key : String) : Prop :=
  ∃ v a, d.get? (text key) = some v ∧ parseFloat v = .ok (some a)

/-- A nested position has both `x` and `y`, or no coordinate, or those of the object. -/
def PositionAlike (obj : Dict Json) : Prop :=
  ∀ position, obj.get? (text "position") = some (.obj position) →
    (Readable position "x" ∧ Readable position "y") ∨
      (¬ Readable position "x" ∧ ¬ Readable position "y" ∧ ¬ Readable position "z") ∨
        xyzOf position = xyzOf obj

theorem floatAt_eq (d : Dict Json) (key : String) : floatAt d key = firstFloat d [text key] := by
  unfold floatAt firstFloat firstOf
  cases d.get? (text key) with
  | none => rfl
  | some v =>
    cases hv : parseFloat v with
    | error e => simp [hv]
    | ok r => cases r <;> simp [hv, firstOf]

theorem readable_iff {d : Dict Json} {key : String} {a : Option Binary64}
    (h : floatAt d key = .ok a) : Readable d key ↔ a.isSome := by
  unfold floatAt at h
  unfold Readable
  cases hv : d.get? (text key) with
  | none =>
    rw [hv] at h
    cases h
    simp
  | some v =>
    rw [hv, Option.getD_some] at h
    constructor
    · rintro ⟨v', b, hv', hb⟩
      obtain rfl := Option.some.inj hv'
      rw [h] at hb
      simp [Except.ok.inj hb]
    · intro hsome
      obtain ⟨b, rfl⟩ := Option.isSome_iff_exists.mp hsome
      exact ⟨v, b, rfl, h⟩

/-- Which of three coordinates are readable. -/
theorem readable_of_xyzOf {d : Dict Json} {x y z : Option Binary64} (h : xyzOf d = .ok (x, y, z)) :
    (Readable d "x" ↔ x.isSome) ∧ (Readable d "y" ↔ y.isSome) ∧ (Readable d "z" ↔ z.isSome) := by
  obtain ⟨hx, hy, hz⟩ := xyzOf_eq_ok.mp h
  rw [← floatAt_eq] at hx hy hz
  exact ⟨readable_iff hx, readable_iff hy, readable_iff hz⟩

theorem firstXyz_eq_ok {obj : Dict Json} {c : Coordinates} :
    firstXyz obj = .ok c ↔ xyzOf obj = .ok (c.x, c.y, c.z) := by
  rw [xyzOf_eq_ok]
  simp only [firstXyz, bind_eq_ok]
  constructor
  · rintro ⟨x, hx, y, hy, z, hz, hc⟩
    obtain rfl := Except.ok.inj hc
    exact ⟨hx, hy, hz⟩
  · rintro ⟨hx, hy, hz⟩
    exact ⟨c.x, hx, c.y, hy, c.z, hz, rfl⟩

/-- Without a nested position the coordinates are those of the object. -/
theorem extractXyz_of_not_nested {obj : Dict Json}
    (h : ∀ position, obj.get? (text "position") ≠ some (.obj position)) :
    extractXyz obj = xyzOf obj := by
  unfold extractXyz
  split
  · rename_i position hposition
    exact absurd hposition (h position)
  · rfl

/-- With a nested position the coordinates are those of the position, if it has any. -/
theorem extractXyz_of_nested {obj position : Dict Json}
    (hposition : obj.get? (text "position") = some (.obj position)) {x y z : Option Binary64}
    (hnested : xyzOf position = .ok (x, y, z)) :
    extractXyz obj = if x.isSome ∨ y.isSome ∨ z.isSome then .ok (x, y, z) else xyzOf obj := by
  simp only [extractXyz, hposition, hnested]
  rfl

/-- Where `_extract_xyz_from_json` has its coordinates from. -/
inductive XyzFromJson (obj : Dict Json) (c : Coordinates) : Prop where
  | nested {position : Dict Json} (hposition : obj.get? (text "position") = some (.obj position))
    (hxyz : xyzOf position = .ok (c.x, c.y, c.z)) (hboth : c.x.isSome ∧ c.y.isSome)
  | incomplete {position : Dict Json}
    (hposition : obj.get? (text "position") = some (.obj position)) {x y z : Option Binary64}
    (hnested : xyzOf position = .ok (x, y, z)) (hboth : ¬(x.isSome ∧ y.isSome))
    (hxyz : xyzOf obj = .ok (c.x, c.y, c.z))
  | flat (hother : ∀ position, obj.get? (text "position") ≠ some (.obj position))
    (hxyz : xyzOf obj = .ok (c.x, c.y, c.z))

theorem xyzFromJson {obj : Dict Json} {c : Coordinates} (h : extractXyzFromJson obj = .ok c) :
    XyzFromJson obj c := by
  unfold extractXyzFromJson at h
  split at h
  · rename_i position hposition
    simp only [bind_eq_ok, floatAt_eq] at h
    obtain ⟨x, hx, y, hy, z, hz, hc⟩ := h
    have hnested : xyzOf position = .ok (x, y, z) := xyzOf_eq_ok.mpr ⟨hx, hy, hz⟩
    split at hc
    · rename_i hboth
      obtain rfl := Except.ok.inj hc
      exact .nested hposition hnested hboth
    · rename_i hboth
      exact .incomplete hposition hnested hboth (firstXyz_eq_ok.mp hc)
  · rename_i hother
    exact .flat hother (firstXyz_eq_ok.mp h)

/-- Where the parser has read coordinates, the normaliser reads the same exactly when the
position is alike. -/
theorem extractXyz_eq_iff {obj : Dict Json} {c : Coordinates}
    (h : extractXyzFromJson obj = .ok c) :
    extractXyz obj = .ok (c.x, c.y, c.z) ↔ PositionAlike obj := by
  cases xyzFromJson h with
  | nested hposition hxyz hboth =>
    rw [extractXyz_of_nested hposition hxyz, if_pos (Or.inl hboth.1)]
    refine iff_of_true rfl fun position' hposition' => Or.inl ?_
    obtain rfl := Json.obj.inj (Option.some.inj (hposition.symm.trans hposition'))
    obtain ⟨hx, hy, -⟩ := readable_of_xyzOf hxyz
    exact ⟨hx.mpr hboth.1, hy.mpr hboth.2⟩
  | @incomplete position hposition x y z hnested hboth hxyz =>
    obtain ⟨hx, hy, hz⟩ := readable_of_xyzOf hnested
    rw [extractXyz_of_nested hposition hnested]
    simp only [PositionAlike, hposition, Option.some.injEq, Json.obj.injEq, forall_eq', hnested, hx,
      hy, hz, hxyz]
    by_cases hany : x.isSome ∨ y.isSome ∨ z.isSome
    · have hnone : ¬ (¬ x.isSome ∧ ¬ y.isSome ∧ ¬ z.isSome) := by
        simpa only [← not_or, not_not] using hany
      rw [if_pos hany]
      simp only [hboth, hnone, false_or]
    · have hnone : ¬ x.isSome ∧ ¬ y.isSome ∧ ¬ z.isSome := by
        simpa only [not_or] using hany
      rw [if_neg hany]
      exact iff_of_true rfl (Or.inr (Or.inl hnone))
  | flat hother hxyz =>
    rw [extractXyz_of_not_nested hother]
    exact iff_of_true hxyz fun position hposition => (hother position hposition).elim

/-! ## Areas -/

/-- The text of the value is blank, or there is none. -/
def Blank (obj : Dict Json) (key : String) : Prop :=
  ∀ v, obj.get? (text key) = some v → parseStr v = .ok none

/-- `area` says something, or `rgn` does not. -/
def AreaAlike (obj : Dict Json) : Prop := Blank obj "area" → Blank obj "rgn"

/-- The first key decides, unless its text is blank. -/
theorem firstStr_cons {obj : Dict Json} {key : String} (keys : List Str) {r : Option Str}
    (h : firstStr obj [text key] = .ok r) :
    firstStr obj (text key :: keys) = (match r with
      | some s => .ok (some s)
      | none => firstStr obj keys) ∧ (r = none ↔ Blank obj key) := by
  rw [firstStr, firstOf] at h
  rw [firstStr, firstOf]
  unfold Blank
  cases hv : obj.get? (text key) with
  | none =>
    rw [hv] at h
    cases h
    simp [firstStr]
  | some v =>
    rw [hv] at h
    simp only at h
    cases hread : parseStr v with
    | error e =>
      rw [hread] at h
      cases h
    | ok s =>
      rw [hread] at h
      cases s with
      | none =>
        cases h
        simp [hread, firstStr]
      | some s =>
        cases h
        simp [hread]

/-- The normaliser finds the same area exactly when the area is alike. -/
theorem firstStr_area_iff {obj : Dict Json} {r : Option Str}
    (h : firstStr obj [text "area"] = .ok r) :
    firstStr obj [text "area", text "rgn"] = .ok r ↔ AreaAlike obj := by
  obtain ⟨hcons, hblank⟩ := firstStr_cons [text "rgn"] h
  rw [hcons, AreaAlike, ← hblank]
  cases r with
  | some s => simp
  | none =>
    simp only [true_imp_iff]
    constructor
    · intro hrgn
      exact (firstStr_cons [] hrgn).2.mp rfl
    · intro hrgn
      refine firstOf_none ?_
      intro key hkey v hv
      obtain rfl := List.mem_singleton.mp hkey
      exact hrgn v hv

/-! ## The event -/

/-- The fields that the two events are to share. -/
structure SameFields (e e' : NormalizedEvent) : Prop where
  tagId : e'.tagId = e.tagId
  tsUtcMs : e'.tsUtcMs = e.tsUtcMs
  x : e'.x = e.x
  y : e'.y = e.y
  z : e'.z = e.z
  lng : e'.lng = e.lng
  lat : e'.lat = e.lat
  layer : e'.layer = e.layer
  area : e'.area = e.area
  status : e'.status = e.status

/-- The object meets none of the differences. -/
structure Alike (obj : Dict Json) : Prop where
  ts : ReadAlike obj tsKeys
  layer : ReadAlike obj layerKeys
  position : PositionAlike obj
  area : AreaAlike obj

/-- What the parser has read of an object it accepts. -/
theorem reads_of_parseObject {rawMessage : Str} {obj : Dict Json} {e : NormalizedEvent}
    (h : parseObject rawMessage obj = .ok (.ok e)) :
    ObjectEvent rawMessage obj e ∧ extractXyzFromJson obj = .ok ⟨e.x, e.y, e.z⟩ ∧
      firstFloat obj lngKeys = .ok e.lng ∧ firstFloat obj latKeys = .ok e.lat := by
  refine ⟨parseObject_ok h, ?_⟩
  unfold parseObject at h
  split at h
  · cases h
  · split at h
    · cases h
    · cases h
    · split at h
      · cases h
      · cases h
      · simp only [jsonEvent, bind_eq_ok] at h
        obtain ⟨p, hp, lng, hlng, lat, hlat, layer, -, status, -, area, -, heq⟩ := h
        obtain rfl := Except.ok.inj (Except.ok.inj heq)
        exact ⟨hp, hlng, hlat⟩

/-- An object that `_parse_json` accepts gives `normalize` an event with the same fields and
no warning exactly when it meets none of the differences. -/
theorem paths_agree_iff {rawMessage : Str} {obj : Dict Json} {e : NormalizedEvent}
    (h : parseObject rawMessage obj = .ok (.ok e)) (self : JsonStreamNormalizer) (now : Int) :
    (∃ e', self.normalize (.obj obj) rawMessage now = .ok (some e') ∧ e'.parseWarnings = [] ∧
      SameFields e e') ↔ Alike obj := by
  obtain ⟨hread, hxyz, hlng, hlat⟩ := reads_of_parseObject h
  simp only [normalize_eq_ok hread.tagId]
  constructor
  · rintro ⟨e', he', hwarnings, hsame⟩
    constructor
    case ts =>
      obtain ⟨ts, hts, htime, hwarned⟩ := he'.time
      rw [readAlike_iff, hts, hread.tsUtcMs]
      cases ts with
      | none => cases hwarnings.symm.trans hwarned
      | some ts => rw [← hsame.tsUtcMs, htime, Option.getD_some]
    case layer =>
      rw [readAlike_iff, he'.layer, hread.layer]
      exact congrArg Except.ok hsame.layer
    case position =>
      rw [← extractXyz_eq_iff hxyz, he'.xyz]
      simp [← hsame.x, ← hsame.y, ← hsame.z]
    case area =>
      rw [← firstStr_area_iff hread.area, he'.area]
      exact congrArg Except.ok hsame.area
  · rintro ⟨hts, hlayer, hposition, harea⟩
    rw [readAlike_iff, hread.tsUtcMs] at hts
    rw [readAlike_iff, hread.layer] at hlayer
    rw [← extractXyz_eq_iff hxyz] at hposition
    rw [← firstStr_area_iff hread.area] at harea
    refine ⟨{ e with origin := self.origin, parseWarnings := [] }, ?_, rfl,
      ⟨rfl, rfl, rfl, rfl, rfl, rfl, rfl, rfl, rfl, rfl⟩⟩
    exact ⟨rfl, rfl, ⟨some e.tsUtcMs, hts, rfl, rfl⟩, hposition, hlayer, harea, hread.status,
      hread.sourceType, hread.rawMessage, hlng, hlat⟩

end

/-! ## An object that is read in two ways -/

section Examples

attribute [local instance] asciiRuntime

theorem eq_ok_of_toOption {ε α : Type} {x : Except ε α} {a : α} (h : x.toOption = some a) :
    x = .ok a := by
  cases x with
  | error e => cases h
  | ok b => exact congrArg Except.ok (Option.some.inj h)

/-- A message that a run of the parser shows to be accepted. -/
theorem exists_event {ε ε' α β : Type} {x : Except ε (Except ε' α)} {f : α → β} {b : β}
    (h : (x.toOption.bind Except.toOption).map f = some b) : ∃ a, x = .ok (.ok a) ∧ f a = b := by
  obtain ⟨a, ha, hf⟩ := Option.map_eq_some_iff.mp h
  obtain ⟨parsed, hparse, hevent⟩ := Option.bind_eq_some_iff.mp ha
  rw [eq_ok_of_toOption hevent] at hparse
  exact ⟨a, eq_ok_of_toOption hparse, hf⟩

/-- `{"devid":"00A320","ts":16,"position":{"z":1},"rgn":"hall"}` -/
def sampleObject : Dict Json :=
  [(text "devid", .str (text "00A320")), (text "ts", .int 16),
    (text "position", .obj [(text "z", .int 1)]), (text "rgn", .str (text "hall"))]

/-- The nested `z` and the area are the normaliser's only. -/
theorem paths_disagree :
    ∃ e e', parseObject [] sampleObject = .ok (.ok e) ∧
      (JsonStreamNormalizer.mk (text "ls-1000")).normalize (.obj sampleObject) [] 0 =
        .ok (some e') ∧ (e.z, e.area) = (none, none) ∧
      (e'.z.isSome, e'.area) = (true, some (text "hall")) := by
  have hparsed : ((parseObject [] sampleObject).toOption.bind Except.toOption).map
      (fun e => (e.z, e.area)) = some (none, none) := by decide +kernel
  have hnormalized : ((JsonStreamNormalizer.mk (text "ls-1000")).normalize (.obj sampleObject)
      [] 0).toOption.join.map (fun e => (e.z.isSome, e.area)) =
        some (true, some (text "hall")) := by decide +kernel
  obtain ⟨e, hevent, hfields⟩ := exists_event hparsed
  obtain ⟨e', he', hfields'⟩ := Option.map_eq_some_iff.mp hnormalized
  have hnormalize := eq_ok_of_toOption (Option.join_eq_some_iff.mp he')
  exact ⟨e, e', hevent, hnormalize, hfields, hfields'⟩

/-- `{"devid":"00A320","ts":16,"x":3,"y":4,"area":"hall"}` -/
def plainObject : Dict Json :=
  [(text "devid", .str (text "00A320")), (text "ts", .int 16), (text "x", .int 3),
    (text "y", .int 4), (text "area", .str (text "hall"))]

/-- An object without a nested position, with a decimal time and its area under `area`. -/
theorem paths_agree_iff_plain :
    ∃ e e', parseObject [] plainObject = .ok (.ok e) ∧
      (JsonStreamNormalizer.mk (text "ls-1000")).normalize (.obj plainObject) [] 0 =
        .ok (some e') ∧ e'.parseWarnings = [] ∧ SameFields e e' := by
  have hparsed : ((parseObject [] plainObject).toOption.bind Except.toOption).map (·.area) =
      some (some (text "hall")) := by decide +kernel
  obtain ⟨e, hevent, -⟩ := exists_event hparsed
  have halike : Alike plainObject := by
    constructor
    case ts => exact (readAlike_iff _ _).mpr rfl
    case layer => exact (readAlike_iff _ _).mpr rfl
    case position =>
      have hnone : plainObject.get? (text "position") = none := by decide
      intro position hposition
      rw [hnone] at hposition
      cases hposition
    case area =>
      have hnone : plainObject.get? (text "rgn") = none := by decide
      intro _ v hv
      rw [hnone] at hv
      cases hv
  obtain ⟨e', he', hwarnings, hsame⟩ := (paths_agree_iff hevent ⟨text "ls-1000"⟩ 0).mpr halike
  exact ⟨e, e', hevent, he', hwarnings, hsame⟩

end Examples

end RtlsStream.StreamHandler
