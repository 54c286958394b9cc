/-
  StreamHandler/Coordinates.lean --- when the coordinates of an event are finite.

  `float` reads the words `nan` and `inf`, and it takes a numeral beyond the range of
  a double for an infinity; `json.loads` does the same with `NaN`, `Infinity` and
  `1e999`.  No reader checks what it got.  So an event has finite coordinates exactly
  when the values it reads them from are finite: those of the first readable keys of
  an object (`finiteEvent_object_iff`), and those of the fields of a text message
  (`finiteEvent_fields_iff`).
-/
import RtlsStream.StreamHandler.PathsAgree

set_option autoImplicit false

namespace RtlsStream.StreamHandler

open RtlsStream.Foundation RtlsStream.Python LS1000Parser JsonStreamNormalizer

/-- The coordinate is missing or finite. -/
def FiniteOption (c : Option Binary64) : Prop := ∀ x ∈ c, x.isFinite

instance (c : Option Binary64) : Decidable (FiniteOption c) :=
  inferInstanceAs (Decidable (∀ x ∈ c, x.isFinite))

/-- Every coordinate of the event is missing or finite. -/
def FiniteEvent (e : NormalizedEvent) : Prop := ∀ c ∈ [e.x, e.y, e.z, e.lng, e.lat], FiniteOption c

instance (e : NormalizedEvent) : Decidable (FiniteEvent e) :=
  inferInstanceAs (Decidable (∀ c ∈ _, FiniteOption c))

theorem finiteEvent_iff {e : NormalizedEvent} :
    FiniteEvent e ↔ (FiniteOption e.x ∧ FiniteOption e.y ∧ FiniteOption e.z) ∧
      FiniteOption e.lng ∧ FiniteOption e.lat := by
  simp [FiniteEvent, and_assoc]

theorem finiteOption_none : FiniteOption none := by simp [FiniteOption]

theorem finiteOption_some {x : Binary64} : FiniteOption (some x) ↔ x.isFinite := by
  simp [FiniteOption]

/-- An integer that is converted is finite. -/
theorem isFinite_of_floatOfInt {n : Int} {x : Binary64} (h : floatOfInt n = .ok x) :
    x.isFinite := by
  unfold floatOfInt Binary64.ofInt at h
  split at h
  · rename_i hround
    split at hround
    · obtain rfl := Option.some.inj hround
      obtain rfl := Except.ok.inj h
      rfl
    · cases hround
  · cases h

variable [Runtime]

/-! ## Objects -/

/-- Neither `NaN` nor an infinity, as a number or as a text that is read as one. -/
def FiniteValue : Json → Prop
  | .float x => x.isFinite
  | .str s => FiniteOption (parseFloatText s)
  | _ => True

/-- Under the keys up to the first that can be read, the values are finite. -/
def FiniteUnder (obj : Dict Json) (keys : List Str) : Prop :=
  Under parseFloat FiniteValue obj keys

/-- The values of the three coordinates are finite. -/
def FiniteXyz (obj : Dict Json) : Prop :=
  FiniteUnder obj [text "x"] ∧ FiniteUnder obj [text "y"] ∧ FiniteUnder obj [text "z"]

/-- The coordinates of a nested position with `x` and `y` are finite, or without one those of
the object. -/
def FinitePosition (obj : Dict Json) : Prop :=
  match obj.get? (text "position") with
  | some (.obj position) =>
    (Readable position "x" ∧ Readable position "y" → FiniteXyz position) ∧
      (¬ (Readable position "x" ∧ Readable position "y") → FiniteXyz obj)
  | _ => FiniteXyz obj

/-- The values that an object's coordinates are read from are finite. -/
structure FiniteObject (obj : Dict Json) : Prop where
  position : FinitePosition obj
  lng : FiniteUnder obj lngKeys
  lat : FiniteUnder obj latKeys

theorem finiteValue_iff {v : Json} {r : Option Binary64} (h : parseFloat v = .ok r) :
    FiniteValue v ↔ FiniteOption r := by
  cases v with
  | null | arr | obj =>
    obtain rfl := Except.ok.inj h
    simp [FiniteValue, finiteOption_none]
  | bool b =>
    obtain ⟨x, hx, rfl⟩ := map_eq_ok.mp h
    simp [FiniteValue, finiteOption_some, isFinite_of_floatOfInt hx]
  | int n =>
    obtain ⟨x, hx, rfl⟩ := map_eq_ok.mp h
    simp [FiniteValue, finiteOption_some, isFinite_of_floatOfInt hx]
  | float x =>
    obtain rfl := Except.ok.inj h
    simp [FiniteValue, finiteOption_some]
  | str s =>
    obtain rfl := Except.ok.inj h
    exact Iff.rfl

/-- What is read is finite exactly when the values are. -/
theorem finiteUnder_iff {obj : Dict Json} {keys : List Str} {r : Option Binary64}
    (h : firstFloat obj keys = .ok r) : FiniteUnder obj keys ↔ FiniteOption r := by
  unfold firstFloat at h
  unfold FiniteUnder
  induction keys with
  | nil =>
    obtain rfl := Except.ok.inj h
    simp [Under, finiteOption_none]
  | cons key keys ih =>
    unfold firstOf at h
    unfold Under
    cases hv : obj.get? key with
    | none =>
      rw [hv] at h
      exact ih h
    | some v =>
      rw [hv] at h
      simp only at h ⊢
      cases hread : parseFloat v with
      | error e =>
        rw [hread] at h
        cases h
      | ok first =>
        rw [hread] at h
        cases first with
        | none => simp [finiteValue_iff hread, finiteOption_none, ih h]
        | some x =>
          obtain rfl := Except.ok.inj h
          simp [finiteValue_iff hread]

theorem finiteXyz_iff {obj : Dict Json} {x y z : Option Binary64}
    (h : xyzOf obj = .ok (x, y, z)) :
    FiniteXyz obj ↔ FiniteOption x ∧ FiniteOption y ∧ FiniteOption z := by
  obtain ⟨hx, hy, hz⟩ := xyzOf_eq_ok.mp h
  rw [FiniteXyz, finiteUnder_iff hx, finiteUnder_iff hy, finiteUnder_iff hz]

theorem finitePosition_of_not_nested {obj : Dict Json}
    (h : ∀ position, obj.get? (text "position") ≠ some (.obj position)) :
    FinitePosition obj ↔ FiniteXyz obj := by
  unfold FinitePosition
  split
  · rename_i position hposition
    exact absurd hposition (h position)
  · exact Iff.rfl

theorem finitePosition_iff {obj : Dict Json} {c : Coordinates}
    (h : extractXyzFromJson obj = .ok c) :
    FinitePosition obj ↔ FiniteOption c.x ∧ FiniteOption c.y ∧ FiniteOption c.z := by
  cases xyzFromJson h with
  | nested hposition hxyz hboth =>
    obtain ⟨hx, hy, -⟩ := readable_of_xyzOf hxyz
    simp only [FinitePosition, hposition, hx, hy, hboth, and_self, true_imp_iff,
      not_true_eq_false, false_imp_iff, and_true]
    exact finiteXyz_iff hxyz
  | incomplete hposition hnested hboth hxyz =>
    obtain ⟨hx, hy, -⟩ := readable_of_xyzOf hnested
    simp only [FinitePosition, hposition, hx, hy, hboth, not_false_eq_true, true_imp_iff,
      false_imp_iff, true_and]
    exact finiteXyz_iff hxyz
  | flat hother hxyz =>
    rw [finitePosition_of_not_nested hother]
    exact finiteXyz_iff hxyz

/-- The parser's event of an object has finite coordinates exactly when the values it reads
them from are finite. -/
theorem finiteEvent_object_iff {rawMessage : Str} {obj : Dict Json} {e : NormalizedEvent}
    (h : parseObject rawMessage obj = .ok (.ok e)) : FiniteEvent e ↔ FiniteObject obj := by
  obtain ⟨-, hxyz, hlng, hlat⟩ := reads_of_parseObject h
  rw [finiteEvent_iff, ← finitePosition_iff hxyz, ← finiteUnder_iff hlng, ← finiteUnder_iff hlat]
  exact ⟨fun ⟨hp, hg, ht⟩ => ⟨hp, hg, ht⟩, fun ⟨hp, hg, ht⟩ => ⟨hp, hg, ht⟩⟩

/-! ## Text messages -/

/-- There are three fields from `start` on, and `_parse_float` reads all of them. -/
def ThreeNumbers (tokens : List Str) (start : Nat) : Prop :=
  start + 3 ≤ tokens.length ∧
    ∀ i ∈ [start, start + 1, start + 2], (parseFloatText (token tokens i)).isSome

instance (tokens : List Str) (start : Nat) : Decidable (ThreeNumbers tokens start) :=
  inferInstanceAs (Decidable (_ ∧ _))

/-- The three fields are finite, or where they are not numbers, the first three numerals in
the first of them. -/
def FiniteTokens (tokens : List Str) (start : Nat) : Prop :=
  (ThreeNumbers tokens start →
    ∀ i ∈ [start, start + 1, start + 2], FiniteOption (parseFloatText (token tokens i))) ∧
  (¬ ThreeNumbers tokens start → ∀ a b c rest,
    findCoords (token tokens start).length (token tokens start) = a :: b :: c :: rest →
      ∀ s ∈ [a, b, c], FiniteOption (floatOfText s))

/-- The fields that the coordinates of a text message are read from are finite. -/
def FiniteFields : BaseType → List Str → Prop
  | .display, tokens => FiniteTokens tokens 5
  | .gpsposi, tokens => ∀ i ∈ [5, 6, 7], FiniteOption (parseFloatText (token tokens i))
  | .status1, _ | .status2, _ => True

theorem floatOrRaise_eq_ok {s : Str} {x : Binary64} :
    floatOrRaise s = .ok x ↔ floatOfText s = some x := by
  unfold floatOrRaise
  cases floatOfText s <;> simp

/-- Where the coordinates of a text message come from: its three fields, the first three
numerals of the first field, or nowhere. -/
theorem extractXyzFromTokens_cases {tokens : List Str} {start : Nat} {c : Coordinates}
    (h : extractXyzFromTokens tokens start = .ok c) :
    (ThreeNumbers tokens start ∧ c.x = parseFloatText (token tokens start) ∧
        c.y = parseFloatText (token tokens (start + 1)) ∧
        c.z = parseFloatText (token tokens (start + 2))) ∨
      ¬ ThreeNumbers tokens start ∧
        ((∃ s₁ s₂ s₃ rest,
            findCoords (token tokens start).length (token tokens start) = s₁ :: s₂ :: s₃ :: rest ∧
            (c.x.isSome ∧ c.x = floatOfText s₁) ∧ (c.y.isSome ∧ c.y = floatOfText s₂) ∧
              (c.z.isSome ∧ c.z = floatOfText s₃)) ∨
          (∀ s₁ s₂ s₃ rest,
            findCoords (token tokens start).length (token tokens start) ≠ s₁ :: s₂ :: s₃ :: rest) ∧
            c.x = none ∧ c.y = none ∧ c.z = none) := by
  unfold extractXyzFromTokens at h
  simp only at h
  split at h
  · rename_i x y z hfields
    obtain ⟨hlength, hxyz⟩ := Option.ite_none_right_eq_some.mp hfields
    simp only [Option.bind_eq_bind, Option.bind_eq_some_iff, Option.some.injEq,
      Prod.mk.injEq] at hxyz
    obtain ⟨x', hx, y', hy, z', hz, rfl, rfl, rfl⟩ := hxyz
    obtain rfl := Except.ok.inj h
    exact Or.inl ⟨⟨hlength, by simp [hx, hy, hz]⟩, hx.symm, hy.symm, hz.symm⟩
  · rename_i hfields
    refine Or.inr ⟨?_, ?_⟩
    · rintro ⟨hlength, hall⟩
      simp only [List.forall_mem_cons, Option.isSome_iff_exists] at hall
      obtain ⟨⟨x, hx⟩, ⟨y, hy⟩, ⟨z, hz⟩, -⟩ := hall
      simp [hlength, hx, hy, hz] at hfields
    · split at h
      · split at h
        · rename_i s₁ s₂ s₃ rest hcoords
          simp only [bind_eq_ok, floatOrRaise_eq_ok] at h
          obtain ⟨x, hx, y, hy, z, hz, heq⟩ := h
          obtain rfl := Except.ok.inj heq
          exact Or.inl ⟨s₁, s₂, s₃, rest, hcoords, ⟨rfl, hx.symm⟩, ⟨rfl, hy.symm⟩, rfl, hz.symm⟩
        · rename_i hfew
          obtain rfl := Except.ok.inj h
          exact Or.inr ⟨hfew, rfl, rfl, rfl⟩
      · rename_i hshort
        obtain rfl := Except.ok.inj h
        refine Or.inr ⟨?_, rfl, rfl, rfl⟩
        intro s₁ s₂ s₃ rest hcoords
        rw [token_of_length_le (not_lt.mp hshort)] at hcoords
        cases hcoords

theorem finiteTokens_iff {tokens : List Str} {start : Nat} {c : Coordinates}
    (h : extractXyzFromTokens tokens start = .ok c) :
    FiniteTokens tokens start ↔ FiniteOption c.x ∧ FiniteOption c.y ∧ FiniteOption c.z := by
  unfold FiniteTokens
  rcases extractXyzFromTokens_cases h with ⟨hthree, hx, hy, hz⟩ |
    ⟨hthree, ⟨s₁, s₂, s₃, rest, hcoords, ⟨-, hx⟩, ⟨-, hy⟩, -, hz⟩ | ⟨hfew, hx, hy, hz⟩⟩
  · simp [hthree, hx, hy, hz]
  · simp only [hthree, false_imp_iff, not_false_eq_true, true_imp_iff, true_and, hx, hy, hz]
    constructor
    · intro hfinite
      simpa using hfinite s₁ s₂ s₃ rest hcoords
    · intro hfinite a b c' rest' hcoords'
      obtain ⟨rfl, rfl, rfl, -⟩ : s₁ = a ∧ s₂ = b ∧ s₃ = c' ∧ rest = rest' := by
        simpa using hcoords.symm.trans hcoords'
      simpa using hfinite
  · simp only [hthree, false_imp_iff, not_false_eq_true, true_imp_iff, true_and, hx, hy, hz]
    refine iff_of_true ?_ ⟨finiteOption_none, finiteOption_none, finiteOption_none⟩
    intro a b c' rest hcoords
    exact (hfew a b c' rest hcoords).elim

/-- The event of a text message has finite coordinates exactly when its fields have. -/
theorem finiteEvent_fields_iff {type : BaseType} {rawMessage : Str} {tokens : List Str}
    {e : NormalizedEvent} (h : parseFields type rawMessage tokens = .ok (.ok e)) :
    FiniteEvent e ↔ FiniteFields type tokens := by
  obtain ⟨ts, -, hevent⟩ := event_of_parseFields h
  cases hevent with
  | display hplace =>
    rw [finiteEvent_iff, FiniteFields, finiteTokens_iff hplace]
    simp [textEvent, finiteOption_none]
  | status1 | status2 => simp [finiteEvent_iff, FiniteFields, textEvent, finiteOption_none]
  | gpsposi hlng hlat =>
    have hz : (if 7 < tokens.length then parseFloatText (token tokens 7) else none) =
        parseFloatText (token tokens 7) := by
      split
      · rfl
      · rename_i hshort
        rw [token_of_length_le (not_lt.mp hshort)]
        rfl
    simp only [finiteEvent_iff, FiniteFields, textEvent, List.forall_mem_cons, hz, hlng, hlat,
      finiteOption_none, true_and]
    simp [and_comm, and_assoc]

end RtlsStream.StreamHandler
