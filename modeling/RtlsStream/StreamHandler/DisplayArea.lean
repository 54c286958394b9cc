/-
  StreamHandler/DisplayArea.lean --- coordinates and area of a `display` message.

  Field 6 holds `y` or the area, and the parser takes it for the area wherever it has
  found no `x`.  It looks for all three coordinates at once, so a message that gives `x`
  and `y` only is left without coordinates, and its `y` becomes the area.
-/
import RtlsStream.StreamHandler.Coordinates

set_option autoImplicit false

namespace RtlsStream.StreamHandler

open RtlsStream.Foundation RtlsStream.Python LS1000Parser

section

variable [Runtime] {rawMessage : Str} {tokens : List Str} {e : NormalizedEvent}

/-- Where a `display` event has its place from. -/
theorem place_of_parseDisplay (h : parseDisplay rawMessage tokens = .ok (.ok e)) :
    ∃ p, extractXyzFromTokens tokens 5 = .ok p ∧ e.x = p.x ∧ e.y = p.y ∧ e.z = p.z ∧
      e.area = if p.x.isNone then safeToken tokens 6 else none := by
  obtain ⟨ts, -, hevent⟩ : ∃ ts, _ ∧ FieldsEvent rawMessage tokens ts .display e :=
    event_of_parseFields h
  obtain ⟨hplace⟩ := hevent
  exact ⟨_, hplace, rfl, rfl, rfl, rfl⟩

/-- A `display` event comes from the fields of a `display` message. -/
theorem parseDisplay_of_sourceType {s : Str} (h : parseMessage ⟨⟩ s = .ok (.ok e))
    (hdisplay : e.sourceType = BaseType.display.name) :
    parseDisplay s (fieldsOf (strip s)) = .ok (.ok e) := by
  rcases parseMessage_ok h with ⟨-, obj, -, hobject⟩ | ⟨-, type, -, hfields⟩
  · rw [(parseObject_ok hobject).sourceType] at hdisplay
    exact absurd hdisplay (by decide)
  · have hname := (parseFields_ok hfields).sourceType.symm.trans hdisplay
    cases type with
    | display => exact hfields
    | status1 | status2 | gpsposi => exact absurd hname (by decide)

/-- The first field holds three numerals, of which two read as `x` and `y`. -/
def NumeralsRead (tokens : List Str) (start : Nat) (x y : Binary64) : Prop :=
  ∃ s₁ s₂ s₃ rest,
    findCoords (token tokens start).length (token tokens start) = s₁ :: s₂ :: s₃ :: rest ∧
      floatOfText s₁ = some x ∧ floatOfText s₂ = some y

/-- Where fields 5 and 6 are numbers, the event has them for coordinates and no area exactly
when field 7 is a number as well, or field 5 alone says the same. -/
theorem display_place_iff {s : Str} {x y : Binary64} (h : parseMessage ⟨⟩ s = .ok (.ok e))
    (hdisplay : e.sourceType = BaseType.display.name)
    (hx : parseFloatText (token (fieldsOf (strip s)) 5) = some x)
    (hy : parseFloatText (token (fieldsOf (strip s)) 6) = some y) :
    (e.x = some x ∧ e.y = some y ∧ e.area = none) ↔
      (parseFloatText (token (fieldsOf (strip s)) 7)).isSome ∨
        NumeralsRead (fieldsOf (strip s)) 5 x y := by
  obtain ⟨p, hp, hex, hey, -, harea⟩ := place_of_parseDisplay (parseDisplay_of_sourceType h hdisplay)
  generalize fieldsOf (strip s) = tokens at *
  have hthree : ThreeNumbers tokens 5 ↔ (parseFloatText (token tokens 7)).isSome := by
    constructor
    · intro hnumbers
      exact hnumbers.2 7 (by simp)
    · intro hz
      refine ⟨?_, by simp [hx, hy, hz]⟩
      by_contra hshort
      rw [token_of_length_le (by omega : tokens.length ≤ 7)] at hz
      cases hz
  rw [hex, hey, harea]
  rcases extractXyzFromTokens_cases hp with ⟨hnumbers, hpx, hpy, -⟩ |
    ⟨hnot, ⟨s₁, s₂, s₃, rest, hcoords, ⟨hsome, hpx⟩, ⟨-, hpy⟩, -⟩ | ⟨hfew, hpx, -, -⟩⟩
  · exact iff_of_true (by simp [hpx, hpy, hx, hy]) (Or.inl (hthree.mp hnumbers))
  · rw [← hthree]
    have hnone : p.x.isNone = false := by simpa using hsome
    simp only [hnone, Bool.false_eq_true, if_false, and_true, hnot, false_or]
    rw [hpx, hpy]
    constructor
    · rintro ⟨h₁, h₂⟩
      exact ⟨s₁, s₂, s₃, rest, hcoords, h₁, h₂⟩
    · rintro ⟨a, b, c, others, hcoords', h₁, h₂⟩
      obtain ⟨rfl, rfl, rfl, -⟩ : s₁ = a ∧ s₂ = b ∧ s₃ = c ∧ rest = others := by
        simpa using hcoords.symm.trans hcoords'
      exact ⟨h₁, h₂⟩
  · rw [← hthree]
    refine iff_of_false ?_ ?_
    · rintro ⟨hpx', -⟩
      rw [hpx] at hpx'
      cases hpx'
    · rintro (hnumbers | ⟨a, b, c, others, hcoords, -⟩)
      · exact hnot hnumbers
      · exact hfew a b c others hcoords

end

section Examples

attribute [local instance] asciiRuntime

/-- `x` and `y` without `z`: there are no coordinates, and the area is the text of `y`. -/
theorem y_for_area :
    ∃ e, parseMessage ⟨⟩ (text "display:1,00A320,0,1000,1,3,4") = .ok (.ok e) ∧
      (∀ i ∈ [5, 6], (parseFloatText (token (fieldsOf
        (strip (text "display:1,00A320,0,1000,1,3,4"))) i)).isSome) ∧
      e.x = none ∧ e.area = some (text "4") := by
  have hparsed : ((parseMessage ⟨⟩ (text "display:1,00A320,0,1000,1,3,4")).toOption.bind
      Except.toOption).map (fun e => (e.x, e.area)) = some (none, some (text "4")) := by
    decide +kernel
  obtain ⟨e, hevent, hplace⟩ := exists_event hparsed
  obtain ⟨hx, harea⟩ := Prod.mk.inj hplace
  exact ⟨e, hevent, by decide +kernel, hx, harea⟩

/-- All three coordinates are given. -/
theorem display_place_iff_three :
    ∃ e x y, parseMessage ⟨⟩ (text "display:1,00A320,0,1000,1,3,4,0") = .ok (.ok e) ∧
      e.x = some x ∧ e.y = some y ∧ e.area = none := by
  have hparsed : ((parseMessage ⟨⟩ (text "display:1,00A320,0,1000,1,3,4,0")).toOption.bind
      Except.toOption).map (·.sourceType) = some BaseType.display.name := by decide +kernel
  obtain ⟨e, hevent, hdisplay⟩ := exists_event hparsed
  have hnumber : ∀ i ∈ [5, 6, 7], (parseFloatText (token (fieldsOf
      (strip (text "display:1,00A320,0,1000,1,3,4,0"))) i)).isSome := by decide +kernel
  obtain ⟨x, hx⟩ := Option.isSome_iff_exists.mp (hnumber 5 (by simp))
  obtain ⟨y, hy⟩ := Option.isSome_iff_exists.mp (hnumber 6 (by simp))
  exact ⟨e, x, y, hevent,
    (display_place_iff hevent hdisplay hx hy).mpr (Or.inl (hnumber 7 (by simp)))⟩

end Examples

end RtlsStream.StreamHandler
