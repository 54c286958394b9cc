/-
  Foundation/Binary64.lean --- IEEE 754 binary64 values and correct rounding.

  A value is a not-a-number, an infinity or a finite value in canonical form: a
  53-bit significand with its leading bit set, or the least exponent.  The
  canonical form is a field, so two finite values are equal exactly when sign,
  significand and exponent are, and zero keeps its sign.

  `ofRat` rounds a nonnegative rational to the nearest value, ties to even; it is
  the one rounding of the development, shared by decimal literals, by integers
  and by the reading of a printed value.  `ofRat_exact` says that it returns a
  representable rational unchanged, which is what printing and reading back
  rests on.
-/
import Mathlib.Data.Int.Log
import Mathlib.Data.Rat.Floor
import Mathlib.Tactic.Linarith
import Mathlib.Tactic.NormNum

set_option autoImplicit false

namespace RtlsStream.Foundation

/-- The significand and exponent of a finite value in canonical form. -/
def Canonical (m : Nat) (e : Int) : Prop :=
  m < 2 ^ 53 ∧ -1074 ≤ e ∧ e ≤ 971 ∧ (2 ^ 52 ≤ m ∨ e = -1074)

instance (m : Nat) (e : Int) : Decidable (Canonical m e) :=
  inferInstanceAs (Decidable (_ ∧ _ ∧ _ ∧ _))

/-- A binary64 value.  `finite neg m e` stands for `(-1) ^ neg * m * 2 ^ e`. -/
inductive Binary64 where
  | nan
  | infinity (negative : Bool)
  | finite (negative : Bool) (m : Nat) (e : Int) (canonical : Canonical m e)
  deriving DecidableEq

namespace Binary64

/-- The nearest natural number to a nonnegative rational, ties to even. -/
def roundHalfEven (q : ℚ) : Nat :=
  let k := ⌊q⌋₊
  if q - k < 1 / 2 then k
  else if 1 / 2 < q - k then k + 1
  else if k % 2 = 0 then k else k + 1

@[simp] theorem roundHalfEven_natCast (m : Nat) : roundHalfEven (m : ℚ) = m := by
  simp [roundHalfEven]

/-- The exponent at which a positive rational is rounded: the one that leaves 53
significant bits, and never below the least exponent. -/
def quantum (q : ℚ) : Int := max (-1074) (Int.log 2 q - 52)

/-- A significand and an exponent as a value.  After rounding the significand may
be one too long for its exponent; an exponent beyond the range is an
infinity. -/
def pack (negative : Bool) (m : Nat) (e : Int) : Binary64 :=
  let m' := if m = 2 ^ 53 then 2 ^ 52 else m
  let e' := if m = 2 ^ 53 then e + 1 else e
  if h : Canonical m' e' then .finite negative m' e' h else .infinity negative

/-- Round a nonnegative rational to the nearest value, ties to even. -/
def ofRat (negative : Bool) (q : ℚ) : Binary64 :=
  if q = 0 then pack negative 0 (-1074)
  else pack negative (roundHalfEven (q / 2 ^ quantum q)) (quantum q)

/-- The decimal `digits * 10 ^ exponent`, rounded. -/
def ofDecimal (negative : Bool) (digits : Nat) (exponent : Int) : Binary64 :=
  ofRat negative (digits * 10 ^ exponent)

/-- An integer, rounded; `none` where the result is out of range. -/
def ofInt (n : Int) : Option Binary64 :=
  match ofRat (n < 0) (n.natAbs : ℚ) with
  | .finite s m e h => some (.finite s m e h)
  | _ => none

/-- The magnitude of a finite value. -/
def magnitude (m : Nat) (e : Int) : ℚ := m * 2 ^ e

/-- Not a NaN and not an infinity. -/
def isFinite : Binary64 → Bool
  | .finite .. => true
  | _ => false

theorem pack_canonical {m : Nat} {e : Int} (negative : Bool) (h : Canonical m e) :
    pack negative m e = .finite negative m e h := by
  have hm : m ≠ 2 ^ 53 := h.1.ne
  simp only [pack, if_neg hm, dif_pos h]

/-- A nonzero canonical significand and exponent are what rounding its own
magnitude computes. -/
theorem quantum_magnitude {m : Nat} {e : Int} (h : Canonical m e) (hm : m ≠ 0) :
    quantum (magnitude m e) = e := by
  obtain ⟨hlt, hlo, hhi, hlead⟩ := h
  have hpos : (0 : ℚ) < (2 : ℚ) ^ e := zpow_pos (by norm_num) e
  have hm0 : (0 : ℚ) < m := by exact_mod_cast Nat.pos_of_ne_zero hm
  have hmag : (0 : ℚ) < magnitude m e := mul_pos hm0 hpos
  have hupper : Int.log 2 (magnitude m e) < 53 + e := by
    rw [← Int.lt_zpow_iff_log_lt (by norm_num) hmag]
    have hltQ : (m : ℚ) < 2 ^ 53 := by exact_mod_cast hlt
    calc magnitude m e = m * 2 ^ e := rfl
      _ < 2 ^ 53 * 2 ^ e := by gcongr
      _ = ((2 : Nat) : ℚ) ^ (53 + e) := by
        rw [zpow_add₀ (by norm_num)]; norm_num
  rcases hlead with hlead | hlead
  · have hlower : 52 + e ≤ Int.log 2 (magnitude m e) := by
      rw [← Int.zpow_le_iff_le_log (by norm_num) hmag]
      have hleQ : (2 : ℚ) ^ 52 ≤ m := by exact_mod_cast hlead
      calc ((2 : Nat) : ℚ) ^ (52 + e) = 2 ^ 52 * 2 ^ e := by
            rw [zpow_add₀ (by norm_num)]; norm_num
        _ ≤ m * 2 ^ e := by gcongr
    unfold quantum
    omega
  · unfold quantum
    omega

/-- Rounding keeps what is already a value. -/
theorem ofRat_exact {m : Nat} {e : Int} (negative : Bool) (h : Canonical m e) :
    ofRat negative (magnitude m e) = .finite negative m e h := by
  by_cases hm : m = 0
  · subst hm
    have he : e = -1074 := by
      rcases h.2.2.2 with hlead | he
      · norm_num at hlead
      · exact he
    subst he
    simp [ofRat, magnitude, pack_canonical negative h]
  · have hpos : (2 : ℚ) ^ e ≠ 0 := zpow_ne_zero e (by norm_num)
    have hne : magnitude m e ≠ 0 :=
      mul_ne_zero (by exact_mod_cast hm) hpos
    rw [ofRat, if_neg hne, quantum_magnitude h hm]
    have hdiv : magnitude m e / 2 ^ e = (m : ℚ) := by
      rw [magnitude, mul_div_assoc, div_self hpos, mul_one]
    rw [hdiv, roundHalfEven_natCast, pack_canonical negative h]

/-- The integer part of a finite value, toward zero. -/
def truncate (negative : Bool) (m : Nat) (e : Int) : Int :=
  let k : Int := ⌊magnitude m e⌋
  if negative then -k else k

/-- The value is an integer. -/
def isInteger : Binary64 → Bool
  | .finite _ m e _ => decide ((⌊magnitude m e⌋ : ℚ) = magnitude m e)
  | _ => false

end Binary64

end RtlsStream.Foundation
