/-
  Foundation/Overflow.lean --- which numbers have a finite nearest binary64 value.

  The largest finite value is `(2^53 - 1) * 2^971`.  A number halfway between it and
  `2^1024` is rounded to the even significand, which is that of `2^1024`, so rounding
  overflows exactly from `2^1024 - 2^970` on (`ofRat_isFinite_iff`).  For integers the
  bound is a natural number (`ofInt_isSome_iff`).
-/
import RtlsStream.Foundation.Rounding

set_option autoImplicit false

namespace RtlsStream.Foundation

namespace Binary64

/-- The least number that is rounded to an infinity. -/
def overflow : ℚ := (2 ^ 53 - 1 / 2) * 2 ^ (971 : Int)

/-- The least natural number that is rounded to an infinity. -/
def overflowNat : Nat := 2 ^ 1024 - 2 ^ 970

/-- Rounding stays below an even number exactly when it is more than a half away. -/
theorem roundHalfEven_lt_iff {q : ℚ} {n : Nat} (hq : 0 ≤ q) (heven : n % 2 = 0) (hn : 0 < n) :
    roundHalfEven q < n ↔ q < n - 1 / 2 := by
  have hfloor : (⌊q⌋₊ : ℚ) ≤ q := Nat.floor_le hq
  have hsucc : q < ⌊q⌋₊ + 1 := Nat.lt_floor_add_one q
  obtain ⟨k, rfl⟩ : ∃ k, n = k + 1 := ⟨n - 1, by omega⟩
  push_cast
  unfold roundHalfEven
  generalize ⌊q⌋₊ = j at hfloor hsucc
  simp only
  rcases lt_trichotomy j k with hlt | rfl | hgt
  · -- both sides hold: the floor is at least two below
    have hltQ : (j : ℚ) + 1 ≤ k := by exact_mod_cast hlt
    refine iff_of_true ?_ (by linarith)
    split
    · omega
    · split
      · omega
      · split <;> omega
  · -- the floor is odd, so a tie goes up
    split
    · exact iff_of_true (by omega) (by linarith)
    · rename_i hhalf
      refine iff_of_false ?_ (by linarith)
      split
      · omega
      · rw [if_neg (by omega)]
        omega
  · have hgtQ : (k : ℚ) + 1 ≤ j := by exact_mod_cast hgt
    refine iff_of_false ?_ (by linarith)
    split
    · omega
    · split
      · omega
      · split <;> omega

/-- A significand of 53 bits, or the one it may be carried to, fits up to the largest
exponent. -/
theorem pack_isFinite_iff (negative : Bool) {m : Nat} {e : Int} (hlo : 2 ^ 52 ≤ m)
    (hhi : m ≤ 2 ^ 53) (he : -1074 ≤ e) :
    (pack negative m e).isFinite ↔ e < 971 ∨ e = 971 ∧ m < 2 ^ 53 := by
  have hdef : (pack negative m e).isFinite ↔
      Canonical (if m = 2 ^ 53 then 2 ^ 52 else m) (if m = 2 ^ 53 then e + 1 else e) := by
    unfold pack
    simp only
    generalize (if m = 2 ^ 53 then 2 ^ 52 else m) = m'
    generalize (if m = 2 ^ 53 then e + 1 else e) = e'
    split
    · rename_i hcanonical
      exact iff_of_true rfl hcanonical
    · rename_i hnot
      exact iff_of_false (by simp [isFinite]) hnot
  rw [hdef]
  unfold Canonical
  split <;> omega

/-- Rounding a number gives a finite value exactly below the threshold. -/
theorem ofRat_isFinite_iff (negative : Bool) {q : ℚ} (h : 1 ≤ q) :
    (ofRat negative q).isFinite ↔ q < overflow := by
  obtain ⟨hlo, hhi⟩ := significand_bounds h
  have hsig : 0 ≤ q / 2 ^ quantum q := le_trans (by norm_num) hlo
  have hpow := two_zpow_pos (quantum q)
  have hlower : 2 ^ 52 ≤ roundHalfEven (q / 2 ^ quantum q) :=
    le_roundHalfEven_of_le (by exact_mod_cast hlo)
  have hupper : roundHalfEven (q / 2 ^ quantum q) ≤ 2 ^ 53 :=
    roundHalfEven_le_of_le hsig (by exact_mod_cast hhi)
  have hquantum : -1074 ≤ quantum q := le_max_left _ _
  rw [ofRat, if_neg (by linarith), pack_isFinite_iff negative hlower hupper hquantum]
  unfold overflow
  have h971 := two_zpow_pos 971
  rcases lt_trichotomy (quantum q) 971 with hlt | heq | hgt
  · refine iff_of_true (Or.inl hlt) ?_
    have hle : 2 * (2 : ℚ) ^ quantum q ≤ 2 ^ (971 : Int) := by
      calc 2 * (2 : ℚ) ^ quantum q = 2 ^ (1 + quantum q) := by rw [two_zpow_add, zpow_one]
        _ ≤ 2 ^ (971 : Int) := zpow_le_zpow_right₀ (by norm_num) (by omega)
    have hq := (div_le_iff₀ hpow).mp hhi
    generalize (2 : ℚ) ^ (971 : Int) = p at hle h971 ⊢
    linarith
  · rw [heq] at hsig ⊢
    have hcarry : roundHalfEven (q / 2 ^ (971 : Int)) < 2 ^ 53 ↔
        q / 2 ^ (971 : Int) < ((2 ^ 53 : Nat) : ℚ) - 1 / 2 :=
      roundHalfEven_lt_iff hsig (by norm_num) (by norm_num)
    rw [Nat.cast_pow, Nat.cast_ofNat, div_lt_iff₀ h971] at hcarry
    rw [← hcarry]
    omega
  · refine iff_of_false (by omega) ?_
    have hle : 2 * (2 : ℚ) ^ (971 : Int) ≤ 2 ^ quantum q := by
      calc 2 * (2 : ℚ) ^ (971 : Int) = 2 ^ (1 + 971 : Int) := by rw [two_zpow_add, zpow_one]
        _ ≤ 2 ^ quantum q := zpow_le_zpow_right₀ (by norm_num) (by omega)
    have hq := (le_div_iff₀ hpow).mp hlo
    generalize (2 : ℚ) ^ (971 : Int) = p at hle h971 ⊢
    linarith

theorem overflowNat_cast : (overflowNat : ℚ) = overflow := by
  have hsplit : (2 : ℚ) ^ (971 : Int) = 2 ^ 970 * 2 := by
    rw [show (971 : Int) = 970 + 1 from rfl, zpow_add_one₀ two_ne_zero, zpow_ofNat]
  have hle : 2 ^ 970 ≤ 2 ^ 1024 := by gcongr <;> norm_num
  have hpow : (2 : ℚ) ^ 1024 = 2 ^ 54 * 2 ^ 970 := by rw [← pow_add]
  unfold overflowNat overflow
  rw [Nat.cast_sub hle, Nat.cast_pow, Nat.cast_pow, Nat.cast_ofNat, hsplit, hpow]
  generalize (2 : ℚ) ^ 970 = p
  ring

/-- An integer is converted exactly when its magnitude is below the threshold. -/
theorem ofInt_isSome_iff {n : Int} : (ofInt n).isSome ↔ n.natAbs < overflowNat := by
  have hdef : (ofInt n).isSome ↔ (ofRat (n < 0) (n.natAbs : ℚ)).isFinite := by
    unfold ofInt
    cases ofRat (n < 0) (n.natAbs : ℚ) <;> simp [isFinite]
  rw [hdef]
  rcases Nat.eq_zero_or_pos n.natAbs with hzero | hpos
  · rw [hzero]
    have hlt : 2 ^ 970 < 2 ^ 1024 := by gcongr <;> norm_num
    exact iff_of_true (by simp [ofRat, pack, Canonical, isFinite]) (Nat.sub_pos_of_lt hlt)
  · have hone : (1 : ℚ) ≤ n.natAbs := by exact_mod_cast hpos
    rw [ofRat_isFinite_iff _ hone, ← overflowNat_cast, Nat.cast_lt]

/-- The integer part of a finite value is below the threshold. -/
theorem natAbs_truncate_lt (negative : Bool) {m : Nat} {e : Int} (h : Canonical m e) :
    (truncate negative m e).natAbs < overflowNat := by
  obtain ⟨hm, -, he, -⟩ := h
  have hpow := two_zpow_pos e
  have hnonneg : 0 ≤ magnitude m e := mul_nonneg (by positivity) hpow.le
  have hfloor : 0 ≤ ⌊magnitude m e⌋ := Int.floor_nonneg.mpr hnonneg
  have habs : ((truncate negative m e).natAbs : Int) = ⌊magnitude m e⌋ := by
    unfold truncate
    simp only
    split <;> omega
  have hmQ : (m : ℚ) ≤ 2 ^ 53 - 1 := by
    have hle : m + 1 ≤ 2 ^ 53 := hm
    have hleQ : (m : ℚ) + 1 ≤ 2 ^ 53 := by exact_mod_cast hle
    linarith
  have hlt : ((truncate negative m e).natAbs : ℚ) < overflow := by
    calc ((truncate negative m e).natAbs : ℚ)
        = (⌊magnitude m e⌋ : ℚ) := by rw [← habs, Int.cast_natCast]
      _ ≤ magnitude m e := Int.floor_le _
      _ ≤ (2 ^ 53 - 1) * 2 ^ (971 : Int) :=
        mul_le_mul hmQ (zpow_le_zpow_right₀ (by norm_num) he) hpow.le (by norm_num)
      _ < overflow := mul_lt_mul_of_pos_right (by norm_num) (two_zpow_pos 971)
  rw [← overflowNat_cast] at hlt
  exact Nat.cast_lt.mp hlt

end Binary64

end RtlsStream.Foundation
