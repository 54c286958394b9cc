/-
  Foundation/Rounding.lean --- integers as binary64 numbers.

  A language whose only number type is binary64 reads an integer literal as the
  nearest value.  For integers far below the overflow threshold the result is
  finite (`value_nearest`), reading keeps the order (`rounded_mono`,
  `value_nearest_mono`), and integers of at most 53 bits are read exactly
  (`value_nearest_exact`).
-/
import RtlsStream.Foundation.Binary64

set_option autoImplicit false

namespace RtlsStream.Foundation

namespace Binary64

/-- The number a finite value stands for; zero for the others. -/
def value : Binary64 → ℚ
  | .finite negative m e _ => if negative then -magnitude m e else magnitude m e
  | _ => 0

/-- An integer literal as a binary64 number. -/
def nearest (n : Int) : Binary64 := ofRat (n < 0) (n.natAbs : ℚ)

/-! ## Rounding to a natural number -/

theorem roundHalfEven_le_of_le {q : ℚ} {n : Nat} (hq : 0 ≤ q) (h : q ≤ n) :
    roundHalfEven q ≤ n := by
  have hfloor : (⌊q⌋₊ : ℚ) ≤ q := Nat.floor_le hq
  have hle : ⌊q⌋₊ ≤ n := by exact_mod_cast hfloor.trans h
  unfold roundHalfEven
  simp only
  split
  · exact hle
  · rename_i hhalf
    have hlt : ⌊q⌋₊ < n := by
      rcases hle.lt_or_eq with hlt | heq
      · exact hlt
      · rw [heq] at hhalf
        push Not at hhalf
        linarith
    split
    · omega
    · split <;> omega

theorem le_roundHalfEven_of_le {q : ℚ} {n : Nat} (h : (n : ℚ) ≤ q) : n ≤ roundHalfEven q := by
  have hle : n ≤ ⌊q⌋₊ := Nat.le_floor h
  unfold roundHalfEven
  simp only
  split
  · exact hle
  · split
    · omega
    · split <;> omega

/-- Rounding keeps the order. -/
theorem roundHalfEven_mono {q r : ℚ} (hq : 0 ≤ q) (h : q ≤ r) :
    roundHalfEven q ≤ roundHalfEven r := by
  have hfloor : ⌊q⌋₊ ≤ ⌊r⌋₊ := Nat.floor_le_floor h
  rcases hfloor.lt_or_eq with hlt | heq
  · have hsucc : q ≤ (⌊q⌋₊ + 1 : Nat) := by exact_mod_cast (Nat.lt_floor_add_one q).le
    have hr : (⌊r⌋₊ : ℚ) ≤ r := Nat.floor_le (hq.trans h)
    calc roundHalfEven q ≤ ⌊q⌋₊ + 1 := roundHalfEven_le_of_le hq hsucc
      _ ≤ ⌊r⌋₊ := hlt
      _ ≤ roundHalfEven r := le_roundHalfEven_of_le hr
  · unfold roundHalfEven
    simp only [heq]
    split
    · split
      · exact le_rfl
      · split
        · omega
        · split <;> omega
    · rename_i hq'
      push Not at hq'
      have hr' : ¬ r - (⌊r⌋₊ : ℚ) < 1 / 2 := by
        push Not
        linarith
      simp only [if_neg hr']
      split
      · rename_i hlarge
        rw [if_pos (show 1 / 2 < r - (⌊r⌋₊ : ℚ) by linarith)]
      · split
        · split <;> omega
        · split <;> exact le_rfl

/-! ## Rounding to 53 bits -/

/-- The magnitude rounding gives, before the range is checked. -/
def rounded (q : ℚ) : ℚ := roundHalfEven (q / 2 ^ quantum q) * 2 ^ quantum q

/-- The quantum of a number from one on leaves 53 bits. -/
theorem quantum_of_one_le {q : ℚ} (h : 1 ≤ q) : quantum q = Int.log 2 q - 52 := by
  have hlog : 0 ≤ Int.log 2 q := by
    rw [← Int.zpow_le_iff_le_log (by norm_num) (by linarith)]
    simpa using h
  unfold quantum
  omega

theorem two_zpow_pos (e : Int) : (0 : ℚ) < 2 ^ e := zpow_pos (by norm_num) e

theorem two_zpow_add (a b : Int) : (2 : ℚ) ^ (a + b) = 2 ^ a * 2 ^ b :=
  zpow_add₀ (by norm_num) a b

/-- Between two powers of two the significand has 53 bits. -/
theorem significand_bounds {q : ℚ} (h : 1 ≤ q) :
    2 ^ 52 ≤ q / 2 ^ quantum q ∧ q / 2 ^ quantum q ≤ 2 ^ 53 := by
  have hpos : 0 < q := by linarith
  have hlo : (2 : ℚ) ^ Int.log 2 q ≤ q := by
    simpa using Int.zpow_log_le_self (b := 2) (by norm_num) hpos
  have hhi : q < (2 : ℚ) ^ (Int.log 2 q + 1) := by
    simpa using Int.lt_zpow_succ_log_self (b := 2) (by norm_num) q
  rw [quantum_of_one_le h, le_div_iff₀ (two_zpow_pos _), div_le_iff₀ (two_zpow_pos _)]
  constructor
  · calc (2 : ℚ) ^ 52 * 2 ^ (Int.log 2 q - 52) = 2 ^ (52 + (Int.log 2 q - 52)) := by
          rw [two_zpow_add]
          norm_num
      _ = 2 ^ Int.log 2 q := by ring_nf
      _ ≤ q := hlo
  · calc q ≤ (2 : ℚ) ^ (Int.log 2 q + 1) := hhi.le
      _ = 2 ^ (53 + (Int.log 2 q - 52)) := by ring_nf
      _ = 2 ^ 53 * 2 ^ (Int.log 2 q - 52) := by
          rw [two_zpow_add]
          norm_num

/-- And so has the significand that is rounded, but for a carry. -/
theorem roundedSignificand_bounds {q : ℚ} (h : 1 ≤ q) :
    2 ^ 52 ≤ roundHalfEven (q / 2 ^ quantum q) ∧ roundHalfEven (q / 2 ^ quantum q) ≤ 2 ^ 53 := by
  obtain ⟨hlo, hhi⟩ := significand_bounds h
  have hsig : 0 ≤ q / 2 ^ quantum q := le_trans (by norm_num) hlo
  exact ⟨le_roundHalfEven_of_le (by exact_mod_cast hlo),
    roundHalfEven_le_of_le hsig (by exact_mod_cast hhi)⟩

/-- Rounding stays between the powers of two around a number. -/
theorem rounded_bounds {q : ℚ} (h : 1 ≤ q) :
    2 ^ Int.log 2 q ≤ rounded q ∧ rounded q ≤ 2 ^ (Int.log 2 q + 1) := by
  obtain ⟨hlower, hupper⟩ := roundedSignificand_bounds h
  have hlowerQ : (2 : ℚ) ^ 52 ≤ roundHalfEven (q / 2 ^ quantum q) := by exact_mod_cast hlower
  have hupperQ : (roundHalfEven (q / 2 ^ quantum q) : ℚ) ≤ 2 ^ 53 := by exact_mod_cast hupper
  have hpow := two_zpow_pos (quantum q)
  unfold rounded
  constructor
  · calc (2 : ℚ) ^ Int.log 2 q = 2 ^ (52 + quantum q) := by
          rw [quantum_of_one_le h]
          ring_nf
      _ = 2 ^ 52 * 2 ^ quantum q := by
          rw [two_zpow_add]
          norm_num
      _ ≤ _ := mul_le_mul_of_nonneg_right hlowerQ hpow.le
  · calc roundHalfEven (q / 2 ^ quantum q) * 2 ^ quantum q
        ≤ (2 : ℚ) ^ 53 * 2 ^ quantum q := mul_le_mul_of_nonneg_right hupperQ hpow.le
      _ = 2 ^ (53 + quantum q) := by
          rw [two_zpow_add]
          norm_num
      _ = 2 ^ (Int.log 2 q + 1) := by
          rw [quantum_of_one_le h]
          ring_nf

theorem rounded_mono {q r : ℚ} (hq : 1 ≤ q) (h : q ≤ r) : rounded q ≤ rounded r := by
  have hr : 1 ≤ r := hq.trans h
  have hlog : Int.log 2 q ≤ Int.log 2 r := Int.log_mono_right (by linarith) h
  rcases hlog.lt_or_eq with hlt | heq
  · calc rounded q ≤ 2 ^ (Int.log 2 q + 1) := (rounded_bounds hq).2
      _ ≤ (2 : ℚ) ^ Int.log 2 r := zpow_le_zpow_right₀ (by norm_num) (by omega)
      _ ≤ rounded r := (rounded_bounds hr).1
  · have hquantum : quantum q = quantum r := by
      rw [quantum_of_one_le hq, quantum_of_one_le hr, heq]
    have hpow := two_zpow_pos (quantum r)
    unfold rounded
    rw [hquantum]
    refine mul_le_mul_of_nonneg_right ?_ hpow.le
    have hdiv : q / 2 ^ quantum r ≤ r / 2 ^ quantum r := div_le_div_of_nonneg_right h hpow.le
    exact_mod_cast roundHalfEven_mono (div_nonneg (by linarith) hpow.le) hdiv

/-- A natural number of at most 53 bits is its own rounding. -/
theorem rounded_natCast {n : Nat} (hn : 1 ≤ n) (h : n ≤ 2 ^ 53) : rounded n = n := by
  have hone : (1 : ℚ) ≤ n := by exact_mod_cast hn
  have hpow := two_zpow_pos (quantum n)
  -- the significand is a natural number: the quantum divides `n`
  obtain ⟨k, hk⟩ : ∃ k : Nat, (n : ℚ) / 2 ^ quantum n = k := by
    rcases h.lt_or_eq with hlt | rfl
    · have hlog : Int.log 2 (n : ℚ) < 53 := by
        rw [← Int.lt_zpow_iff_log_lt (by norm_num) (by linarith)]
        exact_mod_cast hlt
      refine ⟨n * 2 ^ (52 - Int.log 2 (n : ℚ)).toNat, ?_⟩
      rw [quantum_of_one_le hone, div_eq_mul_inv, ← zpow_neg]
      push_cast
      rw [← zpow_natCast, Int.toNat_of_nonneg (by omega)]
      ring_nf
    · refine ⟨2 ^ 52, ?_⟩
      have hlog : Int.log 2 ((2 ^ 53 : Nat) : ℚ) = 53 := by
        have hpow53 : ((2 ^ 53 : Nat) : ℚ) = ((2 : Nat) : ℚ) ^ (53 : Int) := by norm_num
        rw [hpow53]
        exact Int.log_zpow (by norm_num) 53
      rw [quantum_of_one_le hone, hlog]
      norm_num
  unfold rounded
  rw [hk, roundHalfEven_natCast, ← hk, div_mul_cancel₀ _ hpow.ne']

/-! ## Reading an integer -/

/-- Rounding a number in range gives a finite value of the rounded magnitude. -/
theorem ofRat_finite (negative : Bool) {q : ℚ} (h : 1 ≤ q) (hmax : q < 2 ^ 200) :
    ∃ m e c, ofRat negative q = .finite negative m e c ∧ magnitude m e = rounded q := by
  obtain ⟨hlower, hupper⟩ := roundedSignificand_bounds h
  have hquantum := quantum_of_one_le h
  have hlog : Int.log 2 q < 200 := by
    rw [← Int.lt_zpow_iff_log_lt (by norm_num) (by linarith)]
    exact_mod_cast hmax
  have hlog0 : 0 ≤ Int.log 2 q := by
    rw [← Int.zpow_le_iff_le_log (by norm_num) (by linarith)]
    simpa using h
  rw [ofRat, if_neg (by linarith)]
  unfold pack rounded
  by_cases hcarry : roundHalfEven (q / 2 ^ quantum q) = 2 ^ 53
  · have hcanonical : Canonical (2 ^ 52) (quantum q + 1) :=
      ⟨by norm_num, by omega, by omega, Or.inl le_rfl⟩
    simp only [hcarry, if_true, dif_pos hcanonical]
    refine ⟨_, _, hcanonical, rfl, ?_⟩
    unfold magnitude
    rw [two_zpow_add]
    norm_num
    ring
  · have hcanonical : Canonical (roundHalfEven (q / 2 ^ quantum q)) (quantum q) :=
      ⟨by omega, by omega, by omega, Or.inl hlower⟩
    simp only [if_neg hcarry, dif_pos hcanonical]
    exact ⟨_, _, hcanonical, rfl, rfl⟩

theorem value_nearest {n : Int} (hn : n ≠ 0) (hmax : n.natAbs < 2 ^ 200) :
    value (nearest n) = if n < 0 then -rounded n.natAbs else rounded n.natAbs := by
  have hone : (1 : ℚ) ≤ n.natAbs := by
    exact_mod_cast Nat.one_le_iff_ne_zero.mpr (Int.natAbs_ne_zero.mpr hn)
  obtain ⟨m, e, c, hfinite, hmagnitude⟩ :=
    ofRat_finite (n < 0) hone (by exact_mod_cast hmax)
  unfold nearest
  rw [hfinite]
  simp [value, hmagnitude]

@[simp] theorem value_nearest_zero : value (nearest 0) = 0 := by decide +kernel

theorem isFinite_nearest {n : Int} (hmax : n.natAbs < 2 ^ 200) : (nearest n).isFinite := by
  by_cases hn : n = 0
  · subst hn
    decide +kernel
  · have hone : (1 : ℚ) ≤ n.natAbs := by
      exact_mod_cast Nat.one_le_iff_ne_zero.mpr (Int.natAbs_ne_zero.mpr hn)
    obtain ⟨m, e, c, hfinite, -⟩ := ofRat_finite (n < 0) hone (by exact_mod_cast hmax)
    rw [nearest, hfinite]
    rfl

/-- Reading keeps the order of integers. -/
theorem value_nearest_mono {n k : Int} (hn : n.natAbs < 2 ^ 200) (hk : k.natAbs < 2 ^ 200)
    (h : n ≤ k) : value (nearest n) ≤ value (nearest k) := by
  have hnonneg : ∀ i : Int, i ≠ 0 → 0 ≤ rounded (i.natAbs : ℚ) := by
    intro i hi
    have hone : (1 : ℚ) ≤ i.natAbs := by
      exact_mod_cast Nat.one_le_iff_ne_zero.mpr (Int.natAbs_ne_zero.mpr hi)
    exact le_trans (two_zpow_pos _).le (rounded_bounds hone).1
  have hmono : ∀ i j : Int, i ≠ 0 → i.natAbs ≤ j.natAbs →
      rounded (i.natAbs : ℚ) ≤ rounded (j.natAbs : ℚ) := by
    intro i j hi hij
    refine rounded_mono ?_ (by exact_mod_cast hij)
    exact_mod_cast Nat.one_le_iff_ne_zero.mpr (Int.natAbs_ne_zero.mpr hi)
  by_cases hn0 : n = 0
  · subst hn0
    by_cases hk0 : k = 0
    · rw [hk0]
    · rw [value_nearest_zero, value_nearest hk0 hk, if_neg (by omega)]
      exact hnonneg k hk0
  · by_cases hk0 : k = 0
    · subst hk0
      rw [value_nearest_zero, value_nearest hn0 hn, if_pos (by omega)]
      linarith [hnonneg n hn0]
    · rw [value_nearest hn0 hn, value_nearest hk0 hk]
      by_cases hneg : n < 0
      · rw [if_pos hneg]
        by_cases hkneg : k < 0
        · rw [if_pos hkneg]
          linarith [hmono k n hk0 (by omega)]
        · rw [if_neg hkneg]
          linarith [hnonneg n hn0, hnonneg k hk0]
      · rw [if_neg hneg, if_neg (by omega)]
        exact hmono n k hn0 (by omega)

/-- Integers of at most 53 bits are read exactly. -/
theorem value_nearest_exact {n : Int} (h : n.natAbs ≤ 2 ^ 53) : value (nearest n) = n := by
  by_cases hn : n = 0
  · subst hn
    simp
  · have hone : 1 ≤ n.natAbs := Nat.one_le_iff_ne_zero.mpr (Int.natAbs_ne_zero.mpr hn)
    have hmax : n.natAbs < 2 ^ 200 := h.trans_lt (by norm_num)
    rw [value_nearest hn hmax, rounded_natCast hone h]
    split
    · rename_i hneg
      rw [← Int.cast_natCast (R := ℚ), ← Int.cast_neg]
      congr 1
      omega
    · rename_i hneg
      rw [← Int.cast_natCast (R := ℚ)]
      congr 1
      omega

end Binary64

end RtlsStream.Foundation
