import Mathlib

/-!
# Rounding to 53 binary digits

Rounding of rationals to the grid of double precision numbers, to the nearest with ties to even,
with gradual underflow at `2^-1074` and without an upper bound on the exponent. The numbers of the
grid are the `Representable` ones. Rounding leads to the grid (`representable_roundBinary`) and
changes nothing on it (`roundBinary_of_representable`), and every number of the grid is a whole
multiple of `2^-1074` (`Representable.exists_mul_eq`), so it has a finite decimal expansion.
-/

set_option autoImplicit false
set_option relaxedAutoImplicit false

namespace SealedBid.BinaryRounding

/-- The nearest integer, the even one of two. -/
def roundHalfEven (q : ℚ) : ℤ :=
  if Int.fract q < 1 / 2 then ⌊q⌋
  else if 1 / 2 < Int.fract q then ⌊q⌋ + 1
  else if ⌊q⌋ % 2 = 0 then ⌊q⌋
  else ⌊q⌋ + 1

/-- The exponent of the grid at a number: 53 significant digits, and no digit below `2^-1074`. -/
def gridExponent (q : ℚ) : ℤ := max (Int.log 2 |q| - 52) (-1074)

/-- The number of the grid next to a rational. -/
def roundBinary (q : ℚ) : ℚ :=
  roundHalfEven (q / 2 ^ gridExponent q) * 2 ^ gridExponent q

/-- A number of the grid. -/
def Representable (q : ℚ) : Prop :=
  ∃ m e : ℤ, |m| ≤ 2 ^ 53 ∧ -1074 ≤ e ∧ q = m * 2 ^ e

/-! ### Rounding to integers -/

theorem roundHalfEven_intCast (m : ℤ) : roundHalfEven m = m := by
  simp [roundHalfEven]

/-- The nearest integer is the one below or the one above. -/
theorem floor_le_roundHalfEven (q : ℚ) : ⌊q⌋ ≤ roundHalfEven q ∧ roundHalfEven q ≤ ⌊q⌋ + 1 := by
  unfold roundHalfEven
  split_ifs <;> omega

/-- Rounding to an integer stays within integer bounds. -/
theorem abs_roundHalfEven_le {q : ℚ} {bound : ℤ} (h : |q| < bound) : |roundHalfEven q| ≤ bound := by
  obtain ⟨hlow, hhigh⟩ := abs_lt.mp h
  obtain ⟨hfloor, hceil⟩ := floor_le_roundHalfEven q
  have hbelow : -bound ≤ ⌊q⌋ := by
    rw [Int.le_floor, Int.cast_neg]
    exact hlow.le
  have habove : ⌊q⌋ < bound := Int.floor_lt.mpr hhigh
  rw [abs_le]
  omega

/-! ### The grid -/

theorem two_zpow_pos (e : ℤ) : (0 : ℚ) < 2 ^ e := zpow_pos two_pos e

theorem gridExponent_ge (q : ℚ) : -1074 ≤ gridExponent q := le_max_right _ _

/-- At the grid exponent a number has at most 53 binary digits before the point. -/
theorem abs_div_lt (q : ℚ) : |q / 2 ^ gridExponent q| < (2 ^ 53 : ℤ) := by
  have hlog : |q| < 2 ^ (Int.log 2 |q| + 1) := Int.lt_zpow_succ_log_self one_lt_two |q|
  have hexponent : Int.log 2 |q| + 1 ≤ gridExponent q + 53 := by
    have hgrid : Int.log 2 |q| - 52 ≤ gridExponent q := le_max_left _ _
    omega
  have hbound : (2 : ℚ) ^ (Int.log 2 |q| + 1) ≤ 2 ^ gridExponent q * 2 ^ 53 := by
    calc (2 : ℚ) ^ (Int.log 2 |q| + 1) ≤ 2 ^ (gridExponent q + 53) :=
          zpow_le_zpow_right₀ one_le_two hexponent
      _ = 2 ^ gridExponent q * 2 ^ 53 := by
          rw [zpow_add₀ two_ne_zero]
          norm_cast
  rw [abs_div, abs_of_pos (two_zpow_pos _), div_lt_iff₀ (two_zpow_pos _), mul_comm]
  push_cast
  exact lt_of_lt_of_le hlog hbound

/-- Rounding leads to the grid. -/
theorem representable_roundBinary (q : ℚ) : Representable (roundBinary q) :=
  ⟨_, _, abs_roundHalfEven_le (abs_div_lt q), gridExponent_ge q, rfl⟩

theorem representable_zero : Representable 0 := ⟨0, 0, by norm_num, by norm_num, by norm_num⟩

theorem Representable.neg {q : ℚ} (h : Representable q) : Representable (-q) := by
  obtain ⟨m, e, hm, he, rfl⟩ := h
  exact ⟨-m, e, by rwa [abs_neg], he, by push_cast; ring⟩

/-- The significand of a number of the grid can be taken below `2^53`. -/
theorem Representable.exists_lt {q : ℚ} (h : Representable q) :
    ∃ m e : ℤ, |m| < 2 ^ 53 ∧ -1074 ≤ e ∧ q = m * 2 ^ e := by
  obtain ⟨m, e, hm, he, hq⟩ := h
  by_cases hlt : |m| < 2 ^ 53
  · exact ⟨m, e, hlt, he, hq⟩
  · -- a significand of 54 digits is a power of two, so one digit can be dropped
    have hmax : m = 2 * 2 ^ 52 ∨ m = 2 * -2 ^ 52 := by
      rcases abs_cases m with ⟨habs, _⟩ | ⟨habs, _⟩ <;> omega
    have hshift : (2 : ℚ) ^ (e + 1) = 2 * 2 ^ e := by
      rw [zpow_add_one₀ two_ne_zero, mul_comm]
    rcases hmax with rfl | rfl
    · exact ⟨2 ^ 52, e + 1, by norm_num, by omega, by rw [hq, hshift]; push_cast; ring⟩
    · exact ⟨-2 ^ 52, e + 1, by norm_num, by omega, by rw [hq, hshift]; push_cast; ring⟩

/-- The grid at a number is not coarser than any exponent the number is written with. -/
theorem gridExponent_le {m e : ℤ} (hzero : m ≠ 0) (hm : |m| < 2 ^ 53) (he : -1074 ≤ e) :
    gridExponent (m * 2 ^ e) ≤ e := by
  have hpos : (0 : ℚ) < |(m : ℚ) * 2 ^ e| :=
    abs_pos.mpr (mul_ne_zero (Int.cast_ne_zero.mpr hzero) (two_zpow_pos e).ne')
  have hlt : |(m : ℚ) * 2 ^ e| < 2 ^ (e + 53) := by
    rw [abs_mul, abs_of_pos (two_zpow_pos e), zpow_add₀ two_ne_zero, mul_comm]
    refine mul_lt_mul_of_pos_left ?_ (two_zpow_pos e)
    exact_mod_cast hm
  have hlog : Int.log 2 |(m : ℚ) * 2 ^ e| < e + 53 :=
    (Int.lt_zpow_iff_log_lt one_lt_two hpos).mp hlt
  exact max_le (by omega) he

/-- Rounding changes nothing on the grid. -/
theorem roundBinary_of_representable {q : ℚ} (h : Representable q) : roundBinary q = q := by
  obtain ⟨m, e, hm, he, rfl⟩ := h.exists_lt
  by_cases hzero : m = 0
  · simp [hzero, roundBinary, roundHalfEven]
  · have hgrid := gridExponent_le hzero hm he
    unfold roundBinary
    set g := gridExponent (m * 2 ^ e)
    have hwhole : (m : ℚ) * 2 ^ e / 2 ^ g = (m * 2 ^ (e - g).toNat : ℤ) := by
      push_cast
      rw [mul_div_assoc, ← zpow_sub₀ two_ne_zero, ← zpow_natCast, Int.toNat_of_nonneg (by omega)]
    rw [hwhole, roundHalfEven_intCast, ← hwhole, div_mul_cancel₀ _ (two_zpow_pos g).ne']

/-- A number of the grid is a whole multiple of the smallest one. -/
theorem Representable.exists_mul_eq {q : ℚ} (h : Representable q) :
    ∃ m : ℤ, q * 2 ^ 1074 = m := by
  obtain ⟨m, e, _, he, rfl⟩ := h
  refine ⟨m * 2 ^ (e + 1074).toNat, ?_⟩
  push_cast
  rw [mul_assoc, ← zpow_natCast (2 : ℚ) (e + 1074).toNat, Int.toNat_of_nonneg (by omega),
    zpow_add₀ two_ne_zero]
  norm_cast

end SealedBid.BinaryRounding
