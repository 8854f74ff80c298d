/-
Rounding to the nearest binary64 number.

`nearestBits` is followed through the rationals. The numbers that are
`Near` a magnitude are those of its rounding interval, with or without the
ends; they are what `nearestBits` takes to the bit pattern of the magnitude
(`nearestBits_of_near`). The exponent that the rounding works with is the
exponent of the magnitude, but for the numbers just below a power of two:
these are rounded in the binade below it, and carry into the next.
-/
import Mathlib.Algebra.Order.Field.Power
import Mathlib.Data.Rat.Cast.Order
import Mathlib.Tactic.FieldSimp
import Mathlib.Tactic.Linarith
import Mathlib.Tactic.NormNum
import Mathlib.Tactic.Ring
import TaskTree.Number.Shortest

namespace TaskTree.Binary64

-- ====================================================== whole numbers

/-- Rounding takes everything within a half to a number, and the ends of
that to an even one only. Written without the division. -/
theorem roundEven_eq {num den m : Nat} (hden : 0 < den)
    (hlow : 2 * (den * m) ≤ 2 * num + den)
    (hhigh : 2 * num ≤ 2 * (den * m) + den)
    (hodd : m % 2 = 1 →
      2 * (den * m) < 2 * num + den ∧ 2 * num < 2 * (den * m) + den) :
    roundEven num den = m := by
  -- Quotient and remainder, and `m` can only be the quotient or one more.
  have hsplit : den * (num / den) + num % den = num := Nat.div_add_mod num den
  have hrest : num % den < den := Nat.mod_lt num hden
  obtain ⟨floor, hfloor⟩ : ∃ floor, floor = num / den := ⟨_, rfl⟩
  obtain ⟨rest, hmod⟩ : ∃ rest, rest = num % den := ⟨_, rfl⟩
  rw [← hfloor, ← hmod] at hsplit
  rw [← hmod] at hrest
  have hge : floor ≤ m := by
    refine Nat.le_of_not_lt fun hlt => ?_
    have hmul := Nat.mul_le_mul_left den (Nat.succ_le_of_lt hlt)
    rw [Nat.mul_succ] at hmul
    omega
  have hle : m ≤ floor + 1 := by
    refine Nat.le_of_not_lt fun hlt => ?_
    have hmul := Nat.mul_le_mul_left den (Nat.succ_le_of_lt hlt)
    rw [Nat.mul_succ, Nat.mul_succ] at hmul
    omega
  unfold roundEven
  dsimp only
  rw [← hfloor, ← hmod]
  rcases Nat.lt_or_eq_of_le hge with hlt | rfl
  -- It is rounded up, so the remainder is beyond the half, or at the half with
  -- an odd quotient.
  · obtain rfl : m = floor + 1 := by omega
    rw [Nat.mul_succ] at hlow hhigh hodd
    rw [if_neg]
    rintro (hless | ⟨htie, heven⟩)
    · omega
    · have hstrict := hodd (by omega)
      omega
  · rw [if_pos]
    rcases Nat.lt_or_ge (2 * rest) den with hless | hmore
    · exact .inl hless
    · refine .inr ⟨by omega, ?_⟩
      rcases Nat.mod_two_eq_zero_or_one floor with heven | hone
      · exact heven
      · have hstrict := hodd hone
        omega

/-- A number within a half of the ratio, which is even if it is exactly a
half away from it. -/
structure Halfway (m : Nat) (x : ℚ) : Prop where
  low : (m : ℚ) - 1 / 2 ≤ x
  high : x ≤ m + 1 / 2
  odd : m % 2 = 1 → (m : ℚ) - 1 / 2 < x ∧ x < m + 1 / 2

/-- Rounding finds the integer that the ratio is halfway to. -/
theorem roundEven_of_halfway {num den m : Nat} (hden : 0 < den)
    (h : Halfway m (num / den)) :
    roundEven num den = m := by
  have hpos : (0 : ℚ) < den := Nat.cast_pos.2 hden
  -- The bounds on the ratio, with the denominator cleared.
  have hle : ∀ {y : ℚ}, y ≤ num / den ↔ y * den ≤ num := le_div_iff₀ hpos
  have hge : ∀ {y : ℚ}, (num : ℚ) / den ≤ y ↔ (num : ℚ) ≤ y * den :=
    div_le_iff₀ hpos
  have hlt : ∀ {y : ℚ}, y < num / den ↔ y * den < num := lt_div_iff₀ hpos
  have hgt : ∀ {y : ℚ}, (num : ℚ) / den < y ↔ (num : ℚ) < y * den :=
    div_lt_iff₀ hpos
  refine roundEven_eq hden ?_ ?_ fun hone => ⟨?_, ?_⟩
  · have := hle.1 h.low
    have hcast : ((2 * (den * m) : Nat) : ℚ) ≤ ((2 * num + den : Nat) : ℚ) := by
      push_cast
      linarith
    exact_mod_cast hcast
  · have := hge.1 h.high
    have hcast : ((2 * num : Nat) : ℚ) ≤ ((2 * (den * m) + den : Nat) : ℚ) := by
      push_cast
      linarith
    exact_mod_cast hcast
  · have := hlt.1 (h.odd hone).1
    have hcast : ((2 * (den * m) : Nat) : ℚ) < ((2 * num + den : Nat) : ℚ) := by
      push_cast
      linarith
    exact_mod_cast hcast
  · have := hgt.1 (h.odd hone).2
    have hcast : ((2 * num : Nat) : ℚ) < ((2 * (den * m) + den : Nat) : ℚ) := by
      push_cast
      linarith
    exact_mod_cast hcast

-- ============================================================ exponents

/-- Multiplying one or the other side by a power of two. -/
theorem pow_toNat_le {k : Int} {num den : Nat} (hden : 0 < den) :
    (if 0 ≤ k then den * Nat.pow 2 k.toNat ≤ num
      else den ≤ num * Nat.pow 2 (-k).toNat)
      ↔ (2 : ℚ) ^ k ≤ num / den := by
  have hpos : (0 : ℚ) < den := Nat.cast_pos.2 hden
  rw [le_div_iff₀ hpos]
  split
  · rename_i hk
    obtain ⟨n, rfl⟩ := Int.eq_ofNat_of_zero_le hk
    rw [Int.toNat_natCast, zpow_natCast, mul_comm]
    exact_mod_cast Iff.rfl
  · rename_i hk
    obtain ⟨n, hn⟩ := Int.eq_ofNat_of_zero_le (by omega : 0 ≤ -k)
    obtain rfl : k = -(n : Int) := by omega
    rw [neg_neg, Int.toNat_natCast, zpow_neg, zpow_natCast,
      inv_mul_le_iff₀ (by positivity), mul_comm]
    exact_mod_cast Iff.rfl

/-- The exponent of a ratio. -/
theorem log2Ratio_spec {num den : Nat} (hnum : 0 < num) (hden : 0 < den) :
    (2 : ℚ) ^ log2Ratio num den ≤ num / den
      ∧ (num : ℚ) / den < 2 ^ (log2Ratio num den + 1) := by
  -- Both logarithms are off by less than one, so their difference is the
  -- exponent or one more.
  have hpos : (0 : ℚ) < den := Nat.cast_pos.2 hden
  have hnumLow : (2 : ℚ) ^ num.log2 ≤ num := by
    exact_mod_cast Nat.log2_self_le hnum.ne'
  have hnumHigh : (num : ℚ) < 2 ^ (num.log2 + 1) := by
    exact_mod_cast Nat.lt_log2_self
  have hdenLow : (2 : ℚ) ^ den.log2 ≤ den := by
    exact_mod_cast Nat.log2_self_le hden.ne'
  have hdenHigh : (den : ℚ) < 2 ^ (den.log2 + 1) := by
    exact_mod_cast Nat.lt_log2_self
  obtain ⟨k, hk⟩ : ∃ k : Int, k = (num.log2 : Int) - (den.log2 : Int) :=
    ⟨_, rfl⟩
  have hsum : ∀ i j : Int, (2 : ℚ) ^ i * 2 ^ j = 2 ^ (i + j) := fun i j =>
    (zpow_add₀ two_ne_zero i j).symm
  have hhigh : (num : ℚ) / den < 2 ^ (k + 1) := by
    rw [div_lt_iff₀ hpos]
    calc (num : ℚ) < 2 ^ (num.log2 + 1) := hnumHigh
      _ = 2 ^ (k + 1) * 2 ^ den.log2 := by
          rw [← zpow_natCast, ← zpow_natCast, hsum, hk]
          congr 1
          push_cast
          ring
      _ ≤ 2 ^ (k + 1) * den := mul_le_mul_of_nonneg_left hdenLow (by positivity)
  have hlow : (2 : ℚ) ^ (k - 1) ≤ num / den := by
    rw [le_div_iff₀ hpos]
    calc (2 : ℚ) ^ (k - 1) * den ≤ 2 ^ (k - 1) * 2 ^ (den.log2 + 1) :=
          mul_le_mul_of_nonneg_left hdenHigh.le (by positivity)
      _ = 2 ^ num.log2 := by
          rw [← zpow_natCast, ← zpow_natCast, hsum, hk]
          congr 1
          push_cast
          ring
      _ ≤ num := hnumLow
  unfold log2Ratio
  dsimp only
  rw [← hk]
  -- Which of the two it is the comparison decides.
  by_cases hreached :
      (if 0 ≤ k then den * Nat.pow 2 k.toNat ≤ num
        else den ≤ num * Nat.pow 2 (-k).toNat)
  · rw [if_pos hreached]
    exact ⟨(pow_toNat_le hden).1 hreached, hhigh⟩
  · rw [if_neg hreached, sub_add_cancel]
    exact ⟨hlow, not_le.1 fun h => hreached ((pow_toNat_le hden).2 h)⟩

-- ========================================================== magnitudes

/-- The significands and exponents of positive binary64 magnitudes. -/
structure Magnitude (significand : Nat) (exponent : Int) : Prop where
  pos : 0 < significand
  lt : significand < 2 ^ 53
  least : minExponent ≤ exponent
  greatest : exponent ≤ 971
  normal : 2 ^ 52 ≤ significand ∨ exponent = minExponent

/-- The bit pattern of a magnitude. -/
def bitsOf (significand : Nat) (exponent : Int) : Nat :=
  (exponent - minExponent).toNat * Nat.pow 2 52 + significand

/-- The numbers of the rounding interval of a magnitude. The ends are among
them if the significand is even. -/
structure Near (significand : Nat) (exponent : Int) (x : ℚ) : Prop where
  low : ((interval significand exponent).low : ℚ) * 2 ^ (exponent - 2) ≤ x
  high : x ≤ ((interval significand exponent).high : ℚ) * 2 ^ (exponent - 2)
  odd : significand % 2 = 1 →
    ((interval significand exponent).low : ℚ) * 2 ^ (exponent - 2) < x
      ∧ x < ((interval significand exponent).high : ℚ) * 2 ^ (exponent - 2)

/-- The ratio in units of a power of two, as it is rounded. By the sign of the
exponent, which tells on which side the power is multiplied. -/
theorem roundEven_unit {num den m : Nat} (hden : 0 < den) (e : Int)
    (h : Halfway m ((num : ℚ) / den / 2 ^ e)) :
    (if 0 ≤ e then roundEven num (den * Nat.pow 2 e.toNat)
      else roundEven (num * Nat.pow 2 (-e).toNat) den) = m := by
  split
  · rename_i he
    obtain ⟨n, rfl⟩ := Int.eq_ofNat_of_zero_le he
    refine roundEven_of_halfway (Nat.mul_pos hden (Nat.pow_pos two_pos)) ?_
    rw [Int.toNat_natCast, Nat.pow_eq, Nat.cast_mul, Nat.cast_pow, ← div_div]
    rw [zpow_natCast] at h
    exact h
  · rename_i he
    obtain ⟨n, hn⟩ := Int.eq_ofNat_of_zero_le (by omega : 0 ≤ -e)
    obtain rfl : e = -(n : Int) := by omega
    refine roundEven_of_halfway hden ?_
    rw [neg_neg, Int.toNat_natCast, Nat.pow_eq, Nat.cast_mul, Nat.cast_pow,
      mul_div_right_comm]
    rw [zpow_neg, zpow_natCast, div_inv_eq_mul] at h
    exact h

section

variable {significand : Nat} {exponent : Int} {x : ℚ}

/-- The lower end of a rounding interval. -/
theorem interval_low (hpos : 0 < significand) (exponent : Int) :
    ((interval significand exponent).low : ℚ) * 2 ^ (exponent - 2)
      = (significand - if significand = 2 ^ 52
        ∧ minExponent < exponent then 1 / 4 else 1 / 2)
        * 2 ^ exponent := by
  -- The bounds are given in quarters of the unit.
  have hunit : (2 : ℚ) ^ (exponent - 2) = 2 ^ exponent / 4 := by
    rw [zpow_sub₀ two_ne_zero]
    norm_num
  rw [hunit]
  unfold interval
  dsimp only
  rw [Nat.pow_eq]
  -- Below a power of two the gap is half as wide.
  by_cases h : significand = 2 ^ 52 ∧ minExponent < exponent
  · rw [if_pos h, if_pos h, Nat.cast_sub (by omega)]
    push_cast
    ring
  · rw [if_neg h, if_neg h, Nat.cast_sub (by omega)]
    push_cast
    ring

/-- The upper end of a rounding interval. -/
theorem interval_high (significand : Nat) (exponent : Int) :
    ((interval significand exponent).high : ℚ) * 2 ^ (exponent - 2)
      = (significand + 1 / 2) * 2 ^ exponent := by
  have hunit : (2 : ℚ) ^ (exponent - 2) = 2 ^ exponent / 4 := by
    rw [zpow_sub₀ two_ne_zero]
    norm_num
  rw [hunit]
  unfold interval
  push_cast
  ring

/-- What is near a magnitude is within half a unit of it. -/
theorem Near.halfway (h : Near significand exponent x)
    (hpos : 0 < significand) :
    Halfway significand (x / 2 ^ exponent) := by
  have hunit : (0 : ℚ) < 2 ^ exponent := by positivity
  obtain ⟨hlow, hhigh, hodd⟩ := h
  rw [interval_low hpos] at hlow hodd
  rw [interval_high] at hhigh hodd
  refine ⟨?_, (div_le_iff₀ hunit).2 hhigh, fun hone => ?_⟩
  -- The lower end is never farther than half a unit.
  · rw [le_div_iff₀ hunit]
    refine le_trans (mul_le_mul_of_nonneg_right ?_ hunit.le) hlow
    split <;> linarith
  -- For an odd significand the ends do not count, and it is no power of two.
  · obtain ⟨hleft, hright⟩ := hodd hone
    have hne : ¬ (significand = 2 ^ 52 ∧ minExponent < exponent) := by
      rintro ⟨rfl, -⟩
      exact absurd hone (by decide)
    rw [if_neg hne] at hleft
    exact ⟨(lt_div_iff₀ hunit).2 hleft, (div_lt_iff₀ hunit).2 hright⟩

/-- Just below a power of two the interval is only half as wide. -/
theorem Near.low_of_power (h : Near (2 ^ 52) exponent x)
    (hleast : minExponent < exponent) :
    ((2 : ℚ) ^ 52 - 1 / 4) * 2 ^ exponent ≤ x := by
  have hlow := h.low
  rw [interval_low (by decide), if_pos ⟨rfl, hleast⟩] at hlow
  exact_mod_cast hlow

/-- A number near a magnitude is positive. -/
theorem Near.pos (h : Near significand exponent x)
    (hpos : 0 < significand) : 0 < x := by
  have hunit : (0 : ℚ) < 2 ^ exponent := by positivity
  have hone : (1 : ℚ) ≤ significand := by exact_mod_cast hpos
  have hlow := (le_div_iff₀ hunit).1 (h.halfway hpos).low
  have hprod : 0 < ((significand : ℚ) - 1 / 2) * 2 ^ exponent := by
    refine mul_pos ?_ hunit
    linarith
  linarith

/-- The bit pattern that is rounded to, once exponent and significand are
known. -/
theorem nearestBits_eq {num den m : Nat} {e : Int} (hnum : 0 < num)
    (hden : 0 < den) (he : max (log2Ratio num den - 52) minExponent = e)
    (h : Halfway m ((num : ℚ) / den / 2 ^ e))
    (hfinite : (e - minExponent).toNat * 2 ^ 52 + m ≤ infinityBits) :
    nearestBits num den = (e - minExponent).toNat * 2 ^ 52 + m := by
  unfold nearestBits
  dsimp only
  rw [if_neg hnum.ne', he, roundEven_unit hden e h, Nat.pow_eq,
    Nat.min_eq_right hfinite]

/-- What is near a magnitude is less than the power of two after it. -/
theorem Near.lt_power (hmag : Magnitude significand exponent)
    (h : Near significand exponent x) :
    x < 2 ^ (exponent + 53) := by
  have hunit : (0 : ℚ) < 2 ^ exponent := by positivity
  have hle : (significand : ℚ) + 1 ≤ 2 ^ 53 := by exact_mod_cast hmag.lt
  calc
    x ≤ (significand + 1 / 2) * 2 ^ exponent :=
        (div_le_iff₀ hunit).1 (h.halfway hmag.pos).high
    _ < 2 ^ 53 * 2 ^ exponent := by
        refine mul_lt_mul_of_pos_right ?_ hunit
        linarith
    _ = 2 ^ (exponent + 53) := by
        rw [zpow_add₀ two_ne_zero, mul_comm]
        norm_num

/-- Only powers of two have numbers near them that lie in the binade below. -/
theorem Near.eq_power (hmag : Magnitude significand exponent)
    (h : Near significand exponent x) (hne : exponent ≠ minExponent)
    (hless : x < 2 ^ (exponent + 52)) : significand = 2 ^ 52 := by
  have hunit : (0 : ℚ) < 2 ^ exponent := by positivity
  refine le_antisymm (Nat.le_of_not_lt fun hgt => ?_)
    (hmag.normal.resolve_right hne)
  have hge : (2 : ℚ) ^ 52 + 1 ≤ significand := by exact_mod_cast hgt
  have hmore : (2 : ℚ) ^ (exponent + 52) ≤ x := by
    calc (2 : ℚ) ^ (exponent + 52) = 2 ^ 52 * 2 ^ exponent := by
          rw [zpow_add₀ two_ne_zero, mul_comm]
          norm_num
      _ ≤ (significand - 1 / 2) * 2 ^ exponent := by
          refine mul_le_mul_of_nonneg_right ?_ hunit.le
          linarith
      _ ≤ x := (le_div_iff₀ hunit).1 (h.halfway hmag.pos).low
  exact absurd hmore (not_le.2 hless)

/-- In the binade below, a power of two is twice as many units. -/
theorem Near.halfway_below (h : Near (2 ^ 52) exponent x)
    (hleast : minExponent < exponent) (hless : x < 2 ^ (exponent + 52)) :
    Halfway (2 ^ 53) (x / 2 ^ (exponent - 1)) := by
  have hlow := h.low_of_power hleast
  -- The unit below the power is half the unit above it.
  have hpos : (0 : ℚ) < 2 ^ (exponent - 1) := by positivity
  have hunit : (2 : ℚ) ^ exponent = 2 * 2 ^ (exponent - 1) := by
    rw [zpow_sub_one₀ two_ne_zero]
    ring
  have hhigh : x < 2 ^ 53 * 2 ^ (exponent - 1) := by
    refine hless.trans_eq ?_
    rw [zpow_add₀ two_ne_zero, hunit]
    norm_num
    ring
  rw [hunit] at hlow
  -- The significand is even, so the ends count.
  refine ⟨?_, ?_, fun hone => absurd hone (by decide)⟩
  · rw [le_div_iff₀ hpos]
    push_cast
    linarith
  · rw [div_le_iff₀ hpos]
    push_cast
    linarith

/-- All numbers of the rounding interval of a magnitude are rounded to it. -/
theorem nearestBits_of_near {num den : Nat}
    (hmag : Magnitude significand exponent) (hden : 0 < den)
    (h : Near significand exponent (num / den)) :
    nearestBits num den = bitsOf significand exponent := by
  -- The ratio gets a name, for its logarithm is bounded by it only.
  obtain ⟨x, hx⟩ : ∃ x : ℚ, x = num / den := ⟨_, rfl⟩
  have hnum : 0 < num := by
    refine Nat.pos_of_ne_zero fun hzero => ?_
    have hpos := h.pos hmag.pos
    rw [hzero, Nat.cast_zero, zero_div] at hpos
    exact lt_irrefl _ hpos
  -- The logarithm bounds the exponent that rounding takes: it is that of the
  -- magnitude, or one less just below a power of two.
  obtain ⟨hbelow, habove⟩ := log2Ratio_spec hnum hden
  rw [← hx] at h hbelow habove
  have hlog : log2Ratio num den < exponent + 53 :=
    (zpow_lt_zpow_iff_right₀ one_lt_two).1 (hbelow.trans_lt (h.lt_power hmag))
  have hleast := hmag.least
  have hgreatest := hmag.greatest
  have hlt := hmag.lt
  by_cases hsame : exponent = minExponent ∨ (2 : ℚ) ^ (exponent + 52) ≤ x
  · -- the exponent is that of the magnitude
    have he : max (log2Ratio num den - 52) minExponent = exponent := by
      rcases hsame with rfl | hlarge
      · omega
      · have hgt :=
          (zpow_lt_zpow_iff_right₀ one_lt_two).1 (hlarge.trans_lt habove)
        omega
    have hhalf := h.halfway hmag.pos
    rw [hx] at hhalf
    refine nearestBits_eq hnum hden he hhalf ?_
    unfold infinityBits minExponent
    rw [Nat.pow_eq]
    unfold minExponent at hleast
    omega
  · -- just below a power of two
    rw [not_or, not_le] at hsame
    obtain ⟨hne, hless⟩ := hsame
    obtain rfl := h.eq_power hmag hne hless
    have hscaled := h.halfway_below (by omega) hless
    -- The number is still at least three quarters of the power, so its exponent
    -- is one less.
    have hge : (2 : ℚ) ^ (exponent + 51) ≤ x := by
      refine le_trans ?_ (h.low_of_power (by omega))
      rw [zpow_add₀ two_ne_zero, mul_comm]
      refine mul_le_mul_of_nonneg_right ?_ (by positivity)
      norm_num
    have hgt := (zpow_lt_zpow_iff_right₀ one_lt_two).1 (hge.trans_lt habove)
    have hlt' := (zpow_lt_zpow_iff_right₀ one_lt_two).1 (hbelow.trans_lt hless)
    have he : max (log2Ratio num den - 52) minExponent = exponent - 1 := by
      omega
    -- Both spellings of the power have the same bits.
    have hbits : bitsOf (2 ^ 52) exponent
        = (exponent - 1 - minExponent).toNat * 2 ^ 52 + 2 ^ 53 := by
      unfold bitsOf
      rw [Nat.pow_eq]
      omega
    rw [hx] at hscaled
    rw [hbits]
    refine nearestBits_eq hnum hden he hscaled ?_
    unfold infinityBits minExponent
    rw [Nat.pow_eq]
    unfold minExponent at hleast
    omega

end

end TaskTree.Binary64
