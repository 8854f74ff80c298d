/-
The shortest decimal of a magnitude is near it.

A decimal that `shortest` finds on some grid is tested there, so it lies in
the rounding interval. What has to be shown is that the search finds one
before it runs out (`shortest_near`). On the last grid that is tried, two
neighbours are no farther apart than a part in `10 ^ 16` of the value, and
that is less than the width of the interval, since a significand is less
than `2 ^ 53`. So the value's two neighbours there cannot both lie outside.
-/
import Mathlib.Data.Nat.Cast.Order.Field
import TaskTree.Proofs.Number.Rounding

namespace TaskTree

-- ============================================================== digits

namespace Numeral

/-- A positive number lies between the powers of ten that its digits tell. -/
theorem digitCount_spec {n : Nat} (h : 0 < n) :
    10 ^ (digitCount n - 1) ≤ n ∧ n < 10 ^ digitCount n ∧ 0 < digitCount n := by
  have hcount : digitCount n = (Nat.toDigits 10 n).length := if_neg h.ne'
  have hpos : 0 < (Nat.toDigits 10 n).length := Nat.length_toDigits_pos
  rw [hcount]
  refine ⟨?_, (Nat.length_toDigits_le_iff (by decide) hpos).1 le_rfl, hpos⟩
  rcases Nat.eq_zero_or_pos ((Nat.toDigits 10 n).length - 1) with hzero | hmore
  · rw [hzero]
    exact h
  · refine Nat.le_of_not_lt fun hlt => ?_
    have hle := (Nat.length_toDigits_le_iff (by decide : 1 < 10) hmore).2 hlt
    omega

end Numeral

namespace Binary64

/-- The power of ten from which the search begins is not above the value. -/
theorem log10Ratio_le {num den : Nat} (hnum : 0 < num) (hden : 0 < den) :
    (10 : ℚ) ^ log10Ratio num den ≤ num / den := by
  have hposNum : (0 : ℚ) < num := Nat.cast_pos.2 hnum
  have hposDen : (0 : ℚ) < den := Nat.cast_pos.2 hden
  -- If the value is at least one, its integral part has as many digits as the
  -- value; otherwise the reciprocal is measured, rounded up.
  unfold log10Ratio
  split
  · rename_i hle
    have hquot : 0 < num / den := Nat.div_pos hle hden
    obtain ⟨hlow, -, hpos⟩ := Numeral.digitCount_spec hquot
    have hexp : (Numeral.digitCount (num / den) : Int) - 1
        = ((Numeral.digitCount (num / den) - 1 : Nat) : Int) := by omega
    rw [hexp, zpow_natCast]
    -- The power has as many digits as the integral part.
    calc (10 : ℚ) ^ (Numeral.digitCount (num / den) - 1)
      ≤ ((num / den : Nat) : ℚ) := by
          exact_mod_cast hlow
      _ ≤ num / den := Nat.cast_div_le
  · rename_i hlt
    obtain ⟨t, ht⟩ : ∃ t, t = (den + num - 1) / num - 1 := ⟨_, rfl⟩
    have htwo : 2 ≤ (den + num - 1) / num := by
      rw [Nat.le_div_iff_mul_le hnum]
      omega
    -- Just below the reciprocal: `t` falls short of it by less than one.
    have hceil : den ≤ (t + 1) * num := by
      have hlast := Nat.lt_div_mul_add (a := den + num - 1) hnum
      have hsucc : t + 1 = (den + num - 1) / num := by omega
      rw [hsucc]
      omega
    have htpos : 0 < t := by omega
    obtain ⟨-, hhigh, -⟩ := Numeral.digitCount_spec htpos
    have hratio : (0 : ℚ) < num / den := div_pos hposNum hposDen
    rw [← ht, zpow_neg, zpow_natCast, inv_le_comm₀ (by positivity) hratio,
      inv_div, div_le_iff₀ hposNum]
    have hmul : den ≤ 10 ^ Numeral.digitCount t * num :=
      hceil.trans (Nat.mul_le_mul_right num (Nat.succ_le_of_lt hhigh))
    exact_mod_cast hmul

-- ================================================================ grids

section

variable {significand : Nat} {exponent : Int}

/-- What the sizes on a grid are multiplied with to make them whole. -/
def gridScale (significand : Nat) (exponent grid : Int) : ℚ :=
  (interval significand exponent).den
    * if 0 ≤ grid then 1 else 10 ^ (-grid).toNat

/-- The common denominator is positive. -/
theorem interval_den_pos (significand : Nat) (exponent : Int) :
    0 < (interval significand exponent).den := by
  unfold interval
  dsimp only
  split
  · exact Nat.one_pos
  · exact Nat.pow_pos two_pos

/-- The scale is positive. -/
theorem gridScale_pos (significand : Nat) (exponent grid : Int) :
    0 < gridScale significand exponent grid := by
  have hden : (0 : ℚ) < (interval significand exponent).den :=
    Nat.cast_pos.2 (interval_den_pos significand exponent)
  unfold gridScale
  split <;> positivity

/-- The unit of an interval. -/
theorem interval_unit (significand : Nat) (exponent : Int) :
    ((interval significand exponent).num : ℚ)
      = 2 ^ (exponent - 2) * (interval significand exponent).den := by
  -- Either the unit is an integer, and the denominator is one, or it is a
  -- fraction with numerator one.
  unfold interval
  dsimp only
  split
  · rename_i h
    obtain ⟨n, hn⟩ := Int.eq_ofNat_of_zero_le h
    rw [hn, Int.toNat_natCast, zpow_natCast, Nat.pow_eq]
    push_cast
    ring
  · rename_i h
    obtain ⟨n, hn⟩ := Int.eq_ofNat_of_zero_le (by omega : 0 ≤ -(exponent - 2))
    have hneg : exponent - 2 = -(n : Int) := by omega
    rw [hneg, neg_neg, Int.toNat_natCast, zpow_neg, zpow_natCast, Nat.pow_eq]
    push_cast
    field_simp

/-- A grid point is what it says, in units of the scale. -/
theorem gridPoint_eq (significand : Nat) (exponent grid : Int) (c : Nat) :
    ((interval significand exponent).gridPoint grid c : ℚ)
      = c * 10 ^ grid * gridScale significand exponent grid := by
  unfold Interval.gridPoint gridScale
  split
  · rename_i h
    obtain ⟨n, rfl⟩ := Int.eq_ofNat_of_zero_le h
    rw [Int.toNat_natCast, zpow_natCast, Nat.pow_eq]
    push_cast
    ring
  · rename_i h
    obtain ⟨n, hn⟩ := Int.eq_ofNat_of_zero_le (by omega : 0 ≤ -grid)
    obtain rfl : grid = -(n : Int) := by omega
    rw [neg_neg, Int.toNat_natCast, zpow_neg, zpow_natCast]
    push_cast
    field_simp

/-- A bound is what it says, in units of the scale. -/
theorem scaled_eq (significand : Nat) (exponent grid : Int) (x : Nat) :
    ((interval significand exponent).scaled grid x : ℚ)
      = x * 2 ^ (exponent - 2) * gridScale significand exponent grid := by
  have hunit := interval_unit significand exponent
  unfold Interval.scaled gridScale
  split
  · push_cast
    rw [hunit]
    ring
  · rw [Nat.pow_eq]
    push_cast
    rw [hunit]
    ring

/-- Bounds and grid points compare as the numbers they stand for. -/
theorem scaled_le_gridPoint {grid : Int} {x c : Nat} :
    (interval significand exponent).scaled grid x
      ≤ (interval significand exponent).gridPoint grid c
      ↔ (x : ℚ) * 2 ^ (exponent - 2) ≤ c * 10 ^ grid := by
  rw [← Nat.cast_le (α := ℚ), scaled_eq, gridPoint_eq,
    mul_le_mul_iff_of_pos_right (gridScale_pos significand exponent grid)]

/-- And the other way round. -/
theorem gridPoint_le_scaled {grid : Int} {x c : Nat} :
    (interval significand exponent).gridPoint grid c
      ≤ (interval significand exponent).scaled grid x
      ↔ (c : ℚ) * 10 ^ grid ≤ x * 2 ^ (exponent - 2) := by
  rw [← Nat.cast_le (α := ℚ), scaled_eq, gridPoint_eq,
    mul_le_mul_iff_of_pos_right (gridScale_pos significand exponent grid)]

/-- The test on a grid says whether a point of it is near the magnitude. The
ends belong to the interval of an even significand, and not to that of an odd
one. -/
theorem holds_iff (grid : Int) (c : Nat) :
    (interval significand exponent).holds grid c = true
      ↔ Near significand exponent (c * 10 ^ grid) := by
  have hclosed : (interval significand exponent).closed
      = decide (significand % 2 = 0) := rfl
  unfold Interval.holds
  dsimp only
  rw [hclosed]
  by_cases heven : significand % 2 = 0
  · rw [if_pos (decide_eq_true heven), Bool.and_eq_true, decide_eq_true_iff,
      decide_eq_true_iff, scaled_le_gridPoint, gridPoint_le_scaled]
    constructor
    · rintro ⟨hlow, hhigh⟩
      exact ⟨hlow, hhigh, fun hodd => by omega⟩
    · exact fun h => ⟨h.low, h.high⟩
  · rw [if_neg (by rw [decide_eq_true_iff]; exact heven), Bool.and_eq_true,
      decide_eq_true_iff, decide_eq_true_iff, ← not_le, ← not_le,
      scaled_le_gridPoint, gridPoint_le_scaled, not_le, not_le]
    constructor
    · rintro ⟨hlow, hhigh⟩
      exact ⟨hlow.le, hhigh.le, fun _ => ⟨hlow, hhigh⟩⟩
    · exact fun h => h.odd (by omega)

/-- What lies between the ends is near. -/
theorem near_of_between {x : ℚ}
    (hlow : ((interval significand exponent).low : ℚ) * 2 ^ (exponent - 2) < x)
    (hhigh : x < (interval significand exponent).high * 2 ^ (exponent - 2)) :
    Near significand exponent x := ⟨hlow.le, hhigh.le, fun _ => ⟨hlow, hhigh⟩⟩

-- ============================================================== searching

/-- A point that is found on a grid is near the magnitude. -/
theorem near_of_onGrid {grid : Int} {c : Nat}
    (h : (interval significand exponent).onGrid grid = some c) :
    Near significand exponent (c * 10 ^ grid) := by
  rw [← holds_iff]
  unfold Interval.onGrid at h
  dsimp only at h
  split at h
  -- Both neighbours are near: whichever is taken is.
  · rename_i hboth
    obtain ⟨hdown, hup⟩ := Bool.and_eq_true_iff.1 hboth
    split at h <;> cases h
    · exact hdown
    · exact hup
  · split at h
    · rename_i hdown
      cases h
      exact hdown
    · split at h
      · rename_i hup
        cases h
        exact hup
      · cases h

/-- The magnitude in the units of its interval. -/
theorem interval_value (significand : Nat) (exponent : Int) :
    ((interval significand exponent).value : ℚ) * 2 ^ (exponent - 2)
      = significand * 2 ^ exponent := by
  have hvalue : (interval significand exponent).value = 4 * significand := rfl
  rw [hvalue, zpow_sub₀ two_ne_zero]
  push_cast
  ring

/-- Grid points are multiples of the first one. -/
theorem gridPoint_eq_mul (v : Interval) (grid : Int) (c : Nat) :
    v.gridPoint grid c = c * v.gridPoint grid 1 := by
  unfold Interval.gridPoint
  split
  · rw [Nat.one_mul, Nat.mul_assoc]
  · rw [Nat.one_mul]

/-- The first grid point is positive. -/
theorem gridPoint_one_pos (significand : Nat) (exponent grid : Int) :
    0 < (interval significand exponent).gridPoint grid 1 := by
  have hden := interval_den_pos significand exponent
  unfold Interval.gridPoint
  split
  · rw [Nat.one_mul]
    exact Nat.mul_pos (Nat.pow_pos (by decide)) hden
  · rw [Nat.one_mul]
    exact hden

/-- If nothing is found on a grid, the next points below and above the
value are not near it. -/
theorem far_of_onGrid {grid : Int}
    (h : (interval significand exponent).onGrid grid = none) :
    ∃ floor : Nat, (floor : ℚ) * 10 ^ grid ≤ significand * 2 ^ exponent
      ∧ (significand : ℚ) * 2 ^ exponent < ((floor + 1 : Nat) : ℚ) * 10 ^ grid
      ∧ ¬ Near significand exponent (floor * 10 ^ grid)
      ∧ ¬ Near significand exponent (((floor + 1 : Nat) : ℚ) * 10 ^ grid) := by
  obtain ⟨floor, hfloor⟩ : ∃ floor,
      floor = (interval significand exponent).scaled grid
      (interval significand exponent).value
        / (interval significand exponent).gridPoint grid 1 :=
    ⟨_, rfl⟩
  have hpos := gridPoint_one_pos significand exponent grid
  unfold Interval.onGrid at h
  dsimp only at h
  rw [← hfloor] at h
  refine ⟨floor, ?_, ?_, ?_, ?_⟩
  -- The floor is the quotient, so it is not above the value.
  · rw [← interval_value, ← gridPoint_le_scaled, gridPoint_eq_mul, hfloor]
    exact Nat.div_mul_le_self _ _
  -- And the next point is.
  · rw [← interval_value, ← not_le, ← gridPoint_le_scaled, gridPoint_eq_mul,
      hfloor, Nat.add_mul, Nat.one_mul]
    exact Nat.not_le_of_lt (Nat.lt_div_mul_add hpos)
  -- Had one of the neighbours been near, it would have been taken.
  · rw [← holds_iff]
    intro hdown
    rw [hdown, Bool.true_and, if_pos rfl] at h
    split at h
    · split at h <;> cases h
    · cases h
  · rw [← holds_iff]
    intro hup
    rw [hup, Bool.and_true, if_pos rfl] at h
    split at h
    · split at h <;> cases h
    · cases h

/-- The width of a rounding interval is at least three quarters of a unit,
and a whole unit unless the significand is a power of two. -/
theorem interval_width (hmag : Magnitude significand exponent) {g : ℚ}
    (h : (interval significand exponent).high * 2 ^ (exponent - 2)
      - ((interval significand exponent).low : ℚ) * 2 ^ (exponent - 2) ≤ g) :
    (significand : ℚ) * 2 ^ exponent < g * 10 ^ 16 := by
  have hunit : (0 : ℚ) < 2 ^ exponent := by positivity
  rw [interval_low hmag.pos, interval_high] at h
  split at h
  · rename_i hpower
    obtain ⟨rfl, -⟩ := hpower
    push_cast at h ⊢
    linarith
  · have hlt : (significand : ℚ) < 2 ^ 53 := by exact_mod_cast hmag.lt
    have hprod : (significand : ℚ) * 2 ^ exponent < 2 ^ 53 * 2 ^ exponent :=
      mul_lt_mul_of_pos_right hlt hunit
    linarith

/-- A grid on which neighbours are close enough has a point near every
magnitude. -/
theorem onGrid_ne_none (hmag : Magnitude significand exponent) {grid : Int}
    (hfine : (10 : ℚ) ^ grid * 10 ^ 16 ≤ significand * 2 ^ exponent) :
    (interval significand exponent).onGrid grid ≠ none := by
  intro hnone
  have hunit : (0 : ℚ) < 2 ^ exponent := by positivity
  obtain ⟨floor, hbelow, habove, hdown, hup⟩ := far_of_onGrid hnone
  -- the value itself is between the ends
  have hlow : ((interval significand exponent).low : ℚ) * 2 ^ (exponent - 2)
      < significand * 2 ^ exponent := by
    rw [interval_low hmag.pos]
    refine mul_lt_mul_of_pos_right ?_ hunit
    split <;> linarith
  have hhigh : (significand : ℚ) * 2 ^ exponent
      < (interval significand exponent).high * 2 ^ (exponent - 2) := by
    rw [interval_high]
    refine mul_lt_mul_of_pos_right ?_ hunit
    linarith
  -- Neither neighbour is near, so they lie beyond the ends, one on each side.
  have hleft : (floor : ℚ) * 10 ^ grid
      ≤ (interval significand exponent).low * 2 ^ (exponent - 2) :=
    not_lt.1 fun hgt => hdown (near_of_between hgt (hbelow.trans_lt hhigh))
  have hright : (interval significand exponent).high * 2 ^ (exponent - 2)
      ≤ ((floor + 1 : Nat) : ℚ) * 10 ^ grid :=
    not_lt.1 fun hlt => hup (near_of_between (hlow.trans habove) hlt)
  -- Then the gap of the grid is at least as wide as the interval, which is too
  -- wide.
  have hwidth := interval_width hmag (g := 10 ^ grid) (by
    push_cast at hright
    linarith)
  exact absurd hfine (not_le.2 hwidth)

/-- The search ends with a decimal near the magnitude if there is one on a grid
that it tries. By induction on the tries that are left: the search goes on only
from a grid without a point, so it gets to the one that has one. -/
theorem near_of_search {tries t : Nat} {grid : Int} (ht : t < tries)
    (hsome : (interval significand exponent).onGrid (grid - t) ≠ none) :
    Near significand exponent
      (((interval significand exponent).search tries grid).coefficient
        * 10
        ^ ((interval significand exponent).search tries grid).exponent) := by
  induction tries generalizing grid t with
  | zero => exact absurd ht (Nat.not_lt_zero t)
  | succ tries ih =>
      rw [Interval.search]
      cases hgrid : (interval significand exponent).onGrid grid with
      | some c => exact near_of_onGrid hgrid
      | none =>
          cases t with
          | zero =>
              rw [Nat.cast_zero, sub_zero] at hsome
              exact absurd hgrid hsome
          | succ t =>
              have hgrid' : grid - ((t + 1 : Nat) : Int) = grid - 1 - t := by
                push_cast
                ring
              rw [hgrid'] at hsome
              exact ih (Nat.lt_of_succ_lt_succ ht) hsome

/-- The shortest decimal of a magnitude is near it. -/
theorem shortest_near (hmag : Magnitude significand exponent) :
    Near significand exponent
      ((shortest significand exponent).coefficient * 10
        ^ (shortest significand exponent).exponent) := by
  have hden := interval_den_pos significand exponent
  have hposDen : (0 : ℚ) < (interval significand exponent).den :=
    Nat.cast_pos.2 hden
  have hunit := interval_unit significand exponent
  have hnum : 0 < (interval significand exponent).num := by
    have hpos : (0 : ℚ) < (interval significand exponent).num := by
      rw [hunit]
      positivity
    exact_mod_cast hpos
  have hvalue : 0 < (interval significand exponent).value :=
    Nat.mul_pos (by decide) hmag.pos
  -- The search starts at a grid that is not finer than the value, and sixteen
  -- steps further the grid is fine enough.
  have hstart := log10Ratio_le (Nat.mul_pos hvalue hnum) hden
  refine near_of_search (t := 16) (by decide) (onGrid_ne_none hmag ?_)
  rw [zpow_sub₀ (by norm_num), ← interval_value]
  refine le_trans (le_of_eq ?_) (hstart.trans (le_of_eq ?_))
  · norm_num
  · rw [Nat.cast_mul, hunit]
    field_simp

end

end Binary64

end TaskTree
