/-
Decimals read back.

A numeral that was written digit by digit is read as the number that it
denotes (`read_point`, `read_whole`), and an integer is read back from its text
(`readInteger_toString`, `readInt64_toString`), without any rounding. A numeral
near a binary64 magnitude is rounded to it (`toFloat_of_near`).

Digits are followed as rows of characters: zeros before a row do not count,
and zeros after it are powers of ten, whether they stand before the point
or go into the exponent.
-/
import TaskTree.Proofs.Number.Shortest
import TaskTree.Proofs.Spans

namespace TaskTree

namespace Numeral

-- ============================================================== digits

/-- Digits are read as the core library reads them, so its facts hold of
them. -/
theorem ofDigits_eq (ds : List Char) : ofDigits ds = Nat.ofDigitChars 10 ds 0 :=
  Nat.ofDigitChars_eq_foldl.symm

/-- The digits of a number are read back as that number. -/
theorem ofDigits_toDigits (n : Nat) : ofDigits (Nat.toDigits 10 n) = n := by
  rw [ofDigits_eq, Nat.ofDigitChars_ten_toDigits]

/-- Digits that follow a row of digits. -/
theorem ofDigits_append (ds es : List Char) :
    ofDigits (ds ++ es) = 10 ^ es.length * ofDigits ds + ofDigits es := by
  rw [ofDigits_eq, ofDigits_eq, ofDigits_eq, Nat.ofDigitChars_append,
    Nat.ofDigitChars_eq_ofDigitChars_zero]

/-- Zeros are worth nothing. -/
theorem ofDigits_zeros (n : Nat) : ofDigits (List.replicate n '0') = 0 := by
  rw [ofDigits_eq, Nat.ofDigitChars_replicate_zero, Nat.mul_zero]

/-- A row of digits. -/
def Digits (ds : List Char) : Prop := ∀ c ∈ ds, isDigit c = true

/-- The digits are those of the core library. -/
theorem isDigit_eq (c : Char) : isDigit c = c.isDigit := rfl

/-- A number is written in digits. -/
theorem digits_toDigits (n : Nat) : Digits (Nat.toDigits 10 n) := by
  intro c hc
  rw [isDigit_eq]
  exact Nat.isDigit_of_mem_toDigits (by decide) (by decide) hc

/-- Zeros are digits. -/
theorem digits_zeros (n : Nat) : Digits (List.replicate n '0') := by
  intro c hc
  rw [List.eq_of_mem_replicate hc]
  rfl

/-- Digits behind digits are digits. -/
theorem Digits.append {ds es : List Char} (h : Digits ds) (h' : Digits es) :
    Digits (ds ++ es) :=
  List.forall_mem_append.2 ⟨h, h'⟩

/-- A run of digits is taken whole, if none follows. -/
theorem digitRun_append {ds rest : List Char} (h : Digits ds)
    (hrest : Stops isDigit rest) :
    digitRun (ds ++ rest) = (ds, rest) := by
  unfold digitRun
  rw [takeWhile_append h hrest, dropWhile_append h hrest]

/-- A sign before a row of digits. -/
def signText (negative : Bool) : List Char := if negative then ['-'] else []

/-- A sign is split off, where it is followed by a digit. Without one nothing is
split off: no digit can be taken for a sign. -/
theorem signed_append {cs : List Char} (negative : Bool)
    (h : ∀ c, cs.head? = some c → isDigit c = true) :
    signed (signText negative ++ cs) = (negative, cs) := by
  cases negative with
  | true => rfl
  | false =>
      cases cs with
      | nil => rfl
      | cons c rest =>
          have hc := h c rfl
          show signed (c :: rest) = (false, c :: rest)
          unfold signed
          split
          · rename_i heq
            cases heq
            cases hc
          · rename_i heq
            cases heq
            cases hc
          · rfl

-- ============================================================ integers

/-- Digits come first where there are any. -/
theorem Digits.head? {ds rest : List Char} (h : Digits ds) (hne : ds ≠ []) :
    ∀ c, (ds ++ rest).head? = some c → isDigit c = true := by
  intro c hc
  cases ds with
  | nil => exact absurd rfl hne
  | cons d more =>
      cases hc
      exact h _ List.mem_cons_self

/-- The digits of a number, with a sign, are read back as an integer. -/
theorem readInteger_digits (negative : Bool) (n : Nat) :
    readInteger (signText negative ++ Nat.toDigits 10 n)
      = some (if negative then -(n : Int) else n) := by
  have hdigits := digits_toDigits n
  have hhead : ∀ c, (Nat.toDigits 10 n ++ []).head? = some c →
      isDigit c = true :=
    hdigits.head? Nat.toDigits_ne_nil
  rw [List.append_nil] at hhead
  have hall : (Nat.toDigits 10 n).all isDigit = true :=
    List.all_eq_true.2 hdigits
  have hne : (Nat.toDigits 10 n).isEmpty = false := by
    rw [List.isEmpty_eq_false_iff]
    exact Nat.toDigits_ne_nil
  unfold readInteger
  rw [signed_append negative hhead]
  dsimp only
  rw [hne, hall, ofDigits_toDigits]
  cases negative <;> rfl

/-- The text of an integer. -/
theorem toString_toList (i : Int) :
    (toString i).toList
      = signText (decide (i < 0)) ++ Nat.toDigits 10 i.natAbs := by
  rw [Int.toString_eq_repr, Int.repr_eq_if]
  split
  · rename_i h
    have habs : i.toNat = i.natAbs := by omega
    rw [Nat.toList_repr, decide_eq_false (by omega), habs]
    rfl
  · rename_i h
    have habs : (-i).toNat = i.natAbs := by omega
    rw [String.toList_append, Nat.toList_repr, decide_eq_true (by omega), habs]
    rfl

/-- An integer is read back from its text. -/
theorem readInteger_toString (i : Int) :
    readInteger (toString i).toList = some i := by
  rw [toString_toList, readInteger_digits]
  congr 1
  split
  · rename_i h
    have hneg := of_decide_eq_true h
    omega
  · rename_i h
    have hnonneg : ¬ i < 0 := fun hlt => h (decide_eq_true hlt)
    omega

-- ============================================================ numerals

/-- An exponent is read back from its text. -/
theorem readExponent_toString (e : Int) :
    readExponent ('e' :: (toString e).toList) = some e := by
  rw [readExponent, if_pos (.inl rfl), readInteger_toString]

/-- The three parts of a number one after another: digits, what is behind a
point, and what is behind the letter of an exponent. Each is read to its end,
since the next part cannot be taken for more of it. -/
theorem read_eq (negative : Bool) {whole after fraction power : List Char}
    {e : Int} (hwhole : Digits whole) (hne : whole ≠ [])
    (hafter : Stops isDigit after)
    (hfraction : readFraction after = (fraction, power))
    (hpower : readExponent power = some e) :
    read (signText negative ++ (whole ++ after))
      = some { negative, coefficient := ofDigits (whole ++ fraction),
               exponent := e - fraction.length } := by
  have hempty : whole.isEmpty = false := by
    rw [List.isEmpty_eq_false_iff]
    exact hne
  simp only [read, signed_append negative (hwhole.head? hne),
    digitRun_append hwhole hafter, hfraction, hempty, hpower, Bool.false_and,
    Bool.false_eq_true, if_false, Option.map_some]

/-- A numeral with a point. -/
theorem read_point (negative : Bool) {whole fraction power : List Char}
    {e : Int} (hwhole : Digits whole) (hne : whole ≠ [])
    (hfraction : Digits fraction) (hends : Stops isDigit power)
    (hpower : readExponent power = some e) :
    read (signText negative ++ (whole ++ '.' :: (fraction ++ power)))
      = some { negative, coefficient := ofDigits (whole ++ fraction),
               exponent := e - fraction.length } :=
  read_eq negative hwhole hne (stops_cons rfl _)
    (digitRun_append hfraction hends) hpower

/-- A numeral without a point. -/
theorem read_whole (negative : Bool) {whole power : List Char} {e : Int}
    (hwhole : Digits whole) (hne : whole ≠ []) (hends : Stops isDigit power)
    (hpoint : power.head? ≠ some '.') (hpower : readExponent power = some e) :
    read (signText negative ++ (whole ++ power))
      = some { negative, coefficient := ofDigits whole, exponent := e } := by
  -- Nothing is behind a point where no point is.
  have hfraction : readFraction power = ([], power) := by
    cases power with
    | nil => rfl
    | cons c rest =>
        unfold readFraction
        split
        · rename_i heq
          cases heq
          exact absurd rfl hpoint
        · rfl
  rw [read_eq negative hwhole hne hends hfraction hpower, List.append_nil,
    List.length_nil, Nat.cast_zero, sub_zero]

/-- What a numeral denotes, apart from its sign. -/
def magnitude (x : Numeral) : ℚ := x.coefficient * 10 ^ x.exponent

end Numeral

/-- A 64-bit integer is read back from its text. -/
theorem readInt64_toString (i : Int64) :
    readInt64 (toString i.toInt).toList = some i := by
  unfold readInt64
  have hlow := i.le_toInt
  have hhigh := i.toInt_lt
  have hin : Int64.bounds.1 ≤ i.toInt ∧ i.toInt ≤ Int64.bounds.2 := by
    unfold Int64.bounds
    rw [Nat.pow_eq]
    constructor <;> push_cast <;> omega
  rw [Numeral.readInteger_toString]
  dsimp only
  rw [if_pos hin, Int64.ofInt_toInt]

namespace Binary64

open Numeral

-- ============================================================== rounding

section

variable {significand : Nat} {exponent : Int}

/-- The least positive number is a good way above what is taken for zero. -/
theorem pow_ten_lt : (10 : ℚ) ^ (-400 : Int) < 1 / 2 * 2 ^ (-1074 : Int) := by
  have hlt : (2 : Nat) ^ 1075 < 10 ^ 400 := by decide +kernel
  have hcast : (2 : ℚ) ^ 1075 < 10 ^ 400 := by exact_mod_cast hlt
  have hhalf : (1 : ℚ) / 2 * 2 ^ (-1074 : Int) = (2 ^ 1075)⁻¹ := by
    rw [zpow_neg, one_div, ← mul_inv, ← zpow_natCast,
      ← zpow_one_add₀ two_ne_zero]
    rfl
  rw [hhalf, zpow_neg]
  exact (inv_lt_inv₀ (by positivity) (by positivity)).2 hcast

/-- The greatest finite number is a good way below what is taken for
infinite. -/
theorem lt_pow_ten : (2 : ℚ) ^ 53 * 2 ^ (971 : Int) < 10 ^ (400 : Int) := by
  have hlt : (2 : Nat) ^ 53 * 2 ^ 971 < 10 ^ 400 := by decide +kernel
  exact_mod_cast hlt

/-- A magnitude is neither so large nor so small that its decimals are
settled by their size. -/
theorem Near.range {x : ℚ} (hmag : Magnitude significand exponent)
    (h : Near significand exponent x) :
    (10 : ℚ) ^ (-400 : Int) < x ∧ x < 10 ^ (400 : Int) := by
  have hhalf := h.halfway hmag.pos
  have hunit : (0 : ℚ) < 2 ^ exponent := by positivity
  have hone : (1 : ℚ) ≤ significand := by exact_mod_cast hmag.pos
  have hlt : (significand : ℚ) + 1 ≤ 2 ^ 53 := by exact_mod_cast hmag.lt
  constructor
  -- From below by half a unit of the least exponent.
  · have hleast : (2 : ℚ) ^ (-1074 : Int) ≤ 2 ^ exponent :=
      zpow_le_zpow_right₀ (by norm_num) hmag.least
    have hlow := (le_div_iff₀ hunit).1 hhalf.low
    calc (10 : ℚ) ^ (-400 : Int) < 1 / 2 * 2 ^ (-1074 : Int) := pow_ten_lt
      _ ≤ 1 / 2 * 2 ^ exponent := by linarith
      _ ≤ (significand - 1 / 2) * 2 ^ exponent := by
          refine mul_le_mul_of_nonneg_right ?_ hunit.le
          linarith
      _ ≤ x := hlow
  -- From above by half a unit more than the greatest significand, at the
  -- greatest exponent.
  · have hgreatest : (2 : ℚ) ^ exponent ≤ 2 ^ (971 : Int) :=
      zpow_le_zpow_right₀ (by norm_num) hmag.greatest
    have hhigh := (div_le_iff₀ hunit).1 hhalf.high
    calc x ≤ (significand + 1 / 2) * 2 ^ exponent := hhigh
      _ ≤ 2 ^ 53 * 2 ^ exponent := by
          refine mul_le_mul_of_nonneg_right ?_ hunit.le
          linarith
      _ ≤ 2 ^ 53 * 2 ^ (971 : Int) := by linarith
      _ < 10 ^ (400 : Int) := lt_pow_ten

/-- The number of digits of a numeral tells its size. -/
theorem size_spec {n : Numeral} (h : 0 < n.coefficient) :
    (10 : ℚ) ^ ((digitCount n.coefficient : Int) + n.exponent - 1) ≤ n.magnitude
      ∧ n.magnitude < 10 ^ ((digitCount n.coefficient : Int) + n.exponent) := by
  obtain ⟨hlow, hhigh, hpos⟩ := digitCount_spec h
  have hunit : (0 : ℚ) < 10 ^ n.exponent := by positivity
  have hlow' : (10 : ℚ) ^ (digitCount n.coefficient - 1) ≤ n.coefficient := by
    exact_mod_cast hlow
  have hhigh' : (n.coefficient : ℚ) < 10 ^ digitCount n.coefficient := by
    exact_mod_cast hhigh
  -- The number of digits is at least one, so that the exponent may be split.
  have hexp : (digitCount n.coefficient : Int) + n.exponent - 1
      = ((digitCount n.coefficient - 1 : Nat) : Int) + n.exponent := by omega
  unfold magnitude
  rw [hexp, zpow_add₀ (by norm_num), zpow_add₀ (by norm_num), zpow_natCast,
    zpow_natCast]
  exact ⟨mul_le_mul_of_nonneg_right hlow' hunit.le,
    mul_lt_mul_of_pos_right hhigh' hunit⟩

/-- A numeral near a magnitude is rounded to it. -/
theorem toFloat_of_near (hmag : Magnitude significand exponent) {n : Numeral}
    (h : Near significand exponent n.magnitude) :
    n.toFloat = ofMagnitude n.negative (bitsOf significand exponent) := by
  have hcoefficient : 0 < n.coefficient := by
    refine Nat.pos_of_ne_zero fun hzero => ?_
    have hpos := h.pos hmag.pos
    unfold magnitude at hpos
    rw [hzero, Nat.cast_zero, zero_mul] at hpos
    exact lt_irrefl _ hpos
  obtain ⟨hleast, hgreatest⟩ := h.range hmag
  obtain ⟨hlow, hhigh⟩ := size_spec hcoefficient
  -- The number of digits and the exponent together are in the range where the
  -- number is neither zero nor infinite outright.
  have hover := (zpow_lt_zpow_iff_right₀ (by norm_num)).1 (hleast.trans hhigh)
  have hunder :=
    (zpow_lt_zpow_iff_right₀ (by norm_num)).1 (hlow.trans_lt hgreatest)
  unfold toFloat
  dsimp only
  rw [if_neg (by omega), if_neg (by omega)]
  unfold ofRatio
  -- Digits before the point, or behind it: a whole number over one, or over a
  -- power of ten.
  split
  · rename_i hexp
    rw [nearestBits_of_near hmag Nat.one_pos]
    obtain ⟨k, hk⟩ := Int.eq_ofNat_of_zero_le hexp
    unfold magnitude at h
    rw [hk, zpow_natCast] at h
    rw [hk, Int.toNat_natCast, Nat.pow_eq, Nat.cast_one, div_one]
    exact_mod_cast h
  · rename_i hexp
    obtain ⟨k, hk⟩ := Int.eq_ofNat_of_zero_le (by omega : 0 ≤ -n.exponent)
    have hneg : n.exponent = -(k : Int) := by omega
    unfold magnitude at h
    rw [hneg, zpow_neg, zpow_natCast, ← div_eq_mul_inv] at h
    rw [hneg, neg_neg, Int.toNat_natCast, Nat.pow_eq,
      nearestBits_of_near hmag (Nat.pow_pos (by decide))]
    exact_mod_cast h

end

end Binary64

end TaskTree
