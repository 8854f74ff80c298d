/-
Binary64 numbers and their bit patterns.

A number is what its bit pattern stands for, so it can be put together again
from its sign and the bit pattern of its magnitude (`ofMagnitude_eq`). Going
from a pattern to a number unpacks it and packs it again, which changes
nothing but the payload of a NaN, and no number has any but one of these
(`ofBits_toBits`).
-/
import TaskTree.Proofs.Number.Rounding

namespace TaskTree.Binary64

-- ============================================================== patterns

section

open Float.Model Float.Model.UnpackedFloat

/-- Sign, exponent and mantissa of a pattern make it up. -/
theorem packComponents_unpack (b : BitVec Format.binary64.numBits) :
    packComponents Format.binary64 (Sign.ofBitVec (unpackSign b))
      (unpackExponent b) (unpackMantissa b)
      = b := by
  have hsign : ∀ s : BitVec 1, (Sign.ofBitVec s).toBitVec = s := by decide
  unfold packComponents
  rw [hsign]
  unfold unpackSign unpackExponent unpackMantissa
  refine BitVec.eq_of_getLsbD_eq fun i hi => ?_
  have hlt : i < 64 := hi
  simp
  grind

/-- The logarithm is told by the powers around the number. -/
theorem log2_eq {n k : Nat} (hlow : 2 ^ k ≤ n) (hhigh : n < 2 ^ (k + 1)) :
    n.log2 = k := by
  have hpos : n ≠ 0 := (Nat.lt_of_lt_of_le (Nat.two_pow_pos k) hlow).ne'
  exact Nat.le_antisymm (Nat.le_of_lt_succ ((Nat.log2_lt hpos).2 hhigh))
    ((Nat.le_log2 hpos).2 hlow)

/-- The significand of a normal number, with its leading bit. -/
theorem toNat_leading (mantissa : BitVec 52) :
    (1#1 ++ mantissa).toNat = 2 ^ 52 + mantissa.toNat := by
  rw [BitVec.toNat_append, Nat.shiftLeft_eq, ← Nat.mul_comm,
    ← Nat.two_pow_add_eq_or_of_lt mantissa.isLt]
  rfl

/-- The leading bit is not part of the mantissa. -/
theorem ofNat_leading (mantissa : BitVec 52) :
    BitVec.ofNat 52 (2 ^ 52 + mantissa.toNat) = mantissa := by
  refine BitVec.eq_of_toNat_eq ?_
  rw [BitVec.toNat_ofNat, Nat.add_mod_left, Nat.mod_eq_of_lt mantissa.isLt]

/-- Unpacking a pattern and packing it again gives it back. By the cases of the
exponent: all ones, all zeros or anything between. -/
theorem pack_unpack {b : BitVec Format.binary64.numBits}
    (h : Format.binary64.Valid b) :
    UnpackedFloat.pack Format.binary64
      (UnpackedFloat.unpack Format.binary64 b) = b := by
  have hjoin := packComponents_unpack b
  have hmantissa : (unpackMantissa b).toNat < 2 ^ 52 := (unpackMantissa b).isLt
  have hexponent : (unpackExponent b).toNat < 2 ^ 11 := (unpackExponent b).isLt
  have hbias : Format.binary64.exponentBias = 1023 := rfl
  have hbits : Format.binary64.mantissaBits = 53 := rfl
  unfold UnpackedFloat.unpack
  dsimp only
  by_cases hmost : unpackExponent b = -1#11
  · rw [if_pos hmost]
    -- All ones: an infinity, or the one value that stands for no number.
    by_cases hinfinite : unpackMantissa b = 0#52
    · rw [if_pos hinfinite]
      rw [hmost, hinfinite] at hjoin
      exact hjoin
    · rw [if_neg hinfinite]
      exact (h.eq_packedNaN hmost hinfinite).symm
  · rw [if_neg hmost]
    -- All zeros: a zero or a subnormal number.
    by_cases hleast : unpackExponent b = 0#11
    · rw [if_pos hleast]
      rw [hleast] at hjoin
      by_cases hzero : unpackMantissa b = 0#52
      · rw [dif_pos hzero]
        rw [hzero] at hjoin
        exact hjoin
      · -- a subnormal number
        have hpos : (unpackMantissa b).toNat ≠ 0 :=
          fun hnull => hzero (BitVec.eq_of_toNat_eq hnull)
        have hlog : (unpackMantissa b).toNat.log2 < 52 :=
          (Nat.log2_lt hpos).2 hmantissa
        rw [dif_neg hzero]
        unfold UnpackedFloat.pack
        dsimp only
        rw [hleast, hbias, hbits, if_neg (by decide), if_neg (by omega),
          BitVec.ofNat_toNat, BitVec.setWidth_eq]
        exact hjoin
    · -- a normal number
      have hlog : (2 ^ 52 + (unpackMantissa b).toNat).log2 = 52 :=
        log2_eq (by omega) (by omega)
      have hfinite : (unpackExponent b).toNat ≠ 2047 := fun hnat =>
        hmost (BitVec.eq_of_toNat_eq hnat)
      have hbiased :
          (((unpackExponent b).toNat : Int) - ((1023 : Nat) + (52 : Nat))
            + (1023 : Nat)
          + (52 : Nat)).toNat = (unpackExponent b).toNat := by omega
      rw [if_neg hleast]
      unfold UnpackedFloat.pack
      dsimp only
      rw [hbias, hbits, hbiased, toNat_leading, hlog, if_neg (by omega),
        if_pos rfl, BitVec.ofNat_toNat, BitVec.setWidth_eq, ofNat_leading]
      exact hjoin

/-- A number is given by its bit pattern. -/
theorem ofBits_toBits (x : Float) : Float.ofBits x.toBits = x := by
  obtain ⟨⟨bits, hvalid⟩⟩ := x
  unfold Float.ofBits Float.toBits Float.Model.ofBits Float.Model.pack
  dsimp only
  congr 2
  rw [pack_unpack hvalid]

end

-- ============================================================ magnitudes

section

variable {x : Float} {significand : Nat} {exponent : Int}

/-- The bits of a float are sixty-four. -/
theorem toBits_lt (x : Float) : x.toBits.toNat < 2 ^ 64 := x.toBits.toNat_lt

/-- The bits of a finite magnitude are those of the number, without the
sign. -/
theorem bitsOf_eq (h : shape x = .finite significand exponent) :
    bitsOf significand exponent = x.toBits.toNat % 2 ^ 63 := by
  have hlt := toBits_lt x
  unfold shape at h
  dsimp only at h
  rw [Nat.pow_eq] at h
  unfold bitsOf
  rw [Nat.pow_eq]
  split at h
  · split at h <;> cases h
  · split at h <;> cases h
    · unfold minExponent
      omega
    · unfold minExponent
      omega

/-- Sign and magnitude make up a finite number. -/
theorem ofMagnitude_eq (h : shape x = .finite significand exponent) :
    ofMagnitude (isNegative x) (bitsOf significand exponent) = x := by
  have hlt := toBits_lt x
  unfold ofMagnitude
  rw [bitsOf_eq h]
  -- The sign is the topmost bit, and the magnitude is the rest.
  have hbits :
      (if isNegative x = true then x.toBits.toNat % 2 ^ 63 + Nat.pow 2 63
      else x.toBits.toNat % 2 ^ 63) = x.toBits.toNat := by
    unfold isNegative
    rw [Nat.pow_eq]
    split
    · rename_i hnegative
      have hge := of_decide_eq_true hnegative
      omega
    · rename_i hpositive
      have hless : ¬ 2 ^ 63 ≤ x.toBits.toNat :=
        fun hge => hpositive (decide_eq_true hge)
      omega
  rw [hbits, UInt64.ofNat_toNat, ofBits_toBits]

/-- The magnitude of a finite number that is not zero. -/
theorem magnitude_of_shape (h : shape x = .finite significand exponent)
    (hpos : 0 < significand) :
    Magnitude significand exponent := by
  have hlt := toBits_lt x
  unfold shape at h
  dsimp only at h
  rw [Nat.pow_eq] at h
  split at h
  · split at h <;> cases h
  · rename_i hfinite
    split at h <;> cases h
    · exact ⟨hpos, by omega, le_rfl, by decide, .inr rfl⟩
    · unfold minExponent
      exact ⟨hpos, by omega,
        by unfold minExponent; omega, by omega, .inl (by omega)⟩

/-- There is one exponent for zero. -/
theorem bitsOf_zero (h : shape x = .finite 0 exponent) :
    bitsOf 0 exponent = 0 := by
  unfold shape at h
  dsimp only at h
  rw [Nat.pow_eq] at h
  split at h
  · split at h <;> cases h
  · split at h
    · rename_i hleast
      obtain ⟨-, rfl⟩ := Shape.finite.inj h
      rfl
    · obtain ⟨hzero, -⟩ := Shape.finite.inj h
      omega

end

end TaskTree.Binary64
