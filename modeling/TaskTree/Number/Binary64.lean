/-
Binary64 numbers as exact rationals, and back.

A finite `Float` is `significand · 2 ^ exponent` with a sign; `shape`
reads that off the bit pattern. In the other direction `ofRatio` rounds
a quotient of natural numbers to the nearest binary64 number, ties to
the even significand, in natural number arithmetic throughout: no
intermediate value is ever rounded.

The packing relies on one fact about the format. With the exponent
clamped from below at `minExponent`, the bit pattern of a magnitude is
`(exponent - minExponent) · 2 ^ 52 + significand`, for subnormal and
normal numbers alike, and a significand that rounds up to `2 ^ 53`
carries into the exponent by the same sum.
-/

namespace TaskTree.Binary64

/-- The exponent of the smallest binary64 magnitudes. -/
def minExponent : Int := -1074

/-- The bit pattern of positive infinity. -/
def infinityBits : Nat := 2047 * Nat.pow 2 52

/-- What the bit pattern of a magnitude stands for. -/
inductive Shape where
  | nan
  | infinite
  | finite (significand : Nat) (exponent : Int)
  deriving DecidableEq, Repr

/-- Whether the sign bit is set. -/
def isNegative (x : Float) : Bool :=
  Nat.pow 2 63 ≤ x.toBits.toNat

/-- The magnitude of a number: `significand · 2 ^ exponent` when it is
finite. -/
def shape (x : Float) : Shape :=
  let field : Nat := x.toBits.toNat / Nat.pow 2 52 % 2048
  let fraction : Nat := x.toBits.toNat % Nat.pow 2 52
  if field = 2047 then
    if fraction = 0 then .infinite else .nan
  else if field = 0 then
    .finite fraction minExponent
  else
    .finite (fraction + Nat.pow 2 52) (field + minExponent - 1)

/-- The ratio `num / den` rounded to a natural number, a half going to the even
neighbour. -/
def roundEven (num den : Nat) : Nat :=
  let floor := num / den
  let twice := 2 * (num % den)
  if twice < den ∨ (twice = den ∧ floor % 2 = 0) then floor else floor + 1

/-- The largest `k` with `2 ^ k ≤ num / den`, for positive `num` and
`den`. -/
def log2Ratio (num den : Nat) : Int :=
  let k : Int := (num.log2 : Int) - (den.log2 : Int)
  let reached :=
    if 0 ≤ k then den * Nat.pow 2 k.toNat ≤ num
    else den ≤ num * Nat.pow 2 (-k).toNat
  if reached then k else k - 1

/-- The bit pattern of the binary64 magnitude nearest to `num / den`;
what is too large becomes infinity. -/
def nearestBits (num den : Nat) : Nat :=
  if num = 0 then 0
  else
    let exponent := max (log2Ratio num den - 52) minExponent
    let significand :=
      if 0 ≤ exponent then roundEven num (den * Nat.pow 2 exponent.toNat)
      else roundEven (num * Nat.pow 2 (-exponent).toNat) den
    min infinityBits
    ((exponent - minExponent).toNat * Nat.pow 2 52 + significand)

/-- The number whose magnitude has the given bit pattern. -/
def ofMagnitude (negative : Bool) (bits : Nat) : Float :=
  Float.ofBits (UInt64.ofNat (if negative then bits + Nat.pow 2 63 else bits))

/-- The binary64 number nearest to `num / den`, with a sign. -/
def ofRatio (negative : Bool) (num den : Nat) : Float :=
  ofMagnitude negative (nearestBits num den)

/-- The binary64 number nearest to an integer. -/
def ofInt (i : Int) : Float :=
  ofRatio (i < 0) i.natAbs 1

end TaskTree.Binary64
