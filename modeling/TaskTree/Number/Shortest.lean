/-
The shortest decimal text of a binary64 number.

Of all decimals that round to a given number, `shortest` finds one with
the fewest digits, and among those the nearest to the number; of two
equally near ones it takes the larger. It tests, for one digit, two
digits and so on, the two neighbours of the value on that decimal grid
against the interval of reals that round to it. Everything is exact: a
value is a ratio of natural numbers, measured in quarters of the last
binary place, so that both ends of the interval are whole.

`Float` text is then a matter of layout: positional notation for
magnitudes from `10 ^ (-4)` up to `10 ^ 16`, scientific notation for all
others.
-/
import TaskTree.Number.Numeral

namespace TaskTree.Binary64

/-- A decimal point `coefficient · 10 ^ exponent`. -/
structure Decimal where
  coefficient : Nat
  exponent : Int
  deriving DecidableEq, Repr

/-- The interval of reals that round to a magnitude, with the magnitude
itself: `low`, `value` and `high` times `num / den`. The ends belong to
it when the significand is even. -/
structure Interval where
  low : Nat
  value : Nat
  high : Nat
  num : Nat
  den : Nat
  closed : Bool

/-- The rounding interval of `significand · 2 ^ exponent`. Below a power
of two the next number is half as far away as above it. -/
def interval (significand : Nat) (exponent : Int) : Interval :=
  let below :=
    if significand = Nat.pow 2 52 ∧ minExponent < exponent then 1 else 2
  let unit := exponent - 2
  { low := 4 * significand - below
    value := 4 * significand
    high := 4 * significand + 2
    num := if 0 ≤ unit then Nat.pow 2 unit.toNat else 1
    den := if 0 ≤ unit then 1 else Nat.pow 2 (-unit).toNat
    closed := significand % 2 = 0 }

/-- The largest `k` with `10 ^ k ≤ num / den`, for positive `num` and
`den`. -/
def log10Ratio (num den : Nat) : Int :=
  if den ≤ num then (Numeral.digitCount (num / den) : Int) - 1
  else -(Numeral.digitCount ((den + num - 1) / num - 1) : Int)

/-- The size of `c · 10 ^ exponent`, brought to the interval's units over
a common denominator with `Interval.scaled`. -/
def Interval.gridPoint (v : Interval) (exponent : Int) (c : Nat) : Nat :=
  if 0 ≤ exponent then c * Nat.pow 10 exponent.toNat * v.den else c * v.den

/-- A multiple of the interval's unit over the same denominator. -/
def Interval.scaled (v : Interval) (exponent : Int) (x : Nat) : Nat :=
  if 0 ≤ exponent then x * v.num else x * v.num * Nat.pow 10 (-exponent).toNat

/-- Whether `c · 10 ^ exponent` rounds to the value. -/
def Interval.holds (v : Interval) (exponent : Int) (c : Nat) : Bool :=
  let point := v.gridPoint exponent c
  let low := v.scaled exponent v.low
  let high := v.scaled exponent v.high
  if v.closed then low ≤ point && point ≤ high else low < point && point < high

/-- The point of a decimal grid that rounds to the value and is nearest to
it, if there is one: one of the value's two neighbours. -/
def Interval.onGrid (v : Interval) (exponent : Int) : Option Nat :=
  let value := v.scaled exponent v.value
  let floor := value / v.gridPoint exponent 1
  let down := v.holds exponent floor
  let up := v.holds exponent (floor + 1)
  if down && up then
    let below := value - v.gridPoint exponent floor
    let above := v.gridPoint exponent (floor + 1) - value
    if below < above then some floor else some (floor + 1)
  else if down then some floor
  else if up then some (floor + 1)
  else none

/-- Tries grids of one digit more each time. Seventeen digits always
suffice, so `tries` runs out on no binary64 number. -/
def Interval.search (v : Interval) : Nat → Int → Decimal
  | 0, exponent =>
    ⟨v.scaled exponent v.value / v.gridPoint exponent 1, exponent⟩
  | tries + 1, exponent =>
    match v.onGrid exponent with
    | some c => ⟨c, exponent⟩
    | none => v.search tries (exponent - 1)

/-- The shortest decimal that rounds to `significand · 2 ^ exponent`, for a
positive significand. -/
def shortest (significand : Nat) (exponent : Int) : Decimal :=
  let v := interval significand exponent
  v.search 17 (log10Ratio (v.value * v.num) v.den)

-- ================================================================ layout

/-- Removes the trailing zeros of a row of digits and counts them. -/
def trimZeros (ds : List Char) : List Char × Nat :=
  let zeros := (ds.reverse.takeWhile (· = '0')).length
  (ds.take (ds.length - zeros), zeros)

/-- The digits `ds · 10 ^ exponent` with a point and at least one digit
after it. -/
def positional (ds : List Char) (exponent : Int) : List Char :=
  if 0 ≤ exponent then ds ++ List.replicate exponent.toNat '0' ++ ['.', '0']
  else
    let places := (-exponent).toNat
    let padded := List.replicate (places + 1 - ds.length) '0' ++ ds
    let whole := padded.length - places
    padded.take whole ++ '.' :: padded.drop whole

/-- One digit before the point, the others after it, and the exponent. -/
def scientific (ds : List Char) (exponent : Int) : List Char :=
  let power := exponent + ds.length - 1
  let mantissa :=
    match ds with
    | [] => []
    | [d] => [d]
    | d :: rest => d :: '.' :: rest
  mantissa ++ 'e' :: (toString power).toList

/-- The text of a finite magnitude. -/
def finiteText (significand : Nat) (exponent : Int) : List Char :=
  if significand = 0 then ['0', '.', '0']
  else
    let best := shortest significand exponent
    let (ds, zeros) := trimZeros (Nat.toDigits 10 best.coefficient)
    let power := best.exponent + zeros + ds.length - 1
    if -4 ≤ power ∧ power < 16 then positional ds (best.exponent + zeros)
    else scientific ds (best.exponent + zeros)

/-- The text of a binary64 number: the fewest digits that read back, with
a point or an exponent in every finite case. -/
def text (x : Float) : String :=
  let sign := if isNegative x then ['-'] else []
  match shape x with
  | .nan => "NaN"
  | .infinite => String.ofList (sign ++ ['i', 'n', 'f'])
  | .finite significand exponent =>
    String.ofList (sign ++ finiteText significand exponent)

end TaskTree.Binary64
