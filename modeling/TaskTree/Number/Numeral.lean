/-
Decimal numerals: `± coefficient · 10 ^ exponent`.

`Numeral.read` reads the usual spelling (an optional sign, digits with
an optional point, an optional exponent) and `Numeral.toFloat` rounds
the value to the nearest binary64 number. A numeral whose size is
outside the range of binary64 is settled by its size alone, so that no
power of ten beyond that range is ever computed.
-/
import TaskTree.Number.Binary64

namespace TaskTree

/-- A decimal number, `± coefficient · 10 ^ exponent`. -/
structure Numeral where
  negative : Bool
  coefficient : Nat
  exponent : Int
  deriving DecidableEq, Repr

namespace Numeral

/-- Whether a character is one of the ten ASCII digits. -/
def isDigit (c : Char) : Bool := '0' ≤ c && c ≤ '9'

/-- The value of a digit. -/
def digitValue (c : Char) : Nat := c.toNat - '0'.toNat

/-- The number that a row of digits denotes. -/
def ofDigits (ds : List Char) : Nat :=
  ds.foldl (fun n c => 10 * n + digitValue c) 0

/-- The leading digits of a text and what follows them. -/
def digitRun (cs : List Char) : List Char × List Char :=
  (cs.takeWhile isDigit, cs.dropWhile isDigit)

/-- An optional sign, read as "is negative", and what follows it. -/
def signed : List Char → Bool × List Char
  | '-' :: rest => (true, rest)
  | '+' :: rest => (false, rest)
  | cs => (false, cs)

/-- An integer with an optional sign, and nothing else. -/
def readInteger (cs : List Char) : Option Int :=
  let (negative, rest) := signed cs
  if rest.isEmpty || !rest.all isDigit then none
  else if negative then some (-(ofDigits rest : Int))
  else some (ofDigits rest : Int)

/-- The exponent part of a numeral: nothing, or `e` and an integer. -/
def readExponent : List Char → Option Int
  | [] => some 0
  | c :: rest => if c = 'e' ∨ c = 'E' then readInteger rest else none

/-- The digits after a decimal point, if there is one, and what follows. -/
def readFraction : List Char → List Char × List Char
  | '.' :: rest => digitRun rest
  | cs => ([], cs)

/-- Reads a numeral: digits with at most one point, at least one digit
on either side of it, then an exponent. -/
def read (cs : List Char) : Option Numeral :=
  let (negative, unsigned) := signed cs
  let (whole, afterWhole) := digitRun unsigned
  let (fraction, afterFraction) := readFraction afterWhole
  if whole.isEmpty && fraction.isEmpty then none
  else
    (readExponent afterFraction).map fun exponent =>
      { negative
        coefficient := ofDigits (whole ++ fraction)
        exponent := exponent - fraction.length }

/-- The number of decimal digits of a natural number, none for zero. -/
def digitCount (n : Nat) : Nat :=
  if n = 0 then 0 else (Nat.toDigits 10 n).length

/-- The nearest binary64 number. A numeral below `10 ^ (-400)` rounds to
zero and one above `10 ^ 400` to infinity, so neither is computed. -/
def toFloat (x : Numeral) : Float :=
  let size : Int := digitCount x.coefficient + x.exponent
  if x.coefficient = 0 ∨ size < -400 then Binary64.ofMagnitude x.negative 0
  else if 400 < size then Binary64.ofMagnitude x.negative Binary64.infinityBits
  else if 0 ≤ x.exponent then
    Binary64.ofRatio x.negative (x.coefficient * Nat.pow 10 x.exponent.toNat) 1
  else
    Binary64.ofRatio x.negative x.coefficient (Nat.pow 10 (-x.exponent).toNat)

end Numeral

/-- The smallest and the largest 64-bit integer. -/
def Int64.bounds : Int × Int := (-(Nat.pow 2 63), Nat.pow 2 63 - 1)

/-- Reads a 64-bit integer; one that is out of range is refused. -/
def readInt64 (cs : List Char) : Option Int64 :=
  match Numeral.readInteger cs with
  | none => none
  | some i =>
    if Int64.bounds.1 ≤ i ∧ i ≤ Int64.bounds.2 then some (Int64.ofInt i)
    else none

end TaskTree
