/-
Bit patterns as text: lower-case hexadecimal digits, most significant
first, and one spelling for every NaN.
-/
import TaskTree.Number.Binary64

namespace TaskTree

/-- The last `digits` hexadecimal digits of a number. -/
def hexDigits : Nat → Nat → List Char
  | 0, _ => []
  | digits + 1, n => hexDigits digits (n / 16) ++ [Nat.digitChar (n % 16)]

/-- The bit pattern of a binary64 number. -/
def Binary64.bitText (x : Float) : String :=
  if x.isNaN then "nan" else String.ofList (hexDigits 16 x.toBits.toNat)

/-- The bit pattern of a binary32 number. -/
def Binary32.bitText (x : Float32) : String :=
  if x.isNaN then "nan" else String.ofList (hexDigits 8 x.toBits.toNat)

end TaskTree
