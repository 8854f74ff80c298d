/-
How often a child is repeated.

A count is fixed, or drawn anew between two bounds each time the task is
entered; a negative number means without end. The text of a count is a
number, `forever`, or `uniform,` and the two bounds. Reading allows white
space around the whole and around each bound, and any case for `forever`.
-/
import TaskTree.Number.Numeral
import TaskTree.Text.Blank

namespace TaskTree

/-- How often a child is repeated. -/
inductive RepeatCount where
  | fixed (times : Int64)
  | uniform (low high : Int64)
  deriving DecidableEq, Repr

namespace RepeatCount

/-- Repetition without end. -/
def forever : RepeatCount := .fixed (-1)

/-- Whether the count says outright that there is no end. -/
def isForever : RepeatCount → Bool
  | .fixed times => times < 0
  | .uniform _ _ => false

/-- Whether entering the task draws a random number. -/
def isRandom : RepeatCount → Bool
  | .fixed _ => false
  | .uniform low high => low < high

/-- The number of repetitions that a random number gives. Bounds that leave
no choice give the lower one. -/
def draw (roll : Nat) : RepeatCount → Int64
  | .fixed times => times
  | .uniform low high =>
    if high ≤ low then low
    else Int64.ofInt (low.toInt + (roll : Int) % (high.toInt - low.toInt + 1))

/-- The text of a count. -/
def text : RepeatCount → String
  | .fixed times => if times < 0 then "forever" else toString times.toInt
  | .uniform low high =>
    "uniform," ++ toString low.toInt ++ "," ++ toString high.toInt

/-- A count in descriptions of a structure. -/
def description : RepeatCount → String
  | .fixed times => "Fixed(" ++ toString times.toInt ++ ")"
  | .uniform low high =>
    "Uniform \x7b low: " ++ toString low.toInt ++ ", high: "
      ++ toString high.toInt ++ " \x7d"

/-- What follows a fixed beginning, if a text has it. -/
def after? : List Char → List Char → Option (List Char)
  | [], cs => some cs
  | _ :: _, [] => none
  | w :: ws, c :: cs => if w = c then after? ws cs else none

/-- The two bounds, separated by the first comma. -/
def readBounds (cs : List Char) : Option (Int64 × Int64) :=
  match cs.dropWhile (· ≠ ',') with
  | [] => none
  | _ :: rest =>
    (readInt64 (Text.trimBlank (cs.takeWhile (· ≠ ',')))).bind fun low =>
      (readInt64 (Text.trimBlank rest)).map fun high => (low, high)

/-- The word for repetition without end. -/
def foreverWord : List Char := ['f', 'o', 'r', 'e', 'v', 'e', 'r']

/-- What stands before two bounds. -/
def uniformWord : List Char := ['u', 'n', 'i', 'f', 'o', 'r', 'm', ',']

/-- Reads a count. Bounds in the wrong order are refused. -/
def read (cs : List Char) : Option RepeatCount :=
  let trimmed := Text.trimBlank cs
  if trimmed.map Char.toLower = foreverWord then some forever
  else
    match after? uniformWord trimmed with
    | some bounds =>
      (readBounds bounds).bind fun (low, high) =>
        if high < low then none else some (.uniform low high)
    | none => (readInt64 trimmed).map .fixed

/-- The wording for a text that is no count. -/
def refusal (text : String) : String :=
  "invalid repeat count '" ++ text
    ++ "' (expected an integer, 'forever' or 'uniform,LOW,HIGH')"

end RepeatCount

end TaskTree
