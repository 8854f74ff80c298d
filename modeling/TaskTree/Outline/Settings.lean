/-
How outlines are read: whether comments are reported, and how much of the
reading is logged.
-/

namespace TaskTree.Outline

/-- How much of the reading is logged. -/
inductive Verbosity where
  | none
  | low
  | high
  deriving DecidableEq, Repr, Inhabited

namespace Verbosity

/-- The rank of a verbosity, the quietest first. -/
def rank : Verbosity → Nat
  | .none => 0
  | .low => 1
  | .high => 2

/-- Whether a verbosity logs what `least` asks for. -/
def covers (verbosity least : Verbosity) : Bool := least.rank ≤ verbosity.rank

/-- The word for a verbosity. -/
def text : Verbosity → String
  | .none => "none"
  | .low => "low"
  | .high => "high"

/-- A verbosity in descriptions of a structure. -/
def label : Verbosity → String
  | .none => "None"
  | .low => "Low"
  | .high => "High"

/-- The verbosity that a word stands for, in any case of its ASCII
letters. -/
def ofText? (s : String) : Option Verbosity :=
  [Verbosity.none, .low, .high].find? fun verbosity =>
    s.toList.map Char.toLower = verbosity.text.toList

/-- The wording for a word that is no verbosity. -/
def refusal : String := "VariantNotFound"

end Verbosity

/-- How outlines are read. -/
structure Settings where
  reportsComments : Bool
  verbosity : Verbosity
  deriving DecidableEq, Repr

namespace Settings

/-- Comments are passed over and nothing is logged. -/
def standard : Settings := { reportsComments := false, verbosity := .none }

/-- The settings in full. -/
def description (s : Settings) : String :=
  "ParserConfig \x7b reports_comments: "
    ++ (if s.reportsComments then "true" else "false")
    ++ ", debug_level: " ++ s.verbosity.label ++ " \x7d"

end Settings

end TaskTree.Outline
