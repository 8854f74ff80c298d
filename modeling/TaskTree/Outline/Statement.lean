/-
Statements: the words of an outline.

A statement names a task or a library subtree, may be a guard, and has
attributes. Attributes keep the order in which they were written, and no
name occurs twice among them.
-/
import TaskTree.Outline.Literal
import TaskTree.Outline.BuildFault

namespace TaskTree.Outline

/-- The attributes of a statement, in the order in which they were
written. -/
structure Attributes where
  entries : List (String × Literal)
  nodup : (entries.map (·.1)).Nodup
  deriving DecidableEq

namespace Attributes

/-- No attributes. -/
def empty : Attributes := ⟨[], .nil⟩

/-- The value under a name. -/
def get? (attributes : Attributes) (name : String) : Option Literal :=
  (attributes.entries.find? fun entry => entry.1 = name).map (·.2)

/-- Whether a name is taken. -/
def has (attributes : Attributes) (name : String) : Bool :=
  (attributes.get? name).isSome

/-- The taken names are those of the entries. -/
theorem has_eq_true_iff {attributes : Attributes} {name : String} :
    attributes.has name = true ↔ name ∈ attributes.entries.map (·.1) := by
  simp [has, get?]

/-- Appends an attribute, unless its name is taken. -/
def add? (attributes : Attributes) (name : String) (value : Literal) :
    Option Attributes :=
  if h : attributes.has name then none
  else
    some
      { entries := attributes.entries ++ [(name, value)]
        nodup := by
          have fresh := mt has_eq_true_iff.2 h
          simpa [List.nodup_append, attributes.nodup] using fun k v hk e =>
            fresh (by simp_all) }

/-- The number of attributes. -/
def size (attributes : Attributes) : Nat := attributes.entries.length

/-- Refuses the first attribute whose name is not among `allowed`. -/
def expectOnly (attributes : Attributes) (task : String)
    (allowed : List String) :
    Except BuildFault Unit :=
  match attributes.entries.find? fun entry => !allowed.contains entry.1 with
  | some (name, _) => .error (.unknownAttribute task name)
  | none => .ok ()

/-- The value under a name, which the task needs. -/
def require (attributes : Attributes) (task name : String) :
    Except BuildFault Literal :=
  match attributes.get? name with
  | some value => .ok value
  | none => .error (.missingAttribute task name)

/-- The fault of a value that is not of the expected type. -/
def mismatch (name expected : String) (found : Literal) : BuildFault :=
  .wrongType name expected found.shown

/-- The value under a name at a type, if there is one at all. -/
def typed {α : Type} (attributes : Attributes) (name expected : String)
    (convert : Literal → Option α) : Except BuildFault (Option α) :=
  match attributes.get? name with
  | none => .ok none
  | some value =>
    match convert value with
    | some converted => .ok (some converted)
    | none => .error (mismatch name expected value)

/-- A truth value. -/
def bool (attributes : Attributes) (name : String) :
    Except BuildFault (Option Bool) :=
  attributes.typed name "boolean" Literal.bool?

/-- An integer. -/
def int (attributes : Attributes) (name : String) :
    Except BuildFault (Option Int64) :=
  attributes.typed name "integer" Literal.int?

/-- A number; an integer is taken as one. -/
def float (attributes : Attributes) (name : String) :
    Except BuildFault (Option Float) :=
  attributes.typed name "number" Literal.float?

/-- A text. -/
def text (attributes : Attributes) (name : String) :
    Except BuildFault (Option String) :=
  attributes.typed name "string" Literal.text?

end Attributes

/-- One statement of an outline. -/
structure Statement where
  /-- The kind of task, or the name of a subtree. -/
  name : String
  /-- Whether the name is that of a subtree. -/
  isReference : Bool
  /-- Whether this is the guard of the statement that follows. -/
  isGuard : Bool
  attributes : Attributes
  deriving DecidableEq

namespace Statement

/-- A statement without attributes. -/
def bare (name : String) (isReference isGuard : Bool) : Statement :=
  { name, isReference, isGuard, attributes := .empty }

/-- A statement with one more attribute, which must be new to it. -/
def addAttribute (s : Statement) (name : String) (value : Literal) :
    Except BuildFault Statement :=
  match s.attributes.add? name value with
  | some attributes => .ok { s with attributes }
  | none => .error (.repeatedAttribute s.name name)

/-- The attributes as outlines write them. -/
def attributesText (attributes : Attributes) : String :=
  if attributes.entries.isEmpty then ""
  else
    "(" ++ " ".intercalate
      (attributes.entries.map fun entry => entry.1 ++ ":" ++ entry.2.shown)
      ++ ")"

/-- The statement as outlines write it. -/
def text (s : Statement) : String :=
  (if s.isGuard then "?" else "")
    ++ (if s.isReference then "->" else "") ++ s.name
    ++ attributesText s.attributes

end Statement

end TaskTree.Outline
