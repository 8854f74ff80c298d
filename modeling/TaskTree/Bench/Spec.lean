/-
Blueprints and makers described by plain data.

A `Spec` says how a blueprint is put together. It is built from the
leaves up, and the first refusal met on the way is the answer. The makers
are what a workbench may add to its dialect.
-/
import TaskTree.Bench.Basic

namespace TaskTree.Bench

open Outline

-- ============================================================= blueprints

/-- What stands at the top of a blueprint to be built. -/
inductive Seed where
  | task (task : Cast)
  /-- A repetition, its count given as text. -/
  | repeating (count : String)
  /-- The tree of an outline. -/
  | outline (text : String)
  /-- A copy of a subtree of the dialect. -/
  | reference (name : String)

/-- A blueprint to be built. -/
inductive Spec where
  | node (seed : Seed) (guard : Option Spec) (children : List Spec)

/-- The blueprint of a seed. -/
def Seed.grow : Seed → Act Plan
  | .task cast => pure (.single cast)
  | .repeating text =>
    match RepeatCount.read text.toList with
    | some count => pure (.single (.common (.repeats count)))
    | none => throw (.count text)
  | .outline text => do takeReading ((← get).dialect.parse text)
  | .reference name =>
    do settleOr .build (Shelf.copy (← get).dialect.shelf name)

/-- Adds children to a blueprint, one after another. -/
def addChildren (blueprint : Plan) (children : List Plan) : Act Plan :=
  children.foldlM (fun grown child => settleOr .tree (grown.addChild child))
    blueprint

/-- Adds a guard to a blueprint, if there is one. -/
def addGuard (blueprint : Plan) : Option Plan → Act Plan
  | none => pure blueprint
  | some guard => settleOr .tree (blueprint.setGuard guard)

mutual

/-- Builds a blueprint: first its children, then its guard, then what
stands at the top, which they are then added to. -/
def Spec.build : Spec → Act Plan
  | .node seed guard children => do
    let children ← buildAll children
    let guard ← buildGuard guard
    let top ← seed.grow
    addGuard (← addChildren top children) guard

/-- Builds the guard of a blueprint. -/
def Spec.buildGuard : Option Spec → Act (Option Plan)
  | none => pure none
  | some guard => do return some (← guard.build)

/-- Builds the children of a blueprint, from left to right. -/
def Spec.buildAll : List Spec → Act (List Plan)
  | [] => pure []
  | child :: rest => do
    let first ← child.build
    return first :: (← buildAll rest)

end

/-- Where a blueprint comes from. -/
inductive Supply where
  | build (spec : Spec)
  /-- The workbench's own blueprint of a name, which leaves it. -/
  | take (name : String)

/-- Gets a blueprint. -/
def Supply.get : Supply → Act Plan
  | .build spec => spec.build
  | .take name => takePlan name

-- ================================================================= making

/-- The maker of a condition on a counter. -/
def conditionMaker (name : String) : Maker Cast := fun attributes => do
  attributes.expectOnly name ["var", "min"]
  let counter := (← attributes.text "var").getD "x"
  let least := (← attributes.int "min").getD 1
  return .common (atLeast name counter least)

/-- The maker of an action on a counter. -/
def actionMaker (name : String) : Maker Cast := fun attributes => do
  attributes.expectOnly name ["var", "add", "returns"]
  let counter := (← attributes.text "var").getD "x"
  let amount := (← attributes.int "add").getD 1
  let schedule := (← attributes.text "returns").getD "s"
  return .common (chore name counter amount schedule)

/-- The maker of a leaf whose name shows its attributes. -/
def typedMaker (name : String) : Maker Cast := fun attributes => do
  let level ← attributes.require name "level"
  let flag ← attributes.bool "flag"
  let ratio ← attributes.float "ratio"
  let flagText :=
    match flag with
    | none => "None"
    | some true => "Some(true)"
    | some false => "Some(false)"
  let ratioText :=
    match ratio with
    | none => "None"
    | some x => "Some(\"" ++ Binary64.bitText x ++ "\")"
  return .common
    (named (name ++ "/" ++ level.shown ++ "/" ++ flagText ++ "/" ++ ratioText))

end TaskTree.Bench
