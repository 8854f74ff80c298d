/-
Sequence and selector are dual.

A selector under an `invert` and a sequence of children each of which is
under an `invert` of its own are the same tree to anybody who sees its
results and its board. The two trees are different ones. They have different
handles, and where one has a single task that inverts, the other has as many
as there are children. But an `invert` without a guard has no state that
matters, so at every moment of a run the selector and the sequence stand at
the same place, and the children are the same but for their handles
(`Opposed`). A turn preserves this and its outcomes are opposite
(`turn_opposed`), also when the turn is ended by a fault, so that the trees
are the same in later steps, too.
-/
import Mathlib.Data.List.Forall2
import TaskTree.Proofs.Direct.Renumbering

namespace TaskTree

/-- What `invert` makes of an outcome. -/
def Outcome.inverted : Outcome → Outcome
  | .running => .running
  | .succeeded => .failed
  | .failed => .succeeded

theorem Outcome.inverted_eq_succeeded (outcome : Outcome) :
    outcome.inverted = .succeeded ↔ outcome = .failed := by
  cases outcome <;> decide

theorem Outcome.inverted_running (outcome : Outcome) :
    outcome.status = .running ↔ outcome.inverted.status = .running := by
  cases outcome <;> decide

variable {E A : Type}

/-- A tree under an `invert`. -/
def Blueprint.inverted (b : Blueprint (Stock E A)) : Blueprint (Stock E A) :=
  .node .invert none [b]

namespace Direct

open Arena Live

-- =============================================================== opposites

/-- Opposite outcomes, or the same fault but for the handles. -/
inductive Opposite : Except Fault Outcome → Except Fault Outcome → Prop where
  | ok (outcome : Outcome) : Opposite (.ok outcome) (.ok outcome.inverted)
  | error {fault fault' : Fault}
      (same : fault.renumber anyone = fault'.renumber anyone) :
      Opposite (.error fault) (.error fault')

/-- A tree, and the same tree but for its handles under an `invert`. -/
inductive Inverts : Live E A → Live E A → Prop where
  | node {child child' : Live E A} {self : TaskId} {status : Status}
      (same : nameless child = nameless child') :
      Inverts child (.node self .invert status none [child'])

/-- A selector, and a sequence whose children are those of the selector
inverted. If they are running, they stand at the same place. -/
inductive Opposed : Live E A → Live E A → Prop where
  | node {self self' : TaskId} {current current' : Nat}
      {status status' : Status} {children children' : List (Live E A)}
      (stand : status = .running ↔ status' = .running)
      (place : status = .running → current = current')
      (beneath : List.Forall₂ Inverts children children') :
      Opposed (.node self (.selector current) status none children)
        (.node self' (.sequence current') status' none children')

-- =================================================================== turns

variable [Deed E A] {w w' : World E} (delta : Float32)

/-- An `invert` has a turn whenever its child has one. -/
theorem turn_invert (self : TaskId) (status : Status) (child : Live E A)
    (w : World E) :
    turn delta (.node self .invert status none [child]) w
      = finish self .invert status none [(turn delta child w).live]
          ((turn delta child w).result.map Outcome.inverted)
          (turn delta child w).world := by
  have hpassOn : ∀ outcome,
      passOn outcome (.invert : Stock E A) = (outcome.inverted, .invert) := by
    intro outcome
    cases outcome <;> rfl
  have hspent : ¬ isSpent (.invert : Stock E A) = true := Bool.false_ne_true
  rw [turn_unguarded,
    show enter w (.invert : Stock E A) = (.invert, w) from rfl, ite_self,
        work_single _ _ _ _ _ _ rfl, if_neg hspent]
  dsimp only
  cases (turn delta child w).result with
  | error fault => rfl
  | ok outcome =>
      dsimp only
      rw [hpassOn]
      rfl

theorem turn_inverts {child child' : Live E A} (h : Inverts child child')
    (hworld : w.Like w') :
    Opposite (turn delta child w).result (turn delta child' w').result
      ∧ Inverts (turn delta child w).live (turn delta child' w').live
      ∧ (turn delta child w).world.Like (turn delta child' w').world := by
  cases h with
  | @node child' _ _ same =>
      obtain ⟨hresult, hlive, hafter⟩ := turn_nameless delta same hworld
      rw [turn_invert]
      cases hturn : (turn delta child w).result with
      | error fault =>
          cases hturn' : (turn delta child' w').result with
          | ok outcome => rw [hturn, hturn'] at hresult; cases hresult
          | error fault' =>
              rw [hturn, hturn'] at hresult
              exact ⟨.error (Except.error.inj hresult), .node hlive, hafter⟩
      | ok outcome =>
          cases hturn' : (turn delta child' w').result with
          | error fault' => rw [hturn, hturn'] at hresult; cases hresult
          | ok outcome' =>
              rw [hturn, hturn'] at hresult
              obtain rfl := Except.ok.inj hresult
              exact ⟨.ok outcome, .node hlive, hafter.board, hafter.draws⟩

/-- A row of children goes on after a failure where the row of the inverted
ones goes on after a success. -/
theorem row_inverts {children children' : List (Live E A)}
    (h : List.Forall₂ Inverts children children') (hworld : w.Like w') :
    Opposite (row delta .failed children w).result
      (row delta .succeeded children' w').result
      ∧ (row delta .failed children w).live.1
        = (row delta .succeeded children' w').live.1
      ∧ List.Forall₂ Inverts (row delta .failed children w).live.2
        (row delta .succeeded children' w').live.2
      ∧ (row delta .failed children w).world.Like
        (row delta .succeeded children' w').world := by
  induction h generalizing w w' with
  | nil =>
      rw [row, row]
      exact ⟨.ok .failed, rfl, .nil, hworld⟩
  | @cons child child' rest rest' hchild hrest ih =>
      obtain ⟨hresult, hlive, hafter⟩ := turn_inverts delta hchild hworld
      rw [row, row]
      dsimp only
      generalize (turn delta child w).result = result,
        (turn delta child' w').result = result'
        at hresult
      cases hresult with
      | error same => exact ⟨.error same, rfl, .cons hlive hrest, hafter⟩
      | ok outcome =>
          dsimp only
          by_cases hfailed : outcome = .failed
          · obtain ⟨hresult, hcount, hrow, hworld'⟩ := ih hafter
            rw [if_pos hfailed,
              if_pos (outcome.inverted_eq_succeeded.2 hfailed)]
            exact ⟨hresult, congrArg (· + 1) hcount, .cons hlive hrow, hworld'⟩
          · rw [if_neg hfailed,
              if_neg fun h => hfailed (outcome.inverted_eq_succeeded.1 h)]
            exact ⟨.ok outcome, rfl, .cons hlive hrest, hafter⟩

/-- A selector has the opposite outcome of the sequence of its inverted
children, and the two are still opposed then. -/
theorem turn_opposed {live live' : Live E A} (h : Opposed live live')
    (hworld : w.Like w') :
    Opposite (turn delta live w).result (turn delta live' w').result
      ∧ Opposed (turn delta live w).live (turn delta live' w').live
      ∧ (turn delta live w).world.Like (turn delta live' w').world := by
  cases h with
  | @node self self' current current' status status' children children' stand
        place beneath =>
      -- Whether they go on or are entered, both update at the same place.
      have hwork : ∀ place, Opposite
            (work delta self (.selector place) status none children w).result
            (work delta self' (.sequence place) status' none
              children' w').result
          ∧ Opposed
            (work delta self (.selector place) status none children w).live
            (work delta self' (.sequence place) status' none children' w').live
          ∧ (work delta self (.selector place) status none
            children w).world.Like
            (work delta self' (.sequence place) status' none children'
              w').world := by
        intro place
        obtain ⟨hresult, hcount, hrow, hafter⟩ := row_inverts delta
          (List.forall₂_drop place beneath) hworld
        have hall := List.rel_append (List.forall₂_take place beneath) hrow
        rw [work, work, ← hcount]
        generalize (row delta .failed (children.drop place) w).result = result,
          (row delta .succeeded (children'.drop place) w').result
            = result' at hresult
        cases hresult with
        | error same =>
            exact ⟨.error same, .node stand (fun _ => rfl) hall, hafter⟩
        | ok outcome =>
            exact ⟨.ok outcome,
              .node outcome.inverted_running (fun _ => rfl) hall, hafter.board,
              hafter.draws⟩
      rw [turn_unguarded, turn_unguarded]
      by_cases hrunning : status = .running
      · rw [if_pos hrunning, if_pos (stand.1 hrunning), ← place hrunning]
        exact hwork current
      · rw [if_neg hrunning, if_neg fun h => hrunning (stand.2 h)]
        exact hwork 0

-- =================================================================== runs

/-- A step as it looks to those who do not look at handles. -/
def withoutHandles : Except Fault Status × E → Except Fault Status × E :=
  Prod.map (Except.mapError (Fault.renumber anyone)) id

/-- A selector under an `invert` steps as the sequence of its inverted
children does. -/
theorem outcomes_opposed {live live' : Live E A} (h : Opposed live live')
    (hworld : w.Like w') (self : TaskId) (status : Status)
    (deltas : List Float32) :
    (outcomes deltas (.node self .invert status none [live]) w).map
      withoutHandles
      = (outcomes deltas live' w').map withoutHandles := by
  induction deltas generalizing live live' w w' status with
  | nil => rfl
  | cons delta rest ih =>
      obtain ⟨hresult, hlive, hafter⟩ := turn_opposed delta h hworld
      rw [outcomes, outcomes]
      dsimp only [step]
      rw [turn_invert]
      generalize (turn delta live w).result = result,
        (turn delta live' w').result = result'
        at hresult
      cases hresult with
      | error same =>
          rw [List.map_cons, List.map_cons]
          refine congrArg₂ List.cons ?_ (ih hlive hafter status)
          exact Prod.ext (congrArg Except.error same) hafter.board
      | ok outcome =>
          have hlater :
              World.Like
                (finish self .invert status none [(turn delta live w).live]
              (.ok outcome.inverted) (turn delta live w).world).world
              (turn delta live' w').world :=
            ⟨hafter.board, hafter.draws⟩
          rw [List.map_cons, List.map_cons]
          refine congrArg₂ List.cons ?_
            (ih hlive hlater outcome.inverted.status)
          exact Prod.ext rfl hafter.board

omit [Deed E A] in
/-- A row of blueprints, and the row of the same blueprints inverted. -/
theorem inverts_numberAll (children : List (Blueprint (Stock E A)))
    (m n : Nat) :
    List.Forall₂ Inverts (numberAll m children)
      (numberAll n (children.map Blueprint.inverted)) := by
  induction children generalizing m n with
  | nil => exact .nil
  | cons child rest ih =>
      rw [numberAll, List.map_cons, numberAll]
      refine .cons (.node ?_) (ih _ _)
      exact congrArg pruned (renumber_number child _ _)

end Direct

open Arena Direct

/-- A selector under an `invert`, and a sequence of inverted children: for
every row of children, every board, all random numbers and all time steps,
the two trees give the same in every step and leave the same board. If the
one gives a fault so does the other, and it is the same but for the handles
in it. -/
theorem outcomes_deMorgan [Deed E A] (children : List (Blueprint (Stock E A)))
    (board : E) (dice : Nat → Nat) (deltas : List Float32) :
    ∃ seen seen' : List (Except Fault Status × E),
      Settles (fun b =>
        (ofBlueprint (Blueprint.node (.selector 0) none children).inverted board
        dice).outcomes b deltas) seen
      ∧ Settles (fun b => (ofBlueprint (.node (.sequence 0) none
        (children.map Blueprint.inverted)) board dice).outcomes b deltas) seen'
      ∧ seen.map withoutHandles = seen'.map withoutHandles :=
  ⟨_, _, outcomes_bears (mirrors_ofBlueprint _ board dice).1.toBears deltas,
    outcomes_bears (mirrors_ofBlueprint _ board dice).1.toBears deltas,
    outcomes_opposed
      (.node Iff.rfl (fun _ => rfl) (inverts_numberAll children _ _))
      (.refl _) _ _ _⟩

end TaskTree
