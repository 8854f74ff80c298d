/-
Every link goes to a later slot.

A task is put into its slot before its guard and its children are, so the
links of a tree lead from earlier slots to later ones and never back. So no
task stands below itself, and a task has no turn inside its own.

`Ranked` says so, with two more facts of the same kind about the slots that
planting fills: a task guards one task only, and the first slot belongs to
the guard evaluator, which no hook changes.
-/
import TaskTree.Proofs.Arena.Growing

namespace TaskTree

variable {E T : Type} [Behavior E T]

/-- The guard evaluator never changes. -/
theorem Aged.of_evaluator {occupant : Occupant T}
    (h : Aged .evaluator occupant) :
    occupant = .evaluator := by
  induction h with
  | refl => rfl
  | tail _ hlast ih =>
      obtain ⟨call, hleaves⟩ := hlast
      rw [ih] at hleaves
      cases leaves_occupant hleaves
      rfl

namespace Arena

/-- The links go to later slots, and the first slot is the guard
evaluator's. -/
structure Ranked (a : Arena E T) : Prop where
  evaluator : a.occupantOf .evaluator = some .evaluator
  child : ∀ parent c, c ∈ a.childrenOf parent → parent.index < c.index
  guard : ∀ owner g, a.guardOf owner = some g → owner.index < g.index
  /-- Nobody guards two tasks. -/
  owner : ∀ owner owner' g, a.guardOf owner = some g →
    a.guardOf owner' = some g → owner = owner'

variable {a a' : Arena E T}

omit [Behavior E T] in
/-- The order is one of the links, so an arena with the same ones is ranked. -/
theorem Ranked.congr (h : Ranked a) (hlinks : SameLinks a a')
    (hevaluator : a'.occupantOf .evaluator = some .evaluator) : Ranked a' where
  evaluator := hevaluator
  child parent c hc := h.child parent c (hlinks.childrenOf parent ▸ hc)
  guard owner g hg := h.guard owner g ((hlinks.guardOf owner).symm.trans hg)
  owner owner owner' g hg hg' :=
    h.owner owner owner' g ((hlinks.guardOf owner).symm.trans hg)
      ((hlinks.guardOf owner').symm.trans hg')

omit [Behavior E T] in
/-- A step that begins links nothing. -/
theorem Ranked.begun (h : Ranked a) (root : TaskId) (delta : Float32) :
    Ranked (a.begun root delta) :=
  ⟨h.evaluator, h.child, h.guard, h.owner⟩

/-- An empty arena has no links. -/
theorem ranked_empty (board : E) (dice : Nat → Nat) :
    Ranked (Arena.empty board dice : Arena E T) := by
  have hchildren : ∀ id,
      (Arena.empty board dice : Arena E T).childrenOf id = [] := by
    intro id
    rw [childrenOf, slot?_empty]
    split <;> rfl
  have hguard : ∀ id,
      (Arena.empty board dice : Arena E T).guardOf id = none := by
    intro id
    rw [guardOf, slot?_empty]
    split <;> rfl
  refine ⟨rfl, fun parent c hc => ?_, fun owner g hg => ?_,
    fun owner owner' g hg => ?_⟩
  · rw [hchildren] at hc
    cases hc
  · rw [hguard] at hg
    cases hg
  · rw [hguard] at hg
    cases hg

/-- The new task stands behind all that were there. -/
theorem ranked_placed : KeptByPlacing (E := E) (fun _ : T => True) Ranked := by
  intro link task a hready h _ hopen
  -- A slot that does not exist yet is no one's guard.
  have hnew : ∀ owner g, a.guardOf owner = some g → g ≠ a.nextId := by
    intro owner g hg heq
    obtain ⟨-, -, s, hs, -⟩ := hready.wired.guard owner g hg
    rw [heq, slot?_nextId] at hs
    cases hs
  -- The new id is greater than all others, so the new link goes upwards.
  have hlast : ∀ {x : TaskId}, link.from? = some x →
      x.index < a.nextId.index := by
    intro x hx
    obtain ⟨-, s, hs⟩ := hopen.from_slot hx
    exact (Array.getElem?_eq_some_iff.1 hs).1
  refine ⟨?_, fun parent c hc => ?_, fun owner g hg => ?_,
    fun owner owner' g hg hg' => ?_⟩
  · rcases placed_cases task hopen .evaluator with ⟨heq, -⟩ |
        ⟨-, -, s, hs, hslot⟩ | ⟨-, -, hslot⟩
    · exact absurd heq.symm hready.wired.nextId_ne
    · obtain ⟨guard, children, hmark⟩ := link.mark_eq a.nextId s
      rw [hmark] at hslot
      rw [occupant_eq hslot, ← h.evaluator, occupant_eq hs]
    · rw [occupantOf, hslot]
      exact h.evaluator
  -- A child was there before or is the new one.
  · rw [placed_childrenOf task hopen] at hc
    split at hc
    · rename_i hlink
      rcases List.mem_append.1 hc with hc | hc
      · exact h.child parent c hc
      · rw [List.mem_singleton.1 hc]
        exact hlast (hlink ▸ rfl)
    · exact h.child parent c hc
  -- So is a guard.
  · rw [placed_guardOf task hopen] at hg
    split at hg
    · rename_i hlink
      rw [← Option.some.inj hg]
      exact hlast (hlink ▸ rfl)
    · exact h.guard owner g hg
  -- A guard has one owner: the new guard because no other task names it, an old
  -- one because it had one before.
  · rw [placed_guardOf task hopen] at hg hg'
    split at hg
    · rename_i hlink
      obtain rfl := Option.some.inj hg
      split at hg'
      · rename_i hlink'
        exact Link.guard.inj (hlink.symm.trans hlink')
      · exact absurd rfl (hnew _ _ hg')
    · split at hg'
      · obtain rfl := Option.some.inj hg'
        exact absurd rfl (hnew _ _ hg)
      · exact h.owner owner owner' g hg hg'

/-- Planting keeps the order. -/
theorem Ranked.plant (h : Ranked a) (hready : Ready a) {link : Link}
    (b : Blueprint T) (hopen : link.Open a) : Ranked (Arena.plant link b a) :=
  plant_keeps ranked_placed b (b.all_of fun _ => trivial) hready h hopen

omit [Behavior E T] in
/-- Anchoring moves nobody. -/
theorem occupantOf_anchorRoot (a : Arena E T) (id : TaskId) :
    a.anchorRoot.occupantOf id = a.occupantOf id := by
  rw [anchorRoot]
  split
  · rfl
  · exact (keeps_setControl a _ .tree fun _ _ =>
        rfl : Keeps Slot.occupant _ _).occupantOf id

/-- A reset leaves the guard evaluator as it is. -/
theorem evaluator_resetFrom (depth : Nat) (id : TaskId)
    (h : a.occupantOf .evaluator = some .evaluator) :
    (resetFrom depth id a).occupantOf .evaluator = some .evaluator := by
  refine resetFrom_keeps
    (P := fun a => a.occupantOf .evaluator = some .evaluator)
    (fun a id h => ?_) depth id h
  rw [occupantOf, slot?_modify]
  split
  · rename_i heq
    obtain ⟨s, hs, hoccupant⟩ := Option.bind_eq_some_iff.1 h
    rw [← heq, hs, Option.map_some, Option.bind_some, Slot.reset, hoccupant]
    rfl
  · exact h

/-- Whatever happened to a tree, its links go to later slots. By induction over
the calls: three of them plant, and the others leave every link as it is. -/
theorem History.ranked {fine : Bool} (h : History fine a) : Ranked a := by
  induction h with
  | empty board dice => exact ranked_empty board dice
  | setRoot before grown ih =>
      obtain ⟨hopen, rfl⟩ := setRoot_eq_ok grown
      exact ih.plant before.ready _ hopen
  | attach before grown ih =>
      obtain ⟨hopen, rfl, -⟩ := attach_eq_ok grown
      exact ih.plant before.ready _ hopen
  | setGuard before grown ih =>
      obtain ⟨hopen, rfl, -⟩ := setGuard_eq_ok grown
      exact ih.plant before.ready _ hopen
  | step before stepped ih =>
      have hseated := step_seated before.ready.rest stepped
      obtain ⟨occupant, hoccupant, haged⟩ := hseated.aged _ _ ih.evaluator
      exact ih.congr hseated.links (haged.of_evaluator ▸ hoccupant)
  | @reset _ a _ ih =>
      refine ih.congr (sameLinks_reset a) ?_
      rw [Arena.reset]
      split
      · exact ih.evaluator
      · exact (occupantOf_anchorRoot _ _).trans
          (evaluator_resetFrom _ _ ih.evaluator)
  | @instantiate _ a _ board ih =>
      refine ih.congr (sameLinks_instantiate a board)
        ((occupantOf_anchorRoot _ _).trans ?_)
      obtain ⟨s, hs, hoccupant⟩ := Option.bind_eq_some_iff.1 ih.evaluator
      have hslot : (a.slots.map Slot.reset)[TaskId.evaluator.index]?
          = some s.reset := by
        rw [Array.getElem?_map]
        exact congrArg (Option.map Slot.reset) hs
      rw [occupantOf, Arena.slot?, hslot, Option.bind_some, Slot.reset,
        hoccupant]
      rfl
  | outside _ board listeners journal ih =>
      exact ⟨ih.evaluator, ih.child, ih.guard, ih.owner⟩

end Arena

end TaskTree
