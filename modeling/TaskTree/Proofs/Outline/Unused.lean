/-
The trees that outlines describe have never run.

A blueprint is unused if it is the same as its copy. The tasks of the standard
vocabulary are made unused, and so is every copy of a subtree, whatever became
of the original; and putting such blueprints together leaves nothing of a run
in them. So an outline of the standard vocabulary gives an unused tree, however
the subtrees on the shelf came there (`parse_unused`).
-/
import TaskTree.Proofs.Contract
import TaskTree.Proofs.Made
import TaskTree.Proofs.Outline.Flattening

namespace TaskTree

-- ========================================================== unused trees

namespace Blueprint

variable {E T : Type} [Behavior E T]

/-- A blueprint with nothing of a run left in it. -/
def Unused (b : Blueprint T) : Prop := b.renewed = b

/-- Unused is a matter of each task on its own: a tree is unused when its task,
its guard and its children are. -/
theorem unused_node {task : T} {guard : Option (Blueprint T)}
    {children : List (Blueprint T)} :
    (Blueprint.node task guard children).Unused ↔
      Behavior.rewind task = task ∧ (∀ g, guard = some g → g.Unused)
        ∧ ∀ c ∈ children, c.Unused := by
  have hguard : renewedGuard guard = guard
      ↔ ∀ g, guard = some g → g.Unused := by
    cases guard with
    | none => exact iff_of_true rfl fun _ hg => nomatch hg
    | some guard => simp [renewedGuard, Unused]
  have hchildren : renewedAll children = children
      ↔ ∀ c ∈ children, c.Unused := by
    have hsame : children.map renewed = children.map id
        ↔ ∀ c ∈ children, c.Unused :=
      List.map_inj_left
    rw [renewedAll_eq_map]
    rwa [List.map_id] at hsame
  -- Renewing a tree renews its three parts apart, so it is the tree only if it
  -- is each of them.
  show Blueprint.node _ _ _ = Blueprint.node _ _ _ ↔ _
  rw [Blueprint.node.injEq, hguard, hchildren]

/-- A task that rewinding leaves as it is makes an unused tree. -/
theorem Unused.single {task : T} (h : Behavior.rewind task = task) :
    (Blueprint.single task).Unused :=
  unused_node.2 ⟨h, (fun _ hg => nomatch hg), List.forall_mem_nil _⟩

/-- Unused trees add up to an unused one. -/
theorem Unused.addChild {b child b' : Blueprint T} (h : b.Unused)
    (hchild : child.Unused) (hadd : b.addChild child = .ok b') : b'.Unused := by
  unfold Blueprint.addChild at hadd
  split at hadd
  · cases hadd
  · cases hadd
    obtain ⟨task, guard, children⟩ := b
    obtain ⟨htask, hguard, hchildren⟩ := unused_node.1 h
    exact unused_node.2 ⟨htask, hguard,
      List.forall_mem_append.2 ⟨hchildren, List.forall_mem_singleton.2 hchild⟩⟩

/-- An unused tree stays so under an unused guard. -/
theorem Unused.setGuard {b guard b' : Blueprint T} (h : b.Unused)
    (hguard : guard.Unused) (hset : b.setGuard guard = .ok b') : b'.Unused := by
  unfold Blueprint.setGuard at hset
  split at hset
  · cases hset
  · cases hset
    obtain ⟨task, _, children⟩ := b
    obtain ⟨htask, -, hchildren⟩ := unused_node.1 h
    refine unused_node.2 ⟨htask, fun g hg => ?_, hchildren⟩
    cases hg
    exact hguard

mutual

/-- Nothing is left of a run in a copy. -/
theorem unused_renewed
    (hrewind : ∀ task : T,
      Behavior.rewind (Behavior.rewind task) = Behavior.rewind task)
    (b : Blueprint T) : b.renewed.Unused := by
  match b with
  | .node task guard children =>
      exact unused_node.2 ⟨hrewind task, unused_renewedGuard hrewind guard,
        unused_renewedAll hrewind children⟩

/-- A renewed guard is unused, when rewinding twice is rewinding once. -/
theorem unused_renewedGuard
    (hrewind : ∀ task : T,
      Behavior.rewind (Behavior.rewind task) = Behavior.rewind task)
    (guard : Option (Blueprint T)) :
    ∀ g, renewedGuard guard = some g → g.Unused := by
  intro g hg
  match guard with
  | none => cases hg
  | some guard =>
      cases hg
      exact unused_renewed hrewind guard

/-- So are renewed children. -/
theorem unused_renewedAll
    (hrewind : ∀ task : T,
      Behavior.rewind (Behavior.rewind task) = Behavior.rewind task)
    (children : List (Blueprint T)) : ∀ c ∈ renewedAll children, c.Unused := by
  match children with
  | [] => exact List.forall_mem_nil _
  | child :: rest =>
      exact List.forall_mem_cons.2
        ⟨unused_renewed hrewind child, unused_renewedAll hrewind rest⟩

end

end Blueprint

namespace Outline

section Assembly

variable {E T : Type} [Behavior E T] {dialect : Dialect T}

namespace Scaffold

/-- Children and guards bring nothing of a run into a tree. -/
theorem composable_unused :
    Composable (Blueprint.Unused (T := T)) Blueprint.Unused :=
  ⟨fun h _ => h, Blueprint.Unused.addChild, Blueprint.Unused.setGuard⟩

/-- The lines of a document lay unused trees, when the dialect builds such. -/
theorem takeLines_unused
    (hbuild : ∀ statement b, dialect.build statement = .ok b → b.Unused)
    {lines : List Line} {s s' : Scaffold T}
    (h : s.Consists Blueprint.Unused Blueprint.Unused)
    (htake : s.takeLines dialect lines = .ok s') :
    s'.Consists Blueprint.Unused Blueprint.Unused := by
  refine foldlM_keeps (fun s line s' hs htake => ?_) h htake
  have hbegun :
      ({ s with indent := line.indent, placed := false } : Scaffold T).Consists
      Blueprint.Unused Blueprint.Unused := ⟨hs.frames, hs.root, hs.guard⟩
  exact foldlM_keeps (fun _ statement _ hs =>
      take_consists composable_unused (hbuild statement) hs)
    hbegun htake

end Scaffold

end Assembly

-- ============================================================ documents

variable {E A T : Type} [Behavior E T] {embed : Stock E A → T}
  {dialect : Dialect T}

/-- What the standard vocabulary makes, and what is copied, has never run. The
trees of a shelf are copied renewed; the tasks of the vocabulary come as they
are made. -/
theorem build_unused
    (hembed : ∀ task, Behavior.rewind (embed task) = embed task.rewind)
    (hrewind : ∀ task : T,
      Behavior.rewind (Behavior.rewind task) = Behavior.rewind task)
    (hwords : dialect.vocabulary = .standard embed) (statement : Statement)
    (b : Blueprint T) (hbuild : dialect.build statement = .ok b) :
    b.Unused := by
  unfold Dialect.build at hbuild
  split at hbuild
  · split at hbuild
    · unfold Shelf.copy at hbuild
      split at hbuild
      · cases hbuild
        exact Blueprint.unused_renewed hrewind _
      · cases hbuild
    · cases hbuild
  · rw [hwords] at hbuild
    cases hmade : (Vocabulary.standard embed).make statement.name
      statement.attributes with
    | error fault =>
        rw [hmade] at hbuild
        cases hbuild
    | ok task =>
        rw [hmade] at hbuild
        cases hbuild
        -- Plain tasks, repeats and waits, each rewound to itself.
        refine .single (standard_makes_of
            (fun task => Behavior.rewind task = task) ?_ ?_ ?_ hmade)
        · intro task htask
          rw [hembed]
          simp only [Vocabulary.plainStock, List.mem_cons, List.not_mem_nil,
            or_false] at htask
          rcases htask with rfl | rfl | rfl | rfl | rfl | rfl | rfl | rfl |
              rfl <;> rfl
        · exact fun count => hembed (.repeats count)
        · exact fun seconds => hembed (.waits seconds)

/-- Nothing of a run is in a tree that an outline describes. -/
theorem parse_unused
    (hembed : ∀ task, Behavior.rewind (embed task) = embed task.rewind)
    (hrewind : ∀ task : T,
      Behavior.rewind (Behavior.rewind task) = Behavior.rewind task)
    (hwords : dialect.vocabulary = .standard embed) {text : String}
    {root : Blueprint T} (hparse : (dialect.parse text).2 = .ok root) :
    root.Unused := by
  obtain ⟨kept, -, hroot⟩ := (parse_eq_ok_iff_takeLines true).1 hparse
  obtain ⟨s, hs, hfinish⟩ := bind_eq_ok hroot
  have hempty : (Scaffold.empty : Scaffold T).Consists Blueprint.Unused
      Blueprint.Unused :=
    ⟨List.forall_mem_nil _, (fun r hr => nomatch hr), fun g hg => nomatch hg⟩
  have hbuild := build_unused hembed hrewind hwords
  exact Scaffold.finish_consists Scaffold.composable_unused
    (Scaffold.takeLines_unused hbuild hempty hs) hfinish

end Outline

end TaskTree
