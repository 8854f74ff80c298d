/-
The books that a scaffold keeps of its open tasks are exact.

A frame counts a child when it is opened, but its task gets the child only
when the child is closed, perhaps many lines later, and a task from the shelf
starts with children of its own. So what is counted is what the task has and
one more for the task that stands open inside it (`Tallied`). Together with
the order of the indentations this is the `Ledger`, which every statement
keeps: closing moves a child from the one summand to the other, and opening
looks at the sum.

A task that is closed was counted when it was opened, so there is room for
it and closing never fails for want of it. One child too many is noticed at
its own statement and nowhere else (`bookkeeping_exact`).
-/
import TaskTree.Proofs.Contract
import TaskTree.Proofs.Made
import TaskTree.Proofs.Outline.Assembly
import TaskTree.Proofs.Outline.Refusal
import TaskTree.Proofs.Steady

namespace TaskTree

variable {E T : Type} [Behavior E T]

-- ============================================================== new tasks

namespace Blueprint

/-- The task at the top takes the children that it has. -/
def WithinLimit (b : Blueprint T) : Prop :=
  ∀ limit, b.arity.most = some limit → b.children.length ≤ limit

/-- A fitting tree is within its limit. -/
theorem Fitting.withinLimit {b : Blueprint T} (h : b.Fitting) :
    b.WithinLimit := by
  cases h with
  | node room => exact room

/-- A guard takes up no room. -/
theorem WithinLimit.guardedBy {b : Blueprint T} (h : b.WithinLimit)
    (waiting : Option (Blueprint T)) : (b.guardedBy waiting).WithinLimit := by
  cases waiting <;> exact h

end Blueprint

namespace Outline

variable {dialect : Dialect T}

/-- The subtrees on the shelf of a dialect are such as can be made. -/
def Dialect.Stocked (dialect : Dialect T) : Prop :=
  ∀ name subtree, dialect.shelf.get? name = some subtree → subtree.Made

/-- What a statement stands for has no more children than it takes. -/
theorem Dialect.Stocked.withinLimit (hstocked : dialect.Stocked)
    (hrewind : ∀ task : T,
      Behavior.arity (Behavior.rewind task) = Behavior.arity task)
    {statement : Statement} {b : Blueprint T}
    (hbuild : dialect.build statement = .ok b) :
    b.WithinLimit := by
  -- A reference copies a subtree of the shelf, renewed; a name makes a task
  -- without children.
  unfold Dialect.build at hbuild
  split at hbuild
  · split at hbuild
    · unfold Shelf.copy at hbuild
      split at hbuild
      · rename_i subtree hsubtree
        cases hbuild
        exact (((hstocked _ _ hsubtree).fitting hrewind).renewed
            hrewind).withinLimit
      · cases hbuild
    · cases hbuild
  · cases hmade : dialect.vocabulary.make statement.name
      statement.attributes with
    | error fault =>
        rw [hmade] at hbuild
        cases hbuild
    | ok task =>
        rw [hmade] at hbuild
        cases hbuild
        exact fun _ _ => Nat.zero_le _

-- ============================================================= the ledger

/-- Every frame counts the children of its task and the one that is still
open, and has room for them. `inner` is 1 for a task with another one open
inside it. -/
def Tallied : Nat → List (Frame T) → Prop
  | _, [] => True
  | inner, frame :: outer =>
    frame.children = frame.node.children.length + inner
      ∧ (∀ limit, frame.node.arity.most = some limit → frame.children ≤ limit)
      ∧ Tallied 1 outer

/-- The indentations of frames, the innermost first, do not grow. -/
abbrev Sorted (frames : List (Frame T)) : Prop :=
  frames.Pairwise fun inner outer => outer.indent ≤ inner.indent

/-- What is true of a scaffold between two statements, where `last` is the
indentation of the last line with a task. -/
structure Ledger (last : Option Nat) (s : Scaffold T) : Prop where
  sorted : Sorted s.frames
  reached : ∀ frame ∈ s.frames,
    ∃ indent, last = some indent ∧ frame.indent ≤ indent
  placed : s.placed = true → last = some s.indent
  tallied : Tallied 0 s.frames
  opened : s.frames ≠ [] → s.hasRoot = true
  closed : s.root ≠ none → s.frames = [] ∧ s.hasRoot = true

/-- What closing leaves of frames and of a finished tree. -/
structure Remains (indent : Nat) (frames : List (Frame T))
    (root : Option (Blueprint T)) (frames' : List (Frame T))
    (root' : Option (Blueprint T)) : Prop where
  sorted : Sorted frames'
  shallow : ∀ frame ∈ frames', frame.indent < indent
  tallied : Tallied 0 frames'
  opened : frames' ≠ [] → frames ≠ []
  closed : root' = root ∨ frames ≠ [] ∧ frames' = []

namespace Scaffold

/-- Closing has one fault of its own. -/
theorem ensureChildren_fault {b : Blueprint T} {fault : BuildFault}
    (h : ensureChildren b = .error fault) : fault = .childless b.name := by
  unfold ensureChildren at h
  split at h
  · cases h
    rfl
  · cases h

/-- Closing fails for want of a child only. By induction along the closing, from
the innermost open task outwards. `Tallied` carries the count of each open task.
-/
theorem close_remains {indent : Nat} {frames : List (Frame T)}
    {root : Option (Blueprint T)} (hsorted : Sorted frames)
    (htallied : Tallied 0 frames) :
    (∃ name, close indent frames root = .error (.childless name))
      ∨ ∃ frames' root', close indent frames root = .ok (frames', root')
        ∧ Remains indent frames root frames' root' := by
  fun_induction close indent frames root with
  | case1 =>
      exact .inr ⟨_, _, rfl, hsorted, List.forall_mem_nil _, trivial, id,
        .inl rfl⟩
  -- The task stays open, and everything outside it is indented even less.
  | case2 frame rest hlt =>
      refine .inr ⟨_, _, rfl, hsorted, fun f hf => ?_, htallied, id, .inl rfl⟩
      rcases List.mem_cons.1 hf with rfl | hf
      · exact hlt
      · exact Nat.lt_of_le_of_lt ((List.pairwise_cons.1 hsorted).1 f hf) hlt
  | case3 frame rest hlt fault hlacks =>
      rw [ensureChildren_fault hlacks]
      exact .inl ⟨_, rfl⟩
  -- The last open task closes, and the root is there.
  | case4 frame hlt hready =>
      exact .inr ⟨_, _, rfl, .nil, List.forall_mem_nil _, trivial,
        fun h => absurd rfl h, .inr ⟨List.cons_ne_nil _ _, rfl⟩⟩
  -- The outer task counted this child when it was opened.
  | case5 frame hlt hready outer others fault hfull =>
      obtain ⟨-, -, hcount, hmost, -⟩ := htallied
      rw [addChild_eq_ok fun limit hlimit =>
          hcount ▸ hmost limit hlimit] at hfull
      cases hfull
  -- The outer task holds the closed one now, and the tally goes on with it.
  | case6 frame hlt hready outer others outer' hadd ih =>
      obtain ⟨-, -, hcount, hmost, hothers⟩ := htallied
      rw [addChild_eq_ok fun limit hlimit =>
          hcount ▸ hmost limit hlimit] at hadd
      cases hadd
      have hpairwise := List.pairwise_cons.1 (List.pairwise_cons.1 hsorted).2
      have hsorted' : Sorted (outer.holding frame.node :: others) :=
        List.pairwise_cons.2 hpairwise
      have hcount' : outer.children
          = (outer.holding frame.node).node.children.length + 0 :=
        hcount.trans (outer.holding_length frame.node).symm
      rcases ih hsorted' ⟨hcount', hmost, hothers⟩ with hfault |
          ⟨frames', root', hclose, hremains⟩
      · exact .inl hfault
      · refine .inr ⟨frames', root', hclose, hremains.sorted, hremains.shallow,
          hremains.tallied, fun _ => List.cons_ne_nil _ _, ?_⟩
        rcases hremains.closed with hsame | ⟨-, hnone⟩
        · exact .inl hsame
        · exact .inr ⟨List.cons_ne_nil _ _, hnone⟩

end Scaffold

namespace Ledger

open Scaffold

variable {last : Option Nat} {s s' : Scaffold T}

/-- The ledger of the empty scaffold. -/
theorem empty : Ledger none (Scaffold.empty : Scaffold T) where
  sorted := .nil
  reached := List.forall_mem_nil _
  placed h := nomatch h
  tallied := trivial
  opened h := absurd rfl h
  closed h := absurd rfl h

/-- The guard and the statement that is not complete yet are not in the
books. -/
theorem with_waiting (h : Ledger last s) (guard : Option (Blueprint T))
    (current : Option Statement) : Ledger last { s with guard, current } :=
  ⟨h.sorted, h.reached, h.placed, h.tallied, h.opened, h.closed⟩

/-- A new line has no task yet. -/
theorem with_line (h : Ledger last s) (indent : Nat) :
    Ledger last { s with indent, placed := false } :=
  ⟨h.sorted, h.reached, (nomatch ·), h.tallied, h.opened, h.closed⟩

/-- After closing, a finished tree is there only if no task is open. -/
theorem close (h : Ledger last s) (indent : Nat) :
    (∃ name, Scaffold.close indent s.frames s.root = .error (.childless name))
      ∨ ∃ frames root,
        Scaffold.close indent s.frames s.root = .ok (frames, root)
        ∧ Remains indent s.frames s.root frames root
        ∧ (root ≠ none → frames = [] ∧ s.hasRoot = true) := by
  rcases close_remains h.sorted h.tallied with hfault |
      ⟨frames, root, hclose, hremains⟩
  · exact .inl hfault
  · refine .inr ⟨frames, root, hclose, hremains, fun hroot => ?_⟩
    rcases hremains.closed with rfl | ⟨hopen, hnone⟩
    · obtain ⟨hnone, hhas⟩ := h.closed hroot
      refine ⟨?_, hhas⟩
      by_contra hframes
      exact hremains.opened hframes hnone
    · exact ⟨hnone, h.opened hopen⟩

/-- Making room leaves frames that reach no deeper than the line. -/
theorem makeRoom (h : Ledger last s) :
    (∃ name, s.makeRoom = .error (.childless name))
      ∨ ∃ s', s.makeRoom = .ok s' ∧ Ledger (some s'.indent) s' := by
  cases hplaced : s.placed with
  | true =>
      rw [makeRoom_of_placed hplaced]
      exact .inr ⟨s, rfl, h.placed hplaced ▸ h⟩
  | false =>
      rcases h.close s.indent with ⟨name, hclose⟩ |
          ⟨frames, root, hclose, hremains, hclosed⟩
      · exact .inl ⟨name, makeRoom_of_fault hplaced hclose⟩
      · exact .inr ⟨_, makeRoom_of_close hplaced hclose, hremains.sorted,
          fun frame hframe =>
            ⟨_, rfl, Nat.le_of_lt (hremains.shallow frame hframe)⟩,
          fun _ => rfl, hremains.tallied,
          fun hframes => h.opened (hremains.opened hframes), hclosed⟩

/-- A task that is opened is counted, and stands as deep as its line. There is
no open task, or there is an innermost one that needs to have room. -/
theorem openTask {b : Blueprint T} (h : Ledger (some s.indent) s)
    (hwithin : b.WithinLimit) (hopen : s.openTask b = .ok s') :
    Ledger (some s.indent) s' := by
  unfold Scaffold.openTask at hopen
  dsimp only at hopen
  split at hopen
  · split at hopen
    · cases hopen
    · rename_i hfresh
      cases hopen
      exact ⟨List.pairwise_singleton _ _,
        List.forall_mem_singleton.2 ⟨_, rfl, Nat.le_refl _⟩, fun _ => rfl,
        ⟨rfl, hwithin, trivial⟩, fun _ => rfl,
        fun hroot => absurd (h.closed hroot).2 hfresh⟩
  -- The new task is indented as far as its line, and the open ones not farther.
  · rename_i outer others hframes
    obtain ⟨hcount, -, hothers⟩ : Tallied 0 (outer :: others) :=
      hframes ▸ h.tallied
    have hreached : ∀ frame ∈ outer :: others, frame.indent ≤ s.indent := by
      intro frame hframe
      obtain ⟨indent, hindent, hle⟩ := h.reached frame (hframes ▸ hframe)
      cases hindent
      exact hle
    have hsorted : Sorted (outer :: others) := hframes ▸ h.sorted
    have hroot : s.root = none := by
      by_contra hroot
      rw [(h.closed hroot).1] at hframes
      cases hframes
    split at hopen
    · cases hopen
    · rename_i hroom
      cases hopen
      have hcounted : outer.children + 1 = outer.node.children.length + 1 := by
        rw [hcount, Nat.add_zero]
      obtain ⟨houter, hrest⟩ := List.forall_mem_cons.1 hreached
      refine ⟨List.pairwise_cons.2 ⟨List.forall_mem_cons.2 ⟨houter, hrest⟩,
          List.pairwise_cons.2 (List.pairwise_cons.1 hsorted)⟩,
        fun frame hframe => ⟨_, rfl, ?_⟩, fun _ => rfl,
        ⟨rfl, hwithin, hcounted, Arity.exceeded?_eq_none_iff.1 hroom, hothers⟩,
        fun _ => h.opened (hframes ▸ List.cons_ne_nil _ _),
        fun hsome => absurd hroot hsome⟩
      rcases List.mem_cons.1 hframe with rfl | hframe
      · exact Nat.le_refl _
      · rcases List.mem_cons.1 hframe with rfl | hframe
        · exact houter
        · exact hrest frame hframe

/-- A statement keeps the ledger. A guard waits and opens nothing; a task is
opened on its own line, which is the last one with a task then. -/
theorem take {statement : Statement}
    (hbuild : ∀ b, dialect.build statement = .ok b → b.WithinLimit)
    (h : Ledger last s) (htake : s.take dialect statement = .ok s') :
    Ledger (if statement.isGuard then last else some s.indent) s' := by
  cases hguard : statement.isGuard with
  | true =>
      obtain ⟨b, -, -, -, rfl⟩ := (take_guard_eq_ok_iff hguard).1 htake
      exact h.with_waiting _ _
  | false =>
      obtain ⟨b, hb, -, hplace⟩ := (take_task_eq_ok_iff hguard).1 htake
      obtain ⟨s₁, hroom, hopen⟩ := bind_eq_ok hplace
      rcases (h.with_waiting none s.current).makeRoom with ⟨name, hfault⟩ |
          ⟨s₂, hroom', hledger⟩
      · rw [hfault] at hroom
        cases hroom
      · cases hroom'.symm.trans hroom
        have hindent : s₁.indent = s.indent := (makeRoom_keeps hroom).1
        rw [if_neg Bool.false_ne_true, ← hindent]
        exact hledger.openTask ((hbuild b hb).guardedBy s.guard) hopen

-- ======================================================= one child too many

/-- A refused child has an open parent that is full. -/
theorem openTask_childLimit {b : Blueprint T} {name : String} {limit : Nat}
    (h : Ledger last s)
    (hopen : s.openTask b = .error (.tree (.childLimit name limit))) :
    ∃ parent around, s.frames = parent :: around ∧ parent.node.name = name
      ∧ parent.node.arity.most = some limit
      ∧ parent.node.children.length = limit := by
  unfold Scaffold.openTask at hopen
  dsimp only at hopen
  split at hopen
  · split at hopen <;> cases hopen
  · rename_i parent around hframes
    obtain ⟨hcount, hmost, -⟩ : Tallied 0 (parent :: around) :=
      hframes ▸ h.tallied
    split at hopen
    · rename_i hfull
      cases hopen
      obtain ⟨hlimit, hle⟩ := Option.filter_eq_some_iff.1 hfull
      have hge := hmost limit hlimit
      have hle := of_decide_eq_true hle
      exact ⟨parent, around, hframes, rfl, hlimit, by omega⟩
    · cases hopen

end Ledger

/-- A task is one child too many for the innermost task that is open when
room has been made for it. -/
def OneTooMany (dialect : Dialect T) (statement : Statement) (s : Scaffold T)
    (name : String) (limit : Nat) : Prop :=
  statement.isGuard = false
    ∧ ∃ b s₁ parent around, dialect.build statement = .ok b
    ∧ ({ s with guard := none } : Scaffold T).makeRoom = .ok s₁
    ∧ s₁.frames = parent :: around
    ∧ s₁.openTask (b.guardedBy s.guard)
      = .error (.tree (.childLimit name limit))
    ∧ parent.node.name = name ∧ parent.node.arity.most = some limit
    ∧ parent.node.children.length = limit

namespace Scaffold

variable {last : Option Nat} {s s' : Scaffold T}

/-- A second guard is the only fault of guarding. -/
theorem withGuard_fault {b : Blueprint T} {fault : BuildFault}
    (h : s.withGuard b = .error fault) :
    fault = .tree (.secondGuard b.name) := by
  unfold withGuard Blueprint.setGuard at h
  cases hwaiting : s.guard with
  | none =>
      rw [hwaiting] at h
      cases h
  | some guard =>
      rw [hwaiting] at h
      cases hguard : b.guard with
      | none =>
          rw [hguard] at h
          cases h
      | some other =>
          rw [hguard] at h
          cases h
          rfl

/-- A statement is refused for the limit of a task if its maker says so, or
where it asks for a child too many. -/
theorem take_childLimit {statement : Statement} {name : String} {limit : Nat}
    (h : Ledger last s)
    (htake : s.take dialect statement
      = .error (.tree (.childLimit name limit))) :
    dialect.build statement = .error (.tree (.childLimit name limit))
      ∨ OneTooMany dialect statement s name limit := by
  -- The faults of a statement, in the order in which they may come up; one of
  -- the last kind is left.
  unfold take at htake
  cases hb : dialect.build statement with
  | error fault =>
      rw [hb] at htake
      cases htake
      exact .inl rfl
  | ok b =>
      rw [hb] at htake
      simp only [bind, Except.bind] at htake
      cases hnode : s.withGuard b with
      | error fault =>
          rw [hnode, withGuard_fault hnode] at htake
          cases htake
      | ok node =>
          obtain ⟨-, rfl⟩ := withGuard_eq_ok_iff.1 hnode
          rw [hnode] at htake
          dsimp only at htake
          cases hguard : statement.isGuard with
          | true =>
              rw [hguard, if_pos rfl] at htake
              cases hready : ensureChildren (b.guardedBy s.guard) with
              | error fault =>
                  rw [hready, ensureChildren_fault hready] at htake
                  cases htake
              | ok =>
                  rw [hready] at htake
                  cases htake
          | false =>
              rw [hguard, if_neg Bool.false_ne_true] at htake
              rcases (h.with_waiting none s.current).makeRoom with
                ⟨cause, hfault⟩ | ⟨s₁, hroom, hledger⟩
              · rw [hfault] at htake
                cases htake
              -- Room has been made, and the innermost open task is full.
              · rw [hroom] at htake
                obtain ⟨parent, around, hframes, hname, hmost, hlength⟩ :=
                  hledger.openTask_childLimit htake
                exact .inr ⟨hguard, b, s₁, parent, around, hb, hroom, hframes,
                  htake, hname, hmost, hlength⟩

/-- Only the end of a statement is refused for a fault of trees. -/
theorem accept_tree {event : Event} {fault : Fault}
    (h : s.accept dialect event = .error (.tree fault)) :
    event = .endStatement ∧ ∃ statement, s.current = some statement
      ∧ ({ s with current := none } : Scaffold T).take dialect statement
        = .error (.tree fault) := by
  cases event with
  | attr name value =>
      unfold accept Statement.addAttribute at h
      dsimp only at h
      cases hcurrent : s.current with
      | none =>
          rw [hcurrent] at h
          cases h
      | some statement =>
          rw [hcurrent] at h
          dsimp only at h
          cases hadd : statement.attributes.add? name value with
          | none =>
              rw [hadd] at h
              cases h
          | some attributes =>
              rw [hadd] at h
              cases h
  | endStatement =>
      unfold accept at h
      cases hcurrent : s.current with
      | none =>
          rw [hcurrent] at h
          cases h
      | some statement =>
          rw [hcurrent] at h
          exact ⟨rfl, statement, rfl, h⟩
  | line | statement | endLine | comment => cases h

/-- Finishing has no fault of the tree. -/
theorem finish_not_tree (h : Ledger last s) (fault : Fault) :
    s.finish ≠ .error (.tree fault) := by
  unfold finish
  split
  · exact nofun
  · rcases h.close 0 with ⟨name, hclose⟩ | ⟨frames, root, hclose, -⟩
    · rw [hclose]
      exact nofun
    · rw [hclose]
      cases root <;> exact nofun

end Scaffold

-- ================================================================== lines

/-- Whether a line has a task, which is a statement that is no guard. -/
def Line.hasTask (line : Line) : Bool :=
  line.statements.any fun statement => !statement.isGuard

/-- The last line with a task. -/
def lastTaskLine? (lines : List Line) : Option Line :=
  (lines.filter Line.hasTask).getLast?

/-- The indentation of the last line with a task. -/
def lastTaskIndent? (lines : List Line) : Option Nat :=
  (lastTaskLine? lines).map (·.indent)

/-- The last indentation is that of the last line with a task. -/
theorem lastTaskIndent?_concat (lines : List Line) (line : Line) :
    lastTaskIndent? (lines ++ [line])
      = if line.hasTask then some line.indent else lastTaskIndent? lines := by
  unfold lastTaskIndent? lastTaskLine?
  rw [List.filter_append]
  cases htask : line.hasTask with
  | true =>
      rw [List.filter_cons_of_pos htask, List.filter_nil, List.getLast?_concat]
      rfl
  | false =>
      rw [List.filter_cons_of_neg (by rw [htask]; exact Bool.false_ne_true),
        List.filter_nil, List.append_nil]
      rfl

namespace Ledger

variable {last : Option Nat} {s s' : Scaffold T}
  (hbuild : ∀ statement b, dialect.build statement = .ok b → b.WithinLimit)

include hbuild

/-- Taking statements keeps the ledger; their line counts if one of them is a
task. By induction along the statements of the line, with the last indentation
general. -/
theorem takeAll {statements : List Statement} (h : Ledger last s)
    (hfold : statements.foldlM (fun s statement => s.take dialect statement) s
      = .ok s') :
    Ledger (if statements.any
      (fun statement => !statement.isGuard) then some s.indent else last)
      s' := by
  induction statements generalizing last s with
  | nil =>
      cases hfold
      exact h
  | cons statement statements ih =>
      rw [List.foldlM_cons] at hfold
      obtain ⟨s₁, htake, hfold⟩ := bind_eq_ok hfold
      have hrest := ih (h.take (hbuild statement) htake) hfold
      rw [(Scaffold.take_keeps htake).1] at hrest
      rw [List.any_cons]
      cases hguard : statement.isGuard with
      | true =>
          rw [hguard, if_pos rfl] at hrest
          exact hrest
      | false =>
          rw [hguard, if_neg Bool.false_ne_true, ite_self] at hrest
          exact hrest

/-- A line keeps the ledger, and if it has a task it is the last such line. -/
theorem takeLine {line : Line} (h : Ledger last s)
    (htake : s.takeLine dialect line = .ok s') :
    Ledger (if line.hasTask then some line.indent else last) s' :=
  (h.with_line line.indent).takeAll hbuild htake

/-- The ledger of a document so far. -/
theorem takeLines {lines : List Line}
    (htake : (Scaffold.empty : Scaffold T).takeLines dialect lines = .ok s) :
    Ledger (lastTaskIndent? lines) s := by
  induction lines using List.reverseRecOn generalizing s with
  | nil =>
      cases htake
      exact .empty
  | append_singleton lines line ih =>
      rw [Scaffold.takeLines_append_singleton] at htake
      obtain ⟨s₁, hlines, hline⟩ := bind_eq_ok htake
      rw [lastTaskIndent?_concat]
      exact (ih hlines).takeLine hbuild hline

/-- The ledger after some events. The lines can be kept, and the scaffold has
taken them; or an event was refused already. -/
theorem acceptAll {events : List Event} (hheaded : Headed events)
    (haccept : (Scaffold.empty : Scaffold T).acceptAll dialect events = .ok s) :
    ∃ kept, listen Lines.handler events Lines.empty = (kept, none)
      ∧ Ledger (lastTaskIndent? kept.lines.toList) s := by
  rcases acceptAll_cases dialect hheaded
    (rfl : Lines.empty.lines = #[]) rfl with
      ⟨kept, hlisten, hscaffold⟩ | ⟨-, hrefused⟩
  · refine ⟨kept, hlisten, ?_⟩
    rw [hscaffold] at haccept
    unfold Lines.scaffold at haccept
    cases htaken : (Scaffold.empty : Scaffold T).takeLines dialect
      kept.lines.toList with
    | error fault =>
        rw [htaken] at haccept
        cases haccept
    | ok s₁ =>
        rw [htaken] at haccept
        cases haccept
        exact (takeLines hbuild htaken).with_waiting s₁.guard kept.current
  · exact absurd haccept (hrefused s)

end Ledger

-- ================================================================== texts

/-- What begins a headed stretch is headed. -/
theorem Headed.front {es es' : List Event} (h : Headed es')
    (hfront : es <+: es') :
    Headed es := by
  induction h generalizing es with
  | nil =>
      rw [List.prefix_nil.1 hfront]
      exact .nil
  | comment hrest ih =>
      rcases List.prefix_cons_iff.1 hfront with rfl | ⟨es', rfl, hbegins⟩
      · exact .nil
      · exact .comment (ih hbegins)
  | line =>
      rcases List.prefix_cons_iff.1 hfront with rfl | ⟨es', rfl, -⟩
      · exact .nil
      · exact .line

/-- What a text is heard as is headed. -/
theorem headed_heard (comments : Bool) (lines : List (List Char)) :
    Headed (heard comments lines) := by
  induction lines with
  | nil => exact .nil
  | cons line lines ih =>
      rw [heard]
      refine Headed.lineEvents_append ?_
      split
      · exact ih
      · exact .nil

/-- The lines themselves are faulty only in their spelling. -/
theorem verdict_ne_refused {ε : Type} (number : Nat) (lines : List (List Char))
    (place : Nat) (shown : String) (cause : ε) :
    verdict ε number lines ≠ some (.refused place shown cause) := by
  induction lines generalizing number with
  | nil =>
      intro heq
      cases heq
  | cons line lines ih =>
      rw [verdict]
      split
      · intro heq
        cases heq
      · exact ih (number + 1)

/-- An open task has counted its children, and the one that is open inside
it. -/
theorem Tallied.counted {inner : Nat} {inside around : List (Frame T)}
    {frame : Frame T} (h : Tallied inner (inside ++ frame :: around)) :
    frame.children = frame.node.children.length
      + (if inside = [] then inner else 1)
      ∧ ∀ limit, frame.node.arity.most = some limit →
        frame.children ≤ limit := by
  induction inside generalizing inner with
  | nil =>
      obtain ⟨hcount, hmost, -⟩ := h
      exact ⟨hcount, hmost⟩
  | cons top inside ih =>
      obtain ⟨-, -, h⟩ := h
      obtain ⟨hcount, hmost⟩ := ih h
      rw [ite_self] at hcount
      exact ⟨hcount, hmost⟩

/-- The books of a scaffold after some lines. -/
structure Exact (lines : List Line) (s : Scaffold T) : Prop where
  /-- The indentations of the frames do not decrease from the outermost one to
  the innermost one. -/
  sorted : Sorted s.frames
  /-- None exceeds the indentation of the last line with a task. -/
  reached : ∀ frame ∈ s.frames,
    ∃ line, lastTaskLine? lines = some line ∧ frame.indent ≤ line.indent
  /-- The tree is finished only when no task is open. -/
  closed : s.root ≠ none → s.frames = []
  /-- A frame counts the children of its task and one more if another frame
  lies above it, and never more than the task takes. -/
  counted : ∀ inside frame around, s.frames = inside ++ frame :: around →
    frame.children = frame.node.children.length + (if inside = [] then 0 else 1)
      ∧ ∀ limit, frame.node.arity.most = some limit → frame.children ≤ limit

/-- A ledger is exact. -/
theorem Ledger.exact {lines : List Line} {s : Scaffold T}
    (h : Ledger (lastTaskIndent? lines) s) :
    Exact lines s where
  sorted := h.sorted
  reached frame hframe := by
    obtain ⟨indent, hindent, hle⟩ := h.reached frame hframe
    obtain ⟨line, hline, rfl⟩ := Option.map_eq_some_iff.1 hindent
    exact ⟨line, hline, hle⟩
  closed hroot := (h.closed hroot).1
  counted inside frame around hframes := (hframes ▸ h.tallied).counted

/-- A handler that refuses passes on the fault of the scaffold. -/
theorem Dialect.accept_of_refused {event : Event} {s s' : Scaffold T}
    {log log' : List Record} {fault : BuildFault}
    (h : dialect.handler event (s, log) = ((s', log'), some fault)) :
    s.accept dialect event = .error fault := by
  unfold Dialect.handler at h
  dsimp only at h
  split at h
  · cases h
  · rename_i haccept
    cases h
    exact haccept

/-- Where a fault of building comes from: the end of the text, or an event of
the line that it is reported on, when all before it was accepted. -/
theorem Dialect.parse_unbuilt {text : String} {number : Nat}
    {fault : BuildFault}
    (h : (dialect.parse text).2 = .error (.unbuilt number fault)) :
    (∃ s, Scaffold.empty.acceptAll dialect
          (heard dialect.settings.reportsComments (splitLines text.toList))
            = .ok s
        ∧ s.finish = .error fault)
      ∨ ∃ earlier line later before event s,
        splitLines text.toList = earlier ++ line :: later
          ∧ number = earlier.length + 1
          ∧ earlier.flatMap (lineEvents dialect.settings.reportsComments)
            ++ (before ++ [event])
            <+: heard dialect.settings.reportsComments (splitLines text.toList)
          ∧ before ++ [event]
            <+: lineEvents dialect.settings.reportsComments line
          ∧ Scaffold.empty.acceptAll dialect
              (earlier.flatMap (lineEvents dialect.settings.reportsComments)
                ++ before) = .ok s
          ∧ s.accept dialect event = .error fault := by
  -- The reader says what was heard, and the handler that nothing else is
  -- refused.
  have hhears :=
    read_hears dialect.settings.reportsComments dialect.handler text
      ((Scaffold.empty, []) : Scaffold T × List Record)
  unfold Dialect.parse at h
  generalize delivered dialect.settings.reportsComments dialect.handler text
    ((Scaffold.empty, []) : Scaffold T × List Record) = told at hhears
  generalize read dialect.settings.reportsComments dialect.handler text
    ((Scaffold.empty, []) : Scaffold T × List Record) = result at hhears h
  -- Everything was taken, and the fault is that of finishing; or an event of a
  -- line was refused.
  cases hhears with
  | all taken =>
      rename_i last
      obtain ⟨s, log⟩ := last
      cases hverdict : verdict BuildFault 1 (splitLines text.toList) with
      | none =>
          rw [hverdict] at h
          dsimp only at h
          cases hfinish : s.finish with
          | error cause =>
              rw [hfinish] at h
              cases h
              exact .inl ⟨s, listen_handler_eq_none_iff.1 ⟨log, taken⟩, hfinish⟩
          | ok root =>
              rw [hfinish] at h
              cases h
      | some fault =>
          rw [hverdict] at h
          cases fault with
          | malformed | unreadable => cases h
          | refused => exact absurd hverdict (verdict_ne_refused _ _ _ _ _)
  | @refusal earlier later line before event _ reached last _ hsplit hbegins
        hinside htaken
      hrefused =>
      obtain ⟨s, log⟩ := reached
      obtain ⟨s', log'⟩ := last
      cases h
      exact .inr ⟨earlier, line, later, before, event, s, hsplit,
        Nat.add_comm _ _, hbegins, hinside,
        listen_handler_eq_none_iff.1 ⟨log, htaken⟩,
        Dialect.accept_of_refused hrefused⟩

/-- After every beginning of the events of a text that was accepted so far the
books are exact, closing then never fails because a task takes no more
children, and gives a finished tree only when it closes everything. So when a
text is refused for the limit of a task, this is reported on the line of a
statement that is one child too many, unless the maker of the statement's own
task says so. -/
theorem bookkeeping_exact
    (hrewind : ∀ task : T,
      Behavior.arity (Behavior.rewind task) = Behavior.arity task)
    (hstocked : dialect.Stocked) (text : String) :
    (∀ comments es s, es <+: heard comments (splitLines text.toList) →
        Scaffold.empty.acceptAll dialect es = .ok s →
        (∃ kept, listen Lines.handler es Lines.empty = (kept, none)
          ∧ Exact kept.lines.toList s)
          ∧ ∀ indent,
            (∀ fault, Scaffold.close indent s.frames s.root
              ≠ .error (.tree fault))
            ∧ ∀ frames root,
              Scaffold.close indent s.frames s.root = .ok (frames, root) →
              root ≠ none → frames = [])
      ∧ ∀ number name limit,
        (dialect.parse text).2
          = .error (.unbuilt number (.tree (.childLimit name limit))) →
        ∃ earlier line later before s statement,
          splitLines text.toList = earlier ++ line :: later
            ∧ number = earlier.length + 1
            ∧ before ++ [.endStatement]
              <+: lineEvents dialect.settings.reportsComments line
            ∧ Scaffold.empty.acceptAll dialect
                (earlier.flatMap (lineEvents dialect.settings.reportsComments)
                  ++ before) = .ok s
            ∧ s.current = some statement
            ∧ (dialect.build statement = .error (.tree (.childLimit name limit))
              ∨ OneTooMany dialect statement { s with current := none }
                name limit) := by
  have hbuild : ∀ statement b, dialect.build statement = .ok b →
      b.WithinLimit :=
    fun _ _ hb => hstocked.withinLimit hrewind hb
  have hledger : ∀ {comments es s},
      es <+: heard comments (splitLines text.toList) →
      Scaffold.empty.acceptAll dialect es = .ok s →
      ∃ kept, listen Lines.handler es Lines.empty = (kept, none)
        ∧ Ledger (lastTaskIndent? kept.lines.toList) s :=
    fun hfront haccept =>
      Ledger.acceptAll hbuild ((headed_heard _ _).front hfront) haccept
  refine ⟨fun comments es s hfront haccept => ?_,
    fun number name limit hparse => ?_⟩
  -- A front of the events is itself heard, so its ledger is known.
  · obtain ⟨kept, hlisten, h⟩ := hledger hfront haccept
    refine ⟨⟨kept, hlisten, h.exact⟩, fun indent => ?_⟩
    rcases h.close indent with ⟨cause, hclose⟩ |
        ⟨frames, root, hclose, -, hclosed⟩
    · rw [hclose]
      exact ⟨fun _ => nofun, fun _ _ => nofun⟩
    · rw [hclose]
      refine ⟨fun _ => nofun, fun frames' root' heq hroot => ?_⟩
      cases heq
      exact (hclosed hroot).1
  -- The fault cannot be that of finishing, so it is that of a statement on its
  -- line.
  · rcases Dialect.parse_unbuilt hparse with ⟨s, haccept, hfinish⟩ |
        ⟨earlier, line, later, before, event, s, hsplit, hnumber, hbegins,
          hinside, haccept, hrefused⟩
    · obtain ⟨kept, -, h⟩ := hledger (List.prefix_refl _) haccept
      exact absurd hfinish (Scaffold.finish_not_tree h _)
    · rw [← List.append_assoc] at hbegins
      obtain ⟨kept, -, h⟩ :=
        hledger ((List.prefix_append _ _).trans hbegins) haccept
      obtain ⟨rfl, statement, hcurrent, htake⟩ := Scaffold.accept_tree hrefused
      exact ⟨earlier, line, later, before, s, statement, hsplit, hnumber,
        hinside, haccept, hcurrent,
        Scaffold.take_childLimit (h.with_waiting s.guard none) htake⟩

/-- The stock tasks, with a subtree on the shelf that takes no more
children. -/
def fullDialect : Dialect (Stock Unit Empty) :=
  { Dialect.standard id .standard with
    shelf := Roster.empty.put "full" (.node .invert none [.single .success]) }

/-- A task below a copied subtree that is full already. -/
def overfullText : String :=
  "sequence\n ->full # with its child\n  failure\n success"

/-- The third line has one child too many for the task that the shelf holds. -/
theorem bookkeeping_exact_overfull :
    fullDialect.Stocked
      ∧ (fullDialect.parse overfullText).2
        = .error (.unbuilt 3 (.tree (.childLimit "invert" 1)))
      ∧ ∃ before statement, ∃ s : Scaffold (Stock Unit Empty),
        before ++ [.endStatement]
            <+: lineEvents fullDialect.settings.reportsComments
              "  failure".toList
        ∧ s.current = some statement
        ∧ (fullDialect.build statement = .error (.tree (.childLimit "invert" 1))
          ∨ OneTooMany fullDialect statement { s with current := none }
            "invert" 1) := by
  have hrewind : ∀ task : Stock Unit Empty,
      Behavior.arity (Behavior.rewind task) = Behavior.arity task := fun task =>
    ((Stock.steady Unit Empty).rewind task).2
  have hstocked : fullDialect.Stocked := by
    intro name subtree hget
    by_cases hname : name = "full"
    · rw [hname, fullDialect, Roster.get?_put_self] at hget
      cases hget
      exact .addChild (.single .invert) (.single .success) rfl
    · rw [fullDialect, Roster.get?_put_of_ne _ _ hname] at hget
      cases hget
  have hparse : (fullDialect.parse overfullText).2
      = .error (.unbuilt 3 (.tree (.childLimit "invert" 1))) := by
    cbv
  obtain ⟨earlier, line, later, before, s, statement, hsplit, hnumber, hinside,
    -, hcurrent, hcause⟩ := (bookkeeping_exact hrewind hstocked overfullText).2
    3 "invert" 1 hparse
  have hlines : splitLines overfullText.toList
      = ["sequence".toList, " ->full # with its child".toList]
        ++ "  failure".toList
        :: [" success".toList] := by
    decide
  obtain ⟨-, hline⟩ :=
    List.append_inj (hlines.symm.trans hsplit) (Nat.succ.inj hnumber)
  obtain ⟨rfl, -⟩ := List.cons.inj hline
  exact ⟨hstocked, hparse, before, statement, s, hinside, hcurrent, hcause⟩

end Outline

end TaskTree
