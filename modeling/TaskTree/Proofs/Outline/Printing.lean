/-
A tree that is printed and read back is the same tree.

A blueprint is printed task by task, every child two spaces deeper than its
parent, and a guard in front of the task that it guards. The lines below a task
are so the lines of its children, each of them a document of its own that stands
two spaces deeper. By induction each gives its child, and then it closes into
the parent when the next one begins, or at the end (`parse_text`).

`Awaits` is the state between two children: the task is open with the ones
that came, and nothing else is. What holds of single words comes first, that
each name of the stock is one of the grammar and makes its task again; the
characters of the text come last.
-/
import TaskTree.Proofs.Contract
import TaskTree.Proofs.Outline.Passages
import TaskTree.Proofs.Outline.Restoring

namespace TaskTree

open Outline
open Outline.Grammar (Space Row)

-- ============================================================ the names

namespace Stock

variable {E A : Type}

/-- The stock tasks that are written without attributes. -/
def Attributeless (task : Stock E A) : Prop :=
  task ∈ Outline.Vocabulary.plainStock ∨ task = .repeats .forever

/-- The names of the plain tasks. -/
def plainNames : List String :=
  ["sequence", "selector", "invert", "always-succeed", "always-fail",
    "until-success", "until-fail", "success", "failure"]

/-- The names of the plain tasks, in their order. -/
theorem map_name_plainStock :
    (Outline.Vocabulary.plainStock : List (Stock E A)).map name = plainNames :=
  rfl

/-- A plain task has one of these names. -/
theorem name_mem_plainNames {task : Stock E A}
    (h : task ∈ Outline.Vocabulary.plainStock) :
    task.name ∈ plainNames :=
  map_name_plainStock (E := E) (A := A) ▸ List.mem_map_of_mem h

/-- A task without attributes has a name that can be written. -/
theorem Attributeless.name {task : Stock E A} (h : task.Attributeless) :
    Grammar.Name task.name.toList := by
  have hplain : ∀ name ∈ plainNames,
      (name.toList.head?.any startsName && name.toList.tail.all isNameChar)
        = true := by
    decide
  rcases h with htask | rfl
  · exact .of_check (hplain _ (name_mem_plainNames htask))
  · show Grammar.Name "repeat".toList
    exact .of_check (by decide)

end Stock

namespace Outline.Vocabulary

variable {E A T : Type}

/-- A word that none of the tasks has as its name. -/
theorem get?_foldl_put_of_ne {embed : Stock E A → T} {tasks : List (Stock E A)}
    {name : String} (h : ∀ task ∈ tasks, name ≠ task.name)
    (words : Vocabulary T) :
    (tasks.foldl (fun words task =>
      words.put task.name (plain task.name (embed task)))
        words).get? name = words.get? name := by
  induction tasks generalizing words with
  | nil => rfl
  | cons task tasks ih =>
      obtain ⟨hne, hrest⟩ := List.forall_mem_cons.1 h
      rw [List.foldl_cons, ih hrest, Roster.get?_put_of_ne _ _ hne]

/-- Where names differ, each stands for its own task. -/
theorem get?_foldl_put {embed : Stock E A → T} {tasks : List (Stock E A)}
    {task : Stock E A} (hmem : task ∈ tasks)
    (hnodup : (tasks.map Stock.name).Nodup) (words : Vocabulary T) :
    (tasks.foldl (fun words task =>
      words.put task.name (plain task.name (embed task)))
        words).get? task.name = some (plain task.name (embed task)) := by
  induction tasks generalizing words with
  | nil => cases hmem
  | cons first rest ih =>
      rw [List.map_cons, List.nodup_cons] at hnodup
      obtain ⟨hfirst, hrest⟩ := hnodup
      rw [List.foldl_cons]
      rcases List.mem_cons.1 hmem with rfl | hmem
      · have hne : ∀ other ∈ rest, task.name ≠ other.name :=
          fun other hother hsame => hfirst (hsame ▸ List.mem_map_of_mem hother)
        rw [get?_foldl_put_of_ne hne, Roster.get?_put_self]
      · exact ih hmem hrest _

/-- The name of a task without attributes is enough to make it. -/
theorem make_attributeless (embed : Stock E A → T) {task : Stock E A}
    (h : task.Attributeless) :
    (standard embed).make task.name .empty = .ok (embed task) := by
  have hother : ∀ name ∈ Stock.plainNames, name ≠ "repeat" ∧ name ≠ "wait" := by
    decide
  unfold make standard
  dsimp only
  rcases h with htask | rfl
  · obtain ⟨hrepeat, hwait⟩ := hother _ (Stock.name_mem_plainNames htask)
    rw [Roster.get?_put_of_ne _ _ hwait, Roster.get?_put_of_ne _ _ hrepeat,
      get?_foldl_put htask (Stock.map_name_plainStock ▸ by decide)]
    rfl
  · have hname : (Stock.repeats .forever : Stock E A).name = "repeat" := rfl
    rw [hname, Roster.get?_put_of_ne _ _ (by decide), Roster.get?_put_self]
    rfl

end Outline.Vocabulary

-- ========================================================= the blueprints

namespace Blueprint

variable {E A T : Type}

/-- A task alone that needs no child and that its name shows completely. -/
def Bare (b : Blueprint (Stock E A)) : Prop :=
  ∃ task : Stock E A,
    b = .single task ∧ task.Attributeless ∧ task.arity.least = 0

/-- A blueprint that its text shows completely: no task has attributes, every
task has the children that it needs and no more than it takes, and a guard is a
task alone that needs no child. -/
inductive Printable : Blueprint (Stock E A) → Prop where
  | node {task : Stock E A} {guard : Option (Blueprint (Stock E A))}
      {children : List (Blueprint (Stock E A))}
      (spelled : task.Attributeless)
      (enough : task.arity.least ≤ children.length)
      (room : ∀ limit, task.arity.most = some limit → children.length ≤ limit)
      (below : ∀ g ∈ guard, g.Bare)
      (beneath : ∀ c ∈ children, Printable c) :
      Printable (.node task guard children)

/-- A task alone is printable if its name can be written. -/
theorem Bare.printable {b : Blueprint (Stock E A)} (h : b.Bare) :
    b.Printable := by
  obtain ⟨task, rfl, htask, hleast⟩ := h
  exact .node htask (Nat.le_of_eq hleast) (fun _ _ => Nat.zero_le _)
    (fun _ hg => by cases hg) (List.forall_mem_nil _)

variable [Behavior E T]

/-- The statement of a task, with that of its guard before it. -/
def marked (guard : Option (Blueprint T)) (task : T) : List Statement :=
  match guard with
  | none => [.bare (Behavior.name task) false false]
  | some g => [.bare g.name false true, .bare (Behavior.name task) false false]

mutual

/-- The lines of a blueprint with their statements. -/
def outline : Blueprint T → List Line
  | .node task guard children =>
    { indent := 0, statements := marked guard task }
      :: (outlineAll children).map (Line.deeper 2)

/-- The lines of a row of blueprints with their statements. -/
def outlineAll : List (Blueprint T) → List Line
  | [] => []
  | child :: rest => child.outline ++ outlineAll rest

end

/-- The first task of a blueprint's lines is not indented. -/
theorem firstTask_outline (b : Blueprint T) (number : Nat)
    (rest : List Placed) :
    firstTask (spread number b.outline ++ rest)
      = some { line := number, indent := 0,
               statement := .bare b.name false false } := by
  obtain ⟨task, guard, children⟩ := b
  cases guard with
  | none => exact firstTask_cons_of_task rfl
  | some g =>
      rw [outline, spread]
      exact (firstTask_cons_of_guard rfl).trans (firstTask_cons_of_task rfl)

end Blueprint

namespace Outline

variable {E A : Type} [Deed E A] {dialect : Dialect (Stock E A)}

/-- A task by its name. -/
theorem build_attributeless (hwords : dialect.vocabulary = .standard id)
    {task : Stock E A} (h : task.Attributeless) (isGuard : Bool) :
    dialect.build (.bare task.name false isGuard) = .ok (.single task) := by
  unfold Dialect.build
  rw [if_neg (by exact Bool.false_ne_true), hwords]
  have hmake := Vocabulary.make_attributeless (id : Stock E A → Stock E A) h
  exact congrArg (Except.map Blueprint.single) hmake

namespace Scaffold

/-- The line of a task places it with its guard. Without a guard it is the
statement of the task alone. A guard waits on the line until its task comes. -/
theorem takeLine_marked (hwords : dialect.vocabulary = .standard id)
    {task : Stock E A} {guard : Option (Blueprint (Stock E A))}
    (htask : task.Attributeless) (hguard : ∀ g ∈ guard, g.Bare)
    {depth : Nat} {s : Scaffold (Stock E A)} (hnone : s.guard = none) :
    s.takeLine dialect
      { indent := depth, statements := Blueprint.marked guard task }
      = (s.seat depth).map (hold depth (.node task guard [])) := by
  have hbuild := build_attributeless hwords htask false
  cases guard with
  | none => exact takeLine_task rfl hnone hbuild
  | some g =>
      obtain ⟨t, rfl, ht, hleast⟩ := hguard g rfl
      -- The guard is taken first, and leaves the line without a task.
      have hwaits :
          ({ s with indent := depth, placed := false } :
            Scaffold (Stock E A)).take dialect
            (.bare t.name false true)
          = .ok { s with indent := depth, placed := false,
                         guard := some (.single t) } := by
        refine (take_guard_eq_ok_iff rfl).2
          ⟨_, build_attributeless hwords ht true, .inl hnone,
            Nat.le_of_eq hleast, ?_⟩
        dsimp only
        rw [hnone]
        rfl
      have hplaced := take_task_eq
        (s := { s with indent := depth, placed := false,
                       guard := some (.single t) })
        rfl hbuild (.inr rfl)
      have htake : s.takeLine dialect
            { indent := depth,
              statements := Blueprint.marked (some (.single t)) task }
          = s.takeLine dialect
            { indent := depth, statements := [.bare t.name false true] }
            >>= fun s => s.take dialect (.bare task.name false false) :=
        takeLine_append { indent := depth,
                          statements := [.bare t.name false true] } _ s
      rw [htake, takeLine_singleton, hwaits, ← seat_map_hold]
      exact hplaced

section Children

variable {task : Stock E A} {guard : Option (Blueprint (Stock E A))}
  {done : List (Blueprint (Stock E A))} {s : Scaffold (Stock E A)}

/-- A task with its first children awaits the next one: where a line begins
that is indented by two spaces, the task is all that stays open. -/
structure Awaits (task : Stock E A) (guard : Option (Blueprint (Stock E A)))
    (done : List (Blueprint (Stock E A)))
    (s : Scaffold (Stock E A)) : Prop where
  close : Scaffold.close 2 s.frames s.root
    = .ok
      ([{ indent := 0, node := .node task guard done,
          children := done.length }], none)
  guard : s.guard = none

/-- The next child is placed after those that are done. -/
theorem Awaits.next (h : Awaits task guard done s)
    {child : Blueprint (Stock E A)}
    (hready : child.arity.least ≤ child.children.length)
    (hroom : ∀ limit, task.arity.most = some limit → done.length + 1 ≤ limit) :
    ∃ s', (s.seat 2).map (hold 2 child) = .ok s'
      ∧ Awaits task guard (done ++ [child]) s' := by
  -- There is room for one child more.
  have hfree : (Blueprint.node task guard done).arity.exceeded?
      done.length = none :=
    Arity.exceeded?_eq_none_iff.2 hroom
  -- The child is placed where the ones before it were, since its line closes
  -- them.
  have hseat : s.seat 2
      = .ok { s with
        frames :=
          [{ indent := 0, node := .node task guard done,
             children := done.length + 1 }]
        root := none
        indent := 2
        placed := true
        guard := none } :=
    bind_eq_ok_of (makeRoom_of_close rfl h.close)
      (reserve_of_room { indent := 0, node := .node task guard done,
                         children := done.length } rfl
        hfree)
  have hadd :
      ({ indent := 0, node := .node task guard done,
         children := done.length + 1 }
        : Frame (Stock E A)).addChild child
      = .ok { indent := 0, node := .node task guard (done ++ [child]),
              children := done.length + 1 } :=
    addChild_eq_ok hroom
  refine ⟨_, by rw [hseat]; rfl, ?_, rfl⟩
  -- The task is still open, and now holds one child more.
  refine (close_cons_cons (Nat.lt_irrefl 2) (ensureChildren_eq_ok_iff.2 hready)
      hadd).trans ?_
  rw [List.length_append]
  exact close_cons_of_lt (Nat.succ_pos 1)

/-- A task that awaits no more children closes into its tree. -/
theorem Awaits.finish (h : Awaits task guard done s)
    (hready : task.arity.least ≤ done.length) :
    s.finish = .ok (.node task guard done) := by
  have hclose : Scaffold.close 0 s.frames s.root
      = .ok ([], some (.node task guard done)) := by
    rw [close_of_close h.close (Nat.zero_le 2)]
    exact close_singleton (Nat.lt_irrefl 0) (ensureChildren_eq_ok_iff.2 hready)
  unfold Scaffold.finish
  rw [h.guard, hclose]

end Children

/-- The first task of a row of printed children is a child. -/
theorem firstTask_outlineAll (children : List (Blueprint (Stock E A)))
    {x : Placed}
    (h :
      firstTask (spread 0 ((Blueprint.outlineAll children).map (Line.deeper 2)))
        = some x) :
    x.indent = 2 := by
  rw [spread_deeper, firstTask_deeper] at h
  obtain ⟨y, hy, rfl⟩ := Option.map_eq_some_iff.1 h
  cases children with
  | nil => cases hy
  | cons child rest =>
      rw [Blueprint.outlineAll, spread_append,
        Blueprint.firstTask_outline] at hy
      cases hy
      rfl

/-- The lines of the children give the children, one after the other. By
induction along the children that are left: each of them is a document of its
own, spliced in below the task. -/
theorem takeLines_outlineAll {task : Stock E A}
    {guard : Option (Blueprint (Stock E A))}
    {done rest : List (Blueprint (Stock E A))} {s : Scaffold (Stock E A)}
    (hrest : ∀ c ∈ rest, c.arity.least ≤ c.children.length
      ∧ (empty : Scaffold (Stock E A)).takeLines dialect c.outline
        >>= finish = .ok c)
    (h : Awaits task guard done s)
    (hready : task.arity.least ≤ (done ++ rest).length)
    (hroom : ∀ limit, task.arity.most = some limit →
      (done ++ rest).length ≤ limit) :
    s.takeLines dialect
      ((Blueprint.outlineAll rest).map (Line.deeper 2)) >>= finish
      = .ok (.node task guard (done ++ rest)) := by
  induction rest generalizing done s with
  | nil =>
      rw [List.append_nil] at hready ⊢
      exact h.finish hready
  | cons c rest ih =>
      obtain ⟨⟨hleast, hchild⟩, hrest⟩ := List.forall_mem_cons.1 hrest
      have hnext : ∀ limit, task.arity.most = some limit →
          done.length + 1 ≤ limit := by
        -- There is room for it, since there is room for all that are left.
        intro limit hlimit
        have hle := hroom limit hlimit
        rw [List.length_append, List.length_cons] at hle
        omega
      obtain ⟨s', hs', hawaits⟩ := h.next hleast hnext
      -- The child begins at its own margin, and the children after it are not
      -- indented farther.
      have hflat : ∀ x, firstTask (spread 0 c.outline) = some x →
          x.indent = 0 := by
        intro x hx
        have hfirst := c.firstTask_outline 0 []
        rw [List.append_nil, hx] at hfirst
        cases hfirst
        rfl
      have houter : ∀ x,
          firstTask (spread 0 ((Blueprint.outlineAll rest).map (Line.deeper 2)))
          = some x → x.indent ≤ 2 :=
        fun x hx => Nat.le_of_eq (firstTask_outlineAll rest hx)
      -- What the child gives is put below the task, and the next one goes on
      -- from there.
      rw [Blueprint.outlineAll, List.map_append]
      refine (takeLines_splice hchild hflat houter h.guard).2 ?_
      rw [hs', List.append_cons done c rest]
      rw [List.append_cons] at hready hroom
      exact ih hrest hawaits hready hroom

/-- The lines of a printable blueprint give it back. By induction over the tree:
the line of the task first, then its children. -/
theorem takeLines_outline (hwords : dialect.vocabulary = .standard id)
    {b : Blueprint (Stock E A)} (h : b.Printable) :
    (empty : Scaffold (Stock E A)).takeLines dialect b.outline
      >>= finish = .ok b := by
  induction h with
  | @node task guard children spelled enough room below beneath ih =>
      have hready : ∀ c ∈ children, c.arity.least ≤ c.children.length := by
        intro c hc
        -- A printable tree has its children in the number that its task asks
        -- for.
        cases beneath c hc with
        | node _ enough => exact enough
      have hline : (empty : Scaffold (Stock E A)).takeLine dialect
            { indent := 0, statements := Blueprint.marked guard task }
          = (empty.seat 0).map (hold 0 (.node task guard [])) :=
        takeLine_marked hwords spelled below rfl
      -- Nothing is open yet, so the task is the root.
      rw [seat_of_empty rfl rfl] at hline
      have hawaits : Awaits task guard [] (hold 0 (.node task guard [])
          { (empty : Scaffold (Stock E A)) with
            hasRoot := true, indent := 0, placed := true, guard := none }) :=
        ⟨close_cons_of_lt (Nat.succ_pos 1), rfl⟩
      have hchildren :=
        takeLines_outlineAll (fun c hc => ⟨hready c hc, ih c hc⟩)
          hawaits enough room
      rw [Blueprint.outline, takeLines_cons, hline]
      exact hchildren

end Scaffold

-- ============================================================= the lines

/-- A line with a task, and with its guard before it. -/
theorem reads_marked {task : Stock E A} {guard : Option (Blueprint (Stock E A))}
    (htask : task.Attributeless)
    (hguard : ∀ g ∈ guard, g.Bare) :
    Reads [(Blueprint.guardMark guard ++ task.name).toList]
      [{ indent := 0, statements := Blueprint.marked guard task }] := by
  have hstatement : Grammar.Statement task.name.toList
      [.statement task.name false false, .endStatement] :=
    statement_bare .absent .absent htask.name
  cases guard with
  | none =>
      have hline :=
        Grammar.Line.full margin_nil (.one hstatement) space_nil .absent
      have hchars :
          (Blueprint.guardMark (none : Option (Blueprint (Stock E A)))
            ++ task.name).toList
          = [] ++ (task.name.toList ++ ([] ++ [])) := by
        rw [Blueprint.guardMark, String.empty_append, List.append_nil,
          List.append_nil]
        rfl
      rw [hchars]
      exact reads_of_line hline rfl
  -- Before it stands the guard with its mark.
  | some g =>
      obtain ⟨t, rfl, ht, -⟩ := hguard g rfl
      have hwaiting : Grammar.Statement ('?' :: t.name.toList)
          [.statement t.name false true, .endStatement] :=
        statement_bare .present .absent ht.name
      have hrow :=
        Row.more hwaiting space_blank (List.cons_ne_nil _ _) (.one hstatement)
      have hline := Grammar.Line.full margin_nil hrow space_nil .absent
      have hchars :
          (Blueprint.guardMark (some (Blueprint.single t)) ++ task.name).toList
          = []
            ++ (('?' :: t.name.toList) ++ ([' '] ++ task.name.toList)
              ++ ([] ++ [])) := by
        rw [Blueprint.guardMark, List.append_nil, List.append_nil]
        simp only [String.toList_append, List.append_assoc]
        rfl
      rw [hchars]
      exact reads_of_line hline rfl

mutual

/-- A printed blueprint has the lines that it should have. By induction over the
tree and its children, with the depth general: the children are one level
deeper. -/
theorem reads_lines (depth : Nat) (b : Blueprint (Stock E A))
    (h : b.Printable) :
    Reads ((b.lines depth).map String.toList)
      (b.outline.map (Line.deeper (2 * depth))) := by
  match b, h with
  | .node task guard children, .node spelled _ _ below beneath =>
      have hline := (reads_marked spelled below).deeper (2 * depth)
      have hchildren := reads_linesAll (depth + 1) children beneath
      -- Two deeper, and then as much as the task is.
      have hdeeper : ∀ line : Line, (line.deeper 2).deeper (2 * depth)
          = line.deeper (2 * (depth + 1)) := by
        intro line
        have hindent : 2 * depth + (2 + line.indent)
            = 2 * (depth + 1) + line.indent := by omega
        exact congrArg (Line.mk · line.statements) hindent
      have hlines :
          ((Blueprint.node task guard children).lines depth).map String.toList
          = [List.replicate (2 * depth) ' '
            ++ (Blueprint.guardMark guard ++ task.name).toList]
            ++ (Blueprint.linesAll (depth + 1) children).map String.toList := by
        rw [Blueprint.lines, List.map_cons, String.toList_append,
          String.toList_append, String.toList_ofList, List.append_assoc,
          String.toList_append]
        rfl
      rw [hlines, Blueprint.outline, List.map_cons, List.map_map]
      refine reads_append.2 ⟨_, _, hline, hchildren, ?_⟩
      exact congrArg (List.cons _)
        (List.map_congr_left fun line _ => hdeeper line)

/-- The lines of the children are read one child after the other. -/
theorem reads_linesAll (depth : Nat) (children : List (Blueprint (Stock E A)))
    (h : ∀ c ∈ children, c.Printable) :
    Reads ((Blueprint.linesAll depth children).map String.toList)
      ((Blueprint.outlineAll children).map (Line.deeper (2 * depth))) := by
  match children with
  | [] => exact ⟨_, rfl, rfl⟩
  | child :: rest =>
      obtain ⟨hchild, hrest⟩ := List.forall_mem_cons.1 h
      rw [Blueprint.linesAll, Blueprint.outlineAll, List.map_append,
        List.map_append]
      exact reads_append.2
        ⟨_, _, reads_lines depth child hchild, reads_linesAll depth rest hrest,
          rfl⟩

end

end Outline

-- ============================================================== the text

namespace Blueprint

variable {E A T : Type}

/-- A line of the children is a line of one of them. -/
theorem mem_linesAll [Behavior E T] {depth : Nat} {line : String}
    {children : List (Blueprint T)} :
    line ∈ linesAll depth children ↔ ∃ c ∈ children, line ∈ c.lines depth := by
  induction children with
  | nil => simp [linesAll]
  | cons c rest ih => simp [linesAll, ih]

/-- A printed line is one line. By induction over the tree: the first line is a
margin, a mark and a name, none of which has a line feed. -/
theorem Printable.newline_not_mem [Deed E A] {b : Blueprint (Stock E A)}
    (h : b.Printable) {depth : Nat} {line : String}
    (hline : line ∈ b.lines depth) : '\n' ∉ line.toList := by
  induction h generalizing depth with
  | @node task guard children spelled _ _ below _ ih =>
      rw [lines, List.mem_cons] at hline
      rcases hline with rfl | hline
      · have hmark : '\n' ∉ (guardMark guard).toList := by
          cases guard with
          | none => exact List.not_mem_nil
          | some g =>
              obtain ⟨t, rfl, ht, -⟩ := below g rfl
              have hname : '\n' ∉ t.name.toList := newline_not_mem_name ht.name
              rw [guardMark, String.toList_append, String.toList_append,
                List.mem_append, List.mem_append, not_or, not_or]
              exact ⟨⟨by decide, hname⟩, by decide⟩
        have hspaces : '\n' ∉ List.replicate (2 * depth) ' ' :=
          fun hmem => absurd (List.eq_of_mem_replicate hmem) (by decide)
        rw [String.toList_append, String.toList_append, String.toList_ofList,
          List.mem_append, List.mem_append, not_or, not_or]
        exact ⟨⟨hspaces, hmark⟩, newline_not_mem_name spelled.name⟩
      · obtain ⟨c, hc, hline⟩ := mem_linesAll.1 hline
        exact ih c hc hline

end Blueprint

namespace Outline

variable {E A : Type} [Deed E A] {dialect : Dialect (Stock E A)}

/-- Lines that are ended one by one are the lines of their text, and an empty
one comes after them. -/
theorem splitLines_join {lines : List String}
    (h : ∀ line ∈ lines, '\n' ∉ line.toList) :
    splitLines (String.join (lines.map (· ++ "\n"))).toList
      = lines.map String.toList ++ [[]] := by
  rw [splitLines_eq_splitOn]
  induction lines with
  | nil => rfl
  | cons line lines ih =>
      obtain ⟨hline, hlines⟩ := List.forall_mem_cons.1 h
      rw [List.map_cons, String.join_cons, String.toList_append,
        String.toList_append, List.append_assoc]
      exact (List.splitOn_append_cons_self_of_not_mem hline _).trans
        (congrArg _ (ih hlines))

/-- A blueprint is read back from its text, so that it would be printed in the
same way again. -/
theorem parse_text (hwords : dialect.vocabulary = .standard id)
    {b : Blueprint (Stock E A)} (h : b.Printable) :
    (dialect.parse b.text).2 = .ok b
      ∧ ∀ back, (dialect.parse b.text).2 = .ok back → back.text = b.text := by
  have hrows : Reads ((b.lines 0).map String.toList) b.outline := by
    have hlines := reads_lines 0 b h
    rwa [Nat.mul_zero, funext Line.deeper_zero, List.map_id'] at hlines
  have hall : Reads (splitLines b.text.toList) b.outline := by
    rw [Blueprint.text, splitLines_join fun _ => h.newline_not_mem]
    exact reads_append.2 ⟨_, _, hrows, reads_blank, (List.append_nil _).symm⟩
  have hback : (dialect.parse b.text).2 = .ok b :=
    parse_eq_ok_iff_reads.2 ⟨_, hall, Scaffold.takeLines_outline hwords h⟩
  refine ⟨hback, fun back hsame => ?_⟩
  rw [hback] at hsame
  cases hsame
  rfl

/-- A sequence with two decorators, one guarded by a leaf and one by a
composite. -/
def watchedTree : Blueprint (Stock Unit Empty) :=
  .node (.sequence 0) none
    [.node .invert (some (.single .success)) [.single .failure],
      .node (.repeats .forever) (some (.single (.selector 0)))
        [.single .success]]

/-- The decorators come back with their guards and their children. -/
theorem parse_text_watched :
    watchedTree.text
        = "sequence\n  ?success invert\n    failure\n  ?selector repeat\n    success\n"
      ∧ ((Dialect.standard id .standard).parse watchedTree.text).2
        = .ok watchedTree := by
  -- All tasks of the tree are plain, except the one that repeats.
  have hplain : ∀ task ∈ (Vocabulary.plainStock : List (Stock Unit Empty)),
      task.Attributeless :=
    fun _ htask => .inl htask
  obtain ⟨hsequence, hselector, hinvert, -, -, -, -, hsuccess, hfailure, -⟩ :=
    by simpa only [Vocabulary.plainStock, List.forall_mem_cons] using hplain
  have hone : ∀ limit, some 1 = some limit → 1 ≤ limit := fun _ hlimit => by
    cases hlimit; rfl
  have hleaf : (Blueprint.single (.success : Stock Unit Empty)).Bare :=
    ⟨_, rfl, hsuccess, rfl⟩
  -- The tree is printable from the leaves upwards.
  have hinverted :
      (Blueprint.node (.invert : Stock Unit Empty) (some (.single .success))
      [.single .failure]).Printable :=
    .node hinvert (Nat.le_refl 1) hone (fun _ hg => by cases hg; exact hleaf)
      (List.forall_mem_singleton.2
        (Blueprint.Bare.printable ⟨_, rfl, hfailure, rfl⟩))
  have hrepeated : (Blueprint.node (.repeats .forever : Stock Unit Empty)
      (some (.single (.selector 0))) [.single .success]).Printable :=
    .node (.inr rfl) (Nat.le_refl 1) hone
      (fun _ hg => by cases hg; exact ⟨_, rfl, hselector, rfl⟩)
      (List.forall_mem_singleton.2 hleaf.printable)
  have hwatched : watchedTree.Printable :=
    .node hsequence (Nat.zero_le _) (fun _ hlimit => by cases hlimit)
      (fun _ hg => by cases hg)
      (List.forall_mem_cons.2
        ⟨hinverted, List.forall_mem_singleton.2 hrepeated⟩)
  have hwords :
      (Dialect.standard (id : Stock Unit Empty → _) .standard).vocabulary
      = .standard id := rfl
  obtain ⟨hback, -⟩ := parse_text hwords hwatched
  have htext : watchedTree.text
      = "sequence\n  ?success invert\n    failure\n  ?selector repeat\n    success\n" := by
    cbv
  exact ⟨htext, hback⟩

end Outline

end TaskTree
