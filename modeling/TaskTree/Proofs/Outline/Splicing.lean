/-
A whole document inside another one.

The lines of a document that gives a tree of its own can stand deeper inside
another document, all of them by the same amount. The tasks that they leave
open then lie on top of the tasks that are open around them (`atop`), and none
of these lines reaches further down: the first task is the inner document's
root, and what would close the root would be a second root there. So when the
outer document goes on, no deeper than the root, the inner tasks close into
the very tree that the inner document gives, and it is as if that tree had
been placed there in one piece (`takeLines_splice`).
-/
import TaskTree.Proofs.Outline.Assembly

namespace TaskTree.Outline

variable {E T : Type} [Behavior E T] {dialect : Dialect T}

-- =============================================================== deeper

/-- A line with more indentation. -/
def Line.deeper (depth : Nat) (line : Line) : Line :=
  { line with indent := depth + line.indent }

/-- A statement of a line with more indentation. -/
def Placed.deeper (depth : Nat) (x : Placed) : Placed :=
  { x with indent := depth + x.indent }

/-- A task that was opened by a line with more indentation. -/
def Frame.deeper (depth : Nat) (frame : Frame T) : Frame T :=
  { frame with indent := depth + frame.indent }

/-- Lines that are moved in have their statements moved in. -/
theorem spread_deeper (depth : Nat) (lines : List Line) (number : Nat) :
    spread number (lines.map (Line.deeper depth))
      = (spread number lines).map (Placed.deeper depth) := by
  induction lines generalizing number with
  | nil => rfl
  | cons line lines ih =>
      rw [List.map_cons, spread, spread, List.map_append, ih]
      congr 1
      unfold Line.spread
      rw [List.map_map]
      rfl

/-- Lines in two parts; the numbers of the second part go on behind the
first. -/
theorem spread_append (before after : List Line) (number : Nat) :
    spread number (before ++ after)
      = spread number before ++ spread (number + before.length) after := by
  induction before generalizing number with
  | nil => rfl
  | cons line before ih =>
      rw [List.cons_append, spread, spread, ih, List.append_assoc,
        List.length_cons, Nat.add_right_comm, Nat.add_assoc]

/-- The first statement of a row that is no guard. -/
def firstTask (row : List Placed) : Option Placed :=
  row.find? fun x => !x.statement.isGuard

/-- A guard is not the first task. -/
theorem firstTask_cons_of_guard {x : Placed} {row : List Placed}
    (h : x.statement.isGuard = true) : firstTask (x :: row) = firstTask row :=
  List.find?_cons_of_neg (by rw [h]; exact Bool.false_ne_true)

/-- A task at the front is the first one. -/
theorem firstTask_cons_of_task {x : Placed} {row : List Placed}
    (h : x.statement.isGuard = false) : firstTask (x :: row) = some x :=
  List.find?_cons_of_pos (by rw [h]; rfl)

/-- Moving statements in does not change which task comes first. -/
theorem firstTask_deeper (depth : Nat) (row : List Placed) :
    firstTask (row.map (Placed.deeper depth))
      = (firstTask row).map (Placed.deeper depth) :=
  List.find?_map

namespace Scaffold

-- ============================================================== placing

/-- Makes sure that one more task can be opened inside the innermost open
one, and counts it there. -/
def reserve (s : Scaffold T) : Except BuildFault (Scaffold T) :=
  match s.frames with
  | [] =>
    if s.hasRoot then .error .secondRoot else .ok { s with hasRoot := true }
  | outer :: others =>
    match outer.node.arity.exceeded? outer.children with
    | some limit => .error (.tree (.childLimit outer.node.name limit))
    | none =>
      .ok { s with
            frames := { outer with children := outer.children + 1 } :: others }

/-- A frame with room for one child more reserves it. -/
theorem reserve_of_room {s : Scaffold T} (outer : Frame T)
    {others : List (Frame T)} (hframes : s.frames = outer :: others)
    (hroom : outer.node.arity.exceeded? outer.children = none) :
    s.reserve
      = .ok { s with
              frames := { outer with children := outer.children + 1 }
                :: others } := by
  unfold reserve
  rw [hframes]
  dsimp only
  rw [hroom]

/-- A task that stands open on top of all others. -/
def hold (depth : Nat) (node : Blueprint T) (s : Scaffold T) : Scaffold T :=
  { s with
    frames :=
      { indent := depth, node, children := node.children.length } :: s.frames }

/-- To open a task is to find that there is a place for it, which does not
depend on the task, and to put it there. -/
theorem openTask_eq (s : Scaffold T) (node : Blueprint T) :
    s.openTask node = s.reserve.map (hold s.indent node) := by
  unfold openTask reserve
  obtain ⟨frames, root, hasRoot, indent, placed, guard, current⟩ := s
  cases frames with
  | nil => cases hasRoot <;> rfl
  | cons outer others =>
      dsimp only
      cases outer.node.arity.exceeded? outer.children <;> rfl

/-- The place of the first task of a line. -/
def seat (depth : Nat) (s : Scaffold T) : Except BuildFault (Scaffold T) :=
  ({ s with indent := depth, placed := false, guard := none } :
    Scaffold T).makeRoom >>= reserve

/-- The first task of a line takes its seat. -/
theorem seat_map_hold (depth : Nat) (s : Scaffold T) (node : Blueprint T) :
    ({ s with indent := depth, placed := false, guard := none } :
      Scaffold T).makeRoom
        >>= (fun s₁ => s₁.openTask node)
      = (s.seat depth).map (hold depth node) := by
  unfold seat
  cases hroom :
    ({ s with indent := depth, placed := false, guard := none } :
      Scaffold T).makeRoom with
  | error fault => rfl
  | ok s₁ =>
      have hindent : s₁.indent = depth := (makeRoom_keeps hroom).1
      exact hindent ▸ openTask_eq s₁ node

-- ============================================================== closing

/-- A frame that stands further out stays open. -/
theorem close_cons_of_lt {indent : Nat} {frame : Frame T}
    {rest : List (Frame T)} {root : Option (Blueprint T)}
    (h : frame.indent < indent) :
    close indent (frame :: rest) root = .ok (frame :: rest, root) := by
  unfold close
  rw [if_pos h]

/-- The last frame becomes the root. -/
theorem close_singleton {indent : Nat} {frame : Frame T}
    {root : Option (Blueprint T)} (h : ¬ frame.indent < indent)
    (hready : ensureChildren frame.node = .ok ()) :
    close indent [frame] root = .ok ([], some frame.node) := by
  rw [close, if_neg h, hready]

/-- The innermost frame becomes a child of the one around it. -/
theorem close_cons_cons {indent : Nat} {frame outer outer' : Frame T}
    {others : List (Frame T)} {root : Option (Blueprint T)}
    (h : ¬ frame.indent < indent) (hready : ensureChildren frame.node = .ok ())
    (hadd : outer.addChild frame.node = .ok outer') :
    close indent (frame :: outer :: others) root
      = close indent (outer' :: others) root := by
  rw [close, if_neg h, hready]
  dsimp only
  rw [hadd]

/-- What closes nothing of a task but its indentation is the task itself. -/
theorem close_cons_congr {indent depth depth' children children' : Nat}
    {node : Blueprint T} (h : indent ≤ depth) (h' : indent ≤ depth')
    (rest : List (Frame T)) (root : Option (Blueprint T)) :
    close indent ({ indent := depth, node, children } :: rest) root
      = close indent ({ indent := depth', node, children := children' } :: rest)
        root := by
  unfold close
  rw [if_neg (Nat.not_lt.2 h), if_neg (Nat.not_lt.2 h')]

/-- How far a frame stands in has nothing to do with its children. -/
theorem addChild_deeper {frame frame' : Frame T} {child : Blueprint T}
    (depth : Nat) (h : frame.addChild child = .ok frame') :
    (frame.deeper depth).addChild child = .ok (frame'.deeper depth) := by
  unfold Frame.addChild at h ⊢
  have hnode : (frame.deeper depth).node = frame.node := rfl
  rw [hnode]
  cases hadd : frame.node.addChild child with
  | error fault =>
      rw [hadd] at h
      cases h
  | ok node =>
      rw [hadd] at h
      cases h
      rfl

/-- What stands deeper on top of other tasks closes as it does alone, unless
nothing of it is left open. By induction along the frames that are closed. Some
frame is left of them, so the frames below are never reached. -/
theorem close_atop {indent : Nat} {frames frames' : List (Frame T)}
    {root root' : Option (Blueprint T)} (depth : Nat) (below : List (Frame T))
    (other : Option (Blueprint T))
    (h : close indent frames root = .ok (frames', root'))
    (hleft : frames' ≠ []) :
    close (depth + indent) (frames.map (Frame.deeper depth) ++ below) other
      = .ok (frames'.map (Frame.deeper depth) ++ below, other) := by
  fun_induction close indent frames root with
  | case1 =>
      cases h
      exact absurd rfl hleft
  | case2 frame rest hlt =>
      cases h
      exact close_cons_of_lt (Nat.add_lt_add_left hlt depth)
  | case3 => cases h
  | case4 =>
      cases h
      exact absurd rfl hleft
  | case5 => cases h
  -- How far two frames stand in is compared, and both have moved by as much.
  | case6 frame hlt hready outer others outer' hadd ih =>
      have hlt' : ¬ (frame.deeper depth).indent < depth + indent :=
        fun hlt' => hlt (Nat.lt_of_add_lt_add_left hlt')
      rw [← ih h]
      exact close_cons_cons hlt' hready (addChild_deeper depth hadd)

/-- What closes into a tree at the end of its document closes into the same
tree on top of other tasks. -/
theorem close_atop_of_all {indent depth : Nat} {frames left : List (Frame T)}
    {root : Option (Blueprint T)} {tree : Blueprint T} (below : List (Frame T))
    (other : Option (Blueprint T)) (children : Nat) (hframes : frames ≠ [])
    (h : close 0 frames root = .ok (left, some tree))
    (hindent : indent ≤ depth) :
    close indent (frames.map (Frame.deeper depth) ++ below) other
      = close indent ({ indent := depth, node := tree, children } :: below)
        other := by
  -- All frames of the inner document stand at least as far in as the depth, so
  -- all of them are closed.
  have hdeep : ∀ k, indent ≤ depth + k :=
    fun k => Nat.le_add_right_of_le hindent
  generalize hzero : 0 = least at h
  -- Along the closing of the inner document alone, which leaves nothing open.
  fun_induction close least frames root with
  | case1 => exact absurd rfl hframes
  | case2 frame rest hlt =>
      subst hzero
      exact absurd hlt (Nat.not_lt_zero _)
  | case3 => cases h
  | case4 frame hlt hready =>
      cases h
      exact close_cons_congr (hdeep _) hindent below other
  | case5 => cases h
  | case6 frame hlt hready outer others outer' hadd ih =>
      rw [← ih (List.cons_ne_nil _ _) h]
      exact close_cons_cons (Nat.not_lt.2 (hdeep _)) hready
        (addChild_deeper depth hadd)

/-- Closing by steps comes to the same as closing at once. Whatever the first
closing leaves would have been met by the second one on its way. -/
theorem close_of_close {indent indent' : Nat} {frames frames' : List (Frame T)}
    {root root' : Option (Blueprint T)}
    (h : close indent frames root = .ok (frames', root'))
    (hle : indent' ≤ indent) :
    close indent' frames root = close indent' frames' root' := by
  fun_induction close indent frames root with
  | case1 | case2 =>
      cases h
      rfl
  | case3 => cases h
  | case4 frame hlt hready =>
      cases h
      rw [close_singleton (fun hlt' => hlt (Nat.lt_of_lt_of_le hlt' hle))
          hready, close]
  | case5 => cases h
  | case6 frame hlt hready outer others outer' hadd ih =>
      rw [← ih h]
      exact close_cons_cons
        (fun hlt' => hlt (Nat.lt_of_lt_of_le hlt' hle)) hready hadd

-- ========================================================= the inner run

/-- A scaffold with all its tasks deeper and on top of those of another
one. -/
def atop (below : Scaffold T) (depth : Nat) (s : Scaffold T) : Scaffold T :=
  { below with
    frames := s.frames.map (Frame.deeper depth) ++ below.frames
    indent := depth + s.indent
    placed := s.placed
    guard := s.guard }

/-- Making room is not what declares a root. -/
theorem makeRoom_hasRoot {s s' : Scaffold T} (h : s.makeRoom = .ok s') :
    s'.hasRoot = s.hasRoot := by
  unfold makeRoom at h
  split at h
  · cases h
    rfl
  · split at h
    · cases h
    · cases h
      rfl

/-- Room is made on top of other frames as it is made alone, as long as
something is left open. A task on the line of the one before it stands inside
that one, so nothing is closed. -/
theorem atop_makeRoom {s s' : Scaffold T} (below : Scaffold T) (depth : Nat)
    (h : s.makeRoom = .ok s') (hleft : s'.frames ≠ []) :
    (below.atop depth s).makeRoom = .ok (below.atop depth s') := by
  cases hplaced : s.placed with
  | true =>
      rw [makeRoom_of_placed hplaced] at h
      cases h
      exact makeRoom_of_placed hplaced
  | false =>
      have hplaced' : (below.atop depth s).placed = false := hplaced
      cases hclose : close s.indent s.frames s.root with
      | error fault =>
          rw [makeRoom_of_fault hplaced hclose] at h
          cases h
      | ok closed =>
          obtain ⟨frames, root⟩ := closed
          rw [makeRoom_of_close hplaced hclose] at h
          cases h
          exact makeRoom_of_close hplaced'
            (close_atop depth below.frames below.root hclose hleft)

/-- A task that is opened inside another one is opened so on top of other tasks.
Without a frame the task would be a second root. -/
theorem atop_openTask {s s' : Scaffold T} {node : Blueprint T}
    (below : Scaffold T) (depth : Nat) (hroot : s.hasRoot = true)
    (h : s.openTask node = .ok s') :
    s.frames ≠ [] ∧ (below.atop depth s).openTask node
      = .ok (below.atop depth s')
      ∧ s'.hasRoot = true := by
  cases hframes : s.frames with
  | nil =>
      rw [openTask_of_hasRoot hframes hroot] at h
      cases h
  | cons outer others =>
      have hatop : (below.atop depth s).frames
          = outer.deeper depth
            :: (others.map (Frame.deeper depth) ++ below.frames) := by
        unfold atop
        rw [hframes]
        rfl
      -- The frame that takes the new task is the same one with and without the
      -- frames below, and has as much room.
      cases hroom : outer.node.arity.exceeded? outer.children with
      | some limit =>
          obtain ⟨fault, hfault⟩ :=
            openTask_of_full hframes (hroom ▸ Option.some_ne_none _) node
          rw [hfault] at h
          cases h
      | none =>
          rw [openTask_of_room hframes hroom] at h
          cases h
          exact ⟨List.cons_ne_nil _ _, openTask_of_room hatop hroom node, hroot⟩

/-- Once the root of the inner document stands, its statements are taken in
on top of other tasks as they are alone. -/
theorem atop_takePlaced {s s' : Scaffold T} {last : Option Nat} {x : Placed}
    (below : Scaffold T) (depth : Nat) (hroot : s.hasRoot = true)
    (h : s.takePlaced dialect last x = .ok s') :
    (below.atop depth s).takePlaced dialect last (x.deeper depth)
      = .ok (below.atop depth s')
      ∧ s'.hasRoot = true := by
  unfold takePlaced at h ⊢
  cases hguard : x.statement.isGuard with
  | true =>
      obtain ⟨b, hb, hfree, hready, rfl⟩ := (take_guard_eq_ok_iff hguard).1 h
      exact ⟨(take_guard_eq_ok_iff hguard).2 ⟨b, hb, hfree, hready, rfl⟩, hroot⟩
  | false =>
      obtain ⟨b, hb, hfree, hplace⟩ := (take_task_eq_ok_iff hguard).1 h
      obtain ⟨s₁, hroom, hopen⟩ := bind_eq_ok hplace
      have hroot₁ : s₁.hasRoot = true := (makeRoom_hasRoot hroom).trans hroot
      obtain ⟨hleft, hopen', hroot'⟩ := atop_openTask below depth hroot₁ hopen
      have hroom' := atop_makeRoom below depth hroom hleft
      exact ⟨(take_task_eq_ok_iff hguard).2
          ⟨b, hb, hfree, bind_eq_ok_of hroom' hopen'⟩, hroot'⟩

/-- The rest of the inner document, statement by statement. -/
theorem atop_takeAll {row : List Placed} {s s' : Scaffold T} {last : Option Nat}
    (below : Scaffold T) (depth : Nat) (hroot : s.hasRoot = true)
    (h : s.takeAll dialect last row = .ok s') :
    (below.atop depth s).takeAll dialect last (row.map (Placed.deeper depth))
      = .ok (below.atop depth s') := by
  induction row generalizing s last with
  | nil =>
      cases h
      rfl
  | cons x row ih =>
      rw [takeAll] at h
      obtain ⟨s₁, hs₁, h⟩ := bind_eq_ok h
      obtain ⟨hs₁', hroot₁⟩ := atop_takePlaced below depth hroot hs₁
      rw [List.map_cons, takeAll]
      exact bind_eq_ok_of hs₁' (ih hroot₁ h)

-- ==================================================== the inner document

/-- Reserving a place changes the frames only. -/
theorem reserve_keeps {s s' : Scaffold T} (h : s.reserve = .ok s') :
    s'.indent = s.indent ∧ s'.guard = s.guard ∧ s'.placed = s.placed := by
  unfold reserve at h
  split at h
  · split at h
    · cases h
    · cases h
      exact ⟨rfl, rfl, rfl⟩
  · split at h
    · cases h
    · cases h
      exact ⟨rfl, rfl, rfl⟩

/-- A seat is ready for a task of this depth on its own line. -/
theorem seat_keeps {depth : Nat} {s s' : Scaffold T}
    (h : s.seat depth = .ok s') :
    s'.indent = depth ∧ s'.guard = none ∧ s'.placed = true := by
  obtain ⟨s₁, hroom, hreserve⟩ := bind_eq_ok h
  obtain ⟨hindent, hguard, -, hplaced⟩ := makeRoom_keeps hroom
  obtain ⟨hindent', hguard', hplaced'⟩ := reserve_keeps hreserve
  exact ⟨hindent'.trans hindent, hguard'.trans hguard, hplaced'.trans hplaced⟩

/-- A task is placed with the guard that waited for it. -/
theorem take_task_eq {statement : Statement} (htask : statement.isGuard = false)
    {s : Scaffold T} {b : Blueprint T}
    (hbuild : dialect.build statement = .ok b)
    (hfree : s.guard = none ∨ b.guard = none) :
    s.take dialect statement
      = ({ s with guard := none } : Scaffold T).makeRoom
        >>= fun s₁ => s₁.openTask (b.guardedBy s.guard) := by
  unfold take
  rw [hbuild]
  simp only [bind, Except.bind]
  rw [withGuard_eq_ok_iff.2 ⟨hfree, rfl⟩]
  dsimp only
  rw [htask]
  rfl

/-- One statement on a line is a seat and what it holds. -/
theorem takeLine_singleton (depth : Nat) (statement : Statement)
    (s : Scaffold T) :
    s.takeLine dialect { indent := depth, statements := [statement] }
      = ({ s with indent := depth, placed := false } : Scaffold T).take dialect
        statement := by
  unfold takeLine
  exact (List.foldlM_cons ..).trans (bind_pure _)

/-- A line with one task. -/
theorem takeLine_task {statement : Statement}
    (htask : statement.isGuard = false) {depth : Nat} {s : Scaffold T}
    (hnone : s.guard = none) {b : Blueprint T}
    (hbuild : dialect.build statement = .ok b) :
    s.takeLine dialect { indent := depth, statements := [statement] }
      = (s.seat depth).map (hold depth b) := by
  have hplaced :=
    take_task_eq (s := { s with indent := depth, placed := false }) htask hbuild
      (.inl hnone)
  dsimp only at hplaced
  rw [takeLine_singleton, hplaced, ← seat_map_hold, hnone]
  rfl

/-- The first task of a line takes its seat. -/
theorem takePlaced_eq {x : Placed} (htask : x.statement.isGuard = false)
    {s : Scaffold T} {b : Blueprint T}
    (hbuild : dialect.build x.statement = .ok b)
    (hfree : s.guard = none ∨ b.guard = none) :
    s.takePlaced dialect none x
      = (s.seat x.indent).map (hold x.indent (b.guardedBy s.guard)) := by
  rw [← seat_map_hold]
  exact take_task_eq htask hbuild hfree

/-- The first task of all has a seat. -/
theorem seat_of_empty {s : Scaffold T} (hframes : s.frames = [])
    (hroot : s.hasRoot = false) (depth : Nat) :
    s.seat depth
      = .ok { s with hasRoot := true, indent := depth, placed := true,
                     guard := none } := by
  obtain ⟨frames, root, hasRoot, indent, placed, guard, current⟩ := s
  cases hframes
  cases hroot
  have hclose : close depth [] root = .ok ([], root) := by rw [close]
  exact bind_eq_ok_of (makeRoom_of_close rfl hclose) rfl

/-- The first task of the inner document, on top of the seat, is held by the
seat itself. -/
theorem atop_hold {below s : Scaffold T} {depth : Nat} (node : Blueprint T)
    (hindent : below.indent = depth) (hguard : below.guard = none)
    (hplaced : below.placed = true) (hframes : s.frames = []) :
    below.atop depth
        (hold 0 node { s with
                       hasRoot := true, indent := 0, placed := true,
                       guard := none })
      = hold depth node below := by
  obtain ⟨frames, root, hasRoot, indent, placed, guard, current⟩ := below
  cases hindent
  cases hguard
  cases hplaced
  unfold atop hold
  dsimp only
  rw [hframes]
  rfl

/-- The inner document is taken in on top of other tasks if there is a seat for
its root. By induction on the row. Until its first task the inner document has
opened nothing, and from there on it lies on top of the seat. -/
theorem takeAll_deeper {row : List Placed} {s s' t : Scaffold T} (depth : Nat)
    (hflat : ∀ x, firstTask row = some x → x.indent = 0)
    (hframes : s.frames = []) (hroot : s.hasRoot = false)
    (hguard : t.guard = s.guard) (h : s.takeAll dialect none row = .ok s')
    (hleft : s'.frames ≠ []) :
    t.takeAll dialect none (row.map (Placed.deeper depth))
      = (t.seat depth).map fun below => below.atop depth s' := by
  induction row generalizing s t with
  | nil =>
      cases h
      exact absurd hframes hleft
  | cons x row ih =>
      rw [List.map_cons, takeAll]
      rw [takeAll] at h
      obtain ⟨s₁, hs₁, h⟩ := bind_eq_ok h
      cases hstatement : x.statement.isGuard with
      -- A guard waits here as it waits there, and the seat does not depend on
      -- it.
      | true =>
          obtain ⟨b, hb, hfree, hready, rfl⟩ :=
            (take_guard_eq_ok_iff hstatement).1 hs₁
          have hwaits : t.takePlaced dialect none (x.deeper depth)
              = .ok { t.within none x.line (depth + x.indent) with
                guard := some (b.guardedBy t.guard) } :=
            (take_guard_eq_ok_iff hstatement).2
              ⟨b, hb, hguard ▸ hfree, hready, rfl⟩
          have hline : lineAfter none x = none := if_pos hstatement
          have hline' : lineAfter none (x.deeper depth) = none :=
            if_pos hstatement
          rw [firstTask_cons_of_guard hstatement] at hflat
          rw [hline] at h
          rw [hwaits, hline']
          refine ih hflat ?_ ?_ ?_ h
          · exact hframes
          · exact hroot
          · exact congrArg (fun waiting => some (b.guardedBy waiting)) hguard
      | false =>
          -- The first task stands all the way out, so moved in it stands at the
          -- depth itself.
          have hzero : x.indent = 0 :=
            hflat x (firstTask_cons_of_task hstatement)
          obtain ⟨b, hb, hfree, -⟩ := (take_task_eq_ok_iff hstatement).1 hs₁
          have hfree : s.guard = none ∨ b.guard = none := hfree
          have hplaced : t.takePlaced dialect none (x.deeper depth)
              = (t.seat (depth + x.indent)).map
                (hold (depth + x.indent) (b.guardedBy t.guard)) :=
            takePlaced_eq (x := x.deeper depth) hstatement hb (hguard ▸ hfree)
          rw [hzero, Nat.add_zero, hguard] at hplaced
          rw [takePlaced_eq hstatement hb hfree, hzero,
            seat_of_empty hframes hroot] at hs₁
          cases hs₁
          have hline : ∀ y : Placed, y.statement.isGuard = false →
              lineAfter none y = some y.line :=
            fun y hy => if_neg (by rw [hy]; exact Bool.false_ne_true)
          rw [hplaced, hline (x.deeper depth) hstatement]
          rw [hline x hstatement] at h
          -- If the outer document has no seat for it, both fail.
          cases hseat : t.seat depth with
          | error fault => rfl
          | ok below =>
              obtain ⟨hindent, hnone, hplaced⟩ := seat_keeps hseat
              show (hold depth (b.guardedBy s.guard) below).takeAll _ _ _
                  = .ok _
              rw [← atop_hold _ hindent hnone hplaced hframes]
              exact atop_takeAll below depth rfl h

-- =================================================== the outer document

/-- Scaffolds that come to the same once a task is placed, or the document
ends, no deeper than `depth`. -/
structure Alike (depth : Nat) (s s' : Scaffold T) : Prop where
  close : ∀ indent ≤ depth,
    Scaffold.close indent s.frames s.root
      = Scaffold.close indent s'.frames s'.root
  hasRoot : s.hasRoot = s'.hasRoot
  guard : s.guard = s'.guard
  current : s.current = s'.current

/-- Alikeness does not depend on the order. -/
theorem Alike.symm {depth : Nat} {s s' : Scaffold T} (h : Alike depth s s') :
    Alike depth s' s :=
  ⟨fun indent hle => (h.close indent hle).symm, h.hasRoot.symm, h.guard.symm,
    h.current.symm⟩

/-- Alike scaffolds have the same seats, at the depth or further out. -/
theorem Alike.seat {depth indent : Nat} {s s' : Scaffold T}
    (h : Alike depth s s') (hle : indent ≤ depth) :
    s.seat indent = s'.seat indent := by
  unfold Scaffold.seat Scaffold.makeRoom
  dsimp only
  rw [if_neg Bool.false_ne_true, if_neg Bool.false_ne_true, h.close indent hle,
    h.hasRoot, h.current]

/-- They finish alike. -/
theorem Alike.finish {depth : Nat} {s s' : Scaffold T} (h : Alike depth s s') :
    s.finish = s'.finish := by
  unfold Scaffold.finish
  rw [h.guard, h.close 0 (Nat.zero_le _)]

/-- The outer document goes on no deeper than `depth`, and there it finds alike
what is alike. By induction on the row. Guards leave the scaffolds alike; the
first task comes to the same seat in both, and from there on they are the same.
-/
theorem Alike.takeAll_finish {depth : Nat} {row : List Placed}
    {s s' : Scaffold T} (h : Alike depth s s')
    (hfirst : ∀ x, firstTask row = some x → x.indent ≤ depth)
    {root : Blueprint T}
    (hroot : s.takeAll dialect none row >>= Scaffold.finish = .ok root) :
    s'.takeAll dialect none row >>= Scaffold.finish = .ok root := by
  induction row generalizing s s' with
  | nil => exact h.finish.symm.trans hroot
  | cons x row ih =>
      rw [takeAll, bind_assoc] at hroot ⊢
      obtain ⟨s₁, hs₁, hroot⟩ := bind_eq_ok hroot
      cases hstatement : x.statement.isGuard with
      | true =>
          obtain ⟨b, hb, hfree, hready, rfl⟩ :=
            (take_guard_eq_ok_iff hstatement).1 hs₁
          have hwaits : s'.takePlaced dialect none x
              = .ok { s'.within none x.line x.indent with
                      guard := some (b.guardedBy s'.guard) } :=
            (take_guard_eq_ok_iff hstatement).2
              ⟨b, hb, h.guard ▸ hfree, hready, rfl⟩
          have hline : lineAfter none x = none := if_pos hstatement
          have hwaiting : Alike depth
              { s.within none x.line x.indent with
                guard := some (b.guardedBy s.guard) }
              { s'.within none x.line x.indent with
                guard := some (b.guardedBy s'.guard) } :=
            ⟨h.close, h.hasRoot,
              congrArg (fun waiting => some (b.guardedBy waiting)) h.guard,
              h.current⟩
          rw [firstTask_cons_of_guard hstatement] at hfirst
          rw [hline] at hroot
          rw [hwaits, hline]
          exact ih hwaiting hfirst hroot
      | false =>
          have hle : x.indent ≤ depth :=
            hfirst x (firstTask_cons_of_task hstatement)
          obtain ⟨b, hb, hfree, -⟩ := (take_task_eq_ok_iff hstatement).1 hs₁
          have hfree : s.guard = none ∨ b.guard = none := hfree
          rw [takePlaced_eq hstatement hb hfree, h.seat hle, h.guard] at hs₁
          have hplaced :=
            (takePlaced_eq hstatement hb (h.guard ▸ hfree)).trans hs₁
          exact bind_eq_ok_of hplaced hroot

/-- The inner document as a whole is alike the tree that it gives. -/
theorem alike_atop {s t : Scaffold T} {tree : Blueprint T} (depth : Nat)
    (hleft : s.frames ≠ []) (hfinish : s.finish = .ok tree)
    (hguard : t.guard = none) :
    Alike depth (t.atop depth s) (t.hold depth tree) := by
  unfold finish at hfinish
  split at hfinish
  · cases hfinish
  · rename_i hnone
    split at hfinish
    · cases hfinish
    · cases hfinish
    · rename_i hclose
      cases hfinish
      refine ⟨fun indent hle => ?_, rfl, hnone.trans hguard.symm, rfl⟩
      exact close_atop_of_all t.frames t.root _ hleft hclose hle

-- ============================================================ the splice

/-- The first line, and the others. -/
theorem takeLines_cons (line : Line) (lines : List Line) (s : Scaffold T) :
    s.takeLines dialect (line :: lines)
      = s.takeLine dialect line >>= fun s => s.takeLines dialect lines :=
  List.foldlM_cons ..

/-- Lines in two parts. -/
theorem takeLines_append (before after : List Line) (s : Scaffold T) :
    s.takeLines dialect (before ++ after)
      = s.takeLines dialect before >>= fun s => s.takeLines dialect after :=
  List.foldlM_append

/-- Behind some lines the last task stands on one of them or on an earlier
one. -/
theorem foldl_lineAfter_spread_lt (lines : List Line) {number : Nat}
    {last : Option Nat} (h : ∀ m, last = some m → m < number) :
    ∀ m, (spread number lines).foldl lineAfter last = some m →
      m < number + lines.length := by
  induction lines generalizing number last with
  | nil => exact h
  | cons line lines ih =>
      rw [spread, List.foldl_append, List.length_cons, ← Nat.add_assoc,
        Nat.add_right_comm]
      exact ih (foldl_lineAfter_lt line fun m hm => Nat.lt_succ_of_lt (h m hm))

/-- A task that was opened is open. -/
theorem openTask_frames {s s' : Scaffold T} {node : Blueprint T}
    (h : s.openTask node = .ok s') :
    s'.frames ≠ [] := by
  rw [openTask_eq] at h
  cases hreserve : s.reserve with
  | error fault =>
      rw [hreserve] at h
      cases h
  | ok s₁ =>
      rw [hreserve] at h
      cases h
      exact List.cons_ne_nil _ _

/-- Tasks that were taken in are open, or else there were none. By induction on
the row. A guard opens nothing, and a task leaves at least itself open. -/
theorem takeAll_frames {row : List Placed} {last : Option Nat}
    {s s' : Scaffold T} (h : s.takeAll dialect last row = .ok s') :
    s'.frames ≠ [] ∨ s'.frames = s.frames ∧ s'.root = s.root := by
  induction row generalizing last s with
  | nil =>
      cases h
      exact .inr ⟨rfl, rfl⟩
  | cons x row ih =>
      rw [takeAll] at h
      obtain ⟨s₁, hs₁, h⟩ := bind_eq_ok h
      cases hstatement : x.statement.isGuard with
      | true =>
          obtain ⟨b, -, -, -, rfl⟩ := (take_guard_eq_ok_iff hstatement).1 hs₁
          rcases ih h with hleft | hsame
          · exact .inl hleft
          · exact .inr hsame
      | false =>
          obtain ⟨b, -, -, hplace⟩ := (take_task_eq_ok_iff hstatement).1 hs₁
          obtain ⟨s₂, -, hopen⟩ := bind_eq_ok hplace
          have hopened := openTask_frames hopen
          rcases ih h with hleft | ⟨hframes, -⟩
          · exact .inl hleft
          · exact .inl (hframes ▸ hopened)

/-- A document that gives a tree ends with the tree still open. -/
theorem frames_ne_nil_of_finish {row : List Placed} {s : Scaffold T}
    {tree : Blueprint T}
    (h : (empty : Scaffold T).takeAll dialect none row = .ok s)
    (hfinish : s.finish = .ok tree) :
    s.frames ≠ [] := by
  rcases takeAll_frames h with hleft | ⟨hframes, hroot⟩
  · exact hleft
  · have hnothing : close 0 s.frames s.root = .ok ([], none) := by
      rw [hframes, hroot]
      exact close.eq_def ..
    unfold finish at hfinish
    rw [hnothing] at hfinish
    split at hfinish <;> cases hfinish

/-- A document inside another one is as good as the tree that it gives. -/
theorem takeLines_splice {inner outer : List Line} {depth : Nat}
    {tree root : Blueprint T} {s : Scaffold T}
    (hinner : (empty : Scaffold T).takeLines dialect inner
      >>= finish = .ok tree)
    (hflat : ∀ x, firstTask (spread 0 inner) = some x → x.indent = 0)
    (houter : ∀ x, firstTask (spread 0 outer) = some x → x.indent ≤ depth)
    (hguard : s.guard = none) :
    s.takeLines dialect (inner.map (Line.deeper depth) ++ outer)
      >>= finish = .ok root ↔
      (s.seat depth).map (hold depth tree)
        >>= (fun s => s.takeLines dialect outer) >>= finish
        = .ok root := by
  have hnone : ∀ m, (none : Option Nat) = some m → m < 0 :=
    fun m hm => nomatch hm
  -- The inner document on its own, then moved in on top of the outer one.
  rw [takeLines_finish inner hnone] at hinner
  obtain ⟨s', hs', hfinish⟩ := bind_eq_ok hinner
  have hleft := frames_ne_nil_of_finish hs' hfinish
  have hdeeper := takeAll_deeper depth hflat rfl rfl hguard hs' hleft
  rw [takeLines_finish _ hnone, spread_append, takeAll_append, spread_deeper,
    hdeeper, bind_assoc]
  -- Without a seat neither side gives a tree.
  cases hseat : s.seat depth with
  | error fault => exact Iff.rfl
  | ok below =>
      have hlast :=
        foldl_lineAfter_spread_lt (inner.map (Line.deeper depth)) hnone
      rw [spread_deeper] at hlast
      -- What the outer document has then is alike to the tree that was held at
      -- once: closing further out closes the whole inner document.
      have halike := alike_atop depth hleft hfinish (seat_keeps hseat).2.1
      show (below.atop depth s').takeAll dialect _ _ >>= finish = .ok root ↔
        (below.hold depth tree).takeLines dialect outer >>= finish = .ok root
      rw [← takeLines_finish outer hlast, takeLines_finish outer hnone,
        takeLines_finish outer hnone]
      exact ⟨halike.takeAll_finish houter, halike.symm.takeAll_finish houter⟩

end Scaffold

end TaskTree.Outline
