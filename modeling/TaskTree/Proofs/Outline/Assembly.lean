/-
The scaffold puts the declared tree together.

The open frames are known by the numbers of their tasks. At every moment
the tree that will come out is known already, if one comes out at all: each
open task gets the task that stands open inside it and those of the later
ones that name it as their parent (`sealed`), and what can still go wrong
is that it takes too few or too many of them (`Fits`). Neither closing nor
opening a task changes anything about this, and at the end of the document
it is what `finish` looks for.
-/
import TaskTree.Proofs.Outline.Flattening
import TaskTree.Proofs.Outline.Nesting

namespace TaskTree.Outline

variable {E T : Type} [Behavior E T] {dialect : Dialect T}

-- ============================================================ open tasks

/-- The frames of open tasks, innermost first, with the numbers of the
tasks. -/
abbrev Stack (T : Type) := List (Nat × Frame T)

/-- The numbers and indentations of open tasks. -/
def Stack.keys (stack : Stack T) : List (Nat × Nat) :=
  stack.map fun x => (x.1, x.2.indent)

/-- The frames of open tasks. -/
def Stack.frames (stack : Stack T) : List (Frame T) := stack.map (·.2)

/-- Every frame counts the children of its task, and the one that is still
open; it would have been refused if it were one too many. `inner` is 1 for a
task with another one open inside it. -/
def Counted : Nat → Stack T → Prop
  | _, [] => True
  | inner, (_, frame) :: outer =>
    frame.children = frame.node.children.length + inner
      ∧ (∀ limit, frame.node.arity.most = some limit → 0 < inner →
          frame.node.children.length + inner ≤ limit)
      ∧ Counted 1 outer

/-- What becomes of the outermost open task when the entries that are still
to come have been placed. -/
def sealed (later : List (Entry T)) :
    Option (Blueprint T) → Stack T → Option (Blueprint T)
  | inner, [] => inner
  | inner, (number, frame) :: outer =>
    sealed later
      (some (frame.node.withMore (inner.toList ++ below number later))) outer

/-- Every open task takes the children that it will get. -/
def Fits (later : List (Entry T)) : Nat → Stack T → Prop
  | _, [] => True
  | inner, (number, frame) :: outer =>
    frame.node.Takes (inner + (below number later).length) ∧ Fits later 1 outer

/-- Every task that is still to come takes the children that it will
get. -/
def Fulfilled : List (Entry T) → Prop
  | [] => True
  | e :: later => e.node.Takes (below e.number later).length ∧ Fulfilled later

/-- A frame whose task has one more child. -/
def Frame.holding (frame : Frame T) (child : Blueprint T) : Frame T :=
  { frame with node := frame.node.withMore [child] }

/-- Holding a child makes the list of children one longer. -/
theorem Frame.holding_length (frame : Frame T) (child : Blueprint T) :
    (frame.holding child).node.children.length
      = frame.node.children.length + 1 :=
  List.length_append

/-- A child for which there is room is added without complaint. -/
theorem addChild_eq_ok {frame : Frame T} {child : Blueprint T}
    (hroom : ∀ limit, frame.node.arity.most = some limit →
      frame.node.children.length + 1 ≤ limit) :
    frame.addChild child = .ok (frame.holding child) := by
  unfold Frame.addChild Blueprint.addChild
  rw [Arity.exceeded?_eq_none_iff.2 hroom]
  rfl

-- ================================================================ closing

/-- Closing one task into the one around it changes nothing about what
comes out. -/
theorem Fits.close_iff {later : List (Entry T)} {number : Nat}
    {frame outer : Frame T} (outerNumber : Nat) (others : Stack T)
    (hdone : below number later = [])
    (hready : frame.node.arity.least ≤ frame.node.children.length)
    (hroom : ∀ limit, outer.node.arity.most = some limit →
      outer.node.children.length + 1 ≤ limit) :
    Fits later 0 ((outerNumber, outer.holding frame.node) :: others) ↔
      Fits later 0 ((number, frame) :: (outerNumber, outer) :: others) := by
  have hlength := outer.holding_length frame.node
  have harity : (outer.holding frame.node).node.arity = outer.node.arity := rfl
  simp only [Fits]
  rw [hdone]
  constructor
  -- The closed task has its children already, so only its parent's count moves:
  -- the child that counted as still to come is now held.
  · intro h
    obtain ⟨⟨hleast, hmost⟩, hothers⟩ := h
    rw [hlength, harity] at hleast
    rw [hlength, harity] at hmost
    refine ⟨⟨hready, fun limit hlimit hpos => absurd hpos (Nat.lt_irrefl 0)⟩,
      ⟨?_, ?_⟩, hothers⟩
    · omega
    · intro limit hlimit _
      -- Below a parent with no further child the bound is the room made at the
      -- opening; otherwise it is the bound on all children to come.
      have hle := hroom limit hlimit
      by_cases hpos : 0 < (below outerNumber later).length
      · have := hmost limit hlimit (by omega)
        omega
      · omega
  · intro h
    obtain ⟨-, ⟨hleast, hmost⟩, hothers⟩ := h
    refine ⟨⟨?_, ?_⟩, hothers⟩
    · rw [hlength, harity]
      omega
    · rw [hlength, harity]
      intro limit hlimit hpos
      have := hmost limit hlimit (by omega)
      omega

/-- What the open tasks become at the end does not change when one of them is
handed to its parent. -/
theorem sealed_close {later : List (Entry T)} {number : Nat} (outerNumber : Nat)
    (frame outer : Frame T) (others : Stack T)
    (hdone : below number later = []) :
    sealed later none ((outerNumber, outer.holding frame.node) :: others)
      = sealed later none
        ((number, frame) :: (outerNumber, outer) :: others) := by
  simp only [sealed, Frame.holding, Option.toList_none, Option.toList_some,
    List.nil_append]
  rw [hdone, Blueprint.withMore_nil, Blueprint.withMore_withMore]

/-- An open task indented less than the line stays open, and all outer tasks
with it. -/
theorem dropWhile_keys_of_lt {indent number : Nat} {frame : Frame T}
    {outer : Stack T} (h : frame.indent < indent) :
    (Stack.keys ((number, frame) :: outer)).dropWhile (fun x => indent ≤ x.2)
      = Stack.keys ((number, frame) :: outer) := by
  rw [Stack.keys, List.map_cons, List.dropWhile_cons, if_neg (by simpa using h)]

/-- An open task indented at least as far as the line is dropped. -/
theorem dropWhile_keys_of_not_lt {indent number : Nat} {frame : Frame T}
    {outer : Stack T} (h : ¬ frame.indent < indent) :
    (Stack.keys ((number, frame) :: outer)).dropWhile (fun x => indent ≤ x.2)
      = outer.keys.dropWhile fun x => indent ≤ x.2 := by
  rw [Stack.keys, List.map_cons, List.dropWhile_cons, if_pos (by simpa using h)]
  rfl

/-- A dropped task is named first among those that the line closes. -/
theorem takeWhile_keys_of_not_lt {indent number : Nat} {frame : Frame T}
    {outer : Stack T} (h : ¬ frame.indent < indent) :
    (Stack.keys ((number, frame) :: outer)).takeWhile (fun x => indent ≤ x.2)
      = (number, frame.indent) :: outer.keys.takeWhile fun x =>
        indent ≤ x.2 := by
  rw [Stack.keys, List.map_cons, List.takeWhile_cons, if_pos (by simpa using h)]
  rfl

/-- What closing the tasks that are indented at least `indent` deep makes
of a stack. -/
structure Closes (later : List (Entry T)) (indent : Nat)
    (stack stack' : Stack T) (root : Option (Blueprint T)) : Prop where
  counted : Counted 0 stack'
  keys : stack'.keys = stack.keys.dropWhile fun x => indent ≤ x.2
  fits : Fits later 0 stack' ↔ Fits later 0 stack
  same : stack' ≠ [] → sealed later none stack' = sealed later none stack
  finished : stack ≠ [] → stack' = [] → root = sealed later none stack

/-- Closing tasks that get no more children succeeds if every open task takes
the children that it will get, and fails only if one does not. By induction
along the recursion of `Scaffold.close`, from the innermost open task outwards;
`Counted` carries the room that every outer task keeps for the child that is
open inside it. -/
theorem close_spec {later : List (Entry T)} {indent : Nat} {stack : Stack T}
    (hcounted : Counted 0 stack)
    (hdone : ∀ x ∈ stack.keys.takeWhile (fun x => indent ≤ x.2),
      below x.1 later = [])
    (root : Option (Blueprint T)) :
    (∃ stack' root',
      Scaffold.close indent stack.frames root = .ok (stack'.frames, root')
        ∧ Closes later indent stack stack' root')
      ∨ (∃ fault, Scaffold.close indent stack.frames root = .error fault)
        ∧ ¬ Fits later 0 stack := by
  generalize hframes : stack.frames = frames
  fun_induction Scaffold.close indent frames root generalizing stack with
  | case1 =>
      obtain rfl : stack = [] := List.map_eq_nil_iff.1 hframes
      exact .inl ⟨[], root, rfl, trivial, rfl, Iff.rfl, fun h => absurd rfl h,
        fun h => absurd rfl h⟩
  -- The task stays open: nothing is closed any more.
  | case2 frame rest hlt =>
      obtain ⟨⟨number, frame⟩, rest, rfl, rfl, rfl⟩ :=
        List.map_eq_cons_iff.1 hframes
      exact .inl ⟨(number, frame) :: rest, root, rfl, hcounted,
        (dropWhile_keys_of_lt hlt).symm, Iff.rfl, fun _ => rfl,
        fun _ h => absurd h (List.cons_ne_nil _ _)⟩
  -- No later task names the closed one, so the children that it lacks now it
  -- would lack at the end.
  | case3 frame rest hlt fault hlacks =>
      obtain ⟨⟨number, frame⟩, rest, rfl, rfl, rfl⟩ :=
        List.map_eq_cons_iff.1 hframes
      rw [takeWhile_keys_of_not_lt hlt] at hdone
      refine .inr ⟨⟨fault, rfl⟩, fun hfits => ?_⟩
      have hleast := hfits.1.least
      rw [hdone _ List.mem_cons_self] at hleast
      rw [Scaffold.ensureChildren_eq_ok_iff.2 hleast] at hlacks
      cases hlacks
  -- The outermost task closes, and its node is the finished root.
  | case4 frame hlt hready =>
      obtain ⟨⟨number, frame⟩, rest, rfl, rfl, hrest⟩ :=
        List.map_eq_cons_iff.1 hframes
      obtain rfl : rest = [] := List.map_eq_nil_iff.1 hrest
      rw [takeWhile_keys_of_not_lt hlt] at hdone
      have hnone := hdone _ List.mem_cons_self
      have hfits : Fits later 0 [(number, frame)] := by
        refine ⟨⟨?_, fun limit hlimit hpos => ?_⟩, trivial⟩
        · rw [hnone]
          exact Scaffold.ensureChildren_eq_ok_iff.1 hready
        · rw [hnone] at hpos
          exact absurd hpos (Nat.lt_irrefl 0)
      have hkeys : (Stack.keys [(number, frame)]).dropWhile
          (fun x => indent ≤ x.2) = [] :=
        dropWhile_keys_of_not_lt hlt
      refine .inl ⟨[], some frame.node, rfl, trivial, hkeys.symm,
        iff_of_true trivial hfits, fun h => absurd rfl h, fun _ _ => ?_⟩
      simp only [sealed, Option.toList_none, List.nil_append]
      rw [hnone, Blueprint.withMore_nil]
  -- The outer task made room for this child when it was opened.
  | case5 frame hlt hready outer others fault hfull =>
      obtain ⟨⟨number, frame⟩, rest, rfl, rfl, hrest⟩ :=
        List.map_eq_cons_iff.1 hframes
      obtain ⟨⟨outerNumber, outer⟩, others, rfl, rfl, rfl⟩ :=
        List.map_eq_cons_iff.1 hrest
      obtain ⟨-, -, -, hroom, -⟩ := hcounted
      rw [addChild_eq_ok fun limit hlimit =>
          hroom limit hlimit Nat.one_pos] at hfull
      cases hfull
  -- The task moves into its parent, which changes neither what fits nor what
  -- the stack becomes, and closing goes on from there.
  | case6 frame hlt hready outer others outer' hadd ih =>
      obtain ⟨⟨number, frame⟩, rest, rfl, rfl, hrest⟩ :=
        List.map_eq_cons_iff.1 hframes
      obtain ⟨⟨outerNumber, outer⟩, others, rfl, rfl, rfl⟩ :=
        List.map_eq_cons_iff.1 hrest
      obtain ⟨-, -, hcount, hroom, hothers⟩ := hcounted
      have hroom := fun limit hlimit => hroom limit hlimit Nat.one_pos
      rw [addChild_eq_ok hroom] at hadd
      cases hadd
      rw [takeWhile_keys_of_not_lt hlt] at hdone
      have hnone := hdone _ List.mem_cons_self
      have hleast := Scaffold.ensureChildren_eq_ok_iff.1 hready
      have hcounted' : Counted 0
          ((outerNumber, outer.holding frame.node) :: others) :=
        ⟨hcount.trans (outer.holding_length frame.node).symm,
          fun _ _ h => absurd h (Nat.lt_irrefl 0), hothers⟩
      have hfits := Fits.close_iff outerNumber others hnone hleast hroom
      have hsealed := sealed_close outerNumber frame outer others hnone
      rcases ih hcounted'
        (fun x hx => hdone x (List.mem_cons_of_mem _ hx)) rfl with
          ⟨stack', root', hclose, hcloses⟩ | ⟨hfault, hmisfit⟩
      · refine .inl ⟨stack', root', hclose, hcloses.counted,
          hcloses.keys.trans (dropWhile_keys_of_not_lt hlt).symm,
          hcloses.fits.trans hfits, fun h => (hcloses.same h).trans hsealed,
          fun _ h => (hcloses.finished (List.cons_ne_nil _ _) h).trans hsealed⟩
      · exact .inr ⟨hfault, fun h => hmisfit (hfits.2 h)⟩

-- ================================================================ opening

/-- A task that names another parent leaves the children of a number alone. -/
theorem below_cons_of_ne {e : Entry T} {later : List (Entry T)} {number : Nat}
    (h : e.parent ≠ some number) :
    below number (e :: later) = below number later := by
  rw [below, if_neg h]

/-- The children of a task's parent begin with the task, and its own children
are inside it. -/
theorem below_cons_of_eq {e : Entry T} {later : List (Entry T)} {number : Nat}
    (h : e.parent = some number) :
    below number (e :: later)
      = e.node.withMore (below e.number later) :: below number later := by
  rw [below, if_pos h]

/-- An entry is of no concern to tasks that it does not name. -/
theorem Fits.cons_iff {e : Entry T} {later : List (Entry T)} {stack : Stack T}
    {inner : Nat} (h : ∀ x ∈ stack, e.parent ≠ some x.1) :
    Fits (e :: later) inner stack ↔ Fits later inner stack := by
  induction stack generalizing inner with
  | nil => exact Iff.rfl
  | cons x stack ih =>
      simp only [Fits]
      rw [below_cons_of_ne (h x List.mem_cons_self),
        ih fun y hy => h y (List.mem_cons_of_mem _ hy)]

/-- A task that names none of the open tasks leaves what they become alone. -/
theorem sealed_cons {e : Entry T} {later : List (Entry T)} {stack : Stack T}
    {inner : Option (Blueprint T)} (h : ∀ x ∈ stack, e.parent ≠ some x.1) :
    sealed (e :: later) inner stack = sealed later inner stack := by
  induction stack generalizing inner with
  | nil => rfl
  | cons x stack ih =>
      simp only [sealed]
      rw [below_cons_of_ne (h x List.mem_cons_self),
        ih fun y hy => h y (List.mem_cons_of_mem _ hy)]

section

variable {later : List (Entry T)} {number : Nat} {outer : Frame T}
  {others : Stack T} (e : Entry T) (frame outer' : Frame T)

/-- Opening a task inside the innermost one changes nothing about what
comes out, unless the innermost one is full. -/
theorem Fits.open_iff (hparent : e.parent = some number)
    (hothers : ∀ x ∈ others, e.parent ≠ some x.1) (hnode : frame.node = e.node)
    (houter : outer'.node = outer.node) :
    Fits (e :: later) 0 ((number, outer) :: others)
      ∧ e.node.Takes (below e.number later).length ↔
      (∀ limit, outer.node.arity.most = some limit →
        outer.node.children.length + 1 ≤ limit)
        ∧ Fits later 0 ((e.number, frame) :: (number, outer') :: others) := by
  -- The parent takes one child fewer from the tasks to come and holds one more,
  -- which is the same total on both sides.
  simp only [Fits]
  rw [below_cons_of_eq hparent, List.length_cons, hnode, houter,
    Fits.cons_iff hothers, Nat.zero_add, Nat.zero_add]
  constructor
  · intro h
    obtain ⟨⟨⟨hleast, hmost⟩, hrest⟩, htakes⟩ := h
    refine ⟨fun limit hlimit => ?_, htakes, ⟨?_, fun limit hlimit _ => ?_⟩,
      hrest⟩
    · have := hmost limit hlimit (Nat.succ_pos _)
      omega
    · omega
    · have := hmost limit hlimit (Nat.succ_pos _)
      omega
  · intro h
    obtain ⟨hroom, htakes, ⟨hleast, hmost⟩, hrest⟩ := h
    refine ⟨⟨⟨?_, fun limit hlimit _ => ?_⟩, hrest⟩, htakes⟩
    · omega
    · have := hmost limit hlimit (by omega)
      omega

/-- Opening a task inside its parent leaves unchanged what the stack becomes. -/
theorem sealed_open (hparent : e.parent = some number)
    (hothers : ∀ x ∈ others, e.parent ≠ some x.1) (hnode : frame.node = e.node)
    (houter : outer'.node = outer.node) :
    sealed later none ((e.number, frame) :: (number, outer') :: others)
      = sealed (e :: later) none ((number, outer) :: others) := by
  simp only [sealed]
  rw [below_cons_of_eq hparent, hnode, houter, sealed_cons hothers]
  rfl

end

-- ============================================================ whole rows

/-- The state of a scaffold after some tasks, of which those on the stack
are open. -/
structure Stands (before : List (Sited T)) (stack : Stack T)
    (s : Scaffold T) : Prop where
  frames : s.frames = stack.frames
  keys : stack.keys = openTasks before
  counted : Counted 0 stack
  hasRoot : s.hasRoot = true
  guard : s.guard = none

/-- A second statement of a line makes no room: the first one did. -/
theorem makeRoom_of_placed {s : Scaffold T} (h : s.placed = true) :
    s.makeRoom = .ok s := by
  unfold Scaffold.makeRoom
  rw [if_pos h]

/-- The first task of a line closes the tasks that are indented as far. -/
theorem makeRoom_of_close {s : Scaffold T} {frames : List (Frame T)}
    {root : Option (Blueprint T)} (h : s.placed = false)
    (hclose : Scaffold.close s.indent s.frames s.root = .ok (frames, root)) :
    s.makeRoom = .ok { s with frames, root, placed := true } := by
  unfold Scaffold.makeRoom
  rw [h, hclose]
  rfl

/-- A task that cannot be closed is the fault of the line that closes it. -/
theorem makeRoom_of_fault {s : Scaffold T} {fault : BuildFault}
    (h : s.placed = false)
    (hclose : Scaffold.close s.indent s.frames s.root = .error fault) :
    s.makeRoom = .error fault := by
  unfold Scaffold.makeRoom
  rw [h, hclose]
  rfl

/-- The state of a scaffold in which a task has made room for itself, with
the stack that there was before. -/
structure Roomy (before : List (Sited T)) (task : Sited T)
    (later : List (Entry T)) (stack stack' : Stack T)
    (s : Scaffold T) : Prop where
  frames : s.frames = stack'.frames
  keys : stack'.keys = around before task
  counted : Counted 0 stack'
  hasRoot : s.hasRoot = true
  guard : s.guard = none
  indent : s.indent = task.indent
  fits : Fits later 0 stack' ↔ Fits later 0 stack
  same : stack' ≠ [] → sealed later none stack' = sealed later none stack

/-- Making room closes tasks that get no more children. It fails only if one of
them lacks some. Only the first task of a line closes anything, and a later one
finds the stack as that one left it. -/
theorem makeRoom_spec {before : List (Sited T)} {stack : Stack T}
    {s : Scaffold T} (h : Stands before stack s) (task : Sited T)
    (tasks : List (Sited T)) :
    (∃ stack' s',
      (s.within (before.head?.map (·.line)) task.line task.indent).makeRoom
        = .ok s'
        ∧ Roomy before task (entries before (task :: tasks)) stack stack' s')
      ∨ (∃ fault,
        (s.within (before.head?.map (·.line)) task.line task.indent).makeRoom
            = .error fault)
        ∧ ¬ Fits (entries before (task :: tasks)) 0 stack := by
  by_cases hsame : hasTask task.line before
  · have hplaced :
        (s.within (before.head?.map (·.line)) task.line task.indent).placed
          = true :=
      decide_eq_true hsame
    rw [makeRoom_of_placed hplaced]
    refine .inl ⟨stack, _, rfl, h.frames, ?_, h.counted, h.hasRoot, h.guard,
      rfl, Iff.rfl, fun _ => rfl⟩
    rw [h.keys, around, if_pos hsame]
  · have hplaced :
        (s.within (before.head?.map (·.line)) task.line task.indent).placed
          = false :=
      decide_eq_false hsame
    -- A closed task is not around the line, so no later task can name it as its
    -- parent.
    have hdone : ∀ x ∈ stack.keys.takeWhile (fun x => task.indent ≤ x.2),
        below x.1 (entries before (task :: tasks)) = [] := by
      intro x hx
      rw [h.keys] at hx
      obtain ⟨hlt, hclosed⟩ := closed_not_mem_around hsame x hx
      exact below_entries_cons_eq_nil hlt hclosed
    have hframes :
        (s.within (before.head?.map (·.line)) task.line task.indent).frames
        = stack.frames := h.frames
    rcases close_spec h.counted hdone s.root with
      ⟨stack', root', hclose, hcloses⟩ | ⟨⟨fault, hclose⟩, hmisfit⟩
    · refine .inl ⟨stack', _, makeRoom_of_close hplaced (hframes ▸ hclose), rfl,
        ?_, hcloses.counted, h.hasRoot, h.guard, rfl, hcloses.fits,
        hcloses.same⟩
      rw [hcloses.keys, h.keys, around, if_neg hsame]
    · exact .inr ⟨⟨fault, makeRoom_of_fault hplaced (hframes ▸ hclose)⟩,
        hmisfit⟩

/-- A document that has come to its end closes what is still open. -/
theorem finish_eq_ok_iff {before : List (Sited T)} {stack : Stack T}
    {s : Scaffold T} (h : Stands before stack s) (hstack : stack ≠ [])
    (root : Blueprint T) :
    s.finish = .ok root
      ↔ Fits [] 0 stack ∧ sealed [] none stack = some root := by
  -- At the end everything is closed, since no indentation is below zero.
  have hdone : ∀ x ∈ stack.keys.takeWhile (fun x => 0 ≤ x.2),
      below x.1 ([] : List (Entry T)) = [] :=
    fun _ _ => rfl
  unfold Scaffold.finish
  rw [h.guard, h.frames]
  dsimp only
  rcases close_spec h.counted hdone s.root with
    ⟨stack', root', hclose, hcloses⟩ | ⟨⟨fault, hclose⟩, hmisfit⟩
  -- Nothing is left open.
  · have hall : stack' = [] := by
      have hkeys : stack'.keys = [] := by
        rw [hcloses.keys, List.dropWhile_eq_nil_iff]
        exact fun x _ => decide_eq_true (Nat.zero_le _)
      exact List.map_eq_nil_iff.1 hkeys
    have hfits : Fits [] 0 stack := hcloses.fits.1 (by rw [hall]; trivial)
    rw [hclose, ← hcloses.finished hstack hall]
    cases root' with
    | none =>
        constructor
        · intro hroot
          cases hroot
        · intro h
          obtain ⟨-, hroot⟩ := h
          cases hroot
    | some tree =>
        constructor
        · intro hroot
          cases hroot
          exact ⟨hfits, rfl⟩
        · intro h
          obtain ⟨-, hroot⟩ := h
          cases hroot
          rfl
  · rw [hclose]
    constructor
    · intro hroot
      cases hroot
    · intro h
      obtain ⟨hfits, -⟩ := h
      exact absurd hfits hmisfit

/-- A task opens inside the innermost open one when that one has room. -/
theorem openTask_of_room {s : Scaffold T} {outer : Frame T}
    {others : List (Frame T)} (hframes : s.frames = outer :: others)
    (hroom : outer.node.arity.exceeded? outer.children = none)
    (b : Blueprint T) :
    s.openTask b = .ok { s with
      frames := { indent := s.indent, node := b, children := b.children.length }
        :: { outer with children := outer.children + 1 } :: others } := by
  unfold Scaffold.openTask
  dsimp only
  rw [hframes]
  dsimp only
  rw [hroom]

/-- A full task takes no further child. -/
theorem openTask_of_full {s : Scaffold T} {outer : Frame T}
    {others : List (Frame T)} (hframes : s.frames = outer :: others)
    (hfull : outer.node.arity.exceeded? outer.children ≠ none)
    (b : Blueprint T) : ∃ fault, s.openTask b = .error fault := by
  obtain ⟨limit, hlimit⟩ := Option.ne_none_iff_exists'.1 hfull
  unfold Scaffold.openTask
  dsimp only
  rw [hframes]
  dsimp only
  rw [hlimit]
  exact ⟨_, rfl⟩

/-- A second task without a parent is refused. -/
theorem openTask_of_hasRoot {s : Scaffold T} (hframes : s.frames = [])
    (hroot : s.hasRoot = true) (b : Blueprint T) :
    s.openTask b = .error .secondRoot := by
  unfold Scaffold.openTask
  dsimp only
  rw [hframes]
  dsimp only
  rw [if_pos hroot]

/-- What opening a task makes of a stack on which it had room made for
itself. -/
structure Opens (before : List (Sited T)) (task : Sited T)
    (row : List (Sited T)) (stack stack' : Stack T)
    (s : Scaffold T) : Prop where
  stands : Stands (task :: before) stack' s
  nonempty : stack' ≠ []
  child : parent? before task ≠ none
  fits : Fits (entries (task :: before) row) 0 stack' ↔
    Fits (entries before (task :: row)) 0 stack
      ∧ task.node.Takes
        (below before.length (entries (task :: before) row)).length
  same : sealed (entries (task :: before) row) none stack'
    = sealed (entries before (task :: row)) none stack

/-- Opening a task fails if none is left open for it or the innermost one takes
no more children. Without an open task there is no parent; with one, the
question is only whether the parent has room. -/
theorem openTask_spec {before : List (Sited T)} {task : Sited T}
    {row : List (Sited T)} {stack stack' : Stack T} {s : Scaffold T}
    (h : Roomy before task (entries before (task :: row)) stack stack' s) :
    (∃ s' stack'', s.openTask task.node = .ok s'
      ∧ Opens before task row stack stack'' s')
      ∨ (∃ fault, s.openTask task.node = .error fault)
        ∧ (parent? before task = none
          ∨ ¬ Fits (entries before (task :: row)) 0 stack) := by
  have hentries : entries before (task :: row)
      = { number := before.length, parent := parent? before task,
          node := task.node }
        :: entries (task :: before) row := rfl
  rcases stack' with _ | ⟨⟨number, outer⟩, others⟩
  · have hnone : parent? before task = none := by
      rw [parent?_eq_head?_around, ← h.keys]
      rfl
    exact .inr ⟨⟨_, openTask_of_hasRoot h.frames h.hasRoot _⟩, .inl hnone⟩
  · have hparent : parent? before task = some number := by
      rw [parent?_eq_head?_around, ← h.keys]
      rfl
    obtain ⟨hcount, -, hcounted⟩ := h.counted
    by_cases hroom : outer.node.arity.exceeded? outer.children = none
    · have hlimit : ∀ limit, outer.node.arity.most = some limit →
          outer.node.children.length + 1 ≤ limit := fun limit hmost => by
        have := Arity.exceeded?_eq_none_iff.1 hroom limit hmost
        omega
      -- The open tasks have different numbers, so the parent is one of them
      -- only.
      have hapart : ∀ x ∈ others, parent? before task ≠ some x.1 := by
        intro x hx heq
        have hpairwise :=
          (openTasks_pairwise before).sublist (around_sublist before task)
        rw [← h.keys] at hpairwise
        have hlt := (List.pairwise_cons.1 hpairwise).1 (x.1, x.2.indent)
          (List.mem_map_of_mem hx)
        rw [hparent] at heq
        cases heq
        exact Nat.lt_irrefl _ hlt
      refine .inl ⟨_, (before.length, _) :: (number, _) :: others,
        openTask_of_room h.frames hroom task.node,
        ⟨rfl, ?_,
          ⟨rfl, fun _ _ hpos => absurd hpos (Nat.lt_irrefl 0), ?_,
          fun limit hmost _ => ?_, hcounted⟩, h.hasRoot, h.guard⟩,
        List.cons_ne_nil _ _, by
        -- The opened task is the innermost of the open tasks now, and its
        -- parent has counted it.
        rw [hparent]; exact Option.some_ne_none _, ?_, ?_⟩
      · rw [openTasks_cons, ← h.keys, ← h.indent]
        rfl
      · dsimp only
        omega
      · exact hlimit limit hmost
      -- The conditions on the whole stack are those of before, split by
      -- `Fits.open_iff` into the room of the parent and the rest.
      · rw [← h.fits, hentries]
        exact ((Fits.open_iff ⟨before.length, _, task.node⟩
            ⟨s.indent, task.node, _⟩
          ⟨outer.indent, outer.node, _⟩ hparent hapart rfl rfl).trans
          (and_iff_right hlimit)).symm
      · rw [← h.same (List.cons_ne_nil _ _), hentries]
        exact sealed_open ⟨before.length, _, task.node⟩ ⟨s.indent, task.node, _⟩
          ⟨outer.indent, outer.node, _⟩ hparent hapart rfl rfl
    · refine .inr ⟨openTask_of_full h.frames hroom _,
        .inr fun hfits => hroom ?_⟩
      -- A parent without room takes fewer children than the document gives it.
      have htakes := (h.fits.2 hfits).1
      rw [hentries, below_cons_of_eq hparent, List.length_cons] at htakes
      refine Arity.exceeded?_eq_none_iff.2 fun limit hlimit => ?_
      have hmost := htakes.most limit hlimit (by omega)
      omega

/-- The first task of a row is placed before the others. -/
theorem placeAll_cons_finish {s s₁ : Scaffold T} {last : Option Nat}
    {task : Sited T} {row : List (Sited T)}
    (h : (s.within last task.line task.indent).makeRoom = .ok s₁) :
    s.placeAll last (task :: row) >>= Scaffold.finish
      = s₁.openTask task.node
        >>= fun s₂ => s₂.placeAll (some task.line) row >>= Scaffold.finish := by
  rw [Scaffold.placeAll, h, bind_assoc, bind_assoc]
  rfl

/-- With some tasks open, the later ones give a tree exactly if each of them has
a parent and all of them, open or later, take the children that they will get.
By induction over the tasks of the row, with the open tasks and the scaffold
general: both have moved on when the rest of the row is placed. -/
theorem placeAll_finish_eq_ok_iff (row : List (Sited T))
    {before : List (Sited T)} {stack : Stack T} {s : Scaffold T}
    (h : Stands before stack s) (hstack : stack ≠ []) (root : Blueprint T) :
    s.placeAll (before.head?.map (·.line)) row >>= Scaffold.finish = .ok root ↔
      (∀ e ∈ entries before row, e.parent ≠ none)
        ∧ (Fits (entries before row) 0 stack ∧ Fulfilled (entries before row))
        ∧ sealed (entries before row) none stack = some root := by
  induction row generalizing before stack s with
  | nil =>
      refine (finish_eq_ok_iff h hstack root).trans ?_
      constructor
      · intro h
        obtain ⟨hfits, hroot⟩ := h
        exact ⟨fun e he => absurd he List.not_mem_nil, ⟨hfits, trivial⟩, hroot⟩
      · intro h
        obtain ⟨-, ⟨hfits, -⟩, hroot⟩ := h
        exact ⟨hfits, hroot⟩
  | cons task row ih =>
      have hentries : entries before (task :: row)
          = { number := before.length, parent := parent? before task,
              node := task.node }
            :: entries (task :: before) row := rfl
      rcases makeRoom_spec h task row with ⟨stack', s₁, hmade, hroomy⟩ |
          ⟨⟨fault, hfault⟩, hmisfit⟩
      -- Room has been made, so the task opens or is refused.
      · rw [placeAll_cons_finish hmade]
        rcases openTask_spec hroomy with ⟨s₂, stack₂, hopened, hopens⟩ |
            ⟨⟨fault, hfault⟩, hnot⟩
        · rw [hopened]
          refine (ih hopens.stands hopens.nonempty).trans ?_
          rw [hopens.fits, hopens.same, hentries, List.forall_mem_cons]
          constructor
          · intro h
            obtain ⟨hchildren, ⟨⟨hfits, htakes⟩, hfulfilled⟩, hroot⟩ := h
            exact ⟨⟨hopens.child, hchildren⟩, ⟨hfits, htakes, hfulfilled⟩,
              hroot⟩
          · intro h
            obtain ⟨⟨-, hchildren⟩, ⟨hfits, htakes, hfulfilled⟩, hroot⟩ := h
            exact ⟨hchildren, ⟨⟨hfits, htakes⟩, hfulfilled⟩, hroot⟩
        -- No tree comes out, so one of the conditions has to fail: the task
        -- has no parent, or an open task takes too few children or too many.
        · rw [hfault, hentries, List.forall_mem_cons]
          constructor
          · intro hroot
            cases hroot
          · intro h
            obtain ⟨⟨hchild, -⟩, ⟨hfits, -⟩, -⟩ := h
            rcases hnot with hnone | hmisfit
            · exact absurd hnone hchild
            · exact absurd hfits hmisfit
      -- An open task cannot be closed: it lacks children that no later task can
      -- give it.
      · rw [Scaffold.placeAll, hfault]
        constructor
        · intro hroot
          cases hroot
        · intro h
          obtain ⟨-, ⟨hfits, -⟩, -⟩ := h
          exact absurd hfits hmisfit

-- ============================================================= documents

/-- Children come after their parents, so all that name a task are among the
later ones. By induction over the row; `hfirst` is the point, that the first
task is a child of none of the later ones and so drops out of their counts. -/
theorem fulfilled_entries_iff (row before : List (Sited T)) :
    Fulfilled (entries before row) ↔ ∀ e ∈ entries before row,
      e.node.Takes ((entries before row).countP fun child =>
        child.parent = some e.number) := by
  induction row generalizing before with
  | nil => exact iff_of_true trivial fun e he => absurd he List.not_mem_nil
  | cons task row ih =>
      have hfirst : ∀ number, before.length ≤ number →
          ((entries before (task :: row)).countP
          fun child => child.parent = some number)
            = (entries (task :: before) row).countP fun child =>
              child.parent = some number := by
        intro number hle
        rw [entries, List.countP_cons_of_neg]
        intro hparent
        have hlt := parent?_lt (of_decide_eq_true hparent)
        omega
      have hrest : (∀ e ∈ entries (task :: before) row, e.node.Takes
            ((entries before (task :: row)).countP fun child =>
              child.parent = some e.number)) ↔
          ∀ e ∈ entries (task :: before) row, e.node.Takes
            ((entries (task :: before) row).countP fun child =>
              child.parent = some e.number) := by
        refine forall₂_congr fun e he => ?_
        rw [hfirst e.number (Nat.le_of_succ_le (le_number_of_mem_entries e he))]
      have hentries : entries before (task :: row)
          = { number := before.length, parent := parent? before task,
              node := task.node }
            :: entries (task :: before) row := rfl
      rw [hentries, List.forall_mem_cons, ← hentries, hrest,
        hfirst before.length (Nat.le_refl _), ← ih, ← below_length, hentries]
      exact Iff.rfl

/-- Closing nothing gives back the root. -/
theorem close_nil {indent : Nat} {frames : List (Frame T)}
    {root : Option (Blueprint T)} (h : frames = []) :
    Scaffold.close indent frames root = .ok ([], root) := by
  rw [h, Scaffold.close]

/-- The first task opens the root. -/
theorem placeAll_empty_cons (task : Sited T) (row : List (Sited T)) :
    ∃ s, Scaffold.empty.placeAll none (task :: row)
      = s.placeAll (some task.line) row
      ∧ Stands [task] [(0, ⟨task.indent, task.node, task.node.children.length⟩)]
        s := by
  have hmade :
      (Scaffold.empty.within none task.line task.indent : Scaffold T).makeRoom
      = .ok { Scaffold.empty with indent := task.indent, placed := true } :=
    makeRoom_of_close rfl (close_nil rfl)
  rw [Scaffold.placeAll, hmade]
  exact ⟨_, rfl, rfl, rfl,
    ⟨rfl, fun _ _ hpos => absurd hpos (Nat.lt_irrefl 0), trivial⟩, rfl, rfl⟩

/-- The tasks of a document give a tree exactly if the first one is the only one
without a parent and all of them take their children, and it is the tree that
they declare. An empty row is the empty document. Otherwise the first task is
the root and opens the stack on which the rest is placed. -/
theorem placeAll_empty_eq_ok_iff (row : List (Sited T)) (root : Blueprint T) :
    Scaffold.empty.placeAll none row >>= Scaffold.finish = .ok root ↔
      (∃ first rest, entries [] row = first :: rest ∧ first.parent = none
          ∧ ∀ e ∈ rest, e.parent ≠ none)
        ∧ Fulfilled (entries [] row)
        ∧ declared (entries [] row) = some root := by
  cases row with
  | nil =>
      have hnone : (Scaffold.empty : Scaffold T).finish = .error .noTasks := by
        have hclose : Scaffold.close 0 (Scaffold.empty : Scaffold T).frames
            Scaffold.empty.root
            = .ok ([], none) := close_nil rfl
        unfold Scaffold.finish
        rw [hclose]
        rfl
      constructor
      · intro h
        have h : (Scaffold.empty : Scaffold T).finish = .ok root := h
        rw [hnone] at h
        cases h
      · intro h
        obtain ⟨⟨first, rest, hnil, -⟩, -⟩ := h
        cases hnil
  | cons task row =>
      have hentries : entries [] (task :: row)
          = { number := 0, parent := none, node := task.node }
            :: entries [task] row := rfl
      obtain ⟨s, hs, hstands⟩ := placeAll_empty_cons task row
      rw [hs, hentries]
      refine (placeAll_finish_eq_ok_iff row hstands (List.cons_ne_nil _ _)
          root).trans ?_
      constructor
      · rintro ⟨hchildren, ⟨⟨htakes, -⟩, hfulfilled⟩, hroot⟩
        rw [Nat.zero_add] at htakes
        exact ⟨⟨_, _, rfl, rfl, hchildren⟩, ⟨htakes, hfulfilled⟩, hroot⟩
      · intro h
        obtain ⟨⟨first, rest, heq, -, hchildren⟩, ⟨htakes, hfulfilled⟩,
          hroot⟩ := h
        cases heq
        refine ⟨hchildren, ⟨⟨?_, trivial⟩, hfulfilled⟩, hroot⟩
        rw [Nat.zero_add]
        exact htakes

/-- A document gives a tree exactly if the collector accepts its text, all
its statements build, and they are valid; and then it gives the tree that
they declare. -/
theorem parse_eq_ok_iff (dialect : Dialect T) (comments : Bool) (text : String)
    (root : Blueprint T) :
    (dialect.parse text).2 = .ok root ↔
      ∃ kept doc,
        read comments Lines.handler text Lines.empty = (kept, none)
          ∧ (spread 0 kept.lines.toList).mapM dialect.site = .ok doc
          ∧ Valid doc ∧ declared (entries [] (tasks none doc)) = some root := by
  have hlines : ∀ lines : List Line,
      Scaffold.empty.takeLines dialect lines >>= Scaffold.finish = .ok root ↔
        ∃ doc, (spread 0 lines).mapM dialect.site = .ok doc
          ∧ Valid doc ∧ declared (entries [] (tasks none doc)) = some root := by
    -- The settled scaffold speaks of rows of sited tasks; the reader speaks of
    -- lines. `Scaffold.parts` splits the one from the other.
    intro lines
    have hrow : Scaffold.empty.takeLines dialect lines >>= Scaffold.finish
        = Scaffold.empty.takeAll dialect none (spread 0 lines)
          >>= Scaffold.finish :=
      Scaffold.takeLines_finish lines (fun m hm => by cases hm) _
    rw [hrow, Scaffold.parts dialect (spread 0 lines) none Scaffold.empty root]
    refine exists_congr fun doc => and_congr_right fun _ => ?_
    have hplaced := placeAll_empty_eq_ok_iff (tasks none doc) root
    rw [fulfilled_entries_iff] at hplaced
    constructor
    · intro h
      obtain ⟨hadmits, h⟩ := h
      obtain ⟨-, hclosed, hfree, hready⟩ := Scaffold.admits_iff.1 hadmits
      obtain ⟨hrooted, htakes, hroot⟩ := hplaced.1 h
      exact ⟨⟨hclosed, hfree, hready, hrooted, htakes⟩, hroot⟩
    · intro h
      obtain ⟨hvalid, hroot⟩ := h
      exact ⟨Scaffold.admits_iff.2
          ⟨fun hsome => absurd rfl hsome, hvalid.closed, hvalid.free,
        hvalid.ready⟩, hplaced.2 ⟨hvalid.rooted, hvalid.takes, hroot⟩⟩
  rw [parse_eq_ok_iff_takeLines comments]
  constructor
  · intro h
    obtain ⟨kept, hread, h⟩ := h
    obtain ⟨doc, hdoc⟩ := (hlines _).1 h
    exact ⟨kept, doc, hread, hdoc⟩
  · intro h
    obtain ⟨kept, doc, hread, hdoc⟩ := h
    exact ⟨kept, hread, (hlines _).2 ⟨doc, hdoc⟩⟩

end TaskTree.Outline
