/-
An outline describes whole trees only.

A tree is `Whole` if every task in it, guards and copies of subtrees
included, has the children without which it cannot run. While an outline is
being read this need not be true of the open tasks, which are only `Begun`:
it is a task's closing that makes sure of its children. `Sound` says so of
a scaffold as a whole, every event preserves it (by `take_consists`, which
asks only that the two properties fit together), and from it `parse_whole`
follows: if the makers of a dialect make tasks of some property and the
subtrees on its shelf are whole, then whatever tree the dialect reads is
whole, and all its tasks have the property.
-/
import TaskTree.Outline.Document

namespace TaskTree

-- ========================================================== whole trees

section Trees

variable {E T : Type} [Behavior E T] {ok : T → Prop}

/-- All tasks of a tree are `ok`, and each has the children without which
it cannot run. -/
inductive Whole (ok : T → Prop) : Blueprint T → Prop where
  | node {task : T} {guard : Option (Blueprint T)}
      {children : List (Blueprint T)} (fit : ok task)
      (enough : (Behavior.arity task).least ≤ children.length)
      (below : ∀ g, guard = some g → Whole ok g)
      (beneath : ∀ c ∈ children, Whole ok c) :
      Whole ok (.node task guard children)

/-- A tree that is whole but for children that its topmost task may lack. -/
structure Begun (ok : T → Prop) (b : Blueprint T) : Prop where
  fit : ok b.task
  below : ∀ g, b.guard = some g → Whole ok g
  beneath : ∀ c ∈ b.children, Whole ok c

/-- A whole tree is one that has begun. -/
theorem Whole.begun {b : Blueprint T} (h : Whole ok b) : Begun ok b := by
  cases h with
  | node fit enough below beneath => exact ⟨fit, below, beneath⟩

/-- A tree that has begun is whole when its root has children enough. -/
theorem Begun.whole {b : Blueprint T} (h : Begun ok b)
    (enough : b.arity.least ≤ b.children.length) :
    Whole ok b := by
  cases b with
  | node task guard children => exact .node h.fit enough h.below h.beneath

/-- A whole child may be added, as long as the task can take it. -/
theorem Begun.addChild {b child b' : Blueprint T} (h : Begun ok b)
    (hchild : Whole ok child) (hadd : b.addChild child = .ok b') :
    Begun ok b' := by
  unfold Blueprint.addChild at hadd
  split at hadd
  · cases hadd
  · cases hadd
    refine ⟨h.fit, h.below, fun c hc => ?_⟩
    rcases List.mem_append.1 hc with hc | hc
    · exact h.beneath c hc
    · rw [List.mem_singleton.1 hc]
      exact hchild

/-- A whole guard may be set, as long as there is none. -/
theorem Begun.setGuard {b guard b' : Blueprint T} (h : Begun ok b)
    (hguard : Whole ok guard) (hset : b.setGuard guard = .ok b') :
    Begun ok b' := by
  unfold Blueprint.setGuard at hset
  split at hset
  · cases hset
  · cases hset
    refine ⟨h.fit, fun g hg => ?_, h.beneath⟩
    cases hg
    exact hguard

mutual

/-- A copy of a whole tree is whole. -/
theorem renewed_whole (hrewind : ∀ task, ok task →
      ok (Behavior.rewind task)
        ∧ Behavior.arity (Behavior.rewind task) = Behavior.arity task)
    (b : Blueprint T) (h : Whole ok b) : Whole ok b.renewed := by
  match b with
  | .node task guard children =>
      cases h with
      | node fit enough below beneath =>
          obtain ⟨hfit, harity⟩ := hrewind task fit
          obtain ⟨hall, hlength⟩ := renewedAll_whole hrewind children beneath
          rw [Blueprint.renewed]
          refine .node hfit ?_ (renewedGuard_whole hrewind guard below) hall
          rw [harity, hlength]
          exact enough

/-- A renewed guard is whole. -/
theorem renewedGuard_whole (hrewind : ∀ task, ok task →
      ok (Behavior.rewind task)
        ∧ Behavior.arity (Behavior.rewind task) = Behavior.arity task)
    (guard : Option (Blueprint T)) (h : ∀ g, guard = some g → Whole ok g) :
    ∀ g, Blueprint.renewedGuard guard = some g → Whole ok g := by
  intro g hg
  match guard with
  | none => cases hg
  | some guard =>
      cases hg
      exact renewed_whole hrewind guard (h guard rfl)

/-- Renewed children are whole, and as many. -/
theorem renewedAll_whole (hrewind : ∀ task, ok task →
      ok (Behavior.rewind task)
        ∧ Behavior.arity (Behavior.rewind task) = Behavior.arity task)
    (children : List (Blueprint T)) (h : ∀ c ∈ children, Whole ok c) :
    (∀ c ∈ Blueprint.renewedAll children, Whole ok c)
      ∧ (Blueprint.renewedAll children).length = children.length := by
  match children with
  | [] => exact ⟨(fun c hc => nomatch hc), rfl⟩
  | child :: rest =>
      have hchild := renewed_whole hrewind child (h child List.mem_cons_self)
      obtain ⟨hall, hlength⟩ :=
        renewedAll_whole hrewind rest fun c hc =>
          h c (List.mem_cons_of_mem _ hc)
      rw [Blueprint.renewedAll]
      refine ⟨fun c hc => ?_, ?_⟩
      · rcases List.mem_cons.1 hc with rfl | hc
        · exact hchild
        · exact hall c hc
      · rw [List.length_cons, List.length_cons, hlength]

end

end Trees

namespace Outline

variable {E T : Type} [Behavior E T] {ok : T → Prop}

/-- What a step of a computation that comes through has to do with it. -/
theorem bind_eq_ok {ε α β : Type} {x : Except ε α} {f : α → Except ε β} {y : β}
    (h : x >>= f = .ok y) : ∃ a, x = .ok a ∧ f a = .ok y := by
  cases x with
  | error e => cases h
  | ok a => exact ⟨a, rfl, h⟩

/-- What every step of a computation keeps, all of its steps together keep. -/
theorem foldlM_keeps {ε σ α : Type} {f : σ → α → Except ε σ} {P : σ → Prop}
    (hstep : ∀ s x s', P s → f s x = .ok s' → P s') {xs : List α} {s s' : σ}
    (hs : P s) (h : xs.foldlM f s = .ok s') : P s' := by
  induction xs generalizing s with
  | nil =>
      cases h
      exact hs
  | cons x xs ih =>
      rw [List.foldlM_cons] at h
      obtain ⟨s₁, hs₁, h⟩ := bind_eq_ok h
      exact ih (hstep s x s₁ hs hs₁) h

/-- Two folds agree when their steps agree on all that they meet. -/
theorem foldlM_congr {ε σ α : Type} {f g : σ → α → Except ε σ} {xs : List α}
    (h : ∀ x ∈ xs, ∀ s, f s x = g s x) (s : σ) :
    xs.foldlM f s = xs.foldlM g s := by
  induction xs generalizing s with
  | nil => rfl
  | cons x xs ih =>
      obtain ⟨hfirst, hrest⟩ := List.forall_mem_cons.1 h
      rw [List.foldlM_cons, List.foldlM_cons, hfirst]
      congr 1
      funext s₁
      exact ih hrest s₁

-- ============================================================ scaffolds

/-- What stands in a scaffold is whole, apart from the children that open
tasks may still get. -/
structure Scaffold.Sound (ok : T → Prop) (s : Scaffold T) : Prop where
  frames : ∀ f ∈ s.frames, Begun ok f.node
  root : ∀ r, s.root = some r → Whole ok r
  guard : ∀ g, s.guard = some g → Whole ok g

/-- The makers of a dialect make tasks that are `ok` and stay so when they
are copied, and the subtrees on its shelf are whole. -/
structure Dialect.Sound (ok : T → Prop) (dialect : Dialect T) : Prop where
  makes : ∀ name attributes task,
    dialect.vocabulary.make name attributes = .ok task → ok task
  shelf : ∀ name subtree, dialect.shelf.get? name = some subtree →
    Whole ok subtree
  rewind : ∀ task, ok task →
    ok (Behavior.rewind task)
      ∧ Behavior.arity (Behavior.rewind task) = Behavior.arity task

/-- What a statement stands for is begun. A reference copies a tree of the
shelf, which is whole; a name makes a single task, which has begun. -/
theorem Dialect.Sound.build {dialect : Dialect T} (h : dialect.Sound ok)
    {statement : Statement} {b : Blueprint T}
    (hbuild : dialect.build statement = .ok b) : Begun ok b := by
  unfold Dialect.build at hbuild
  split at hbuild
  · split at hbuild
    · unfold Shelf.copy at hbuild
      split at hbuild
      · rename_i subtree hsubtree
        cases hbuild
        exact (renewed_whole h.rewind subtree (h.shelf _ _ hsubtree)).begun
      · cases hbuild
    · cases hbuild
  · cases hmade : dialect.vocabulary.make statement.name
      statement.attributes with
    | error fault =>
        rw [hmade] at hbuild
        cases hbuild
    | ok task =>
        rw [hmade] at hbuild
        cases hbuild
        exact ⟨h.makes _ _ _ hmade, (fun g hg => nomatch hg),
          (fun c hc => nomatch hc)⟩

namespace Scaffold

/-- The children of a task are ensured exactly when it has enough of them. -/
theorem ensureChildren_eq_ok_iff {b : Blueprint T} :
    ensureChildren b = .ok () ↔ b.arity.least ≤ b.children.length := by
  unfold ensureChildren
  by_cases hlt : b.children.length < b.arity.least
  · rw [if_pos hlt]
    constructor
    · intro h
      cases h
    · intro h
      omega
  · rw [if_neg hlt]
    constructor
    · intro
      omega
    · intro
      rfl

section Keeping

variable {begun whole : Blueprint T → Prop}

/-- What stands in a scaffold has two properties, `begun` where it may still get
children and `whole` where it may not. -/
structure Consists (begun whole : Blueprint T → Prop)
    (s : Scaffold T) : Prop where
  frames : ∀ f ∈ s.frames, begun f.node
  root : ∀ r, s.root = some r → whole r
  guard : ∀ g, s.guard = some g → whole g

/-- Closing a tree makes it whole, and children and guards that are whole leave
it begun. -/
structure Composable (begun whole : Blueprint T → Prop) : Prop where
  complete : ∀ {b}, begun b → b.arity.least ≤ b.children.length → whole b
  addChild : ∀ {b child b'}, begun b → whole child →
    b.addChild child = .ok b' → begun b'
  setGuard : ∀ {b guard b'}, begun b → whole guard →
    b.setGuard guard = .ok b' → begun b'

/-- What closing leaves open is begun, and what it finishes is whole. By
induction along the frames that are closed, innermost first. -/
theorem close_consists (hcompose : Composable begun whole) {indent : Nat}
    {frames frames' : List (Frame T)} {root root' : Option (Blueprint T)}
    (hframes : ∀ f ∈ frames, begun f.node)
    (hroot : ∀ r, root = some r → whole r)
    (hclose : close indent frames root = .ok (frames', root')) :
    (∀ f ∈ frames', begun f.node) ∧ ∀ r, root' = some r → whole r := by
  fun_induction close indent frames root with
  | case1 =>
      cases hclose
      exact ⟨hframes, hroot⟩
  | case2 frame rest hlt =>
      cases hclose
      exact ⟨hframes, hroot⟩
  | case3 => cases hclose
  | case4 frame hlt hensured =>
      cases hclose
      -- The last frame becomes the root, with its children ensured.
      refine ⟨List.forall_mem_nil _, fun r hr => ?_⟩
      cases hr
      exact hcompose.complete (hframes frame List.mem_cons_self)
        (ensureChildren_eq_ok_iff.1 hensured)
  | case5 => cases hclose
  | case6 frame hlt hensured outer others outer' hadd ih =>
      -- The innermost frame is complete, and becomes a child of the one around
      -- it.
      obtain ⟨hframe, hframes⟩ := List.forall_mem_cons.1 hframes
      obtain ⟨houter, hothers⟩ := List.forall_mem_cons.1 hframes
      have hwhole :=
        hcompose.complete hframe (ensureChildren_eq_ok_iff.1 hensured)
      refine ih (List.forall_mem_cons.2 ⟨?_, hothers⟩) hclose
      unfold Frame.addChild at hadd
      split at hadd
      · rename_i node hnode
        cases hadd
        exact hcompose.addChild houter hwhole hnode
      · cases hadd

/-- Making room closes frames, so it leaves what has begun or is whole. -/
theorem makeRoom_consists (hcompose : Composable begun whole)
    {s s' : Scaffold T} (h : s.Consists begun whole)
    (hroom : s.makeRoom = .ok s') : s'.Consists begun whole := by
  unfold makeRoom at hroom
  split at hroom
  · cases hroom
    exact h
  · split at hroom
    · cases hroom
    · rename_i frames root hclose
      cases hroom
      obtain ⟨hframes, hroot⟩ := close_consists hcompose h.frames h.root hclose
      exact ⟨hframes, hroot, h.guard⟩

/-- A task that is opened has begun, and is put on top of the frames. -/
theorem openTask_consists {s s' : Scaffold T} {b : Blueprint T}
    (h : s.Consists begun whole) (hb : begun b)
    (hopen : s.openTask b = .ok s') : s'.Consists begun whole := by
  have hframes := h.frames
  unfold openTask at hopen
  dsimp only at hopen
  split at hopen
  · split at hopen
    · cases hopen
    · cases hopen
      exact ⟨List.forall_mem_singleton.2 hb, h.root, h.guard⟩
  · rename_i outer others hopened
    rw [hopened] at hframes
    obtain ⟨houter, hothers⟩ := List.forall_mem_cons.1 hframes
    split at hopen
    · cases hopen
    · cases hopen
      refine ⟨List.forall_mem_cons.2 ⟨hb, ?_⟩, h.root, h.guard⟩
      exact List.forall_mem_cons.2 ⟨houter, hothers⟩

/-- A guard that waits is whole, so the task that takes it has begun still. -/
theorem withGuard_consists (hcompose : Composable begun whole) {s : Scaffold T}
    {b b' : Blueprint T} (h : s.Consists begun whole) (hb : begun b)
    (hguard : s.withGuard b = .ok b') : begun b' := by
  unfold withGuard at hguard
  split at hguard
  · cases hguard
    exact hb
  · rename_i guard hwaiting
    split at hguard
    · rename_i guarded hset
      cases hguard
      exact hcompose.setGuard hb (h.guard guard hwaiting) hset
    · cases hguard

/-- A statement is taken in if what it stands for is begun. -/
theorem take_consists (hcompose : Composable begun whole) {dialect : Dialect T}
    {statement : Statement}
    (hbuild : ∀ b, dialect.build statement = .ok b → begun b)
    {s s' : Scaffold T} (h : s.Consists begun whole)
    (htake : s.take dialect statement = .ok s') :
    s'.Consists begun whole := by
  unfold take at htake
  obtain ⟨built, hbuilt, htake⟩ := bind_eq_ok htake
  obtain ⟨b, hguarded, htake⟩ := bind_eq_ok htake
  have hb : begun b :=
    withGuard_consists hcompose h (hbuild built hbuilt) hguarded
  -- The guard that waited is taken now.
  have hwithout : ({ s with guard := none } : Scaffold T).Consists
      begun whole :=
    ⟨h.frames, h.root, fun g hg => nomatch hg⟩
  -- A guard is completed and waits; any other task is opened.
  split at htake
  · obtain ⟨⟨⟩, hensured, htake⟩ := bind_eq_ok htake
    cases htake
    refine ⟨h.frames, h.root, fun g hg => ?_⟩
    cases hg
    exact hcompose.complete hb (ensureChildren_eq_ok_iff.1 hensured)
  · obtain ⟨s₁, hroom, hopen⟩ := bind_eq_ok htake
    exact openTask_consists (makeRoom_consists hcompose hwithout hroom) hb hopen

/-- The root that is finished is whole. -/
theorem finish_consists (hcompose : Composable begun whole) {s : Scaffold T}
    {root : Blueprint T} (h : s.Consists begun whole)
    (hfinish : s.finish = .ok root) : whole root := by
  unfold finish at hfinish
  split at hfinish
  · cases hfinish
  · split at hfinish
    · cases hfinish
    · cases hfinish
    · rename_i hclose
      cases hfinish
      exact (close_consists hcompose h.frames h.root hclose).2 _ rfl

end Keeping

/-- Being sound is one of the ways in which a scaffold can consist of
something. -/
theorem sound_iff {s : Scaffold T} :
    s.Sound ok ↔ s.Consists (Begun ok) (Whole ok) :=
  ⟨fun h => ⟨h.frames, h.root, h.guard⟩, fun h => ⟨h.frames, h.root, h.guard⟩⟩

/-- Whole trees are composed as the scaffold composes them. -/
theorem composable_whole : Composable (Begun (ok : T → Prop)) (Whole ok) :=
  ⟨Begun.whole, Begun.addChild, Begun.setGuard⟩

/-- A statement leaves the scaffold sound. -/
theorem take_sound {dialect : Dialect T} (hdialect : dialect.Sound ok)
    {statement : Statement} {s s' : Scaffold T} (h : s.Sound ok)
    (htake : s.take dialect statement = .ok s') :
    s'.Sound ok :=
  sound_iff.2 (take_consists composable_whole (fun _ hb => hdialect.build hb)
      (sound_iff.1 h) htake)

/-- Every event preserves that a scaffold is sound. All events but the end of a
statement leave the trees alone. -/
theorem accept_sound {dialect : Dialect T} (hdialect : dialect.Sound ok)
    {event : Event} {s s' : Scaffold T} (h : s.Sound ok)
    (haccept : s.accept dialect event = .ok s') :
    s'.Sound ok := by
  cases event with
  | line indent =>
      cases haccept
      exact { h with }
  | statement name isReference isGuard =>
      cases haccept
      exact { h with }
  | attr name value =>
      unfold accept at haccept
      dsimp only at haccept
      split at haccept
      · cases haccept
        exact h
      · split at haccept
        · cases haccept
          exact { h with }
        · cases haccept
  | endStatement =>
      unfold accept at haccept
      dsimp only at haccept
      split at haccept
      · cases haccept
        exact h
      · have hcleared : ({ s with current := none } : Scaffold T).Sound ok :=
          ⟨h.frames, h.root, h.guard⟩
        exact take_sound hdialect hcleared haccept
  | endLine =>
      cases haccept
      exact h
  | comment text =>
      cases haccept
      exact h

/-- The tree of a sound scaffold is whole. -/
theorem finish_whole {s : Scaffold T} {root : Blueprint T} (h : s.Sound ok)
    (hfinish : s.finish = .ok root) : Whole ok root :=
  finish_consists composable_whole (sound_iff.1 h) hfinish

end Scaffold

-- ============================================================= documents

/-- What every event preserves, the reading of a text preserves. -/
theorem read_invariant {σ ε : Type} {handler : Handler σ ε} (inv : σ → Prop)
    (hstep : ∀ event state, inv state → inv (handler event state).1)
    (comments : Bool) (text : String) {state : σ} (h : inv state) :
    inv (read comments handler text state).1 := by
  -- The events of one line first, then the lines. A handler that refuses an
  -- event still gives a state, and that one has the invariant.
  have hoffer : ∀ (number : Nat) (marks : List Mark) (state : σ), inv state →
      inv (offer handler number marks state).1 := by
    intro number marks
    induction marks with
    | nil => exact fun state h => h
    | cons mark marks ih =>
        intro state h
        have hnext := hstep mark.1 state h
        obtain ⟨event, rest⟩ := mark
        rw [offer]
        split
        · rename_i hrefused
          rw [hrefused] at hnext
          exact hnext
        · rename_i htaken
          rw [htaken] at hnext
          exact ih _ hnext
  have hlines : ∀ (lines : List (List Char)) (number : Nat) (state : σ),
      inv state →
      inv (readLines comments handler number lines state).1 := by
    intro lines
    induction lines with
    | nil => exact fun number state h => h
    | cons line lines ih =>
        intro number state h
        have hline := hoffer number ((readLine line).offered comments) state h
        rw [readLines]
        split
        · rename_i hfault
          rw [hfault] at hline
          exact hline
        · rename_i hdone
          rw [hdone] at hline
          split
          · exact hline
          · exact ih _ _ hline
  exact hlines _ _ _ h

/-- A sound dialect reads whole trees only. -/
theorem parse_whole {dialect : Dialect T} (h : dialect.Sound ok) {text : String}
    {log : List Record} {root : Blueprint T}
    (hparse : dialect.parse text = (log, .ok root)) :
    Whole ok root := by
  -- The handler of the dialect accepts events and logs, or refuses and leaves
  -- the scaffold as it is.
  have hstep : ∀ event (state : Scaffold T × List Record), state.1.Sound ok →
      (dialect.handler event state).1.1.Sound ok := by
    intro event state hstate
    obtain ⟨s, log⟩ := state
    unfold Dialect.handler
    dsimp only
    split
    · rename_i s' haccept
      exact Scaffold.accept_sound h hstate haccept
    · exact hstate
  -- Nothing has been laid before the first event.
  have hempty : (Scaffold.empty : Scaffold T).Sound ok :=
    ⟨(fun f hf => nomatch hf), (fun r hr => nomatch hr),
      (fun g hg => nomatch hg)⟩
  have hread : (read dialect.settings.reportsComments dialect.handler text
      (Scaffold.empty, [])).1.1.Sound ok :=
    read_invariant (fun state : Scaffold T × List Record => state.1.Sound ok)
      hstep _ _ hempty
  unfold Dialect.parse at hparse
  split at hparse
  · cases hparse
  · rename_i s log' hdone
    rw [hdone] at hread
    split at hparse
    · cases hparse
    · rename_i root' hfinish
      obtain rfl : root' = root := Except.ok.inj (Prod.mk.inj hparse).2
      exact Scaffold.finish_whole hread hfinish

end Outline

end TaskTree
