/-
A task put together before it is planted, or after.

A task gets its guard and its children either while it is on its own, as a
blueprint, or when it stands in a tree already. Both ways decide by the same
four things, the name of the task, its arity, the number of its children and
whether it is guarded. A task that stands in a tree agrees in them with its
blueprint (`LikeTop`), every addition keeps that, and so both ways refuse the
same additions for the same reasons (`LikeTop.run`).

Planting is preorder: a guard comes directly behind its task. So the trees are
the same, slot by slot and notice by notice, if the guard is set before the
children (`setRoot_piecemeal`). The order in which the children follow is that
of the blueprint in either case.
-/
import TaskTree.Proofs.Arena.Composed

namespace TaskTree.Arena

variable {E T : Type} [Behavior E T]

-- ============================================================ the additions

/-- What a task may get after it was made. -/
inductive Addition (T : Type) where
  | guard (guard : Blueprint T)
  | child (child : Blueprint T)

namespace Addition

/-- The task gets it as a blueprint. -/
def addTo (b : Blueprint T) : Addition T → Except Fault (Blueprint T)
  | .guard g => b.setGuard g
  | .child c => b.addChild c

omit [Behavior E T] in
/-- The call by which a task of a tree gets it. -/
def call (id : TaskId) : Addition T → Construction T
  | .guard g => .setGuard id g
  | .child c => .attach id c

/-- The task gets it in its tree. -/
def addAt (id : TaskId) (x : Addition T) (a : Arena E T) :
    Except Fault (Arena E T) :=
  ((x.call id).attempt a).map (·.2)

end Addition

/-- Tries additions one after another, and passes over those that are refused.
Gives what was said to each of them, and what has come of it all. -/
def tryAll {S : Type} (add : Addition T → S → Except Fault S) :
    List (Addition T) → S → List (Option Fault) × S
  | [], s => ([], s)
  | x :: xs, s =>
    match add x s with
    | .ok s' => (none :: (tryAll add xs s').1, (tryAll add xs s').2)
    | .error fault => (some fault :: (tryAll add xs s).1, (tryAll add xs s).2)

/-- Additions to a blueprint. -/
def assembled (b : Blueprint T) (xs : List (Addition T)) :
    List (Option Fault) × Blueprint T :=
  tryAll (fun x b => x.addTo b) xs b

/-- Additions to a task in its tree. -/
def extended (id : TaskId) (a : Arena E T) (xs : List (Addition T)) :
    List (Option Fault) × Arena E T :=
  tryAll (fun x a => x.addAt id a) xs a

-- ========================================================= what is compared

/-- The task of a handle is like the top of a blueprint, as far as additions are
concerned. -/
def LikeTop (a : Arena E T) (id : TaskId) (b : Blueprint T) : Prop :=
  ∃ s, a.shown? id = some s ∧ s.name = b.name ∧ s.arity = b.arity
    ∧ s.guard.isSome = b.guard.isSome ∧ s.children.length = b.children.length

/-- A planted task is like the top of its blueprint. -/
theorem likeTop_plant {link : Link} {a : Arena E T} (b : Blueprint T)
    (hsome : a.nextId ≠ .evaluator) (hopen : link.Open a) :
    LikeTop (plant link b a) a.nextId b := by
  cases b with
  | node task guard children =>
      rw [LikeTop, shown?, if_neg hsome,
        plant_slot?_first task guard children hopen]
      refine ⟨_, rfl, rfl, rfl, ?_, length_starts _ _⟩
      cases guard <;> rfl

/-- The task that a planted blueprint is linked from. -/
theorem shown?_plant_from {link : Link} (b : Blueprint T) {a : Arena E T}
    {id : TaskId} {s : Slot T} (hs : a.shown? id = some s)
    (hfrom : link.from? = some id) :
    (plant link b a).shown? id = some (link.mark a.nextId s) := by
  obtain ⟨hne, hlt⟩ := open_of_shown hs
  rw [shown?, if_neg hne] at hs ⊢
  rw [plant_slot?_from b a hlt hfrom, hs, Option.map_some]

/-- An addition is refused in both ways for the same reason, or it is taken in
both, and in the tree it is planted at the task. -/
theorem LikeTop.add {a : Arena E T} {id : TaskId} {b : Blueprint T}
    (h : LikeTop a id b) (x : Addition T) :
    (∃ fault, x.addTo b = .error fault ∧ x.addAt id a = .error fault)
      ∨ ∃ b', x.addTo b = .ok b'
        ∧ x.addAt id a = .ok (plant (x.call id).link (x.call id).blueprint a)
        ∧ LikeTop (plant (x.call id).link (x.call id).blueprint a) id b' := by
  obtain ⟨s, hs, hname, harity, hguard, hchildren⟩ := h
  cases x with
  | guard g =>
      rw [Addition.addTo, Addition.addAt, Addition.call, Construction.attempt,
        Blueprint.setGuard, setGuard, hs]
      dsimp only
      rw [hname]
      cases hb : b.guard with
      | some old =>
          rw [hb] at hguard
          obtain ⟨other, hother⟩ := Option.isSome_iff_exists.1 hguard
          rw [hother]
          exact .inl ⟨_, rfl, rfl⟩
      | none =>
          rw [hb] at hguard
          rw [Option.isNone_iff_eq_none.1 (Option.isSome_eq_false_iff.1 hguard)]
          exact .inr ⟨_, rfl, rfl, _, shown?_plant_from g hs rfl, hname, harity,
            rfl, hchildren⟩
  | child c =>
      rw [Addition.addTo, Addition.addAt, Addition.call, Construction.attempt,
        Blueprint.addChild, attach, hs]
      dsimp only
      rw [hname, harity, hchildren]
      cases b.arity.exceeded? b.children.length with
      | some limit => exact .inl ⟨_, rfl, rfl⟩
      | none =>
          have hone : (b.children ++ [c]).length = b.children.length + 1 :=
            List.length_append
          refine .inr ⟨_, rfl, rfl, _, shown?_plant_from c hs rfl, hname,
            harity, hguard, ?_⟩
          rw [Construction.link, Link.mark, List.length_append, hchildren]
          exact hone.symm

-- ================================================================== the runs

/-- Two steps that are refused alike, or lead on in a relation. -/
inductive Together {S S' : Type} (R : S → S' → Prop) :
    Except Fault S → Except Fault S' → Prop where
  | refused (fault : Fault) : Together R (.error fault) (.error fault)
  | taken {s : S} {s' : S'} (h : R s s') : Together R (.ok s) (.ok s')

/-- What every addition keeps is kept by all of them, and they get the same
answers. -/
theorem tryAll_together {S S' : Type} {add : Addition T → S → Except Fault S}
    {add' : Addition T → S' → Except Fault S'} {R : S → S' → Prop}
    (xs : List (Addition T))
    (hadd : ∀ x ∈ xs, ∀ s s', R s s' → Together R (add x s) (add' x s')) {s : S}
    {s' : S'} (h : R s s') :
    (tryAll add xs s).1 = (tryAll add' xs s').1
      ∧ R (tryAll add xs s).2 (tryAll add' xs s').2 := by
  induction xs generalizing s s' with
  | nil => exact ⟨rfl, h⟩
  | cons x xs ih =>
      rw [List.forall_mem_cons] at hadd
      have hstep := hadd.1 s s' h
      rw [tryAll, tryAll]
      revert hstep
      generalize add x s = y, add' x s' = y'
      intro hstep
      cases hstep with
      | refused fault =>
          obtain ⟨hanswers, hlast⟩ := ih hadd.2 h
          exact ⟨congrArg _ hanswers, hlast⟩
      | taken hnext =>
          obtain ⟨hanswers, hlast⟩ := ih hadd.2 hnext
          exact ⟨congrArg _ hanswers, hlast⟩

theorem LikeTop.refused_iff {a : Arena E T} {id : TaskId} {b : Blueprint T}
    (h : LikeTop a id b) (x : Addition T) (fault : Fault) :
    x.addAt id a = .error fault ↔ x.addTo b = .error fault := by
  rcases h.add x with ⟨cause, hb, ha⟩ | ⟨b', hb, ha, -⟩
  · rw [hb, ha, Except.error.injEq, Except.error.injEq]
  · rw [hb, ha]
    constructor <;> (intro h; cases h)

/-- The two ways refuse the same additions for the same reasons, in any
order. -/
theorem LikeTop.run {a : Arena E T} {id : TaskId} {b : Blueprint T}
    (h : LikeTop a id b) (xs : List (Addition T)) :
    (extended id a xs).1 = (assembled b xs).1
      ∧ LikeTop (extended id a xs).2 id (assembled b xs).2 := by
  have hadd : ∀ x ∈ xs, ∀ b a, LikeTop a id b →
      Together (fun b a => LikeTop a id b) (x.addTo b)
        (x.addAt (E := E) id a) := by
    intro x _ b a h
    rcases h.add x with ⟨fault, hb, ha⟩ | ⟨b', hb, ha, hlike⟩
    · rw [hb, ha]
      exact .refused fault
    · rw [hb, ha]
      exact .taken hlike
  obtain ⟨hanswers, hlike⟩ := tryAll_together xs hadd h
  exact ⟨hanswers.symm, hlike⟩

-- =========================================================== the same slots

theorem plantAll_append (parent : TaskId) (children : List (Blueprint T))
    (c : Blueprint T) (a : Arena E T) :
    plantAll parent (children ++ [c]) a
      = plant (.child parent) c (plantAll parent children a) := by
  induction children generalizing a with
  | nil => rfl
  | cons child rest ih =>
      rw [List.cons_append, plantAll, ih, plantAll]

/-- One more child at the end of a planted blueprint. -/
theorem plant_child_plant (link : Link) (b c : Blueprint T) (a : Arena E T) :
    plant (.child a.nextId) c (plant link b a)
      = plant link (.node b.task b.guard (b.children ++ [c])) a := by
  cases b with
  | node task guard children =>
      rw [plant_node, plant_node, plantAll_append]
      rfl

/-- A guard for a planted task that has no children yet. -/
theorem plant_guard_plant (link : Link) (task : T) (g : Blueprint T)
    (a : Arena E T) :
    plant (.guard a.nextId) g (plant link (.single task) a)
      = plant link (.node task (some g) []) a := by
  rw [Blueprint.single, plant_node, plant_node]
  rfl

/-- Where no guard is set any more, an addition to the planted task gives the
tree in which the blueprint was planted with the addition. -/
theorem planted_together {link : Link} {a : Arena E T}
    (hsome : a.nextId ≠ .evaluator) (hopen : link.Open a) {b : Blueprint T}
    {x : Addition T} (hx : (∃ c, x = .child c) ∨ b.guard ≠ none) :
    Together (fun b' a' => a' = plant link b' a ∧ b'.guard = b.guard)
      (x.addTo b) (x.addAt a.nextId (plant link b a)) := by
  rcases (likeTop_plant b hsome hopen).add x with ⟨fault, hb, ha⟩ |
      ⟨b', hb, ha, -⟩
  · rw [hb, ha]
    exact .refused fault
  · rw [hb, ha]
    refine .taken ?_
    cases x with
    | guard g =>
        rw [Addition.addTo, Blueprint.setGuard] at hb
        rcases hx with ⟨c, hc⟩ | hguarded
        · cases hc
        · obtain ⟨old, hold⟩ := Option.ne_none_iff_exists'.1 hguarded
          rw [hold] at hb
          cases hb
    | child c =>
        rw [Addition.addTo, Blueprint.addChild] at hb
        split at hb
        · cases hb
        · cases hb
          exact ⟨plant_child_plant link b c a, rfl⟩

theorem extended_plant {link : Link} {a : Arena E T}
    (hsome : a.nextId ≠ .evaluator) (hopen : link.Open a) {b : Blueprint T}
    (xs : List (Addition T))
    (hxs : ∀ x ∈ xs, (∃ c, x = .child c) ∨ b.guard ≠ none) :
    (extended a.nextId (plant link b a) xs).2
      = plant link (assembled b xs).2 a := by
  have hadd : ∀ x ∈ xs, ∀ b' a', a' = plant link b' a ∧ b'.guard = b.guard →
      Together (fun b' a' => a' = plant link b' a ∧ b'.guard = b.guard)
        (x.addTo b') (x.addAt a.nextId a') := by
    rintro x hx b' _ ⟨rfl, hguard⟩
    rw [← hguard] at hxs ⊢
    exact planted_together hsome hopen (hxs x hx)
  exact (tryAll_together xs hadd ⟨rfl, rfl⟩).2.1

/-- A guard, if there is to be one, is set before anything else. What comes
after it may be children and guards in any order, since no other guard is
taken. -/
def GuardFirst (xs : List (Addition T)) : Prop :=
  (∃ g rest, xs = .guard g :: rest) ∨ ∀ x ∈ xs, ∃ c, x = .child c

theorem extended_single {link : Link} {a : Arena E T}
    (hsome : a.nextId ≠ .evaluator) (hopen : link.Open a) (task : T)
    {xs : List (Addition T)} (hxs : GuardFirst xs) :
    (extended a.nextId (plant link (.single task) a) xs).2
      = plant link (assembled (.single task) xs).2 a := by
  rcases hxs with ⟨g, rest, rfl⟩ | hchildren
  · have hguarded : (Addition.guard g).addAt a.nextId
        (plant link (.single task) a)
        = .ok (plant link (.node task (some g) []) a) := by
      rcases (likeTop_plant (.single task) hsome hopen).add (.guard g) with
        ⟨fault, hb, -⟩ | ⟨b', -, ha, -⟩
      · cases hb
      · exact ha.trans (congrArg _ (plant_guard_plant link task g a))
    have hrest := extended_plant hsome hopen (b := .node task (some g) []) rest
      fun _ _ => .inr (Option.some_ne_none g)
    rw [extended, tryAll, hguarded]
    exact hrest
  · exact extended_plant hsome hopen xs fun x hx => .inl (hchildren x hx)

/-- An addition that is refused leaves everything as it was. -/
theorem tryAll_refused {S : Type} {add : Addition T → S → Except Fault S}
    {xs : List (Addition T)} {s : S} {x : Addition T} {fault : Fault}
    (h : add x (tryAll add xs s).2 = .error fault) :
    (tryAll add (xs ++ [x]) s).2 = (tryAll add xs s).2 := by
  induction xs generalizing s with
  | nil =>
      have hrefused : add x s = .error fault := h
      show (tryAll add [x] s).2 = s
      rw [tryAll, hrefused]
      rfl
  | cons y ys ih =>
      rw [tryAll] at h
      rw [List.cons_append, tryAll, tryAll]
      revert h
      rcases add y s with cause | next
      · exact ih
      · exact ih

/-- A tree without a root gets a task, and then additions to it, of which some
may be refused. They are refused for the task in the tree exactly as they are
refused for the blueprint, for the same reasons and without any change. Where a
guard is set before the children, the tree is the one that gets the finished
blueprint at once: the same slots under the same handles, the same root, and the
same notices to its listeners in the same order. A tree with a root gets
neither. -/
theorem setRoot_piecemeal {fine : Bool} {a : Arena E T} (h : History fine a)
    (task : T) (xs : List (Addition T)) :
    (a.root ≠ none ∧ ∀ b : Blueprint T, a.setRoot b = .error .secondRoot)
      ∨ ∃ a', a.setRoot (.single task) = .ok (a.nextId, a')
        ∧ (extended a.nextId a' xs).1 = (assembled (.single task) xs).1
        ∧ (∀ x fault,
          (x.addAt a.nextId (extended a.nextId a' xs).2 = .error fault
            ↔ x.addTo (assembled (.single task) xs).2 = .error fault)
          ∧ (x.addTo (assembled (.single task) xs).2 = .error fault →
            (extended a.nextId a' (xs ++ [x])).2 = (extended a.nextId a' xs).2
              ∧ (assembled (.single task) (xs ++ [x])).2
                = (assembled (.single task) xs).2))
        ∧ (GuardFirst xs → a.setRoot (assembled (.single task) xs).2
          = .ok (a.nextId, (extended a.nextId a' xs).2)) := by
  cases hroot : a.root with
  | some r =>
      refine .inl ⟨Option.some_ne_none r, fun b => ?_⟩
      rw [setRoot, hroot]
  | none =>
      have hsome : a.nextId ≠ .evaluator := h.ready.wired.nextId_ne
      have hopen : Link.root.Open a := hroot
      have hset : ∀ b : Blueprint T,
          a.setRoot b = .ok (a.nextId, plant .root b a) := fun b => by
        rw [setRoot, hroot]
      obtain ⟨hanswers, hlike⟩ :=
        (likeTop_plant (.single task) hsome hopen).run xs
      refine .inr ⟨_, hset _, hanswers,
        fun x fault => ⟨hlike.refused_iff x fault, fun hb => ?_⟩, fun hxs => ?_⟩
      · exact ⟨tryAll_refused ((hlike.refused_iff x fault).2 hb),
          tryAll_refused hb⟩
      · rw [hset, extended_single hsome hopen task hxs]

section

open Bench

/-- A tree without tasks, with a listener. -/
def watched : Arena Store Common :=
  { (Arena.empty (.ofCounters .empty) id : Arena Store Common) with
    listeners := [.observer 7] }

/-- A guard and a child, and then one more of each. -/
def surplus : List (Addition Common) :=
  [.guard (.single .success), .child guarded, .child (.single .failure),
    .guard sapling]

/-- A decorator takes one guard and one child, in a tree and outside of it. -/
theorem setRoot_piecemeal_surplus :
    History true watched ∧ GuardFirst surplus
      ∧ ∃ a', watched.setRoot (.single .invert) = .ok (⟨1⟩, a')
        ∧ (extended ⟨1⟩ a' surplus).1
          = [none, none, some (.childLimit "invert" 1),
            some (.secondGuard "invert")]
        ∧ watched.setRoot (.node .invert (some (.single .success)) [guarded])
          = .ok (⟨1⟩, (extended ⟨1⟩ a' surplus).2)
        ∧ (extended ⟨1⟩ a' surplus).2.told
          = [(.observer 7, .added none 0), (.observer 7, .added (some ⟨1⟩) 0),
            (.observer 7, .added (some ⟨3⟩) 0),
            (.observer 7, .added (some ⟨3⟩) 1)] := by
  have hhistory : History true watched := (History.empty _ _).outside _ _ _
  have hfirst : GuardFirst surplus := .inl ⟨_, _, rfl⟩
  have hanswers : (assembled (.single .invert) surplus).1
      = [none, none, some (.childLimit "invert" 1),
        some (.secondGuard "invert")] := rfl
  have hset : watched.setRoot (.single .invert)
      = .ok (⟨1⟩, plant .root (.single .invert) watched) :=
    rfl
  rcases setRoot_piecemeal hhistory .invert surplus with ⟨hrooted, -⟩ |
      ⟨a', ha', hsame, -, hequal⟩
  · exact absurd rfl hrooted
  · refine ⟨hhistory, hfirst, a', ha', hsame.trans hanswers, hequal hfirst, ?_⟩
    cases ha'.symm.trans hset
    decide +kernel

end

end TaskTree.Arena
