/-
Trees that come from outlines keep the contract of their tasks.

A dialect of the standard vocabulary makes no actions, and an outline
describes whole trees only, also where it takes copies of subtrees that
were read from outlines before. So the trees that such outlines describe
are sound (`sound_number`), and remain so in whatever is done with them
afterwards: steps, resets and copies (`Kept.mirrors`). A step of such a
tree comes to its end, and the one fault that it may come to is a guard
that is still running when its turn is over (`step_of_outline`).
-/
import Mathlib
import TaskTree.Proofs.Direct.Renewal
import TaskTree.Proofs.Outline.Whole

namespace TaskTree

-- ========================================================== the dialects

namespace Outline

section Standard

variable {E A T : Type} {P : Maker T → Prop}

/-- What holds of a new value and of all old ones holds of all values. -/
theorem forall_put {words : Vocabulary T} {maker : Maker T} {name : String}
    (h : ∀ word m, words.get? word = some m → P m) (hmaker : P maker) :
    ∀ word m, (words.put name maker).get? word = some m → P m := by
  intro word m hm
  by_cases heq : word = name
  · subst heq
    rw [Roster.get?_put_self] at hm
    cases hm
    exact hmaker
  · rw [Roster.get?_put_of_ne _ _ heq] at hm
    exact h word m hm

/-- A property of makers that holds of the words and of the plain tasks holds of
both together. -/
theorem forall_foldl_put {embed : Stock E A → T} (tasks : List (Stock E A))
    {words : Vocabulary T} (h : ∀ word m, words.get? word = some m → P m)
    (hplain : ∀ task ∈ tasks, P (Vocabulary.plain task.name (embed task))) :
    ∀ word m, (tasks.foldl (fun words task =>
        words.put task.name (Vocabulary.plain task.name (embed task)))
        words).get? word = some m →
      P m := by
  induction tasks generalizing words with
  | nil => exact h
  | cons task rest ih =>
      exact ih (forall_put h (hplain task List.mem_cons_self))
        fun t ht => hplain t (List.mem_cons_of_mem _ ht)

/-- What the standard vocabulary makes are its plain tasks, repeating tasks
and waiting tasks. -/
theorem standard_makes_of {embed : Stock E A → T} (ok : T → Prop)
    (hplain : ∀ task ∈ Vocabulary.plainStock, ok (embed task))
    (hrepeats : ∀ count, ok (embed (.repeats count)))
    (hwaits : ∀ seconds, ok (embed (.waits seconds))) {name : String}
    {attributes : Attributes} {made : T}
    (h : (Vocabulary.standard embed).make name attributes = .ok made) :
    ok made := by
  -- The property of a maker, with a name so that the lemmas on words can be
  -- used.
  obtain ⟨P, hP⟩ : ∃ P : Maker T → Prop, P = fun maker => ∀ attributes made,
    maker attributes = .ok made → ok made := ⟨_, rfl⟩
  have hplains : ∀ task ∈ (Vocabulary.plainStock : List (Stock E A)),
      P (Vocabulary.plain task.name (embed task)) := by
    intro task htask
    rw [hP]
    intro attributes made hmade
    obtain ⟨_, -, hmade⟩ := bind_eq_ok hmade
    cases hmade
    exact hplain task htask
  -- The two words with attributes.
  have hrepeat : P (Vocabulary.repeatMaker embed) := by
    rw [hP]
    intro attributes made hmade
    obtain ⟨_, -, hmade⟩ := bind_eq_ok hmade
    obtain ⟨count, -, hmade⟩ := bind_eq_ok hmade
    cases hmade
    exact hrepeats count
  have hwait : P (Vocabulary.waitMaker embed) := by
    rw [hP]
    intro attributes made hmade
    obtain ⟨_, -, hmade⟩ := bind_eq_ok hmade
    obtain ⟨seconds, -, hmade⟩ := bind_eq_ok hmade
    split at hmade
    · cases hmade
      exact hwaits _
    · cases hmade
  have hall : ∀ word m, (Vocabulary.standard embed).get? word = some m → P m :=
    forall_put
      (forall_put (forall_foldl_put _ (fun word m hm => nomatch hm) hplains)
        hrepeat) hwait
  unfold Vocabulary.make at h
  split at h
  · rename_i maker hmaker
    have hmakes := hall _ _ hmaker
    rw [hP] at hmakes
    exact hmakes _ _ h
  · cases h

/-- The standard vocabulary makes stock tasks, and no actions among them. -/
theorem standard_makes {embed : Stock E A → T} {name : String}
    {attributes : Attributes} {made : T}
    (h : (Vocabulary.standard embed).make name attributes = .ok made) :
    ∃ task : Stock E A, task.speaks ∧ made = embed task := by
  have hplain : ∀ task ∈ (Vocabulary.plainStock : List (Stock E A)),
      task.speaks := by
    intro task htask
    simp only [Vocabulary.plainStock, List.mem_cons, List.not_mem_nil,
      or_false] at htask
    rcases htask with rfl | rfl | rfl | rfl | rfl | rfl | rfl | rfl |
        rfl <;> rfl
  refine standard_makes_of
    (fun made => ∃ task : Stock E A, task.speaks ∧ made = embed task) ?_ ?_ ?_ h
  · exact fun task htask => ⟨task, hplain task htask, rfl⟩
  · exact fun count => ⟨.repeats count, rfl, rfl⟩
  · exact fun seconds => ⟨.waits seconds, rfl, rfl⟩

end Standard

variable {E A : Type} [Deed E A]

/-- A shelf that was filled by reading outlines, each of them with what
stood on the shelf before. -/
inductive Filled (settings : Settings) : Shelf (Stock E A) → Prop where
  | empty : Filled settings Roster.empty
  | put {shelf : Shelf (Stock E A)} {name text : String} {log : List Record}
      {subtree : Blueprint (Stock E A)} (filled : Filled settings shelf)
      (parsed :
        Dialect.parse { vocabulary := .standard id, shelf, settings } text
        = (log, .ok subtree)) :
      Filled settings (shelf.put name subtree)

/-- A task speaks as before when it is rewound. -/
theorem rewind_speaks (task : Stock E A) (h : task.speaks) :
    Stock.speaks (Behavior.rewind task)
      ∧ Behavior.arity (Behavior.rewind task) = Behavior.arity task := by
  cases task <;> exact ⟨h, rfl⟩

/-- The standard vocabulary with such a shelf makes a sound dialect. By
induction over the filling of the shelf: what was parsed under a sound dialect
is whole, so the next one is sound. -/
theorem Filled.sound {settings : Settings} {shelf : Shelf (Stock E A)}
    (h : Filled settings shelf) :
    Dialect.Sound (fun task => task.speaks = true)
      ({ vocabulary := .standard id, shelf, settings } :
        Dialect (Stock E A)) := by
  have hmakes : ∀ name attributes (task : Stock E A),
      (Vocabulary.standard id).make name attributes = .ok task →
        task.speaks = true := by
    intro name attributes task hmade
    obtain ⟨task', hspeaks, rfl⟩ := standard_makes hmade
    exact hspeaks
  induction h with
  | empty =>
      exact ⟨hmakes, (fun name subtree hget => nomatch hget), rewind_speaks⟩
  | @put shelf name _ _ subtree _ parsed ih =>
      refine ⟨hmakes, fun word b hget => ?_, rewind_speaks⟩
      have hsubtree := parse_whole ih parsed
      by_cases heq : word = name
      · subst heq
        rw [Roster.get?_put_self] at hget
        cases hget
        exact hsubtree
      · rw [Roster.get?_put_of_ne _ _ heq] at hget
        exact ih.shelf word b hget

end Outline

-- ============================================================= the trees

namespace Direct

open Live

variable {E A : Type} [Deed E A]

mutual

/-- A whole blueprint without actions is a sound tree. -/
theorem sound_number (next : Nat) (b : Blueprint (Stock E A))
    (h : Whole (fun task => task.speaks = true) b) : Sound (number next b) := by
  match b with
  | .node task guard children =>
      cases h with
      | node fit enough below beneath =>
          obtain ⟨hall, hlength⟩ :=
            soundAll_number (next + 1 + Blueprint.countGuard guard) children
              beneath
          rw [number]
          refine .node fit ?_ (soundGuard_number _ guard below) hall
          rw [hlength]
          exact enough

/-- A numbered guard is sound if the guard is whole. -/
theorem soundGuard_number (next : Nat) (guard : Option (Blueprint (Stock E A)))
    (h : ∀ g, guard = some g → Whole (fun task => task.speaks = true) g) :
    ∀ g, numberGuard next guard = some g → Sound g := by
  intro g hg
  match guard with
  | none => cases hg
  | some guard =>
      cases hg
      exact sound_number next guard (h guard rfl)

/-- So is a numbered row, and it is as long as before. -/
theorem soundAll_number (next : Nat) (children : List (Blueprint (Stock E A)))
    (h : ∀ c ∈ children, Whole (fun task => task.speaks = true) c) :
    (∀ c ∈ numberAll next children, Sound c)
      ∧ (numberAll next children).length = children.length := by
  match children with
  | [] => exact ⟨(fun c hc => nomatch hc), rfl⟩
  | child :: rest =>
      have hchild := sound_number next child (h child List.mem_cons_self)
      obtain ⟨hall, hlength⟩ := soundAll_number (next + child.count) rest
        fun c hc => h c (List.mem_cons_of_mem _ hc)
      rw [numberAll]
      refine ⟨fun c hc => ?_, ?_⟩
      · rcases List.mem_cons.1 hc with rfl | hc
        · exact hchild
        · exact hall c hc
      · rw [List.length_cons, List.length_cons, hlength]

end

end Direct

-- ======================================================== what is done

namespace Arena

/-- The arenas that come of one by steps, whether or not a fault aborts
them, by resets and by copying. -/
inductive Reached {E T : Type} [Behavior E T] (start : Arena E T) :
    Arena E T → Prop where
  | start : Reached start start
  | step {a a' : Arena E T} {budget : Nat} {delta : Float32}
      {result : Except Fault Status} (h : Reached start a)
      (hstep : Arena.step budget delta a = some (result, a')) :
      Reached start a'
  | reset {a : Arena E T} (h : Reached start a) : Reached start a.reset
  | instantiate {a : Arena E T} (h : Reached start a) (board : E) :
      Reached start (a.instantiate board)

variable {E A : Type} [Deed E A]

open Direct in
/-- Whatever is done with a sound tree, it stays a sound tree at rest. By
induction over the calls: each of them leaves a tree that the arena mirrors, and
a sound one. -/
theorem Reached.mirrors {start a : Arena E (Stock E A)} (h : Reached start a)
    {base : List (Listener × Notice)} {live : Live E A} {w : World E}
    (hstart : Mirrors base start live w) (hsound : Sound live) :
    ∃ base live w, Mirrors base a live w ∧ Sound live := by
  induction h with
  | start => exact ⟨base, live, w, hstart, hsound⟩
  | @step a a' budget delta result _ hstep ih =>
      obtain ⟨base', live', w', hmirrors, hsound'⟩ := ih
      obtain ⟨a'', hsettles, hmirrors', -⟩ := step_mirrors hmirrors delta
      have hsame := (step_settles hstep).unique hsettles
      obtain ⟨-, rfl⟩ := Prod.mk.inj hsame
      exact ⟨base', _, _, hmirrors', turn_sound hsound' delta w'⟩
  | reset _ ih =>
      obtain ⟨base', live', w', hmirrors, hsound'⟩ := ih
      exact ⟨base', _, w', reset_mirrors hmirrors, renewed_sound hsound'⟩
  | instantiate _ board ih =>
      obtain ⟨base', live', w', hmirrors, hsound'⟩ := ih
      exact ⟨_, _, _, instantiate_mirrors hmirrors board, renewed_sound hsound'⟩

open Direct Outline in
/-- A tree that an outline of the standard vocabulary describes, whatever
outlines filled the shelf: after any steps, resets and copies, a step gives
a status or finds a guard that came to no end, and nothing else. -/
theorem step_of_outline {settings : Settings}
    {shelf : Outline.Shelf (Stock E A)} {text : String} {log : List Record}
    {root : Blueprint (Stock E A)} (hshelf : Filled settings shelf)
    (hparse : Dialect.parse { vocabulary := .standard id, shelf, settings } text
      = (log, .ok root)) (board : E) (dice : Nat → Nat)
    {a : Arena E (Stock E A)}
    (hreached : Reached (ofBlueprint root board dice) a) (delta : Float32) :
    ∃ result a', Settles (fun b => Arena.step b delta a) (result, a')
      ∧ Lawful result := by
  have hwhole := parse_whole hshelf.sound hparse
  obtain ⟨base, live, w, hmirrors, hsound⟩ :=
    hreached.mirrors (mirrors_ofBlueprint root board dice).1
      (sound_number 1 root hwhole)
  obtain ⟨a', hsettles, -⟩ := step_mirrors hmirrors delta
  exact ⟨_, a', hsettles, step_lawful hsound delta w⟩

/-- There is nothing to do for an action where there are none. -/
instance : Deed Unit Empty where
  act deed := nomatch deed

/-- A decorator with the child that it needs. -/
def inverted : Blueprint (Stock Unit Empty) :=
  .node .invert none [.single .success]

open Outline in
/-- A copy of a subtree as guard and child of a task, after a reset and in
a copy of the tree. -/
theorem step_of_outline_inverted :
    ∃ result a', Settles (fun b => Arena.step b 0
        ((ofBlueprint (.node (.repeats .forever) (some inverted) [inverted]) ()
          id).reset.instantiate
          ())) (result, a') ∧ Lawful result := by
  have hread : Dialect.parse ⟨.standard id, Roster.empty, .standard⟩
      "invert\n success"
      = ([], .ok inverted) := by
    cbv
  have hparse :
      Dialect.parse ⟨.standard id, Roster.empty.put "late" inverted, .standard⟩
      "?->late repeat\n ->late"
      = ([], .ok (.node (.repeats .forever) (some inverted) [inverted])) := by
    cbv
  exact step_of_outline (.put .empty hread) hparse () id
    (.instantiate (.reset .start) ()) 0

end Arena

end TaskTree
