/-
Trees as their users can bring them about.

A user creates a tree, lets it grow by blueprints that can be made, steps
it, resets it and copies it, and calls that are refused and steps that are
aborted are among what may happen (`Composed`). Every such tree is one tree
in which no task has more children than it takes, and a call of
construction changes it by exactly the blueprint that it plants
(`composed_wellFormed`).

That children fit is true of each slot by itself (`Slot.Suited`). Steps and
resets leave the links alone and tasks keep their arities. A call adds one
link, where there is room for it, and slots whose children were counted
when the blueprint was made.
-/
import TaskTree.Bench.Chore
import TaskTree.Proofs.Arena.Construction
import TaskTree.Proofs.Made
import TaskTree.Proofs.Steady

namespace TaskTree

variable {E T : Type} [Behavior E T]

-- =========================================================== suited slots

/-- A slot has noted what its task is, and the task does not have more
children than it takes. -/
structure Slot.Suited (s : Slot T) : Prop where
  noted : ∃ occupant,
    s.occupant = some occupant ∧ Behavior.name occupant = s.name
    ∧ Behavior.arity occupant = s.arity
  room : ∀ limit, s.arity.most = some limit → s.children.length ≤ limit

/-- A new slot is suited to its task: it notes name and arity from it, and has
no children. -/
theorem Slot.suited_of (occupant : Occupant T) (parent : Option TaskId) :
    (Slot.of occupant parent).Suited :=
  ⟨⟨occupant, rfl, rfl, rfl⟩, fun _ _ => Nat.zero_le _⟩

/-- Only the occupant, its name and arity and the children matter. -/
theorem Slot.Suited.congr {s s' : Slot T} (h : s.Suited)
    (hoccupant : s'.occupant = s.occupant)
    (hlinks : s'.name = s.name ∧ s'.arity = s.arity
      ∧ s'.children = s.children) : s'.Suited := by
  obtain ⟨hname, harity, hchildren⟩ := hlinks
  refine ⟨?_, ?_⟩
  · rw [hoccupant, hname, harity]
    exact h.noted
  · rw [harity, hchildren]
    exact h.room

/-- A reset changes the task at most by rewinding it, and a steady task keeps
its name and arity then. -/
theorem Slot.Suited.reset (hsteady : Steady E T) {s : Slot T} (h : s.Suited) :
    s.reset.Suited := by
  obtain ⟨occupant, hoccupant, hname, harity⟩ := h.noted
  obtain ⟨hname', harity'⟩ := hsteady.rewound occupant
  refine ⟨⟨Behavior.rewind occupant, ?_, hname'.trans hname,
    harity'.trans harity⟩, h.room⟩
  rw [Slot.reset, hoccupant]
  rfl

namespace Arena

variable {a a' : Arena E T}

/-- All slots are suited. -/
def Suited (a : Arena E T) : Prop := ∀ id s, a.slot? id = some s → s.Suited

/-- A change of one slot that keeps slots suited keeps all of them so. -/
theorem Suited.modify (h : Suited a) (id : TaskId) {f : Slot T → Slot T}
    (hf : ∀ s : Slot T, s.Suited → (f s).Suited) : Suited (a.modify id f) := by
  intro x s hs
  rw [slot?_modify] at hs
  split at hs
  · obtain ⟨t, ht, rfl⟩ := Option.map_eq_some_iff.1 hs
    exact hf t (h _ t ht)
  · exact h x s hs

/-- Control has no part in it. -/
theorem Suited.anchorRoot (h : Suited a) : Suited a.anchorRoot := by
  rw [Arena.anchorRoot]
  split
  · exact h
  · exact h.modify _ fun s hs => hs.congr rfl ⟨rfl, rfl, rfl⟩

/-- Resetting a tree keeps its slots suited. -/
theorem Suited.reset (hsteady : Steady E T) (h : Suited a) :
    Suited a.reset := by
  rw [Arena.reset]
  split
  · exact h
  · have hkeeps : ∀ a : Arena E T,
        ∀ id, Suited a → Suited (a.modify id Slot.reset) :=
      fun _ id h => h.modify id fun _ hs => hs.reset hsteady
    have hreset := resetFrom_keeps hkeeps a.slots.size ‹TaskId› h
    exact hreset.anchorRoot

/-- So does copying it. -/
theorem Suited.instantiate (hsteady : Steady E T) (h : Suited a) (board : E) :
    Suited (a.instantiate board) := by
  obtain ⟨b, hslots, -, -, -, heq⟩ := instantiate_slots a board
  have hreset : Suited b := by
    intro id s hs
    rw [hslots] at hs
    obtain ⟨t, ht, rfl⟩ := Option.map_eq_some_iff.1 hs
    exact (h id t ht).reset hsteady
  rw [heq]
  exact hreset.anchorRoot

/-- So does a step: its tasks have aged by their own hooks, and the links of the
slots are untouched. -/
theorem Suited.step (hsteady : Steady E T) (hrest : AtRest a) (h : Suited a)
    {budget : Nat} {delta : Float32} {result : Except Fault Status}
    (hstep : Arena.step budget delta a = some (result, a')) : Suited a' := by
  obtain ⟨-, hlinks, haged⟩ := step_seated hrest hstep
  intro id s' hs'
  -- The slot before the step has the same links.
  have hsame := hlinks.links id
  rw [hs', Option.map_some] at hsame
  obtain ⟨s, hs, heq⟩ := Option.map_eq_some_iff.1 hsame.symm
  -- The task before the step, and what has become of it.
  obtain ⟨occupant, hoccupant, hname, harity⟩ := (h id s hs).noted
  obtain ⟨occupant', hnow, hage⟩ :=
    haged id occupant ((occupant_eq hs).trans hoccupant)
  obtain ⟨hname', harity'⟩ := hsteady.aged hage
  have hnames : s.name = s'.name := congrArg Links.name heq
  have harities : s.arity = s'.arity := congrArg Links.arity heq
  have hchildren : s.children = s'.children := congrArg Links.children heq
  refine ⟨⟨occupant', (occupant_eq hs').symm.trans hnow, ?_, ?_⟩,
    fun limit hlimit => ?_⟩
  · rw [hname', hname, hnames]
  · rw [harity', harity, harities]
  · rw [← hchildren]
    exact (h id s hs).room limit (harities ▸ hlimit)

mutual

/-- The slots of a blueprint that has room for its children. -/
theorem suited_rows (link : Link) (first : Nat) (b : Blueprint T)
    (h : b.Fitting) :
    ∀ s ∈ rows link first b, s.Suited := by
  match b with
  | .node task guard children =>
      cases h with
      | node room below beneath =>
          intro s hs
          rw [rows] at hs
          rcases List.mem_cons.1 hs with rfl | hs
          · refine ⟨⟨_, rfl, rfl, rfl⟩, fun limit hlimit => ?_⟩
            rw [length_starts]
            exact room limit hlimit
          rcases List.mem_append.1 hs with hs | hs
          · exact suited_rowsGuard _ _ guard below s hs
          · exact suited_rowsAll _ _ children beneath s hs

/-- The slots of a guard that fits are suited. -/
theorem suited_rowsGuard (owner : TaskId) (first : Nat)
    (guard : Option (Blueprint T)) (h : ∀ g, guard = some g → g.Fitting) :
    ∀ s ∈ rowsGuard owner first guard, s.Suited := by
  match guard with
  | none => exact fun s hs => nomatch hs
  | some guard => exact suited_rows _ _ guard (h guard rfl)

/-- So are those of children that fit. -/
theorem suited_rowsAll (parent : TaskId) (first : Nat)
    (children : List (Blueprint T)) (h : ∀ c ∈ children, c.Fitting) :
    ∀ s ∈ rowsAll parent first children, s.Suited := by
  match children with
  | [] => exact fun s hs => nomatch hs
  | child :: rest =>
      intro s hs
      rw [rowsAll] at hs
      rcases List.mem_append.1 hs with hs | hs
      · exact suited_rows _ _ child (h child List.mem_cons_self) s hs
      · exact suited_rowsAll _ _ rest
          (fun c hc => h c (List.mem_cons_of_mem _ hc)) s hs

end

/-- One more link where there is room for it. -/
theorem Link.Vacant.suited {link : Link} (hvacant : link.Vacant a)
    (h : Suited a) {id : TaskId} {s : Slot T} (hs : a.slot? id = some s)
    (hfrom : link.from? = some id) (new : TaskId) :
    (link.mark new s).Suited := by
  cases link with
  | root => cases hfrom
  | guard owner => exact (h id s hs).congr rfl ⟨rfl, rfl, rfl⟩
  | child parent =>
      cases hfrom
      obtain ⟨t, ht, hroom⟩ := hvacant
      rw [shown?, if_neg (open_of_shown ht).1] at ht
      cases ht.symm.trans hs
      refine ⟨(h id s hs).noted, fun limit hlimit => ?_⟩
      rw [Link.mark, List.length_append]
      exact hroom limit hlimit

/-- Planting keeps slots suited: the parent had room for one child more, and the
new slots are those of a blueprint that fits. -/
theorem Suited.planted {link : Link} {b : Blueprint T} (h : Suited a)
    (hvacant : link.Vacant a) (hb : b.Fitting)
    (hplanted : Planted link b a a') : Suited a' := by
  intro id s hs
  by_cases hold : id.index < a.slots.size
  · rw [hplanted.old id hold] at hs
    split at hs
    · rename_i hfrom
      obtain ⟨t, ht, rfl⟩ := Option.map_eq_some_iff.1 hs
      exact hvacant.suited h ht hfrom a.nextId
    · exact h id s hs
  · have hid : (⟨a.slots.size + (id.index - a.slots.size)⟩ : TaskId) = id := by
      obtain ⟨i⟩ := id
      exact congrArg TaskId.mk (Nat.add_sub_cancel' (Nat.le_of_not_lt hold))
    rw [← hid, hplanted.rows] at hs
    exact suited_rows _ _ b hb s (List.mem_of_getElem? hs)

-- ========================================================= composed trees

/-- The trees that calls of the interface bring about. -/
inductive Composed : Arena E T → Prop where
  | empty (board : E) (dice : Nat → Nat) : Composed (Arena.empty board dice)
  | construct {a : Arena E T} {call : Construction T} (before : Composed a)
      (made : call.blueprint.Made) : Composed (call.perform a).2
  | step {a a' : Arena E T} {budget : Nat} {delta : Float32}
      {result : Except Fault Status} (before : Composed a)
      (stepped : Arena.step budget delta a = some (result, a')) : Composed a'
  | reset {a : Arena E T} (before : Composed a) : Composed a.reset
  | instantiate {a : Arena E T} (before : Composed a) (board : E) :
      Composed (a.instantiate board)
  | outside {a : Arena E T} (before : Composed a) (board : E)
      (listeners : List Listener) (journal : Array Entry) :
      Composed { a with board, listeners, journal }

/-- A tree that is created with its root. -/
theorem composed_ofBlueprint {root : Blueprint T} (made : root.Made) (board : E)
    (dice : Nat → Nat) :
    Composed (ofBlueprint root board dice) := by
  have hroot :
      Composed
        ((Construction.setRoot root).perform (Arena.empty board dice)).2 :=
    .construct (.empty board dice) made
  exact hroot

/-- What is composed has a history of calls. -/
theorem Composed.history (h : Composed a) : ∃ fine, History fine a := by
  induction h with
  | empty board dice => exact ⟨true, .empty board dice⟩
  | construct _ _ ih => exact ih.imp fun _ h => h.construct _
  | step _ stepped ih => exact ⟨_, ih.choose_spec.step stepped⟩
  | reset _ ih => exact ⟨true, ih.choose_spec.reset⟩
  | instantiate _ board ih => exact ⟨true, ih.choose_spec.instantiate board⟩
  | outside _ board listeners journal ih =>
      exact ih.imp fun _ h => h.outside board listeners journal

/-- The slot of the guard evaluator is suited. -/
theorem suited_empty (board : E) (dice : Nat → Nat) :
    Suited (Arena.empty board dice : Arena E T) := by
  intro id s hs
  rw [slot?_empty] at hs
  split at hs
  · cases hs
    exact Slot.suited_of _ _
  · cases hs

/-- All slots of a composed arena are suited to their tasks. By induction on how
the arena was composed; only a construction call adds slots. -/
theorem Composed.suited (hsteady : Steady E T) (h : Composed a) : Suited a := by
  induction h with
  | empty board dice => exact suited_empty board dice
  | @construct a call before made ih =>
      obtain ⟨fine, hhistory⟩ := before.history
      -- A refused call leaves the arena as it was.
      rcases perform_cases hhistory.ready hhistory.joined call with
        ⟨-, fault, hperform⟩ | ⟨hvacant, a', hperform, hplanted⟩
      · rw [hperform]
        exact ih
      · rw [hperform]
        exact ih.planted hvacant
          (made.fitting fun task => (hsteady.rewind task).2) hplanted
  | step before stepped ih =>
      obtain ⟨fine, hhistory⟩ := before.history
      exact ih.step hsteady hhistory.ready.rest stepped
  | reset _ ih => exact ih.reset hsteady
  | instantiate _ board ih => exact ih.instantiate hsteady board
  | outside _ board listeners journal ih => exact ih

/-- Whatever is done with a tree, it is one tree, its tasks have no more
children than they take, and a call of construction plants its blueprint in
it and does nothing else, or is refused and does nothing. -/
theorem composed_wellFormed (hsteady : Steady E T) (h : Composed a) :
    OneTree a ∧ (∀ id s, a.slot? id = some s → s.Suited)
      ∧ ∀ call : Construction T,
        (¬ call.link.Vacant a ∧ ∃ fault, call.perform a = (.error fault, a))
          ∨ (call.link.Vacant a ∧ ∃ a', call.perform a = (.ok a.nextId, a')
            ∧ Planted call.link call.blueprint a a') := by
  obtain ⟨fine, hhistory⟩ := h.history
  exact ⟨hhistory.oneTree, h.suited hsteady,
    perform_cases hhistory.ready hhistory.joined⟩

open Bench in
/-- Two tasks under one, the first of them with a guard that is guarded
itself. -/
def guarded : Blueprint Common :=
  .node (.sequence 0) none
    [.node .success (some (.node .success (some (.single .failure)) [])) [],
      .single .failure]

open Bench in
/-- A task with a guard and a child. -/
def sapling : Blueprint Common :=
  .node .invert (some (.single .success)) [.single .failure]

/-- The blueprint is made by the calls that make blueprints. -/
theorem made_guarded : guarded.Made := by
  have hguard :
      (Blueprint.node (.success : Bench.Common) (some (.single .failure))
        []).Made :=
    .setGuard (.single .success) (.single .failure) rfl
  have hfirst : (Blueprint.node (.success : Bench.Common)
      (some (.node .success (some (.single .failure)) [])) []).Made :=
    .setGuard (.single .success) hguard rfl
  exact .addChild (.addChild (.single (.sequence 0)) hfirst rfl)
    (.single .failure) rfl

/-- A tree that was stepped and reset, with a listener. -/
def tended (a : Arena Bench.Store Bench.Common) :
    Arena Bench.Store Bench.Common :=
  { a.reset with listeners := [.observer 7], journal := #[] }

/-- The stepped and reset tree gets one more subtree under its root, and its
listener is told of the two tasks in it that are no guards. -/
theorem composed_wellFormed_guarded :
    ∃ a a' : Arena Bench.Store Bench.Common,
      Arena.step 20 0 (ofBlueprint guarded (.ofCounters .empty) id)
        = some (.ok .failed, a)
        ∧ Steady Bench.Store Bench.Common ∧ Composed (tended a)
        ∧ OneTree (tended a)
        ∧ (Construction.attach ⟨1⟩ sapling).perform (tended a)
          = (.ok (tended a).nextId, a')
        ∧ Planted (.child ⟨1⟩) sapling (tended a) a'
        ∧ a'.told
          = [(.observer 7, .added (some ⟨1⟩) 2),
            (.observer 7, .added (some ⟨6⟩) 0)] := by
  obtain ⟨a, hstep⟩ : ∃ a,
      Arena.step 20 0 (ofBlueprint guarded (.ofCounters .empty) id)
      = some (.ok .failed, a) := ⟨_, rfl⟩
  -- What the listener is told can be evaluated, the arena itself need not be.
  have htold :
      (Arena.step 20 0 (ofBlueprint guarded (.ofCounters .empty) id)).map
        (fun r =>
          ((Construction.attach ⟨1⟩ sapling).perform (tended r.2)).2.told)
      = some [(.observer 7, .added (some ⟨1⟩) 2),
        (.observer 7, .added (some ⟨6⟩) 0)] := by
    decide +kernel
  rw [hstep, Option.map_some, Option.some.injEq] at htold
  have hsteady := Stock.steady Bench.Store Bench.Chore
  have hcomposed : Composed (tended a) :=
    (((composed_ofBlueprint made_guarded _ id).step hstep).reset).outside _ _ _
  obtain ⟨htree, -, hcalls⟩ := composed_wellFormed hsteady hcomposed
  -- The call is not refused, since its listener was told something.
  rcases hcalls (.attach ⟨1⟩ sapling) with ⟨-, fault, hrefused⟩ |
      ⟨-, a', hperform, hplanted⟩
  · rw [hrefused] at htold
    cases htold
  · rw [hperform] at htold
    exact ⟨a, a', hstep, hsteady, hcomposed, htree, hperform, hplanted, htold⟩

end Arena

end TaskTree
