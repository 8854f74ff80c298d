/-
The course of a step, move by move.

`drive` and the functions around it call each other, and what is going on
at one moment of a step is spread over their calls. Here it is written
down: a `Scene` is an arena with the turns and hooks that have begun in it
and not yet come to their end, the innermost first. A `Move` is the least
thing that can happen next, such as a task's turn beginning, one of its
hooks being called, or a report reaching its receiver. `drive_course` says
that the run of a task is a sequence of moves which leaves nothing going on
that was not going on before, and `step_course` says it of a step.

So what every move preserves, every step preserves (`Course.invariant`),
whatever the hooks of the tasks do. Moves are allowed generously for that
purpose. They say on what conditions something may happen, and these are
the conditions that invariants need; they do not say that it has to happen,
and a hook may do at any time whatever a hook can do.
-/
import Mathlib.Logic.Relation
import TaskTree.Arena.Budget
import TaskTree.Proofs.Arena.View

namespace TaskTree

-- ============================================================== the hooks

/-- A value that a hook may leave, whatever it sees and draws on its way. -/
inductive Hook.Leaves {E T : Type} : Hook E T → T → Prop where
  | done (task : T) : Leaves (.done task) task
  | report {outcome : Outcome} {next : Hook E T} {task : T} :
      Leaves next task → Leaves (.report outcome next) task
  | runChild {index : Nat} {next : Hook E T} {task : T} :
      Leaves next task → Leaves (.runChild index next) task
  | look {next : View E → Hook E T} {task : T} (view : View E) :
      Leaves (next view) task → Leaves (.look next) task
  | write {board : E} {next : Hook E T} {task : T} :
      Leaves next task → Leaves (.write board next) task
  | draw {next : Nat → Hook E T} {task : T} (roll : Nat) :
      Leaves (next roll) task → Leaves (.draw next) task

namespace Arena

-- ============================================================== the links

/-- What is fixed about a task when it is planted. -/
structure Links where
  name : String
  arity : Arity
  parent : Option TaskId
  guard : Option TaskId
  children : List TaskId

end Arena

/-- The links of the task in a slot. -/
def Slot.links {T : Type} (s : Slot T) : Arena.Links where
  name := s.name
  arity := s.arity
  parent := s.parent
  guard := s.guard
  children := s.children

namespace Arena

-- ============================================================= the scenes

/-- What a task is in the middle of. -/
inductive Activity (T : Type) where
  /-- It has its turn. -/
  | turn (id : TaskId)
  /-- One of its hooks is running, and this is the task as the hook found
  it. -/
  | hook (id : TaskId) (occupant : Occupant T)
  /-- It is out of its slot between two hooks, to answer its children. -/
  | between (id : TaskId) (occupant : Occupant T)

/-- An arena and what is going on in it, the innermost first. -/
structure Scene (E T : Type) where
  going : List (Activity T)
  arena : Arena E T

variable {E T : Type}

/-- Who may be driven, on whose behalf: the root when nothing is going on, a
child in a hook of its parent, and a guard in a turn. -/
inductive Driven (a : Arena E T) :
    List (Activity T) → TaskId → Control → Prop where
  | root {id : TaskId} (hroot : a.root = some id) : Driven a [] id .tree
  | child {parent id : TaskId} {occupant : Occupant T}
      {going : List (Activity T)} (hchild : id ∈ a.childrenOf parent) :
      Driven a (.hook parent occupant :: going) id (.task parent)
  | guard {task owner id : TaskId} {going : List (Activity T)}
      (hguard : a.guardOf owner = some id) :
      Driven a (.turn task :: going) id (.task .evaluator)

/-- Who may report: a task in one of its hooks, or in a turn that was
refused to it. -/
inductive Speaks : List (Activity T) → TaskId → Prop where
  | hook {id : TaskId} {occupant : Occupant T} {going : List (Activity T)} :
      Speaks (.hook id occupant :: going) id
  | turn {id : TaskId} {going : List (Activity T)} :
      Speaks (.turn id :: going) id

/-- The faults that may be found, apart from a second report. -/
-- Each breach with what shows it: a list of children without the index, a task
-- that is not in its slot, a count of reports at zero, a guard that is not
-- done.
inductive Breach (a : Arena E T) : List (Activity T) → Fault → Prop where
  | missingChild {id : TaskId} {occupant : Occupant T}
      {going : List (Activity T)} {index : Nat}
      (hchild : (a.childrenOf id)[index]? = none) :
      Breach a (.hook id occupant :: going)
      (.missingChild id (a.nameOf id) index)
  | reentry {id : TaskId} {going : List (Activity T)} (hfault : a.fault = none)
      (haway : a.occupantOf id = none) :
      Breach a (.turn id :: going) (.reentry id (a.nameOf id))
  | silentUpdate {id : TaskId} {going : List (Activity T)}
      (hfault : a.fault = none) (hreports : a.reportsOf id = 0) :
      Breach a (.turn id :: going) (.silentUpdate id (a.nameOf id))
  | unsettledGuard {task owner guard : TaskId} {going : List (Activity T)}
      (hfault : a.fault = none) (hguard : a.guardOf owner = some guard) :
      Breach a (.turn task :: going)
        (.unsettledGuard guard (a.nameOf guard) (a.statusOf guard))

/-- The arena in which a report has been counted and its status set. -/
def spoken (a : Arena E T) (id : TaskId) (outcome : Outcome) : Arena E T :=
  (a.countReport id outcome).setStatus id outcome

/-- The arena in which a task is back in its slot, with nothing left to
answer. -/
def rest (a : Arena E T) (id : TaskId) (occupant : Occupant T) : Arena E T :=
  a.modify id fun s => { s with occupant := some occupant, inbox := [] }

/-- The arena in which a task has taken its next report to answer it. -/
def taken (a : Arena E T) (id : TaskId) : Arena E T :=
  a.modify id fun s => { s with inbox := s.inbox.tail }

/-- The parent under a handle. -/
def parentOf (a : Arena E T) (id : TaskId) : Option TaskId :=
  (a.slot? id).bind (·.parent)

/-- The report that a task has to answer next. -/
def nextReport (a : Arena E T) (id : TaskId) : Option Report :=
  (a.slot? id).bind (·.inbox.head?)

-- ================================================= what stays in the slots

/-- What `p` reads off a slot is the same in both arenas. -/
def Keeps {α : Type} (p : Slot T → α) (a a' : Arena E T) : Prop :=
  ∀ id, (a'.slot? id).map p = (a.slot? id).map p

section

variable {α : Type} {p : Slot T → α}

/-- An arena keeps all of its own. -/
theorem Keeps.refl (a : Arena E T) : Keeps p a a := fun _ => rfl

/-- What is kept twice is kept. -/
theorem Keeps.trans {a a₁ a₂ : Arena E T} (h : Keeps p a a₁)
    (h' : Keeps p a₁ a₂) :
    Keeps p a a₂ :=
  fun id => (h' id).trans (h id)

/-- A change of a slot keeps whatever it does not touch. -/
theorem Keeps.modify (a : Arena E T) (id : TaskId) {f : Slot T → Slot T}
    (hf : ∀ s, p (f s) = p s) : Keeps p a (a.modify id f) := by
  intro other
  rw [slot?_modify]
  split
  · rename_i heq
    subst heq
    rw [Option.map_map]
    exact Option.map_congr fun s _ => hf s
  · rfl

/-- What is kept of every slot can be asked of it by number: here its status. -/
theorem Keeps.statusOf {a a' : Arena E T} (h : Keeps Slot.status a a')
    (id : TaskId) :
    a'.statusOf id = a.statusOf id :=
  congrArg (fun status : Option Status => status.getD .fresh) (h id)

/-- The name of a task. -/
theorem Keeps.nameOf {a a' : Arena E T} (h : Keeps Slot.name a a')
    (id : TaskId) :
    a'.nameOf id = a.nameOf id :=
  congrArg (fun name : Option String => name.getD "") (h id)

/-- Its occupant. -/
theorem Keeps.occupantOf {a a' : Arena E T} (h : Keeps Slot.occupant a a')
    (id : TaskId) :
    a'.occupantOf id = a.occupantOf id := by
  have hid := congrArg (Option.bind · fun o => o) (h id)
  rwa [Option.bind_map, Option.bind_map] at hid

/-- And who controls it. -/
theorem Keeps.controlOf {a a' : Arena E T} (h : Keeps Slot.control a a')
    (id : TaskId) :
    a'.controlOf id = a.controlOf id := by
  have hid := congrArg (Option.bind · fun c => c) (h id)
  rwa [Option.bind_map, Option.bind_map] at hid

variable (a : Arena E T) (id : TaskId)

/-- The beginning of a turn touches the count of reports only. -/
theorem keeps_beginTurn (h : ∀ s n, p { s with reports := n } = p s) :
    Keeps p a (a.beginTurn id) :=
  .modify (a.log (.turnBegan id)) id fun s => h s 0

/-- Setting control touches control only. -/
theorem keeps_setControl (control : Control)
    (h : ∀ s c, p { s with control := c } = p s) :
    Keeps p a (a.setControl id control) :=
  .modify a id fun s => h s (some control)

/-- Taking a task out of its slot touches the occupant only. -/
theorem keeps_vacate (h : ∀ s o, p { s with occupant := o } = p s) :
    Keeps p a (a.vacate id) :=
  .modify a id fun s => h s none

/-- Taking a report out touches the inbox only. -/
theorem keeps_taken (h : ∀ s l, p { s with inbox := l } = p s) :
    Keeps p a (a.taken id) :=
  .modify a id fun s => h s s.inbox.tail

/-- Coming to rest touches the occupant and the inbox. -/
theorem keeps_rest (occupant : Occupant T)
    (h : ∀ s o l, p { s with occupant := o, inbox := l } = p s) :
    Keeps p a (a.rest id occupant) :=
  .modify a id fun s => h s (some occupant) []

/-- Counting a report touches the count only. -/
theorem keeps_countReport (outcome : Outcome)
    (h : ∀ s n, p { s with reports := n } = p s) :
    Keeps p a (a.countReport id outcome) :=
  .modify (a.log (.reported id outcome)) id fun s => h s (s.reports + 1)

/-- Speaking counts the report and sets the status. -/
theorem keeps_spoken (outcome : Outcome)
    (h : ∀ s n, p { s with reports := n } = p s)
    (h' : ∀ s x, p { s with status := x } = p s) :
    Keeps p a (a.spoken id outcome) :=
  (keeps_countReport a id outcome h).trans
    (.modify (a.countReport id outcome) id fun s => h' s outcome.status)

/-- The slots after a report. -/
theorem slot?_spoken (outcome : Outcome) (x : TaskId) :
    (a.spoken id outcome).slot? x
      = if x = id then (a.slot? id).map fun s =>
          { s with reports := s.reports + 1, status := outcome.status }
        else a.slot? x := by
  have hcounted := slot?_modify (a.log (.reported id outcome)) id
  have hspoken : (a.spoken id outcome).slot? x
      = if x = id then ((a.countReport id outcome).slot? id).map fun s =>
          { s with status := outcome.status }
        else (a.countReport id outcome).slot? x :=
          slot?_modify (a.countReport id outcome) id x _
  rw [hspoken, countReport, hcounted, hcounted, if_pos rfl, Option.map_map]
  split
  · rfl
  · rfl

/-- Posting touches the inbox only. -/
theorem keeps_post (controller : TaskId) (outcome : Outcome)
    (h : ∀ s l, p { s with inbox := l } = p s) :
    Keeps p a (a.post controller id outcome) :=
  .modify a controller fun s => h s _

end

/-- What planting fixed about the tasks is the same in both arenas. -/
structure SameLinks (a a' : Arena E T) : Prop where
  root : a'.root = a.root
  links : Keeps Slot.links a a'

/-- An arena has its own links. -/
theorem SameLinks.refl (a : Arena E T) : SameLinks a a := ⟨rfl, .refl a⟩

/-- Links that stay the same twice are the same. -/
theorem SameLinks.trans {a a₁ a₂ : Arena E T} (h : SameLinks a a₁)
    (h' : SameLinks a₁ a₂) :
    SameLinks a a₂ :=
  ⟨h'.root.trans h.root, h.links.trans h'.links⟩

/-- Speaking leaves the links alone. -/
theorem sameLinks_spoken (a : Arena E T) (id : TaskId) (outcome : Outcome) :
    SameLinks a (a.spoken id outcome) :=
  ⟨rfl, keeps_spoken _ _ _ (fun _ _ => rfl) fun _ _ => rfl⟩

/-- It leaves control alone as well, so who receives the report may be asked
before or after. -/
theorem controlOf_spoken (a : Arena E T) (id : TaskId) (outcome : Outcome)
    (x : TaskId) :
    (a.spoken id outcome).controlOf x = a.controlOf x :=
  (keeps_spoken a id outcome (fun _ _ => rfl) fun _ _ => rfl).controlOf x

/-- A report in an inbox does not move anybody. -/
theorem occupantOf_post (a : Arena E T) (controller id : TaskId)
    (outcome : Outcome) (x : TaskId) :
    (a.post controller id outcome).occupantOf x = a.occupantOf x :=
  (keeps_post a id controller outcome fun _ _ => rfl).occupantOf x

section

variable {a a' : Arena E T} (h : SameLinks a a') (id : TaskId)

include h

/-- The same slots are there. -/
theorem SameLinks.isSome : (a'.slot? id).isSome = (a.slot? id).isSome := by
  rw [← Option.isSome_map (f := Slot.links), h.links id, Option.isSome_map]

/-- Names are links here: they never change once a task is in its slot. -/
theorem SameLinks.nameOf : a'.nameOf id = a.nameOf id := by
  have hlinks := congrArg (Option.map (·.name)) (h.links id)
  rw [Option.map_map, Option.map_map] at hlinks
  exact congrArg (Option.getD · "") hlinks

/-- The children stay. -/
theorem SameLinks.childrenOf : a'.childrenOf id = a.childrenOf id := by
  have hlinks := congrArg (Option.map (·.children)) (h.links id)
  rw [Option.map_map, Option.map_map] at hlinks
  exact congrArg (Option.getD · []) hlinks

/-- The guard stays. -/
theorem SameLinks.guardOf : a'.guardOf id = a.guardOf id := by
  have hlinks := congrArg (Option.bind · (·.guard)) (h.links id)
  rwa [Option.bind_map, Option.bind_map] at hlinks

/-- The parent stays. -/
theorem SameLinks.parentOf : a'.parentOf id = a.parentOf id := by
  have hlinks := congrArg (Option.bind · (·.parent)) (h.links id)
  rwa [Option.bind_map, Option.bind_map] at hlinks

end

-- ============================================================== the moves

variable [Behavior E T]

/-- The least that can happen in a scene. -/
inductive Move : Scene E T → Scene E T → Prop where
  -- A move begins or ends an activity, or it is what the innermost one does: a
  -- turn calls its task, a hook reports, writes and draws, and a task between
  -- its hooks answers or comes to rest.
  /-- A task is entered. -/
  | enter {going : List (Activity T)} {a : Arena E T} {id : TaskId}
      {control : Control} (hfault : a.fault = none)
      (hdriven : Driven a going id control) :
      Move ⟨going, a⟩ ⟨.turn id :: going,
        (a.beginTurn id).setControl id control⟩
  /-- A running task is gone on with. -/
  | resume {going : List (Activity T)} {a : Arena E T} {id : TaskId}
      {control : Control} (hfault : a.fault = none)
      (hdriven : Driven a going id control)
      (hrunning : a.statusOf id = .running) :
      Move ⟨going, a⟩ ⟨.turn id :: going, a.beginTurn id⟩
  /-- The turn of a task ends. -/
  | leave {going : List (Activity T)} {a : Arena E T} {id : TaskId} :
      Move ⟨.turn id :: going, a⟩ ⟨going, a.endTurn id⟩
  /-- A task is called in its turn. -/
  | call {going : List (Activity T)} {a : Arena E T} {id : TaskId} {call : Call}
      {occupant : Occupant T} (hfault : a.fault = none)
      (hcall : call = .start ∨ call = .update)
      (hoccupant : a.occupantOf id = some occupant) :
      Move ⟨.turn id :: going, a⟩
        ⟨.hook id occupant :: .turn id :: going,
          (a.vacate id).log (.called id call)⟩
  /-- A task is called to answer a child. -/
  | respond {going : List (Activity T)} {a : Arena E T} {id : TaskId}
      {occupant : Occupant T} {report : Report} (hfault : a.fault = none)
      (hnext : a.nextReport id = some report) :
      Move ⟨.between id occupant :: going, a⟩
        ⟨.hook id occupant :: going, (a.taken id).log
          (.called id (.respond report.outcome report.child))⟩
  /-- A hook comes to its end. -/
  | return {going : List (Activity T)} {a : Arena E T} {id : TaskId}
      {call : Call} {occupant occupant' : Occupant T}
      (hleaves : (call.hook occupant).Leaves occupant') :
      Move ⟨.hook id occupant :: going, a⟩
        ⟨.between id occupant' :: going, a.log (.returned id)⟩
  /-- A task has nothing more to answer. -/
  | rest {going : List (Activity T)} {a : Arena E T} {id : TaskId}
      {occupant : Occupant T}
      (hnext : a.fault = none → a.nextReport id = none) :
      Move ⟨.between id occupant :: going, a⟩ ⟨going, a.rest id occupant⟩
  /-- A task reports, and nobody receives it. -/
  | unheard {going : List (Activity T)} {a : Arena E T} {id : TaskId}
      {outcome : Outcome} (hfault : a.fault = none) (hspeaks : Speaks going id)
      (hfirst : ¬ 1 < (a.countReport id outcome).reportsOf id)
      (hcontrol : (a.spoken id outcome).controlOf id = none) :
      Move ⟨going, a⟩ ⟨going, a.spoken id outcome⟩
  /-- A task reports to the tree. -/
  | settle {going : List (Activity T)} {a : Arena E T} {id : TaskId}
      {outcome : Outcome} (hfault : a.fault = none) (hspeaks : Speaks going id)
      (hfirst : ¬ 1 < (a.countReport id outcome).reportsOf id)
      (hcontrol : (a.spoken id outcome).controlOf id = some .tree) :
      Move ⟨going, a⟩ ⟨going, (a.spoken id outcome).settle outcome⟩
  /-- A task reports to one that is out of its slot. -/
  | post {going : List (Activity T)} {a : Arena E T} {id controller : TaskId}
      {outcome : Outcome} (hfault : a.fault = none) (hspeaks : Speaks going id)
      (hfirst : ¬ 1 < (a.countReport id outcome).reportsOf id)
      (hcontrol : (a.spoken id outcome).controlOf id = some (.task controller))
      (haway : ((a.spoken id outcome).post controller id outcome).occupantOf
        controller = none) :
      Move ⟨going, a⟩ ⟨going, (a.spoken id outcome).post controller id outcome⟩
  /-- A task reports to one that is in its slot and has to answer at once. -/
  | hand {going : List (Activity T)} {a : Arena E T} {id controller : TaskId}
      {outcome : Outcome} {occupant : Occupant T} (hfault : a.fault = none)
      (hspeaks : Speaks going id)
      (hfirst : ¬ 1 < (a.countReport id outcome).reportsOf id)
      (hcontrol : (a.spoken id outcome).controlOf id = some (.task controller))
      (hseated :
        ((a.spoken id outcome).post controller id outcome).occupantOf controller
        = some occupant) :
      Move ⟨going, a⟩ ⟨.between controller occupant :: going,
        ((a.spoken id outcome).post controller id outcome).vacate controller⟩
  /-- A task reports once too often. -/
  | again {going : List (Activity T)} {a : Arena E T} {id : TaskId}
      {outcome : Outcome} (hfault : a.fault = none) (hspeaks : Speaks going id)
      (hreports : 1 < (a.countReport id outcome).reportsOf id) :
      Move ⟨going, a⟩ ⟨going, (a.countReport id outcome).raise
        (.secondReport id ((a.countReport id outcome).nameOf id))⟩
  /-- A fault is found. -/
  | breach {going : List (Activity T)} {a : Arena E T} {fault : Fault}
      (hbreach : Breach a going fault) : Move ⟨going, a⟩ ⟨going, a.raise fault⟩
  /-- A hook writes the board. -/
  | write {going : List (Activity T)} {a : Arena E T} {id : TaskId}
      {occupant : Occupant T} (board : E) :
      Move ⟨.hook id occupant :: going, a⟩
        ⟨.hook id occupant :: going, { a with board }⟩
  /-- A hook draws a random number. -/
  | roll {going : List (Activity T)} {a : Arena E T} {id : TaskId}
      {occupant : Occupant T} :
      Move ⟨.hook id occupant :: going, a⟩
        ⟨.hook id occupant :: going, a.roll.2⟩

/-- A sequence of moves. -/
abbrev Course : Scene E T → Scene E T → Prop := Relation.ReflTransGen Move

/-- What every move preserves, a course preserves. -/
theorem Course.invariant {P : Scene E T → Prop}
    (hmove : ∀ s s', P s → Move s s' → P s') {s s' : Scene E T}
    (h : Course s s') (hs : P s) : P s' := by
  induction h with
  | refl => exact hs
  | tail _ hlast ih => exact hmove _ _ ih hlast

-- ============================================================= the links

/-- No move of a step touches the links. -/
theorem Move.sameLinks {s s' : Scene E T} (h : Move s s') :
    SameLinks s.arena s'.arena := by
  cases h with
  | enter =>
      exact ⟨rfl,
        (keeps_beginTurn _ _ fun _ _ => rfl).trans
          (keeps_setControl _ _ _ fun _ _ => rfl)⟩
  | resume => exact ⟨rfl, keeps_beginTurn _ _ fun _ _ => rfl⟩
  | leave | «return» | breach | write | roll => exact ⟨rfl, .refl _⟩
  | call => exact ⟨rfl, keeps_vacate _ _ fun _ _ => rfl⟩
  | respond => exact ⟨rfl, keeps_taken _ _ fun _ _ => rfl⟩
  | rest => exact ⟨rfl, keeps_rest _ _ _ fun _ _ _ => rfl⟩
  | unheard => exact sameLinks_spoken ..
  | settle => exact ⟨rfl, (sameLinks_spoken ..).links⟩
  | post =>
      exact ⟨rfl,
        (sameLinks_spoken ..).links.trans (keeps_post _ _ _ _ fun _ _ => rfl)⟩
  | hand =>
      exact ⟨rfl,
        ((sameLinks_spoken ..).links.trans
          (keeps_post _ _ _ _ fun _ _ => rfl)).trans
        (keeps_vacate _ _ fun _ _ => rfl)⟩
  | again => exact ⟨rfl, keeps_countReport _ _ _ fun _ _ => rfl⟩

/-- So no step does, however long it is. -/
theorem Course.sameLinks {s s' : Scene E T} (h : Course s s') :
    SameLinks s.arena s'.arena :=
  Course.invariant (P := fun s₁ => SameLinks s.arena s₁.arena)
    (fun _ _ hsame hmove => SameLinks.trans hsame hmove.sameLinks) h (.refl _)

-- ================================================= what is put back

omit [Behavior E T] in
/-- A task with nothing to answer is put back with an empty inbox. With a fault
all that waits in the inbox is thrown away; without one it was empty already. -/
theorem takeReport_none {a : Arena E T} {id : TaskId}
    (h : (a.takeReport id).1 = none) (occupant : Occupant T) :
    (a.takeReport id).2.refill id occupant = a.rest id occupant
      ∧ (a.fault = none → a.nextReport id = none) := by
  unfold takeReport at h ⊢
  cases hfault : a.fault with
  | some fault =>
      rw [hfault] at h
      refine ⟨?_, fun h => nomatch h⟩
      exact modify_modify ..
  | none =>
      rw [hfault] at h
      refine ⟨?_, fun _ => h⟩
      dsimp only [refill, rest]
      rw [modify_modify]
      refine modify_congr fun s hs => ?_
      have hempty : s.inbox = [] := by
        simpa [hs] using h
      simp [hempty]

omit [Behavior E T] in
/-- Whether a guard is entered before or after its receiver is noted makes
no difference. -/
theorem beginTurn_setControl (a : Arena E T) (id : TaskId) (control : Control) :
    (a.setControl id control).beginTurn id
      = (a.beginTurn id).setControl id control :=
  (modify_modify (a.log (.turnBegan id)) id
      (fun s => { s with control := some control })
    fun s => { s with reports := 0 }).trans
    (modify_modify (a.log (.turnBegan id)) id
      (fun s => { s with reports := 0 }) fun s =>
        { s with control := some control }).symm

-- =================================================== functions as courses

/-- What the functions of a step do within the budget `b` are courses. -/
structure Courses (E T : Type) [Behavior E T] (b : Nat) : Prop where
  drive : ∀ {delta id control} {a a' : Arena E T} {going},
    Driven a going id control →
    drive b delta id control a = some a' → Course ⟨going, a⟩ ⟨going, a'⟩
  update : ∀ {delta id} {a a' : Arena E T} {going},
    update b delta id a = some a' →
    Course ⟨.turn id :: going, a⟩ ⟨.turn id :: going, a'⟩
  /-- A guard that lets its task in leaves no fault. -/
  consult : ∀ {delta id admitted task} {a a' : Arena E T} {going},
    a.fault = none →
    consult b delta id a = some (admitted, a') →
    Course ⟨.turn task :: going, a⟩ ⟨.turn task :: going, a'⟩
      ∧ (admitted = true → a'.fault = none)
  attend : ∀ {delta id call} {a a' : Arena E T} {going},
    call = .start ∨ call = .update →
    attend b delta id call a = some a' →
    Course ⟨.turn id :: going, a⟩ ⟨.turn id :: going, a'⟩
  answer : ∀ {delta id occupant} {a a' : Arena E T} {going},
    answer b delta id occupant a = some a' →
      Course ⟨.between id occupant :: going, a⟩ ⟨going, a'⟩
  transition : ∀ {delta id outcome} {a a' : Arena E T} {going},
    Speaks going id →
    transition b delta id outcome a = some a' → Course ⟨going, a⟩ ⟨going, a'⟩

variable {b : Nat}

/-- A hook that runs to its end takes a course, and leaves what a hook of its
kind may leave. By induction on the hook, action by action. The hook goes on in
the same activity, and whatever its reports and its children do comes back to
it. -/
theorem Courses.perform (h : Courses E T b) {delta : Float32} {id : TaskId}
    {occupant : Occupant T} {going : List (Activity T)}
    (hook : Hook E (Occupant T)) {a a' : Arena E T} {left : Occupant T}
    (hperform : perform (Arena.transition b delta id)
      (fun child => Arena.drive b delta child (.task id)) delta id hook a
        = some (left, a')) :
    Course ⟨.hook id occupant :: going, a⟩ ⟨.hook id occupant :: going, a'⟩
      ∧ hook.Leaves left := by
  induction hook generalizing a with
  | done task =>
      cases hperform
      exact ⟨.refl, .done _⟩
  | report outcome next ih =>
      obtain ⟨a₁, hreport, hnext⟩ := Option.bind_eq_some_iff.1 hperform
      obtain ⟨hcourse, hleaves⟩ := ih hnext
      exact ⟨(h.transition .hook hreport).trans hcourse, .report hleaves⟩
  | runChild index next ih =>
      simp only [Arena.perform] at hperform
      split at hperform
      · rename_i child hchild
        obtain ⟨a₁, hdrive, hnext⟩ := Option.bind_eq_some_iff.1 hperform
        obtain ⟨hcourse, hleaves⟩ := ih hnext
        exact ⟨(h.drive (.child (List.mem_of_getElem? hchild)) hdrive).trans
            hcourse,
          .runChild hleaves⟩
      -- A child that is not there is a breach, and the hook goes on.
      · rename_i hnone
        obtain ⟨hcourse, hleaves⟩ := ih hperform
        exact ⟨hcourse.head (.breach (.missingChild hnone)), .runChild hleaves⟩
  | look next ih =>
      obtain ⟨hcourse, hleaves⟩ := ih _ hperform
      exact ⟨hcourse, .look _ hleaves⟩
  | write board next ih =>
      obtain ⟨hcourse, hleaves⟩ := ih hperform
      exact ⟨hcourse.head (.write board), .write hleaves⟩
  | draw next ih =>
      obtain ⟨hcourse, hleaves⟩ := ih _ hperform
      exact ⟨hcourse.head .roll, .draw _ hleaves⟩

/-- Nothing comes to an end without a budget. -/
theorem courses_zero : Courses E T 0 where
  -- Without a budget nothing comes back.
  drive _ h := by
    rw [Arena.drive] at h
    cases h
  update h := by
    rw [Arena.update] at h
    cases h
  consult _ h := by
    rw [Arena.consult] at h
    cases h
  attend _ h := by
    rw [Arena.attend] at h
    cases h
  answer h := by
    rw [Arena.answer] at h
    cases h
  transition _ h := by
    rw [Arena.transition] at h
    cases h

/-- A called task runs its hook, and then answers its children. -/
theorem Courses.calls (h : Courses E T b) {delta : Float32} {id : TaskId}
    {call : Call} {occupant : Occupant T} {going : List (Activity T)}
    {a a' : Arena E T} (hrun : ((Arena.perform (Arena.transition b delta id)
      (fun child => Arena.drive b delta child (.task id)) delta id
      (call.hook occupant) a).bind
        fun ended => Arena.answer b delta id ended.1
        (ended.2.log (.returned id))) = some a') :
    Course ⟨.hook id occupant :: going, a⟩ ⟨going, a'⟩ := by
  obtain ⟨⟨left, a₁⟩, hperform, hanswer⟩ := Option.bind_eq_some_iff.1 hrun
  obtain ⟨hcourse, hleaves⟩ := h.perform _ hperform
  exact hcourse.trans ((h.answer hanswer).head (.return hleaves))

/-- Attending calls a task that is at home, finds out that it is away, or does
nothing in a step that aborts. -/
theorem Courses.succ_attend (h : Courses E T b) {delta : Float32} {id : TaskId}
    {call : Call} {going : List (Activity T)} {a a' : Arena E T}
    (hcall : call = .start ∨ call = .update)
    (hrun : Arena.attend (b + 1) delta id call a = some a') :
    Course ⟨.turn id :: going, a⟩ ⟨.turn id :: going, a'⟩ := by
  simp only [Arena.attend] at hrun
  by_cases hgoes : a.isAborting = true
  · rw [if_pos hgoes] at hrun
    cases hrun
    exact .refl
  · rw [if_neg hgoes] at hrun
    have hfault : a.fault = none := Option.not_isSome_iff_eq_none.1 hgoes
    cases hoccupant : a.occupantOf id with
    | none =>
        rw [hoccupant] at hrun
        cases hrun
        exact .single (.breach (.reentry hfault hoccupant))
    | some occupant =>
        rw [hoccupant] at hrun
        exact (h.calls hrun).head (.call hfault hcall hoccupant)

/-- Answering takes the next report, if there is one, and comes to rest
otherwise. -/
theorem Courses.succ_answer (h : Courses E T b) {delta : Float32} {id : TaskId}
    {occupant : Occupant T} {going : List (Activity T)} {a a' : Arena E T}
    (hrun : Arena.answer (b + 1) delta id occupant a = some a') :
    Course ⟨.between id occupant :: going, a⟩ ⟨going, a'⟩ := by
  simp only [Arena.answer] at hrun
  split at hrun
  · rename_i a₁ htake
    cases hrun
    obtain ⟨hrest, hnext⟩ := takeReport_none (congrArg Prod.fst htake) occupant
    rw [htake] at hrest
    rw [hrest]
    exact .single (.rest hnext)
  · rename_i report a₁ htake
    unfold takeReport at htake
    split at htake
    · cases htake
    · rename_i hfault
      obtain ⟨hnext, rfl⟩ := Prod.mk.inj htake
      exact (h.calls hrun).head (.respond hfault hnext)

/-- A transition is one move, but for the report to a task that is at home: that
one is handed over and answered. -/
theorem Courses.succ_transition (h : Courses E T b) {delta : Float32}
    {id : TaskId} {outcome : Outcome} {going : List (Activity T)}
    {a a' : Arena E T} (hspeaks : Speaks going id)
    (hrun : Arena.transition (b + 1) delta id outcome a = some a') :
    Course ⟨going, a⟩ ⟨going, a'⟩ := by
  simp only [Arena.transition] at hrun
  split at hrun
  · cases hrun
    exact .refl
  · rename_i hgoes
    -- A report counts only while there is no fault.
    have hfault : a.fault = none := Option.not_isSome_iff_eq_none.1 hgoes
    split at hrun
    · rename_i hreports
      cases hrun
      exact .single (.again hfault hspeaks hreports)
    · rename_i hfirst
      split at hrun
      · rename_i hcontrol
        cases hrun
        exact .single (.unheard hfault hspeaks hfirst hcontrol)
      · rename_i hcontrol
        cases hrun
        exact .single (.settle hfault hspeaks hfirst hcontrol)
      · rename_i controller hcontrol
        split at hrun
        · rename_i occupant hseated
          exact (h.answer hrun).head
            (.hand hfault hspeaks hfirst hcontrol hseated)
        · rename_i haway
          cases hrun
          exact .single (.post hfault hspeaks hfirst hcontrol haway)

/-- Updating attends to the task, and then finds out whether it has been
silent. -/
theorem Courses.succ_update (h : Courses E T b) {delta : Float32} {id : TaskId}
    {going : List (Activity T)} {a a' : Arena E T}
    (hrun : Arena.update (b + 1) delta id a = some a') :
    Course ⟨.turn id :: going, a⟩ ⟨.turn id :: going, a'⟩ := by
  simp only [Arena.update] at hrun
  obtain ⟨a₁, hattend, hend⟩ := Option.bind_eq_some_iff.1 hrun
  refine (h.attend (.inr rfl) hattend).trans ?_
  obtain rfl := Option.some.inj hend
  split
  · exact .refl
  · rename_i hgoes
    unfold checkReported
    split
    · rename_i hreports
      exact .single (.breach
          (.silentUpdate (Option.not_isSome_iff_eq_none.1 hgoes) hreports))
    · exact .refl

/-- The verdict on a guard may be a fault, and only one without a fault
lets the task in. -/
theorem verdict_course {task owner guard : TaskId} {going : List (Activity T)}
    {a a' : Arena E T} {admitted : Bool} (hguard : a.guardOf owner = some guard)
    (hverdict : a.verdict guard = (admitted, a')) :
    Course ⟨.turn task :: going, a⟩ ⟨.turn task :: going, a'⟩
      ∧ (admitted = true → a'.fault = none) := by
  unfold verdict at hverdict
  split at hverdict
  · cases hverdict
    exact ⟨.refl, fun h => nomatch h⟩
  · rename_i hgoes
    have hfault : a.fault = none := Option.not_isSome_iff_eq_none.1 hgoes
    -- Succeeded, failed, or a breach.
    split at hverdict
    · cases hverdict
      exact ⟨.refl, fun _ => hfault⟩
    · cases hverdict
      exact ⟨.refl, fun h => nomatch h⟩
    · obtain ⟨rfl, rfl⟩ := Prod.mk.inj hverdict
      exact ⟨.single (.breach (.unsettledGuard hfault hguard)),
        fun h => nomatch h⟩

/-- Consulting goes through the guard's own guard first, and enters the guard
behind it. -/
theorem Courses.succ_consult (h : Courses E T b) {delta : Float32}
    {id task : TaskId} {going : List (Activity T)} {a a' : Arena E T}
    {admitted : Bool} (hfault : a.fault = none)
    (hrun : Arena.consult (b + 1) delta id a = some (admitted, a')) :
    Course ⟨.turn task :: going, a⟩ ⟨.turn task :: going, a'⟩
      ∧ (admitted = true → a'.fault = none) := by
  simp only [Arena.consult] at hrun
  split at hrun
  · cases hrun
    exact ⟨.refl, fun _ => hfault⟩
  -- The arena has the same guard all the way, since no move changes the links.
  · rename_i guard hguard
    obtain ⟨⟨asked, a₁⟩, hasked, hrun⟩ := Option.bind_eq_some_iff.1 hrun
    have hconsult : Course ⟨.turn task :: going, a⟩ ⟨.turn task :: going, a₁⟩
        ∧ (asked = true → a₁.fault = none) := h.consult hfault hasked
    obtain ⟨hfirst, hclear⟩ := hconsult
    dsimp only at hrun
    -- A guard whose own guard keeps it out is not entered.
    cases asked with
    | false =>
        cases hrun
        exact ⟨hfirst, fun h => absurd h Bool.false_ne_true⟩
    | true =>
        obtain ⟨a₂, hstart, hrun⟩ := Option.bind_eq_some_iff.1 hrun
        obtain ⟨a₃, hupdate, hrun⟩ := Option.bind_eq_some_iff.1 hrun
        have hguard₁ : a₁.guardOf id = some guard :=
          (hfirst.sameLinks.guardOf id).trans hguard
        rw [beginTurn_setControl] at hstart
        have hturn : Course ⟨.turn task :: going, a₁⟩
            ⟨.turn task :: going, a₃.endTurn guard⟩ :=
          (((h.attend (.inl rfl) hstart).trans (h.update hupdate)).tail
              .leave).head
            (.enter (hclear rfl) (.guard hguard₁))
        have hguard₃ : (a₃.endTurn guard).guardOf id = some guard :=
          (hturn.sameLinks.guardOf id).trans hguard₁
        obtain ⟨hlast, hend⟩ := verdict_course hguard₃ (Option.some.inj hrun)
        exact ⟨(hfirst.trans hturn).trans hlast, hend⟩

/-- Driving goes on with a running task, and enters any other one. A task whose
guard keeps it out fails in its turn. -/
theorem Courses.succ_drive (h : Courses E T b) {delta : Float32} {id : TaskId}
    {control : Control} {going : List (Activity T)} {a a' : Arena E T}
    (hdriven : Driven a going id control)
    (hrun : Arena.drive (b + 1) delta id control a = some a') :
    Course ⟨going, a⟩ ⟨going, a'⟩ := by
  simp only [Arena.drive] at hrun
  split at hrun
  · cases hrun
    exact .refl
  · rename_i hgoes
    have hfault : a.fault = none := Option.not_isSome_iff_eq_none.1 hgoes
    split at hrun
    · rename_i hrunning
      obtain ⟨a₁, hupdate, hrun⟩ := Option.bind_eq_some_iff.1 hrun
      cases hrun
      exact ((h.update hupdate).head (.resume hfault hdriven hrunning)).tail
        .leave
    · obtain ⟨⟨admitted, a₁⟩, hasked, hrun⟩ := Option.bind_eq_some_iff.1 hrun
      have hbegun : ((a.beginTurn id).setControl id control).fault = none :=
        hfault
      have hfirst : Course ⟨.turn id :: going, _⟩ ⟨.turn id :: going, a₁⟩ :=
        (h.consult hbegun hasked).1
      refine .head (.enter hfault hdriven) (hfirst.trans ?_)
      dsimp only at hrun
      split at hrun
      · obtain ⟨a₂, hstart, hrun⟩ := Option.bind_eq_some_iff.1 hrun
        obtain ⟨a₃, hupdate, hrun⟩ := Option.bind_eq_some_iff.1 hrun
        cases hrun
        exact ((h.attend (.inl rfl) hstart).trans (h.update hupdate)).tail
          .leave
      · obtain ⟨a₂, hrefused, hrun⟩ := Option.bind_eq_some_iff.1 hrun
        cases hrun
        exact (h.transition .turn hrefused).tail .leave

/-- What a step does is a course. -/
theorem courses (b : Nat) : Courses E T b := by
  induction b with
  | zero => exact courses_zero
  | succ b ih =>
      exact ⟨ih.succ_drive, ih.succ_update, ih.succ_consult, ih.succ_attend,
        ih.succ_answer, ih.succ_transition⟩

/-- The arena in which a step begins. -/
def begun (a : Arena E T) (root : TaskId) (delta : Float32) : Arena E T :=
  { a.log (.stepBegan root delta) with fault := none }

/-- A step of a tree without a root comes to nothing. -/
theorem step_rootless {delta : Float32} {a a' : Arena E T}
    {result : Except Fault Status} (hroot : a.root = none)
    (hstep : Arena.step b delta a = some (result, a')) :
    result = .error .noRoot ∧ a' = a := by
  rw [Arena.step, hroot] at hstep
  obtain ⟨rfl, rfl⟩ := Prod.mk.inj (Option.some.inj hstep)
  exact ⟨rfl, rfl⟩

/-- A step of a tree with a root: a course that begins with nothing going on
and ends so, and then the fault that it found, if it found one. -/
theorem step_course {delta : Float32} {root : TaskId} {a a' : Arena E T}
    {result : Except Fault Status} (hroot : a.root = some root)
    (hstep : Arena.step b delta a = some (result, a')) :
    ∃ a₁, Course ⟨[], a.begun root delta⟩ ⟨[], a₁⟩ ∧
      ((a₁.fault = none ∧ result = .ok a₁.status ∧ a' = a₁)
        ∨ ∃ fault, a₁.fault = some fault ∧ result = .error fault
          ∧ a' = { a₁ with fault := none }.log (.stepAborted fault)) := by
  rw [Arena.step, hroot] at hstep
  obtain ⟨a₁, hdrive, hend⟩ := Option.bind_eq_some_iff.1 hstep
  refine ⟨a₁, (courses b).drive (.root hroot) hdrive, ?_⟩
  split at hend
  · rename_i fault hfault
    obtain ⟨rfl, rfl⟩ := Prod.mk.inj (Option.some.inj hend)
    exact .inr ⟨fault, hfault, rfl, rfl⟩
  · rename_i hfault
    obtain ⟨rfl, rfl⟩ := Prod.mk.inj (Option.some.inj hend)
    exact .inl ⟨hfault, rfl, rfl⟩

end Arena

end TaskTree
