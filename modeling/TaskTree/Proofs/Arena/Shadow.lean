/-
What a tree cannot see makes no difference to it.

A tree knows its tasks by their names, their arities and their hooks, and it
tells its listeners of what happens without ever asking them. So all tasks may
be exchanged for others that behave alike (`Translation`), and some of the
listeners may be taken away, with all that they were told. What is left of an
arena then is its `shadow`, and none of the functions of a step makes a
difference between the two: what it gives for the shadow is the shadow of what
it gives for the arena (`Parallel`).

Like a larger budget, this is an induction on the budget of the functions that
drive each other.
-/
import TaskTree.Arena.Step

namespace TaskTree

variable {E T U V : Type}

-- ============================================================ translations

namespace Hook

/-- Exchanging the task of a hook twice is exchanging it once, along the
composition. -/
theorem map_map (f : T → U) (g : U → V) (hook : Hook E T) :
    (hook.map f).map g = hook.map (g ∘ f) := by
  induction hook with
  | done task => rfl
  | report outcome next ih => exact congrArg (Hook.report outcome) ih
  | runChild index next ih => exact congrArg (Hook.runChild index) ih
  | look next ih => exact congrArg Hook.look (funext ih)
  | write board next ih => exact congrArg (Hook.write board) ih
  | draw next ih => exact congrArg Hook.draw (funext ih)

/-- Exchanging a task for itself leaves the hook as it is. -/
theorem map_id (hook : Hook E T) : hook.map id = hook := by
  induction hook with
  | done task => rfl
  | report outcome next ih => exact congrArg (Hook.report outcome) ih
  | runChild index next ih => exact congrArg (Hook.runChild index) ih
  | look next ih => exact congrArg Hook.look (funext ih)
  | write board next ih => exact congrArg (Hook.write board) ih
  | draw next ih => exact congrArg Hook.draw (funext ih)

end Hook

/-- A function that gives tasks which behave alike. -/
structure Translation [Behavior E T] [Behavior E U] (f : T → U) : Prop where
  name : ∀ task : T, Behavior.name (f task) = Behavior.name task
  arity : ∀ task : T, Behavior.arity (f task) = Behavior.arity task
  hook : ∀ (call : Call) (task : T), call.hook (f task) = (call.hook task).map f
  rewind : ∀ task : T, Behavior.rewind (f task) = f (Behavior.rewind task)

/-- Every task behaves like itself. With it, a shadow that only takes listeners
away is one of the shadows of this module. -/
theorem Translation.id [Behavior E T] : Translation (id : T → T) where
  name _ := rfl
  arity _ := rfl
  hook _ _ := (Hook.map_id _).symm
  rewind _ := rfl

/-- Translates the task of an occupant. -/
def Occupant.map (f : T → U) : Occupant T → Occupant U
  | .evaluator => .evaluator
  | .task t => .task (f t)

/-- Translates the task in a slot. -/
def Slot.map (f : T → U) (s : Slot T) : Slot U :=
  { s with occupant := s.occupant.map (Occupant.map f) }

/-- The identity leaves an occupant as it is. -/
theorem Occupant.map_id (occupant : Occupant T) :
    occupant.map id = occupant := by
  cases occupant <;> rfl

/-- Two exchanges of an occupant compose. -/
theorem Occupant.map_map (f : T → U) (g : U → V) (occupant : Occupant T) :
    (occupant.map f).map g = occupant.map (g ∘ f) := by
  cases occupant <;> rfl

/-- The identity leaves a slot as it is. -/
theorem Slot.map_id (s : Slot T) : s.map id = s := by
  obtain ⟨occupant⟩ := s
  cases occupant with
  | none => rfl
  | some occupant =>
      exact congrArg (fun o => Slot.mk (some o) ..) occupant.map_id

/-- Two exchanges of a slot compose. -/
theorem Slot.map_map (f : T → U) (g : U → V) (s : Slot T) :
    (s.map f).map g = s.map (g ∘ f) := by
  obtain ⟨occupant⟩ := s
  cases occupant with
  | none => rfl
  | some occupant =>
      exact congrArg (fun o => Slot.mk (some o) ..) (occupant.map_map f g)

/-- A translation of tasks is one of occupants: the evaluator is left as it is,
and does what it does without asking what the other tasks are. -/
theorem Translation.occupant [Behavior E T] [Behavior E U] {f : T → U}
    (h : Translation f) :
    Translation (Occupant.map f) where
  name
    | .evaluator => rfl
    | .task task => h.name task
  arity
    | .evaluator => rfl
    | .task task => h.arity task
  hook call
    | .evaluator => by cases call <;> rfl
    | .task task => by
        -- The hook of a task inside an occupant is the hook of the task, with
        -- the task it gives back put inside again.
        have hinner (U : Type) [Behavior E U] (task : U) :
            call.hook (Occupant.task task) = (call.hook task).map .task := by
          cases call <;> rfl
        rw [Occupant.map, hinner, hinner, h.hook, Hook.map_map, Hook.map_map]
        rfl
  rewind
    | .evaluator => rfl
    | .task task => congrArg Occupant.task (h.rewind task)

-- ================================================================ shadows

/-- Whether an entry is kept when only some of the listeners are. -/
def Entry.kept (heeded : Listener → Bool) : Entry → Bool
  | .told who _ => heeded who
  | _ => true

namespace Arena

/-- An arena with all tasks translated, in which only some of the listeners
are heeded. -/
def shadow (f : T → U) (heeded : Listener → Bool) (a : Arena E T) : Arena E U :=
  { a with
    slots := a.slots.map (Slot.map f)
    listeners := a.listeners.filter heeded
    journal := a.journal.filter (Entry.kept heeded) }

variable {f : T → U} {heeded : Listener → Bool}

section Reading

variable (a : Arena E T) (id : TaskId)

/-- The slot of a task in the shadow is the exchanged slot. -/
theorem slot?_shadow :
    (a.shadow f heeded).slot? id = (a.slot? id).map (Slot.map f) :=
  Array.getElem?_map

/-- Statuses are the same in the shadow. -/
theorem statusOf_shadow : (a.shadow f heeded).statusOf id = a.statusOf id := by
  rw [statusOf, slot?_shadow, Option.map_map]
  rfl

/-- Names are the same: a translation keeps them, and slots keep them apart from
their tasks. -/
theorem nameOf_shadow : (a.shadow f heeded).nameOf id = a.nameOf id := by
  rw [nameOf, slot?_shadow, Option.map_map]
  rfl

/-- The children of a task are the same in the shadow. -/
theorem childrenOf_shadow :
    (a.shadow f heeded).childrenOf id = a.childrenOf id := by
  rw [childrenOf, slot?_shadow, Option.map_map]
  rfl

/-- The counts of reports are the same in the shadow. -/
theorem reportsOf_shadow :
    (a.shadow f heeded).reportsOf id = a.reportsOf id := by
  rw [reportsOf, slot?_shadow, Option.map_map]
  rfl

/-- Guards are the same in the shadow. -/
theorem guardOf_shadow : (a.shadow f heeded).guardOf id = a.guardOf id := by
  rw [guardOf, slot?_shadow, Option.bind_map]
  rfl

/-- What controls a task is the same in the shadow. -/
theorem controlOf_shadow :
    (a.shadow f heeded).controlOf id = a.controlOf id := by
  rw [controlOf, slot?_shadow, Option.bind_map]
  rfl

/-- The occupant is the only part of a slot that is exchanged. -/
theorem occupantOf_shadow :
    (a.shadow f heeded).occupantOf id
      = (a.occupantOf id).map (Occupant.map f) := by
  rw [occupantOf, slot?_shadow, Option.bind_map, occupantOf, Option.map_bind]
  rfl

/-- What a task can see of the tree while its hook runs has no task in it, so
the shadow shows the same. -/
theorem view_shadow (delta : Float32) :
    (a.shadow f heeded).view id delta = a.view id delta := by
  rw [view, statusOf_shadow, childrenOf_shadow, funext (statusOf_shadow a)]
  rfl

end Reading

section Writing

variable (a : Arena E T) (id : TaskId)

/-- A change of one slot that goes along with the exchange goes along with the
shadow. All changes of the arena below are cases of this one. -/
theorem modify_shadow {g : Slot T → Slot T} {g' : Slot U → Slot U}
    (h : ∀ s, (g s).map f = g' (s.map f)) :
    (a.modify id g).shadow f heeded = (a.shadow f heeded).modify id g' := by
  have hslots : (a.slots.modify id.index g).map (Slot.map f)
      = (a.slots.map (Slot.map f)).modify id.index g' := by
    -- Position by position: the changed slot is the one case where the
    -- hypothesis is needed.
    apply Array.ext_getElem?
    intro i
    rw [Array.getElem?_map, Array.getElem?_modify, Array.getElem?_modify,
      Array.getElem?_map]
    split
    · rw [Option.map_map, Option.map_map]
      exact congrArg (fun k => Option.map k a.slots[i]?) (funext h)
    · rfl
  unfold modify shadow
  dsimp only
  rw [hslots]

/-- An entry that the heeded listeners keep is kept at its place. -/
theorem log_shadow {entry : Entry} (h : entry.kept heeded = true) :
    (a.log entry).shadow f heeded = (a.shadow f heeded).log entry := by
  have hjournal : (a.journal.push entry).filter (Entry.kept heeded)
      = (a.journal.filter (Entry.kept heeded)).push entry := by
    rw [Array.filter_push, if_pos h]
  unfold log shadow
  dsimp only
  rw [hjournal]

/-- Of the entries of an announcement, those to the heeded listeners are left,
in their order. -/
theorem announce_shadow (notice : Notice) :
    (a.announce notice).shadow f heeded
      = (a.shadow f heeded).announce notice := by
  -- The entries that the filter keeps are those made for the listeners that it
  -- keeps.
  have htold : (a.listeners.map fun who => Entry.told who notice).filter
      (Entry.kept heeded)
      = (a.listeners.filter heeded).map fun who => Entry.told who notice :=
    List.filter_map
  unfold announce shadow
  dsimp only
  congr 1
  apply Array.ext'
  rw [Array.toList_filter, Array.toList_appendList, Array.toList_appendList,
    List.filter_append, htold, Array.toList_filter]

/-- A fault is raised in the shadow as in the arena, and the first one counts in
both. -/
theorem raise_shadow (fault : Fault) :
    (a.raise fault).shadow f heeded = (a.shadow f heeded).raise fault := by
  have hlog : (a.log (.raised fault)).shadow f heeded
      = (a.shadow f heeded).log (.raised fault) := log_shadow a rfl
  unfold raise
  rw [← hlog]
  rfl

/-- Control is set in the shadow as in the arena. -/
theorem setControl_shadow (control : Control) :
    (a.setControl id control).shadow f heeded
      = (a.shadow f heeded).setControl id control :=
  modify_shadow a id fun _ => rfl

/-- A slot is vacated in the shadow as in the arena. -/
theorem vacate_shadow :
    (a.vacate id).shadow f heeded = (a.shadow f heeded).vacate id :=
  modify_shadow a id fun _ => rfl

/-- The task that is put back into a slot is the exchanged one. -/
theorem refill_shadow (occupant : Occupant T) :
    (a.refill id occupant).shadow f heeded
      = (a.shadow f heeded).refill id (occupant.map f) :=
  modify_shadow a id fun _ => rfl

/-- A report waits in the shadow's inbox as it waits in the arena's. -/
theorem post_shadow (controller child : TaskId) (outcome : Outcome) :
    (a.post controller child outcome).shadow f heeded
      = (a.shadow f heeded).post controller child outcome := by
  have hindex : (a.shadow f heeded).childIndex controller child
      = a.childIndex controller child := by
    rw [childIndex, childrenOf_shadow]
    rfl
  rw [post, post, hindex]
  exact modify_shadow a controller fun _ => rfl

/-- A report is counted, and its entry kept, in both. -/
theorem countReport_shadow (outcome : Outcome) :
    (a.countReport id outcome).shadow f heeded
      = (a.shadow f heeded).countReport id outcome := by
  rw [countReport, countReport,
    ← log_shadow a (rfl : (Entry.reported id outcome).kept heeded = _)]
  exact modify_shadow _ id fun _ => rfl

/-- A status is set and announced in the shadow to the heeded listeners. -/
theorem setStatus_shadow (outcome : Outcome) :
    (a.setStatus id outcome).shadow f heeded
      = (a.shadow f heeded).setStatus id outcome := by
  have hchanged :
      (a.modify id fun s => { s with status := outcome.status }).shadow f heeded
      = (a.shadow f heeded).modify id fun s =>
        { s with status := outcome.status } :=
    modify_shadow a id fun _ => rfl
  rw [setStatus, setStatus, statusOf_shadow, nameOf_shadow, announce_shadow,
    log_shadow _ rfl, hchanged]

/-- The outcome of a tree is settled, and announced, in both. -/
theorem settle_shadow (outcome : Outcome) :
    (a.settle outcome).shadow f heeded
      = (a.shadow f heeded).settle outcome := by
  have hlog : (a.log (.settled a.status outcome.status)).shadow f heeded
      = (a.shadow f heeded).log (.settled a.status outcome.status) :=
    log_shadow a rfl
  exact congrArg (fun b => { b with status := outcome.status }) hlog

/-- A turn begins in both, with its entry and with its count of reports at
zero. -/
theorem beginTurn_shadow :
    (a.beginTurn id).shadow f heeded = (a.shadow f heeded).beginTurn id := by
  rw [beginTurn, beginTurn,
    ← log_shadow a (rfl : (Entry.turnBegan id).kept heeded = _)]
  exact modify_shadow _ id fun _ => rfl

/-- A turn ends in both, with its entry. -/
theorem endTurn_shadow :
    (a.endTurn id).shadow f heeded = (a.shadow f heeded).endTurn id :=
  log_shadow a rfl

/-- A turn without a report is found out in both. -/
theorem checkReported_shadow :
    (a.checkReported id).shadow f heeded
      = (a.shadow f heeded).checkReported id := by
  rw [checkReported, checkReported, reportsOf_shadow, nameOf_shadow]
  split
  · exact raise_shadow ..
  · rfl

/-- A result with an arena, of which the shadow is taken. -/
def shadowResult {W : Type} (f : T → U) (heeded : Listener → Bool)
    (r : W × Arena E T) :
    W × Arena E U :=
  (r.1, r.2.shadow f heeded)

/-- The verdict of a guard is read off statuses only, so it is the same, and
what it leaves is the shadow of what it leaves. -/
theorem verdict_shadow :
    (a.shadow f heeded).verdict id = shadowResult f heeded (a.verdict id) := by
  have haborting : (a.shadow f heeded).isAborting = a.isAborting := rfl
  unfold verdict
  rw [statusOf_shadow, nameOf_shadow, haborting]
  split
  · rfl
  · split
    · rfl
    · rfl
    · exact congrArg (Prod.mk false) (raise_shadow a _).symm

/-- The same report is taken from the inbox, or none. -/
theorem takeReport_shadow :
    (a.shadow f heeded).takeReport id
      = shadowResult f heeded (a.takeReport id) := by
  have hfault : (a.shadow f heeded).fault = a.fault := rfl
  unfold takeReport
  rw [hfault, slot?_shadow, Option.bind_map]
  -- With a fault the inbox is emptied; without one its first report leaves it.
  split
  · have hemptied :
        (a.modify id fun s => { s with inbox := [] }).shadow f heeded
        = (a.shadow f heeded).modify id fun s => { s with inbox := [] } :=
      modify_shadow a id fun _ => rfl
    exact congrArg (Prod.mk none) hemptied.symm
  · have htaken :
        (a.modify id fun s => { s with inbox := s.inbox.tail }).shadow f heeded
        = (a.shadow f heeded).modify id fun s =>
          { s with inbox := s.inbox.tail } :=
      modify_shadow a id fun _ => rfl
    exact congrArg (Prod.mk _) htaken.symm

end Writing

-- =============================================================== parallels

/-- What one function makes of an arena, the other one makes of its shadow, in
the image. -/
def Parallel {α β : Type} (f : T → U) (heeded : Listener → Bool) (image : α → β)
    (g : Arena E T → Option α) (g' : Arena E U → Option β) : Prop :=
  ∀ a, g' (a.shadow f heeded) = (g a).map image

/-- Functions of an arena that run parallel do so one after another, when the
first one's result tells the second what to do. The step from one call to a
sequence of calls. -/
theorem Parallel.bind {α β γ δ : Type} {image : α → β} {image' : γ → δ}
    {g : Arena E T → Option α} {g' : Arena E U → Option β} {k : α → Option γ}
    {k' : β → Option δ} (hg : Parallel f heeded image g g')
    (hk : ∀ r, k' (image r) = (k r).map image') :
    Parallel f heeded image' (fun a => (g a).bind k) fun a =>
      (g' a).bind k' := by
  intro a
  show (g' (a.shadow f heeded)).bind k' = ((g a).bind k).map image'
  rw [hg a, Option.bind_map, Option.map_bind]
  exact Option.bind_congr fun r _ => hk r

/-- A hook runs as its translation does, if reports and children do. By
induction on the hook, action by action. A hook asks for what the arena holds
only through the view, and through the child that it names. -/
theorem perform_parallel {V W : Type}
    {report : Outcome → Arena E T → Option (Arena E T)}
    {run : TaskId → Arena E T → Option (Arena E T)}
    {report' : Outcome → Arena E U → Option (Arena E U)}
    {run' : TaskId → Arena E U → Option (Arena E U)} (delta : Float32)
    (id : TaskId) (hreport : ∀ outcome,
      Parallel f heeded (shadow f heeded) (report outcome) (report' outcome))
    (hrun : ∀ child,
      Parallel f heeded (shadow f heeded) (run child) (run' child))
    (g : V → W) (hook : Hook E V) :
    Parallel f heeded (Prod.map g (shadow f heeded))
      (perform report run delta id hook)
      (perform report' run' delta id (hook.map g)) := by
  induction hook with
  | done task => exact fun a => rfl
  | report outcome next ih =>
      simp only [Hook.map, perform]
      exact (hreport outcome).bind ih
  | runChild index next ih =>
      intro a
      simp only [Hook.map, perform]
      -- The child is found by the same list of children, and the fault for a
      -- missing one names the same task.
      rw [childrenOf_shadow, nameOf_shadow]
      split
      · exact ((hrun _).bind ih) a
      · rw [← raise_shadow]
        exact ih _
  | look next ih =>
      intro a
      simp only [Hook.map, perform]
      rw [view_shadow]
      exact ih (a.view id delta) a
  | write board next ih => exact fun a => ih { a with board }
  | draw next ih => exact fun a => ih a.roll.1 a.roll.2

variable [Behavior E T] [Behavior E U]

/-- Within a budget the functions of a step run in parallel. -/
structure ParallelWithin (E : Type) {T U : Type} [Behavior E T] [Behavior E U]
    (f : T → U) (heeded : Listener → Bool) (b : Nat) : Prop where
  drive : ∀ delta id control, Parallel f heeded (shadow f heeded)
    (drive (E := E) b delta id control) (drive b delta id control)
  update : ∀ delta id, Parallel f heeded (shadow f heeded)
    (update (E := E) b delta id) (update b delta id)
  consult : ∀ delta id, Parallel f heeded (shadowResult f heeded)
    (consult (E := E) b delta id) (consult b delta id)
  attend : ∀ delta id call, Parallel f heeded (shadow f heeded)
    (attend (E := E) b delta id call) (attend b delta id call)
  answer : ∀ delta id (occupant : Occupant T),
    Parallel f heeded (shadow f heeded)
    (answer (E := E) b delta id occupant) (answer b delta id (occupant.map f))
  transition : ∀ delta id outcome, Parallel f heeded (shadow f heeded)
    (transition (E := E) b delta id outcome) (transition b delta id outcome)

namespace ParallelWithin

variable {b : Nat} (h : ParallelWithin E f heeded b)

include h

/-- A call of a task runs as the call of its translation does. -/
theorem call (htranslation : Translation f) (delta : Float32) (id : TaskId)
    (call : Call) (occupant : Occupant T) :
    Parallel f heeded (Prod.map (Occupant.map f) (shadow f heeded))
      (perform (Arena.transition (E := E) (T := T) b delta id)
        (fun child => Arena.drive b delta child (.task id)) delta id
        (call.hook occupant))
      (perform (Arena.transition (E := E) (T := U) b delta id)
        (fun child => Arena.drive b delta child (.task id)) delta id
        (call.hook (occupant.map f))) := by
  rw [htranslation.occupant.hook call occupant]
  exact perform_parallel delta id (h.transition delta id)
    (fun child => h.drive delta child (.task id)) (Occupant.map f)
    (call.hook occupant)

/-- A larger budget drives a task in parallel, when the smaller one does what
driving asks for. -/
theorem succ_drive (delta : Float32) (id : TaskId) (control : Control) :
    Parallel f heeded (shadow f heeded)
      (Arena.drive (E := E) (b + 1) delta id control)
      (Arena.drive (b + 1) delta id control) := by
  intro a
  have haborting : (a.shadow f heeded).isAborting = a.isAborting := rfl
  simp only [Arena.drive]
  rw [haborting, statusOf_shadow, ← beginTurn_shadow]
  split
  · rfl
  -- A running task goes on with its update; any other one is controlled anew,
  -- its guard is consulted, and it starts or fails.
  split
  · refine ((h.update delta id).bind fun a => ?_) _
    exact congrArg some (endTurn_shadow a id).symm
  · rw [← setControl_shadow]
    refine ((h.consult delta id).bind fun r => ?_) _
    obtain ⟨admitted, a⟩ := r
    cases admitted with
    | true =>
        refine ((h.attend delta id .start).bind fun a => ?_) a
        refine ((h.update delta id).bind fun a => ?_) a
        exact congrArg some (endTurn_shadow a id).symm
    | false =>
        refine ((h.transition delta id .failed).bind fun a => ?_) a
        exact congrArg some (endTurn_shadow a id).symm

/-- Updating a task is attending to it, and then checking that it reported. -/
theorem succ_update (delta : Float32) (id : TaskId) :
    Parallel f heeded (shadow f heeded) (Arena.update (E := E) (b + 1) delta id)
      (Arena.update (b + 1) delta id) := by
  intro a
  simp only [Arena.update]
  refine ((h.attend delta id .update).bind fun a => ?_) a
  have haborting : (a.shadow f heeded).isAborting = a.isAborting := rfl
  rw [haborting]
  split
  · rfl
  · exact congrArg some (checkReported_shadow a id).symm

/-- Consulting asks a guard's own guard first, then runs the guard and reads its
verdict. -/
theorem succ_consult (delta : Float32) (id : TaskId) :
    Parallel f heeded (shadowResult f heeded)
      (Arena.consult (E := E) (b + 1) delta id)
      (Arena.consult (b + 1) delta id) := by
  intro a
  simp only [Arena.consult]
  rw [guardOf_shadow]
  split
  · rfl
  · rename_i guard _
    refine ((h.consult delta guard).bind fun r => ?_) a
    obtain ⟨admitted, a⟩ := r
    cases admitted with
    | false => rfl
    | true =>
        -- The guard's turn begins in both arenas after its control is set.
        have hbegun :
            ((a.setControl guard (.task .evaluator)).beginTurn guard).shadow f
              heeded
            = ((a.shadow f heeded).setControl guard
              (.task .evaluator)).beginTurn guard := by
          rw [beginTurn_shadow, setControl_shadow]
        -- The body with its three calls written as one chain, so that each call
        -- is matched with its own hypothesis.
        show ((Arena.attend b delta guard .start
            (((a.shadow f heeded).setControl guard (.task .evaluator)).beginTurn
              guard)).bind
              fun a => (Arena.update b delta guard a).bind fun a =>
                some ((a.endTurn guard).verdict guard))
          = ((Arena.attend b delta guard .start
            ((a.setControl guard (.task .evaluator)).beginTurn guard)).bind
            fun a =>
              (Arena.update b delta guard a).bind fun a =>
                some ((a.endTurn guard).verdict guard)).map
                (shadowResult f heeded)
        rw [← hbegun]
        refine ((h.attend delta guard .start).bind fun a => ?_) _
        refine ((h.update delta guard).bind fun a => ?_) a
        rw [← endTurn_shadow, verdict_shadow]
        rfl

/-- Attending takes the task out of its slot, so here is one of the two places
where its hook is asked, and where a translation is needed. -/
theorem succ_attend (htranslation : Translation f) (delta : Float32)
    (id : TaskId) (call : Call) :
    Parallel f heeded (shadow f heeded)
      (Arena.attend (E := E) (b + 1) delta id call)
      (Arena.attend (b + 1) delta id call) := by
  intro a
  have haborting : (a.shadow f heeded).isAborting = a.isAborting := rfl
  simp only [Arena.attend]
  rw [haborting, occupantOf_shadow, nameOf_shadow]
  split
  · rfl
  cases a.occupantOf id with
  | none => exact congrArg some (raise_shadow a _).symm
  | some occupant =>
      -- The slot is empty, and the call logged, while the hook runs.
      have hcalled : ((a.vacate id).log (.called id call)).shadow f heeded
          = ((a.shadow f heeded).vacate id).log (.called id call) := by
        rw [log_shadow _ rfl, vacate_shadow]
      dsimp only [Option.map_some]
      rw [← hcalled]
      refine ((h.call htranslation delta id call occupant).bind fun r => ?_) _
      exact (congrArg _ (log_shadow r.2 rfl).symm).trans
        (h.answer delta id r.1 _)

/-- Answering is the other place: each report in the inbox is a call of the
task's hook, until none is left. -/
theorem succ_answer (htranslation : Translation f) (delta : Float32)
    (id : TaskId) (occupant : Occupant T) :
    Parallel f heeded (shadow f heeded)
      (Arena.answer (E := E) (b + 1) delta id occupant)
      (Arena.answer (b + 1) delta id (occupant.map f)) := by
  intro a
  simp only [Arena.answer]
  rw [takeReport_shadow]
  obtain ⟨report?, a⟩ := a.takeReport id
  cases report? with
  | none => exact congrArg some (refill_shadow a id occupant).symm
  | some report =>
      dsimp only [shadowResult]
      rw [← log_shadow _ rfl]
      refine ((h.call htranslation delta id _ occupant).bind fun r => ?_) _
      exact (congrArg _ (log_shadow r.2 rfl).symm).trans
        (h.answer delta id r.1 _)

/-- A transition counts the report, sets the status, and goes to whoever
controls the task. What is done to the arena from here on does not depend on how
it came about. -/
theorem succ_transition (delta : Float32) (id : TaskId) (outcome : Outcome) :
    Parallel f heeded (shadow f heeded)
      (Arena.transition (E := E) (b + 1) delta id outcome)
      (Arena.transition (b + 1) delta id outcome) := by
  intro a
  have haborting : (a.shadow f heeded).isAborting = a.isAborting := rfl
  simp only [Arena.transition]
  rw [haborting]
  split
  · rfl
  rw [← countReport_shadow]
  generalize a.countReport id outcome = a
  rw [reportsOf_shadow, nameOf_shadow, ← setStatus_shadow]
  split
  · exact congrArg some (raise_shadow a _).symm
  generalize a.setStatus id outcome = a
  rw [controlOf_shadow]
  split
  -- Nobody, the tree, or a controlling task that may be at home to take the
  -- report at once.
  · rfl
  · exact congrArg some (settle_shadow a outcome).symm
  · rename_i controller _
    rw [← post_shadow]
    generalize a.post controller id outcome = a
    rw [occupantOf_shadow]
    cases a.occupantOf controller with
    -- The controlling task is out: the report waits in its inbox.
    | none => rfl
    | some occupant =>
        dsimp only [Option.map_some]
        rw [← vacate_shadow]
        -- It is at home, so it answers now.
        exact h.answer delta controller occupant (a.vacate controller)

/-- One more in the budget, for all the functions together. -/
theorem succ (htranslation : Translation f) :
    ParallelWithin E f heeded (b + 1) :=
  ⟨h.succ_drive, h.succ_update, h.succ_consult, h.succ_attend htranslation,
    h.succ_answer htranslation, h.succ_transition⟩

end ParallelWithin

/-- Whatever the budget, the functions run parallel. The induction is on the
budget, since each function calls the others with one less. -/
theorem parallelWithin (htranslation : Translation f) (heeded : Listener → Bool)
    (b : Nat) :
    ParallelWithin E f heeded b := by
  induction b with
  | zero =>
      refine ⟨fun _ _ _ _ => ?_, fun _ _ _ => ?_, fun _ _ _ => ?_,
        fun _ _ _ _ => ?_, fun _ _ _ _ => ?_, fun _ _ _ _ => ?_⟩
      · simp only [Arena.drive, Option.map_none]
      · simp only [Arena.update, Option.map_none]
      · simp only [Arena.consult, Option.map_none]
      · simp only [Arena.attend, Option.map_none]
      · simp only [Arena.answer, Option.map_none]
      · simp only [Arena.transition, Option.map_none]
  | succ b ih => exact ih.succ htranslation

-- ================================================================== steps

/-- A step of the shadow of a tree is the shadow of its step. -/
theorem step_shadow (htranslation : Translation f) (heeded : Listener → Bool)
    (b : Nat) (delta : Float32) :
    Parallel f heeded (shadowResult f heeded) (step (E := E) b delta)
      (step b delta) := by
  intro a
  have hroot : (a.shadow f heeded).root = a.root := rfl
  simp only [step]
  rw [hroot]
  split
  · rfl
  -- The arena in which the driving begins, with its first entry and without a
  -- fault, is the shadow's own.
  · rename_i root _
    have hbegun :
        ({ a.log (.stepBegan root delta) with fault := none } : Arena E
          T).shadow f heeded
        = { (a.shadow f heeded).log (.stepBegan root delta) with
            fault := none } := by
      have hlog : (a.log (.stepBegan root delta)).shadow f heeded
          = (a.shadow f heeded).log (.stepBegan root delta) := log_shadow a rfl
      rw [← hlog]
      rfl
    rw [← hbegun]
    refine (((parallelWithin htranslation heeded b).drive delta root .tree).bind
        fun a => ?_) _
    have hfault : (a.shadow f heeded).fault = a.fault := rfl
    rw [hfault]
    -- A step that aborted gives up its fault and logs it; otherwise the status
    -- of the root is its result, and that is the same in both.
    split
    · rename_i fault _
      have hlog :
          (({ a with fault := none } : Arena E T).log
            (.stepAborted fault)).shadow f heeded
          = ({ a.shadow f heeded with fault := none } : Arena E U).log
            (.stepAborted fault) :=
        log_shadow _ rfl
      rw [← hlog]
      rfl
    · rfl

end Arena

end TaskTree
