/-
The turn of a tree in an arena is its turn in the direct evaluation.

The proof is one induction over trees. It carries two facts at once: that
`drive` does for a tree what `turn` does, whatever place the tree has
(`Simulates`), and that `consult` does for a tree what `ask` does when the
tree is the guard of some task (`Consults`). Both begin by noting who
receives the reports, so that the slot of the task agrees with its place
from then on, and both come to the same stretch, in which a task is entered
and updated (`enter_update_settles`).

A fault needs no case of its own in most of this. An evaluation that ends
with one leaves an arena that has it, and such an arena lets every later
call pass without doing anything.

Each stretch of a turn is a lemma of one form. From an arena that is quiet
in the area of the task, that shares board, dice and notices with the world
and that holds the tree, the arena functions settle on an arena that holds
what the direct evaluation returns, and the effect on everything outside of
the area is that of the result alone. `Effect` and its `trans` put stretches
together, and `frame` carries what is held past a stretch that does not
touch it.

The turn of a task comes in the order in which it happens: the start
(`enter_settles`), the question to a guard (`guard_settles`,
`consults_some`), a refusal (`refuse_settles`), a turn that goes on
(`resume_settles`) and one that has to be admitted first (`admit_settles`).
-/
import TaskTree.Proofs.Direct.Update

namespace TaskTree.Direct

open Arena Live

variable {E A : Type} [Deed E A] {base : List (Listener × Notice)} {role : Role}
  {delta : Float32} {id : TaskId} {s : Slot (Stock E A)} {task : Stock E A}
  {status : Status} {guard : Option (Live E A)} {children : List (Live E A)}
  {w : World E} {a : Arena E (Stock E A)}

-- ============================================================= entering

/-- The start of a task is a matter of the task alone, apart from the random
number that it may take. Only a repeater does something when it is started, and
only if its count is random: it draws one. -/
theorem start_carryOut (delta : Float32) (id : TaskId) (hfault : a.fault = none)
    (hshares : Shares base a w) (task : Stock E A) :
    ∃ a₁, Effect base [] none (enter w task).2 a a₁
      ∧ ∀ b, carryOut b delta id ((Stock.start task).map .task) a
        = carryOut b delta id (.done (.task (enter w task).1)) a₁ := by
  have hrefl : Effect base [] a.fault w a a := Effect.refl hshares
  rw [hfault] at hrefl
  cases task with
  -- A random count is drawn from the dice that the world shares with the arena.
  | repeating count remaining =>
      by_cases hrandom : count.isRandom
      · have hroll : a.roll.1 = w.dice w.rolled := by
          unfold roll
          rw [hshares.dice, hshares.rolled]
        have hrolled : Shares base a.roll.2 { w with rolled := w.rolled + 1 } :=
          ⟨hshares.board, hshares.dice, congrArg (· + 1) hshares.rolled,
            hshares.told⟩
        refine ⟨a.roll.2, ?_, fun b => ?_⟩
        · rw [enter, if_pos hrandom]
          exact { hrefl with shares := hrolled }
        · rw [enter, if_pos hrandom, Stock.start, if_pos hrandom, ← hroll]
          rfl
      · refine ⟨a, ?_, fun b => ?_⟩
        · rw [enter, if_neg hrandom]
          exact hrefl
        · rw [enter, if_neg hrandom, Stock.start, if_neg hrandom]
          rfl
  | sequence _ | selector _ | invert | alwaysSucceed | alwaysFail | untilSuccess
  | untilFail
  | success | failure | wait _ _ | condition _ _
  | action _ _ => exact ⟨a, hrefl, fun b => rfl⟩

/-- A task that is called to start is back in its slot afterwards, entered: the
start is a hook that runs no child and reports nothing. -/
theorem enter_settles (delta : Float32) (hfault : a.fault = none)
    (hshares : Shares base a w)
    (hseated : Seated a role id s task status guard children) :
    ∃ a', Settles (fun b => attend b delta id .start a) a'
      ∧ Seated a' role id { s with occupant := some (.task (enter w task).1) }
        (enter w task).1
          status guard children
      ∧ Effect base [id] none (enter w task).2 a a' := by
  have hself := List.mem_singleton_self id
  have hoccupant : a.occupantOf id = some (.task task) := by
    rw [occupantOf, hseated.slot]
    exact hseated.carries.occupant
  have hcalled := called_effect hshares hfault hself .start
  obtain ⟨a₁, hentered, hcarry⟩ :=
    start_carryOut delta id hcalled.fault hcalled.shares task
  have hslot : a₁.slot? id = some { s with occupant := none } := by
    rw [hentered.slots id List.not_mem_nil, called, slot?_log, vacate,
      slot?_modify, if_pos rfl, hseated.slot, Option.map_some]
  have hdone := carryOut_done_empty delta (.task (enter w task).1)
    hentered.fault hslot hseated.carries.inbox
  obtain ⟨a', ha'⟩ : ∃ a', a' = ((a₁.log (.returned id)).modify id fun s =>
    { s with inbox := s.inbox.tail }).refill id
    (.task (enter w task).1) := ⟨_, rfl⟩
  rw [← ha'] at hdone
  refine ⟨a', attend_settles hfault hoccupant ?_, ?_, ?_⟩
  · show Settles (fun b => carryOut b delta id ((Stock.start task).map .task)
      (called a id .start)) a'
    simp only [hcarry]
    exact hdone
  · refine ⟨?_, ?_, hseated.control, hseated.reports⟩
    · rw [ha', refill, slot?_modify, if_pos rfl, slot?_modify, if_pos rfl,
        slot?_log, hslot]
      simp only [Option.map_some, hseated.carries.inbox, List.tail_nil]
    · have hname : (enter w task).1.name = task.name := by
        rw [← Stock.kind_name, enter_kind, Stock.kind_name]
      exact { hseated.carries with
        occupant := rfl
        name := hseated.carries.name.trans hname.symm }
  · have hback := hcalled.trans (hentered.mono (List.nil_subset [id]))
    rw [ha']
    exact ((hback.log _ rfl).modify hself _).modify hself _

/-- A task is entered and updated. The start comes first and touches the slot of
the task only, so what is beneath the task is held as before when the update
begins. -/
theorem enter_update_settles (hsim : ∀ c ∈ children, Simulates delta c)
    (hquiet : Quiet a (id :: (guardIds guard ++ allIds children)))
    (hawaits : role.Awaits a (id :: (guardIds guard ++ allIds children)))
    (hshares : Shares base a w)
    (hseated : Seated a role id s task status guard children)
    (hguard : HoldsGuard a guard) (hbeneath : HoldsAll a id children) :
    ∃ a',
      Settles (fun b => (attend b delta id .start a).bind (update b delta id))
        a'
      ∧ Holds a' role (work delta id (enter w task).1 status guard children
        (enter w task).2).live
      ∧ Effect base (id :: (guardIds guard ++ allIds children))
          (faultOf (work delta id (enter w task).1 status guard children
            (enter w task).2).result)
          (work delta id (enter w task).1 status guard children
            (enter w task).2).world
          (role.receive id
            (work delta id (enter w task).1 status guard children
              (enter w task).2).result a) a' := by
  obtain ⟨a₁, hstarted, hseated₁, heffect⟩ :=
    enter_settles delta hquiet.fault hshares hseated
  have hlarger := heffect.mono
    (List.cons_subset_cons id
      (List.nil_subset (guardIds guard ++ allIds children)))
  have hkept : ∀ x ∈ guardIds guard ++ allIds children,
      a₁.slot? x = a.slot? x := by
    intro x hx
    refine heffect.slots x fun hmem => ?_
    rw [List.mem_singleton.1 hmem] at hx
    exact (List.nodup_cons.1 hquiet.nodup).1 hx
  obtain ⟨a', hsettles, hholds, hdone⟩ := update_settles hsim
    (hquiet.after (fun _ h => h) hlarger)
    (hawaits.frame (fun _ h => h) hlarger.slots) heffect.shares hseated₁
    (hguard.frame fun x hx => hkept x (List.mem_append_left _ hx))
    (hbeneath.frame fun x hx => hkept x (List.mem_append_right _ hx))
  exact ⟨a', hstarted.bind hsettles, hholds,
    hlarger.trans_receive hawaits hdone⟩

-- =============================================================== guards

/-- Whether the answer of a guard lets the task behind it in. -/
def admits : Except Fault Bool → Bool
  | .ok admitted => admitted
  | .error _ => false

/-- The asking of a guard in an arena is its asking in the direct evaluation,
whichever task stands behind it. The answer tells whether the task is let in,
and a fault is one that the arena then has. -/
def Consults (delta : Float32) (guard : Option (Live E A)) : Prop :=
  ∀ (base : List (Listener × Notice)) (owner : TaskId) (a : Arena E (Stock E A))
    (w : World E),
    Quiet a (guardIds guard) → Shares base a w → HoldsGuard a guard →
    a.guardOf owner = guard.map Live.id →
    ∃ a', Settles (fun b => consult b delta owner a)
      (admits (ask delta guard w).result, a')
      ∧ HoldsGuard a' (ask delta guard w).live
      ∧ Effect base (guardIds guard) (faultOf (ask delta guard w).result)
        (ask delta guard w).world
          a a'

/-- A task without a guard may run. Nobody is asked, and the arena stays as it
is. -/
theorem consults_none (delta : Float32) :
    Consults delta (none : Option (Live E A)) := by
  intro base owner a w hquiet hshares hholds howner
  have hrefl : Effect base [] a.fault w a a := Effect.refl hshares
  rw [hquiet.fault] at hrefl
  rw [ask]
  refine ⟨a, Settles.later ?_, hholds, hrefl⟩
  simp only [consult, howner]
  exact Settles.const _

/-- The verdict on a guard that had its turn. The verdict is the status of the
guard, if there is no fault. -/
theorem verdict_admission {area : List TaskId} {b : Arena E (Stock E A)}
    {result : Except Fault Outcome}
    (heffect : Effect base area (faultOf result) w b a)
    (hstatus : ∀ outcome, result = .ok outcome →
      a.statusOf id = outcome.status) :
    ∃ a', a.verdict id = (admits (admission id (a.nameOf id) result), a')
      ∧ (∀ x, a'.slot? x = a.slot? x)
      ∧ Effect base area
        (faultOf (admission id (a.nameOf id) result)) w b a' := by
  cases result with
  | error fault =>
      refine ⟨a, ?_, fun _ => rfl, heffect⟩
      rw [verdict, isAborting, heffect.fault]
      rfl
  | ok outcome =>
      have hstands := hstatus outcome rfl
      have hgoes : a.isAborting = false := by
        rw [isAborting, heffect.fault]
        rfl
      unfold verdict
      rw [hgoes, hstands]
      cases outcome with
      | succeeded => exact ⟨a, rfl, fun _ => rfl, heffect⟩
      | failed => exact ⟨a, rfl, fun _ => rfl, heffect⟩
      | running => exact ⟨_, rfl, fun _ => rfl, heffect.raise _⟩

/-- A task asks its guard. Nothing else about it changes. What is beneath the
guard and beneath the task lies in different areas, so the one is held as before
while the other is asked. -/
theorem consult_beneath (hconsults : Consults delta guard)
    (hquiet : Quiet a (id :: (guardIds guard ++ allIds children)))
    (hshares : Shares base a w) (hslot : a.slot? id = some s)
    (hlinked : s.guard = guard.map Live.id) (hguard : HoldsGuard a guard)
    (hbeneath : HoldsAll a id children) :
    ∃ a₁, Settles (fun b => consult b delta id a)
      (admits (ask delta guard w).result, a₁)
      ∧ a₁.slot? id = some s
      ∧ HoldsGuard a₁ (ask delta guard w).live
      ∧ HoldsAll a₁ id children
      ∧ Effect base (id :: (guardIds guard ++ allIds children))
          (faultOf (ask delta guard w).result)
          (ask delta guard w).world a a₁ := by
  obtain ⟨hout, hnodup⟩ := List.nodup_cons.1 hquiet.nodup
  have howner : a.guardOf id = guard.map Live.id := by
    rw [guardOf, hslot]
    exact hlinked
  obtain ⟨a₁, hasked, hguard₁, heffect⟩ := hconsults base id a w
    (hquiet.part ((List.sublist_append_left _ _).cons id)) hshares hguard howner
  refine ⟨a₁, hasked, ?_, hguard₁, ?_, heffect.mono fun x hx => ?_⟩
  · exact (heffect.slots id fun hmem =>
        hout (List.mem_append_left _ hmem)).trans hslot
  · exact hbeneath.frame fun x hx => heffect.slots x fun hmem =>
      (List.nodup_append.1 hnodup).2.2 x hmem x hx rfl
  · exact List.mem_cons_of_mem _ (List.mem_append_left _ hx)

/-- A guard that its own guard lets in has its turn, and then the verdict on it
is found. The turn begins under the control of the evaluator, and goes on like
that of any other task. The verdict is told from the status that the guard has
then. -/
theorem guard_settles {asked : Option (Live E A)}
    (hsim : ∀ c ∈ children, Simulates delta c)
    (hquiet : Quiet a (id :: (guardIds asked ++ allIds children)))
    (hshares : Shares base a w) (hslot : a.slot? id = some s)
    (hcarries :
      Carries s .guard task status (asked.map Live.id) (children.map Live.id))
    (hguard : HoldsGuard a asked) (hbeneath : HoldsAll a id children) :
    let ran :=
      work delta id (enter w task).1 status asked children (enter w task).2
    ∃ a', Settles (fun b =>
        ((attend b delta id .start
          ((a.setControl id (.task .evaluator)).beginTurn id)).bind
          (update b delta id)).bind fun a => some ((a.endTurn id).verdict id))
        (admits (admission id task.name ran.result), a')
      ∧ Holds a' .guard ran.live
      ∧ Effect base (id :: (guardIds asked ++ allIds children))
          (faultOf (admission id task.name ran.result)) ran.world a a' := by
  intro ran
  have hself : id ∈ id :: (guardIds asked ++ allIds children) :=
    List.mem_cons_self
  obtain ⟨a₁, ha₁⟩ : ∃ a₁,
      a₁ = (a.setControl id (.task .evaluator)).beginTurn id := ⟨_, rfl⟩
  have hrefl : Effect base (id :: (guardIds asked ++ allIds children))
      a.fault w a a :=
    Effect.refl hshares
  have hbegun : Effect base (id :: (guardIds asked ++ allIds children))
      none w a a₁ := by
    rw [hquiet.fault] at hrefl
    rw [ha₁]
    exact ((hrefl.modify hself _).log _ rfl).modify hself _
  have hseated : Seated a₁ .guard id
      { s with control := some (.task .evaluator), reports := 0 } task status
      asked children := by
    refine ⟨?_, { hcarries with control := fun _ => rfl }, rfl, rfl⟩
    rw [ha₁, beginTurn, slot?_modify, if_pos rfl, slot?_log, setControl,
      slot?_modify, if_pos rfl, hslot]
    rfl
  -- Nothing beneath the guard has changed so far.
  have hkept : ∀ x ∈ guardIds asked ++ allIds children,
      a₁.slot? x = a.slot? x := by
    intro x hx
    have hne : x ≠ id :=
      fun heq => (List.nodup_cons.1 hquiet.nodup).1 (heq ▸ hx)
    rw [ha₁, beginTurn, slot?_modify, if_neg hne, slot?_log, setControl,
      slot?_modify, if_neg hne]
  have hawaits : Role.guard.Awaits a₁
      (id :: (guardIds asked ++ allIds children)) := trivial
  obtain ⟨a₂, hran, hholds, heffect⟩ := enter_update_settles hsim
    (hquiet.after (fun _ h => h) hbegun) hawaits hbegun.shares hseated
    (hguard.frame fun x hx => hkept x (List.mem_append_left _ hx))
    (hbeneath.frame fun x hx => hkept x (List.mem_append_right _ hx))
  -- The tree has kept its shape, so name and status of the guard are found
  -- where they were.
  have hworked : ran.live.skeleton
      = .node id (enter w task).1.kind .fresh (guardSkeleton asked)
        (skeletons children) :=
    work_skeleton (fun c _ => unchanged delta c) ..
  have hid : ran.live.id = id := by
    rw [← skeleton_id, hworked, Live.id]
  have hended : Effect base (id :: (guardIds asked ++ allIds children))
      (faultOf ran.result) ran.world a (a₂.endTurn id) :=
    (hbegun.trans heffect).log _ rfl
  have hstatus : ∀ outcome, ran.result = .ok outcome →
      (a₂.endTurn id).statusOf id = outcome.status := by
    intro outcome hresult
    have hstands : a₂.statusOf ran.live.id = ran.live.status := hholds.statusOf
    rw [hid] at hstands
    exact hstands.trans (work_status hresult)
  have hname : (a₂.endTurn id).nameOf id = task.name := by
    have hnamed : a₂.nameOf id = (enter w task).1.name := hholds.nameOf hworked
    rw [← Stock.kind_name, ← enter_kind w task, Stock.kind_name]
    exact hnamed
  obtain ⟨a', hverdict, hslots, heffect'⟩ := verdict_admission hended hstatus
  rw [hname] at hverdict heffect'
  rw [← ha₁]
  refine ⟨a', hran.bind ?_, ?_, heffect'⟩
  · simp only [hverdict]
    exact Settles.const _
  · exact hholds.frame fun x _ => hslots x

/-- The asking of a guard, given the asking of the guard's own guard and the
turns of its children. To consult the guard is to ask its own guard first, and
then to give it a turn if it is admitted. -/
theorem consults_some (hguard : Consults delta guard)
    (hsim : ∀ c ∈ children, Simulates delta c) :
    Consults delta (some (.node id task status guard children)) := by
  intro base owner a w hquiet hshares hholds howner
  rw [guardIds, ids] at hquiet
  cases hholds _ rfl with
  | @node _ _ _ _ _ _ s slot carries below beneath =>
  obtain ⟨a₁, hasked, hslot₁, hbelow₁, hbeneath₁, heffect₁⟩ :=
    consult_beneath hguard hquiet hshares slot carries.guard below beneath
  have hcarries₁ : Carries s .guard task status
      ((ask delta guard w).live.map Live.id) (children.map Live.id) := by
    rw [ask_map_id]
    exact carries
  have hconsult : ∀ b,
      consult (b + 1) delta owner a = (consult b delta id a).bind fun asked =>
        if asked.1 then
          ((attend b delta id .start
              ((asked.2.setControl id (.task .evaluator)).beginTurn id)).bind
            (update b delta id)).bind fun a => some ((a.endTurn id).verdict id)
        else some (false, asked.2) := by
    intro b
    rw [consult, howner]
    simp only [Option.bind_assoc]
    rfl
  rw [guardIds, ids, ask]
  dsimp only
  -- By its answer: a fault and a refusal end the consultation, and only an
  -- admitted guard has a turn.
  cases hresult : (ask delta guard w).result with
  | error fault =>
      rw [hresult] at hasked heffect₁
      refine ⟨a₁, Settles.later ?_, ?_, heffect₁⟩
      · simp only [hconsult]
        exact hasked.bind (Settles.const _)
      · intro g hg
        cases hg
        exact .node hslot₁ hcarries₁ hbelow₁ hbeneath₁
  | ok admitted =>
      rw [hresult] at hasked heffect₁
      cases admitted with
      | false =>
          refine ⟨a₁, Settles.later ?_, ?_, heffect₁⟩
          · simp only [hconsult]
            exact hasked.bind (Settles.const _)
          · intro g hg
            cases hg
            exact .node hslot₁ hcarries₁ hbelow₁ hbeneath₁
      | true =>
          have hquiet₁ := hquiet.after (fun _ h => h) heffect₁
          rw [← ask_guardIds delta guard w] at hquiet₁
          obtain ⟨a', hsettles, hholds', heffect'⟩ :=
            guard_settles hsim hquiet₁ heffect₁.shares hslot₁
              hcarries₁ hbelow₁ hbeneath₁
          rw [ask_guardIds] at heffect'
          refine ⟨a', Settles.later ?_, ?_, heffect₁.trans heffect'⟩
          · simp only [hconsult]
            exact hasked.bind hsettles
          · intro g hg
            cases hg
            exact hholds'

-- ================================================================= turns

omit [Deed E A] in
/-- What is beneath a task is not the task. -/
private theorem ne_of_below
    (hnodup : (id :: (guardIds guard ++ allIds children)).Nodup) :
    ∀ x ∈ guardIds guard ++ allIds children, x ≠ id := fun _ hx heq =>
  (List.nodup_cons.1 hnodup).1 (heq ▸ hx)

/-- A task that its guard turns away reports that it failed. The failure is
reported by a transition, as an outcome of the task would be. -/
theorem refuse_settles (delta : Float32)
    (hquiet : Quiet a (id :: (guardIds guard ++ allIds children)))
    (hawaits : role.Awaits a (id :: (guardIds guard ++ allIds children)))
    (hshares : Shares base a w)
    (hseated : Seated a role id s task status guard children)
    (hguard : HoldsGuard a guard) (hbeneath : HoldsAll a id children) :
    let ran := conclude id task status guard children .failed w
    ∃ a', Settles (fun b => transition b delta id .failed a) a'
      ∧ Holds a' role ran.live
      ∧ Effect base (id :: (guardIds guard ++ allIds children)) none ran.world
          (role.receive id ran.result a) a' := by
  intro ran
  have hself : id ∈ id :: (guardIds guard ++ allIds children) :=
    List.mem_cons_self
  have hne : id ≠ .evaluator := fun heq => hquiet.hidden (heq ▸ hself)
  have honly : [id] ⊆ id :: (guardIds guard ++ allIds children) :=
    List.cons_subset_cons id (List.nil_subset _)
  obtain ⟨a', hfailed, hslot, heffect⟩ :=
    transition_settles delta hquiet.fault hseated.slot
      hseated.reports hseated.control hquiet.idle hne
      (hawaits.frame honly fun _ _ => rfl) hshares .failed
  -- A report changes the task's own slot and that of its receiver, and both
  -- lie outside of what is beneath the task.
  have hkept : ∀ x ∈ guardIds guard ++ allIds children,
      a'.slot? x = a.slot? x := by
    intro x hx
    have hapart : x ∉ [id] :=
      fun hmem => ne_of_below hquiet.nodup x hx (List.mem_singleton.1 hmem)
    rw [heffect.slots x hapart,
      receive_slot_mem hawaits _ _ _ (List.mem_cons_of_mem _ hx)]
  have hlarger := heffect.mono honly
  rw [hseated.carries.name, hseated.carries.status] at hlarger
  refine ⟨a', hfailed, ?_, hlarger⟩
  exact .node hslot
    { hseated.carries with status := rfl, control := fun _ => hseated.control }
    (hguard.frame fun x hx => hkept x (List.mem_append_left _ hx))
    (hbeneath.frame fun x hx => hkept x (List.mem_append_right _ hx))

/-- A running task goes on. The beginning of the turn touches the slot of the
task only, which gets a fresh counter of reports; the rest of the turn is the
update. -/
theorem resume_settles (hsim : ∀ c ∈ children, Simulates delta c)
    (hrunning : status = .running)
    (hquiet : Quiet a (id :: (guardIds guard ++ allIds children)))
    (hawaits : role.Awaits a (id :: (guardIds guard ++ allIds children)))
    (hshares : Shares base a w) (hslot : a.slot? id = some s)
    (hcarries :
      Carries s role task status (guard.map Live.id) (children.map Live.id))
    (hguard : HoldsGuard a guard) (hbeneath : HoldsAll a id children) :
    let ran := work delta id task status guard children w
    ∃ a',
      Settles (fun b => (update b delta id (a.beginTurn id)).bind fun a =>
        some (a.endTurn id)) a'
      ∧ Holds a' role ran.live
      ∧ Effect base (id :: (guardIds guard ++ allIds children))
        (faultOf ran.result) ran.world
          (role.receive id ran.result a) a' := by
  intro ran
  have hself : id ∈ id :: (guardIds guard ++ allIds children) :=
    List.mem_cons_self
  obtain ⟨a₁, ha₁⟩ : ∃ a₁, a₁ = a.beginTurn id := ⟨_, rfl⟩
  have hbegun : Effect base (id :: (guardIds guard ++ allIds children))
      none w a a₁ := by
    have hrefl : Effect base (id :: (guardIds guard ++ allIds children))
        a.fault w a a :=
      Effect.refl hshares
    rw [hquiet.fault] at hrefl
    rw [ha₁]
    exact (hrefl.log _ rfl).modify hself _
  have hseated : Seated a₁ role id { s with reports := 0 } task status guard
      children := by
    refine ⟨?_, { hcarries with }, hcarries.control hrunning, rfl⟩
    rw [ha₁, beginTurn, slot?_modify, if_pos rfl, slot?_log, hslot]
    rfl
  have hkept : ∀ x ∈ guardIds guard ++ allIds children,
      a₁.slot? x = a.slot? x := by
    intro x hx
    rw [ha₁, beginTurn, slot?_modify, if_neg (ne_of_below hquiet.nodup x hx),
      slot?_log]
  obtain ⟨a', hsettles, hholds, heffect⟩ := update_settles hsim
    (hquiet.after (fun _ h => h) hbegun)
    (hawaits.frame (fun _ h => h) hbegun.slots) hbegun.shares hseated
    (hguard.frame fun x hx => hkept x (List.mem_append_left _ hx))
    (hbeneath.frame fun x hx => hkept x (List.mem_append_right _ hx))
  rw [← ha₁]
  exact ⟨a'.endTurn id, hsettles.bind (Settles.const _),
    hholds.frame fun _ _ => rfl,
    (hbegun.trans_receive hawaits heffect).log _ rfl⟩

/-- A task that is not running asks its guard, and is entered or fails. The task
answers to its role from now on. A fault of the guard ends the turn with nothing
reported, and with a refusal the receiver hears of a failure. -/
theorem admit_settles (hconsults : Consults delta guard)
    (hsim : ∀ c ∈ children, Simulates delta c) (hrunning : status ≠ .running)
    (hquiet : Quiet a (id :: (guardIds guard ++ allIds children)))
    (hawaits : role.Awaits a (id :: (guardIds guard ++ allIds children)))
    (hshares : Shares base a w) (hslot : a.slot? id = some s)
    (hcarries : Carries s role task status (guard.map Live.id)
      (children.map Live.id))
    (hguard : HoldsGuard a guard) (hbeneath : HoldsAll a id children) :
    let ran := turn delta (.node id task status guard children) w
    ∃ a', Settles (fun b =>
        (consult b delta id ((a.beginTurn id).setControl id role.control)).bind
          fun asked =>
            if asked.1 then
              ((attend b delta id .start asked.2).bind (update b delta id)).bind
                fun a => some (a.endTurn id)
            else (transition b delta id .failed asked.2).bind fun a =>
              some (a.endTurn id)) a'
        ∧ Holds a' role ran.live
        ∧ Effect base (id :: (guardIds guard ++ allIds children))
          (faultOf ran.result) ran.world
            (role.receive id ran.result a) a' := by
  intro ran
  have hself : id ∈ id :: (guardIds guard ++ allIds children) :=
    List.mem_cons_self
  obtain ⟨a₁, ha₁⟩ : ∃ a₁, a₁ = (a.beginTurn id).setControl id role.control :=
    ⟨_, rfl⟩
  have hbegun : Effect base (id :: (guardIds guard ++ allIds children))
      none w a a₁ := by
    have hrefl : Effect base (id :: (guardIds guard ++ allIds children))
        a.fault w a a :=
      Effect.refl hshares
    rw [hquiet.fault] at hrefl
    rw [ha₁]
    exact ((hrefl.log _ rfl).modify hself _).modify hself _
  have hslot₁ : a₁.slot? id
      = some { s with reports := 0, control := some role.control } := by
    rw [ha₁, setControl, slot?_modify, if_pos rfl, beginTurn, slot?_modify,
      if_pos rfl, slot?_log, hslot]
    rfl
  have hkept : ∀ x ∈ guardIds guard ++ allIds children,
      a₁.slot? x = a.slot? x := by
    intro x hx
    have hne := ne_of_below hquiet.nodup x hx
    rw [ha₁, setControl, slot?_modify, if_neg hne, beginTurn, slot?_modify,
      if_neg hne, slot?_log]
  -- The guard is asked from an arena that is still quiet.
  have hquiet₁ := hquiet.after (fun _ h => h) hbegun
  obtain ⟨a₂, hasked, hslot₂, hguard₂, hbeneath₂, heffect₂⟩ :=
    consult_beneath hconsults hquiet₁ hbegun.shares hslot₁ hcarries.guard
      (hguard.frame fun x hx => hkept x (List.mem_append_left _ hx))
      (hbeneath.frame fun x hx => hkept x (List.mem_append_right _ hx))
  have hseated : Seated a₂ role id
      { s with reports := 0, control := some role.control } task status
      (ask delta guard w).live children := by
    refine ⟨hslot₂, ?_, rfl, rfl⟩
    rw [ask_map_id]
    exact { hcarries with control := fun _ => rfl }
  have hturn : ran = turn delta (.node id task status guard children) w := rfl
  rw [turn, if_neg hrunning] at hturn
  dsimp only at hturn
  rw [← ha₁]
  -- By the answer of the guard: a fault, a refusal or an admission.
  cases hresult : (ask delta guard w).result with
  | error fault =>
      rw [hresult] at hasked heffect₂ hturn
      have hthrough := hbegun.trans heffect₂
      rw [hturn]
      refine ⟨a₂.endTurn id, hasked.bind ?_, ?_, ?_⟩
      · exact (transition_aborting heffect₂.fault).bind (Settles.const _)
      · exact .node hslot₂ { hseated.carries with }
          (hguard₂.frame fun _ _ => rfl) (hbeneath₂.frame fun _ _ => rfl)
      · have hended := hthrough.log (.turnEnded id) rfl
        cases role <;> exact hended
  | ok admitted =>
      rw [hresult] at hasked heffect₂ hturn
      have hthrough := hbegun.trans heffect₂
      have hquiet₂ := hquiet.after (fun _ h => h) hthrough
      have hawaits₂ : role.Awaits a₂
          (id :: (guardIds guard ++ allIds children)) :=
        hawaits.frame (fun _ h => h) hthrough.slots
      rw [hturn]
      cases admitted with
      -- The task fails, and its receiver hears of it.
      | false =>
          rw [← ask_guardIds delta guard w] at hquiet₂ hawaits₂
          obtain ⟨a₃, hsettles, hholds₃, heffect₃⟩ :=
            refuse_settles delta hquiet₂ hawaits₂
              hthrough.shares hseated hguard₂ hbeneath₂
          rw [ask_guardIds] at heffect₃
          exact ⟨a₃.endTurn id, hasked.bind (hsettles.bind (Settles.const _)),
            hholds₃.frame fun _ _ => rfl,
            (hthrough.trans_receive hawaits heffect₃).log _ rfl⟩
      -- The task is started and updated.
      | true =>
          rw [← ask_guardIds delta guard w] at hquiet₂ hawaits₂
          obtain ⟨a₃, hsettles, hholds₃, heffect₃⟩ :=
            enter_update_settles hsim hquiet₂ hawaits₂
              hthrough.shares hseated hguard₂ hbeneath₂
          rw [ask_guardIds] at heffect₃
          exact ⟨a₃.endTurn id, hasked.bind (hsettles.bind (Settles.const _)),
            hholds₃.frame fun _ _ => rfl,
            (hthrough.trans_receive hawaits heffect₃).log _ rfl⟩

/-- The turn of a tree, given the asking of its guard and the turns of its
children. Status and links of the task are found in its slot, since the arena
holds the tree. -/
theorem simulates_node (hconsults : Consults delta guard)
    (hsim : ∀ c ∈ children, Simulates delta c) :
    Simulates delta (.node id task status guard children) := by
  intro base role a w hquiet hawaits hshares hholds
  rw [ids] at hquiet hawaits ⊢
  rw [Live.id]
  cases hholds with
  | node slot carries below beneath =>
      have hstatus : a.statusOf id = status := by
        rw [statusOf, slot]
        exact carries.status
      have hgoes : a.isAborting = false := by
        rw [isAborting, hquiet.fault]
        rfl
      -- A running task is updated; for any other its guard is asked.
      by_cases hrunning : status = .running
      · obtain ⟨a', hsettles, hrest⟩ :=
          resume_settles hsim hrunning hquiet hawaits hshares slot
            carries below beneath
        rw [turn, if_pos hrunning]
        refine ⟨a', Settles.later ?_, hrest⟩
        simp only [drive, hgoes, hstatus, hrunning, if_true, Bool.false_eq_true,
          if_false]
        exact hsettles
      · obtain ⟨a', hsettles, hrest⟩ :=
          admit_settles hconsults hsim hrunning hquiet hawaits hshares slot
            carries below beneath
        refine ⟨a', Settles.later ?_, hrest⟩
        simp only [drive, hgoes, hstatus, hrunning, Bool.false_eq_true,
          if_false]
        simp only [Option.bind_assoc] at hsettles
        exact hsettles

/-- The turn of every tree in an arena is its turn in the direct evaluation. By
induction on the tree, with both facts at once: a turn asks the guard of the
task, and to ask a guard is to give it a turn. -/
theorem simulates (delta : Float32) (live : Live E A) :
    Simulates delta live := by
  have hboth : Simulates delta live ∧ Consults delta (some live) := by
    induction live using Live.induction with
    | step id task status guard children hguard hchildren =>
        have hsim : ∀ c ∈ children, Simulates delta c :=
          fun c hc => (hchildren c hc).1
        have hconsults : Consults delta guard := by
          cases guard with
          | none => exact consults_none delta
          | some g => exact (hguard g rfl).2
        exact ⟨simulates_node hconsults hsim, consults_some hconsults hsim⟩
  exact hboth.1

end TaskTree.Direct
