/-
The update of a task, in an arena and in the direct evaluation.

`update_settles` follows the update of any stock task from the moment it is
called until it is back in its slot, given the turns of its children. The
cases are those of the direct evaluation: a composite runs a row of
children, a decorator runs one child or lacks it, and a leaf reports by
itself. One case ends differently from all others: an action that gives no
report comes back with its task in order, and the fault is found after
that.

What all the others have in common is `Returns`: the hook settles on an
arena in which the task is back in its slot with the state that the direct
evaluation gives it, its children are held as that evaluation leaves them,
and the report has reached whoever receives it. `Returns.settles` makes the
update of it, once for all kinds of task; the guard of the task, which no
update touches, is carried past it there. Composites and decorators have
their children in the area of the hook, and a leaf has nothing but its own
slot.
-/
import TaskTree.Proofs.Direct.Children

namespace TaskTree.Direct

open Arena Live

variable {E A : Type}

-- ==================================================== before the update

/-- The children themselves are among the tasks beneath. -/
theorem map_id_sublist_allIds (children : List (Live E A)) :
    (children.map Live.id).Sublist (allIds children) := by
  induction children with
  | nil => exact List.Sublist.refl _
  | cons child rest ih =>
      have hhead : [child.id].Sublist child.ids :=
        List.singleton_sublist.2 (id_mem_ids child)
      rw [List.map_cons, allIds, ← List.singleton_append]
      exact hhead.append ih

/-- A row keeps the handles of the trees in it. -/
theorem row_map_id [Deed E A] (delta : Float32) (goOn : Outcome)
    (children : List (Live E A)) (w : World E) :
    (row delta goOn children w).live.2.map Live.id = children.map Live.id := by
  rw [← skeletons_map_id, row_skeletons (fun c _ => unchanged delta c),
    skeletons_map_id]

/-- The slot of a task that is about to be updated: it is at rest, its
receiver is known, and it has not reported. -/
structure Seated (a : Arena E (Stock E A)) (role : Role) (id : TaskId)
    (s : Slot (Stock E A)) (task : Stock E A) (status : Status)
    (guard : Option (Live E A)) (children : List (Live E A)) :
    Prop where
  slot : a.slot? id = some s
  carries : Carries s role task status (guard.map Live.id)
    (children.map Live.id)
  control : s.control = some role.control
  reports : s.reports = 0

variable {base : List (Listener × Notice)} {role : Role} {delta : Float32}
  {id : TaskId} {s : Slot (Stock E A)} {task : Stock E A} {status : Status}
  {guard : Option (Live E A)} {children : List (Live E A)} {area : List TaskId}
  {w : World E} {a : Arena E (Stock E A)}

/-- The arena in which a called task is out of its slot. -/
def called (a : Arena E (Stock E A)) (id : TaskId) (call : Call) :
    Arena E (Stock E A) :=
  (a.vacate id).log (.called id call)

/-- To call a hook changes nothing that is seen from outside. -/
theorem called_effect (hshares : Shares base a w) (hfault : a.fault = none)
    (hid : id ∈ area) (call : Call) :
    Effect base area none w a (called a id call) := by
  have hrefl : Effect base area a.fault w a a := Effect.refl hshares
  rw [hfault] at hrefl
  exact (hrefl.modify hid _).log _ rfl

/-- A seated task is busy when its hook is called. -/
theorem Seated.busy (hseated : Seated a role id s task status guard children)
    (hdistinct : (children.map Live.id).Nodup) (call : Call) :
    Busy (called a id call) role id { s with occupant := none } children where
  slot := by
    rw [called, slot?_log, vacate, slot?_modify, if_pos rfl, hseated.slot,
      Option.map_some]
  away := rfl
  inbox := hseated.carries.inbox
  reports := hseated.reports
  control := hseated.control
  distinct := hdistinct
  children := hseated.carries.children

-- ===================================================== after the update

/-- A task that is back in its slot stands as `finish` leaves it. The task takes
its new state and its status along; guard and links are as they were. An outcome
is the status from now on, and a fault leaves the status alone. -/
theorem Rests.finish {task' : Stock E A} {result : Except Fault Outcome}
    {children' : List (Live E A)} {w' : World E} {b a' : Arena E (Stock E A)}
    (h : Rests base role id { s with occupant := none } area task' result
      children' w' b a')
    (hcarries : Carries s role task status (guard.map Live.id)
      (children.map Live.id))
    (hcontrol : s.control = some role.control) (hname : task'.name = task.name)
    (hids : children'.map Live.id = children.map Live.id)
    (hguard : HoldsGuard a' guard) :
    Holds a' role (finish id task' status guard children' result w').live
      ∧ Effect base area
        (faultOf (finish id task' status guard children' result w').result)
          (finish id task' status guard children' result w').world
          (role.receive id
            (finish id task' status guard children' result w').result b)
            a' := by
  have hslot := h.slot
  have heffect := h.effect
  cases result with
  | ok outcome =>
      refine ⟨.node hslot ?_ hguard h.beneath, ?_⟩
      · exact ⟨rfl, hcarries.name.trans hname.symm, rfl, fun _ => hcontrol,
          hcarries.guard, hcarries.children.trans hids.symm, hcarries.inbox⟩
      · have hworld : w'.after id s.name s.status (.ok outcome)
            = (Direct.finish id task' status guard children' (.ok outcome)
              w').world := by
          rw [hcarries.name, hcarries.status, ← hname]
          rfl
        rw [← hworld]
        exact heffect
  | error fault =>
      refine ⟨.node hslot ?_ hguard h.beneath, heffect⟩
      exact ⟨rfl, hcarries.name.trans hname.symm, hcarries.status,
        fun _ => hcontrol, hcarries.guard, hcarries.children.trans hids.symm,
        hcarries.inbox⟩

variable [Deed E A]

/-- An update ends with its hook, if the task has reported in it or was stopped
by a fault. The hook is attended to, and then the report is looked for. With an
outcome there is one; with a fault nobody looks. -/
theorem update_of_rests {task' : Stock E A} {result : Except Fault Outcome}
    {children' : List (Live E A)} {w' : World E} {b a' : Arena E (Stock E A)}
    (hfault : a.fault = none)
    (hseated : Seated a role id s task status guard children)
    (hrun : Settles (fun b =>
      carryOut b delta id ((Stock.update task).map .task)
        (called a id .update)) a')
    (hrests : Rests base role id { s with occupant := none } area task' result
      children' w' b a') :
    Settles (fun b => update b delta id a) a' := by
  have hoccupant : a.occupantOf id = some (.task task) := by
    rw [occupantOf, hseated.slot]
    exact hseated.carries.occupant
  refine Settles.later ?_
  have hattend : Settles (fun b => attend b delta id .update a) a' :=
    attend_settles hfault hoccupant hrun
  have hend : (if a'.isAborting then a' else a'.checkReported id) = a' := by
    cases result with
    | ok outcome =>
        have hreports : a'.reportsOf id ≠ 0 := by
          rw [reportsOf, hrests.slot]
          exact Nat.one_ne_zero
        rw [isAborting, hrests.effect.fault, checkReported, if_neg hreports]
        rfl
    | error fault =>
        rw [isAborting, hrests.effect.fault]
        rfl
  simp only [update]
  refine hattend.bind ?_
  simp only [hend]
  exact Settles.const a'

-- ================================================== the ways to come back

/-- The hook of an update brings the task back to its slot, in the state in
which the evaluation `ran` leaves it. -/
def Returns (base : List (Listener × Notice)) (role : Role) (delta : Float32)
    (id : TaskId) (s : Slot (Stock E A)) (task : Stock E A) (status : Status)
    (guard : Option (Live E A)) (children : List (Live E A))
    (a : Arena E (Stock E A)) (ran : Ran E (Live E A) Outcome) :
    Prop :=
  ∃ task' result children' w' a',
    ran = Direct.finish id task' status guard children' result w'
    ∧ task'.name = task.name
    ∧ children'.map Live.id = children.map Live.id
    ∧ Settles (fun b => carryOut b delta id ((Stock.update task).map .task) a)
      a'
    ∧ Rests base role id s (id :: allIds children) task' result
      children' w' a a'

omit [Deed E A] in
/-- The tasks beneath are not the task itself. -/
private theorem apart_of_nodup (hnodup : (id :: allIds children).Nodup) :
    ∀ x ∈ allIds children, x ∈ id :: allIds children ∧ x ≠ id := by
  intro x hx
  refine ⟨List.mem_cons_of_mem _ hx, fun heq => ?_⟩
  subst heq
  exact (List.nodup_cons.1 hnodup).1 hx

/-- A composite comes back from the row of its children. A place beyond the last
child is as good as the place behind it. The children before its place have no
part in the row, and are held as they were. -/
theorem composite_returns {mk : Nat → Stock E A} {goOn : Outcome}
    (hmk : Composite mk goOn) (current : Nat)
    (hsim : ∀ c ∈ children, Simulates delta c)
    (hquiet : Quiet a (id :: allIds children))
    (hawaits : role.Awaits a (id :: allIds children))
    (hshares : Shares base a w) (hbusy : Busy a role id s children)
    (hbeneath : HoldsAll a id children) :
    Returns base role delta id s (mk current) status guard children a
      (work delta id (mk current) status guard children w) := by
  have hname : ∀ m n, (mk m).name = (mk n).name := fun m n => by
    rw [← Stock.kind_name, hmk.kind_eq m n, Stock.kind_name]
  -- The row begins at the index of the composite. If that is beyond the last
  -- child, the composite is done at once.
  by_cases hcurrent : current ≤ children.length
  · have hfront : (children.take current).length = current := by
      rw [List.length_take]
      omega
    -- The children before the index have no part in the row.
    have hwhole := List.take_append_drop current children
    obtain ⟨hout, hnodup⟩ := List.nodup_cons.1 hquiet.nodup
    rw [← hwhole, allIds_append] at hout hnodup
    have hlater : id :: allIds (children.drop current)
        ⊆ id :: allIds children := by
      conv => rhs; rw [← hwhole, allIds_append]
      exact List.cons_subset_cons _ (List.subset_append_right _ _)
    have hbusy' : Busy a role id s
        (children.take current ++ children.drop current) := by
      rw [hwhole]
      exact hbusy
    obtain ⟨a', hsettles, hrests⟩ := row_settles hmk
      (fun c hc => hsim c (List.mem_of_mem_drop hc)) (children.take current)
      (hquiet.part (by
        conv => rhs; rw [← hwhole, allIds_append]
        exact (List.sublist_append_right _ _).cons_cons id))
      (hawaits.frame hlater fun _ _ => rfl) hshares hbusy'
      (fun c hc => hbeneath c (List.mem_of_mem_drop hc))
    rw [hfront] at hsettles hrests
    -- The row keeps its length, and the front part is held as before: the
    -- effect does not reach it.
    refine ⟨_, _, _, _, a', work_composite hmk .., hname _ _, ?_, ?_,
      hrests.slot, ?_, hrests.effect.mono hlater⟩
    · rw [List.map_append, row_map_id, ← List.map_append, hwhole]
    · rw [hmk.update_eq]
      exact hsettles
    -- Each child before the index is held as before, and each one after it as
    -- the row left it.
    · intro c hc
      rcases List.mem_append.1 hc with hc | hc
      · refine (hbeneath c (List.mem_of_mem_take hc)).frame fun x hx => ?_
        have hmem : x ∈ allIds (children.take current) :=
          mem_allIds.2 ⟨c, hc, hx⟩
        rw [hrests.effect.slots x, receive_slot_mem hawaits]
        · rw [← hwhole, allIds_append]
          exact List.mem_cons_of_mem _ (List.mem_append_left _ hmem)
        · intro hmem'
          rcases List.mem_cons.1 hmem' with rfl | hmem'
          · exact hout (List.mem_append_left _ hmem)
          · exact (List.nodup_append.1 hnodup).2.2 x hmem x hmem' rfl
      · exact hrests.beneath c hc
  · have hdrop : children.drop current = [] := List.drop_eq_nil_of_le (by omega)
    have htake : children.take current = children :=
      List.take_of_length_le (by omega)
    have hlt : ¬ current < children.length := by omega
    obtain ⟨a', hsettles, hrests⟩ :=
      report_rests delta hquiet List.mem_cons_self hawaits
        hshares hbusy hbeneath (apart_of_nodup hquiet.nodup) (mk current) goOn
    refine ⟨mk current, .ok goOn, children, w, a', ?_, rfl, rfl, ?_, hrests⟩
    · rw [work_composite hmk, hdrop, htake]
      simp only [row, List.append_nil, Nat.add_zero]
    · simp only [hmk.update_eq, carryOut_runAt hbusy, hlt, if_false]
      exact hsettles

-- ----------------------------------------------------------- decorators

omit [Deed E A] in
/-- A decorator that has something to run its child for runs it. -/
theorem single_update [Deed E A] (h : task.arity = .single) :
    Stock.update task
      = if isSpent task then .report .succeeded (.done task)
          else .runChild 0 (.done task) := by
  cases task with
  | repeating count remaining =>
      rw [Stock.update, isSpent]
      by_cases hzero : remaining = 0
      · simp [hzero]
      · simp [hzero]
  | invert | alwaysSucceed | alwaysFail | untilSuccess | untilFail => rfl
  | sequence _ | selector _ | success | failure | wait _ _ | condition _ _
  | action _ _ => cases h

omit [Deed E A] in
/-- A decorator answers every report of its child. -/
theorem single_respond (h : task.arity = .single) (outcome : Outcome) :
    Stock.respond outcome task
      = .report (passOn outcome task).1 (.done (passOn outcome task).2) := by
  cases task with
  | invert | alwaysSucceed | alwaysFail | untilSuccess | untilFail
  | repeating _ _ =>
      cases outcome <;> rfl
  | sequence _ | selector _ | success | failure | wait _ _ | condition _ _
  | action _ _ => cases h

/-- A decorator comes back from its child, or from finding that it has none. A
spent repeater succeeds without its child; any other decorator runs the first
one. The outcome of the child is answered by a report of the decorator, and its
fault is that of the decorator. -/
theorem single_returns (hsingle : task.arity = .single)
    (hname : s.name = task.name) (hsim : ∀ c ∈ children, Simulates delta c)
    (hquiet : Quiet a (id :: allIds children))
    (hawaits : role.Awaits a (id :: allIds children))
    (hshares : Shares base a w) (hbusy : Busy a role id s children)
    (hbeneath : HoldsAll a id children) :
    Returns base role delta id s task status guard children a
      (work delta id task status guard children w) := by
  have hself : id ∈ id :: allIds children := List.mem_cons_self
  rw [work_single _ _ _ _ _ _ hsingle]
  by_cases hspent : isSpent task
  · obtain ⟨a', hsettles, hrests⟩ := report_rests delta hquiet hself hawaits
      hshares hbusy hbeneath (apart_of_nodup hquiet.nodup) task .succeeded
    refine ⟨task, .ok .succeeded, children, w, a', if_pos hspent, rfl, rfl, ?_,
      hrests⟩
    rw [single_update hsingle, if_pos hspent]
    exact hsettles
  · rw [if_neg hspent]
    have hupdate : ∀ b, carryOut b delta id ((Stock.update task).map .task) a
        = carryOut b delta id (.runChild 0 (.done (.task task))) a :=
      fun b => by
        rw [single_update hsingle, if_neg hspent]
        rfl
    unfold Returns
    simp only [hupdate]
    -- Without a child the hook misses it.
    cases children with
    | nil =>
        obtain ⟨a', hsettles, hrests⟩ :=
          missing_rests hquiet.fault hshares hbusy task
        rw [hname] at hrests
        exact ⟨task, _, [], w, a', rfl, rfl, rfl, hsettles, hrests⟩
    | cons c rest =>
        have hquietc : Quiet a (id :: c.ids) := hquiet.part (by
          rw [allIds]
          exact (List.sublist_append_left _ _).cons_cons id)
        have hsubset : id :: c.ids ⊆ id :: allIds (c :: rest) := by
          rw [allIds]
          exact List.cons_subset_cons _ (List.subset_append_left _ _)
        have hids : ((turn delta c w).live :: rest).map Live.id
            = (c :: rest).map Live.id := by
          rw [List.map_cons, List.map_cons, turn_id]
        -- The child has its turn, and then it is seen what the decorator makes
        -- of the outcome.
        obtain ⟨a₁, hchild, heffect, hgoes⟩ := runChild_settles []
          (hsim c List.mem_cons_self) hquietc hshares hbusy
          (hbeneath c List.mem_cons_self) task
        have hall := hbeneath.turned hquiet.nodup hchild heffect
        have hlarger := heffect.mono hsubset
        cases hresult : (turn delta c w).result with
        | error fault =>
            rw [hresult] at hgoes hlarger
            refine ⟨task, .error fault, _, (turn delta c w).world, a₁, ?_, rfl,
              hids, hgoes.2, hgoes.1, hall, by cases role <;> exact hlarger⟩
            simp only [hresult]
            rfl
        | ok outcome =>
            rw [hresult] at hgoes hlarger
            have hquiet₁ := hquiet.after (fun _ h => h) hlarger
            obtain ⟨a', hsettles, hrests⟩ := report_rests delta hquiet₁ hself
              (hawaits.frame (fun _ h => h) hlarger.slots) heffect.shares
              { hbusy with slot := hgoes.1 } hall (turned_apart hquiet.nodup)
              (passOn outcome task).2 (passOn outcome task).1
            refine ⟨(passOn outcome task).2, .ok (passOn outcome task).1, _,
              (turn delta c w).world, a', ?_, ?_, hids, hgoes.2 a' ?_,
              hrests.slot, hrests.beneath,
              hlarger.trans_receive hawaits hrests.effect⟩
            · simp only [hresult]
              rfl
            · rw [← Stock.kind_name, passOn_kind, Stock.kind_name]
            · rw [single_respond hsingle]
              exact hsettles

-- ---------------------------------------------------------------- leaves

/-- The rest of the update of an action, when its deed is done. -/
def acted (name : String) (done : Status × E × A) : Hook E (Stock E A) :=
  match done.1.outcome? with
  | some outcome =>
    .write done.2.1 (.report outcome (.done (.action name done.2.2)))
  | none => .write done.2.1 (.done (.action name done.2.2))

/-- The update of a leaf ends with a report, or without one where an action gave
none. Before that it at most changes the board. Each leaf reports within the
hook. Only an action may write the board, and only an action may fail to have an
outcome. A wait counts the time unless it was just entered, and a condition
looks at the board without writing it. -/
theorem leaf_carryOut (delta : Float32) (hleaf : task.arity = .leaf)
    (hboard : a.board = w.board) (hstatus : a.statusOf id = status)
    (guard : Option (Live E A)) (children : List (Live E A)) :
    ∃ task' board, task'.name = task.name
      ∧ ((∃ outcome, work delta id task status guard children w
            = conclude id task' status guard children outcome { w with board }
          ∧ ∀ b, carryOut b delta id ((Stock.update task).map .task) a
            = carryOut b delta id (.report outcome (.done (.task task')))
              { a with board })
        ∨ (work delta id task status guard children w
            = abort id task' status guard children (.silentUpdate id task.name)
              { w with board }
          ∧ ∀ b, carryOut b delta id ((Stock.update task).map .task) a
            = carryOut b delta id (.done (.task task')) { a with board })) := by
  subst hstatus
  cases task with
  | success =>
      refine ⟨.success, a.board, rfl, Or.inl ⟨.succeeded, ?_, fun b => rfl⟩⟩
      rw [work, hboard]
  | failure =>
      refine ⟨.failure, a.board, rfl, Or.inl ⟨.failed, ?_, fun b => rfl⟩⟩
      rw [work, hboard]
  | wait seconds elapsed =>
      refine ⟨.wait seconds
          (if a.statusOf id = .running then elapsed + delta else elapsed),
        a.board, rfl,
        Or.inl ⟨if seconds ≤ (if a.statusOf id = .running then elapsed + delta
          else elapsed) then .succeeded else .running, ?_, fun b => rfl⟩⟩
      rw [work, hboard]
  | condition name holds =>
      refine ⟨.condition name holds, a.board, rfl,
        Or.inl ⟨if holds a.board then .succeeded else .failed, ?_,
          fun b => rfl⟩⟩
      rw [work, hboard]
  | action name deed =>
      refine ⟨.action name (Deed.act deed w.board delta).2.2,
        (Deed.act deed w.board delta).2.1, rfl, ?_⟩
      have hupdate : ∀ b,
          carryOut b delta id ((Stock.update (.action name deed)).map .task) a
          = carryOut b delta id
            ((acted name (Deed.act deed a.board delta)).map .task) a :=
        fun b => rfl
      simp only [hupdate, hboard, acted]
      rw [work]
      -- The status of a deed is its outcome, unless it is none.
      cases hacted : (Deed.act deed w.board delta).1 with
      | fresh => exact Or.inr ⟨rfl, fun b => rfl⟩
      | running => exact Or.inl ⟨.running, rfl, fun b => rfl⟩
      | succeeded => exact Or.inl ⟨.succeeded, rfl, fun b => rfl⟩
      | failed => exact Or.inl ⟨.failed, rfl, fun b => rfl⟩
  | sequence _ | selector _ | invert | alwaysSucceed | alwaysFail | untilSuccess
  | untilFail
  | repeating _ _ => cases hleaf

/-- A leaf that reports comes back with its report. -/
theorem leaf_returns {task' : Stock E A} {board : E} {outcome : Outcome}
    (hname : task'.name = task.name)
    (hwork : work delta id task status guard children w
      = conclude id task' status guard children outcome { w with board })
    (hcarry : ∀ b, carryOut b delta id ((Stock.update task).map .task) a
      = carryOut b delta id (.report outcome (.done (.task task')))
        { a with board })
    (hquiet : Quiet a (id :: allIds children))
    (hawaits : role.Awaits a (id :: allIds children))
    (hshares : Shares base a w) (hbusy : Busy a role id s children)
    (hbeneath : HoldsAll a id children) :
    Returns base role delta id s task status guard children a
      (work delta id task status guard children w) := by
  -- The board is written first, which nobody in the tree notices.
  have hwritten : Effect base (id :: allIds children) none { w with board } a
      { a with board } := by
    have hrefl : Effect base (id :: allIds children) a.fault w a a :=
      Effect.refl hshares
    rw [hquiet.fault] at hrefl
    exact hrefl.write board
  obtain ⟨a', hsettles, hrests⟩ := report_rests delta
    (hquiet.after (fun _ h => h) hwritten) List.mem_cons_self
    (hawaits.frame (fun _ h => h) hwritten.slots) hwritten.shares { hbusy with }
    (hbeneath.frame fun _ _ => rfl) (apart_of_nodup hquiet.nodup) task' outcome
  unfold Returns
  simp only [hcarry]
  exact ⟨task', .ok outcome, children, { w with board }, a', hwork, hname, rfl,
    hsettles, hrests.slot, hrests.beneath,
    hwritten.trans_receive hawaits hrests.effect⟩

/-- An action that gives no report is back in its slot before the fault is
found. The hook ends without a fault, and the silence is found out only when the
update ends. -/
theorem silent_settles {task' : Stock E A} {board : E}
    (hcarry : ∀ b, carryOut b delta id ((Stock.update task).map .task)
      (called a id .update)
      = carryOut b delta id (.done (.task task'))
        { called a id .update with board })
    (hfault : a.fault = none) (hshares : Shares base a w)
    (hseated : Seated a role id s task status guard children)
    (hdistinct : (children.map Live.id).Nodup) :
    ∃ a', Settles (fun b => update b delta id a) a'
      ∧ a'.slot? id = some { s with occupant := some (.task task') }
      ∧ Effect base [id] (some (.silentUpdate id task.name))
        { w with board } a a' := by
  have hself := List.mem_singleton_self id
  have hbusy := hseated.busy hdistinct .update
  -- The hook ends without a report, and the task goes back to its slot.
  have hcalled := (called_effect hshares hfault hself .update).write board
  have hdone := carryOut_done_empty delta (.task task') hcalled.fault
    (hbusy.slot : Arena.slot? { called a id .update with board } id = _)
    hbusy.inbox
  obtain ⟨a₁, ha₁⟩ : ∃ a₁,
      a₁ = ((Arena.log { called a id .update with board } (.returned id)).modify
        id fun s => { s with inbox := s.inbox.tail }).refill id
          (.task task') := ⟨_, rfl⟩
  rw [← ha₁] at hdone
  have hslot : a₁.slot? id
      = some { s with occupant := some (.task task') } := by
    have hout : Arena.slot? { called a id .update with board } id
        = some { s with occupant := none } := hbusy.slot
    rw [ha₁, refill, slot?_modify, if_pos rfl, slot?_modify, if_pos rfl,
      slot?_log, hout]
    simp only [Option.map_some, hseated.carries.inbox, List.tail_nil]
  have heffect : Effect base [id] none { w with board } a a₁ := by
    rw [ha₁]
    exact ((hcalled.log _ rfl).modify hself _).modify hself _
  have hoccupant : a.occupantOf id = some (.task task) := by
    rw [occupantOf, hseated.slot]
    exact hseated.carries.occupant
  have hattend : Settles (fun b => attend b delta id .update a) a₁ := by
    refine attend_settles hfault hoccupant ?_
    show Settles (fun b => carryOut b delta id ((Stock.update task).map .task)
      (called a id .update)) a₁
    simp only [hcarry]
    exact hdone
  have hend : (if a₁.isAborting then a₁ else a₁.checkReported id)
      = a₁.raise (.silentUpdate id task.name) := by
    have hreports : a₁.reportsOf id = 0 := by
      rw [reportsOf, hslot]
      exact hseated.reports
    have hnameOf : a₁.nameOf id = task.name := by
      rw [nameOf, hslot]
      exact hseated.carries.name
    rw [isAborting, heffect.fault, checkReported, if_pos hreports, hnameOf]
    rfl
  refine ⟨a₁.raise (.silentUpdate id task.name), Settles.later ?_, hslot,
    heffect.raise _⟩
  simp only [update]
  refine hattend.bind ?_
  simp only [hend]
  exact Settles.const _

-- ============================================================ the update

omit [Deed E A] in
/-- The task and its children are part of the whole area. -/
private theorem area_sublist (id : TaskId) (guard : Option (Live E A))
    (children : List (Live E A)) :
    (id :: allIds children).Sublist
      (id :: (guardIds guard ++ allIds children)) :=
  (List.sublist_append_right _ _).cons_cons id

omit [Deed E A] in
/-- The guard lies apart from the task and its children. -/
private theorem guard_apart
    (h : (id :: (guardIds guard ++ allIds children)).Nodup) :
    ∀ x ∈ guardIds guard, x ∉ id :: allIds children := by
  obtain ⟨hid, hnodup⟩ := List.nodup_cons.1 h
  intro x hx hmem
  rcases List.mem_cons.1 hmem with rfl | hmem
  · exact hid (List.mem_append_left _ hx)
  · exact (List.nodup_append.1 hnodup).2.2 x hx x hmem rfl

/-- A task that comes back from its hook has been updated. The guard is carried
past the hook, which does not touch its area. -/
theorem Returns.settles {ran : Ran E (Live E A) Outcome}
    (h : Returns base role delta id { s with occupant := none } task status
      guard children
      (called a id .update) ran)
    (hquiet : Quiet a (id :: (guardIds guard ++ allIds children)))
    (hawaits : role.Awaits a (id :: (guardIds guard ++ allIds children)))
    (hshares : Shares base a w)
    (hseated : Seated a role id s task status guard children)
    (hguard : HoldsGuard a guard) :
    ∃ a', Settles (fun b => update b delta id a) a' ∧ Holds a' role ran.live
      ∧ Effect base (id :: (guardIds guard ++ allIds children))
        (faultOf ran.result) ran.world
          (role.receive id ran.result a) a' := by
  obtain ⟨task', result, children', w', a', hran, hname, hids, hsettles,
    hrests⟩ := h
  subst hran
  have hself : id ∈ id :: (guardIds guard ++ allIds children) :=
    List.mem_cons_self
  have hcalled := called_effect hshares hquiet.fault hself .update
  -- The update does not touch the guard.
  have hguard' : HoldsGuard a' guard := by
    refine hguard.frame fun x hx => ?_
    have hout := guard_apart hquiet.nodup x hx
    have hmem : x ∈ id :: (guardIds guard ++ allIds children) :=
      List.mem_cons_of_mem _ (List.mem_append_left _ hx)
    have hne : x ≠ id := fun heq => hout (heq ▸ List.mem_cons_self)
    rw [hrests.effect.slots x hout,
      receive_slot_mem (hawaits.frame (fun _ h => h) hcalled.slots) _ _ _ hmem,
      called, slot?_log, vacate, slot?_modify, if_neg hne]
  obtain ⟨hholds, heffect⟩ :=
    hrests.finish hseated.carries hseated.control hname hids hguard'
  exact ⟨a', update_of_rests hquiet.fault hseated hsettles hrests, hholds,
    hcalled.trans_receive hawaits
      (heffect.mono (area_sublist id guard children).subset)⟩

/-- The update of a task in an arena is its update in the direct
evaluation. -/
theorem update_settles (hsim : ∀ c ∈ children, Simulates delta c)
    (hquiet : Quiet a (id :: (guardIds guard ++ allIds children)))
    (hawaits : role.Awaits a (id :: (guardIds guard ++ allIds children)))
    (hshares : Shares base a w)
    (hseated : Seated a role id s task status guard children)
    (hguard : HoldsGuard a guard) (hbeneath : HoldsAll a id children) :
    ∃ a', Settles (fun b => update b delta id a) a'
      ∧ Holds a' role (work delta id task status guard children w).live
      ∧ Effect base (id :: (guardIds guard ++ allIds children))
          (faultOf (work delta id task status guard children w).result)
          (work delta id task status guard children w).world
          (role.receive id
            (work delta id task status guard children w).result a) a' := by
  have hsubset := area_sublist id guard children |>.subset
  have hself : id ∈ id :: allIds children := List.mem_cons_self
  have hpart := hquiet.part (area_sublist id guard children)
  have hcalled := called_effect hshares hquiet.fault hself .update
  have hquiet' := hpart.after (fun _ h => h) hcalled
  have hawaits' : role.Awaits (called a id .update) (id :: allIds children) :=
    (hawaits.frame hsubset fun _ _ => rfl).frame (fun _ h => h) hcalled.slots
  have hdistinct : (children.map Live.id).Nodup :=
    (List.nodup_cons.1 hpart.nodup).2.sublist (map_id_sublist_allIds children)
  have hbusy := hseated.busy hdistinct .update
  have hbeneath' : HoldsAll (called a id .update) id children :=
    hbeneath.frame fun x hx => by
      have hne : x ≠ id := (apart_of_nodup hpart.nodup x hx).2
      rw [called, slot?_log, vacate, slot?_modify, if_neg hne]
  have hstatus : (called a id .update).statusOf id = status := by
    unfold statusOf
    rw [hbusy.slot]
    exact hseated.carries.status
  -- By what the task does with its children; a leaf may end in silence, and
  -- then its update has no outcome.
  rcases arity_cases task with ⟨mk, goOn, current, hmk, rfl⟩ | hsingle | hleaf
  · exact (composite_returns hmk current hsim hquiet' hawaits'
        hcalled.shares hbusy
      hbeneath').settles hquiet hawaits hshares hseated hguard
  · have hname : ({ s with occupant := none } : Slot (Stock E A)).name
        = task.name :=
      hseated.carries.name
    exact (single_returns hsingle hname hsim hquiet' hawaits'
        hcalled.shares hbusy
      hbeneath').settles hquiet hawaits hshares hseated hguard
  · obtain ⟨task', board, hname, ⟨outcome, hwork, hcarry⟩ | ⟨hwork, hcarry⟩⟩ :=
      leaf_carryOut delta hleaf hcalled.shares.board hstatus guard children
    · exact (leaf_returns hname hwork hcarry hquiet' hawaits'
          hcalled.shares hbusy
        hbeneath').settles hquiet hawaits hshares hseated hguard
    -- The silent leaf changes its own slot only, so whatever is beneath it
    -- stays as it is.
    · obtain ⟨a', hsettles, hslot, heffect⟩ :=
        silent_settles hcarry hquiet.fault hshares hseated hdistinct
      have hkept : ∀ x ∈ guardIds guard ++ allIds children,
          a'.slot? x = a.slot? x := by
        intro x hx
        refine heffect.slots x fun hmem => ?_
        rw [List.mem_singleton.1 hmem] at hx
        exact (List.nodup_cons.1 hquiet.nodup).1 hx
      rw [hwork]
      refine ⟨a', hsettles, ?_, ?_⟩
      · refine .node hslot ?_ ?_ ?_
        · exact { hseated.carries with
            occupant := rfl
            name := hseated.carries.name.trans hname.symm }
        · exact hguard.frame fun x hx => hkept x (List.mem_append_left _ hx)
        · exact hbeneath.frame fun x hx => hkept x (List.mem_append_right _ hx)
      · have hlarger := heffect.mono
          (List.cons_subset_cons id
            (List.nil_subset (guardIds guard ++ allIds children)))
        cases role <;> exact hlarger

end TaskTree.Direct
