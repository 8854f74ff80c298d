/-
Reports, from the task that makes them to the one that hears of them.

In the direct evaluation a report is nothing but the value of a call. In an
arena it sets a status, tells the listeners and reaches its receiver by
mail. `transition_settles` follows it there: beside the slot of the
reporting task only the receiver changes, as `Role.receive` says, and the
world hears the one notice that the direct evaluation writes down.

`Effect` is the form in which all later facts about an arena are put: what
the arena shares with the world, which fault it has, and that outside some
area of slots it is the arena that one expects.
-/
import TaskTree.Proofs.Arena.Hooks
import TaskTree.Proofs.Direct.Holds

namespace TaskTree.Direct

open Arena

variable {E A : Type}

-- ======================================================= shared by all

/-- The arena and the world have the same board and the same dice, and what
listeners were told beyond `base` are the notices of the world, each of
them to all listeners. -/
structure Shares (base : List (Listener × Notice)) (a : Arena E (Stock E A))
    (w : World E) :
    Prop where
  board : a.board = w.board
  dice : a.dice = w.dice
  rolled : a.rolled = w.rolled
  told : a.told = base ++ w.notices.flatMap fun notice =>
    a.listeners.map fun who => (who, notice)

/-- The arena `a` shares the world `w`, has the fault `broken`, and is the
arena `b` outside the slots of `area`. -/
structure Effect (base : List (Listener × Notice)) (area : List TaskId)
    (broken : Option Fault) (w : World E)
    (b a : Arena E (Stock E A)) : Prop where
  shares : Shares base a w
  fault : a.fault = broken
  slots : ∀ other, other ∉ area → a.slot? other = b.slot? other
  status : a.status = b.status
  root : a.root = b.root
  listeners : a.listeners = b.listeners
  size : a.slots.size = b.slots.size

variable {base : List (Listener × Notice)} {area : List TaskId}
  {broken : Option Fault} {w : World E} {a a₁ b : Arena E (Stock E A)}

/-- Nothing done has no effect. -/
theorem Effect.refl (h : Shares base a w) : Effect base area a.fault w a a :=
  ⟨h, rfl, fun _ _ => rfl, rfl, rfl, rfl, rfl⟩

/-- A journal entry that tells nobody anything has no effect. -/
theorem Effect.log (h : Effect base area broken w b a) (entry : Entry)
    (hentry : entry.notice? = none) :
    Effect base area broken w b (a.log entry) :=
  { h with
    shares :=
      { h.shares with
        told := by
          rw [told_log, hentry, Option.toList_none, List.append_nil]
          exact h.shares.told } }

/-- The board is written in the arena and in the world. -/
theorem Effect.write (h : Effect base area broken w b a) (board : E) :
    Effect base area broken { w with board } b { a with board } :=
  { h with shares := ⟨rfl, h.shares.dice, h.shares.rolled, h.shares.told⟩ }

/-- The first fault of a step is the one that stays. -/
theorem Effect.raise [Deed E A] (h : Effect base area none w b a)
    (fault : Fault) :
    Effect base area (some fault) w b (a.raise fault) :=
  { h.log (.raised fault) rfl with
    fault := by
      unfold Arena.raise
      rw [h.fault, Option.none_or]
    shares :=
      { h.shares with
        told := (h.log (.raised fault) rfl).shares.told } }

/-- A change of a slot in the area is within the effect. -/
theorem Effect.modify (h : Effect base area broken w b a) {id : TaskId}
    (hid : id ∈ area) (f : Slot (Stock E A) → Slot (Stock E A)) :
    Effect base area broken w b (a.modify id f) :=
  { h with
    shares := { h.shares with }
    slots := fun other hother => by
      rw [slot?_modify, if_neg (fun heq : other = id => hother (heq ▸ hid))]
      exact h.slots other hother
    size := by
      rw [modify_size]
      exact h.size }

/-- An effect on a part of the area. -/
theorem Effect.mono (h : Effect base area broken w b a) {larger : List TaskId}
    (hsub : area ⊆ larger) : Effect base larger broken w b a :=
  { h with
    slots := fun other hother => h.slots other fun hmem => hother (hsub hmem) }

/-- Two effects, one after the other. -/
theorem Effect.trans {broken₁ : Option Fault} {w₁ : World E}
    (h₁ : Effect base area broken₁ w₁ b a₁)
    (h : Effect base area broken w a₁ a) :
    Effect base area broken w b a where
  shares := h.shares
  fault := h.fault
  slots other hother := (h.slots other hother).trans (h₁.slots other hother)
  status := h.status.trans h₁.status
  root := h.root.trans h₁.root
  listeners := h.listeners.trans h₁.listeners
  size := h.size.trans h₁.size

/-- The guard evaluator is still idle if it is outside the area. -/
theorem Effect.idle (h : Effect base area broken w b a)
    (harea : .evaluator ∉ area) (hidle : Idle b) : Idle a :=
  hidle.congr (h.slots _ harea)

-- ========================================================== the receiver

/-- The receiver of a report is there: a parent is out of its slot, in the
hook that ran the child, and it is not one of the slots of `area`. -/
def Role.Awaits (role : Role) (a : Arena E (Stock E A))
    (area : List TaskId) : Prop :=
  match role with
  | .root | .guard => True
  | .child parent =>
    parent ∉ area ∧ parent ≠ .evaluator
      ∧ ∃ s, a.slot? parent = some s ∧ s.occupant = none

/-- What becomes of an arena when the receiver of the task `id` gets a
report. The guard evaluator lets every report pass, and a fault is no
report. -/
def Role.receive (role : Role) (id : TaskId) (result : Except Fault Outcome)
    (a : Arena E (Stock E A)) : Arena E (Stock E A) :=
  match role, result with
  | .root, .ok outcome => a.settle outcome
  | .child parent, .ok outcome => a.post parent id outcome
  | _, _ => a

/-- Receiving leaves the root in its place. -/
@[simp] theorem Role.receive_root (role : Role) (id : TaskId)
    (result : Except Fault Outcome) (a : Arena E (Stock E A)) :
    (role.receive id result a).root = a.root := by
  cases role <;> cases result <;> rfl

/-- Receiving changes no listener. -/
@[simp] theorem Role.receive_listeners (role : Role) (id : TaskId)
    (result : Except Fault Outcome) (a : Arena E (Stock E A)) :
    (role.receive id result a).listeners = a.listeners := by
  cases role <;> cases result <;> rfl

/-- Receiving adds no slot. -/
@[simp] theorem Role.receive_size (role : Role) (id : TaskId)
    (result : Except Fault Outcome) (a : Arena E (Stock E A)) :
    (role.receive id result a).slots.size = a.slots.size := by
  cases role <;> cases result <;> simp [receive, settle, post, log]

/-- The tree's status after a report. -/
theorem Role.receive_status (role : Role) (id : TaskId)
    (result : Except Fault Outcome) {a b : Arena E (Stock E A)}
    (h : a.status = b.status) :
    (role.receive id result a).status = (role.receive id result b).status := by
  cases role <;> cases result <;> first | exact h | rfl

/-- What a receiver does is not seen from outside. -/
theorem Shares.receive (h : Shares base a w) (role : Role) (id : TaskId)
    (result : Except Fault Outcome) :
    Shares base (role.receive id result a) w := by
  refine ⟨?_, ?_, ?_, ?_⟩
  · cases role <;> cases result <;> exact h.board
  · cases role <;> cases result <;> exact h.dice
  · cases role <;> cases result <;> exact h.rolled
  · rw [Role.receive_listeners, ← h.told]
    cases role <;> cases result <;>
      first
        | rfl
        | rw [Role.receive, settle]
          exact (told_log ..).trans (List.append_nil _)

/-- The index of a child is told by the slot of its parent. -/
theorem childIndex_congr {a b : Arena E (Stock E A)} {parent id : TaskId}
    (h : a.slot? parent = b.slot? parent) :
    a.childIndex parent id = b.childIndex parent id := by
  unfold Arena.childIndex Arena.childrenOf
  rw [h]

/-- A report does the same to two arenas that agree outside the area. -/
theorem Role.receive_slot {role : Role} {a b : Arena E (Stock E A)}
    (id : TaskId) (result : Except Fault Outcome) (hawaits : role.Awaits b area)
    (h : ∀ other, other ∉ area → a.slot? other = b.slot? other) {other : TaskId}
    (hother : other ∉ area) :
    (role.receive id result a).slot? other
      = (role.receive id result b).slot? other := by
  cases role with
  | root => cases result <;> exact h other hother
  | guard => cases result <;> exact h other hother
  | child parent =>
      cases result with
      | error fault => exact h other hother
      | ok outcome =>
          have hparent : a.slot? parent = b.slot? parent := h parent hawaits.1
          simp only [receive, post, slot?_modify, hparent,
            childIndex_congr hparent, h other hother]

/-- A receiver that waits outside the area still waits after an effect
inside it. -/
theorem Role.Awaits.frame {role : Role} {area' : List TaskId}
    {a b : Arena E (Stock E A)} (hawaits : role.Awaits b area)
    (hsub : area' ⊆ area)
    (h : ∀ other, other ∉ area → a.slot? other = b.slot? other) :
    role.Awaits a area' := by
  cases role with
  | root => trivial
  | guard => trivial
  | child parent =>
      obtain ⟨hparent, hne, s, hs, haway⟩ := hawaits
      exact ⟨fun hmem => hparent (hsub hmem), hne, s,
        (h parent hparent).trans hs, haway⟩

/-- An effect that ends with a report, after one that did not reach the
receiver. -/
theorem Effect.trans_receive {role : Role} {id : TaskId}
    {result : Except Fault Outcome} {broken₁ : Option Fault} {w₁ : World E}
    (hawaits : role.Awaits b area) (h₁ : Effect base area broken₁ w₁ b a₁)
    (h : Effect base area broken w (role.receive id result a₁) a) :
    Effect base area broken w (role.receive id result b) a where
  shares := h.shares
  fault := h.fault
  slots other hother :=
    (h.slots other hother).trans
      (Role.receive_slot id result hawaits h₁.slots hother)
  status := h.status.trans (Role.receive_status role id result h₁.status)
  root := by rw [h.root, Role.receive_root, h₁.root, Role.receive_root]
  listeners := by
    rw [h.listeners, Role.receive_listeners, h₁.listeners,
      Role.receive_listeners]
  size := by rw [h.size, Role.receive_size, h₁.size, Role.receive_size]

-- ====================================================== the report itself

/-- The status of a task after a report, and the notice of it. -/
def setStatusOf (a : Arena E (Stock E A)) (id : TaskId) (outcome : Outcome) :
    Arena E (Stock E A) :=
  (a.countReport id outcome).setStatus id outcome

variable {id : TaskId} {s : Slot (Stock E A)} {outcome : Outcome}

/-- The slot has the new status and one report more. -/
theorem setStatusOf_slot (outcome : Outcome) (hslot : a.slot? id = some s) :
    (setStatusOf a id outcome).slot? id
      = some { s with status := outcome.status, reports := s.reports + 1 } := by
  simp [setStatusOf, setStatus, countReport, hslot]

/-- To set a status is to tell the listeners and touch one slot. -/
theorem setStatusOf_effect (outcome : Outcome) (hfault : a.fault = none)
    (hslot : a.slot? id = some s) (hshares : Shares base a w) :
    Effect base [id] none (w.tell (.status id s.name s.status outcome.status)) a
      (setStatusOf a id outcome) where
  shares := by
    refine ⟨hshares.board, hshares.dice, hshares.rolled, ?_⟩
    have htold := hshares.told
    simp [setStatusOf, setStatus, countReport, World.tell, statusOf, nameOf,
      hslot, Entry.notice?, htold]
    rfl
  fault := hfault
  slots other hother := by
    have hne : other ≠ id :=
      fun heq => hother (heq ▸ List.mem_singleton_self id)
    simp [setStatusOf, setStatus, countReport, hne]
  status := rfl
  root := rfl
  listeners := rfl
  size := by simp [setStatusOf, setStatus, countReport, log, announce]

variable [Deed E A]

/-- The guard evaluator takes its one report, does nothing about it and goes
back to where it was. -/
theorem answer_idle (delta : Float32) (hfault : a.fault = none) (hidle : Idle a)
    (hshares : Shares base a w) (report : Report) :
    ∃ a', Settles (fun b => answer b delta .evaluator .evaluator
        ((a.modify .evaluator fun s =>
          { s with inbox := s.inbox ++ [report] }).vacate .evaluator))
        a'
      ∧ Effect base [] none w a a' := by
  obtain ⟨se, hslot, hoccupant, hinbox⟩ := hidle
  -- The evaluator goes away, takes the one report from its inbox and comes
  -- back.
  obtain ⟨away, haway⟩ : ∃ away, away
      = (a.modify .evaluator fun s =>
        { s with inbox := s.inbox ++ [report] }).vacate .evaluator :=
    ⟨_, rfl⟩
  have hposted : away.slot? .evaluator
      = some { se with occupant := none, inbox := [report] } := by
    simp [haway, vacate, hslot, hinbox]
  obtain ⟨taken, htaken⟩ : ∃ taken, taken
      = (away.modify .evaluator fun s => { s with inbox := s.inbox.tail }).log
          (.called .evaluator (.respond report.outcome report.child)) :=
    ⟨_, rfl⟩
  have hempty : taken.slot? .evaluator
      = some { se with occupant := none, inbox := [] } := by
    simp [htaken, hposted]
  have hawayFault : away.fault = none := by
    rw [haway]
    exact hfault
  have htakenFault : taken.fault = none := by
    rw [htaken]
    exact hawayFault
  have hrest := carryOut_done_empty delta .evaluator htakenFault hempty rfl
  have hrun := answer_report delta .evaluator hawayFault hposted rfl
    (by
      rw [← htaken]
      exact hrest)
  rw [← haway]
  refine ⟨_, hrun, ?_⟩
  -- All of this is in the slot of the evaluator.
  have heffect : Effect base [.evaluator] none w a
      (((taken.log (.returned .evaluator)).modify .evaluator fun s =>
        { s with inbox := s.inbox.tail }).refill .evaluator .evaluator) := by
    have hself : TaskId.evaluator ∈ [TaskId.evaluator] :=
      List.mem_singleton_self _
    have hstart : Effect base [.evaluator] none w a a :=
      hfault ▸ Effect.refl hshares
    rw [htaken, haway]
    exact
      ((((((hstart.modify hself _).modify hself _).modify hself _).log _
        rfl).log _ rfl).modify
      hself _).modify hself _
  -- The slot ends as it began: occupied, with an empty inbox.
  refine { heffect with slots := fun other _ => ?_ }
  by_cases hother : other = .evaluator
  · rw [hother, refill, slot?_modify, if_pos rfl, slot?_modify, if_pos rfl,
      slot?_log, hempty, hslot]
    cases se
    simp_all
  · exact heffect.slots other fun hmem => hother (List.mem_singleton.1 hmem)

/-- What a report comes to: the task has its new status, the receiver has
heard of it, and the listeners were told. -/
theorem transition_settles {role : Role} (delta : Float32)
    (hfault : a.fault = none) (hslot : a.slot? id = some s)
    (hreports : s.reports = 0) (hcontrol : s.control = some role.control)
    (hidle : Idle a) (hid : id ≠ .evaluator) (hawaits : role.Awaits a [id])
    (hshares : Shares base a w) (outcome : Outcome) :
    ∃ a', Settles (fun b => transition b delta id outcome a) a'
      ∧ a'.slot? id = some { s with status := outcome.status, reports := 1 }
      ∧ Effect base [id] none
        (w.tell (.status id s.name s.status outcome.status))
          (role.receive id (.ok outcome) a) a' := by
  have hset := setStatusOf_slot outcome hslot
  rw [hreports, Nat.zero_add] at hset
  have heffect := setStatusOf_effect outcome hfault hslot hshares
  -- It is the first report of the turn, so it is no fault.
  have honce : (a.countReport id outcome).reportsOf id = 1 := by
    simp [reportsOf, countReport, hslot, hreports]
  have hcontrolOf :
      ((a.countReport id outcome).setStatus id outcome).controlOf id
      = some role.control := by
    show ((setStatusOf a id outcome).slot? id).bind (·.control)
        = some role.control
    rw [hset]
    exact hcontrol
  have hreceived : Effect base [id] none
      (w.tell (.status id s.name s.status outcome.status))
      (role.receive id (.ok outcome) a)
      (role.receive id (.ok outcome) (setStatusOf a id outcome)) := by
    have hfault' :
        (role.receive id (.ok outcome) (setStatusOf a id outcome)).fault
          = none := by
      cases role <;> exact hfault
    have hrefl : Effect base [id] _ _ _ _ :=
      Effect.refl (heffect.shares.receive role id (.ok outcome))
    rw [hfault'] at hrefl
    exact heffect.trans_receive hawaits hrefl
  -- the receiver decides how the run goes on
  cases role with
  -- The tree takes the status of its root.
  | root =>
      refine ⟨(setStatusOf a id outcome).settle outcome, Settles.later ?_, hset,
        hreceived⟩
      simp only [transition, isAborting, hfault, honce, hcontrolOf,
        Role.control, Option.isSome_none, Bool.false_eq_true, if_false,
        Nat.lt_irrefl]
      exact Settles.const _
  -- The parent is in a hook, so the report waits in its inbox.
  | child parent =>
      obtain ⟨hne, -, sp, hsp, haway⟩ := hawaits
      rw [List.mem_singleton] at hne
      have hparent : (setStatusOf a id outcome).slot? parent = some sp := by
        rw [heffect.slots parent (by rwa [List.mem_singleton]), hsp]
      have habsent :
          ((setStatusOf a id outcome).post parent id outcome).occupantOf
            parent = none := by
        simp [occupantOf, post, hparent, haway]
      refine ⟨_, Settles.later ?_, ?_, hreceived⟩
      · unfold setStatusOf at habsent
        simp only [transition, isAborting, hfault, honce, hcontrolOf,
          Role.control, habsent, Option.isSome_none, Bool.false_eq_true,
          if_false, Nat.lt_irrefl]
        exact Settles.const _
      · rw [Role.receive, post, slot?_modify, if_neg (fun heq => hne heq.symm),
          hset]
  -- The evaluator is at its seat and answers the report at once.
  | guard =>
      have hidle' :=
        heffect.idle (by rw [List.mem_singleton]; exact fun heq => hid heq.symm)
          hidle
      have hpresent :
          ((setStatusOf a id outcome).post .evaluator id outcome).occupantOf
            .evaluator
          = some .evaluator := by
        obtain ⟨se, hse, hoccupant, -⟩ := hidle'
        simp [occupantOf, post, hse, hoccupant]
      obtain ⟨a', hsettles, hanswered⟩ :=
        answer_idle delta heffect.fault hidle' heffect.shares
          { child := (setStatusOf a id outcome).childIndex .evaluator id,
            outcome }
      refine ⟨a', Settles.later ?_, ?_,
        hreceived.trans (hanswered.mono (List.nil_subset _))⟩
      · unfold setStatusOf at hpresent hsettles
        simp only [transition, isAborting, hfault, honce, hcontrolOf,
          Role.control, hpresent, Option.isSome_none, Bool.false_eq_true,
          if_false, Nat.lt_irrefl]
        exact hsettles
      · rw [hanswered.slots id (List.not_mem_nil), hset]

end TaskTree.Direct
