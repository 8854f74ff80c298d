/-
Where the tasks are while a step runs.

Between two steps an arena is at rest: no fault is pending, every slot
holds its task, and nobody has anything to answer. During a step a task may
be out of its slot, in one of its hooks or between two of them, and then
the scene has it. `Seats` says so of every task at once: it is in its slot
with an empty inbox or it is with exactly one of the things going on, and
wherever it is, it is the task that stood there when the step began, aged
by the hooks that it has run since.

Every move keeps this (`Seats.move`), so when nothing is going on any more
every task is back in its slot (`step_seats`).
-/
import TaskTree.Proofs.Arena.Course

namespace TaskTree

variable {E T : Type}

/-- Where the task of a slot is, and what it has to answer. -/
def Slot.seat (s : Slot T) : Option (Occupant T) × List Report :=
  (s.occupant, s.inbox)

/-- What a mapped hook leaves is the image of what the hook leaves. By induction
along the hook, which keeps its task to the end. -/
theorem Hook.Leaves.of_map {T U : Type} {f : T → U} {hook : Hook E T} {left : U}
    (h : (hook.map f).Leaves left) :
    ∃ task, hook.Leaves task ∧ left = f task := by
  induction hook with
  | done task =>
      cases h
      exact ⟨task, .done task, rfl⟩
  | report outcome next ih =>
      cases h with
      | report h => exact (ih h).imp fun _ h => ⟨.report h.1, h.2⟩
  | runChild index next ih =>
      cases h with
      | runChild h => exact (ih h).imp fun _ h => ⟨.runChild h.1, h.2⟩
  | look next ih =>
      cases h with
      | look view h => exact (ih view h).imp fun _ h => ⟨.look view h.1, h.2⟩
  | write board next ih =>
      cases h with
      | write h => exact (ih h).imp fun _ h => ⟨.write h.1, h.2⟩
  | draw next ih =>
      cases h with
      | draw roll h => exact (ih roll h).imp fun _ h => ⟨.draw roll h.1, h.2⟩

/-- What an occupant of a slot may be after a call. The guard evaluator never
changes. -/
inductive Call.Turns [Behavior E T] (call : Call) :
    Occupant T → Occupant T → Prop where
  | evaluator : Turns call .evaluator .evaluator
  | task {task left : T} (hleaves : (call.hook task).Leaves left) :
      Turns call (.task task) (.task left)

/-- A call leaves the task turned by it. -/
theorem leaves_occupant [Behavior E T] {call : Call}
    {occupant left : Occupant T} (h : (call.hook occupant).Leaves left) :
    call.Turns occupant left := by
  cases occupant with
  | evaluator => cases call <;> (cases h; exact .evaluator)
  | task task =>
      have hmap : call.hook (Occupant.task task)
          = (call.hook task).map Occupant.task := by
        cases call <;> rfl
      rw [hmap] at h
      obtain ⟨left, hleft, rfl⟩ := h.of_map
      exact .task hleft

/-- A task as it may be after some of its hooks. -/
def Aged [Behavior E T] : Occupant T → Occupant T → Prop :=
  Relation.ReflTransGen fun occupant occupant' =>
    ∃ call : Call, (call.hook occupant).Leaves occupant'

/-- What has become of a slot, if `held` is the task that was taken out of
it. -/
inductive Slot.Stands [Behavior E T] (s₀ s : Slot T) :
    (held : Option (Occupant T)) → Prop where
  | seated {occupant₀ occupant : Occupant T}
      (before : s₀.occupant = some occupant₀) (now : s.occupant = some occupant)
      (aged : Aged occupant₀ occupant) (inbox : s.inbox = []) :
      Stands s₀ s none
  | out {occupant₀ occupant : Occupant T}
      (before : s₀.occupant = some occupant₀) (now : s.occupant = none)
      (aged : Aged occupant₀ occupant) : Stands s₀ s (some occupant)

section

variable [Behavior E T] {s₀ s s' : Slot T} {kept : Option (Occupant T)}

/-- A slot stands as long as its seat is the same. -/
theorem Slot.Stands.congr (h : s₀.Stands s kept) (hseat : s'.seat = s.seat) :
    s₀.Stands s' kept := by
  obtain ⟨hoccupant, hinbox⟩ := Prod.mk.inj hseat
  cases h with
  | seated before now aged inbox =>
      exact .seated before (hoccupant.trans now) aged (hinbox.trans inbox)
  | out before now aged => exact .out before (hoccupant.trans now) aged

/-- A task that is in its slot is nowhere else. -/
theorem Slot.Stands.eq_none (h : s₀.Stands s kept) {occupant : Occupant T}
    (hoccupant : s.occupant = some occupant) : kept = none := by
  cases h with
  | seated => rfl
  | out before now aged => exact nomatch hoccupant.symm.trans now

/-- A task is taken out of its slot. -/
theorem Slot.Stands.take (h : s₀.Stands s kept) {occupant : Occupant T}
    (hoccupant : s.occupant = some occupant) (hgone : s'.occupant = none) :
    s₀.Stands s' (some occupant) := by
  cases h with
  | seated before now aged inbox =>
      cases now.symm.trans hoccupant
      exact .out before hgone aged
  | out before now aged => exact nomatch hoccupant.symm.trans now

/-- While a task is out of its slot, its inbox may be anything. -/
theorem Slot.Stands.wait (h : s₀.Stands s kept) (hgone : s.occupant = none)
    (hgone' : s'.occupant = none) : s₀.Stands s' kept := by
  cases h with
  | seated before now aged inbox => exact nomatch hgone.symm.trans now
  | out before now aged => exact .out before hgone' aged

/-- A task is put back into its slot. -/
theorem Slot.Stands.put {occupant : Occupant T}
    (h : s₀.Stands s (some occupant)) (hnow : s'.occupant = some occupant)
    (hinbox : s'.inbox = []) : s₀.Stands s' none := by
  cases h with
  | out before now aged => exact .seated before hnow aged hinbox

/-- A task that is out of its slot runs a hook to its end. -/
theorem Slot.Stands.leave {occupant occupant' : Occupant T} {call : Call}
    (h : s₀.Stands s (some occupant))
    (hleaves : (call.hook occupant).Leaves occupant') :
    s₀.Stands s (some occupant') := by
  cases h with
  | out before now aged => exact .out before now (aged.tail ⟨call, hleaves⟩)

end

namespace Arena

/-- Nothing is left over from a step. -/
structure AtRest (a : Arena E T) : Prop where
  fault : a.fault = none
  slots : ∀ id s, a.slot? id = some s → s.occupant.isSome = true ∧ s.inbox = []

/-- The task that is out of the slot of a handle. -/
def held : List (Activity T) → TaskId → Option (Occupant T)
  | [], _ => none
  | .turn _ :: going, id => held going id
  | .hook self occupant :: going, id =>
    if id = self then some occupant else held going id
  | .between self occupant :: going, id =>
    if id = self then some occupant else held going id

/-- No task is out of its slot twice. -/
def Apart : List (Activity T) → Prop
  | [] => True
  | .turn _ :: going => Apart going
  | .hook self _ :: going => held going self = none ∧ Apart going
  | .between self _ :: going => held going self = none ∧ Apart going

variable [Behavior E T]

/-- Every task is in its slot or out of it, and has aged since `a₀`. -/
structure Seats (a₀ : Arena E T) (s : Scene E T) : Prop where
  apart : Apart s.going
  stands : ∀ id t, s.arena.slot? id = some t →
    ∃ s₀, a₀.slot? id = some s₀ ∧ s₀.Stands t (held s.going id)

/-- At rest everybody is at home. -/
theorem AtRest.seats {a : Arena E T} (h : AtRest a) : Seats a ⟨[], a⟩ := by
  refine ⟨trivial, fun id s hslot => ⟨s, hslot, ?_⟩⟩
  obtain ⟨hsome, hinbox⟩ := h.slots id s hslot
  obtain ⟨occupant, hoccupant⟩ := Option.isSome_iff_exists.1 hsome
  exact .seated hoccupant hoccupant .refl hinbox

variable {a₀ a a' : Arena E T} {going going' : List (Activity T)}

/-- What a change to one slot has to respect. -/
theorem Seats.change (h : Seats a₀ ⟨going, a⟩) (id : TaskId)
    {f : Slot T → Slot T} (hslots : ∀ x, a'.slot? x = (a.modify id f).slot? x)
    (hapart : Apart going')
    (hothers : ∀ x, x ≠ id → held going' x = held going x)
    (hself : ∀ s₀ t : Slot T, a.slot? id = some t →
      s₀.Stands t (held going id) →
      s₀.Stands (f t) (held going' id)) :
    Seats a₀ ⟨going', a'⟩ := by
  refine ⟨hapart, fun x t' ht' => ?_⟩
  rw [hslots x, slot?_modify] at ht'
  by_cases heq : x = id
  · subst heq
    rw [if_pos rfl] at ht'
    obtain ⟨t, ht, rfl⟩ := Option.map_eq_some_iff.1 ht'
    obtain ⟨s₀, hs₀, hstands⟩ := h.stands x t ht
    exact ⟨s₀, hs₀, hself s₀ t ht hstands⟩
  · rw [if_neg heq] at ht'
    obtain ⟨s₀, hs₀, hstands⟩ := h.stands x t' ht'
    refine ⟨s₀, hs₀, ?_⟩
    rw [hothers x heq]
    exact hstands

/-- Where nobody moves. -/
theorem Seats.keep (h : Seats a₀ ⟨going, a⟩) (hkeeps : Keeps Slot.seat a a')
    (hapart : Apart going') (hheld : ∀ x, held going' x = held going x) :
    Seats a₀ ⟨going', a'⟩ := by
  refine ⟨hapart, fun x t' ht' => ?_⟩
  have hseat := hkeeps x
  rw [ht', Option.map_some] at hseat
  obtain ⟨t, ht, hsame⟩ := Option.map_eq_some_iff.1 hseat.symm
  obtain ⟨hoccupant, hinbox⟩ := Prod.mk.inj hsame
  obtain ⟨s₀, hs₀, hstands⟩ := h.stands x t ht
  refine ⟨s₀, hs₀, ?_⟩
  rw [hheld x]
  exact hstands.congr hsame.symm

/-- A task that is in its slot is not out of it. -/
theorem Seats.held_eq_none (h : Seats a₀ ⟨going, a⟩) {id : TaskId}
    {occupant : Occupant T} (hoccupant : a.occupantOf id = some occupant) :
    held going id = none := by
  obtain ⟨t, ht, hoccupant⟩ := Option.bind_eq_some_iff.1 hoccupant
  obtain ⟨s₀, -, hstands⟩ := h.stands id t ht
  exact hstands.eq_none hoccupant

/-- A report moves nobody. -/
theorem Seats.report (h : Seats a₀ ⟨going, a⟩) (id : TaskId)
    (outcome : Outcome) :
    Seats a₀ ⟨going, a.spoken id outcome⟩ :=
  h.keep (keeps_spoken _ _ _ (fun _ _ => rfl) fun _ _ => rfl) h.apart fun _ =>
    rfl

omit [Behavior E T] in
/-- The occupant is the one in the slot. -/
theorem occupant_eq {id : TaskId} {t : Slot T} (ht : a.slot? id = some t) :
    a.occupantOf id = t.occupant := by
  rw [occupantOf, ht, Option.bind_some]

/-- Every move leaves each task where it is, takes it out of its slot or puts it
back. One case per move. A call takes the task out of its slot, and only the
rest after its answers puts it back. -/
theorem Seats.move {s s' : Scene E T} (h : Seats a₀ s) (hmove : Move s s') :
    Seats a₀ s' := by
  cases hmove with
  | enter =>
      exact h.keep ((keeps_beginTurn _ _ fun _ _ => rfl).trans
          (keeps_setControl _ _ _ fun _ _ => rfl))
        h.apart fun _ => rfl
  | resume =>
      exact h.keep (keeps_beginTurn _ _ fun _ _ => rfl) h.apart fun _ => rfl
  | leave | breach | write | roll => exact h.keep (.refl _) h.apart fun _ => rfl
  | again =>
      exact h.keep (keeps_countReport _ _ _ fun _ _ => rfl) h.apart fun _ => rfl
  | unheard => exact h.report _ _
  | settle => exact (h.report _ _).keep (.refl _) h.apart fun _ => rfl
  | @call going a id call occupant _ _ hoccupant =>
      have hheld : held (.hook id occupant :: .turn id :: going) id
          = some occupant := if_pos rfl
      refine h.change (f := fun t => { t with occupant := none }) id
        (fun _ => rfl) ⟨h.held_eq_none hoccupant, h.apart⟩
        (fun x hx => if_neg hx) fun s₀ t ht hstands => ?_
      rw [hheld]
      exact hstands.take ((occupant_eq ht).symm.trans hoccupant) rfl
  | @respond going a id occupant report =>
      refine h.change (f := fun t => { t with inbox := t.inbox.tail }) id
        (fun _ => rfl) h.apart (fun _ _ => rfl) fun s₀ t _ hstands => ?_
      have hheld : held (.between id occupant :: going) id = some occupant :=
        if_pos rfl
      have hheld' : held (.hook id occupant :: going) id = some occupant :=
        if_pos rfl
      rw [hheld] at hstands
      rw [hheld']
      cases hstands with
      | out before now aged => exact .out before now aged
  -- Out of the slot the task may turn into another state of itself.
  | @«return» going a id call occupant occupant' hleaves =>
      have hheld : held (.hook id occupant :: going) id = some occupant :=
        if_pos rfl
      have hheld' : held (.between id occupant' :: going) id = some occupant' :=
        if_pos rfl
      refine h.change (f := fun t => t) id (fun x => ?_) h.apart
        (fun x hx => (if_neg hx).trans (if_neg hx).symm) fun s₀ t _ hstands =>
          ?_
      · rw [slot?_modify, slot?_log, Option.map_id_fun']
        split
        · rename_i heq
          exact congrArg a.slot? heq
        · rfl
      · rw [hheld] at hstands
        rw [hheld']
        exact hstands.leave hleaves
  | @rest going a id occupant =>
      have hheld : held (.between id occupant :: going) id = some occupant :=
        if_pos rfl
      refine h.change (f := fun t =>
          { t with occupant := some occupant, inbox := [] }) id
        (fun _ => rfl) h.apart.2 (fun x hx => (if_neg hx).symm)
        fun s₀ t _ hstands => ?_
      rw [hheld] at hstands
      rw [show held going id = none from h.apart.1]
      exact hstands.put rfl rfl
  -- The receiver is out, and the report waits for it.
  | @post going a id controller outcome _ _ _ _ haway =>
      refine (h.report id outcome).change
        (f := fun t => { t with inbox := t.inbox ++ [_] }) controller
        (fun _ => rfl) h.apart (fun _ _ => rfl) fun s₀ t ht hstands => ?_
      rw [occupantOf_post, occupant_eq ht] at haway
      exact hstands.wait haway haway
  -- The receiver is taken out of its slot to answer.
  | @hand going a id controller outcome occupant _ _ _ _ hseated =>
      rw [occupantOf_post] at hseated
      have hspoken := h.report id outcome
      have hheld : held (.between controller occupant :: going) controller
          = some occupant :=
        if_pos rfl
      refine hspoken.change controller
        (fun x => congrArg (slot? · x) (modify_modify _ _ _ _))
        ⟨hspoken.held_eq_none hseated, h.apart⟩ (fun x hx => if_neg hx)
        fun s₀ t ht hstands => ?_
      rw [hheld]
      exact hstands.take ((occupant_eq ht).symm.trans hseated) rfl

/-- A course keeps the seats, as every move does. -/
theorem Seats.course {s s' : Scene E T} (h : Seats a₀ s)
    (hcourse : Course s s') : Seats a₀ s' :=
  Course.invariant (fun _ _ hseats hmove => hseats.move hmove) hcourse h

/-- When nothing is going on any more, every slot holds its task and nobody
has anything to answer. -/
theorem Seats.home (h : Seats a₀ ⟨[], a⟩) {id : TaskId} {t : Slot T}
    (ht : a.slot? id = some t) :
    t.inbox = [] ∧ ∃ occupant₀ occupant, a₀.occupantOf id = some occupant₀
      ∧ a.occupantOf id = some occupant ∧ Aged occupant₀ occupant := by
  obtain ⟨s₀, hs₀, hstands⟩ := h.stands id t ht
  cases hstands with
  | seated before now aged inbox =>
      exact ⟨inbox, _, _, (occupant_eq hs₀).trans before,
        (occupant_eq ht).trans now, aged⟩

-- ================================================================= steps

/-- What a step leaves of the tasks, whatever its result. -/
structure Seated (a a' : Arena E T) : Prop where
  rest : AtRest a'
  links : SameLinks a a'
  /-- Every task is in its slot again. -/
  aged : ∀ id occupant, a.occupantOf id = some occupant →
    ∃ occupant', a'.occupantOf id = some occupant' ∧ Aged occupant occupant'

/-- A course that begins at rest and comes to its end. -/
theorem seated_of_course (hrest : AtRest a)
    (hcourse : Course ⟨[], a⟩ ⟨[], a'⟩) :
    Seated a { a' with fault := none } := by
  have hseats := hrest.seats.course hcourse
  have hlinks := hcourse.sameLinks
  refine ⟨⟨rfl, fun id t ht => ?_⟩, ⟨hlinks.root, hlinks.links⟩,
    fun id occupant hoccupant => ?_⟩
  · obtain ⟨hinbox, _, _, -, hnow, -⟩ := hseats.home ht
    exact ⟨Option.isSome_iff_exists.2 ⟨_, (occupant_eq ht).symm.trans hnow⟩,
      hinbox⟩
  · obtain ⟨s, hs, -⟩ := Option.bind_eq_some_iff.1 hoccupant
    obtain ⟨t, ht⟩ := Option.isSome_iff_exists.1 <|
      (hlinks.isSome id).trans (Option.isSome_iff_exists.2 ⟨s, hs⟩)
    obtain ⟨-, occupant₀, occupant', hbefore, hnow, haged⟩ := hseats.home ht
    cases hbefore.symm.trans hoccupant
    exact ⟨occupant', hnow, haged⟩

/-- A step finds everybody at home and leaves them there, aged. -/
theorem step_seated {b : Nat} {delta : Float32} {result : Except Fault Status}
    (hrest : AtRest a) (hstep : step b delta a = some (result, a')) :
    Seated a a' := by
  cases hroot : a.root with
  | none =>
      obtain ⟨-, rfl⟩ := step_rootless hroot hstep
      exact ⟨hrest, .refl a',
        fun id occupant hoccupant => ⟨occupant, hoccupant, .refl⟩⟩
  | some root =>
      obtain ⟨a₁, hcourse, hend⟩ := step_course hroot hstep
      have hseated :=
        seated_of_course (a := a.begun root delta) ⟨rfl, hrest.slots⟩ hcourse
      -- What was pending as a fault is gone after the step.
      rcases hend with ⟨hfault, rfl, rfl⟩ | ⟨fault, -, rfl, rfl⟩
      · have hsame : { a' with fault := none } = a' := by rw [← hfault]
        rw [hsame] at hseated
        exact ⟨hseated.rest, ⟨hseated.links.root, hseated.links.links⟩,
          hseated.aged⟩
      · exact ⟨⟨rfl, hseated.rest.slots⟩,
          ⟨hseated.links.root, hseated.links.links⟩, hseated.aged⟩

end Arena

end TaskTree
