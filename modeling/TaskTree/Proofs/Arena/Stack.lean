/-
How turns and hooks are nested.

A task has its turn on behalf of the task that receives its reports: a child
in a hook of its parent, a guard in the turn for which it is asked, and the
root on its own. Its hooks run in its turn. The guard evaluator alone is
called out of turn, when a guard reports to it. `Stacked` is this law for
everything that is going on at a moment, and `Regular` adds to it that the
receiver of every task that has its turn is noted in its slot.

So a report always finds its receiver where the law puts it. A parent is in
the hook that ran the reporting child, and not in its slot; only the guard
evaluator can be called to answer at once.
-/
import TaskTree.Proofs.Arena.Wiring

namespace TaskTree.Arena

variable {E T : Type}

-- ============================================================ the nesting

/-- What may be going on in a tree at one moment, the innermost first. -/
inductive Stacked (a : Arena E T) : List (Activity T) → Prop where
  /-- Nothing is going on. -/
  | nothing : Stacked a []
  /-- The turn of the root is the outermost. -/
  | root {id : TaskId} (hroot : a.root = some id) : Stacked a [.turn id]
  /-- A child has its turn in a hook of its parent. -/
  | child {parent id : TaskId} {occupant : Occupant T}
      {going : List (Activity T)}
      (outer : Stacked a (.hook parent occupant :: going))
      (hchild : id ∈ a.childrenOf parent) :
      Stacked a (.turn id :: .hook parent occupant :: going)
  /-- A guard has its turn in the turn of the task that it admits. -/
  | guard {task owner id : TaskId} {going : List (Activity T)}
      (outer : Stacked a (.turn task :: going))
      (hguard : a.guardOf owner = some id) :
      Stacked a (.turn id :: .turn task :: going)
  /-- A task is called in its own turn. -/
  | hook {id : TaskId} (occupant : Occupant T) {going : List (Activity T)}
      (outer : Stacked a (.turn id :: going)) :
      Stacked a (.hook id occupant :: .turn id :: going)
  /-- And so it is between two of its calls. -/
  | between {id : TaskId} (occupant : Occupant T) {going : List (Activity T)}
      (outer : Stacked a (.turn id :: going)) :
      Stacked a (.between id occupant :: .turn id :: going)
  /-- The evaluator is called wherever a guard reports. -/
  | evaluatorHook (occupant : Occupant T) {going : List (Activity T)}
      (outer : Stacked a going) :
      Stacked a (.hook .evaluator occupant :: going)
  /-- And so it is between two of its calls. -/
  | evaluatorBetween (occupant : Occupant T) {going : List (Activity T)}
      (outer : Stacked a going) :
      Stacked a (.between .evaluator occupant :: going)

variable {a a' : Arena E T} {going : List (Activity T)}

/-- Without the innermost activity the stack is one still. -/
theorem Stacked.tail {first : Activity T} (h : Stacked a (first :: going)) :
    Stacked a going := by
  cases h with
  | root => exact .nothing
  | child outer | guard outer | hook _ outer | between _ outer
  | evaluatorHook _ outer
  | evaluatorBetween _ outer => exact outer

/-- Between two of its hooks a task may begin another. -/
theorem Stacked.resume {id : TaskId} {occupant : Occupant T}
    (h : Stacked a (.between id occupant :: going)) (occupant' : Occupant T) :
    Stacked a (.hook id occupant' :: going) := by
  cases h with
  | between _ outer => exact .hook _ outer
  | evaluatorBetween _ outer => exact .evaluatorHook _ outer

/-- A hook may return and leave the task between two calls. -/
theorem Stacked.pause {id : TaskId} {occupant : Occupant T}
    (h : Stacked a (.hook id occupant :: going)) (occupant' : Occupant T) :
    Stacked a (.between id occupant' :: going) := by
  cases h with
  | hook _ outer => exact .between _ outer
  | evaluatorHook _ outer => exact .evaluatorBetween _ outer

/-- Who reports has its turn, or is the guard evaluator. -/
theorem Stacked.speaker (h : Stacked a going) {id : TaskId}
    (hspeaks : Speaks going id) :
    id = .evaluator ∨ .turn id ∈ going := by
  cases hspeaks with
  | turn => exact .inr List.mem_cons_self
  | hook =>
      cases h with
      | hook _ outer => exact .inr (List.mem_cons_of_mem _ List.mem_cons_self)
      | evaluatorHook _ outer => exact .inl rfl

/-- The receiver of a child is its parent, and out of its slot while the child
has its turn. By induction down the stack to the turn of the task: the layer
right below the turn tells who its receiver is. -/
theorem Stacked.receiver_held (hwired : Wired a) (h : Stacked a going)
    {id controller : TaskId} (hid : .turn id ∈ going)
    (hreceiver : a.receiver id = .task controller) :
    controller = .evaluator
      ∨ id ∈ a.childrenOf controller ∧ held going controller ≠ none := by
  induction h with
  | nothing => cases hid
  | root hroot =>
      cases List.mem_singleton.1 hid
      rw [receiver_root hroot] at hreceiver
      cases hreceiver
  -- A child reports to its parent, which is held in the hook below.
  | child outer hchild ih =>
      rcases List.mem_cons.1 hid with heq | hid
      · cases heq
        rw [hwired.receiver_child hchild] at hreceiver
        cases hreceiver
        refine .inr ⟨hchild, fun hnone => ?_⟩
        rw [held, held, if_pos rfl] at hnone
        cases hnone
      · exact ih hid
  -- A guard reports to the evaluator.
  | guard outer hguard ih =>
      rcases List.mem_cons.1 hid with heq | hid
      · cases heq
        rw [hwired.receiver_guard hguard] at hreceiver
        cases hreceiver
        exact .inl rfl
      · exact ih hid
  | hook occupant outer ih | between occupant outer ih
  | evaluatorHook occupant outer ih
  | evaluatorBetween occupant outer ih =>
      rcases List.mem_cons.1 hid with heq | hid
      · cases heq
      · refine (ih hid).imp_right fun ⟨hchild, hheld⟩ =>
          ⟨hchild, fun hnone => hheld ?_⟩
        rw [held] at hnone
        split at hnone
        · cases hnone
        · exact hnone

/-- The turn of a child is part of a hook of its parent. -/
theorem Stacked.turn_child (hwired : Wired a) {id parent : TaskId}
    (h : Stacked a (.turn id :: going)) (hchild : id ∈ a.childrenOf parent) :
    ∃ occupant outer, going = .hook parent occupant :: outer := by
  have hparent := hwired.receiver_child hchild
  cases h with
  | root hroot => exact nomatch (receiver_root hroot).symm.trans hparent
  | @child parent' _ occupant outer _ hchild' =>
      cases (hwired.receiver_child hchild').symm.trans hparent
      exact ⟨occupant, outer, rfl⟩
  | guard outer hguard =>
      cases (hwired.receiver_guard hguard).symm.trans hparent
      exact absurd rfl (hwired.child _ _ hchild).1

/-- Who drives a turn is a matter of links. -/
theorem Driven.congr (hlinks : SameLinks a a') {id : TaskId} {control : Control}
    (h : Driven a' going id control) : Driven a going id control := by
  cases h with
  | root hroot => exact .root (hlinks.root.symm.trans hroot)
  | child hchild =>
      rw [hlinks.childrenOf] at hchild
      exact .child hchild
  | guard hguard => exact .guard ((hlinks.guardOf _).symm.trans hguard)

/-- Who is driven has a slot, reports to its receiver, and may have its
turn. -/
theorem Driven.place (hwired : Wired a) (hstacked : Stacked a going)
    {id : TaskId} {control : Control} (h : Driven a going id control) :
    id ≠ .evaluator ∧ (∃ s, a.slot? id = some s) ∧ control = a.receiver id
      ∧ Stacked a (.turn id :: going) := by
  cases h with
  | root hroot =>
      obtain ⟨hne, s, hs, -⟩ := hwired.root _ hroot
      exact ⟨hne, ⟨s, hs⟩, (receiver_root hroot).symm, .root hroot⟩
  | child hchild =>
      obtain ⟨s, hs, -⟩ := Option.bind_eq_some_iff.1 (hwired.child _ _ hchild).2
      exact ⟨hwired.child_ne hchild, ⟨s, hs⟩,
        (hwired.receiver_child hchild).symm, .child hstacked hchild⟩
  | guard hguard =>
      obtain ⟨hne, -, s, hs, -⟩ := hwired.guard _ _ hguard
      exact ⟨hne, ⟨s, hs⟩, (hwired.receiver_guard hguard).symm,
        .guard hstacked hguard⟩

-- ========================================================= at every moment

variable [Behavior E T]

/-- What is true at every moment of a step that began in the arena `a₀`. -/
structure Regular (a₀ : Arena E T) (s : Scene E T) : Prop where
  links : SameLinks a₀ s.arena
  seats : Seats a₀ s
  stacked : Stacked a₀ s.going
  /-- Who has its turn reports to its receiver. -/
  turns : ∀ id, .turn id ∈ s.going →
    s.arena.controlOf id = some (a₀.receiver id)
  anchored : Anchored s.arena

/-- A ready arena is regular, with nothing going on. -/
theorem Ready.regular (h : Ready a) : Regular a ⟨[], a⟩ :=
  ⟨.refl a, h.rest.seats, .nothing, (fun _ hid => nomatch hid), h.anchored⟩

omit [Behavior E T] in
/-- What is anchored stays so under the same links, statuses and controls. -/
theorem Anchored.congr (h : Anchored a) (hlinks : SameLinks a a')
    (hstatus : Keeps Slot.status a a') (hcontrol : Keeps Slot.control a a') :
    Anchored a' := by
  refine ⟨(hcontrol.controlOf _).trans h.mute, fun id hid hrunning => ?_⟩
  rw [hcontrol.controlOf, hlinks.receiver]
  exact h.running id hid ((hstatus.statusOf id).symm.trans hrunning)

omit [Behavior E T] in
/-- A report of a task whose receiver is noted. -/
theorem Anchored.spoken (h : Anchored a) {id : TaskId} (outcome : Outcome)
    (hid : id = .evaluator ∨ a.controlOf id = some (a.receiver id)) :
    Anchored (a.spoken id outcome) := by
  have hcontrol : Keeps Slot.control a (a.spoken id outcome) :=
    keeps_spoken _ _ _ (fun _ _ => rfl) fun _ _ => rfl
  refine ⟨(hcontrol.controlOf _).trans h.mute, fun x hx hrunning => ?_⟩
  rw [hcontrol.controlOf, (sameLinks_spoken a id outcome).receiver]
  by_cases heq : id = x
  · subst heq
    exact hid.resolve_left hx
  · rw [Arena.statusOf, slot?_spoken, if_neg fun h => heq h.symm] at hrunning
    exact h.running x hx hrunning

variable {a₀ : Arena E T}

/-- What does not touch links, statuses and receivers, and begins no turn. -/
theorem Regular.keep {going' : List (Activity T)} (h : Regular a₀ ⟨going, a⟩)
    (hseats : Seats a₀ ⟨going', a'⟩) (hstacked : Stacked a₀ going')
    (hlinks : SameLinks a a') (hstatus : Keeps Slot.status a a')
    (hcontrol : Keeps Slot.control a a')
    (hturns : ∀ id, .turn id ∈ going' → .turn id ∈ going) :
    Regular a₀ ⟨going', a'⟩ where
  links := h.links.trans hlinks
  seats := hseats
  stacked := hstacked
  turns id hid := (hcontrol.controlOf id).trans (h.turns id (hturns id hid))
  anchored := h.anchored.congr hlinks hstatus hcontrol

/-- A report changes no link and no control. -/
theorem Regular.report (h : Regular a₀ ⟨going, a⟩) {id : TaskId}
    (hspeaks : Speaks going id) (outcome : Outcome) :
    Regular a₀ ⟨going, a.spoken id outcome⟩ := by
  have hcontrol : Keeps Slot.control a (a.spoken id outcome) :=
    keeps_spoken _ _ _ (fun _ _ => rfl) fun _ _ => rfl
  refine ⟨h.links.trans (sameLinks_spoken ..), h.seats.report id outcome,
    h.stacked, fun x hx => (hcontrol.controlOf x).trans (h.turns x hx), ?_⟩
  refine h.anchored.spoken outcome
    ((h.stacked.speaker hspeaks).imp_right fun hid => ?_)
  rw [h.links.receiver]
  exact h.turns id hid

/-- Who receives a report is the guard evaluator or the parent. -/
theorem Regular.receiving (hwired : Wired a₀) (h : Regular a₀ ⟨going, a⟩)
    {id controller : TaskId} (hspeaks : Speaks going id)
    (hcontrol : a.controlOf id = some (.task controller)) :
    controller = .evaluator ∨ id ∈ a₀.childrenOf controller := by
  rcases h.stacked.speaker hspeaks with rfl | hid
  · rw [h.anchored.mute] at hcontrol
    cases hcontrol
  · have hreceiver := Option.some.inj ((h.turns id hid).symm.trans hcontrol)
    exact (h.stacked.receiver_held hwired hid hreceiver).imp_right And.left

/-- Who is called to answer at once is the guard evaluator. -/
theorem Regular.handed (hwired : Wired a₀) (h : Regular a₀ ⟨going, a⟩)
    {id controller : TaskId} (hspeaks : Speaks going id)
    (hcontrol : a.controlOf id = some (.task controller))
    {occupant : Occupant T}
    (hseated : a.occupantOf controller = some occupant) :
    controller = .evaluator := by
  rcases h.stacked.speaker hspeaks with rfl | hid
  · rw [h.anchored.mute] at hcontrol
    cases hcontrol
  · have hreceiver := Option.some.inj ((h.turns id hid).symm.trans hcontrol)
    rcases h.stacked.receiver_held hwired hid hreceiver with heq | ⟨-, hheld⟩
    · exact heq
    · exact absurd (h.seats.held_eq_none hseated) hheld

/-- A turn begins: the stack gets a layer, and the task answers to the one that
began it. -/
theorem Regular.enter (hwired : Wired a₀) (h : Regular a₀ ⟨going, a⟩)
    {id : TaskId} {control : Control} (hdriven : Driven a going id control)
    (hseats : Seats a₀
      ⟨.turn id :: going, (a.beginTurn id).setControl id control⟩) :
    Regular a₀ ⟨.turn id :: going, (a.beginTurn id).setControl id control⟩ := by
  obtain ⟨hne, ⟨s₀, hs₀⟩, hreceiver, hstacked⟩ :=
    (hdriven.congr h.links).place hwired h.stacked
  have hbegun : SameLinks a (a.beginTurn id) :=
    ⟨rfl, keeps_beginTurn _ _ fun _ _ => rfl⟩
  have hlinks := h.links.trans hbegun
  have hcontrol : Keeps Slot.control a (a.beginTurn id) :=
    keeps_beginTurn _ _ fun _ _ => rfl
  refine ⟨hlinks.trans ⟨rfl, keeps_setControl _ _ _ fun _ _ => rfl⟩, hseats,
    hstacked, fun x hx => ?_, ?_⟩
  -- The task answers to the control it was given, and the others to the one
  -- they had.
  · by_cases heq : x = id
    · subst heq
      obtain ⟨s, hs⟩ := Option.isSome_iff_exists.1 <|
        (hlinks.isSome x).trans (Option.isSome_iff_exists.2 ⟨s₀, hs₀⟩)
      rw [controlOf, setControl, slot?_modify, if_pos rfl, hs, ← hreceiver]
      rfl
    · have hold :=
        h.turns x ((List.mem_cons.1 hx).resolve_left fun h =>
            heq (by cases h; rfl))
      rw [controlOf, setControl, slot?_modify, if_neg heq]
      exact (hcontrol.controlOf x).trans hold
  · have hanchored :=
      (h.anchored.congr hbegun (keeps_beginTurn _ _ fun _ _ => rfl)
        hcontrol).setControl hne
    rw [hlinks.receiver, ← hreceiver] at hanchored
    exact hanchored

/-- A running task needs no receiver noted, since its receiver is noted
already. -/
theorem Regular.resume (hwired : Wired a₀) (h : Regular a₀ ⟨going, a⟩)
    {id : TaskId} {control : Control} (hdriven : Driven a going id control)
    (hrunning : a.statusOf id = .running)
    (hseats : Seats a₀ ⟨.turn id :: going, a.beginTurn id⟩) :
    Regular a₀ ⟨.turn id :: going, a.beginTurn id⟩ := by
  obtain ⟨hne, -, -, hstacked⟩ := (hdriven.congr h.links).place hwired h.stacked
  have hbegun : SameLinks a (a.beginTurn id) :=
    ⟨rfl, keeps_beginTurn _ _ fun _ _ => rfl⟩
  have hcontrol : Keeps Slot.control a (a.beginTurn id) :=
    keeps_beginTurn _ _ fun _ _ => rfl
  refine ⟨h.links.trans hbegun, hseats, hstacked, fun x hx => ?_,
    h.anchored.congr hbegun (keeps_beginTurn _ _ fun _ _ => rfl) hcontrol⟩
  rw [hcontrol.controlOf]
  rcases List.mem_cons.1 hx with heq | hx
  · cases heq
    rw [h.anchored.running id hne hrunning, h.links.receiver]
  · exact h.turns x hx

/-- The law is kept by every move. -/
theorem Regular.move (hwired : Wired a₀) {s s' : Scene E T} (h : Regular a₀ s)
    (hmove : Move s s') :
    Regular a₀ s' := by
  -- One case per move: the seats are known to move along, and what is left are
  -- the stack, the links and the controls.
  have hseats := h.seats.move hmove
  cases hmove with
  | enter _ hdriven => exact h.enter hwired hdriven hseats
  | resume _ hdriven hrunning => exact h.resume hwired hdriven hrunning hseats
  | leave =>
      exact h.keep hseats h.stacked.tail ⟨rfl, .refl _⟩ (.refl _) (.refl _)
        fun _ hid => List.mem_cons_of_mem _ hid
  | call =>
      exact h.keep hseats (.hook _ h.stacked)
        ⟨rfl, keeps_vacate _ _ fun _ _ => rfl⟩ (keeps_vacate _ _ fun _ _ => rfl)
        (keeps_vacate _ _ fun _ _ => rfl) fun _ hid =>
          (List.mem_cons.1 hid).resolve_left fun h => nomatch h
  | respond =>
      exact h.keep hseats (h.stacked.resume _)
        ⟨rfl, keeps_taken _ _ fun _ _ => rfl⟩ (keeps_taken _ _ fun _ _ => rfl)
        (keeps_taken _ _ fun _ _ => rfl) fun _ hid =>
          List.mem_cons_of_mem _
            ((List.mem_cons.1 hid).resolve_left fun h => nomatch h)
  -- The task stays away from its seat until it comes to rest.
  | «return» =>
      exact h.keep hseats (h.stacked.pause _) ⟨rfl, .refl _⟩ (.refl _) (.refl _)
        fun _ hid => List.mem_cons_of_mem _
        ((List.mem_cons.1 hid).resolve_left fun h => nomatch h)
  | rest =>
      exact h.keep hseats h.stacked.tail
        ⟨rfl, keeps_rest _ _ _ fun _ _ _ => rfl⟩
        (keeps_rest _ _ _ fun _ _ _ => rfl) (keeps_rest _ _ _ fun _ _ _ => rfl)
        fun _ hid => List.mem_cons_of_mem _ hid
  | unheard _ hspeaks => exact h.report hspeaks _
  | settle _ hspeaks =>
      exact (h.report hspeaks _).keep hseats h.stacked ⟨rfl, .refl _⟩
        (.refl _) (.refl _) fun _ hid => hid
  | post _ hspeaks =>
      exact (h.report hspeaks _).keep hseats h.stacked
        ⟨rfl, keeps_post _ _ _ _ fun _ _ => rfl⟩
        (keeps_post _ _ _ _ fun _ _ => rfl) (keeps_post _ _ _ _ fun _ _ => rfl)
        fun _ hid => hid
  -- The evaluator takes a report at once, on top of whatever is going on.
  | @hand going a id controller outcome occupant _ hspeaks _ hcontrol hseated =>
      have hspoken := h.report hspeaks outcome
      have hposted : SameLinks (a.spoken id outcome)
          ((a.spoken id outcome).post controller id outcome) :=
        ⟨rfl, keeps_post _ _ _ _ fun _ _ => rfl⟩
      rw [occupantOf_post] at hseated
      obtain rfl := hspoken.handed hwired hspeaks hcontrol hseated
      exact hspoken.keep hseats (.evaluatorBetween _ h.stacked)
        (hposted.trans ⟨rfl, keeps_vacate _ _ fun _ _ => rfl⟩)
        ((keeps_post _ _ _ _ fun _ _ => rfl).trans
          (keeps_vacate _ _ fun _ _ => rfl))
        ((keeps_post _ _ _ _ fun _ _ => rfl).trans
          (keeps_vacate _ _ fun _ _ => rfl))
        fun _ hid => (List.mem_cons.1 hid).resolve_left fun h => nomatch h
  | again =>
      exact h.keep hseats h.stacked
        ⟨rfl, keeps_countReport _ _ _ fun _ _ => rfl⟩
        (keeps_countReport _ _ _ fun _ _ => rfl)
        (keeps_countReport _ _ _ fun _ _ => rfl) fun _ hid => hid
  | breach | write | roll =>
      exact h.keep hseats h.stacked ⟨rfl, .refl _⟩ (.refl _) (.refl _)
        fun _ hid => hid

/-- A course keeps the arena regular. -/
theorem Regular.course (hwired : Wired a₀) {s s' : Scene E T} (h : Regular a₀ s)
    (hcourse : Course s s') : Regular a₀ s' :=
  Course.invariant
    (fun _ _ hregular hmove => hregular.move hwired hmove) hcourse h

/-- A step leaves an arena ready for the next one, whatever its result. -/
theorem Ready.step (h : Ready a) {b : Nat} {delta : Float32}
    {result : Except Fault Status}
    (hstep : Arena.step b delta a = some (result, a')) : Ready a' := by
  have hseated := step_seated h.rest hstep
  refine ⟨hseated.rest, h.wired.congr hseated.links, ?_⟩
  cases hroot : a.root with
  | none =>
      obtain ⟨-, rfl⟩ := step_rootless hroot hstep
      exact h.anchored
  | some root =>
      obtain ⟨a₁, hcourse, hend⟩ := step_course hroot hstep
      have hbegun : Ready (a.begun root delta) := h.congr rfl rfl rfl
      have hanchored := (hbegun.regular.course hbegun.wired hcourse).anchored
      rcases hend with ⟨-, -, rfl⟩ | ⟨fault, -, -, rfl⟩
      · exact hanchored
      · exact ⟨hanchored.mute, hanchored.running⟩

end TaskTree.Arena
