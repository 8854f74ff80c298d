/-
What a listener knows of a tree.

A listener is told of every status that is set, and nothing else is needed
to know where all tasks stand. Somebody who begins with fresh tasks, sets
the statuses as they are told and makes all tasks fresh at a reset has a
`mirror` of the tree. If the watching begins before the first step, the
mirror never differs from the tree when a call is over, and whatever is
told fits to what the mirror shows at that moment (`Faithful`).

It is one `story` that all listeners are told. Who is registered more than
once is told everything as often, each time before the next notice.

The invariant is carried from call to call (`Faithful.append`). What has to
be known of a call is which notices it sends and what becomes of the
statuses (`Episode`), and it is the same for steps, which set statuses, and
for constructions, which announce tasks.
-/
import TaskTree.Bench.Chore
import TaskTree.Proofs.Arena.Changes

namespace TaskTree

-- ============================================================= the mirror

/-- What is seen of a tree from outside: what a listener is told, and the
resets. -/
inductive Signal where
  | heard (notice : Notice)
  | reset
  deriving DecidableEq

namespace Signal

/-- Where a mirror shows a task after one more signal. -/
def shows (id : TaskId) (status : Status) : Signal → Status
  | .heard (.status task _ _ current) => if task = id then current else status
  | .heard (.added _ _) => status
  | .reset => .fresh

/-- What `n` registrations make of a signal. -/
def repeated (n : Nat) : Signal → List Signal
  | .heard notice => List.replicate n (.heard notice)
  | .reset => [.reset]

end Signal

/-- Where a mirror shows a task after all signals of a story. -/
def mirror (story : List Signal) (id : TaskId) : Status :=
  story.foldl (Signal.shows id) .fresh

/-- What an entry is to a listener. -/
def Entry.signal? (who : Listener) : Entry → Option Signal
  | .told other notice => if other = who then some (.heard notice) else none
  | _ => none

/-- A mirror follows the statuses that are set. -/
theorem foldl_shows_changes (entries : List Entry) (id : TaskId)
    (status : Status) :
    ((entries.filterMap Entry.change?).map Signal.heard).foldl
      (Signal.shows id) status
      = entries.foldl (Entry.stands id) status := by
  induction entries generalizing status with
  | nil => rfl
  | cons entry rest ih => cases entry <;> exact ih _

namespace Arena

variable {E T : Type} {a a' : Arena E T}

/-- What a listener is told from one arena to a later one. -/
def received (who : Listener) (a a' : Arena E T) : List Signal :=
  (a'.entries.drop a.entries.length).filterMap (Entry.signal? who)

/-- A story is true of a tree. -/
structure Faithful (story : List Signal) (a : Arena E T) : Prop where
  /-- The tree's tasks are told of by their names, with the status that the
  mirror shows, and no task becomes fresh. -/
  updates : ∀ before task name previous current after,
    story = before ++ .heard (.status task name previous current) :: after →
      task ∈ a.tasks ∧ name = a.nameOf task ∧ previous = mirror before task
        ∧ current ≠ .fresh
  agrees : ∀ id, id ≠ .evaluator → mirror story id = a.statusOf id

-- =============================================================== one call

/-- What a call does: it sends these notices, and every status changes as
they say. -/
structure Episode (a a' : Arena E T) (notices : List Notice) : Prop where
  told : ∃ during,
    a'.entries = a.entries ++ during ∧ during.filterMap Entry.notice?
    = notices.flatMap fun notice => a.listeners.map fun who => (who, notice)
  updates : ∀ before task name previous current after,
    notices = before ++ .status task name previous current :: after →
      task ∈ a.tasks ∧ name = a.nameOf task
        ∧ previous = (before.map Signal.heard).foldl (Signal.shows task)
          (a.statusOf task)
        ∧ current ≠ .fresh
  agrees : ∀ id, id ≠ .evaluator →
    a'.statusOf id = (notices.map Signal.heard).foldl (Signal.shows id)
      (a.statusOf id)
  keeps : ∀ id ∈ a.tasks, id ∈ a'.tasks ∧ a'.nameOf id = a.nameOf id

/-- Nothing happens in an episode without notices. -/
theorem Episode.refl (a : Arena E T) : Episode a a [] where
  told := ⟨[], (List.append_nil _).symm, rfl⟩
  updates before _ _ _ _ _ heq := by cases before <;> cases heq
  agrees _ _ := rfl
  keeps _ hid := ⟨hid, rfl⟩

/-- One notice, told to everybody. -/
theorem filterMap_registered (who : Listener) (notice : Notice)
    (listeners : List Listener) :
    listeners.filterMap
      (fun other => if other = who then some (Signal.heard notice) else none)
      = Signal.repeated (listeners.count who) (.heard notice) := by
  induction listeners with
  | nil => rfl
  | cons other rest ih =>
      rw [List.filterMap_cons, ih]
      by_cases heq : other = who
      · rw [if_pos heq, heq, List.count_cons_self]
        rfl
      · rw [if_neg heq, List.count_cons_of_ne heq]

/-- A listener is told of everything as often as it is registered. -/
theorem Episode.received {notices : List Notice} (h : Episode a a' notices)
    (who : Listener) :
    Arena.received who a a'
      = (notices.map Signal.heard).flatMap
        (Signal.repeated (a.listeners.count who)) := by
  obtain ⟨during, hentries, htold⟩ := h.told
  have hsignal : Entry.signal? who = fun entry => entry.notice?.bind
      fun p => if p.1 = who then some (Signal.heard p.2) else none := by
    funext entry
    cases entry <;> rfl
  rw [Arena.received, hentries, List.drop_left, hsignal,
    ← List.filterMap_filterMap, htold, List.filterMap_flatMap, List.flatMap_map]
  refine List.flatMap_congr fun notice _ => ?_
  rw [List.filterMap_map]
  exact filterMap_registered who notice a.listeners

/-- What was told of the tasks is still so while they are there. -/
theorem Faithful.keep {story : List Signal} (h : Faithful story a)
    (hkeeps : ∀ id ∈ a.tasks, id ∈ a'.tasks ∧ a'.nameOf id = a.nameOf id)
    {before after : List Signal} {task : TaskId} {name : String}
    {previous current : Status}
    (heq : story = before
      ++ .heard (.status task name previous current) :: after) :
    task ∈ a'.tasks ∧ name = a'.nameOf task ∧ previous = mirror before task
      ∧ current ≠ .fresh := by
  obtain ⟨hmem, hname, hrest⟩ :=
    h.updates before task name previous current after heq
  obtain ⟨hmem', hkept⟩ := hkeeps task hmem
  exact ⟨hmem', hname.trans hkept.symm, hrest⟩

/-- A story that is true stays so when what a call sends is added to it. -/
theorem Faithful.append {story : List Signal} {notices : List Notice}
    (h : Faithful story a) (hnext : Episode a a' notices) :
    Faithful (story ++ notices.map Signal.heard) a' where
  updates before task name previous current after heq := by
    -- The update lies in the story so far, or it is one of the new notices.
    rcases split_append heq with ⟨rest, hstory, -⟩ | ⟨rest, rfl, hnotices⟩
    · exact h.keep hnext.keeps hstory
    · obtain ⟨front, back, rfl, rfl, hback⟩ := List.map_eq_append_iff.1 hnotices
      obtain ⟨notice, last, rfl, hnotice, -⟩ := List.map_eq_cons_iff.1 hback
      obtain rfl := Signal.heard.inj hnotice
      obtain ⟨hmem, hname, hprevious, hcurrent⟩ :=
        hnext.updates front task name previous current last rfl
      obtain ⟨hmem', hkept⟩ := hnext.keeps task hmem
      refine ⟨hmem', hname.trans hkept.symm, ?_, hcurrent⟩
      -- What the listener has at that point is what the story has made of it,
      -- and after that the notices.
      rw [mirror, List.foldl_append, hprevious,
        ← h.agrees task (mem_tasks.1 hmem).1]
      rfl
  agrees id hid := by
    rw [mirror, List.foldl_append, hnext.agrees id hid, ← h.agrees id hid]
    rfl

/-- The tasks of a tree whose links stay. -/
theorem SameLinks.keeps_task (h : SameLinks a a') {id : TaskId}
    (hid : id ∈ a.tasks) :
    id ∈ a'.tasks ∧ a'.nameOf id = a.nameOf id := by
  obtain ⟨hne, hslot⟩ := mem_tasks.1 hid
  exact ⟨mem_tasks.2 ⟨hne, (h.isSome id).trans hslot⟩, h.nameOf id⟩

variable [Behavior E T]

/-- A story in which the tree was reset. -/
theorem Faithful.reset {story : List Signal} {fine : Bool}
    (h : Faithful story a) (hhistory : History fine a) :
    Faithful (story ++ [.reset]) a.reset where
  updates before task name previous current after heq := by
    rcases split_append heq with ⟨rest, hstory, -⟩ | ⟨rest, -, hreset⟩
    · exact h.keep (fun _ hid => (sameLinks_reset a).keeps_task hid) hstory
    · rcases rest with _ | ⟨first, _ | ⟨second, rest⟩⟩ <;> cases hreset
  agrees id hid := by
    rw [mirror, List.foldl_append, statusOf_reset hhistory hid]
    rfl

/-- A step sends its changes. The notices are the changes among the entries, so
an update comes from an entry that sets a status. -/
theorem step_episode {fine : Bool} (h : History fine a) {budget : Nat}
    {delta : Float32} {result : Except Fault Status}
    (hstep : Arena.step budget delta a = some (result, a')) :
    ∃ notices, Episode a a' notices := by
  obtain ⟨during, hchanges⟩ := step_changes h hstep
  have hlinks := (step_seated h.ready.rest hstep).links
  have hslots : ∀ id ∈ a.tasks, (a.slot? id).isSome = true :=
    fun id hid => (mem_tasks.1 hid).2
  refine ⟨during.filterMap Entry.change?,
    ⟨during, hchanges.entries, hchanges.told⟩, ?_, ?_, ?_⟩
  · intro before task name previous current after heq
    obtain ⟨front, back, rfl, rfl, hback⟩ := List.filterMap_eq_append_iff.1 heq
    obtain ⟨quiet, entry, last, rfl, hquiet, hentry, -⟩ :=
      List.filterMap_eq_cons_iff.1 hback
    have hset : entry = .statusSet task name previous current := by
      cases entry <;> cases hentry
      rfl
    subst hset
    have hmem : task ∈ a.tasks :=
      hchanges.within (.statusSet task name previous current)
        (List.mem_append_right _ (List.mem_append_right _ List.mem_cons_self))
    obtain ⟨hname, hprevious, hcurrent⟩ :=
      hchanges.candid (front ++ quiet) task name previous current
        last (List.append_assoc ..).symm (hslots task hmem)
    refine ⟨hmem, hname, ?_, hcurrent⟩
    rw [hprevious, ← foldl_shows_changes, List.filterMap_append,
      List.filterMap_eq_nil_iff.2 hquiet, List.append_nil]
  -- The status at the end is what the entries have made of it.
  · intro id hid
    rw [foldl_shows_changes]
    exact hchanges.stands id hid
  · exact fun _ hid => hlinks.keeps_task hid

omit [Behavior E T] in
/-- Who arrives is told of as a new task. -/
theorem arrival?_added {id : TaskId} {notice : Notice}
    (h : a.arrival? id = some notice) :
    ∃ parent index, notice = .added parent index := by
  rw [arrival?] at h
  split at h
  · exact ⟨_, _, (Option.some.inj h).symm⟩
  · obtain ⟨parent, -, heq⟩ := Option.map_eq_some_iff.1 h
    exact ⟨_, _, heq.symm⟩

/-- A tree in which something is planted keeps its tasks. -/
theorem Planted.keeps_task {link : Link} {b : Blueprint T}
    (h : Planted link b a a') {id : TaskId} (hid : id ∈ a.tasks) :
    id ∈ a'.tasks ∧ a'.nameOf id = a.nameOf id := by
  obtain ⟨hne, hslot⟩ := mem_tasks.1 hid
  obtain ⟨s, hs⟩ := Option.isSome_iff_exists.1 hslot
  have hold := h.old id (Array.getElem?_eq_some_iff.1 hs).1
  obtain ⟨guard, children, hmark⟩ := link.mark_eq a.nextId s
  rw [hs, Option.map_some, hmark] at hold
  rw [mem_tasks, nameOf, nameOf, hold, hs]
  split <;> exact ⟨⟨hne, rfl⟩, rfl⟩

/-- A call of construction sends the arrivals of its tasks, and changes no
status. -/
theorem perform_episode {fine : Bool} (h : History fine a)
    (call : Construction T) :
    ∃ notices, Episode a (call.perform a).2 notices := by
  rcases perform_cases h.ready h.joined call with ⟨-, fault, hperform⟩ |
      ⟨-, a', hperform, hplanted⟩
  -- A refused call leaves the arena as it is.
  · rw [hperform]
    exact ⟨[], .refl a⟩
  -- Otherwise tasks have been added. That announces them, and changes nobody's
  -- status.
  · have hstatus : ∀ id, a'.statusOf id = a.statusOf id := by
      intro id
      have hsame := statusOf_perform h call id
      rwa [hperform] at hsame
    obtain ⟨hsize, -, hentries⟩ := hplanted.announced
    obtain ⟨arrivals, harrivals⟩ : ∃ arrivals, arrivals
      = (handles a.slots.size call.blueprint.count).filterMap a'.arrival? :=
      ⟨_, rfl⟩
    rw [← harrivals] at hentries
    have hadded : ∀ notice ∈ arrivals,
        ∃ parent index, notice = .added parent index := by
      intro notice hnotice
      rw [harrivals] at hnotice
      obtain ⟨id, -, harrival⟩ := List.mem_filterMap.1 hnotice
      exact arrival?_added harrival
    rw [hperform]
    refine ⟨arrivals, ⟨_, hentries, ?_⟩, ?_, fun id _ => ?_,
      fun _ hid => hplanted.keeps_task hid⟩
    · rw [List.filterMap_flatMap]
      exact List.flatMap_congr fun notice _ => filterMap_told a.listeners notice
    -- No announcement is an update.
    · intro before task name previous current after heq
      obtain ⟨parent, index, hnotice⟩ :=
        hadded (.status task name previous current) <| by
          rw [heq]
          exact List.mem_append_right _ List.mem_cons_self
      cases hnotice
    -- And none changes what a listener has.
    · rw [hstatus]
      refine (foldl_eq_self (fun signal hsignal status => ?_) _).symm
      obtain ⟨notice, hnotice, rfl⟩ := List.mem_map.1 hsignal
      obtain ⟨parent, index, rfl⟩ := hadded notice hnotice
      rfl

-- ============================================================== whole runs

/-- The trees that have not been stepped since they were created. -/
inductive Unstepped : Arena E T → Prop where
  | empty (board : E) (dice : Nat → Nat) : Unstepped (Arena.empty board dice)
  | instantiate {fine : Bool} {a : Arena E T} (template : History fine a)
      (board : E) :
      Unstepped (a.instantiate board)
  | construct {a : Arena E T} (before : Unstepped a) (call : Construction T) :
      Unstepped (call.perform a).2
  | reset {a : Arena E T} (before : Unstepped a) : Unstepped a.reset
  | outside {a : Arena E T} (before : Unstepped a) (board : E)
      (listeners : List Listener) (journal : Array Entry) :
      Unstepped { a with board, listeners, journal }

/-- What listeners log who are registered `times` over whenever a call is
made. Those whom nobody watches are registered no times, and nothing is
asked of them. -/
inductive Watched (times : Listener → Nat) (a₀ : Arena E T) :
    (Listener → List Signal) → Arena E T → Prop where
  | start : Watched times a₀ (fun _ => []) a₀
  | construct {log : Listener → List Signal} {a : Arena E T}
      (before : Watched times a₀ log a)
      (registered : ∀ who, times who ≠ 0 → a.listeners.count who = times who)
      (call : Construction T) :
      Watched times a₀ (fun who => log who ++ received who a (call.perform a).2)
      (call.perform a).2
  | step {log : Listener → List Signal} {a a' : Arena E T} {budget : Nat}
      {delta : Float32} {result : Except Fault Status}
      (before : Watched times a₀ log a)
      (registered : ∀ who, times who ≠ 0 → a.listeners.count who = times who)
      (stepped : Arena.step budget delta a = some (result, a')) :
      Watched times a₀ (fun who => log who ++ received who a a') a'
  | reset {log : Listener → List Signal} {a : Arena E T}
      (before : Watched times a₀ log a) :
      Watched times a₀ (fun who => log who ++ [.reset]) a.reset
  | outside {log : Listener → List Signal} {a : Arena E T}
      (before : Watched times a₀ log a) (board : E) (listeners : List Listener)
      (journal : Array Entry) :
      Watched times a₀ log { a with board, listeners, journal }

/-- An arena that was never stepped has a history. -/
theorem Unstepped.history (h : Unstepped a) : History true a := by
  induction h with
  | empty board dice => exact .empty board dice
  | instantiate template board => exact template.instantiate board
  | construct _ call ih => exact ih.construct call
  | reset _ ih => exact ih.reset
  | outside _ board listeners journal ih =>
      exact ih.outside board listeners journal

/-- Before the first step all tasks are fresh. -/
theorem Unstepped.statusOf (h : Unstepped a) {id : TaskId}
    (hid : id ≠ .evaluator) :
    a.statusOf id = .fresh := by
  induction h with
  | empty board dice => rw [Arena.statusOf, slot?_empty, if_neg hid]; rfl
  | instantiate _ board => exact statusOf_instantiate _ board id
  | construct before call ih =>
      exact (statusOf_perform before.history call id).trans ih
  | reset before => exact statusOf_reset before.history hid
  | outside _ _ _ _ ih => exact ih

variable {times : Listener → Nat} {a₀ : Arena E T}
  {log : Listener → List Signal}

/-- What is watched has a history, if it began with one. -/
theorem Watched.history {fine : Bool} (h₀ : History fine a₀)
    (h : Watched times a₀ log a) :
    ∃ fine, History fine a := by
  induction h with
  | start => exact ⟨fine, h₀⟩
  | construct _ _ call ih => exact ih.imp fun _ h => h.construct call
  | step _ _ stepped ih => exact ⟨_, ih.choose_spec.step stepped⟩
  | reset _ ih => exact ⟨true, ih.choose_spec.reset⟩
  | outside _ board listeners journal ih =>
      exact ih.imp fun _ h => h.outside board listeners journal

omit [Behavior E T] in
/-- Who is registered throughout logs the notices of one more call. -/
theorem Episode.logged {story : List Signal} {notices : List Notice}
    (h : Episode a a' notices)
    (hlog : ∀ who, times who ≠ 0 →
      log who = story.flatMap (Signal.repeated (times who)))
    (hregistered : ∀ who, times who ≠ 0 → a.listeners.count who = times who)
    (who : Listener) (hwho : times who ≠ 0) :
    log who ++ Arena.received who a a'
      = (story ++ notices.map Signal.heard).flatMap
        (Signal.repeated (times who)) := by
  rw [List.flatMap_append, hlog who hwho, h.received, hregistered who hwho]

/-- All listeners are told one story, each as often as it is registered, and
if it begins before the first step, then it is true of the tree. -/
theorem Watched.one_story {fine : Bool} (h₀ : History fine a₀)
    (h : Watched times a₀ log a) :
    ∃ story,
      (∀ who, times who ≠ 0 →
        log who = story.flatMap (Signal.repeated (times who)))
      ∧ (Unstepped a₀ → Faithful story a) := by
  -- On what was watched. Each call adds one episode to the story, and everybody
  -- who listens hears it as often as registered.
  induction h with
  | start =>
      refine ⟨[], fun _ _ => rfl,
        fun hunstepped => ⟨fun before _ _ _ _ _ heq => ?_, fun id hid => ?_⟩⟩
      · cases before <;> cases heq
      · exact (hunstepped.statusOf hid).symm
  | construct before registered call ih =>
      obtain ⟨story, hlog, hfaithful⟩ := ih
      obtain ⟨fine, hhistory⟩ := before.history h₀
      obtain ⟨notices, hepisode⟩ := perform_episode hhistory call
      exact ⟨_, hepisode.logged hlog registered,
        fun h => (hfaithful h).append hepisode⟩
  | step before registered stepped ih =>
      obtain ⟨story, hlog, hfaithful⟩ := ih
      obtain ⟨fine, hhistory⟩ := before.history h₀
      obtain ⟨notices, hepisode⟩ := step_episode hhistory stepped
      exact ⟨_, hepisode.logged hlog registered,
        fun h => (hfaithful h).append hepisode⟩
  | reset before ih =>
      -- A reset is told to everybody, once for each listener.
      obtain ⟨story, hlog, hfaithful⟩ := ih
      obtain ⟨fine, hhistory⟩ := before.history h₀
      refine ⟨story ++ [.reset], fun who hwho => ?_,
        fun h => (hfaithful h).reset hhistory⟩
      rw [List.flatMap_append, ← hlog who hwho]
      rfl
  | outside _ board listeners journal ih =>
      obtain ⟨story, hlog, hfaithful⟩ := ih
      exact ⟨story, hlog,
        fun h => ⟨(hfaithful h).updates, (hfaithful h).agrees⟩⟩

open Bench in
/-- A tree without tasks that one listener hears and another one hears
twice. -/
def audible : Arena Store Common :=
  { Arena.empty (.ofCounters .empty) id with
    listeners := [.observer 1, .observer 2, .observer 2] }

/-- Who is registered how often. -/
def audience : Listener → Nat
  | .observer 1 => 1
  | .observer 2 => 2
  | _ => 0

open Bench in
/-- Its root is planted, with a child under a guard. -/
def sown : Arena Store Common :=
  ((Construction.setRoot (.node (.sequence 0) none
    [.node .success (some (.single .success)) []])).perform audible).2

open Bench in
/-- A child that has to run a child of its own, and has none. -/
def barren (a : Arena Store Common) : Arena Store Common :=
  ((Construction.attach ⟨1⟩ (.single .invert)).perform a).2

/-- A step is made, a child is added that makes every later step a fault, and
two more steps are made with a reset between them. -/
theorem one_story_audible :
    ∃ (a : Arena Bench.Store Bench.Common) (log : Listener → List Signal),
      History true audible ∧ Watched audience audible log a ∧ Unstepped audible
        ∧ (log (.observer 1)).length = 11 ∧ (log (.observer 2)).length = 21
        ∧ ∃ story, (∀ who, audience who ≠ 0 →
            log who = story.flatMap (Signal.repeated (audience who)))
          ∧ Faithful story a := by
  -- The whole script is evaluated once, and the numbers are read off it.
  have hscript :
      ((step 30 0 sown).bind fun r =>
        (step 30 0 (barren r.2)).bind fun r' =>
        (step 30 0 r'.2.reset).map fun r'' =>
        let log := fun who => received who audible sown ++ received who sown r.2
          ++ received who r.2 (barren r.2)
          ++ received who (barren r.2) r'.2 ++ [.reset]
          ++ received who r'.2.reset r''.2
        ([r.1.isOk, r'.1.isOk, r''.1.isOk],
          [r.2.listeners, (barren r.2).listeners, r'.2.reset.listeners],
          [(log (.observer 1)).length, (log (.observer 2)).length]))
      = some ([true, false, false],
          [audible.listeners, audible.listeners, audible.listeners],
          [11, 21]) := by
    decide +kernel
  obtain ⟨⟨result, a⟩, hfirst, hscript⟩ := Option.bind_eq_some_iff.1 hscript
  obtain ⟨⟨result', a'⟩, hsecond, hscript⟩ := Option.bind_eq_some_iff.1 hscript
  obtain ⟨⟨result'', a''⟩, hthird, hscript⟩ := Option.map_eq_some_iff.1 hscript
  simp only [Prod.mk.injEq, List.cons.injEq, and_true] at hscript
  obtain ⟨-, ⟨hlisteners, hlisteners', hlisteners''⟩, hlength, hlength'⟩ :=
    hscript
  have hcount : ∀ who, audience who ≠ 0 →
      audible.listeners.count who = audience who := by
    intro who hwho
    unfold audience at hwho ⊢
    split at hwho
    · rfl
    · rfl
    · exact absurd rfl hwho
  have hsown : sown.listeners = audible.listeners := rfl
  have hunstepped : Unstepped audible :=
    (Unstepped.empty (.ofCounters .empty) id).outside _ _ _
  -- What was watched is put together call by call.
  have hwatched :=
    (((((Watched.start.construct hcount _).step (hsown ▸ hcount)
        hfirst).construct
      (hlisteners ▸ hcount) _).step (hlisteners' ▸ hcount) hsecond).reset).step
      (hlisteners'' ▸ hcount)
        hthird
  obtain ⟨story, hlog, hfaithful⟩ := hwatched.one_story hunstepped.history
  exact ⟨a'', _, hunstepped.history, hwatched, hunstepped, hlength, hlength',
    story, hlog, hfaithful hunstepped⟩

end Arena

end TaskTree
