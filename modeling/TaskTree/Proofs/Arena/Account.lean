/-
The journal is a faithful account of a step.

What others learn of a step they learn from its journal, and statements
about what happened in a step are made about it. So it has to be shown that
the journal tells the truth: that the turns and hooks which are open in it
are the ones going on, that the statuses of the tasks and of the tree are
those that the journal says were set last, that it says of every change what
the status was before (`Candid`), and that its first fault is the fault of
the arena. `Course.accounted` says all this of every course.

It also says how a course behaves from its first fault on: all that it
still writes is that hooks and turns come to their end, and further faults.
-/
import TaskTree.Proofs.Arena.Course

namespace TaskTree

-- ==================================================== what is still open

/-- Something that begins and ends. -/
inductive Mark where
  | turn (id : TaskId)
  | hook (id : TaskId)
  deriving DecidableEq

/-- What is open after one more entry, the innermost first. -/
def Entry.opens (open_ : List Mark) : Entry → List Mark
  | .turnBegan id => .turn id :: open_
  | .turnEnded id => open_.erase (.turn id)
  | .called id _ => .hook id :: open_
  | .returned id => open_.erase (.hook id)
  | _ => open_

/-- The turns and hooks that are open at the end of a journal. -/
def ongoing (entries : List Entry) : List Mark := entries.foldl Entry.opens []

-- ============================================================== statuses

/-- Where a task stands after one more entry. -/
def Entry.stands (id : TaskId) (status : Status) : Entry → Status
  | .statusSet task _ _ current => if task = id then current else status
  | _ => status

/-- Where the tree stands after one more entry. -/
def Entry.settles (status : Status) : Entry → Status
  | .settled _ current => current
  | _ => status

-- ================================================================ faults

/-- Whether an entry neither says where somebody stands nor is a fault. -/
def Entry.isQuiet : Entry → Bool
  | .statusSet _ _ _ _ | .settled _ _ | .raised _ => false
  | _ => true

/-- An entry that is not about a status leaves every status as it stands. -/
theorem Entry.stands_of_isQuiet (entry : Entry) (h : entry.isQuiet = true)
    {id : TaskId} {status : Status} : entry.stands id status = status := by
  cases entry <;> first | rfl | cases h

/-- Nor does it settle the tree. -/
theorem Entry.settles_of_isQuiet (entry : Entry) (h : entry.isQuiet = true)
    {status : Status} :
    entry.settles status = status := by
  cases entry <;> first | rfl | cases h

/-- Whether an entry only closes what was open, or is one more fault. -/
def Entry.unwinds : Entry → Bool
  | .raised _ | .returned _ | .turnEnded _ | .stepAborted _ => true
  | _ => false

/-- What an entry closes. -/
def Entry.closes? : Entry → Option Mark
  | .turnEnded id => some (.turn id)
  | .returned id => some (.hook id)
  | _ => none

/-- What the entries `news` make of a pending fault. Once there is a fault
they close what is open then, the innermost first, and do nothing else. -/
inductive Faulting :
    List Mark → Option Fault → List Entry → Option Fault →
      List Mark → Prop where
  /-- Nobody is at fault before or afterwards. -/
  | fine {open₀ open₁ : List Mark} {news : List Entry}
      (hnews : ∀ fault, Entry.raised fault ∉ news)
      (hopen : news.foldl Entry.opens open₀ = open₁) :
      Faulting open₀ none news none open₁
  /-- The first fault of the entries is the one that stays. -/
  | found {open₀ open₁ : List Mark} {before after : List Entry} {fault : Fault}
      (hbefore : ∀ fault, Entry.raised fault ∉ before)
      (hafter : ∀ entry ∈ after, entry.unwinds = true)
      (hopen : before.foldl Entry.opens open₀
        = after.filterMap Entry.closes? ++ open₁) :
      Faulting open₀ none (before ++ .raised fault :: after) (some fault) open₁
  /-- A fault is pending, and all that happens is that the open parts end. -/
  | pending {open₀ open₁ : List Mark} {news : List Entry} {fault : Fault}
      (hnews : ∀ entry ∈ news, entry.unwinds = true)
      (hopen : open₀ = news.filterMap Entry.closes? ++ open₁) :
      Faulting open₀ (some fault) news (some fault) open₁

/-- The entries in which a fault is found. -/
theorem Faulting.split {open₀ open₁ : List Mark} {news : List Entry}
    {fault : Fault} (h : Faulting open₀ none news (some fault) open₁) :
    ∃ before after, news = before ++ .raised fault :: after
      ∧ (∀ other, Entry.raised other ∉ before)
      ∧ (∀ entry ∈ after, entry.unwinds = true)
      ∧ before.foldl Entry.opens open₀
        = after.filterMap Entry.closes? ++ open₁ := by
  cases h with
  | found hbefore hafter hopen => exact ⟨_, _, rfl, hbefore, hafter, hopen⟩

/-- Two stretches follow each other; a fault of the first is pending in the
second. -/
theorem Faulting.append {open₀ open₁ open₂ : List Mark} {p q r : Option Fault}
    {news later : List Entry} (h : Faulting open₀ p news q open₁)
    (h' : Faulting open₁ q later r open₂) :
    Faulting open₀ p (news ++ later) r open₂ := by
  cases h with
  | fine hnews hopen =>
      cases h' with
      | fine hlater hopen' =>
          refine .fine (fun fault hmem =>
              (List.mem_append.1 hmem).elim (hnews fault) (hlater fault))
            ?_
          rw [List.foldl_append, hopen, hopen']
      | found hbefore hafter hopen' =>
          rw [← List.append_assoc]
          refine .found
            (fun fault hmem =>
              (List.mem_append.1 hmem).elim (hnews fault) (hbefore fault))
              hafter ?_
          rw [List.foldl_append, hopen, hopen']
  -- Behind the first fault only unwinding can follow, so the second stretch is
  -- one of those.
  | found hbefore hafter hopen =>
      cases h' with
      | pending hlater hopen' =>
          rw [List.append_assoc, List.cons_append]
          refine .found hbefore
            (fun e he => (List.mem_append.1 he).elim (hafter e) (hlater e)) ?_
          rw [List.filterMap_append, List.append_assoc, ← hopen', hopen]
  | pending hnews hopen =>
      cases h' with
      | pending hlater hopen' =>
          refine .pending (fun e he =>
              (List.mem_append.1 he).elim (hnews e) (hlater e)) ?_
          rw [List.filterMap_append, List.append_assoc, ← hopen', hopen]

/-- Where an entry stands in a row that is put together from two. -/
theorem split_append {α : Type} {front back before after : List α} {x : α}
    (h : front ++ back = before ++ x :: after) :
    (∃ rest, front = before ++ x :: rest ∧ after = rest ++ back)
      ∨ ∃ rest, before = front ++ rest ∧ back = rest ++ x :: after := by
  rcases List.append_eq_append_iff.1 h with ⟨rest, hbefore, hback⟩ |
      ⟨rest, hfront, hafter⟩
  · exact .inr ⟨rest, hbefore, hback⟩
  · cases rest with
    | nil =>
        rw [List.append_nil] at hfront
        exact .inr ⟨[], by rw [hfront, List.append_nil], hafter.symm⟩
    | cons y rest =>
        obtain ⟨rfl, hrest⟩ := List.cons.inj hafter
        exact .inl ⟨rest, hfront, hrest⟩

namespace Arena

variable {E T : Type}

-- =========================================================== the entries

/-- The journal, oldest entry first. -/
def entries (a : Arena E T) : List Entry := a.journal.toList

/-- Logging an entry puts it at the end. -/
theorem entries_log (a : Arena E T) (entry : Entry) :
    (a.log entry).entries = a.entries ++ [entry] :=
  Array.toList_push

/-- The entries with which a task reports. -/
def tidings (a : Arena E T) (id : TaskId) (outcome : Outcome) : List Entry :=
  .reported id outcome
    :: .statusSet id (a.nameOf id) (a.statusOf id) outcome.status
    :: a.listeners.map fun who =>
      .told who (.status id (a.nameOf id) (a.statusOf id) outcome.status)

/-- A step starts with its own entry. -/
theorem entries_begun (a : Arena E T) (root : TaskId) (delta : Float32) :
    (a.begun root delta).entries = a.entries ++ [.stepBegan root delta] :=
  entries_log ..

/-- Speaking writes the tidings and nothing else. -/
theorem entries_spoken (a : Arena E T) (id : TaskId) (outcome : Outcome) :
    (a.spoken id outcome).entries = a.entries ++ a.tidings id outcome := by
  have hname :=
    (keeps_countReport a id outcome (p := Slot.name) fun _ _ => rfl).nameOf id
  have hstatus :=
    (keeps_countReport a id outcome (p := Slot.status) fun _ _ => rfl).statusOf
      id
  have hlogged : (a.countReport id outcome).journal
      = a.journal.push (.reported id outcome) := rfl
  rw [entries, spoken, setStatus, hname, hstatus]
  dsimp only [announce, log, Arena.modify]
  rw [hlogged, Array.toList_appendList, Array.toList_push, Array.toList_push,
    List.append_assoc, List.append_assoc]
  rfl

/-- What leaves something alone, one after another, leaves it alone. -/
theorem foldl_eq_self {α β : Type} {f : β → α → β} {xs : List α}
    (h : ∀ x ∈ xs, ∀ b, f b x = b) (b : β) : xs.foldl f b = b := by
  induction xs with
  | nil => rfl
  | cons x rest ih =>
      rw [List.foldl_cons, h x List.mem_cons_self,
        ih fun y hy => h y (List.mem_cons_of_mem _ hy)]

section

variable {β : Type} {f : β → Entry → β}

/-- Telling the listeners is nothing to those who do not look at it. -/
theorem foldl_told (hf : ∀ b who notice, f b (.told who notice) = b)
    (listeners : List Listener) (notice : Notice) (b : β) :
    (listeners.map fun who => Entry.told who notice).foldl f b = b := by
  refine foldl_eq_self (fun entry hentry b => ?_) b
  obtain ⟨who, -, rfl⟩ := List.mem_map.1 hentry
  exact hf b who notice

/-- A fold that passes over what listeners are told sees two of the tidings, the
report and the new status. -/
theorem foldl_tidings (hf : ∀ b who notice, f b (.told who notice) = b)
    (a : Arena E T) (id : TaskId) (outcome : Outcome) (b : β) :
    (a.tidings id outcome).foldl f b
      = f (f b (.reported id outcome))
          (.statusSet id (a.nameOf id) (a.statusOf id) outcome.status) := by
  rw [tidings, List.foldl_cons, List.foldl_cons, foldl_told hf]

end

/-- Nobody is at fault for speaking. -/
theorem not_raised_mem_tidings (a : Arena E T) (id : TaskId) (outcome : Outcome)
    (fault : Fault) :
    Entry.raised fault ∉ a.tidings id outcome := by
  intro hmem
  simp [tidings] at hmem

/-- Where the tasks stand after a report. -/
theorem statusOf_spoken {a : Arena E T} {x : TaskId}
    (hx : (a.slot? x).isSome = true) (id : TaskId) (outcome : Outcome) :
    (a.spoken id outcome).statusOf x
      = if id = x then outcome.status else a.statusOf x := by
  obtain ⟨s, hs⟩ := Option.isSome_iff_exists.1 hx
  rw [statusOf, slot?_spoken]
  by_cases heq : id = x
  · subst heq
    rw [if_pos rfl, if_pos rfl, hs]
    rfl
  · rw [if_neg fun h => heq h.symm, if_neg heq]
    rfl

-- =========================================================== the changes

/-- Where an entry of `news` says that a status is set, it says whose it is,
from what and to what, as it was at that moment. -/
def Candid (a : Arena E T) (news : List Entry) : Prop :=
  ∀ before task name previous current after,
    news = before ++ .statusSet task name previous current :: after →
      (a.slot? task).isSome = true →
      name = a.nameOf task
        ∧ previous = before.foldl (Entry.stands task) (a.statusOf task)
        ∧ current ≠ .fresh

/-- Where no status is set there is nothing to be candid about. -/
theorem candid_of_unset (a : Arena E T) {news : List Entry}
    (h : ∀ task name previous current,
      .statusSet task name previous current ∉ news) :
    Candid a news := by
  intro before task name previous current after heq
  refine absurd ?_ (h task name previous current)
  rw [heq]
  exact List.mem_append_right _ List.mem_cons_self

/-- No entries are candid. -/
theorem candid_nil (a : Arena E T) : Candid a [] :=
  candid_of_unset a fun _ _ _ _ => List.not_mem_nil

/-- Two candid stretches are candid together, when the statuses that the first
one leaves are those its entries tell of. -/
theorem Candid.append {a a₁ : Arena E T} {news later : List Entry}
    (h : Candid a news) (h' : Candid a₁ later) (hlinks : SameLinks a a₁)
    (hstands : ∀ id, (a.slot? id).isSome = true →
      a₁.statusOf id = news.foldl (Entry.stands id) (a.statusOf id)) :
    Candid a (news ++ later) := by
  intro before task name previous current after heq htask
  rcases split_append heq with ⟨rest, hnews, -⟩ | ⟨rest, rfl, hlater⟩
  · exact h before task name previous current rest hnews htask
  · rw [List.foldl_append, ← hstands task htask, ← hlinks.nameOf]
    exact h' rest task name previous current after hlater
      ((hlinks.isSome task).trans htask)

/-- The tidings are candid: the one change among them names the status of
before. The change is the second of the tidings, so nothing but one entry stands
before it. -/
theorem candid_tidings (a : Arena E T) (id : TaskId) (outcome : Outcome) :
    Candid a (a.tidings id outcome) := by
  intro before task name previous current after heq _
  rcases before with _ | ⟨first, _ | ⟨second, rest⟩⟩
  · cases heq
  · cases heq
    exact ⟨rfl, rfl, outcome.status_ne_fresh⟩
  · -- what follows the change of the status is told
    have hrest : .statusSet task name previous current
        ∈ a.listeners.map fun who =>
          Entry.told who
            (.status id (a.nameOf id) (a.statusOf id) outcome.status) := by
      rw [tidings, List.cons_append, List.cons_append, List.cons.injEq,
        List.cons.injEq] at heq
      rw [heq.2.2]
      exact List.mem_append_right _ List.mem_cons_self
    obtain ⟨who, -, htold⟩ := List.mem_map.1 hrest
    cases htold

-- =========================================================== the account

/-- The turns and hooks among what is going on. -/
def marks : List (Activity T) → List Mark
  | [] => []
  | .turn id :: going => .turn id :: marks going
  | .hook id _ :: going => .hook id :: marks going
  | .between _ _ :: going => marks going

/-- The entries `news` account for all that leads from one scene to the
other. -/
structure Accounted (s s' : Scene E T) (news : List Entry) : Prop where
  entries : s'.arena.entries = s.arena.entries ++ news
  ongoing : news.foldl Entry.opens (marks s.going) = marks s'.going
  stands : ∀ id, (s.arena.slot? id).isSome = true →
    s'.arena.statusOf id = news.foldl (Entry.stands id) (s.arena.statusOf id)
  changes : Candid s.arena news
  settled : s'.arena.status = news.foldl Entry.settles s.arena.status
  fault : Faulting (marks s.going) s.arena.fault news s'.arena.fault
    (marks s'.going)

/-- What leads nowhere needs no account. -/
theorem Accounted.refl (s : Scene E T) : Accounted s s [] := by
  refine ⟨(List.append_nil _).symm, rfl, fun _ _ => rfl, candid_nil _, rfl, ?_⟩
  cases s.arena.fault with
  | none => exact .fine (fun fault hmem => nomatch hmem) rfl
  | some fault => exact .pending (fun entry hmem => nomatch hmem) rfl

/-- Two accounted stretches are one. -/
theorem Accounted.trans {s s₁ s' : Scene E T} {news later : List Entry}
    (h : Accounted s s₁ news) (h' : Accounted s₁ s' later)
    (hlinks : SameLinks s.arena s₁.arena) :
    Accounted s s' (news ++ later) where
  entries := by rw [h'.entries, h.entries, List.append_assoc]
  ongoing := by rw [List.foldl_append, h.ongoing, h'.ongoing]
  stands id hid := by
    rw [List.foldl_append, ← h.stands id hid]
    exact h'.stands id ((hlinks.isSome id).trans hid)
  changes := h.changes.append h'.changes hlinks h.stands
  settled := by rw [List.foldl_append, ← h.settled, h'.settled]
  fault := h.fault.append h'.fault

section

variable {going going' : List (Activity T)} {a a' : Arena E T}

/-- What leaves no entry. -/
theorem accounted_silent (hentries : a'.entries = a.entries)
    (hmarks : marks going = marks going') (hkeeps : Keeps Slot.status a a')
    (hstatus : a'.status = a.status) (hfault : a'.fault = a.fault) :
    Accounted ⟨going, a⟩ ⟨going', a'⟩ [] := by
  have hrefl := Accounted.refl (⟨going, a⟩ : Scene E T)
  refine ⟨?_, hmarks, fun id _ => hkeeps.statusOf id, hrefl.changes, hstatus,
    ?_⟩
  · rw [hentries]
    exact hrefl.entries
  · rw [hfault, ← hmarks]
    exact hrefl.fault

/-- What leaves one entry, on which nothing depends but what is open. -/
theorem accounted_entry {entry : Entry} (hquiet : entry.isQuiet = true)
    (hentries : a'.entries = a.entries ++ [entry])
    (hmarks : entry.opens (marks going) = marks going')
    (hkeeps : Keeps Slot.status a a') (hstatus : a'.status = a.status)
    (hfault : a'.fault = a.fault) (htime : a.fault = none
      ∨ entry.unwinds = true
      ∧ marks going = entry.closes?.toList ++ marks going') :
    Accounted ⟨going, a⟩ ⟨going', a'⟩ [entry] where
  entries := hentries
  ongoing := hmarks
  stands id _ :=
    (hkeeps.statusOf id).trans (entry.stands_of_isQuiet hquiet).symm
  changes := by
    refine candid_of_unset a fun task name previous current hmem => ?_
    cases List.mem_singleton.1 hmem
    cases hquiet
  settled := hstatus.trans (entry.settles_of_isQuiet hquiet).symm
  fault := by
    dsimp only
    rw [hfault]
    -- Without a pending fault the entry is none either; with one, the entry has
    -- to be part of the unwinding.
    cases hpending : a.fault with
    | none =>
        exact .fine
          (fun fault hmem => by cases List.mem_singleton.1 hmem; cases hquiet)
          hmarks
    | some fault =>
        obtain ⟨hunwinds, hcloses⟩ :=
          htime.resolve_left fun hnone => nomatch hnone.symm.trans hpending
        refine .pending (fun e he => ?_) ?_
        · rw [List.mem_singleton.1 he]
          exact hunwinds
        · rw [hcloses]
          cases hclosed : entry.closes? with
          | none => rw [List.filterMap_cons_none hclosed]; rfl
          | some mark => rw [List.filterMap_cons_some hclosed]; rfl

/-- A fault that is raised is accounted for: the first one is kept. -/
theorem accounted_raise (going : List (Activity T)) (a : Arena E T)
    (fault : Fault) :
    Accounted ⟨going, a⟩ ⟨going, a.raise fault⟩ [.raised fault] where
  entries := entries_log a _
  ongoing := rfl
  stands _ _ := rfl
  changes :=
    candid_of_unset a fun _ _ _ _ hmem => nomatch List.mem_singleton.1 hmem
  settled := rfl
  fault := by
    dsimp only [raise]
    cases a.fault with
    | none =>
        exact @Faulting.found _ _ [] [] fault (fun _ hmem => nomatch hmem)
          (fun _ hmem => nomatch hmem)
          rfl
    | some first =>
        refine .pending (fun e he => ?_) rfl
        rw [List.mem_singleton.1 he]
        rfl

/-- A task that speaks is accounted for by its tidings. -/
theorem accounted_spoken (going : List (Activity T)) (hfault : a.fault = none)
    (id : TaskId) (outcome : Outcome) :
    Accounted ⟨going, a⟩ ⟨going, a.spoken id outcome⟩
      (a.tidings id outcome) where
  entries := entries_spoken a id outcome
  ongoing := foldl_tidings (fun _ _ _ => rfl) a id outcome _
  stands x hx := (statusOf_spoken hx id outcome).trans
    (foldl_tidings (f := Entry.stands x) (fun _ _ _ => rfl) a id outcome
      (a.statusOf x)).symm
  changes := candid_tidings a id outcome
  settled :=
    (foldl_tidings (f := Entry.settles) (fun _ _ _ => rfl) a id outcome
        a.status).symm
  fault := by
    have hfault' : (a.spoken id outcome).fault = none := hfault
    dsimp only
    rw [hfault, hfault']
    exact .fine (not_raised_mem_tidings a id outcome)
      (foldl_tidings (fun _ _ _ => rfl) a id outcome _)

/-- The settling of the tree is accounted for by its entry. -/
theorem accounted_settle (going : List (Activity T)) (hfault : a.fault = none)
    (outcome : Outcome) :
    Accounted ⟨going, a⟩ ⟨going, a.settle outcome⟩
      [.settled a.status outcome.status] where
  entries := entries_log a _
  ongoing := rfl
  stands _ _ := rfl
  changes :=
    candid_of_unset a fun _ _ _ _ hmem => nomatch List.mem_singleton.1 hmem
  settled := rfl
  fault := by
    have hfault' : (a.settle outcome).fault = none := hfault
    dsimp only
    rw [hfault, hfault']
    exact .fine (fun fault hmem => nomatch List.mem_singleton.1 hmem) rfl

end

variable [Behavior E T]

/-- The journal accounts for every move. One case per move. Each entry but a
fault and the tidings is quiet, and a move changes what its entries tell of. -/
theorem Move.accounted {s s' : Scene E T} (h : Move s s') :
    ∃ news, Accounted s s' news := by
  cases h with
  | enter hfault =>
      exact ⟨_, accounted_entry rfl (entries_log ..) rfl
          ((keeps_beginTurn _ _ fun _ _ => rfl).trans
        (keeps_setControl _ _ _ fun _ _ => rfl)) rfl rfl (.inl hfault)⟩
  | resume hfault =>
      exact ⟨_, accounted_entry rfl (entries_log ..) rfl
          (keeps_beginTurn _ _ fun _ _ => rfl) rfl rfl
        (.inl hfault)⟩
  | leave =>
      exact ⟨_, accounted_entry rfl (entries_log ..) (List.erase_cons_head _ _)
          (.refl _) rfl rfl
        (.inr ⟨rfl, rfl⟩)⟩
  | call hfault =>
      exact ⟨_, accounted_entry rfl (entries_log ..) rfl
          (keeps_vacate _ _ fun _ _ => rfl) rfl rfl
        (.inl hfault)⟩
  | respond hfault =>
      exact ⟨_, accounted_entry rfl (entries_log ..) rfl
          (keeps_taken _ _ fun _ _ => rfl) rfl rfl
        (.inl hfault)⟩
  | «return» =>
      exact ⟨_, accounted_entry rfl (entries_log ..) (List.erase_cons_head _ _)
          (.refl _) rfl rfl
        (.inr ⟨rfl, rfl⟩)⟩
  | rest =>
      exact ⟨[],
        accounted_silent rfl rfl (keeps_rest _ _ _ fun _ _ _ => rfl) rfl rfl⟩
  | unheard hfault => exact ⟨_, accounted_spoken _ hfault _ _⟩
  -- The last report settles the tree as well.
  | @settle going a id outcome hfault =>
      have hfault' : (a.spoken id outcome).fault = none := hfault
      exact ⟨_, (accounted_spoken going hfault id outcome).trans
        (accounted_settle going hfault' outcome)
        (sameLinks_spoken a id outcome)⟩
  | @post going a id controller outcome hfault =>
      have hposted : Accounted ⟨going, a.spoken id outcome⟩
          ⟨going, (a.spoken id outcome).post controller id outcome⟩ [] :=
        accounted_silent rfl rfl (keeps_post _ _ _ _ fun _ _ => rfl) rfl rfl
      exact ⟨_, (accounted_spoken going hfault id outcome).trans hposted
        (sameLinks_spoken a id outcome)⟩
  | @hand going a id controller outcome occupant hfault =>
      have hhanded : Accounted ⟨going, a.spoken id outcome⟩
          ⟨.between controller occupant :: going,
            ((a.spoken id outcome).post controller id outcome).vacate
              controller⟩ [] :=
        accounted_silent rfl rfl
          ((keeps_post _ _ _ _ fun _ _ => rfl).trans
            (keeps_vacate _ _ fun _ _ => rfl)) rfl rfl
      exact ⟨_, (accounted_spoken going hfault id outcome).trans hhanded
        (sameLinks_spoken a id outcome)⟩
  -- A second report is counted, and the fault follows at once.
  | @again going a id outcome hfault =>
      have hcounted : Accounted ⟨going, a⟩ ⟨going, a.countReport id outcome⟩
          [.reported id outcome] :=
        accounted_entry rfl (entries_log ..) rfl
          (keeps_countReport _ _ _ fun _ _ => rfl) rfl rfl (.inl hfault)
      exact ⟨_, hcounted.trans (accounted_raise _ _ _)
        ⟨rfl, keeps_countReport _ _ _ fun _ _ => rfl⟩⟩
  | breach => exact ⟨_, accounted_raise _ _ _⟩
  | write | roll => exact ⟨[], accounted_silent rfl rfl (.refl _) rfl rfl⟩

/-- The journal accounts for every course. -/
theorem Course.accounted {s s' : Scene E T} (h : Course s s') :
    ∃ news, Accounted s s' news := by
  induction h with
  | refl => exact ⟨[], .refl s⟩
  | tail hcourse hmove ih =>
      obtain ⟨news, hnews⟩ := ih
      obtain ⟨later, hlater⟩ := hmove.accounted
      exact ⟨news ++ later, hnews.trans hlater (Course.sameLinks hcourse)⟩

end Arena

end TaskTree
