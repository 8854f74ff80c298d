/-
A task reports exactly once in every turn.

Whoever is driven has its turn, from the entry that begins it in the
journal to the entry that ends it, and what is between these two is all
that happens meanwhile: the task's guard is asked, its hooks are called,
and its children have turns of their own. Links go to later slots, so none
of that is about the task itself but its own calls and reports, and the
turn can be judged by its entries alone (`Heeds`).

Turns are nested. So the journal is judged turn by turn, with one law for
rows of entries that every part of a run keeps (`Fair`), and what it means
for the result of a step is read off at the end.
-/
import TaskTree.Proofs.Arena.Tally

namespace TaskTree

/-- Whose turn an entry begins or ends. -/
def Entry.turn? : Entry → Option TaskId
  | .turnBegan id | .turnEnded id => some id
  | _ => none

/-- Whose hook an entry begins or ends. -/
def Entry.hook? : Entry → Option TaskId
  | .called id _ | .returned id => some id
  | _ => none

namespace Arena

variable {E T : Type}

-- =========================================== whom the entries are about

/-- The entries are about turns of the tasks from slot `turns` on and hooks
of the tasks from slot `hooks` on, apart from those of the guard evaluator. -/
def Above (turns hooks : Nat) (news : List Entry) : Prop :=
  ∀ entry ∈ news, (∀ x, entry.turn? = some x → turns ≤ x.index)
    ∧ ∀ x, entry.hook? = some x → x = .evaluator ∨ hooks ≤ x.index

section

variable {turns hooks turns' hooks' : Nat} {news later : List Entry}

/-- No entries lie above anything. -/
theorem above_nil : Above turns hooks [] := fun _ h => nomatch h

/-- Two stretches above the bounds lie above them together. -/
theorem Above.append (h : Above turns hooks news)
    (h' : Above turns hooks later) :
    Above turns hooks (news ++ later) :=
  fun entry hentry => (List.mem_append.1 hentry).elim (h entry) (h' entry)

/-- What lies above a bound lies above a lower one. -/
theorem Above.mono (h : Above turns hooks news) (hturns : turns' ≤ turns)
    (hhooks : hooks' ≤ hooks) :
    Above turns' hooks' news := fun entry hentry =>
  ⟨fun x hx => Nat.le_trans hturns ((h entry hentry).1 x hx),
    fun x hx => ((h entry hentry).2 x hx).imp_right (Nat.le_trans hhooks)⟩

/-- An entry about neither a turn nor a hook. -/
theorem Above.cons (h : Above turns hooks news) {entry : Entry}
    (hturn : entry.turn? = none) (hhook : entry.hook? = none) :
    Above turns hooks (entry :: news) := by
  refine List.forall_mem_cons.2 ⟨?_, h⟩
  rw [hturn, hhook]
  exact ⟨fun _ hx => (nomatch hx), fun _ hx => nomatch hx⟩

/-- A turn of a task above the bound may stand in front. -/
theorem Above.turn (h : Above turns hooks news) {entry : Entry} {id : TaskId}
    (hturn : entry.turn? = some id) (hhook : entry.hook? = none)
    (hid : turns ≤ id.index) :
    Above turns hooks (entry :: news) := by
  refine List.forall_mem_cons.2 ⟨?_, h⟩
  rw [hturn, hhook]
  exact ⟨fun x hx => (Option.some.inj hx : id = x) ▸ hid,
    fun _ hx => nomatch hx⟩

/-- A hook of a task above the bound may stand in front. -/
theorem Above.hook (h : Above turns hooks news) {entry : Entry} {id : TaskId}
    (hturn : entry.turn? = none) (hhook : entry.hook? = some id)
    (hid : id = .evaluator ∨ hooks ≤ id.index) :
    Above turns hooks (entry :: news) := by
  refine List.forall_mem_cons.2 ⟨?_, h⟩
  rw [hturn, hhook]
  exact ⟨fun _ hx => (nomatch hx),
    fun x hx => (Option.some.inj hx : id = x) ▸ hid⟩

end

/-- Which tasks the entries of a job are about. -/
def Job.Within : Job E T → List Entry → Prop
  | .drive id _, news => Above id.index id.index news
  | .consult id _, news => Above (id.index + 1) (id.index + 1) news
  | .turn id _, news | .update id, news | .attend id _, news
  | .answer id _, news
  | .perform id _ _, news => Above (id.index + 1) id.index news

variable {a₀ a a₁ a' : Arena E T} {news later : List Entry} {id : TaskId}

/-- A report is neither a turn nor a hook, and only the guard evaluator's
hooks are run for it. -/
theorem Tells.above {outcome : Outcome} (h : Tells a₀ a id outcome news a')
    (turns hooks : Nat) :
    Above turns hooks news := by
  intro entry hentry
  cases h.ofReport entry hentry with
  | aside haside =>
      cases haside with
      | settled => exact ⟨fun _ hx => (nomatch hx), fun _ hx => nomatch hx⟩
      | called | returned =>
          exact ⟨fun _ hx => (nomatch hx),
            fun x hx => .inl (Option.some.inj hx).symm⟩
  | reported | second | set | told =>
      exact ⟨fun _ hx => (nomatch hx), fun _ hx => nomatch hx⟩

/-- To tell a report ends no hook, except perhaps one of the evaluator. -/
theorem Tells.not_returned {outcome : Outcome}
    (h : Tells a₀ a id outcome news a') (hid : id ≠ .evaluator) :
    .returned id ∉ news := by
  intro hmem
  have hle := ((h.above 0 (id.index + 1)) _ hmem).2 id rfl
  exact Nat.lt_irrefl _ (hle.resolve_left hid)

/-- A task that told its outcome has reported, unless somebody is at fault. -/
theorem Tells.reports {outcome : Outcome} (h : Tells a₀ a id outcome news a')
    (hfault : a'.fault = none) : a'.reportsOf id ≠ 0 := by
  cases h with
  | unheard hpending => exact absurd hfault hpending
  | first _ _ _ _ _ _ hreports =>
      rw [hreports, if_pos rfl]
      exact Nat.one_ne_zero
  | again hnone =>
      have hraised :
          ((a.countReport id outcome).raise
            (.secondReport id (a₀.nameOf id))).fault
          = a.fault.or (some (.secondReport id (a₀.nameOf id))) := rfl
      rw [hraised, hnone] at hfault
      cases hfault

variable [Behavior E T]

/-- Links go to later slots, and so does whatever a task runs. By induction over
the run. The tasks of a turn are those below it in the tree, and the ranking
puts these above it. -/
theorem Run.within (hranked : Ranked a₀) {job : Job E T}
    (h : Run a₀ job a news a') :
    job.Within news := by
  induction h with
  | idle | skipped | rested | done | unguarded => exact above_nil
  | turned _ _ _ _ ih =>
      have hnews := ih.mono (Nat.le_succ _) (Nat.le_refl _)
      exact (hnews.append (above_nil.turn rfl rfl (Nat.le_refl _))).turn rfl rfl
        (Nat.le_refl _)
  | resumed _ _ ih | updated _ _ ih => exact ih
  | admitted _ _ _ _ _ hasked hstart hupdate =>
      exact (hasked.mono (Nat.le_refl _) (Nat.le_succ _)).append
        (hstart.append hupdate)
  | refused _ _ htells hasked =>
      exact (hasked.mono (Nat.le_refl _) (Nat.le_succ _)).append
        (htells.above _ _)
  | tried _ _ _ hstart hupdate => exact hstart.append hupdate
  | silent _ _ ih => exact ih.append (above_nil.cons rfl rfl)
  | overruled hguard _ ih =>
      have hlt := hranked.guard _ _ hguard
      exact ih.mono (Nat.le_succ_of_le hlt) (Nat.le_succ_of_le hlt)
  | asked hguard _ _ _ hasked hturn =>
      have hlt := hranked.guard _ _ hguard
      exact (hasked.mono (Nat.le_succ_of_le hlt) (Nat.le_succ_of_le hlt)).append
        (hturn.mono hlt hlt)
  | unsettled hguard _ _ hasked hturn =>
      have hlt := hranked.guard _ _ hguard
      exact (hasked.mono (Nat.le_succ_of_le hlt) (Nat.le_succ_of_le hlt)).append
        ((hturn.mono hlt hlt).append (above_nil.cons rfl rfl))
  | called _ _ _ _ hhook hanswer | answered _ _ _ _ hhook hanswer =>
      exact (hhook.append (hanswer.hook rfl rfl (.inr (Nat.le_refl _)))).hook
        rfl rfl (.inr (Nat.le_refl _))
  | told htells _ ih => exact (htells.above _ _).append ih
  -- The children of a task have greater ids than it has.
  | drove hchild _ _ hdrive hnext =>
      have hlt := hranked.child _ _ (List.mem_of_getElem? hchild)
      exact (hdrive.mono hlt (Nat.le_of_lt hlt)).append hnext
  | missed _ ih => exact ih.cons rfl rfl
  | looked _ _ ih | wrote _ ih | drew _ ih => exact ih

-- ========================================================= a single turn

/-- What the entries between the beginning and the end of a task's turn have
to respect. -/
structure Heeds (a₀ : Arena E T) (id : TaskId) (inner : List Entry) : Prop where
  /-- The task has no other turn meanwhile. -/
  alone : ∀ entry ∈ inner, entry.turn? ≠ some id
  /-- The task reports once, unless somebody is at fault. -/
  once : (∀ fault, .raised fault ∉ inner) →
    inner.countP (Entry.reports id) = 1 ∧ inner.countP (Entry.sets id) = 1
  /-- A second report is a fault. -/
  second : ∀ early outcome late, inner = early ++ .reported id outcome :: late →
    0 < early.countP (Entry.reports id) →
    ∃ rest, late = .raised (.secondReport id (a₀.nameOf id)) :: rest
  /-- So is the end of the last hook, when there was no report. -/
  silent : ∀ early faults, inner = early ++ .returned id :: faults →
    (∀ entry ∈ faults, entry.raises?.isSome = true) →
      (∀ fault, .raised fault ∉ early) →
    early.countP (Entry.reports id) = 0 →
    ∃ rest, faults = .raised (.silentUpdate id (a₀.nameOf id)) :: rest

/-- How the entries of a turn end, and in which arena. -/
inductive Ends (a₀ : Arena E T) (id : TaskId) :
    List Entry → Arena E T → Prop where
  /-- The last hook ends, after a report or a fault. -/
  | updated {front : List Entry} {a' : Arena E T}
      (hreports : a'.fault = none → a'.reportsOf id ≠ 0) :
      Ends a₀ id (front ++ [.returned id]) a'
  | silent {front : List Entry} {a' : Arena E T} :
      Ends a₀ id (front
        ++ [.returned id, .raised (.silentUpdate id (a₀.nameOf id))]) a'
  /-- No hook was called. -/
  | refused {news : List Entry} {a' : Arena E T} (hhooks : .returned id ∉ news)
      (hreports : a'.fault = none → a'.reportsOf id ≠ 0) : Ends a₀ id news a'

/-- A task goes back to its slot when a hook of it has come to its end. -/
theorem Run.answer_ends {occupant : Occupant T}
    (h : Run a₀ (.answer id occupant) a news a') :
    ∃ front, .returned id :: news = front ++ [.returned id] := by
  obtain ⟨job, hjob⟩ : ∃ job : Job E T, job = .answer id occupant := ⟨_, rfl⟩
  rw [← hjob] at h
  induction h generalizing occupant with
  | rested =>
      cases hjob
      exact ⟨[], rfl⟩
  | @answered id _ left report _ _ _ news answers _ _ _ _ _ hanswer =>
      cases hjob
      obtain ⟨front, hfront⟩ := hanswer rfl
      exact ⟨.returned id :: .called id (.respond report.outcome report.child)
          :: (news ++ front), by
            rw [hfront, List.cons_append, List.cons_append, List.append_assoc]⟩
  | _ => cases hjob

/-- To attend a call ends with the return of the hook. -/
theorem Run.attend_ends {call : Call} (h : Run a₀ (.attend id call) a news a')
    (hfault : a.fault = none) : ∃ front, news = front ++ [.returned id] := by
  cases h with
  | skipped hpending => exact absurd hfault hpending
  | called _ _ hhook hanswer =>
      obtain ⟨front, hfront⟩ := hanswer.answer_ends
      exact ⟨.called id call :: (_ ++ front),
        by rw [hfront, List.cons_append, List.append_assoc]⟩

/-- An update that follows the entries `before`. With a fault pending no hook is
called, so what ended before is what the turn ends with. -/
theorem Run.update_ends (h : Run a₀ (.update id) a news a')
    {before : List Entry}
    (hbefore : a.fault ≠ none → ∃ front, before = front ++ [.returned id]) :
    Ends a₀ id (before ++ news) a' := by
  cases hfault : a.fault with
  | none =>
      cases h with
      | updated hattend hreports =>
          obtain ⟨front, rfl⟩ := hattend.attend_ends hfault
          rw [← List.append_assoc]
          exact .updated hreports
      | silent hattend =>
          obtain ⟨front, rfl⟩ := hattend.attend_ends hfault
          rw [List.append_assoc, ← List.append_assoc]
          exact .silent
  | some fault =>
      have hpending : a.fault ≠ none :=
        fun hnone => nomatch hfault.symm.trans hnone
      obtain ⟨front, rfl⟩ := hbefore hpending
      cases h with
      | updated hattend hreports =>
          cases hattend with
          | skipped =>
              rw [List.append_nil]
              exact .updated hreports
          | called hnone => exact absurd hnone hpending
      | silent hattend hnone =>
          cases hattend with
          | skipped => exact absurd hnone hpending
          | called hnone => exact absurd hnone hpending

/-- A turn ends with the last hook of its task, or with the report that it may
not start. -/
theorem Run.turn_ends (hranked : Ranked a₀) (hid : id ≠ .evaluator)
    {asks : Bool} (h : Run a₀ (.turn id asks) a news a')
    (hfault : a.fault = none) : Ends a₀ id news a' := by
  cases h with
  | resumed _ hupdate =>
      have hends : Ends a₀ id ([] ++ news) a' :=
        hupdate.update_ends fun hpending => absurd hfault hpending
      exact hends
  | admitted _ hasked hfault₁ hstart hupdate =>
      obtain ⟨front, hfront⟩ := hstart.attend_ends hfault₁
      rw [← List.append_assoc]
      exact hupdate.update_ends fun _ =>
        ⟨_ ++ front, by rw [hfront, List.append_assoc]⟩
  | tried _ hstart hupdate =>
      exact hupdate.update_ends fun _ => hstart.attend_ends hfault
  | refused _ hasked htells =>
      -- A refused task was never called: only its guard was, and the guard has
      -- a greater id.
      refine .refused (fun hmem => ?_) htells.reports
      rcases List.mem_append.1 hmem with hmem | hmem
      · exact Nat.lt_irrefl _
          (((hasked.within hranked _ hmem).2 id rfl).resolve_left hid)
      · exact htells.not_returned hid hmem

omit [Behavior E T] in
/-- Where nothing but faults follows the end of a hook, it is the last one. -/
theorem returned_last {early faults front tail : List Entry} {x : TaskId}
    (h : early ++ .returned id :: faults = front ++ .returned x :: tail)
    (hfaults : ∀ entry ∈ faults, entry.raises?.isSome = true)
    (htail : ∀ entry ∈ tail, entry.raises?.isSome = true) :
    early = front ∧ faults = tail := by
  rcases split_append h with ⟨rest, -, hrest⟩ | ⟨rest, hfront, hback⟩
  · exact nomatch htail (.returned id)
      (hrest ▸ List.mem_append_right _ List.mem_cons_self)
  · cases rest with
    | nil =>
        rw [List.append_nil] at hfront
        exact ⟨hfront.symm, (List.cons.inj hback).2⟩
    | cons entry rest =>
        have hmem : .returned x ∈ faults := by
          rw [(List.cons.inj hback).2]
          exact List.mem_append_right _ List.mem_cons_self
        exact nomatch hfaults _ hmem

omit [Behavior E T] in
/-- When the last hook of a turn has ended and the task did not report, there is
the fault that says so. The tail of the turn is known, and the return that is
split off there is the last hook of the task. -/
theorem Ends.silence (h : Ends a₀ id news a')
    (hsome : (∀ fault, .raised fault ∉ news) →
      news.countP (Entry.reports id) ≠ 0)
    {early faults : List Entry} (hnews : news = early ++ .returned id :: faults)
    (hfaults : ∀ entry ∈ faults, entry.raises?.isSome = true)
    (hearly : ∀ fault, .raised fault ∉ early)
    (hzero : early.countP (Entry.reports id) = 0) :
    faults = [.raised (.silentUpdate id (a₀.nameOf id))] := by
  cases h with
  | updated =>
      obtain ⟨rfl, rfl⟩ :=
        returned_last hnews.symm hfaults (List.forall_mem_nil _)
      have hnone : ∀ fault, .raised fault ∉ early ++ [.returned id] :=
        fun fault hmem =>
          (List.mem_append.1 hmem).elim (hearly fault) fun h =>
            nomatch List.mem_singleton.1 h
      refine absurd ?_ (hsome hnone)
      rw [List.countP_append, hzero]
      rfl
  | silent =>
      have htail : ∀ entry ∈ [Entry.raised (.silentUpdate id (a₀.nameOf id))],
          entry.raises?.isSome = true := by
        intro entry hentry
        rw [List.mem_singleton.1 hentry]
        rfl
      exact (returned_last hnews.symm hfaults htail).2
  | refused hhooks =>
      exact absurd (hnews ▸ List.mem_append_right _ List.mem_cons_self) hhooks

/-- A turn from its beginning to its end. -/
theorem Run.heeds (hranked : Ranked a₀) (hid : id ≠ .evaluator) {asks : Bool}
    (h : Run a₀ (.turn id asks) a news a') (hfault : a.fault = none)
    (hreports : a.reportsOf id = 0) : Heeds a₀ id news := by
  -- What the slot counts is known from the story of the run, and how the turn
  -- ends is known from its shape.
  have htale := h.tale
  have hends := h.turn_ends hranked hid hfault
  have halone : ∀ entry ∈ news, entry.turn? ≠ some id :=
    fun entry hentry hturn =>
      Nat.lt_irrefl _ ((h.within hranked entry hentry).1 id hturn)
  -- No turn of the task begins in between, so the slot counts what the entries
  -- count.
  have hbegun : .turnBegan id ∉ news := fun hmem => halone _ hmem rfl
  have hcount := htale.reports id hbegun
  rw [hreports, Nat.zero_add] at hcount
  have hclear : (∀ fault, .raised fault ∉ news) → a'.fault = none :=
    fun hnone => by
      rw [htale.fault, hfault, findSome?_raises_eq_none.2 hnone]
      rfl
  have hsome : (∀ fault, .raised fault ∉ news) →
      news.countP (Entry.reports id) ≠ 0 := by
    intro hnone
    rw [← hcount]
    cases hends with
    | updated hreports' | refused _ hreports' => exact hreports' (hclear hnone)
    | silent =>
        exact absurd (List.mem_append_right _
            (List.mem_cons_of_mem _ List.mem_cons_self)) (hnone _)
  refine ⟨halone, fun hnone => ?_, fun early outcome late hnews hpos => ?_,
    fun early faults hnews hfaults hearly hzero =>
      ⟨[], hends.silence hsome hnews hfaults hearly hzero⟩⟩
  -- There is no second report without a fault, and there is one by the way the
  -- turn ends.
  · have hfew := htale.few (hclear hnone) id (by omega)
    have hsets := htale.sets (hclear hnone) id
    have hpos := hsome hnone
    omega
  · refine htale.second id early outcome late (fun hmem => hbegun ?_)
      hnews (by omega)
    rw [hnews]
    exact List.mem_append_left _ hmem

-- ======================================================== turn by turn

/-- Every turn that begins in a row of entries ends in it and heeds the
contract. -/
def Fair (a₀ : Arena E T) (news : List Entry) : Prop :=
  ∀ before id rest, news = before ++ .turnBegan id :: rest →
    ∃ inner after, rest = inner ++ .turnEnded id :: after ∧ Heeds a₀ id inner

omit [Behavior E T] in
/-- Where no turn begins there is nothing to be fair about. -/
theorem fair_of_not_begun (h : ∀ id, .turnBegan id ∉ news) : Fair a₀ news := by
  intro before id rest heq
  rw [heq] at h
  exact absurd (List.mem_append_right _ List.mem_cons_self) (h id)

omit [Behavior E T] in
/-- Two fair stretches are fair together. -/
theorem Fair.append (h : Fair a₀ news) (h' : Fair a₀ later) :
    Fair a₀ (news ++ later) := by
  intro before id rest heq
  rcases split_append heq with ⟨rest', hnews, hrest⟩ | ⟨before', -, hlater⟩
  · obtain ⟨inner, after, hinner, hheeds⟩ := h before id rest' hnews
    exact ⟨inner, after ++ later,
      by rw [hrest, hinner, List.append_assoc]; rfl, hheeds⟩
  · exact h' before' id rest hlater

omit [Behavior E T] in
/-- An entry that begins no turn may stand in front. -/
theorem Fair.cons (h : Fair a₀ news) {entry : Entry}
    (hentry : ∀ id, entry ≠ .turnBegan id) :
    Fair a₀ (entry :: news) :=
  (fair_of_not_begun fun id hmem =>
      hentry id (List.mem_singleton.1 hmem).symm).append h

omit [Behavior E T] in
/-- Or at the end. -/
theorem Fair.concat (h : Fair a₀ news) {entry : Entry}
    (hentry : ∀ id, entry ≠ .turnBegan id) :
    Fair a₀ (news ++ [entry]) :=
  h.append (fair_of_not_begun fun id hmem =>
      hentry id (List.mem_singleton.1 hmem).symm)

omit [Behavior E T] in
/-- A turn around others. -/
theorem Fair.turn {inner : List Entry} (h : Fair a₀ inner)
    (hheeds : Heeds a₀ id inner) :
    Fair a₀ (.turnBegan id :: (inner ++ [.turnEnded id])) := by
  intro before x rest heq
  cases before with
  | nil =>
      cases heq
      exact ⟨inner, [], rfl, hheeds⟩
  | cons entry before =>
      exact h.concat (by nofun) before x rest (List.cons.inj heq).2

omit [Behavior E T] in
/-- To tell a report begins no turn. -/
theorem Tells.not_begun {outcome : Outcome} (h : Tells a₀ a id outcome news a')
    (x : TaskId) :
    .turnBegan x ∉ news := by
  intro hmem
  exact Nat.lt_irrefl _ ((h.above (x.index + 1) 0 _ hmem).1 x rfl)

/-- The contract is heeded in every turn of a run. By induction over the run:
the only case that begins a turn is `turned`, and there the turn is closed
again. -/
theorem Run.fair (hranked : Ranked a₀) {job : Job E T}
    (h : Run a₀ job a news a') :
    Fair a₀ news := by
  induction h with
  | idle | skipped | rested | done
  | unguarded => exact fair_of_not_begun fun _ h => nomatch h
  | turned hfault hid hbegun hturn ih =>
      refine ih.turn (hturn.heeds hranked hid (hbegun.fault.trans hfault) ?_)
      rw [hbegun.reportsOf, if_pos rfl]
  | resumed _ _ ih | updated _ _ ih | overruled _ _ ih | looked _ _ ih
  | wrote _ ih | drew _ ih =>
      exact ih
  | admitted _ _ _ _ _ hasked hstart hupdate =>
      exact hasked.append (hstart.append hupdate)
  | refused _ _ htells hasked =>
      exact hasked.append (fair_of_not_begun htells.not_begun)
  | tried _ _ _ hstart hupdate => exact hstart.append hupdate
  | silent _ _ ih => exact ih.concat (by nofun)
  | asked _ _ _ _ hasked hturn => exact hasked.append hturn
  | unsettled _ _ _ hasked hturn =>
      exact hasked.append (hturn.concat (by nofun))
  | called _ _ _ _ hhook hanswer | answered _ _ _ _ hhook hanswer =>
      exact (hhook.append (hanswer.cons (by nofun))).cons (by nofun)
  | told htells _ ih => exact (fair_of_not_begun htells.not_begun).append ih
  | drove _ _ _ hdrive hnext => exact hdrive.append hnext
  | missed _ ih => exact ih.cons (by nofun)

-- =============================================================== steps

/-- How a step that gives `result` treats a turn: `before` is what came
before it, and `inner` is what happened in it. -/
structure Treats (a : Arena E T) (result : Except Fault Status)
    (before : List Entry) (id : TaskId) (inner : List Entry) : Prop where
  /-- The task has no other turn meanwhile. -/
  alone : ∀ entry ∈ inner, entry.turn? ≠ some id
  /-- In a step without a fault the task reports once, which sets its status
  once. -/
  once : result.isOk = true →
    inner.countP (Entry.reports id) = 1 ∧ inner.countP (Entry.sets id) = 1
  /-- A second report is the fault of the step, if it is the first fault. -/
  second : ∀ early outcome late, inner = early ++ .reported id outcome :: late →
    0 < early.countP (Entry.reports id) →
      (∀ fault, .raised fault ∉ before ++ early) →
    result = .error (.secondReport id (a.nameOf id))
  /-- And so it is if the last hook of the turn ends and there was no
  report. -/
  silent : ∀ early faults, inner = early ++ .returned id :: faults →
    (∀ entry ∈ faults, entry.raises?.isSome = true) →
      early.countP (Entry.reports id) = 0 →
    (∀ fault, .raised fault ∉ before ++ early) →
      result = .error (.silentUpdate id (a.nameOf id))

omit [Behavior E T] in
/-- A turn that heeds the contract, in a step whose first fault is its
result. -/
theorem Heeds.treats {root : TaskId} {delta : Float32}
    {result : Except Fault Status} {during before inner after : List Entry}
    (h : Heeds (a.begun root delta) id inner)
    (hduring : during = before ++ .turnBegan id :: (inner ++ after))
    (herror : ∀ fault, during.findSome? Entry.raises? = some fault →
      result = .error fault)
    (hok : result.isOk = true → during.findSome? Entry.raises? = none) :
    Treats a result before id inner := by
  -- What is raised behind `early` in the turn is the first fault.
  have hfirst : ∀ {entry : Entry} {early late : List Entry} {fault : Fault},
      entry.raises? = none → inner = early ++ entry :: .raised fault :: late →
      (∀ other, .raised other ∉ before ++ early) → result = .error fault := by
    intro entry early late fault hentry hinner hearly
    have hsplit : during = (before ++ .turnBegan id :: (early ++ [entry]))
        ++ .raised fault :: (late ++ after) := by
      rw [hduring, hinner]
      simp only [List.append_assoc, List.cons_append, List.nil_append]
    refine herror fault ?_
    rw [hsplit, findSome?_raises fun other hmem => ?_]
    rcases List.mem_append.1 hmem with hmem | hmem
    · exact hearly other (List.mem_append_left _ hmem)
    rcases List.mem_append.1
      ((List.mem_cons.1 hmem).resolve_left nofun) with hmem | hmem
    · exact hearly other (List.mem_append_right _ hmem)
    · rw [← List.mem_singleton.1 hmem] at hentry
      cases hentry
  -- Each of the three faults is the first one of the step, if none was raised
  -- before the report it answers to.
  refine ⟨h.alone, fun hresult => ?_,
    fun early outcome late hinner hpos hearly => ?_,
    fun early faults hinner hfaults hzero hearly => ?_⟩
  · refine h.once fun fault hmem =>
      findSome?_raises_eq_none.1 (hok hresult) fault ?_
    rw [hduring]
    exact List.mem_append_right _
      (List.mem_cons_of_mem _ (List.mem_append_left _ hmem))
  · obtain ⟨rest, rfl⟩ := h.second early outcome late hinner hpos
    exact hfirst rfl hinner hearly
  · obtain ⟨rest, rfl⟩ := h.silent early faults hinner hfaults
      (fun fault hmem => hearly fault (List.mem_append_right _ hmem)) hzero
    exact hfirst rfl hinner hearly

/-- Whatever happened to a tree, and whatever its tasks do, a step that comes
to its end enforces that every task reports exactly once in each of its
turns. -/
theorem step_enforces {fine : Bool} (h : History fine a) {budget : Nat}
    {delta : Float32} {result : Except Fault Status}
    (hstep : Arena.step budget delta a = some (result, a')) :
    ∃ during, a'.entries = a.entries ++ during
      ∧ ∀ before id rest, during = before ++ .turnBegan id :: rest →
        ∃ inner after, rest = inner ++ .turnEnded id :: after
          ∧ Treats a result before id inner := by
  -- An empty tree takes no turn.
  cases hroot : a.root with
  | none =>
      rw [Arena.step, hroot] at hstep
      obtain ⟨rfl, rfl⟩ := Prod.mk.inj (Option.some.inj hstep)
      refine ⟨[], (List.append_nil _).symm, fun before id rest heq => ?_⟩
      cases before <;> cases heq
  | some root =>
      obtain ⟨news, a₁, tail, hrun, hentries, htail, hresult⟩ :=
        step_tale h.ready h.ranked hroot hstep
      have hquiet : tail.findSome? Entry.raises? = none := by
        refine findSome?_raises_eq_none.2 fun fault hmem => ?_
        obtain ⟨aborted, heq⟩ := htail _ hmem
        cases heq
      have hfirst :
          (Entry.stepBegan root delta :: (news ++ tail)).findSome? Entry.raises?
          = news.findSome? Entry.raises? := by
        rw [List.findSome?_cons_of_isNone rfl, List.findSome?_append, hquiet,
          Option.or_none]
      have hfair : Fair (a.begun root delta)
          (.stepBegan root delta :: (news ++ tail)) := by
        have hnone : ∀ id, .turnBegan id ∉ tail := by
          intro id hmem
          obtain ⟨aborted, heq⟩ := htail _ hmem
          cases heq
        refine ((hrun.fair (h.ranked.begun root delta)).append
            (fair_of_not_begun hnone)).cons fun id heq => ?_
        cases heq
      refine ⟨_, hentries, fun before id rest heq => ?_⟩
      obtain ⟨inner, after, rfl, hheeds⟩ := hfair before id rest heq
      refine ⟨inner, after, rfl,
        -- The result of the step is its first fault, or the status of the tree.
        hheeds.treats heq (fun fault hfault => ?_) fun hok => ?_⟩
      · rw [hfirst] at hfault
        rw [hresult, hfault]
      · rw [hfirst]
        cases hfault : news.findSome? Entry.raises? with
        | none => rfl
        | some fault =>
            rw [hresult, hfault] at hok
            cases hok

/-- In a step in which a task has two turns it reports twice, once in each. -/
theorem step_enforces_eager :
    ∃ a', step 30 0 eager = some (.ok .running, a')
      ∧ ∃ during, a'.entries = eager.entries ++ during
        ∧ during.countP (Entry.begins ⟨2⟩) = 2
        ∧ during.countP (Entry.sets ⟨2⟩) = 2
        ∧ ∀ before id rest, during = before ++ .turnBegan id :: rest →
          ∃ inner after, rest = inner ++ .turnEnded id :: after
            ∧ Treats eager (.ok .running) before id inner := by
  have hhistory : History true eager :=
    (History.empty () fun roll => roll).setRoot rfl
  obtain ⟨a', hstep⟩ : ∃ a', step 30 0 eager = some (.ok .running, a') :=
    ⟨_, rfl⟩
  have hcounts : (step 30 0 eager).map
      (fun r => (r.2.entries.countP (Entry.begins ⟨2⟩),
      r.2.entries.countP (Entry.sets ⟨2⟩))) = some (2, 2) := by decide
  have hbefore : eager.entries.countP (Entry.begins ⟨2⟩) = 0
      ∧ eager.entries.countP (Entry.sets ⟨2⟩) = 0 := by decide
  obtain ⟨during, hduring, hturns⟩ := step_enforces hhistory hstep
  rw [hstep, Option.map_some, hduring, List.countP_append, List.countP_append,
    hbefore.1, hbefore.2, Nat.zero_add, Nat.zero_add] at hcounts
  obtain ⟨hbegins, hsets⟩ := Prod.mk.inj (Option.some.inj hcounts)
  exact ⟨a', hstep, during, hduring, hbegins, hsets, hturns⟩

end Arena

end TaskTree
