/-
Guards stand at the entrance of a task, one behind the other.

A task that is entered asks its guard first, and that asks its own guard
before it is tried itself. So a chain of guards is tried from its far end,
and the first that fails bars the way: those between it and the task have no
part in the step, and the task fails without being called (`Asked`,
`Enters`). A running task is gone on with, and then no guard of it has a
part.

What is said about an entrance is what the journal says between the
beginning and the end of a turn. Where the tasks stand at its beginning is
read off the journal, too. That a guard has a part only at
the entrance of its task needs the place of everybody in the tree: every
way to a guard leads through the tasks before it in the chain, and the first
of them is entered or is not (`Run.passed`).
-/
import TaskTree.Proofs.Arena.Delivery
import TaskTree.Proofs.Arena.Parts

namespace TaskTree.Arena

variable {E T : Type}

/-- A guard of a task, a guard of that guard, and so on. -/
inductive Gates (guardOf : TaskId → Option TaskId) :
    TaskId → TaskId → Prop where
  | own {id guard : TaskId} (hguard : guardOf id = some guard) :
      Gates guardOf id guard
  | behind {id next guard : TaskId} (hgates : Gates guardOf id next)
      (hguard : guardOf next = some guard) : Gates guardOf id guard

/-- What happens when the guards of a task are asked whether it may enter. -/
inductive Asked (guardOf : TaskId → Option TaskId) :
    TaskId → Bool → List Entry → Prop where
  /-- Without a guard the task is admitted, and nobody is asked. -/
  | unguarded {id : TaskId} (hguard : guardOf id = none) :
      Asked guardOf id true []
  /-- A guard behind the task's own is against it. -/
  | barred {id guard : TaskId} {news : List Entry}
      (hguard : guardOf id = some guard)
      (hasked : Asked guardOf guard false news) (habsent : Absent guard news) :
      Asked guardOf id false news
  /-- The guard is started and updated once, and says what it comes to. -/
  | tried {id guard : TaskId} {admitted : Bool} {before inner : List Entry}
      (hguard : guardOf id = some guard)
      (hasked : Asked guardOf guard true before) (habsent : Absent guard before)
      (hhooked : hooked guard inner = [.start, .update])
      (hgiven : given guard inner = [if admitted then .succeeded else .failed])
      (hbehind : ∀ other, Gates guardOf guard other → Absent other inner) :
      Asked guardOf id admitted
        (before ++ .turnBegan guard :: (inner ++ [.turnEnded guard]))

/-- How the turn of a task goes that stands at `status` when it begins. -/
inductive Enters (guardOf : TaskId → Option TaskId) (id : TaskId)
    (status : Status) :
    List Entry → Prop where
  /-- A running task is updated, and no guard of it has a part. -/
  | resumed {inner : List Entry} (hrunning : status = .running)
      (hguards : ∀ guard, Gates guardOf id guard → Absent guard inner)
      (hhooked : hooked id inner = [.update]) : Enters guardOf id status inner
  /-- All guards admit the task, and it is started and updated. -/
  | admitted {asked inner : List Entry} (hidle : status ≠ .running)
      (hasked : Asked guardOf id true asked) (habsent : Absent id asked)
      (hguards : ∀ guard, Gates guardOf id guard → Absent guard inner)
      (hhooked : hooked id inner = [.start, .update]) :
      Enters guardOf id status (asked ++ inner)
  /-- One of them does not, and the task fails. Besides, only the tree and the
  listeners hear of it. -/
  | refused {asked aside : List Entry} (hidle : status ≠ .running)
      (hasked : Asked guardOf id false asked) (habsent : Absent id asked)
      (name : String) (previous : Status)
      (haside : ∀ entry ∈ aside,
        ∀ who, entry.part? = some who → who = .evaluator) :
      Enters guardOf id status
        (asked ++ .reported id .failed
          :: .statusSet id name previous .failed :: aside)

variable {a₀ a a₁ a' : Arena E T} {news later : List Entry} {id guard : TaskId}

/-- A guard of the guard is a guard of the task. -/
theorem Gates.head {next : TaskId} (hguard : a.guardOf id = some next)
    (h : Gates a.guardOf next guard) : Gates a.guardOf id guard := by
  induction h with
  | own hnext => exact .behind (.own hguard) hnext
  | behind _ hnext ih => exact .behind ih hnext

/-- A guard is numbered after the task it guards. -/
theorem Gates.index_lt (hranked : Ranked a) (h : Gates a.guardOf id guard) :
    id.index < guard.index := by
  induction h with
  | own hguard => exact hranked.guard _ _ hguard
  | behind _ hguard ih => exact Nat.lt_trans ih (hranked.guard _ _ hguard)

/-- The guards of a guard are those of the task. -/
theorem Gates.trans {next : TaskId} (h : Gates a.guardOf id next)
    (h' : Gates a.guardOf next guard) : Gates a.guardOf id guard := by
  induction h' with
  | own hguard => exact .behind h hguard
  | behind _ hguard ih => exact .behind ih hguard

/-- Who stands in a row is somebody's guard. -/
theorem Gates.exists_owner (h : Gates a.guardOf id guard) :
    ∃ owner, a.guardOf owner = some guard := by
  cases h with
  | own hguard | behind _ hguard => exact ⟨_, hguard⟩

/-- In the row of tasks before a guard only one is no guard itself. -/
theorem Gates.front (hranked : Ranked a) {x : TaskId}
    (h : Gates a.guardOf id guard) (h' : Gates a.guardOf x guard)
    (hid : ∀ owner, a.guardOf owner ≠ some id)
    (hx : ∀ owner, a.guardOf owner ≠ some x) : x = id := by
  -- Both rows of guards are followed back from their common end. They have the
  -- same owners all along, since a guard has one owner.
  induction h with
  | own hguard =>
      cases h' with
      | own hguard' => exact hranked.owner _ _ _ hguard' hguard
      | behind hgates hguard' =>
          obtain rfl := hranked.owner _ _ _ hguard' hguard
          obtain ⟨owner, howner⟩ := hgates.exists_owner
          exact absurd howner (hid owner)
  | behind hgates hguard ih =>
      cases h' with
      | own hguard' =>
          obtain rfl := hranked.owner _ _ _ hguard' hguard
          obtain ⟨owner, howner⟩ := hgates.exists_owner
          exact absurd howner (hx owner)
      | behind hgates' hguard' =>
          obtain rfl := hranked.owner _ _ _ hguard' hguard
          exact ih hgates'

variable [Behavior E T]

-- ===================================================== the way to a guard

/-- The jobs that do not ask for a guard unless some task in them is
entered. -/
def Job.Past (a₀ : Arena E T) (guard : TaskId) : Job E T → Prop
  | .drive id asks =>
    id ≠ guard ∧ (asks = true → ∀ owner, a₀.guardOf owner ≠ some id)
  | .turn id asks => id ≠ guard ∧ (asks = true → ¬ Gates a₀.guardOf id guard)
  | .consult id _ => ¬ Gates a₀.guardOf id guard
  | .update id | .attend id _ | .answer id _ | .perform id _ _ => id ≠ guard

/-- A guard has no part where the first task before it has no turn. By induction
over the run, which is past the guard: it is not asked any more, and to enter
its row means to enter the first task of it. -/
theorem Run.passed (hwired : Wired a₀) (hranked : Ranked a₀) {job : Job E T}
    (h : Run a₀ job a news a') {first : TaskId}
    (hgates : Gates a₀.guardOf first guard)
    (hfirst : ∀ owner, a₀.guardOf owner ≠ some first) (hjob : job.Past a₀ guard)
    (hbegun : ∀ entry ∈ news, entry ≠ .turnBegan first) :
    Absent guard news := by
  obtain ⟨owner, howner⟩ := hgates.exists_owner
  have hne : guard ≠ .evaluator := (hwired.guard owner guard howner).1
  have hpart : ∀ {entry : Entry} {id : TaskId},
      entry.part? = some id → id ≠ guard →
      entry.part? ≠ some guard :=
    fun hpart hid heq => hid (Option.some.inj (hpart.symm.trans heq))
  induction h with
  | idle | skipped | unguarded | rested | done => exact absent_nil guard
  -- The only way back into the row is a turn of its first task.
  | @turned id asks _ _ _ _ _ _ _ _ ih =>
      obtain ⟨hhead, hrest⟩ := List.forall_mem_cons.1 hbegun
      -- Whoever is entered before the guard is the first one before it.
      have hturn : Job.Past a₀ guard (.turn id asks : Job E T) := by
        refine ⟨hjob.1, fun hasks hid => hhead ?_⟩
        rw [hgates.front hranked hid hfirst (hjob.2 hasks)]
      refine absent_cons.2 ⟨hpart rfl hjob.1, absent_append.2 ⟨ih hturn ?_, ?_⟩⟩
      · exact (List.forall_mem_append.1 hrest).1
      · exact absent_cons.2 ⟨hpart rfl hjob.1, absent_nil guard⟩
  | resumed _ _ ih => exact ih hjob.1 hbegun
  | admitted _ _ _ _ _ hasked hstart hupdate =>
      obtain ⟨hbefore, hafter⟩ := List.forall_mem_append.1 hbegun
      obtain ⟨hbetween, hafter⟩ := List.forall_mem_append.1 hafter
      exact absent_append.2 ⟨hasked (hjob.2 rfl) hbefore,
        absent_append.2 ⟨hstart hjob.1 hbetween, hupdate hjob.1 hafter⟩⟩
  | refused _ _ htells hasked =>
      obtain ⟨hbefore, -⟩ := List.forall_mem_append.1 hbegun
      exact absent_append.2
        ⟨hasked (hjob.2 rfl) hbefore, htells.absent hjob.1.symm hne⟩
  | tried _ _ _ hstart hupdate =>
      obtain ⟨hbefore, hafter⟩ := List.forall_mem_append.1 hbegun
      exact absent_append.2 ⟨hstart hjob.1 hbefore, hupdate hjob.1 hafter⟩
  | updated _ _ ih | looked _ _ ih | wrote _ ih
  | drew _ ih => exact ih hjob hbegun
  | silent _ _ ih =>
      obtain ⟨hbefore, -⟩ := List.forall_mem_append.1 hbegun
      exact absent_append.2
        ⟨ih hjob hbefore, absent_cons.2 ⟨nofun, absent_nil guard⟩⟩
  -- The guard further behind is asked first.
  | overruled hguard _ ih =>
      exact ih (fun hbehind => hjob (hbehind.head hguard)) hbegun
  | asked hguard _ _ _ hasked hturn =>
      obtain ⟨hbefore, hafter⟩ := List.forall_mem_append.1 hbegun
      exact absent_append.2
        ⟨hasked (fun hbehind => hjob (hbehind.head hguard)) hbefore,
        hturn ⟨fun heq => hjob (.own (heq ▸ hguard)), nofun⟩ hafter⟩
  | unsettled hguard _ _ hasked hturn =>
      obtain ⟨hbefore, hafter⟩ := List.forall_mem_append.1 hbegun
      obtain ⟨hafter, -⟩ := List.forall_mem_append.1 hafter
      exact absent_append.2
        ⟨hasked (fun hbehind => hjob (hbehind.head hguard)) hbefore,
        absent_append.2
          ⟨hturn ⟨fun heq => hjob (.own (heq ▸ hguard)), nofun⟩ hafter,
          absent_cons.2 ⟨nofun, absent_nil guard⟩⟩⟩
  | called _ _ _ _ hhook hanswer | answered _ _ _ _ hhook hanswer =>
      obtain ⟨-, hrest⟩ := List.forall_mem_cons.1 hbegun
      obtain ⟨hbefore, hafter⟩ := List.forall_mem_append.1 hrest
      obtain ⟨-, hafter⟩ := List.forall_mem_cons.1 hafter
      exact absent_cons.2 ⟨hpart rfl hjob, absent_append.2 ⟨hhook hjob hbefore,
        absent_cons.2 ⟨hpart rfl hjob, hanswer hjob hafter⟩⟩⟩
  -- A report is heard by the tree, the evaluator or a parent, and the guard is
  -- none of them.
  | told htells _ ih =>
      obtain ⟨-, hafter⟩ := List.forall_mem_append.1 hbegun
      exact absent_append.2 ⟨htells.absent hjob.symm hne, ih hjob hafter⟩
  -- A child is nobody's guard, so none of the row.
  | drove hchild _ _ hdrive hnext =>
      obtain ⟨hbefore, hafter⟩ := List.forall_mem_append.1 hbegun
      have hmem := List.mem_of_getElem? hchild
      refine absent_append.2
        ⟨hdrive ⟨fun heq => ?_, fun _ _ => guardOf_ne_of_child hwired hmem⟩
          hbefore,
        hnext hjob hafter⟩
      exact guardOf_ne_of_child hwired hmem (heq ▸ howner)
  | missed _ ih =>
      exact absent_cons.2 ⟨nofun, ih hjob (List.forall_mem_cons.1 hbegun).2⟩

-- ============================================================= the guards

omit [Behavior E T] in
/-- A guard that was tried has come to the end that its verdict says. -/
theorem verdict_clear {admitted : Bool} (h : a.verdict guard = (admitted, a))
    (hfault : a.fault = none) :
    a.statusOf guard = if admitted then .succeeded else .failed := by
  unfold verdict at h
  rw [isAborting, hfault] at h
  dsimp only [Option.isSome] at h
  rw [if_neg Bool.false_ne_true] at h
  split at h
  · rename_i hstatus
    cases (Prod.mk.inj h).1
    exact hstatus
  · rename_i hstatus
    cases (Prod.mk.inj h).1
    exact hstatus
  · have hraised := congrArg Arena.fault (Prod.mk.inj h).2
    exact absurd (hraised.trans hfault) (raise_fault_ne _ _)

section

variable (hwired : Wired a₀) (hranked : Ranked a₀) {first : TaskId}
  (hfirst : ∀ owner, a₀.guardOf owner ≠ some first)

include hwired hranked hfirst

/-- What a guard does when it is tried. -/
theorem Run.tried_turn (hgates : Gates a₀.guardOf first guard) {admitted : Bool}
    (h : Run a₀ (.drive guard false) a news a') (hfault : a'.fault = none)
    (hverdict : a'.verdict guard = (admitted, a')) :
    ∃ inner, news = .turnBegan guard :: (inner ++ [.turnEnded guard])
      ∧ hooked guard inner = [.start, .update]
      ∧ given guard inner = [if admitted then .succeeded else .failed]
      ∧ ∀ other, Gates a₀.guardOf guard other → Absent other inner := by
  cases h with
  -- Without a fault the turn has taken place, and its verdict is read off the
  -- status that the guard has set.
  | idle hpending => exact absurd hfault hpending
  | @turned _ _ _ b b' inner hnone hid hbegun hturn =>
      have hclear := hturn.clear hfault
      have hheeds :=
        hturn.heeds hranked hid hclear.1 (by rw [hbegun.reportsOf, if_pos rfl])
      obtain ⟨current, hcurrent⟩ :=
        List.length_eq_one_iff.1
          ((length_given guard inner).trans (hheeds.once hclear.2).2)
      refine ⟨inner, rfl, ?_, ?_, fun other hother => ?_⟩
      · cases hturn with
        | tried _ hstart hupdate =>
            exact hstart.enter_hooked hranked hupdate hid hfault
      · have hstands := hturn.stands guard
        rw [foldl_stands, hcurrent] at hstands
        have hstatus : b'.statusOf guard
            = if admitted then .succeeded else .failed :=
          verdict_clear (a := b'.endTurn guard) hverdict hfault
        rw [hcurrent, ← hstatus, hstands]
        rfl
      · have hne : guard ≠ other := fun heq => by
          have hlt := hother.index_lt hranked
          rw [heq] at hlt
          exact Nat.lt_irrefl _ hlt
        -- A guard behind the guard was asked before the turn.
        refine hturn.passed hwired hranked (hgates.trans hother) hfirst
          ⟨hne, nofun⟩ ?_
        rintro entry hentry rfl
        have hlt := (hturn.within hranked _ hentry).1 first rfl
        exact Nat.lt_asymm (hgates.index_lt hranked) hlt

end

/-- The answer to a task that asks its guards, where nobody is at fault. The
task stands in the row behind `first`, or is `first`. -/
def Job.Consults (a₀ : Arena E T) (first : TaskId) :
    Job E T → List Entry → Arena E T → Prop
  | .consult id admitted, news, a' =>
    id = first ∨ Gates a₀.guardOf first id → a'.fault = none →
      Asked a₀.guardOf id admitted news
  | _, _, _ => True

section

variable (hwired : Wired a₀) (hranked : Ranked a₀) {first : TaskId}
  (hfirst : ∀ owner, a₀.guardOf owner ≠ some first)

include hwired hranked hfirst

/-- A run that consults the guards of the first task asks them from the deepest
one on. -/
theorem Run.consults {job : Job E T} (h : Run a₀ job a news a') :
    job.Consults a₀ first news a' := by
  -- The row goes on: the guard of a task in the row is in the row.
  have hnext : ∀ {id guard : TaskId}, a₀.guardOf id = some guard →
      id = first ∨ Gates a₀.guardOf first id →
        Gates a₀.guardOf first guard := by
    rintro id guard hguard (rfl | hrow)
    · exact .own hguard
    · exact .behind hrow hguard
  induction h with
  | unguarded hguard => exact fun _ _ => .unguarded hguard
  | overruled hguard hasked ih =>
      intro hrow hfault
      exact .barred hguard (ih (.inr (hnext hguard hrow)) hfault)
        ((hasked.partsFrom hranked).absent (hwired.guard _ _ hguard).1
          (Nat.lt_succ_self _))
  | asked hguard hasked hturn hverdict ih =>
      intro hrow hfault
      have hgates := hnext hguard hrow
      obtain ⟨inner, rfl, hhooked, hgiven, hbehind⟩ :=
        hturn.tried_turn hwired hranked hfirst hgates hfault hverdict
      exact .tried hguard (ih (.inr hgates) (hturn.clear hfault).1)
        ((hasked.partsFrom hranked).absent (hwired.guard _ _ hguard).1
          (Nat.lt_succ_self _))
        hhooked hgiven hbehind
  | unsettled => exact fun _ hfault => absurd hfault (raise_fault_ne _ _)
  | _ => trivial

/-- The turn of a task that is no guard. -/
theorem Run.enters (h : Run a₀ (.turn first true) a news a')
    (hne : first ≠ .evaluator) (hfault : a'.fault = none) :
    Enters a₀.guardOf first (a.statusOf first) news := by
  -- The task does not begin another turn in its own.
  have hunbegun : ∀ {entry : Entry}, entry ∈ news →
      entry ≠ .turnBegan first := by
    rintro entry hentry rfl
    exact Nat.not_succ_le_self _ ((h.within hranked _ hentry).1 first rfl)
  have hpast : ∀ {guard : TaskId}, Gates a₀.guardOf first guard →
      first ≠ guard := by
    rintro guard hgates rfl
    exact Nat.lt_irrefl _ (hgates.index_lt hranked)
  cases h with
  -- A running task goes on without asking.
  | resumed hrunning hupdate =>
      exact .resumed hrunning
        (fun guard hgates =>
          hupdate.passed hwired hranked hgates hfirst (hpast hgates)
          fun _ hentry => hunbegun hentry)
        (hupdate.update_hooked hranked hne (hupdate.clear hfault).1)
  -- All guards have admitted it.
  | admitted hidle hasked hnone hstart hupdate =>
      refine .admitted hidle
        (hasked.consults hwired hranked hfirst (.inl rfl) hnone)
        ((hasked.partsFrom hranked).absent hne (Nat.lt_succ_self _))
        (fun guard hgates => ?_)
        (hstart.enter_hooked hranked hupdate hne hfault)
      refine absent_append.2
        ⟨hstart.passed hwired hranked hgates hfirst (hpast hgates)
          fun _ hentry => ?_,
        hupdate.passed hwired hranked hgates hfirst (hpast hgates)
          fun _ hentry => ?_⟩
      · exact hunbegun (List.mem_append_right _ (List.mem_append_left _ hentry))
      · exact hunbegun
          (List.mem_append_right _ (List.mem_append_right _ hentry))
  -- One has not, and the failure is told like every outcome.
  | @refused _ _ a₁ _ asked _ hidle hasked htells =>
      have habsent : Absent first asked :=
        (hasked.partsFrom hranked).absent hne (Nat.lt_succ_self _)
      cases htells with
      | unheard hpending => exact absurd hfault hpending
      | again => exact absurd hfault (raise_fault_ne _ _)
      | @first aside _ hnone _ haside =>
          refine .refused hidle
            (hasked.consults hwired hranked hfirst (.inl rfl) hnone) habsent _ _
            fun entry hentry who hwho => ?_
          rcases List.mem_append.1 hentry with hentry | hentry
          · obtain ⟨listener, -, rfl⟩ := List.mem_map.1 hentry
            cases hwho
          · cases haside entry hentry <;> cases hwho
            · rfl
            · rfl

end

-- ========================================================= turn by turn

/-- Every turn that begins in a row of entries ends in it, and whoever is no
guard passes its guards. Before the row the tasks stand at `stood`. -/
def Gated (a : Arena E T) (stood : TaskId → Status)
    (news : List Entry) : Prop :=
  ∀ before id rest, news = before ++ .turnBegan id :: rest →
    (∀ owner, a.guardOf owner ≠ some id) →
    ∃ inner after, rest = inner ++ .turnEnded id :: after
      ∧ Enters a.guardOf id (before.foldl (Entry.stands id) (stood id)) inner

section

variable {stood stood' : TaskId → Status}

omit [Behavior E T] in
/-- Where no turn begins there is nothing to gate. -/
theorem gated_of_not_begun (h : ∀ id, .turnBegan id ∉ news)
    (stood : TaskId → Status) :
    Gated a stood news := by
  intro before id rest heq
  rw [heq] at h
  exact absurd (List.mem_append_right _ List.mem_cons_self) (h id)

omit [Behavior E T] in
/-- Two gated stretches are gated together, if the statuses stand as the first
one left them. -/
theorem Gated.append (h : Gated a stood news) (h' : Gated a stood' later)
    (hstood : ∀ x, stood' x = news.foldl (Entry.stands x) (stood x)) :
    Gated a stood (news ++ later) := by
  intro before id rest heq hid
  rcases split_append heq with ⟨rest', hnews, hrest⟩ |
      ⟨before', hbefore, hlater⟩
  · obtain ⟨inner, after, hinner, henters⟩ := h before id rest' hnews hid
    exact ⟨inner, after ++ later,
      by rw [hrest, hinner, List.append_assoc]; rfl, henters⟩
  · rw [hbefore, List.foldl_append, ← hstood]
    exact h' before' id rest hlater hid

omit [Behavior E T] in
/-- An entry that begins no turn and sets no status may stand in front. -/
theorem Gated.cons (h : Gated a stood news) {entry : Entry}
    (hentry : ∀ id, entry ≠ .turnBegan id)
    (hquiet : ∀ id status, entry.stands id status = status) :
    Gated a stood (entry :: news) := by
  have hfirst : Gated a stood [entry] :=
    gated_of_not_begun
      (fun id hmem => hentry id (List.mem_singleton.1 hmem).symm) stood
  exact hfirst.append h fun x => (hquiet x _).symm

omit [Behavior E T] in
/-- And at the end any entry that begins no turn. -/
theorem Gated.concat (h : Gated a stood news) {entry : Entry}
    (hentry : ∀ id, entry ≠ .turnBegan id) :
    Gated a stood (news ++ [entry]) :=
  h.append (gated_of_not_begun
      (fun id hmem => hentry id (List.mem_singleton.1 hmem).symm) _)
    fun _ => rfl

omit [Behavior E T] in
/-- A turn around others. -/
theorem Gated.turn (h : Gated a stood news)
    (henters : (∀ owner, a.guardOf owner ≠ some id) →
      Enters a.guardOf id (stood id) news) :
    Gated a stood (.turnBegan id :: (news ++ [.turnEnded id])) := by
  intro before x rest heq hx
  cases before with
  | nil =>
      cases heq
      exact ⟨news, [], rfl, henters hx⟩
  | cons entry before =>
      obtain ⟨rfl, hrest⟩ := List.cons.inj heq
      exact h.concat (by nofun) before x rest hrest hx

end

/-- The jobs that are done without asking are those of guards. -/
def Job.Due (a₀ : Arena E T) : Job E T → Prop
  | .drive id asks
  | .turn id asks => asks = true ∨ ∃ owner, a₀.guardOf owner = some id
  | _ => True

/-- Whoever has its turn in a run without a fault passes its guards. By
induction over the run: `turned` is the case that enters a task, and the
statuses on entry are those that the entries before it have set. -/
theorem Run.gated (hwired : Wired a₀) (hranked : Ranked a₀) {job : Job E T}
    (h : Run a₀ job a news a') (hjob : job.Due a₀) (hfault : a'.fault = none) :
    Gated a₀ a.statusOf news := by
  induction h with
  | idle | skipped | unguarded | rested
  | done => exact gated_of_not_begun (fun _ => List.not_mem_nil) _
  | @turned id asks _ _ _ _ _ hid hbegun hturn ih =>
      have hstood := funext hbegun.statusOf
      refine hstood ▸ (ih hjob hfault).turn fun hfree => ?_
      rcases hjob with rfl | ⟨owner, howner⟩
      · exact hturn.enters hwired hranked hfree hid hfault
      · exact absurd howner (hfree owner)
  | resumed _ _ ih | updated _ _ ih => exact ih trivial hfault
  | looked _ _ ih | wrote _ ih | drew _ ih => exact ih trivial hfault
  | admitted _ hasked _ hstart hupdate ihasked ihstart ihupdate =>
      have hnone := (hupdate.clear hfault).1
      exact (ihasked trivial (hstart.clear hnone).1).append
        ((ihstart trivial hnone).append (ihupdate trivial hfault) hstart.stands)
        hasked.stands
  | refused _ hasked htells ihasked =>
      exact (ihasked trivial (htells.tale.clear hfault).1).append
        (gated_of_not_begun htells.not_begun _) hasked.stands
  | tried _ hstart hupdate ihstart ihupdate =>
      exact (ihstart trivial (hupdate.clear hfault).1).append
        (ihupdate trivial hfault) hstart.stands
  -- A fault is pending in both cases, which is excluded.
  | silent => exact absurd hfault (raise_fault_ne _ _)
  | unsettled => exact absurd hfault (raise_fault_ne _ _)
  | overruled _ _ ih => exact ih trivial hfault
  | asked hguard hasked hturn _ ihasked ihturn =>
      exact (ihasked trivial (hturn.clear hfault).1).append
        (ihturn (.inr ⟨_, hguard⟩) hfault) hasked.stands
  -- A hook leaves the statuses to the entries that are logged in it.
  | @called id _ _ _ a _ _ _ _ _ _ hhook hanswer ihhook ihanswer =>
      have hstood : a.statusOf = (a.vacate id).statusOf :=
        funext fun x =>
          have hkeeps : Keeps Slot.status a (a.vacate id) :=
            keeps_vacate a id fun _ _ => rfl
          (hkeeps.statusOf x).symm
      rw [hstood]
      refine Gated.cons ?_ (by nofun) fun _ _ => rfl
      exact (ihhook trivial (hanswer.clear hfault).1).append
        ((ihanswer trivial hfault).cons (by nofun) fun _ _ => rfl) hhook.stands
  | @answered id _ _ _ a _ _ _ _ _ _ hhook hanswer ihhook ihanswer =>
      have hstood : a.statusOf = (a.taken id).statusOf :=
        funext fun x =>
          have hkeeps : Keeps Slot.status a (a.taken id) :=
            keeps_taken a id fun _ _ => rfl
          (hkeeps.statusOf x).symm
      rw [hstood]
      refine Gated.cons ?_ (by nofun) fun _ _ => rfl
      exact (ihhook trivial (hanswer.clear hfault).1).append
        ((ihanswer trivial hfault).cons (by nofun) fun _ _ => rfl) hhook.stands
  | told htells _ ih =>
      exact (gated_of_not_begun htells.not_begun _).append
        (ih trivial hfault) htells.stands
  | drove _ hdrive hnext ihdrive ihnext =>
      exact (ihdrive (.inl rfl) (hnext.clear hfault).1).append
        (ihnext trivial hfault) hdrive.stands
  | missed _ ih => exact (ih trivial hfault).cons (by nofun) fun _ _ => rfl

-- =============================================================== steps

/-- Whatever happened to a tree, and whatever its tasks do, in a step that gives
a status every task that has a turn and is no guard passes its guards. Where it
stands when the turn begins is what the step has said of it so far. Every task
but the guard evaluator answers the reports of its children, the tree takes the
status of those of its root, and a guard is neither. -/
theorem step_gates {fine : Bool} (h : History fine a) {budget : Nat}
    {delta : Float32} {status : Status}
    (hstep : Arena.step budget delta a = some (.ok status, a')) :
    ∃ during, a'.entries = a.entries ++ during
      ∧ (∀ before id rest, during = before ++ .turnBegan id :: rest →
        (∀ owner, a.guardOf owner ≠ some id) →
          ∃ inner after, rest = inner ++ .turnEnded id :: after
            ∧ Enters a.guardOf id
              (before.foldl (Entry.stands id) (a.statusOf id)) inner)
      ∧ (∀ task, task ≠ .evaluator → Delivers a task during)
      ∧ (∃ root, a.root = some root
        ∧ during.filterMap Entry.settled?
          = during.filterMap (Entry.reported? root))
      ∧ ∀ owner guard, a.guardOf owner = some guard →
        a.root ≠ some guard ∧ ∀ parent, guard ∉ a.childrenOf parent := by
  -- The deliveries are known already; what is left is to gate the turns, and to
  -- see that the tree hears its root only.
  have hwired := h.ready.wired
  obtain ⟨during, hduring, hdelivers⟩ := step_delivers h hstep
  obtain ⟨root, news, hroot, hentries, hrun, hfault⟩ := step_clear h hstep
  obtain rfl := List.append_cancel_left (hduring.symm.trans hentries)
  have hbegun : Wired (a.begun root delta) := hwired.congr ⟨rfl, .refl a⟩
  have hgated : Gated (a.begun root delta) a.statusOf
      (.stepBegan root delta :: news) :=
    (hrun.gated hbegun (h.ranked.begun root delta) (.inl rfl) hfault).cons
      (by nofun) fun _ _ => rfl
  refine ⟨_, hduring, hgated, hdelivers, ⟨root, hroot, ?_⟩,
    fun owner guard hguard => ⟨?_,
    fun parent hchild => guardOf_ne_of_child hwired hchild hguard⟩⟩
  · rw [List.filterMap_cons_none rfl, List.filterMap_cons_none rfl]
    exact hrun.settled hroot hfault
  · exact (hwired.guard owner guard hguard).2.1

/-- Two members behind two guards each. The guards of the second do not
agree. -/
def doors : Arena Unit Eager :=
  ofBlueprint (.node (.leader 0) none
    [.node (.member .succeeded)
        (some (.node (.member .succeeded)
          (some (.single (.member .succeeded))) [])) [],
      .node (.member .succeeded)
        (some (.node (.member .failed)
          (some (.single (.member .succeeded))) [])) []])
    () fun roll => roll

/-- Both members are driven twice. The first is started and updated each time.
The second has a guard that fails, and is not. -/
theorem step_gates_doors :
    ∃ a', Arena.step 30 0 doors = some (.ok .running, a')
      ∧ ∃ during, a'.entries = doors.entries ++ during
        ∧ hooked ⟨2⟩ during = [.start, .update, .start, .update]
        ∧ hooked ⟨5⟩ during = [] ∧ given ⟨5⟩ during = [.failed, .failed]
        ∧ given ⟨6⟩ during = [.failed, .failed]
        ∧ given ⟨7⟩ during = [.succeeded, .succeeded]
        ∧ ∀ before id rest, during = before ++ .turnBegan id :: rest →
          (∀ owner, doors.guardOf owner ≠ some id) →
            ∃ inner after, rest = inner ++ .turnEnded id :: after
              ∧ Enters doors.guardOf id
                (before.foldl (Entry.stands id) (doors.statusOf id)) inner := by
  have hhistory : History true doors :=
    (History.empty () fun roll => roll).setRoot rfl
  have hbefore : doors.entries = [] := by decide
  have hnews : (Arena.step 30 0 doors).map (fun r => (r.1.toOption,
      [hooked ⟨2⟩ r.2.entries, hooked ⟨5⟩ r.2.entries],
      [given ⟨5⟩ r.2.entries, given ⟨6⟩ r.2.entries, given ⟨7⟩ r.2.entries]))
      = some (some .running, [[.start, .update, .start, .update], []],
        [[.failed, .failed], [.failed, .failed],
          [.succeeded, .succeeded]]) := by decide +kernel
  obtain ⟨⟨result, a'⟩, hstep, hnews⟩ := Option.map_eq_some_iff.1 hnews
  -- Both rounds are in the entries: the deeper guard of the second member
  -- admits it each time, and its own guard does not.
  simp only [Prod.mk.injEq, List.cons.injEq, and_true] at hnews
  obtain ⟨hresult, hnews⟩ := hnews
  obtain rfl : result = .ok .running := by
    cases result with
    | ok status => rw [Option.some.inj hresult]
    | error => cases hresult
  obtain ⟨during, hduring, hgates, -⟩ := step_gates hhistory hstep
  rw [hduring, hbefore, List.nil_append] at hnews
  obtain ⟨⟨hfirst, hsecond⟩, hfailed, hguard, hbehind⟩ := hnews
  exact ⟨a', hstep, during, hduring, hfirst, hsecond, hfailed, hguard, hbehind,
    hgates⟩

end TaskTree.Arena
