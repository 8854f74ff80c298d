/-
No task is called inside one of its own hooks.

A task whose hook is running is out of its slot, and if it were called then
the step would be aborted. This never happens, whatever the hooks do. The
links only lead on, so a task that is driven stands behind all that are out
of their slots, and who is asked for its guard waits in its slot meanwhile.

A report could call its receiver at the wrong moment, too. But the parent
of a task that reports is always in the middle of a hook, so the report
waits in its inbox, and the parent answers it when a hook of its own has
just ended. The guard evaluator alone is idle when a report comes in, and
answers at once. In the journal an answer that waited is known by the entry
before it, which says that a hook of the same task has returned.

`step_run` rests on all this and leaves no place in a run for such a fault.
What remains to be proved by induction on a run is where answers stand in
the journal (`Run.drained`).
-/
import TaskTree.Proofs.Arena.Tally

namespace TaskTree

/-- The entries of a step in which nobody is called inside one of its own
hooks. -/
structure Undisturbed (during : List Entry) : Prop where
  /-- No call finds its task away. -/
  met : ∀ id name, .raised (.reentry id name) ∉ during
  /-- No hook of a task begins while another one of it is running. -/
  alone : ∀ before task call after,
    during = before ++ .called task call :: after →
    .hook task ∉ ongoing before
  /-- Nobody but the guard evaluator answers a report before a hook of its own
  has ended. -/
  drained : ∀ before task outcome child after,
    during = before ++ .called task (.respond outcome child) :: after →
      task ≠ .evaluator →
      before.getLast? = some (.returned task)

-- ==================================================== where answers stand

/-- What an entry has to be if nothing is known of the one before it. -/
def Entry.Plain : Entry → Prop
  | .called task (.respond _ _) => task = .evaluator
  | .raised (.reentry _ _) => False
  | _ => True

/-- Every answer of a task stands behind the end of one of its hooks. -/
structure Drained (news : List Entry) : Prop where
  met : ∀ id name, .raised (.reentry id name) ∉ news
  drained : ∀ before task outcome child after,
    news = before ++ .called task (.respond outcome child) :: after →
      task ≠ .evaluator →
      before.getLast? = some (.returned task)

theorem drained_of_plain {news : List Entry} (h : ∀ entry ∈ news, entry.Plain) :
    Drained news where
  met id name hmem := h _ hmem
  drained before task outcome child after heq hne := by
    refine absurd (h (.called task (.respond outcome child)) ?_) hne
    rw [heq]
    exact List.mem_append_right _ List.mem_cons_self

theorem drained_entry {entry : Entry} (h : entry.Plain) : Drained [entry] :=
  drained_of_plain fun _ he => List.mem_singleton.1 he ▸ h

/-- What stands behind other entries still has the same one before it. -/
theorem Drained.append {news later : List Entry} (h : Drained news)
    (h' : Drained later) :
    Drained (news ++ later) where
  met id name hmem :=
    (List.mem_append.1 hmem).elim (h.met id name) (h'.met id name)
  drained before task outcome child after heq hne := by
    rcases split_append heq with ⟨rest, hnews, -⟩ | ⟨rest, hbefore, hlater⟩
    · exact h.drained before task outcome child rest hnews hne
    · have hlast := h'.drained rest task outcome child after hlater hne
      rw [hbefore, List.getLast?_append, hlast]
      rfl

/-- A task answers a report after a hook of it has returned. -/
theorem drained_answer (id : TaskId) (outcome : Outcome) (child : Nat) :
    Drained [.returned id, .called id (.respond outcome child)] where
  met _ _ hmem := by
    rcases List.mem_cons.1 hmem with heq | hmem
    · cases heq
    · cases List.mem_singleton.1 hmem
  drained before task outcome' child' after heq _ := by
    rcases before with _ | ⟨first, _ | ⟨second, rest⟩⟩
    · cases heq
    · cases heq
      rfl
    · cases rest <;> cases heq

namespace Arena

variable {E T : Type} {a₀ a a' : Arena E T} {news : List Entry}

theorem Tells.drained {id : TaskId} {outcome : Outcome}
    (h : Tells a₀ a id outcome news a') :
    Drained news := by
  refine drained_of_plain fun entry hentry => ?_
  cases h.ofReport entry hentry with
  | aside haside => cases haside <;> trivial
  | reported | second | set | told => trivial

/-- What stands before the entries of a job. -/
def Job.lead : Job E T → List Entry
  | .answer id _ => [.returned id]
  | _ => []

variable [Behavior E T]

/-- In every run answers stand behind the end of a hook, if the job is not to
call for one itself. -/
theorem Run.drained {job : Job E T} (h : Run a₀ job a news a')
    (hjob : ∀ id outcome child, job ≠ .attend id (.respond outcome child)) :
    Drained (job.lead ++ news) := by
  induction h with
  | idle | skipped | unguarded
  | done => exact drained_of_plain (List.forall_mem_nil _)
  | @turned id _ _ _ _ _ _ _ _ _ ih =>
      have hbegan : (Entry.turnBegan id).Plain := trivial
      have hended : (Entry.turnEnded id).Plain := trivial
      exact (drained_entry hbegan).append
        ((ih nofun).append (drained_entry hended))
  | resumed _ _ ih | updated _ _ ih | overruled _ _ ih | looked _ _ ih
  | wrote _ ih | drew _ ih =>
      exact ih nofun
  | admitted _ _ _ _ _ hasked hstart hupdate =>
      exact (hasked nofun).append ((hstart nofun).append (hupdate nofun))
  | refused _ _ htells hasked => exact (hasked nofun).append htells.drained
  | tried _ _ _ hstart hupdate => exact (hstart nofun).append (hupdate nofun)
  | silent _ _ ih => exact (ih nofun).append (drained_entry trivial)
  | asked _ _ _ _ hasked hturn => exact (hasked nofun).append (hturn nofun)
  | unsettled _ _ _ hasked hturn =>
      exact (hasked nofun).append ((hturn nofun).append (drained_entry trivial))
  | @called id call _ _ _ _ _ _ _ _ _ _ _ hhook hanswer =>
      have hcalled : (Entry.called id call).Plain := by
        cases call with
        | start | update => trivial
        | respond outcome child => exact absurd rfl (hjob id outcome child)
      exact (drained_entry hcalled).append
        ((hhook nofun).append (hanswer nofun))
  | rested => exact drained_entry trivial
  | @answered id _ _ report _ _ _ _ _ _ _ _ _ hhook hanswer =>
      exact (drained_answer id report.outcome report.child).append
        ((hhook nofun).append (hanswer nofun))
  | told htells _ ih => exact htells.drained.append (ih nofun)
  | drove _ _ _ hdrive hnext => exact (hdrive nofun).append (hnext nofun)
  | @missed id index _ _ _ _ _ _ ih =>
      have hraised :
          (Entry.raised (.missingChild id (a₀.nameOf id) index)).Plain :=
        trivial
      exact (drained_entry hraised).append (ih nofun)

-- =============================================================== the steps

/-- What a step writes respects at every entry what is before it. -/
theorem step_orderly {fine : Bool} (h : History fine a) {budget : Nat}
    {delta : Float32} {result : Except Fault Status}
    (hstep : Arena.step budget delta a = some (result, a')) :
    ∃ during, a'.entries = a.entries ++ during ∧ Orderly a during := by
  have hready := h.ready
  cases hroot : a.root with
  | none =>
      obtain ⟨-, rfl⟩ := step_rootless hroot hstep
      exact ⟨[], (List.append_nil _).symm, orderly_nil⟩
  | some root =>
      obtain ⟨a₁, hcourse, hend⟩ := step_course hroot hstep
      obtain ⟨news, hnews, hposted⟩ := hready.posted.course hready.wired hcourse
      have hentries : a₁.entries
          = a.entries ++ ([.stepBegan root delta] ++ news) := by
        rw [hnews, entries_begun, List.append_assoc]
      rcases hend with ⟨-, -, rfl⟩ | ⟨fault, -, -, rfl⟩
      · exact ⟨_, hentries, hposted.orderly⟩
      · have haborted : Fits a ([.stepBegan root delta] ++ news)
            (.stepAborted fault) := trivial
        refine ⟨_, ?_, hposted.orderly.concat haborted⟩
        rw [← List.append_assoc, ← hentries]
        exact entries_log ..

/-- Whatever happened to a tree, and whatever its tasks do, no step calls a
task inside one of its own hooks, and nobody but the guard evaluator answers
a report at the moment when it is made. -/
theorem step_undisturbed {fine : Bool} (h : History fine a) {budget : Nat}
    {delta : Float32} {result : Except Fault Status}
    (hstep : Arena.step budget delta a = some (result, a')) :
    (∀ id name, result ≠ .error (.reentry id name))
      ∧ ∃ during, a'.entries = a.entries ++ during ∧ Undisturbed during := by
  obtain ⟨during, hduring, horderly⟩ := step_orderly h hstep
  have halone : ∀ before task call after,
      during = before ++ .called task call :: after →
      .hook task ∉ ongoing before :=
    fun before _ _ after heq => (horderly before _ after heq).1
  cases hroot : a.root with
  | none =>
      obtain ⟨rfl, rfl⟩ := step_rootless hroot hstep
      obtain rfl := List.self_eq_append_right.1 hduring
      have hnothing : Drained [] := drained_of_plain (List.forall_mem_nil _)
      exact ⟨(fun _ _ heq => by cases heq), [], hduring, hnothing.met, halone,
        hnothing.drained⟩
  | some root =>
      obtain ⟨news, a₁, tail, hrun, hentries, htail, hresult⟩ :=
        step_tale h.ready h.ranked hroot hstep
      obtain rfl := List.append_cancel_left (hduring.symm.trans hentries)
      have hnews : Drained news := hrun.drained fun _ _ _ heq => by cases heq
      have hbegan : (Entry.stepBegan root delta).Plain := trivial
      have hended : Drained tail := by
        refine drained_of_plain fun entry hentry => ?_
        obtain ⟨fault, rfl⟩ := htail entry hentry
        trivial
      have hwhole := (drained_entry hbegan).append (hnews.append hended)
      refine ⟨fun id name heq => ?_, _, hduring, hwhole.met, halone,
        hwhole.drained⟩
      rw [heq] at hresult
      split at hresult
      · cases hresult
      · rename_i fault hfault
        obtain ⟨entry, hentry, hraises⟩ :=
          List.exists_of_findSome?_eq_some hfault
        cases entry with
        | raised found =>
            obtain rfl := Option.some.inj hraises
            cases hresult
            exact hnews.met id name hentry
        | _ => cases hraises

/-- A guarded tree whose root runs its children from several hooks, and some
of them twice. -/
def busy : Arena Unit Eager :=
  ofBlueprint (.node (.leader 0) (some (.single (.member .succeeded)))
    [.single (.member .succeeded), .single (.member .failed)]) () id

/-- After a step and a reset the root answers four reports in a step, and the
guard evaluator one. -/
theorem step_undisturbed_busy :
    ∃ a a' : Arena Unit Eager, step 30 0 busy = some (.ok .running, a)
      ∧ step 30 0 a.reset = some (.ok .running, a')
      ∧ ∃ during, a'.entries = a.reset.entries ++ during ∧ Undisturbed during
        ∧ (answered ⟨1⟩ during).length = 4
        ∧ answered .evaluator during = [⟨0, .succeeded⟩] := by
  have hhistory : History true busy := (History.empty () id).setRoot rfl
  have hanswers : (step 30 0 busy).bind
      (fun r => (step 30 0 r.2.reset).map fun r' =>
        let during := r'.2.entries.drop r.2.reset.entries.length
        ((answered ⟨1⟩ during).length, answered .evaluator during, r.1.toOption,
          r'.1.toOption))
      = some (4, [⟨0, .succeeded⟩], some .running, some .running) := by
    decide +kernel
  have hok : ∀ {result : Except Fault Status}, result.toOption = some .running →
      result = .ok .running := by
    intro result hresult
    cases result with
    | error fault => cases hresult
    | ok status => exact congrArg Except.ok (Option.some.inj hresult)
  obtain ⟨⟨result, a⟩, hfirst, hanswers⟩ := Option.bind_eq_some_iff.1 hanswers
  obtain ⟨⟨result', a'⟩, hstep, hsome⟩ := Option.map_eq_some_iff.1 hanswers
  obtain ⟨-, during, hduring, hundisturbed⟩ :=
    step_undisturbed (hhistory.step hfirst).reset hstep
  dsimp only at hsome
  rw [hduring, List.drop_left, Prod.mk.injEq, Prod.mk.injEq,
    Prod.mk.injEq] at hsome
  obtain ⟨hroot, hevaluator, hresult, hresult'⟩ := hsome
  rw [hok hresult] at hfirst
  rw [hok hresult'] at hstep
  exact ⟨a, a', hfirst, hstep, during, hduring, hundisturbed, hroot, hevaluator⟩

end Arena

end TaskTree
