/-
A step that is aborted stops cleanly.

A fault may be found anywhere: deep in the hooks of a tree, between two
queued reports, in a guard, or in a hook that goes on although an earlier
fault has aborted the step already. From the journal of a step it can be
seen that this makes no difference (`step_unwinds`). The first fault of the
step is its result. What stands in the journal behind it closes the hooks
and turns that were open, the innermost first, and is nothing else but
further faults: no task and no tree gets another status, no listener hears
of anything, and no hook begins. And whatever the result of a step, every
task is back in its slot, with nothing to answer and no fault pending.
-/
import TaskTree.Proofs.Arena.Account
import TaskTree.Proofs.Arena.History

namespace TaskTree.Arena

variable {E T : Type}

/-- How the step from `a` to `a'` goes that is aborted by `fault`. The entries
`before` lead to the fault, and the entries `after` are written when it has
been found. -/
structure Aborts (fault : Fault) (a a' : Arena E T)
    (before after : List Entry) : Prop where
  entries : a'.entries = a.entries ++ (before ++ .raised fault :: after)
  first : ∀ other, Entry.raised other ∉ before
  unwinds : ∀ entry ∈ after, entry.unwinds = true
  /-- Only what was open is closed. -/
  closes : after.filterMap Entry.closes? = ongoing before
  /-- The statuses of the tasks are those that were set before the fault. -/
  stands : ∀ id, (a.slot? id).isSome = true →
    a'.statusOf id = before.foldl (Entry.stands id) (a.statusOf id)
  settled : a'.status = before.foldl Entry.settles a.status

theorem stands_of_unwinds {entry : Entry} (h : entry.unwinds = true)
    {id : TaskId} {status : Status} : entry.stands id status = status := by
  cases entry <;> first | rfl | cases h

theorem settles_of_unwinds {entry : Entry} (h : entry.unwinds = true)
    {status : Status} :
    entry.settles status = status := by
  cases entry <;> first | rfl | cases h

variable [Behavior E T] {a a' : Arena E T}

/-- A course that ends with a fault, and the entry that the step makes of
it. -/
theorem aborts_of_course {root : TaskId} {delta : Float32} {fault : Fault}
    (hcourse : Course ⟨[], a.begun root delta⟩ ⟨[], a'⟩)
    (hfault : a'.fault = some fault) :
    ∃ before after, Aborts fault a
      ({ a' with fault := none }.log (.stepAborted fault)) before after := by
  obtain ⟨news, hnews⟩ := hcourse.accounted
  obtain ⟨hentries, -, hstands, -, hsettled, hpending⟩ := hnews
  dsimp only at hentries hstands hsettled hpending
  rw [hfault] at hpending
  obtain ⟨before, after, rfl, hbefore, hafter, hopen⟩ := hpending.split
  have hbegun : (a.begun root delta).entries
      = a.entries ++ [.stepBegan root delta] :=
    entries_log a _
  have hlogged : ({ a' with fault := none }.log (.stepAborted fault)).entries
      = a'.entries ++ [.stepAborted fault] := entries_log _ _
  have hafter' : ∀ entry ∈ after ++ [.stepAborted fault],
      entry.unwinds = true := by
    intro entry hentry
    rcases List.mem_append.1 hentry with hentry | hentry
    · exact hafter entry hentry
    · rw [List.mem_singleton.1 hentry]
      rfl
  have hrest : ∀ entry ∈ .raised fault :: after, entry.unwinds = true := by
    intro entry hentry
    rcases List.mem_cons.1 hentry with rfl | hentry
    · rfl
    · exact hafter entry hentry
  refine ⟨.stepBegan root delta :: before, after ++ [.stepAborted fault], ?_,
    ?_, hafter', ?_, fun id hid => ?_, ?_⟩
  · rw [hlogged, hentries, hbegun]
    simp only [List.append_assoc, List.cons_append, List.nil_append]
  · intro other hmem
    exact hbefore other ((List.mem_cons.1 hmem).resolve_left fun h => nomatch h)
  · rw [List.filterMap_append, ongoing, List.foldl_cons]
    exact hopen.symm
  · have hid' := hstands id hid
    rw [List.foldl_append,
      foldl_eq_self fun e he _ => stands_of_unwinds (hrest e he)] at hid'
    exact hid'
  · rw [List.foldl_append,
      foldl_eq_self fun e he _ => settles_of_unwinds (hrest e he)] at hsettled
    exact hsettled

/-- A step leaves every task in its slot with an empty inbox, and no fault
pending. If its result is a breach of some task's contract, then that was
the first one of the step, and from it on the step only came to its end. -/
theorem step_unwinds {fine : Bool} (hhistory : History fine a) {budget : Nat}
    {delta : Float32} {result : Except Fault Status}
    (hstep : step budget delta a = some (result, a')) :
    Seated a a' ∧ ∀ fault, result = .error fault → fault.isBreach = true →
      ∃ before after, Aborts fault a a' before after := by
  refine ⟨step_seated hhistory.ready.rest hstep,
    fun fault hresult hbreach => ?_⟩
  cases hroot : a.root with
  | none =>
      rw [step, hroot] at hstep
      obtain ⟨rfl, -⟩ := Prod.mk.inj (Option.some.inj hstep)
      cases hresult
      cases hbreach
  | some root =>
      obtain ⟨a₁, hcourse, hend⟩ := step_course hroot hstep
      rcases hend with ⟨-, rfl, -⟩ | ⟨found, hfault, rfl, rfl⟩
      · cases hresult
      · cases hresult
        exact aborts_of_course hcourse hfault

/-- Tasks that break their contract: the one reports twice, and the other runs
it, then a child that it does not have, and goes on as if nothing had
happened. -/
inductive Careless where
  | twice
  | beyond

instance : Behavior Unit Careless where
  name _ := "careless"
  arity
    | .twice => .leaf
    | .beyond => .many
  start task := .done task
  update
    | .twice => .report .succeeded (.report .failed (.done .twice))
    | .beyond => .runChild 0 (.runChild 7 (.report .succeeded (.done .beyond)))
  respond _ _ task := .done task
  rewind task := task

/-- A tree of such tasks. -/
def careless : Arena Unit Careless :=
  ofBlueprint (.node .beyond none [.single .twice]) () id

/-- The parent's hook is open when its child breaks the contract, and breaks
it once more before it ends. -/
theorem step_unwinds_careless :
    ∃ a', step 30 0 careless = some (.error (.secondReport ⟨2⟩ "careless"), a')
      ∧ Seated careless a'
      ∧ ∃ before after,
        Aborts (.secondReport ⟨2⟩ "careless") careless a' before after := by
  have hhistory : History true careless := (History.empty () id).setRoot rfl
  have hstep : step 30 0 careless
      = some (.error (.secondReport ⟨2⟩ "careless"), _) := rfl
  obtain ⟨hseated, haborts⟩ := step_unwinds hhistory hstep
  exact ⟨_, hstep, hseated, haborts _ rfl rfl⟩

end TaskTree.Arena
