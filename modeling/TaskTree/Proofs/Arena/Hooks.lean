/-
Running a hook to the end, one call at a time.

A task that is called leaves its slot, runs the hook, answers what its
children have reported meanwhile, and goes back. `carryOut` is that whole
stretch, from some point in a hook until the task is back in its slot, and
`attend` and `answer` are both instances of it. The rules below say what
`carryOut` settles on for each thing that a hook may do next, so that the
course of a task can be followed call by call and never needs the
definition of `perform`.
-/
import TaskTree.Proofs.Arena.Settles
import TaskTree.Proofs.Arena.View

namespace TaskTree.Arena

variable {E T : Type} [Behavior E T]

/-- Runs a hook of the task under a handle, with the task out of its slot,
and then lets it answer its inbox and puts it back. -/
def carryOut (budget : Nat) (delta : Float32) (id : TaskId)
    (hook : Hook E (Occupant T)) (a : Arena E T) : Option (Arena E T) :=
  (perform (transition budget delta id)
    (fun child => drive budget delta child (.task id)) delta id hook a).bind
      fun ended => answer budget delta id ended.1 (ended.2.log (.returned id))

variable {delta : Float32} {id : TaskId} {a a' : Arena E T}

-- =================================================== the start of a hook

/-- A call of a task in its slot runs the hook of that call. -/
theorem attend_settles {call : Call} {occupant : Occupant T}
    (hfault : a.fault = none) (hoccupant : a.occupantOf id = some occupant)
    (h : Settles (fun b => carryOut b delta id (call.hook occupant)
      ((a.vacate id).log (.called id call))) a') :
    Settles (fun b => attend b delta id call a) a' := by
  refine Settles.later ?_
  simp only [attend, isAborting, hfault, hoccupant]
  exact h

/-- A report while a fault is aborting the step is no report. -/
theorem transition_aborting {outcome : Outcome} {fault : Fault}
    (hfault : a.fault = some fault) :
    Settles (fun b => transition b delta id outcome a) a := by
  refine Settles.later ?_
  simp only [transition, isAborting, hfault]
  exact Settles.const a

-- =================================================== the parts of a hook

/-- A task reports and goes on. -/
theorem carryOut_report {outcome : Outcome} {next : Hook E (Occupant T)}
    {a₁ : Arena E T}
    (hreport : Settles (fun b => transition b delta id outcome a) a₁)
    (hnext : Settles (fun b => carryOut b delta id next a₁) a') :
    Settles (fun b => carryOut b delta id (.report outcome next) a) a' := by
  simp only [carryOut, perform, Option.bind_assoc]
  exact hreport.bind hnext

/-- A task runs a child that it has, and goes on. -/
theorem carryOut_runChild {index : Nat} {child : TaskId}
    {next : Hook E (Occupant T)} {a₁ : Arena E T}
    (hchild : (a.childrenOf id)[index]? = some child)
    (hdrive : Settles (fun b => drive b delta child (.task id) a) a₁)
    (hnext : Settles (fun b => carryOut b delta id next a₁) a') :
    Settles (fun b => carryOut b delta id (.runChild index next) a) a' := by
  simp only [carryOut, perform, hchild, Option.bind_assoc]
  exact hdrive.bind hnext

/-- A task that runs a child it does not have is at fault. -/
theorem carryOut_runChild_none {index : Nat} {next : Hook E (Occupant T)}
    (hchild : (a.childrenOf id)[index]? = none)
    (hnext : Settles (fun b => carryOut b delta id next
      (a.raise (.missingChild id (a.nameOf id) index))) a') :
    Settles (fun b => carryOut b delta id (.runChild index next) a) a' := by
  simp only [carryOut, perform, hchild]
  exact hnext

-- ===================================================== the end of a hook

/-- At the end of a hook an aborting step empties the inbox, and the task
goes back. -/
theorem carryOut_done_aborting {occupant : Occupant T} {fault : Fault}
    (hfault : a.fault = some fault) :
    Settles (fun b => carryOut b delta id (.done occupant) a)
      (((a.log (.returned id)).modify id fun s => { s with inbox := [] }).refill
        id occupant) := by
  have hended : (a.log (.returned id)).fault = some fault := hfault
  refine Settles.later ?_
  simp only [carryOut, perform, Option.bind_some, answer, takeReport, hended]
  exact Settles.const _

/-- With an empty inbox the task goes back. -/
theorem carryOut_done_empty (delta : Float32) (occupant : Occupant T)
    {s : Slot T} (hfault : a.fault = none) (hslot : a.slot? id = some s)
    (hinbox : s.inbox = []) :
    Settles (fun b => carryOut b delta id (.done occupant) a)
      (((a.log (.returned id)).modify id fun s =>
        { s with inbox := s.inbox.tail }).refill id
        occupant) := by
  have hended : (a.log (.returned id)).fault = none := hfault
  refine Settles.later ?_
  simp only [carryOut, perform, Option.bind_some, answer, takeReport, hended,
    slot?_log, hslot, hinbox, List.head?_nil]
  exact Settles.const _

/-- A task that is out of its slot answers the report in its inbox. -/
theorem answer_report (delta : Float32) (occupant : Occupant T) {s : Slot T}
    {report : Report} {rest : List Report} (hfault : a.fault = none)
    (hslot : a.slot? id = some s) (hinbox : s.inbox = report :: rest)
    (h : Settles (fun b => carryOut b delta id
      ((Call.respond report.outcome report.child).hook occupant)
      ((a.modify id fun s => { s with inbox := s.inbox.tail }).log
        (.called id (.respond report.outcome report.child)))) a') :
    Settles (fun b => answer b delta id occupant a) a' := by
  refine Settles.later ?_
  simp only [answer, takeReport, hfault, hslot, Option.bind_some, hinbox,
    List.head?_cons]
  exact h

/-- With a report in its inbox the task answers it. -/
theorem carryOut_done_answer (delta : Float32) (occupant : Occupant T)
    {s : Slot T} {report : Report} {rest : List Report}
    (hfault : a.fault = none) (hslot : a.slot? id = some s)
    (hinbox : s.inbox = report :: rest)
      (h :
        Settles (fun b =>
          carryOut b delta id
            ((Call.respond report.outcome report.child).hook occupant)
      (((a.log (.returned id)).modify id fun s =>
        { s with inbox := s.inbox.tail }).log
        (.called id (.respond report.outcome report.child)))) a') :
    Settles (fun b => carryOut b delta id (.done occupant) a) a' :=
  answer_report (a := a.log (.returned id)) delta occupant hfault hslot hinbox h

end TaskTree.Arena
