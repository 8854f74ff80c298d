/-
A wait counts every step after the one in which it is entered.

It does not matter where the wait stands, as long as it is in no guard: while
it runs, all those above it run as well and go on with it, so each step comes
to it and updates it once (`step_goesOn`). Its clock starts at its entry, and
the step of its entry is not counted, whether or not the wait has run before.

Additions and comparisons are those of the numbers themselves. Nothing is
assumed of them, so a wait for something that is no number never ends.
-/
import TaskTree.Proofs.Direct.Following

namespace TaskTree.Arena

open Direct Live

variable {E A : Type} [Deed E A] {a a' : Arena E (Stock E A)} {x : TaskId}
  {during : List Entry} {delta seconds elapsed : Float32}

/-- The clock of a wait after some steps. -/
def clock (elapsed : Float32) (ticks : List (Tick E (Stock E A))) : Float32 :=
  ticks.foldl (fun elapsed tick => elapsed + tick.delta) elapsed

/-- Where a wait stands when its clock has been set. -/
def waited (seconds elapsed : Float32) : Status :=
  if seconds ≤ elapsed then .succeeded else .running

section

variable {guard : Option (Live E A)} {children : List (Live E A)} {w : World E}
  {outcome : Outcome}

/-- A wait that is updated sets its clock on, if it runs, and reports. -/
theorem Updated.wait
    (h : Updated a a' delta during x (.wait seconds elapsed) guard
      children w outcome)
    {onward : Float32}
    (honward : onward
      = if a.statusOf x = .running then elapsed + delta else elapsed) :
    given x during = [waited seconds onward]
      ∧ a'.occupantOf x = some (.task (.wait seconds onward))
      ∧ a'.statusOf x = waited seconds onward := by
  have hgiven := h.given_eq
  have hstands := h.statusOf
  have hok := h.ok
  obtain ⟨role, hafter⟩ := h.after
  rw [work, ← honward] at hok hafter
  have hstatus :
      (if seconds ≤ onward then Outcome.succeeded else .running).status
      = waited seconds onward := apply_ite ..
  cases hok
  rw [hstatus] at hgiven hstands
  exact ⟨hgiven, hafter.occupantOf, hstands⟩

end

-- =============================================================== the steps

/-- A wait that runs is updated once in a step, and counts it. -/
theorem step_wait (h : History true a) {budget : Nat} {status : Status}
    (hstep : Arena.step budget delta a = some (.ok status, a'))
    (hduring : a'.entries = a.entries ++ during)
    (hx : a.occupantOf x = some (.task (.wait seconds elapsed)))
    (houtside : Outside a x) (hrunning : a.statusOf x = .running) :
    hooked x during = [.update]
      ∧ given x during = [waited seconds (elapsed + delta)]
      ∧ a'.occupantOf x = some (.task (.wait seconds (elapsed + delta)))
      ∧ a'.statusOf x = waited seconds (elapsed + delta) := by
  obtain ⟨hhooked, guard, children, w, outcome, -, hupdated⟩ :=
    step_goesOn h hstep hduring hx houtside hrunning
  exact ⟨hhooked, hupdated.wait (if_pos hrunning).symm⟩

/-- A wait that is entered does not count the step. -/
theorem step_entered_wait (h : History true a) {budget : Nat} {status : Status}
    (hstep : Arena.step budget delta a = some (.ok status, a'))
    (hduring : a'.entries = a.entries ++ during)
    (hx : a.occupantOf x = some (.task (.wait seconds elapsed)))
    (houtside : Outside a x) (hstart : .called x .start ∈ during) :
    hooked x during = [.start, .update] ∧ given x during = [waited seconds 0]
      ∧ a'.occupantOf x = some (.task (.wait seconds 0))
      ∧ a'.statusOf x = waited seconds 0 := by
  have hcalled : .start ∈ hooked x during :=
    List.mem_filterMap.2 ⟨_, hstart, if_pos rfl⟩
  obtain ⟨hidle, hhooked, guard, children, w, outcome, -, -, hupdated⟩ :=
    step_enters h hstep hduring hx houtside hcalled
  exact ⟨hhooked, hupdated.wait (if_neg hidle).symm⟩

/-- A wait that runs is updated in every step until it ends. By induction along
the steps in which the task still waits: each of them adds its time to what has
elapsed. -/
theorem Ticks.wait {ticks : List (Tick E (Stock E A))} (h : Ticks a ticks)
    (hhistory : History true a)
    (hx : a.occupantOf x = some (.task (.wait seconds elapsed)))
    (houtside : Outside a x) (hrunning : a.statusOf x = .running)
    {front back : List (Tick E (Stock E A))} {tick : Tick E (Stock E A)}
    (hticks : ticks = front ++ tick :: back)
    (hopen : ∀ earlier, earlier ≠ [] → earlier <+: front →
      ¬ seconds ≤ clock elapsed earlier) :
    hooked x tick.during = [.update]
      ∧ given x tick.during
        = [waited seconds (clock elapsed (front ++ [tick]))] := by
  subst hticks
  induction front generalizing a elapsed with
  -- This step is the one that was asked for.
  | nil =>
      obtain ⟨board, listeners, journal, b, budget, status, rfl, hb, hstep,
        hentries, -, -, hkeeps⟩ :=
        h.first hhistory
      obtain ⟨hhooked, hgiven, -⟩ :=
        step_wait hb hstep hentries hx (hkeeps x houtside).1 hrunning
      exact ⟨hhooked, hgiven⟩
  -- The first step is too short, so the task is running and the rest of the
  -- steps starts from there.
  | cons first front ih =>
      obtain ⟨board, listeners, journal, b, budget, status, rfl, hb, hstep,
        hentries, hlater, hafter, hkeeps⟩ := h.first hhistory
      obtain ⟨hfree, hstill⟩ := hkeeps x houtside
      obtain ⟨-, -, hnext, hstatus⟩ :=
        step_wait hb hstep hentries hx hfree hrunning
      have hearly : ¬ seconds ≤ elapsed + first.delta :=
        hopen [first] (List.cons_ne_nil _ _) (List.prefix_append [first] front)
      rw [waited, if_neg hearly] at hstatus
      refine ih hafter hnext hstill hstatus (fun earlier _ hprefix => ?_) hlater
      exact hopen (first :: earlier) (List.cons_ne_nil _ _)
        (List.cons_prefix_cons.2 ⟨rfl, hprefix⟩)

/-- Whatever happened to a tree of stock tasks: a wait that stands in no guard
and is entered in a step does not count that step, and counts every later one
once, until its time is up. -/
theorem Ticks.wait_counts {first : Tick E (Stock E A)}
    {ticks : List (Tick E (Stock E A))} (hhistory : History true a)
    (hx : a.occupantOf x = some (.task (.wait seconds elapsed)))
    (houtside : Outside a x) (h : Ticks a (first :: ticks))
    (hstart : .called x .start ∈ first.during) :
    (hooked x first.during = [.start, .update]
        ∧ given x first.during = [waited seconds 0])
      ∧ ∀ front tick back, ticks = front ++ tick :: back →
        (∀ earlier, earlier <+: front → ¬ seconds ≤ clock 0 earlier) →
          hooked x tick.during = [.update]
            ∧ given x tick.during
              = [waited seconds (clock 0 (front ++ [tick]))] := by
  obtain ⟨board, listeners, journal, b, budget, status, rfl, hb, hstep,
    hentries, hlater, hafter, hkeeps⟩ := h.first hhistory
  obtain ⟨hfree, hstill⟩ := hkeeps x houtside
  obtain ⟨hhooked, hgiven, hnext, hstatus⟩ :=
    step_entered_wait hb hstep hentries hx hfree hstart
  refine ⟨⟨hhooked, hgiven⟩, fun front tick back hticks hopen => ?_⟩
  have hearly : ¬ seconds ≤ 0 := hopen [] (List.nil_prefix ..)
  rw [waited, if_neg hearly] at hstatus
  exact hlater.wait hafter hnext hstill hstatus hticks fun earlier _ =>
    hopen earlier

/-- A wait in a sequence, below a second choice. -/
def delayed : Arena Nat (Stock Nat Patience) :=
  ofBlueprint (.node (.selector 0) none [.single .failure,
    .node .invert none
      [.node (.sequence 0) none [.single .success, .single (.waits 0.5)]]])
    0 fun roll => roll

/-- A long step and two short ones. -/
theorem delayed_ticks :
    ∃ first second third :
    Tick Nat (Stock Nat Patience), Ticks delayed [first, second, third]
      ∧ [first.delta, second.delta, third.delta] = [1, 0.25, 0.25]
      ∧ .called ⟨6⟩ .start ∈ first.during := by
  have hhistory : History true delayed :=
    (History.empty 0 fun roll => roll).setRoot rfl
  have hsteps :
      ((Arena.step 30 1 delayed).bind fun r =>
        (Arena.step 30 0.25 r.2).bind fun r' =>
        (Arena.step 30 0.25 r'.2).map fun r'' =>
        (r.1.toOption, r'.1.toOption, r''.1.toOption,
        decide (.called ⟨6⟩ .start ∈ r.2.entries.drop delayed.entries.length)))
      = some (some .running, some .running, some .failed, true) := by
    decide +kernel
  -- The steps are taken one after the other. The third one fails, since the
  -- wait has succeeded and is inverted.
  obtain ⟨⟨result, a⟩, hfirst, hsteps⟩ := Option.bind_eq_some_iff.1 hsteps
  obtain ⟨⟨result', a'⟩, hsecond, hsteps⟩ := Option.bind_eq_some_iff.1 hsteps
  obtain ⟨⟨result'', a''⟩, hthird, hshown⟩ := Option.map_eq_some_iff.1 hsteps
  simp only [Prod.mk.injEq, decide_eq_true_eq] at hshown
  obtain ⟨hresult, hresult', hresult'', hstart⟩ := hshown
  rw [ok_of_toOption hresult] at hfirst
  rw [ok_of_toOption hresult'] at hsecond
  rw [ok_of_toOption hresult''] at hthird
  have hafter := hhistory.step hfirst
  exact ⟨_, _, _, .of_step hhistory hfirst (.of_step hafter hsecond
    (.of_step (hafter.step hsecond) hthird (.stop a''))), rfl, hstart⟩

/-- It is entered in the long step, and then takes the two short ones. -/
theorem wait_counts_delayed :
    ∃ first second third :
    Tick Nat (Stock Nat Patience), Ticks delayed [first, second, third]
      ∧ [first.delta, second.delta, third.delta] = [1, 0.25, 0.25]
      ∧ .called ⟨6⟩ .start ∈ first.during
      ∧ (hooked ⟨6⟩ first.during = [.start, .update]
        ∧ given ⟨6⟩ first.during = [.running])
      ∧ (hooked ⟨6⟩ second.during = [.update]
        ∧ given ⟨6⟩ second.during = [.running])
      ∧ hooked ⟨6⟩ third.during = [.update]
      ∧ given ⟨6⟩ third.during = [.succeeded] := by
  have hhistory : History true delayed :=
    (History.empty 0 fun roll => roll).setRoot rfl
  have hwait : delayed.occupantOf ⟨6⟩ = some (.task (.wait 0.5 0)) := rfl
  have houtside : Outside delayed ⟨6⟩ :=
    outside_of_unguarded (by decide +kernel) _
  obtain ⟨first, second, third, hticks, hdeltas, hstart⟩ := delayed_ticks
  obtain ⟨-, hsecond, hthird⟩ : first.delta = 1 ∧ second.delta = 0.25
      ∧ third.delta = 0.25 := by
    simpa only [List.cons.injEq, and_true] using hdeltas
  obtain ⟨⟨hcalled, hgiven⟩, hcounts⟩ :=
    Ticks.wait_counts hhistory hwait houtside hticks hstart
  -- The entry step is longer than the whole wait and does not count.
  have hshort : ¬ (0.5 : Float32)
      ≤ clock 0 ([] : List (Tick Nat (Stock Nat Patience))) := by
    decide +kernel
  -- One quarter is not enough.
  have hlong : ¬ (0.5 : Float32) ≤ clock 0 [second] := by
    rw [clock, List.foldl_cons, List.foldl_nil, hsecond]
    decide +kernel
  -- Two are.
  have henough : (0.5 : Float32) ≤ clock 0 [second, third] := by
    rw [clock, List.foldl_cons, List.foldl_cons, List.foldl_nil, hsecond,
      hthird]
    decide +kernel
  obtain ⟨hcalled', hgiven'⟩ :=
    hcounts [] second [third] rfl fun earlier hearlier => by
      rw [List.prefix_nil.1 hearlier]
      exact hshort
  obtain ⟨hcalled'', hgiven''⟩ :=
    hcounts [second] third [] rfl fun earlier hearlier => by
      rcases List.prefix_cons_iff.1 hearlier with rfl | ⟨rest, rfl, hrest⟩
      · exact hshort
      · rw [List.prefix_nil.1 hrest]
        exact hlong
  refine ⟨first, second, third, hticks, hdeltas, hstart,
    ⟨hcalled, hgiven.trans ?_⟩, ⟨hcalled', hgiven'.trans ?_⟩, hcalled'',
    hgiven''.trans ?_⟩
  · exact congrArg ([·]) (if_neg hshort)
  · exact congrArg ([·]) (if_neg hlong)
  · exact congrArg ([·]) (if_pos henough)

end TaskTree.Arena
