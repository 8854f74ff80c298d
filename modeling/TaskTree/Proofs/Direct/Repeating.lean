/-
A repetition lasts for as many runs of its child as it has drawn.

It draws its number when it is entered, and what remains of the number is the
number less the runs of the child that have ended since (`Lap`). So the
number is never passed, whatever the child does, and a negative one is never
touched. A child that its guard turns away has failed, and that is a run of
the child, too.

How often a task sets out and how often it comes to an end are told apart: it
sets out when it has a turn and is not running (`afresh`), and it comes to an
end when it is given such a status (`completions`). The two differ by the run
that it is in, which holds of every task in every step (`step_rounds`).
-/
import TaskTree.Proofs.Direct.Following

namespace TaskTree

-- ============================================================= the numbers

/-- Counts compare as the integers they stand for. -/
theorem toInt_pos {left : Int64} : 0 < left ↔ 0 < left.toInt :=
  Int64.lt_iff_toInt_lt

/-- And a count is zero when its integer is. -/
theorem toInt_eq_zero {left : Int64} : left = 0 ↔ left.toInt = 0 :=
  Int64.toInt_inj.symm

/-- A number above zero may be lowered. -/
theorem toInt_sub_one {left : Int64} (h : 0 < left.toInt) :
    (left - 1).toInt = left.toInt - 1 := by
  have hlow := Int64.le_toInt left
  have hhigh := Int64.toInt_lt left
  rw [Int64.toInt_sub, Int64.toInt_one]
  exact Int.bmod_eq_of_le (by omega) (by omega)

/-- Where nothing is drawn, the number is known. -/
theorem RepeatCount.draw_eq {count : RepeatCount} (h : count.isRandom = false)
    (roll roll' : Nat) :
    count.draw roll = count.draw roll' := by
  cases count with
  | fixed times => rfl
  | uniform low high =>
      have hle : high ≤ low := Int64.not_lt.1 (of_decide_eq_false h)
      rw [draw, if_pos hle, draw, if_pos hle]

namespace Arena

open Direct Live

-- ============================================================== the rounds

/-- How often a task comes to an end, one way or the other. -/
def completions (id : TaskId) (news : List Entry) : Nat :=
  (given id news).countP Status.isTerminal

/-- How often a task has a turn while it is not running. It stands at the given
status before. -/
def afresh (id : TaskId) : Status → List Entry → Nat
  | _, [] => 0
  | status, entry :: news =>
    (if entry = .turnBegan id ∧ status ≠ .running then 1 else 0)
      + afresh id (entry.stands id status) news

section

variable {id : TaskId} {news later : List Entry}

/-- Completions add up over two stretches. -/
theorem completions_append (id : TaskId) (news later : List Entry) :
    completions id (news ++ later)
      = completions id news + completions id later := by
  rw [completions, given_append, List.countP_append]
  rfl

/-- So do the entries afresh, the second stretch beginning with the status that
the first one left. -/
theorem afresh_append (id : TaskId) (status : Status)
    (news later : List Entry) :
    afresh id status (news ++ later)
      = afresh id status news
        + afresh id (news.foldl (Entry.stands id) status) later := by
  induction news generalizing status with
  | nil => exact (Nat.zero_add _).symm
  | cons entry news ih =>
      rw [List.cons_append, afresh, afresh, ih, Nat.add_assoc]
      rfl

/-- Without a turn nothing is entered. -/
theorem afresh_eq_zero (h : .turnBegan id ∉ news) (status : Status) :
    afresh id status news = 0 := by
  induction news generalizing status with
  | nil => rfl
  | cons entry news ih =>
      obtain ⟨hentry, hnews⟩ := not_or.1 (mt List.mem_cons.2 h)
      rw [afresh, if_neg fun hturn => hentry hturn.1.symm, ih hnews]

/-- Without a turn among the doings none begins. -/
theorem not_begun_of_doings (h : .turn ∉ doings id news) :
    .turnBegan id ∉ news := fun hmem =>
  h (List.mem_filterMap.2 ⟨_, hmem, if_pos rfl⟩)

/-- A task that has one turn, and is given one status in it. -/
theorem afresh_add (hfit : (doings id news).Sublist Doing.all)
    (hturn : .turnBegan id ∈ news ∧ given id news ≠ [] ∨ Absent id news)
    (hfresh : .fresh ∉ given id news) (status : Status) :
    afresh id status news + (if status = .running then 1 else 0)
      = completions id news
        + (if news.foldl (Entry.stands id) status = .running then 1
            else 0) := by
  rw [foldl_stands, completions]
  -- The task has one turn and is given one status in it, or it has no part.
  rcases hturn with ⟨hturn, hset⟩ | habsent
  · have hone : (given id news).length ≤ 1 := by
      rw [length_given, ← count_doings_set]
      exact hfit.count_le .set
    obtain ⟨current, hcurrent⟩ : ∃ current, given id news = [current] :=
      List.length_eq_one_iff.1
        (Nat.le_antisymm hone (List.length_pos_of_ne_nil hset))
    -- Nothing is given to it before the turn, so it is entered with the status
    -- of before; and no turn follows.
    obtain ⟨before, rest, rfl⟩ := List.append_of_mem hturn
    have hbefore : doings id before = [] := doings_before hfit
    rw [doings_append, hbefore, doings_cons_own rfl] at hfit
    have hrest : .turn ∉ doings id rest := fun hmem =>
      absurd ((List.cons_sublist_cons.1 hfit).mem hmem) (by decide)
    have hstood : before.foldl (Entry.stands id) status = status := by
      rw [foldl_stands, given_eq_nil_of_doings hbefore]
      rfl
    have hfirst : .turnBegan id ∉ before := by
      refine not_begun_of_doings ?_
      rw [hbefore]
      exact List.not_mem_nil
    rw [afresh_append, afresh_eq_zero hfirst, hstood, afresh,
      afresh_eq_zero (not_begun_of_doings hrest), hcurrent]
    rw [hcurrent] at hfresh
    -- It was running or is entered afresh, and ends or is running afterwards:
    -- the sums agree in all cases.
    by_cases hrunning : status = .running
    all_goals cases current with
    | fresh => exact absurd List.mem_cons_self hfresh
    | running | succeeded | failed => simp [hrunning, Status.isTerminal]
  · rw [habsent.given]
    have hunbegun : .turnBegan id ∉ news := fun hmem => habsent _ hmem rfl
    rw [afresh_eq_zero hunbegun]
    rfl

end

section

variable {E A : Type} [Deed E A] {a a' : Arena E (Stock E A)} {x : TaskId}
  {during : List Entry}

/-- In a step a task comes to an end as often as it sets out, apart from the run
that it was in before and the one that it is in after. -/
theorem step_rounds {fine : Bool} (h : History fine a) {budget : Nat}
    {delta : Float32} {status : Status}
    (hstep : Arena.step budget delta a = some (.ok status, a'))
    (hduring : a'.entries = a.entries ++ during) (hx : x ≠ .evaluator)
    (hslot : (a.slot? x).isSome = true) :
    afresh x (a.statusOf x) during + (if a.statusOf x = .running then 1 else 0)
      = completions x during + (if a'.statusOf x = .running then 1 else 0) := by
  obtain ⟨hfresh, hstands⟩ := step_account h hstep hduring hslot
  rw [hstands]
  exact afresh_add (step_fits h hstep hduring x)
    (step_begun h hstep hduring hx) hfresh _

/-- All that the journal says of some steps. -/
def happened {T : Type} (ticks : List (Tick E T)) : List Entry :=
  ticks.flatMap (·.during)

omit [Deed E A] in
/-- What happened in several steps happened in the first and then in the
others. -/
theorem happened_cons {T : Type} (tick : Tick E T) (ticks : List (Tick E T)) :
    happened (tick :: ticks) = tick.during ++ happened ticks :=
  List.flatMap_cons

omit [Deed E A] in
/-- What happened in one step. -/
theorem happened_singleton {T : Type} (tick : Tick E T) :
    happened [tick] = tick.during :=
  List.append_nil _

omit [Deed E A] in
/-- The completions of the last step come on top. -/
theorem completions_concat {T : Type} (id : TaskId) (ticks : List (Tick E T))
    (tick : Tick E T) :
    completions id (happened (ticks ++ [tick]))
      = completions id (happened ticks) + completions id tick.during := by
  rw [happened, List.flatMap_append, completions_append, ← happened, ← happened,
    happened_singleton]

/-- The same of some steps, one after another. By induction along the steps: the
last status of one is the first of the next, so the terms between cancel out. -/
theorem Ticks.rounds {ticks : List (Tick E (Stock E A))} (h : Ticks a ticks)
    (hhistory : History true a) (hx : x ≠ .evaluator)
    (hslot : (a.slot? x).isSome = true) {front back : List (Tick E (Stock E A))}
    {tick : Tick E (Stock E A)} (hticks : ticks = front ++ tick :: back) :
    afresh x (a.statusOf x) (happened (front ++ [tick]))
      + (if a.statusOf x = .running then 1 else 0)
      = completions x (happened (front ++ [tick]))
        + (if tick.after.statusOf x = .running then 1 else 0) := by
  subst hticks
  induction front generalizing a with
  | nil =>
      obtain ⟨board, listeners, journal, b, budget, status, rfl, hb, hstep,
        hentries, -⟩ :=
        h.first hhistory
      have hround := step_rounds hb hstep hentries hx hslot
      rw [List.nil_append, happened_singleton]
      exact hround
  | cons first front ih =>
      obtain ⟨board, listeners, journal, b, budget, status, rfl, hb, hstep,
        hentries, hlater, hafter, -⟩ :=
        h.first hhistory
      have hslot' : (first.after.slot? x).isSome = true :=
        ((step_seated hb.ready.rest hstep).links.isSome x).trans hslot
      have hround := step_rounds hb hstep hentries hx hslot
      have hstands := (step_account hb hstep hentries hslot).2.symm
      change afresh x (a.statusOf x) first.during
        + (if a.statusOf x = .running then 1 else 0)
          = completions x first.during
            + (if first.after.statusOf x = .running then 1 else 0) at hround
      change first.during.foldl (Entry.stands x) (a.statusOf x)
        = first.after.statusOf x at hstands
      have hrest := ih hafter hslot' hlater
      rw [List.cons_append, happened_cons, afresh_append, completions_append,
        hstands]
      omega

end

-- ============================================================ the repetition

/-- What a repetition reports, by what is left of its number. -/
def ends (left : Int64) : Status := if left = 0 then .succeeded else .running

/-- What is left of a number after some runs of the child. -/
def remaining (left : Int64) (ended : Nat) : Int :=
  if 0 < left then left.toInt - ended else left.toInt

section

variable {E A : Type} {a a' : Arena E (Stock E A)} {r c : TaskId}
  {tick : Tick E (Stock E A)} {count : RepeatCount} {left : Int64}

/-- A step in which a repetition runs its child. It had `left` runs to go, and
`ended` have ended since. -/
inductive Repeated (tick : Tick E (Stock E A)) (r c : TaskId)
    (count : RepeatCount) (left : Int64) (ended : Nat) : Prop where
  | intro {passed : Outcome} {left' : Int64}
      (turn : given c tick.during = [passed.status])
      (rests : tick.after.statusOf c = passed.status)
      (task : tick.after.occupantOf r = some (.task (.repeating count left')))
      (counts : left'.toInt = remaining left ended)
      (gives : given r tick.during = [ends left'])
      (stands : tick.after.statusOf r = ends left')

/-- A step in which a repetition is updated with `left` runs to go. -/
inductive Lap (tick : Tick E (Stock E A)) (r c : TaskId) (count : RepeatCount)
    (left : Int64) :
    Prop where
  | spent (zero : left = 0) (gives : given r tick.during = [.succeeded])
      (silent : given c tick.during = [])
  | driven (unspent : left ≠ 0)
      (repeated : Repeated tick r c count left (completions c tick.during))

/-- How a repetition takes what its child reports. -/
theorem passOn_repeating (passed : Outcome) (count : RepeatCount)
    (hleft : left ≠ 0) :
    ∃ left', (passOn passed (.repeating count left : Stock E A)).2
      = .repeating count left'
      ∧ (passOn passed (.repeating count left : Stock E A)).1.status
        = ends left'
      ∧ left'.toInt = remaining left
        ([passed.status].countP Status.isTerminal) := by
  -- The report of the repeater is the end of its count.
  have hended : ∀ left' : Int64,
      (if left' = 0 then Outcome.succeeded else .running).status = ends left' :=
    fun _ => apply_ite ..
  have hless : (if 0 < left then left - 1 else left).toInt
      = remaining left 1 := by
    rw [remaining]
    split
    · rename_i hpos
      exact toInt_sub_one (toInt_pos.1 hpos)
    · rfl
  -- A child that is running leaves the count alone; one that has ended lowers
  -- it, unless it is negative.
  cases passed with
  | running =>
      refine ⟨left, rfl, (if_neg hleft).symm, ?_⟩
      rw [remaining]
      split
      · exact (Int.sub_zero _).symm
      · rfl
  | succeeded | failed => exact ⟨_, rfl, hended _, hless⟩

variable [Deed E A] {during : List Entry} {delta : Float32}
  {guard : Option (Live E A)} {children : List (Live E A)} {w : World E}
  {outcome : Outcome}

/-- A decorator that is updated has nothing left to run its child for, or it
runs its child and passes on what that reports. The first child is the one that
the update drives; without children there is none. -/
theorem Updated.single {task : Stock E A}
    (h : Updated a a' delta during r task guard children w outcome)
    (hsingle : task.arity = .single)
    (hchild : (a.childrenOf r).head? = some c) :
    isSpent task = true ∧ outcome = .succeeded ∧ given c during = []
      ∨ isSpent task = false ∧ ∃ passed, outcome = (passOn passed task).1
        ∧ given c during = [passed.status] ∧ a'.statusOf c = passed.status
        ∧ a'.occupantOf r = some (.task (passOn passed task).2) := by
  have hsilent := h.silent
  have hok := h.ok
  have htells := h.tells
  obtain ⟨role, hafter⟩ := h.after
  rw [work_single _ _ _ _ _ _ hsingle] at hok hafter htells
  rw [h.links] at hchild
  cases children with
  | nil => cases hchild
  | cons child rest =>
      obtain rfl : child.id = c := Option.some.inj hchild
      have hmem : child.id ∈ r :: allIds (child :: rest) :=
        List.mem_cons_of_mem _ (List.mem_append_left _ (id_mem_ids child))
      have hne : r ≠ child.id := fun heq =>
        h.apart.1 (heq ▸ List.mem_append_left _ (id_mem_ids child))
      -- The decorator's own report is no news of its child.
      have hpasses : ∀ (w : World E) name previous status,
          (w.tell (.status r name previous status)).given child.id
            = w.given child.id := by
        intro w name previous status
        rw [given_tell, Notice.given?, if_neg hne]
        exact List.append_nil _
      -- A spent decorator does not drive it.
      cases hspent : isSpent task with
      | true =>
          rw [hspent] at hok htells
          cases hok
          refine .inl ⟨rfl, rfl, (htells _ hmem).symm.trans ?_⟩
          exact (hpasses ..).trans (hsilent _ hmem)
      | false =>
          rw [hspent] at hok hafter htells
          dsimp only [Bool.false_eq_true, if_false] at hok hafter htells
          -- What the turn gives the child is what it makes the decorator
          -- report.
          cases hturn : (turn delta child w).result with
          | error fault =>
              rw [hturn] at hok
              cases hok
          | ok passed =>
              rw [hturn] at hok hafter htells
              cases hok
              refine .inr ⟨rfl, passed, rfl, (htells _ hmem).symm.trans ?_, ?_,
                hafter.occupantOf⟩
              · refine (hpasses ..).trans
                  ((turn_given (List.nodup_append.1 h.apart.2).1 hturn).trans
                    ?_)
                rw [hsilent _ hmem]
                rfl
              · obtain ⟨role, hpart⟩ :=
                  hafter.part (.child List.mem_cons_self .self)
                rw [← turn_status hturn, ← hpart.statusOf, turn_id]

/-- What a repetition does when it is updated. -/
theorem Updated.repeating
    (h : Updated a a' delta during r (.repeating count left) guard
      children w outcome)
    (hchild : (a.childrenOf r).head? = some c) :
    Lap ⟨delta, during, a'⟩ r c count left := by
  have hgives := h.given_eq
  have hstands := h.statusOf
  rcases h.single rfl hchild with ⟨hspent, rfl, hsilent⟩ |
      ⟨hunspent, passed, rfl, hturn, hrests, htask⟩
  · exact .spent (of_decide_eq_true hspent) hgives hsilent
  · have hleft : left ≠ 0 := of_decide_eq_false hunspent
    obtain ⟨left', htask', hstatus, hcounts⟩ :=
      passOn_repeating (E := E) (A := A) passed count hleft
    rw [htask'] at htask
    rw [hstatus] at hgives hstands
    refine .driven hleft (.intro hturn hrests htask ?_ hgives hstands)
    rw [hcounts, completions, hturn]

-- =============================================================== the steps

omit [Deed E A] in
/-- A repetition that is entered draws its number. -/
theorem enter_repeating (w : World E) (count : RepeatCount) (left : Int64) :
    ∃ i, w.rolled ≤ i
      ∧ (count.isRandom = true →
        i < (enter w (.repeating count left : Stock E A)).2.rolled)
      ∧ (enter w (.repeating count left : Stock E A)).1
        = .repeating count (count.draw (w.dice i)) := by
  refine ⟨w.rolled, Nat.le_refl _, ?_⟩
  rw [enter]
  cases hrandom : count.isRandom with
  | true => exact ⟨fun _ => Nat.lt_succ_self _, rfl⟩
  | false =>
      refine ⟨fun h => absurd h Bool.false_ne_true, ?_⟩
      rw [if_neg Bool.false_ne_true, RepeatCount.draw_eq hrandom 0]

section

variable {budget : Nat} {status : Status} (h : History true a)
  (hstep : Arena.step budget tick.delta a = some (.ok status, tick.after))
  (hduring : tick.after.entries = a.entries ++ tick.during)
  (hr : a.occupantOf r = some (.task (.repeating count left)))
  (houtside : Outside a r) (hchild : (a.childrenOf r).head? = some c)

include h hstep hduring hr houtside hchild

/-- A repetition that runs has something left and runs its child. -/
theorem step_repeats (hrunning : a.statusOf r = .running) :
    Repeated tick r c count left (completions c tick.during) := by
  obtain ⟨-, guard, children, w, outcome, hchained, hupdated⟩ :=
    step_goesOn h hstep hduring hr houtside hrunning
  -- The repeater is running on the chain, so turns are left.
  have hleft : left ≠ 0 := by
    obtain ⟨task, htask⟩ : ∃ task, task = (.repeating count left : Stock E A) :=
      ⟨_, rfl⟩
    rw [← htask] at hchained
    cases hchained with
    | calm rest => exact absurd rfl (calm_node.1 rest).1
    | composite composite => cases composite <;> cases htask
    | single _ unspent =>
        rw [htask] at unspent
        exact of_decide_eq_false unspent
    | leaf leaf =>
        rw [htask] at leaf
        cases leaf
  -- An unspent repeater drives its child in every update.
  cases hupdated.repeating hchild with
  | spent hzero => exact absurd hzero hleft
  | driven _ hrepeated => exact hrepeated

/-- A repetition that is entered draws a number and is updated with it. Its
child does not run before. -/
theorem step_draws (hstart : .called r .start ∈ tick.during) :
    a.statusOf c ≠ .running
      ∧ ∃ i, a.rolled ≤ i ∧ (count.isRandom = true → i < tick.after.rolled)
        ∧ Lap tick r c count (count.draw (a.dice i)) := by
  have hcalled : .start ∈ hooked r tick.during :=
    List.mem_filterMap.2 ⟨_, hstart, if_pos rfl⟩
  -- The start is that of an entered task, and the draw belongs to it.
  obtain ⟨hidle, -, guard, children, w, outcome, hdice, hrolled, hupdated⟩ :=
    step_enters h hstep hduring hr houtside hcalled
  obtain ⟨i, hfrom, hto, htask⟩ := enter_repeating (A := A) w count left
  rw [htask, hdice] at hupdated
  refine ⟨?_, i, Nat.le_trans hrolled hfrom, fun hrandom => ?_,
    hupdated.repeating hchild⟩
  -- The child did not run before, for the repeater did not.
  · rw [hupdated.links, List.head?_map] at hchild
    obtain ⟨child, hhead, rfl⟩ := Option.map_eq_some_iff.1 hchild
    have hmem := List.mem_of_head? hhead
    rw [(hupdated.beneath child hmem).statusOf]
    exact hupdated.calm hidle child hmem
  · have hspares := work_minds (fun c _ => minds tick.delta c) hupdated.ok
    exact Nat.lt_of_lt_of_le (hto hrandom)
      (Nat.le_trans hspares.rolled hupdated.spent)

end

-- ================================================================ the runs

omit [Deed E A] in
/-- Until the number is reached there is something left. -/
theorem unspent_of_open {left left' : Int64} {ended : Nat} (hleft : left ≠ 0)
    (hcounts : left'.toInt = remaining left ended)
    (hopen : 0 < left → (ended : Int) < left.toInt) :
    left' ≠ 0 ∧ (0 < left' ↔ 0 < left)
      ∧ ∀ later, remaining left' later = remaining left (ended + later) := by
  unfold remaining at hcounts ⊢
  simp only [ne_eq, toInt_eq_zero, toInt_pos] at *
  split at hcounts
  · have hless := hopen ‹_›
    refine ⟨by omega, by omega, fun later => ?_⟩
    rw [if_pos (by omega), if_pos (by omega)]
    omega
  · refine ⟨by omega, by omega, fun later => ?_⟩
    rw [if_neg (by omega), if_neg (by omega)]
    exact hcounts

/-- A repetition runs its child in every step until its number is reached. By
induction along the steps before the last one, with the count that is left
general. -/
theorem Ticks.repeated {first : Tick E (Stock E A)}
    {ticks : List (Tick E (Stock E A))} (h : Ticks first.after ticks)
    (hhistory : History true first.after) (houtside : Outside first.after r)
    (hchild : (first.after.childrenOf r).head? = some c)
    (hfirst : Repeated first r c count left (completions c first.during))
    (hleft : left ≠ 0) {front back : List (Tick E (Stock E A))}
    (hticks : first :: ticks = front ++ tick :: back)
    (hopen : 0 < left → (completions c (happened front) : Int) < left.toInt) :
    Repeated tick r c count left
      (completions c (happened (front ++ [tick]))) := by
  induction front generalizing first ticks left with
  | nil =>
      obtain ⟨rfl, -⟩ := List.cons.inj hticks
      rw [List.nil_append, happened_singleton]
      exact hfirst
  | cons earlier front ih =>
      -- The first step has completed some; the target is not reached yet, so
      -- the count is not used up and keeps its sign.
      obtain ⟨rfl, hsplit⟩ : first = earlier ∧ ticks = front ++ tick :: back :=
        List.cons.inj hticks
      obtain @⟨_, left', -, -, htask, hcounts, -, hstands⟩ := hfirst
      rw [happened_cons, completions_append] at hopen
      obtain ⟨hleft', hpos, honward⟩ :=
        unspent_of_open hleft hcounts fun hpos => by
          have := hopen hpos
          omega
      obtain ⟨second, rest, rfl⟩ : ∃ second rest, ticks = second :: rest := by
        rw [hsplit]
        exact List.exists_cons_of_ne_nil
          (List.append_ne_nil_of_right_ne_nil _ (List.cons_ne_nil _ _))
      obtain ⟨board, listeners, journal, b, budget, status, rfl, hb, hstep,
        hentries, hlater, hafter, hkeeps⟩ := h.first hhistory
      obtain ⟨hfree, hstill⟩ := hkeeps r houtside
      have hlinks := (step_seated hb.ready.rest hstep).links.childrenOf r
      have hsecond := step_repeats hb hstep hentries htask hfree hchild
        (hstands.trans (if_neg hleft'))
      -- What is left to do is less by what this step has completed.
      have hless : 0 < left' →
          (completions c (happened front) : Int) < left'.toInt := by
        intro hpos'
        have hearlier := hopen (hpos.1 hpos')
        rw [hcounts, remaining, if_pos (hpos.1 hpos')]
        omega
      obtain ⟨hturn, hrests, htask', hcounts', hgives, hstands'⟩ :=
        ih hlater hafter hstill (hlinks ▸ hchild) hsecond hleft' hsplit hless
      refine .intro hturn hrests htask' ?_ hgives hstands'
      rw [List.cons_append, happened_cons, completions_append, ← honward]
      exact hcounts'

section

variable {ended : Nat} (h : Repeated tick r c count left ended)

include h

omit [Deed E A]

/-- In one step one run of the child can end. -/
theorem Repeated.completions_le : completions c tick.during ≤ 1 := by
  obtain ⟨hturn, -⟩ := h
  rw [completions, hturn]
  exact List.countP_le_length

/-- Where a run of the child ends, the child does not run on. -/
theorem Repeated.rests (hended : 0 < completions c tick.during) :
    tick.after.statusOf c ≠ .running := by
  obtain ⟨hturn, hrests, -⟩ := h
  rw [completions, hturn] at hended
  intro hrunning
  rw [← hrests, hrunning] at hended
  exact absurd hended (by decide)

/-- A number above zero is counted down to zero. -/
theorem Repeated.counted (hpos : 0 < left) :
    ∃ left', tick.after.occupantOf r = some (.task (.repeating count left'))
      ∧ left'.toInt = left.toInt - ended
      ∧ (∃ status, given c tick.during = [status])
      ∧ given r tick.during
        = [if (ended : Int) = left.toInt then .succeeded else .running] := by
  obtain @⟨passed, left', hturn, -, htask, hcounts, hgives, -⟩ := h
  rw [remaining, if_pos hpos] at hcounts
  refine ⟨left', htask, hcounts, ⟨_, hturn⟩, ?_⟩
  rw [hgives, ends]
  refine congrArg ([·]) (if_congr ?_ rfl rfl)
  rw [toInt_eq_zero, hcounts]
  omega

/-- A negative number is left as it is. -/
theorem Repeated.endless (hneg : left < 0) :
    tick.after.occupantOf r = some (.task (.repeating count left))
      ∧ (∃ status, given c tick.during = [status])
      ∧ given r tick.during = [.running] := by
  obtain @⟨passed, left', hturn, -, htask, hcounts, hgives, -⟩ := h
  have hnot : ¬ 0 < left := Int64.not_lt.2 (Int64.le_of_lt hneg)
  rw [remaining, if_neg hnot] at hcounts
  obtain rfl := Int64.toInt_inj.1 hcounts
  have hleft : left' ≠ 0 := fun hzero => absurd (hzero ▸ hneg) (by decide)
  exact ⟨htask, ⟨_, hturn⟩, hgives.trans (congrArg ([·]) (if_neg hleft))⟩

end

/-- Whatever happened to a tree of stock tasks: a repetition that stands in no
guard and is entered draws a number. If that is zero, the repetition succeeds at
once and its child has no part in the step. If it is positive, the child has a
turn in every step until as many of its runs have ended, the repetition succeeds
in the step in which the last of them ends, and the child has set out as often
by then. If it is negative, the repetition runs on without end. -/
theorem Ticks.repeats_exactly {first : Tick E (Stock E A)}
    {ticks : List (Tick E (Stock E A))} (hhistory : History true a)
    (hr : a.occupantOf r = some (.task (.repeating count left)))
    (houtside : Outside a r) (hchild : (a.childrenOf r).head? = some c)
    (h : Ticks a (first :: ticks)) (hstart : .called r .start ∈ first.during) :
    ∃ n, (∃ i, n = count.draw (a.dice i) ∧ a.rolled ≤ i
        ∧ (count.isRandom = true → i < first.after.rolled))
      ∧ (n = 0 → given r first.during = [.succeeded] ∧ Absent c first.during)
      ∧ (0 < n → ∀ front tick back, first :: ticks = front ++ tick :: back →
          (completions c (happened front) : Int) < n.toInt →
          ∃ ended left, ended = completions c (happened (front ++ [tick]))
            ∧ (ended : Int) ≤ n.toInt
            ∧ tick.after.occupantOf r = some (.task (.repeating count left))
            ∧ left.toInt = n.toInt - ended
            ∧ (∃ status, given c tick.during = [status])
            ∧ given r tick.during
              = [if (ended : Int) = n.toInt then .succeeded else .running]
            ∧ ((ended : Int) = n.toInt →
                afresh c (a.statusOf c) (happened (front ++ [tick])) = ended))
      ∧ (n < 0 → ∀ tick ∈ first :: ticks,
          tick.after.occupantOf r = some (.task (.repeating count n))
            ∧ (∃ status, given c tick.during = [status])
            ∧ given r tick.during = [.running]) := by
  -- The first step draws the count, and the laps of the others follow from it.
  obtain ⟨board, listeners, journal, b, budget, status, rfl, hb, hstep,
    hentries, hlater, hafter, hkeeps⟩ := h.first hhistory
  obtain ⟨hfree, hstill⟩ := hkeeps r houtside
  have hmem : c ∈ a.childrenOf r := List.mem_of_head? hchild
  have hne : c ≠ .evaluator := hhistory.ready.wired.child_ne hmem
  have hslot : (a.slot? c).isSome = true := by
    obtain ⟨s, hs, -⟩ :=
      Option.bind_eq_some_iff.1 (hhistory.ready.wired.child r c hmem).2
    rw [hs]
    rfl
  have hlinks := (step_seated hb.ready.rest hstep).links.childrenOf r
  have hchild' : (first.after.childrenOf r).head? = some c := hlinks ▸ hchild
  obtain ⟨hidle, i, hfrom, hto, hlap⟩ :=
    step_draws hb hstep hentries hr hfree hchild hstart
  change ¬ a.statusOf c = .running at hidle
  obtain ⟨n, hn⟩ : ∃ n, n = count.draw (a.dice i) := ⟨_, rfl⟩
  change Lap first r c count (count.draw (a.dice i)) at hlap
  rw [← hn] at hlap
  -- As long as the count is not reached, every step drives the child.
  have hrun : n ≠ 0 →
      ∀ {front tick back}, first :: ticks = front ++ tick :: back →
      (0 < n → (completions c (happened front) : Int) < n.toInt) →
      Repeated tick r c count n
        (completions c (happened (front ++ [tick]))) := by
    intro hleft front tick back hticks hopen
    cases hlap with
    | spent hzero => exact absurd hzero hleft
    | driven _ hfirst =>
        exact hlater.repeated hafter hstill hchild' hfirst hleft hticks hopen
  refine ⟨n, ⟨i, hn, hfrom, hto⟩, fun hzero => ?_, fun hpos => ?_,
    fun hneg => ?_⟩
  -- Nothing is to be done, and the child has no part in the step.
  · cases hlap with
    | driven hleft => exact absurd hzero hleft
    | spent _ hgives hsilent =>
        refine ⟨hgives,
          (step_begun hb hstep hentries hne).resolve_left fun hbegun => ?_⟩
        exact hbegun.2 hsilent
  -- The child has ended as often as it was entered, for it was not running
  -- before and is not running at the end.
  · intro front tick back hticks hopen
    have hleft : n ≠ 0 := fun hzero => absurd (hzero ▸ hpos) (by decide)
    have hrepeated := hrun hleft hticks fun _ => hopen
    obtain ⟨left', htask, hcounts, hturn, hgives⟩ := hrepeated.counted hpos
    have hended := completions_concat c front tick
    have hone := hrepeated.completions_le
    refine ⟨_, left', rfl, by omega, htask, hcounts, hturn, hgives,
      fun hlast => ?_⟩
    have hrounds := h.rounds hhistory hne hslot hticks
    rw [if_neg hidle, if_neg (hrepeated.rests (by omega))] at hrounds
    exact hrounds
  -- A negative count is never reached.
  · intro tick htick
    have hleft : n ≠ 0 := fun hzero => absurd (hzero ▸ hneg) (by decide)
    obtain ⟨front, back, hticks⟩ := List.append_of_mem htick
    refine (hrun hleft hticks fun hpos => ?_).endless hneg
    exact absurd hpos (Int64.not_lt.2 (Int64.le_of_lt hneg))

end

/-- A repetition in a sequence, twice or three times. -/
def encore : Arena Nat (Stock Nat Patience) :=
  ofBlueprint (.node (.sequence 0) none [.node (.repeats (.uniform 2 3)) none
    [.single (.action "wait" .patience)]]) 1 fun roll => roll

/-- Three steps of it. The first run of the child takes two of them. -/
theorem encore_ticks :
    ∃ first second third :
    Tick Nat (Stock Nat Patience), Ticks encore [first, second, third]
      ∧ .called ⟨2⟩ .start ∈ first.during ∧ first.after.rolled = 1
      ∧ given ⟨3⟩ first.during = [.running]
      ∧ given ⟨3⟩ second.during = [.succeeded]
      ∧ given ⟨3⟩ third.during = [.succeeded] := by
  have hhistory : History true encore :=
    (History.empty 1 fun roll => roll).setRoot rfl
  -- The first step enters the repeater, and the child needs it as a warm-up.
  have hsteps :
      ((Arena.step 30 1 encore).bind fun r =>
        (Arena.step 30 1 r.2).bind fun r' =>
        (Arena.step 30 1 r'.2).map fun r'' =>
        ((r.1.toOption, r'.1.toOption, r''.1.toOption),
        (decide (.called ⟨2⟩ .start ∈ r.2.entries.drop encore.entries.length),
          r.2.rolled),
        given ⟨3⟩ (r.2.entries.drop encore.entries.length),
        given ⟨3⟩ (r'.2.entries.drop r.2.entries.length),
        given ⟨3⟩ (r''.2.entries.drop r'.2.entries.length)))
      = some ((some .running, some .running, some .succeeded), (true, 1),
        [.running], [.succeeded], [.succeeded]) := by decide +kernel
  obtain ⟨⟨result, a⟩, hfirst, hsteps⟩ := Option.bind_eq_some_iff.1 hsteps
  obtain ⟨⟨result', a'⟩, hsecond, hsteps⟩ := Option.bind_eq_some_iff.1 hsteps
  obtain ⟨⟨result'', a''⟩, hthird, hshown⟩ := Option.map_eq_some_iff.1 hsteps
  simp only [Prod.mk.injEq, decide_eq_true_eq] at hshown
  obtain ⟨⟨hresult, hresult', hresult''⟩, ⟨hstart, hrolled⟩, hgiven, hgiven',
    hgiven''⟩ := hshown
  rw [ok_of_toOption hresult] at hfirst
  rw [ok_of_toOption hresult'] at hsecond
  rw [ok_of_toOption hresult''] at hthird
  have hafter := hhistory.step hfirst
  exact ⟨_, _, _, .of_step hhistory hfirst (.of_step hafter hsecond
    (.of_step (hafter.step hsecond) hthird (.stop a''))), hstart, hrolled,
    hgiven, hgiven', hgiven''⟩

/-- It draws the lower number, and succeeds with the second run of its child. -/
theorem repeats_exactly_encore :
    ∃ first second third :
    Tick Nat (Stock Nat Patience), Ticks encore [first, second, third]
      ∧ .called ⟨2⟩ .start ∈ first.during
      ∧ (given ⟨3⟩ first.during = [.running]
        ∧ given ⟨2⟩ first.during = [.running])
      ∧ (given ⟨3⟩ second.during = [.succeeded]
        ∧ given ⟨2⟩ second.during = [.running])
      ∧ (given ⟨3⟩ third.during = [.succeeded]
        ∧ given ⟨2⟩ third.during = [.succeeded])
      ∧ afresh ⟨3⟩ .fresh (happened [first, second, third]) = 2 := by
  have hhistory : History true encore :=
    (History.empty 1 fun roll => roll).setRoot rfl
  have hrepeat : encore.occupantOf ⟨2⟩
      = some (.task (.repeating (.uniform 2 3) 0)) := rfl
  have houtside : Outside encore ⟨2⟩ :=
    outside_of_unguarded (by decide +kernel) _
  have hchild : (encore.childrenOf ⟨2⟩).head? = some ⟨3⟩ := rfl
  obtain ⟨first, second, third, hticks, hstart, hrolled, hgiven, hgiven',
    hgiven''⟩ := encore_ticks
  obtain ⟨n, ⟨i, hn, -, hi⟩, -, hpositive, -⟩ :=
    Ticks.repeats_exactly hhistory hrepeat houtside hchild hticks hstart
  -- The first roll gives two.
  obtain rfl : n = 2 := by
    have hroll : i < 1 := Nat.lt_of_lt_of_eq (hi rfl) hrolled
    obtain rfl : i = 0 := Nat.lt_one_iff.1 hroll
    exact hn.trans (by decide)
  have hearly : completions ⟨3⟩ (happened [first]) = 0 := by
    rw [happened_singleton, completions, hgiven]
    rfl
  have hlater : completions ⟨3⟩ (happened [first, second]) = 1 := by
    rw [happened_cons, completions_append, happened_singleton, completions,
      completions, hgiven, hgiven']
    rfl
  have hlate : completions ⟨3⟩ (happened [first, second, third]) = 2 := by
    rw [happened_cons, happened_cons, completions_append, completions_append,
      happened_singleton, completions, completions, completions, hgiven,
      hgiven', hgiven'']
    rfl
  -- The three steps, one after the other: none, one and two completions.
  obtain ⟨_, _, rfl, -, -, -, -, hgives, -⟩ :=
    hpositive (by decide) [] _ [_, _] rfl (by decide)
  obtain ⟨_, _, rfl, -, -, -, -, hgives', -⟩ :=
    hpositive (by decide) [_] _ [_] rfl (by rw [hearly]; decide)
  obtain ⟨_, _, rfl, -, -, -, -, hgives'', hafresh⟩ :=
    hpositive (by decide) [_, _] _ [] rfl (by rw [hlater]; decide)
  rw [List.nil_append, hearly] at hgives
  rw [List.singleton_append, hlater] at hgives'
  rw [List.cons_append, List.singleton_append, hlate] at hgives'' hafresh
  exact ⟨first, second, third, hticks, hstart, ⟨hgiven, hgives⟩,
    ⟨hgiven', hgives'⟩, ⟨hgiven'', hgives''⟩, hafresh (by decide)⟩

end Arena

end TaskTree
