/-
Which repetitions never come to an end.

Over a child that comes to an end in every step, a repetition counts one run a
step. So its number says all about it: with zero it succeeds at once
(`Due.over`), with a positive number in that many steps (`Due.counted`), and
with a negative one it never does (`Due.endless`). How the runs of the child end
plays no part.

A count without end says so if it is a fixed one. Two bounds do not say it, but
if both are negative, so is every number between them (`draws_negative_iff`).
These are the counts that never succeed (`never_succeeds_iff`).
-/
import TaskTree.Proofs.Direct.Renumbering
import TaskTree.Proofs.Direct.Repeating

namespace TaskTree

-- ============================================================= the numbers

namespace RepeatCount

/-- A fixed count is without end when it is negative. -/
theorem isForever_fixed {times : Int64} :
    (fixed times).isForever = true ↔ times < 0 :=
  decide_eq_true_iff

/-- Bounds that leave no choice give the first of them. -/
theorem draw_of_le {low high : Int64} (h : high ≤ low) (roll : Nat) :
    (uniform low high).draw roll = low := if_pos h

/-- What is drawn between two bounds lies between them, so that adding it to the
lower one does not overflow. -/
theorem toInt_draw {low high : Int64} (h : low < high) (roll : Nat) :
    ((uniform low high).draw roll).toInt
      = low.toInt + (roll : Int) % (high.toInt - low.toInt + 1) := by
  have hlow := Int64.le_toInt low
  have hhigh := Int64.toInt_lt high
  have hbounds := Int64.lt_iff_toInt_lt.1 h
  have hfrom :=
    Int.emod_nonneg (roll : Int) (b := high.toInt - low.toInt + 1) (by omega)
  have hto :=
    Int.emod_lt_of_pos (roll : Int) (b := high.toInt - low.toInt + 1) (by omega)
  rw [draw, if_neg (Int64.not_le.2 h)]
  exact Int64.toInt_ofInt_of_le (by omega) (by omega)

/-- No draw lies above the higher bound. -/
theorem draw_le {low high : Int64} (h : low < high) (roll : Nat) :
    (uniform low high).draw roll ≤ high := by
  have hbounds := Int64.lt_iff_toInt_lt.1 h
  have hto :=
    Int.emod_lt_of_pos (roll : Int) (b := high.toInt - low.toInt + 1) (by omega)
  rw [Int64.le_iff_toInt_le, toInt_draw h]
  omega

/-- The upper bound can be drawn. -/
theorem draw_high {low high : Int64} (h : low < high) :
    (uniform low high).draw (high.toInt - low.toInt).toNat = high := by
  have hbounds := Int64.lt_iff_toInt_lt.1 h
  rw [← Int64.toInt_inj, toInt_draw h, Int.toNat_of_nonneg (by omega),
    Int.emod_eq_of_lt (by omega) (by omega)]
  omega

/-- A count gives nothing but negative numbers if it is fixed to a negative one,
and if it is between negative bounds. -/
theorem draws_negative_iff (count : RepeatCount) :
    (∀ roll, count.draw roll < 0)
      ↔ count.isForever = true
        ∨ ∃ low high, count = .uniform low high ∧ low < 0 ∧ high < 0 := by
  cases count with
  | fixed times =>
      rw [isForever_fixed]
      refine ⟨fun h => .inl (h 0), ?_⟩
      rintro (h | ⟨low, high, heq, -⟩)
      · exact fun _ => h
      · cases heq
  | uniform low high =>
      have hforever : ¬ (uniform low high).isForever = true :=
        Bool.false_ne_true
      -- Between bounds that are in order the higher one is drawn by some roll,
      -- and none is above it.
      rcases Int64.lt_or_le low high with h | h
      · constructor
        · intro hall
          have hhigh := draw_high h ▸ hall (high.toInt - low.toInt).toNat
          exact .inr ⟨low, high, rfl, Int64.lt_trans h hhigh, hhigh⟩
        · rintro (hever | ⟨_, _, heq, -, hhigh⟩)
          · exact absurd hever hforever
          · cases heq
            exact fun roll => Int64.lt_of_le_of_lt (draw_le h roll) hhigh
      -- Otherwise every draw is the lower bound.
      · constructor
        · intro hall
          have hlow := draw_of_le h 0 ▸ hall 0
          exact .inr ⟨low, high, rfl, hlow, Int64.lt_of_le_of_lt h hlow⟩
        · rintro (hever | ⟨_, _, heq, hlow, -⟩)
          · exact absurd hever hforever
          · cases heq
            exact fun roll => (draw_of_le h roll).symm ▸ hlow

end RepeatCount

variable {E A : Type} [Deed E A]

/-- A tree that comes to an end in every step, whatever its board, the random
numbers and the time steps are. -/
def Blueprint.Completes (b : Blueprint (Stock E A)) : Prop :=
  ∀ (board : E) (dice : Nat → Nat) (deltas : List Float32),
    ∃ seen,
      Arena.Settles (fun budget =>
        (Arena.ofBlueprint b board dice).outcomes budget deltas) seen
      ∧ ∀ entry ∈ seen, entry.1 = .ok .succeeded ∨ entry.1 = .ok .failed

namespace Direct

open Arena Live

variable {child live live' : Live E A} {w w' : World E} {left : Int64}
  {count : RepeatCount}

-- =============================================================== the child

/-- A tree that comes to an end in every step from here on. -/
def Completing (live : Live E A) (w : World E) : Prop :=
  ∀ deltas, ∀ entry ∈ outcomes deltas live w,
    entry.1 = .ok .succeeded ∨ entry.1 = .ok .failed

/-- It comes to an end in its next turn, and goes on to do so. -/
theorem Completing.turn (h : Completing live w) (delta : Float32) :
    (∃ outcome, outcome ≠ .running ∧ (turn delta live w).result = .ok outcome)
      ∧ Completing (turn delta live w).live (turn delta live w).world := by
  constructor
  -- The first step is one of the steps in question, and a turn gives what the
  -- step gives.
  · have hnow := h [delta] _ List.mem_cons_self
    dsimp only [step] at hnow
    cases hresult : (Direct.turn delta live w).result with
    | error fault =>
        rw [hresult] at hnow
        rcases hnow with heq | heq <;> cases heq
    | ok outcome =>
        refine ⟨outcome, ?_, rfl⟩
        rintro rfl
        rw [hresult] at hnow
        rcases hnow with heq | heq <;> cases heq
  · exact fun deltas entry hentry =>
      h (delta :: deltas) entry (List.mem_cons_of_mem _ hentry)

/-- Neither its handles nor what is left over in it make a difference. By
induction on the steps: two trees that are alike but for handles give the same
at each, and are alike afterwards. -/
theorem Completing.nameless (h : Completing live w)
    (hsame : nameless live = nameless live') (hworld : w.Like w') :
    Completing live' w' := by
  intro deltas
  induction deltas generalizing live live' w w' with
  | nil => exact fun entry hentry => absurd hentry List.not_mem_nil
  | cons delta rest ih =>
      obtain ⟨hresult, hlive, hafter⟩ := turn_nameless delta hsame hworld
      obtain ⟨⟨outcome, hended, hturn⟩, hlater⟩ := h.turn delta
      rw [hturn] at hresult
      intro entry hentry
      rcases List.mem_cons.1 hentry with rfl | hrest
      · dsimp only [step]
        cases hturn' : (Direct.turn delta live' w').result with
        | error fault =>
            rw [hturn'] at hresult
            cases hresult
        | ok outcome' =>
            rw [hturn'] at hresult
            obtain rfl : outcome = outcome' := Except.ok.inj hresult
            cases outcome with
            | running => exact absurd rfl hended
            | succeeded => exact .inl rfl
            | failed => exact .inr rfl
      · exact ih hlater hlive hafter entry hrest

/-- A blueprint that comes to an end in every step does so wherever it stands in
a larger tree, with any random numbers used up. -/
theorem completing_number {b : Blueprint (Stock E A)} (h : b.Completes)
    (next : Nat) (w : World E) :
    Completing (number next b) w := by
  have halone : Completing (number 1 b)
      { board := w.board, dice := fun n => w.dice (w.rolled + n), rolled := 0,
        notices := [] } := by
    intro deltas
    obtain ⟨seen, hseen, hended⟩ :=
      h w.board (fun n => w.dice (w.rolled + n)) deltas
    rw [← hseen.unique
        (outcomes_bears (mirrors_ofBlueprint b _ _).1.toBears deltas)]
    exact hended
  refine halone.nameless (congrArg pruned (renumber_number b 1 next))
    ⟨rfl, fun n => ?_⟩
  exact congrArg (fun m => w.dice (w.rolled + m)) (Nat.zero_add n)

/-- A task that does nothing but succeed. By induction on the steps. The leaf
succeeds whatever status the one before left. -/
theorem completing_success (self : TaskId) (status : Status) (w : World E) :
    Completing (.node self .success status none [] : Live E A) w := by
  intro deltas
  induction deltas generalizing status w with
  | nil => exact fun entry hentry => absurd hentry List.not_mem_nil
  | cons delta rest ih =>
      have hturn : turn delta (.node self .success status none [] : Live E A) w
          = conclude self .success status none [] .succeeded w := by
        rw [turn_unguarded,
          show enter w (.success : Stock E A) = (.success, w) from rfl,
              ite_self, work]
      intro entry hentry
      rw [outcomes] at hentry
      dsimp only [step] at hentry
      rw [hturn] at hentry
      rcases List.mem_cons.1 hentry with rfl | hrest
      · exact .inl rfl
      · exact ih _ _ entry hrest

-- ========================================================== the repetition

/-- A repetition that is updated in its next turn, with `left` runs to go of a
child that comes to an end in every step. -/
def Due (left : Int64) (live : Live E A) (w : World E) : Prop :=
  ∀ delta, ∃ self count status child w', Completing child w'
    ∧ turn delta live w
      = work delta self (.repeating count left) status none [child] w'

/-- One that runs goes on with what it has left. -/
theorem due_of_running (h : Completing child w) (self : TaskId) :
    Due left (.node self (.repeating count left) .running none [child]) w :=
  fun delta => ⟨_, _, _, _, _, h, (turn_unguarded delta ..).trans (if_pos rfl)⟩

/-- One that does not run draws its number. -/
theorem due_of_idle (h : ∀ w, Completing child w) (self : TaskId)
    {status : Status} (hidle : status ≠ .running) (w : World E) :
    Due (count.draw (w.dice w.rolled))
      (.node self (.repeating count left) status none [child]) w := by
  intro delta
  have hturn :=
    (turn_unguarded delta self (.repeating count left) status [child] w).trans
      (if_neg hidle)
  rw [enter] at hturn
  split at hturn
  · exact ⟨_, _, _, _, _, h _, hturn⟩
  · rename_i hrandom
    rw [RepeatCount.draw_eq (Bool.not_eq_true _ ▸ hrandom) _ 0]
    exact ⟨_, _, _, _, _, h _, hturn⟩

/-- With nothing left the child is not run. -/
theorem Due.over (h : Due 0 live w) (delta : Float32) :
    (turn delta live w).result = .ok .succeeded := by
  obtain ⟨self, count, status, child, w', -, hturn⟩ := h delta
  have hspent : isSpent (.repeating count 0 : Stock E A) = true := rfl
  rw [hturn, work_single _ _ _ _ _ _ rfl, if_pos hspent]
  rfl

/-- With something left the child is run, which counts as one run. -/
theorem Due.lap (h : Due left live w) (hleft : left ≠ 0) (delta : Float32) :
    ∃ left', left'.toInt = remaining left 1
      ∧ (step delta live w).result = .ok (ends left')
      ∧ (left' ≠ 0 → Due left' (step delta live w).live
        (step delta live w).world) := by
  obtain ⟨self, count, status, child, w', hchild, hturn⟩ := h delta
  obtain ⟨⟨outcome, hended, hresult⟩, hlater⟩ := hchild.turn delta
  -- The child ends, so the repeater counts one completion.
  obtain ⟨left', htask, hstatus, hcounts⟩ :=
    passOn_repeating (E := E) (A := A) outcome count hleft
  have hone : [outcome.status].countP Status.isTerminal = 1 := by
    cases outcome with
    | running => exact absurd rfl hended
    | succeeded | failed => rfl
  have hunspent : ¬ isSpent (.repeating count left : Stock E A) = true :=
    fun hspent => hleft (of_decide_eq_true hspent)
  rw [work_single _ _ _ _ _ _ rfl, if_neg hunspent] at hturn
  dsimp only at hturn
  rw [hresult] at hturn
  dsimp only at hturn
  rw [htask] at hturn
  rw [hone] at hcounts
  -- By the laps that are left the repeater is done or goes on.
  refine ⟨left', hcounts, ?_, fun hmore => ?_⟩
  · dsimp only [step]
    rw [hturn]
    exact congrArg Except.ok hstatus
  · dsimp only [step]
    rw [hturn]
    dsimp only [conclude]
    rw [hstatus, ends, if_neg hmore]
    refine due_of_running ?_ self
    exact hlater.nameless rfl ⟨rfl, fun _ => rfl⟩

/-- One of more than one run. -/
theorem Due.lap_of_pos {n : Nat} (h : Due left live w)
    (hleft : left.toInt = n + 1) (delta : Float32) :
    ∃ left' :
    Int64, left'.toInt = n ∧ (step delta live w).result = .ok (ends left')
      ∧ (left' ≠ 0 → Due left' (step delta live w).live
        (step delta live w).world) := by
  have hpos : 0 < left := toInt_pos.2 (by omega)
  obtain ⟨left', hcounts, hlap⟩ := h.lap (Int64.ne_of_lt hpos).symm delta
  rw [remaining, if_pos hpos] at hcounts
  exact ⟨left', by omega, hlap⟩

-- ================================================================ the runs

/-- A negative number is never counted down. A negative count is not lowered, so
what holds before a lap holds after it. -/
theorem Due.endless (h : Due left live w) (hneg : left.toInt < 0)
    (deltas : List Float32) :
    ∀ entry ∈ outcomes deltas live w, entry.1 = .ok .running := by
  induction deltas generalizing live w with
  | nil => exact fun entry hentry => absurd hentry List.not_mem_nil
  | cons delta rest ih =>
      have hleft : left ≠ 0 := fun hzero => by
        rw [toInt_eq_zero.1 hzero] at hneg
        exact absurd hneg (by decide)
      obtain ⟨left', hcounts, hgives, hnext⟩ := h.lap hleft delta
      rw [remaining,
        if_neg fun hpos => absurd (toInt_pos.1 hpos) (by omega)] at hcounts
      obtain rfl := Int64.toInt_inj.1 hcounts
      intro entry hentry
      rcases List.mem_cons.1 hentry with rfl | hrest
      · exact hgives.trans (congrArg Except.ok (if_neg hleft))
      · exact ih (hnext hleft) entry hrest

/-- A positive number is counted down, one run a step. By induction on the laps
that are left. The last of them ends the repeater, and those before it do not.
-/
theorem Due.counted {n : Nat} (h : Due left live w) (hleft : left.toInt = n + 1)
    {deltas : List Float32} (hlength : deltas.length = n + 1) :
    (outcomes deltas live w).map Prod.fst
      = List.replicate n (.ok .running) ++ [.ok .succeeded] := by
  induction n generalizing left live w deltas with
  | zero =>
      obtain ⟨delta, rfl⟩ := List.length_eq_one_iff.1 hlength
      obtain ⟨left', hcounts, hgives, -⟩ := h.lap_of_pos hleft delta
      refine congrArg ([·]) (hgives.trans ?_)
      rw [ends, if_pos (toInt_eq_zero.2 hcounts)]
  | succ n ih =>
      obtain ⟨delta, rest, rfl⟩ := List.exists_cons_of_length_eq_add_one hlength
      obtain ⟨left', hcounts, hgives, hnext⟩ := h.lap_of_pos hleft delta
      have hleft' : left' ≠ 0 := fun hzero => by
        have := toInt_eq_zero.1 hzero
        omega
      refine congrArg₂ List.cons
        (hgives.trans (congrArg Except.ok (if_neg hleft'))) ?_
      exact ih (hnext hleft') hcounts (Nat.add_right_cancel hlength)

/-- A number that is not negative comes to zero. Without laps left the repeater
ends at once. Otherwise as many steps as there are laps are enough. -/
theorem Due.succeeds (h : Due left live w) (hleft : 0 ≤ left.toInt) :
    ∃ deltas, ∃ entry ∈ outcomes deltas live w, entry.1 = .ok .succeeded := by
  obtain ⟨n, hn⟩ := Int.eq_ofNat_of_zero_le hleft
  cases n with
  | zero =>
      obtain rfl := toInt_eq_zero.2 hn
      exact ⟨[0], _, List.mem_cons_self,
        congrArg (Except.map Outcome.status) (h.over 0)⟩
  | succ n =>
      have hresults := h.counted hn (List.length_replicate (a := (0 : Float32)))
      have hlast : .ok .succeeded
          ∈ (outcomes (List.replicate (n + 1) 0) live w).map Prod.fst := by
        rw [hresults]
        exact List.mem_append_right _ List.mem_cons_self
      obtain ⟨entry, hentry, hsucceeded⟩ := List.mem_map.1 hlast
      exact ⟨_, entry, hentry, hsucceeded⟩

end Direct

open Arena Direct Live

/-- For every child that comes to an end in every step, and on every board: a
repetition of it never succeeds, whatever number it draws and however many
steps are taken, if its count is a fixed one without end or lies between
negative bounds, and only then. -/
theorem never_succeeds_iff {child : Blueprint (Stock E A)}
    (hchild : child.Completes) (count : RepeatCount) (board : E) :
    (count.isForever = true
      ∨ ∃ low high, count = .uniform low high ∧ low < 0 ∧ high < 0)
      ↔ ∀ (dice : Nat → Nat) (deltas : List Float32),
        ∃ seen,
          Settles (fun budget =>
            (ofBlueprint (.node (.repeats count) none [child]) board
            dice).outcomes budget deltas) seen
          ∧ ∀ entry ∈ seen, entry.1 ≠ .ok .succeeded := by
  -- After construction the repeater is due the laps of its draw.
  have hdue : ∀ dice, Due (count.draw (dice 0))
      (number 1 (.node (.repeats count) none [child] : Blueprint (Stock E A)))
      { board, dice, rolled := 0, notices := [] } := by
    intro dice
    have hidle : Status.fresh ≠ .running := by decide
    exact due_of_idle (completing_number hchild _) _ hidle _
  have hsettles : ∀ dice deltas, Settles (fun budget => (ofBlueprint
      (.node (.repeats count) none [child]) board dice).outcomes budget deltas)
      _ := fun dice deltas =>
    outcomes_bears (mirrors_ofBlueprint _ board dice).1.toBears deltas
  -- Whether it ends is a matter of the draw. A negative one goes on forever,
  -- and any other comes to an end.
  rw [← RepeatCount.draws_negative_iff]
  constructor
  · intro hnegative dice deltas
    refine ⟨_, hsettles dice deltas, fun entry hentry hsucceeded => ?_⟩
    have hrunning :=
      (hdue dice).endless
        (Int64.lt_iff_toInt_lt.1 (hnegative (dice 0))) deltas entry hentry
    cases hrunning.symm.trans hsucceeded
  -- If a roll gives a count that is not negative, dice that give it always
  -- refute the assumption.
  · intro hnever roll
    by_contra hdrawn
    have hleft : 0 ≤ (count.draw roll).toInt :=
      Int64.le_iff_toInt_le.1 (Int64.not_lt.1 hdrawn)
    obtain ⟨deltas, entry, hentry, hsucceeded⟩ :=
      (hdue fun _ => roll).succeeds hleft
    obtain ⟨seen, hseen, hnot⟩ := hnever (fun _ => roll) deltas
    rw [(hsettles _ deltas).unique hseen] at hentry
    exact hnot entry hentry hsucceeded

/-- A tree that succeeds at once completes. -/
theorem completes_success :
    (.single .success : Blueprint (Stock E A)).Completes := by
  intro board dice deltas
  exact ⟨_, outcomes_bears (mirrors_ofBlueprint _ board dice).1.toBears deltas,
    completing_success _ _ _ deltas⟩

/-- A count between minus three and minus two does not say that it has no
end. -/
theorem never_succeeds_between_negatives :
    (.single .success : Blueprint (Stock Nat Patience)).Completes
      ∧ (RepeatCount.uniform (-3) (-2)).isForever = false
      ∧ ∀ (dice : Nat → Nat) (deltas : List Float32),
        ∃ seen,
          Settles (fun budget =>
            (ofBlueprint (.node (.repeats (.uniform (-3) (-2))) none
            [.single .success] : Blueprint (Stock Nat Patience)) 0
            dice).outcomes budget deltas) seen
          ∧ ∀ entry ∈ seen, entry.1 ≠ .ok .succeeded :=
  ⟨completes_success, rfl, (never_succeeds_iff completes_success _ _).1
    (.inr ⟨-3, -2, rfl, by decide, by decide⟩)⟩

end TaskTree
