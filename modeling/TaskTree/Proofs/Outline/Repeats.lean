/-
A task that repeats its child survives the text of its count.

The text says of a count without end that it has none, and not which negative
number it was. Nobody can tell: repetitions without end do the same in all
their hooks and leave repetitions without end, so they are interchangeable
(`interchangeable_endless`), wherever in a tree they stand and whatever is done
with it. All other counts are read back as they were, and then the tasks are
the same (`repeats_restored`).
-/
import TaskTree.Outline.Dialect
import TaskTree.Proofs.Arena.Exchange
import TaskTree.Proofs.Contract
import TaskTree.Proofs.Number.Counts

namespace TaskTree

variable {E A T : Type} {embed : Stock E A → T}

-- ================================================================ endless

/-- Two repetitions without end. Both have begun, or neither has. -/
inductive Endless (embed : Stock E A → T) : T → T → Prop where
  | idle {times times' : Int64} (h : times < 0) (h' : times' < 0) :
      Endless embed (embed (.repeats (.fixed times)))
      (embed (.repeats (.fixed times')))
  | begun {times times' remaining remaining' : Int64} (h : times < 0)
      (h' : times' < 0) (left : remaining < 0) (left' : remaining' < 0) :
      Endless embed (embed (.repeating (.fixed times) remaining))
        (embed (.repeating (.fixed times') remaining'))

namespace Stock

variable {count : RepeatCount} {remaining : Int64}

/-- A repetition with nothing left to do succeeds, whatever the end was that
its child came to. -/
theorem respond_repeats {outcome : Outcome} (h : outcome ≠ .running) :
    (Stock.repeats count : Stock E A).respond outcome
      = .report .succeeded (.done (.repeats count)) := by
  cases outcome with
  | running => exact absurd rfl h
  | succeeded | failed => rfl

/-- A repetition without end goes on when its child has come to an end. -/
theorem respond_negative {outcome : Outcome} (h : outcome ≠ .running)
    (hneg : remaining < 0) :
    (Stock.repeating count remaining : Stock E A).respond outcome
      = .report .running (.done (.repeating count remaining)) := by
  have hanswer : ∀ succeeded,
      (Stock.repeating count remaining : Stock E A).answerEnd? succeeded
      = some (.running, .repeating count remaining) := by
    intro succeeded
    unfold answerEnd?
    dsimp only
    rw [if_neg (Int64.lt_asymm hneg), if_neg (Int64.ne_of_lt hneg)]
  cases outcome with
  | running => exact absurd rfl h
  | succeeded | failed =>
      unfold respond
      dsimp only
      rw [hanswer]

/-- A repetition that has not drawn its count has nothing left, and succeeds at
once. -/
theorem update_repeats [Deed E A] :
    (Stock.repeats count : Stock E A).update
      = .report .succeeded (.done (.repeats count)) := by
  rw [Stock.repeats, update, if_pos rfl]

/-- With a negative count left the child is run, and the count stays as it
is. -/
theorem update_negative [Deed E A] (hneg : remaining < 0) :
    (Stock.repeating count remaining : Stock E A).update
      = .runChild 0 (.done (.repeating count remaining)) :=
  if_neg (Int64.ne_of_lt hneg)

end Stock

section

variable [Deed E A] [Behavior E T]

/-- What the hooks of a stock task do, up to interchange of what they leave. -/
theorem hook_embed (h : Translation embed) {R : T → T → Prop} (call : Call)
    (task : Stock E A) :
    (call.hook (embed task)).map (Quot.mk R)
      = (call.hook task).map fun left => Quot.mk R (embed left) := by
  rw [h.hook, Hook.map_map]
  rfl

/-- Two repetitions of negative counts do the same before they are started.
Starting one draws the count, which is the text's own; updating and answering
never look at it. -/
theorem hook_idle (h : Translation embed) {times times' : Int64}
    (hneg : times < 0) (hneg' : times' < 0) (call : Call) :
    (call.hook (embed (.repeats (.fixed times)))).map (Quot.mk (Endless embed))
      = (call.hook (embed (.repeats (.fixed times')))).map
        (Quot.mk (Endless embed)) := by
  have hself := Quot.sound (.idle hneg hneg' : Endless embed _ _)
  rw [hook_embed h, hook_embed h]
  cases call with
  | start =>
      exact congrArg Hook.done (Quot.sound (.begun hneg hneg' hneg hneg'))
  | update =>
      show ((Stock.repeats _).update : Hook E (Stock E A)).map _
          = (Stock.repeats _).update.map _
      simp only [Stock.update_repeats, Hook.map, hself]
  | respond outcome child =>
      show ((Stock.repeats _).respond outcome : Hook E (Stock E A)).map _
        = ((Stock.repeats _).respond outcome).map _
      by_cases hrunning : outcome = .running
      · simp only [hrunning, Stock.respond, Hook.map, hself]
      · simp only [Stock.respond_repeats hrunning, Hook.map, hself]

/-- They do the same after that, as long as both counts left are negative. A
count that is below zero is never counted down, so what is left stays below
zero. -/
theorem hook_begun (h : Translation embed)
    {times times' remaining remaining' : Int64} (hneg : times < 0)
    (hneg' : times' < 0) (left : remaining < 0) (left' : remaining' < 0)
    (call : Call) :
    (call.hook (embed (.repeating (.fixed times) remaining))).map
      (Quot.mk (Endless embed))
      = (call.hook (embed (.repeating (.fixed times') remaining'))).map
        (Quot.mk (Endless embed)) := by
  have hself := Quot.sound (.begun hneg hneg' left left' : Endless embed _ _)
  rw [hook_embed h, hook_embed h]
  cases call with
  | start =>
      exact congrArg Hook.done (Quot.sound (.begun hneg hneg' hneg hneg'))
  | update =>
      show ((Stock.repeating _ _).update : Hook E (Stock E A)).map _
        = (Stock.repeating _ _).update.map _
      simp only [Stock.update_negative left, Stock.update_negative left',
        Hook.map, hself]
  | respond outcome child =>
      show ((Stock.repeating _ _).respond outcome : Hook E (Stock E A)).map _
        = ((Stock.repeating _ _).respond outcome).map _
      by_cases hrunning : outcome = .running
      · simp only [hrunning, Stock.respond, Hook.map, hself]
      · simp only [Stock.respond_negative hrunning left,
          Stock.respond_negative hrunning left', Hook.map, hself]

/-- Repetitions without end do the same and leave such repetitions. -/
theorem interchangeable_endless (h : Translation embed) :
    Interchangeable (Endless embed) where
  name related := by cases related <;> rw [h.name, h.name] <;> rfl
  arity related := by cases related <;> rw [h.arity, h.arity] <;> rfl
  hook related call := by
    cases related with
    | idle hneg hneg' => exact hook_idle h hneg hneg' call
    | begun hneg hneg' left left' =>
        exact hook_begun h hneg hneg' left left' call
  rewind related := by
    rcases related with ⟨hneg, hneg'⟩ | ⟨hneg, hneg'⟩ <;>
      · rw [h.rewind, h.rewind]
        exact Quot.sound (.idle hneg hneg')

end

-- ================================================================= making

namespace Outline.Vocabulary

/-- A repeat is made when its attribute alone is there, with the count that it
gives. -/
theorem make_repeat {attributes : Attributes} {value : Literal}
    {count : RepeatCount} (hentries : attributes.entries = [("times", value)])
    (hcount : countOf attributes = .ok count) :
    (standard embed).make "repeat" attributes
      = .ok (embed (.repeats count)) := by
  have hget : (standard embed).get? "repeat" = some (repeatMaker embed) := by
    unfold standard
    dsimp only
    rw [Roster.get?_put_of_ne _ _ (by decide), Roster.get?_put_self]
  have honly : attributes.expectOnly "repeat" ["times"] = .ok () := by
    unfold Attributes.expectOnly
    rw [hentries]
    rfl
  unfold make
  rw [hget]
  dsimp only
  unfold repeatMaker
  rw [honly, hcount]
  rfl

/-- The value of the only attribute. -/
theorem get?_of_entries {attributes : Attributes} {name : String}
    {value : Literal} (h : attributes.entries = [(name, value)]) :
    attributes.get? name = some value := by
  unfold Attributes.get?
  rw [h]
  simp only [List.find?_cons, decide_true, Option.map_some]

/-- An integer is a fixed count. -/
theorem make_repeat_int {attributes : Attributes} {times : Int64}
    (h : attributes.entries = [("times", .int times)]) :
    (standard embed).make "repeat" attributes
      = .ok (embed (.repeats (.fixed times))) := by
  refine make_repeat h ?_
  unfold countOf
  rw [get?_of_entries h]

/-- A text is the count that is read from it. -/
theorem make_repeat_text {attributes : Attributes} {text : String}
    {count : RepeatCount} (h : attributes.entries = [("times", .text text)])
    (hread : RepeatCount.read text.toList = some count) :
    (standard embed).make "repeat" attributes
      = .ok (embed (.repeats count)) := by
  refine make_repeat h ?_
  unfold countOf
  rw [get?_of_entries h]
  dsimp only
  rw [hread]

end Outline.Vocabulary

open Arena Outline

variable [Deed E A] [Behavior E T]

/-- With the settled count a task repeats its child as it does with the count
itself. -/
theorem settled_exchanged (h : Translation embed) (count : RepeatCount)
    (plan : List (Request E (Option T))) (a : Arena E T) :
    (serveAll (plan.map (Request.map (·.getD (embed (.repeats count.settled)))))
      a).map
        (Prod.map id bare)
      = (serveAll (plan.map (Request.map (·.getD (embed (.repeats count)))))
        a).map
        (Prod.map id bare) := by
  refine (interchangeable_endless h).serveAll_exchanged
    (fun place => ?_) plan rfl
  cases place with
  | some task => rfl
  | none =>
      cases count with
      | uniform low high => rfl
      | fixed times =>
          by_cases hneg : times < 0
          · rw [RepeatCount.settled, if_pos hneg]
            exact Quot.sound (.idle (by decide) hneg)
          · rw [RepeatCount.settled, if_neg hneg]

/-- A count that was read is read again from its text, as itself, or as `-1`
if it is a negative number, and has the same text then. The task that the
standard vocabulary makes of this text, or of the number, cannot be told from
the task with the count itself: wherever it stands in a tree, and whatever is
done with the tree, all answers are the same, and nothing but the task is
different. -/
theorem repeats_restored (h : Translation embed) {cs : List Char}
    {count : RepeatCount} (hread : RepeatCount.read cs = some count) :
    ∃ again, RepeatCount.read count.text.toList = some again
      ∧ ((∀ times, count = .fixed times → ¬ times < 0) → again = count)
      ∧ (∀ times, count = .fixed times → times < 0 → again = .fixed (-1))
      ∧ again.text = count.text
      ∧ ∀ attributes : Attributes,
        (attributes.entries = [("times", .text count.text)]
          ∨ ∃ times, count = .fixed times
          ∧ attributes.entries = [("times", .int times)]) →
        ∃ made, (Vocabulary.standard embed).make "repeat" attributes = .ok made
          ∧ (∀ low high, count = .uniform low high →
            made = embed (.repeats count))
          ∧ ∀ (plan : List (Request E (Option T))) (board : E)
              (dice : Nat → Nat),
            (serveAll (plan.map (Request.map (·.getD made)))
                (Arena.empty board dice)).map (Prod.map id bare)
              = (serveAll
                  (plan.map (Request.map (·.getD (embed (.repeats count)))))
                  (Arena.empty board dice)).map (Prod.map id bare) := by
  -- The texts of two counts are the same only if both are negative; then the
  -- one that is read back is minus one.
  have hagain := RepeatCount.read_text (RepeatCount.ordered_of_read hread)
  refine ⟨count.settled, hagain, fun hpositive => ?_,
    fun times htimes hneg => ?_, count.text_settled,
    fun attributes hentries => ?_⟩
  · cases count with
    | fixed times => exact if_neg (hpositive times rfl)
    | uniform low high => rfl
  · rw [htimes]
    exact if_pos hneg
  -- Made from the text again, or from the integer. An integer is not settled,
  -- and stays what it was.
  · rcases hentries with htext | ⟨times, rfl, hint⟩
    · refine ⟨_, Vocabulary.make_repeat_text htext hagain,
        fun low high hcount => ?_,
        fun plan board dice => settled_exchanged h count plan _⟩
      rw [hcount]
      rfl
    · exact ⟨_, Vocabulary.make_repeat_int hint, fun _ _ _ => rfl,
        fun _ _ _ => rfl⟩

/-- Of a count of minus five. -/
theorem repeats_restored_negative :
    RepeatCount.read " -5".toList = some (.fixed (-5))
      ∧ ∃ made : Stock Unit Empty,
        (Vocabulary.standard id).make "repeat"
          ⟨[("times", .text "forever")], List.nodup_singleton _⟩
            = .ok made
          ∧ ∀ (plan : List (Request Unit (Option (Stock Unit Empty)))) (dice :
            Nat → Nat),
            (serveAll (plan.map (Request.map (·.getD made)))
              (Arena.empty () dice)).map
                (Prod.map id bare)
              = (serveAll
                (plan.map (Request.map (·.getD (.repeats (.fixed (-5))))))
                  (Arena.empty () dice)).map (Prod.map id bare) := by
  have hread : RepeatCount.read " -5".toList = some (.fixed (-5)) := by decide
  have htext : (RepeatCount.fixed (-5)).text = "forever" := by decide
  obtain ⟨again, -, -, -, -, hmade⟩ :=
    repeats_restored
      (.id : Translation (id : Stock Unit Empty → Stock Unit Empty)) hread
  obtain ⟨made, hmake, -, hsame⟩ := hmade
    ⟨[("times", .text "forever")], List.nodup_singleton _⟩
    (.inl (by rw [htext]))
  exact ⟨hread, made, hmake, fun plan dice => hsame plan () dice⟩

end TaskTree
