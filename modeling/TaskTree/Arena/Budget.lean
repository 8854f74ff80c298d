/-
The budget of a step is only a budget.

`step_mono` says that a step which comes to its end within some budget
comes to the same end within every larger one, so that a finished step has
one result, whatever its budget (`step_agree`). It follows from the same
fact about the six functions that drive each other, by induction on the
smaller budget: each of them hands a budget down that is one less, and
what its parts give with less they give with more.
-/
import TaskTree.Arena.Step

namespace TaskTree.Arena

variable {E T : Type}

-- =============================================================== results

/-- A result that is the other one, unless it is none at all. -/
def Within {α : Type} (x y : Option α) : Prop := ∀ r, x = some r → y = some r

theorem Within.rfl {α : Type} {x : Option α} : Within x x := fun _ h => h

theorem Within.none {α : Type} {y : Option α} : Within none y :=
  fun _ h => nomatch h

theorem Within.bind {α β : Type} {x y : Option α} {f g : α → Option β}
    (h : Within x y) (hf : ∀ r, Within (f r) (g r)) :
    Within (x.bind f) (y.bind g) := by
  intro r hr
  obtain ⟨s, hs, hfs⟩ := Option.bind_eq_some_iff.1 hr
  exact Option.bind_eq_some_iff.2 ⟨s, h s hs, hf s r hfs⟩

/-- A hook does no less when its reports and its children do no less. -/
theorem perform_within {U : Type}
    {report report' : Outcome → Arena E T → Option (Arena E T)}
    {run run' : TaskId → Arena E T → Option (Arena E T)} {delta : Float32}
    {id : TaskId}
    (hreport : ∀ outcome a, Within (report outcome a) (report' outcome a))
    (hrun : ∀ child a, Within (run child a) (run' child a)) (hook : Hook E U)
    (a : Arena E T) :
    Within (perform report run delta id hook a)
      (perform report' run' delta id hook a) := by
  induction hook generalizing a with
  | done task => exact .rfl
  | report outcome next ih => exact (hreport outcome a).bind ih
  | runChild index next ih =>
    simp only [perform]
    split
    · exact (hrun _ a).bind ih
    · exact ih _
  | look next ih => exact ih _ a
  | write board next ih => exact ih _
  | draw next ih => exact ih _ _

-- =============================================================== budgets

variable [Behavior E T]

/-- What the functions of a step give within the budget `b`, they give
within `c`. -/
structure Covers (E T : Type) [Behavior E T] (b c : Nat) : Prop where
  drive : ∀ delta id control (a : Arena E T),
    Within (drive b delta id control a) (drive c delta id control a)
  update : ∀ delta id (a : Arena E T),
    Within (update b delta id a) (update c delta id a)
  consult : ∀ delta id (a : Arena E T),
    Within (consult b delta id a) (consult c delta id a)
  attend : ∀ delta id call (a : Arena E T),
    Within (attend b delta id call a) (attend c delta id call a)
  answer : ∀ delta id occupant (a : Arena E T),
    Within (answer b delta id occupant a) (answer c delta id occupant a)
  transition : ∀ delta id outcome (a : Arena E T),
    Within (transition b delta id outcome a) (transition c delta id outcome a)

/-- Nothing comes to an end without a budget. -/
theorem covers_zero (c : Nat) : Covers E T 0 c where
  drive _ _ _ _ := by rw [Arena.drive]; exact .none
  update _ _ _ := by rw [Arena.update]; exact .none
  consult _ _ _ := by rw [Arena.consult]; exact .none
  attend _ _ _ _ := by rw [Arena.attend]; exact .none
  answer _ _ _ _ := by rw [Arena.answer]; exact .none
  transition _ _ _ _ := by rw [Arena.transition]; exact .none

/-- The hooks of a task under budgets of which one covers the other. -/
theorem Covers.perform {b c : Nat} (h : Covers E T b c) {U : Type}
    (delta : Float32) (id : TaskId) (hook : Hook E U) (a : Arena E T) :
    Within
      (perform (Arena.transition b delta id)
        (fun child => Arena.drive b delta child (.task id)) delta id hook a)
      (perform (Arena.transition c delta id)
        (fun child => Arena.drive c delta child (.task id)) delta id hook a) :=
  perform_within (h.transition delta id)
    (fun child => h.drive delta child (.task id)) hook a

/-- One more on both sides. -/
theorem Covers.succ {b c : Nat} (h : Covers E T b c) :
    Covers E T (b + 1) (c + 1) where
  drive delta id control a := by
    simp only [Arena.drive]
    split
    · exact .rfl
    · split
      · exact (h.update delta id _).bind fun _ => .rfl
      · refine (h.consult delta id _).bind fun r => ?_
        obtain ⟨admitted, a⟩ := r
        cases admitted with
        | true =>
          exact (h.attend delta id .start a).bind fun a =>
            (h.update delta id a).bind fun _ => .rfl
        | false => exact (h.transition delta id .failed a).bind fun _ => .rfl
  update delta id a := by
    simp only [Arena.update]
    exact (h.attend delta id .update a).bind fun _ => .rfl
  consult delta id a := by
    simp only [Arena.consult]
    split
    · exact .rfl
    · rename_i guard _
      refine (h.consult delta guard a).bind fun r => ?_
      obtain ⟨admitted, a⟩ := r
      cases admitted with
      | true =>
        exact (h.attend delta guard .start _).bind fun a =>
          (h.update delta guard a).bind fun _ => .rfl
      | false => exact .rfl
  attend delta id call a := by
    simp only [Arena.attend]
    split
    · exact .rfl
    · split
      · exact .rfl
      · exact (h.perform delta id _ _).bind fun r => h.answer delta id r.1 _
  answer delta id occupant a := by
    simp only [Arena.answer]
    split
    · exact .rfl
    · exact (h.perform delta id _ _).bind fun r => h.answer delta id r.1 _
  transition delta id outcome a := by
    simp only [Arena.transition]
    split
    · exact .rfl
    · split
      · exact .rfl
      · split
        · exact .rfl
        · exact .rfl
        · split
          · exact h.answer delta _ _ _
          · exact .rfl

/-- A larger budget covers a smaller one. -/
theorem covers_of_le {b c : Nat} (h : b ≤ c) : Covers E T b c := by
  induction b generalizing c with
  | zero => exact covers_zero c
  | succ b ih =>
    obtain ⟨c, rfl⟩ : ∃ d, c = d + 1 := ⟨c - 1, by omega⟩
    exact (ih (by omega)).succ

-- ================================================================= steps

/-- A step that comes to its end within a budget comes to the same end
within any larger one. -/
theorem step_mono {b c : Nat} (h : b ≤ c) (delta : Float32) (a : Arena E T) :
    Within (step b delta a) (step c delta a) := by
  simp only [step]
  split
  · exact .rfl
  · exact ((covers_of_le h).drive delta _ _ _).bind fun _ => .rfl

/-- Any two budgets within which a step comes to its end agree on it. -/
theorem step_agree {b c : Nat} {delta : Float32} {a : Arena E T}
    {r s : Except Fault Status × Arena E T} (hb : step b delta a = some r)
    (hc : step c delta a = some s) : r = s := by
  rcases Nat.le_total b c with h | h
  · exact Option.some.inj ((step_mono h delta a r hb).symm.trans hc)
  · exact Option.some.inj (hb.symm.trans (step_mono h delta a s hc))

end TaskTree.Arena
