/-
Results that do not depend on the budget.

A run that takes a budget settles on a result if every large enough budget
gives that result. Settled runs compose: a run whose first part settles,
and whose second part settles from there, settles as a whole. Statements
about `drive` and the functions around it can so be made without naming a
budget, and `step_settles` says that a step settles on whatever it gives
within one budget.
-/
import TaskTree.Arena.Budget

namespace TaskTree.Arena

variable {α β : Type}

/-- Every large enough budget gives the result `r`. -/
def Settles (run : Nat → Option α) (r : α) : Prop :=
  ∃ n, ∀ b, n ≤ b → run b = some r

theorem Settles.const (r : α) : Settles (fun _ => some r) r :=
  ⟨0, fun _ _ => rfl⟩

/-- A run and what follows it. The larger of the two bounds serves both. -/
theorem Settles.bind {f : Nat → Option α} {g : Nat → α → Option β} {r : α}
    {s : β} (hf : Settles f r) (hg : Settles (fun b => g b r) s) :
    Settles (fun b => (f b).bind (g b)) s := by
  obtain ⟨m, hm⟩ := hf
  obtain ⟨n, hn⟩ := hg
  refine ⟨max m n, fun b hb => ?_⟩
  have hfb : f b = some r := hm b (by omega)
  have hgb : g b r = some s := hn b (by omega)
  show (f b).bind (g b) = some s
  rw [hfb, Option.bind_some, hgb]

/-- What settles with one less to spend settles. -/
theorem Settles.later {f : Nat → Option α} {r : α}
    (h : Settles (fun b => f (b + 1)) r) :
    Settles f r := by
  obtain ⟨n, hn⟩ := h
  refine ⟨n + 1, fun b hb => ?_⟩
  obtain ⟨c, rfl⟩ : ∃ c, b = c + 1 := ⟨b - 1, by omega⟩
  exact hn c (by omega)

/-- A run settles on one result only. -/
theorem Settles.unique {f : Nat → Option α} {r s : α} (hr : Settles f r)
    (hs : Settles f s) :
    r = s := by
  obtain ⟨m, hm⟩ := hr
  obtain ⟨n, hn⟩ := hs
  have hrs : some r = some s :=
    (hm (max m n) (by omega)).symm.trans (hn (max m n) (by omega))
  exact Option.some.inj hrs

/-- A step settles on what it gives within any one budget. -/
theorem step_settles {E T : Type} [Behavior E T] {b : Nat} {delta : Float32}
    {a : Arena E T} {r : Except Fault Status × Arena E T}
    (h : step b delta a = some r) :
    Settles (fun b => step b delta a) r :=
  ⟨b, fun _ hb => step_mono hb delta a r h⟩

end TaskTree.Arena
