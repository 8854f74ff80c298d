/-
The longest beginning of a text that is of one kind.

Names, bare values, spaces and rows of digits are all read so: as many
characters of a kind as there are. Such a word is what was written if no
further character of the kind follows it.
-/
import Mathlib.Data.List.TakeWhile

namespace TaskTree

/-- No further character of a kind follows. -/
def Stops (p : Char → Bool) (rest : List Char) : Prop :=
  ∀ c, rest.head? = some c → p c = false

/-- At the end of a text every word stops. -/
theorem stops_nil (p : Char → Bool) : Stops p [] := nofun

/-- A word stops at a character that cannot carry it on. -/
theorem stops_cons {p : Char → Bool} {c : Char} (h : p c = false)
    (rest : List Char) :
    Stops p (c :: rest) := by
  rintro d ⟨⟩
  exact h

/-- A word that cannot be carried on is all that is taken from the front. -/
theorem takeWhile_append {p : Char → Bool} {word rest : List Char}
    (hword : ∀ c ∈ word, p c = true) (hrest : Stops p rest) :
    (word ++ rest).takeWhile p = word := by
  rw [List.takeWhile_append_of_pos hword]
  cases rest with
  | nil => rw [List.takeWhile_nil, List.append_nil]
  | cons c rest =>
      rw [List.takeWhile_cons_of_neg
          (by rw [hrest c rfl]; exact Bool.false_ne_true),
        List.append_nil]

/-- What stands behind a word is what dropping the word leaves. -/
theorem dropWhile_append {p : Char → Bool} {word rest : List Char}
    (hword : ∀ c ∈ word, p c = true) (hrest : Stops p rest) :
    (word ++ rest).dropWhile p = rest := by
  rw [List.dropWhile_append_of_pos hword]
  cases rest with
  | nil => rfl
  | cons c rest =>
      exact List.dropWhile_cons_of_neg
        (by rw [hrest c rfl]; exact Bool.false_ne_true)

/-- What is left after dropping cannot carry the dropped word on. -/
theorem stops_dropWhile (p : Char → Bool) (cs : List Char) :
    Stops p (cs.dropWhile p) := by
  intro c hc
  have hnot := List.head?_dropWhile_not p cs
  rw [hc] at hnot
  exact eq_false_of_ne_true (by simpa using hnot)

/-- Everything that is taken satisfies what it was taken for. -/
theorem mem_takeWhile {p : Char → Bool} {cs : List Char} :
    ∀ c ∈ cs.takeWhile p, p c = true :=
  fun _ hc => List.mem_takeWhile_imp hc

end TaskTree
