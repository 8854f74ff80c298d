/-
A count is read back from its text.

The texts of counts have neither white space nor capital letters, and a number
is neither of the two words, so reading one comes down to reading the numbers
in it. All counts without end have the same text, and it is read as the one of
them that the others are `settled` to.
-/
import TaskTree.Proofs.Number.Layout
import TaskTree.Stock.RepeatCount

namespace TaskTree

open Numeral

-- ============================================================= characters

/-- White space is not among the graphic characters of ASCII. -/
theorem isBlank_of_graphic {c : Char} (hlow : 0x20 < c.toNat)
    (hhigh : c.toNat < 0x80) :
    Text.isBlank c = false := by
  unfold Text.isBlank Text.Ranges.has Text.blankRanges
  simp only [List.any_cons, List.any_nil, Bool.or_false, Bool.or_eq_false_iff,
    Bool.and_eq_false_iff, decide_eq_false_iff_not]
  omega

/-- A text with no blanks has none to trim. -/
theorem trimBlank_of_solid {cs : List Char}
    (h : ∀ c ∈ cs, Text.isBlank c = false) :
    Text.trimBlank cs = cs := by
  have hkeep : ∀ ds : List Char, (∀ c ∈ ds, Text.isBlank c = false) →
      ds.dropWhile Text.isBlank = ds := by
    intro ds hds
    cases ds with
    | nil => rfl
    | cons d ds =>
        refine List.dropWhile_cons_of_neg ?_
        rw [hds d List.mem_cons_self]
        exact Bool.false_ne_true
  rw [Text.trimBlank, hkeep cs h,
    hkeep cs.reverse fun c hc => h c (List.mem_reverse.1 hc),
    List.reverse_reverse]

/-- Where the characters of integers lie. -/
theorem toNat_of_mem_toString {i : Int} {c : Char}
    (h : c ∈ (toString i).toList) :
    0x20 < c.toNat ∧ c.toNat < 65 := by
  rcases digit_or_sign_of_mem_toString i c h with hdigit | rfl
  · obtain ⟨hlow, hhigh⟩ := Bool.and_eq_true_iff.1 hdigit
    have hlow : 48 ≤ c.toNat := of_decide_eq_true hlow
    have hhigh : c.toNat ≤ 57 := of_decide_eq_true hhigh
    omega
  · decide

/-- There are no blanks in the text of an integer. -/
theorem toString_solid (i : Int) :
    ∀ c ∈ (toString i).toList, Text.isBlank c = false :=
  fun c hc => by
    obtain ⟨hlow, hhigh⟩ := toNat_of_mem_toString hc
    exact isBlank_of_graphic hlow (by omega)

/-- There are no capital letters in it either. -/
theorem toLower_of_mem_toString {i : Int} {c : Char}
    (h : c ∈ (toString i).toList) :
    c.toLower = c := by
  have hhigh := (toNat_of_mem_toString h).2
  unfold Char.toLower
  rw [dif_neg]
  intro hcapital
  have hlow : 65 ≤ c.toNat := hcapital.1
  omega

/-- And no commas. -/
theorem comma_not_mem_toString (i : Int) :
    ∀ c ∈ (toString i).toList, decide (c ≠ ',') = true :=
  fun c hc => decide_eq_true ((toString_numberChar i c hc).ne (by decide))

-- ================================================================= counts

namespace RepeatCount

/-- The count that the text of a count is read as. -/
def settled : RepeatCount → RepeatCount
  | .fixed times => if times < 0 then .forever else .fixed times
  | .uniform low high => .uniform low high

/-- The bounds are in order. -/
def Ordered : RepeatCount → Prop
  | .fixed _ => True
  | .uniform low high => low ≤ high

/-- A count that was read has its bounds in order. The three forms: the word for
a count without end, two bounds, and a number. Only the bounds have to be
ordered, and a pair that is not is refused. -/
theorem ordered_of_read {cs : List Char} {count : RepeatCount}
    (h : read cs = some count) :
    count.Ordered := by
  unfold read at h
  dsimp only at h
  split at h
  · cases h
    trivial
  · split at h
    · obtain ⟨⟨low, high⟩, -, h⟩ := Option.bind_eq_some_iff.1 h
      dsimp only at h
      split at h
      · cases h
      · rename_i hnot
        cases h
        exact Int64.not_lt.1 hnot
    · obtain ⟨times, -, rfl⟩ := Option.map_eq_some_iff.1 h
      trivial

/-- Behind a word stands what stands behind it. -/
theorem after?_append (word rest : List Char) :
    after? word (word ++ rest) = some rest := by
  induction word with
  | nil => rfl
  | cons c word ih =>
      rw [List.cons_append, after?, if_pos rfl]
      exact ih

/-- A number is read as that many repetitions. -/
theorem read_number (times : Int64) :
    read (toString times.toInt).toList = some (.fixed times) := by
  -- A number is not one of the two words, since it has no letter of theirs.
  have hword : ((toString times.toInt).toList).map Char.toLower
      ≠ foreverWord := by
    rw [List.map_congr_left fun c hc => toLower_of_mem_toString hc,
      List.map_id']
    intro heq
    have hmem : 'f' ∈ (toString times.toInt).toList := heq ▸ List.mem_cons_self
    exact (toString_numberChar _ _ hmem).ne (by decide) rfl
  have hafter : after? uniformWord (toString times.toInt).toList = none := by
    cases hcs : (toString times.toInt).toList with
    | nil => rfl
    | cons c rest =>
        have hmem : c ∈ (toString times.toInt).toList :=
          hcs ▸ List.mem_cons_self
        rw [uniformWord, after?,
          if_neg ((toString_numberChar _ _ hmem).ne (by decide)).symm]
  unfold read
  dsimp only
  rw [trimBlank_of_solid (toString_solid _), if_neg hword, hafter,
    readInt64_toString]
  rfl

/-- The text of two bounds. -/
def boundsText (low high : Int64) : List Char :=
  (toString low.toInt).toList ++ ',' :: (toString high.toInt).toList

/-- Two bounds with a comma between them are read back. -/
theorem readBounds_boundsText (low high : Int64) :
    readBounds (boundsText low high) = some (low, high) := by
  have hstops : Stops (fun c => decide (c ≠ ','))
      (',' :: (toString high.toInt).toList) :=
    stops_cons rfl _
  unfold readBounds boundsText
  rw [dropWhile_append (comma_not_mem_toString _) hstops,
    takeWhile_append (comma_not_mem_toString _) hstops]
  dsimp only
  rw [trimBlank_of_solid (toString_solid _),
    trimBlank_of_solid (toString_solid _), readInt64_toString,
    readInt64_toString]
  rfl

/-- The text of a random count is its word and its bounds. -/
theorem uniform_text (low high : Int64) :
    (RepeatCount.uniform low high).text.toList
      = uniformWord ++ boundsText low high := by
  rw [text, String.toList_append, String.toList_append, String.toList_append,
    boundsText, List.append_assoc, List.append_assoc]
  rfl

/-- Two bounds in their order are read as they are. -/
theorem read_uniform {low high : Int64} (h : low ≤ high) :
    read (RepeatCount.uniform low high).text.toList
      = some (.uniform low high) := by
  have hword : uniformWord.any Text.isBlank = false := by decide
  -- Neither the word nor the bounds have blanks around them.
  have hsolid : ∀ c ∈ uniformWord ++ boundsText low high,
      Text.isBlank c = false := by
    refine List.forall_mem_append.2
      ⟨fun c hc => ?_, List.forall_mem_append.2 ⟨toString_solid _, ?_⟩⟩
    · exact Bool.eq_false_iff.2 (List.any_eq_false.1 hword c hc)
    · exact List.forall_mem_cons.2 ⟨by decide, toString_solid _⟩
  have hforever : (uniformWord ++ boundsText low high).map Char.toLower
      ≠ foreverWord := by
    intro heq
    cases (List.cons.inj heq).1
  have hordered : ¬ high < low := Int64.not_lt.2 h
  unfold read
  dsimp only
  rw [uniform_text, trimBlank_of_solid hsolid, if_neg hforever, after?_append]
  dsimp only
  rw [readBounds_boundsText, Option.bind_some]
  dsimp only
  rw [if_neg hordered]

/-- A count with its bounds in order is read back from its text, but for the
number of repetitions where there is no end to them. -/
theorem read_text {count : RepeatCount} (h : count.Ordered) :
    read count.text.toList = some count.settled := by
  cases count with
  | fixed times =>
      rw [text, settled]
      split
      · decide
      · exact read_number times
  | uniform low high => exact read_uniform h

/-- A count is written as what it settles to. -/
theorem text_settled (count : RepeatCount) :
    count.settled.text = count.text := by
  cases count with
  | fixed times =>
      rw [settled]
      split
      · rename_i hneg
        rw [text, if_pos hneg]
        decide
      · rfl
  | uniform low high => rfl

end RepeatCount

end TaskTree
