/-
The text of a binary64 number is read as that number.

The layouts only place a point among the digits of a decimal, or an exponent
behind them, so what they write is read as the decimal that was laid out
(`positional_spells`, `scientific_spells`). For a finite number that is a
decimal near its magnitude, which is rounded to it; so the text of a number
gives the number back, to the last bit and with the sign of zero
(`read_text`). The texts of NaN and of the infinities are no numerals.
-/
import TaskTree.Proofs.Number.Packing
import TaskTree.Proofs.Number.ReadBack

namespace TaskTree

namespace Numeral

/-- Characters that are read as a number of the given size, with or without
a sign before them. -/
def Spells (cs : List Char) (x : ℚ) : Prop :=
  ∀ negative, ∃ n : Numeral,
    read (signText negative ++ cs) = some n ∧ n.negative = negative
      ∧ n.magnitude = x

/-- What numbers are written with. -/
def NumberChar (c : Char) : Prop :=
  isDigit c = true ∨ c = '.' ∨ c = 'e' ∨ c = '-'

/-- Decidable, so that a text that stands in full can be checked by
evaluation. -/
instance : DecidablePred NumberChar := fun c =>
  inferInstanceAs (Decidable (isDigit c = true ∨ c = '.' ∨ c = 'e' ∨ c = '-'))

/-- All characters of a text at once, from the evaluated test. -/
theorem forall_numberChar {cs : List Char}
    (h : (cs.all fun c => decide (NumberChar c)) = true) :
    ∀ c ∈ cs, NumberChar c :=
  fun c hc => of_decide_eq_true (List.all_eq_true.1 h c hc)

/-- A character that cannot stand in a number is none that does. -/
theorem NumberChar.ne {c d : Char} (h : NumberChar c)
    (hd : ¬ NumberChar d) : c ≠ d := by
  rintro rfl
  exact hd h

/-- Digits can stand in a number. -/
theorem Digits.numberChar {ds : List Char} (h : Digits ds) :
    ∀ c ∈ ds, NumberChar c :=
  fun c hc => .inl (h c hc)

/-- A sign is a minus or nothing. -/
theorem eq_of_mem_signText {negative : Bool} :
    ∀ c ∈ signText negative, c = '-' := by
  intro c hc
  cases negative with
  | false => cases hc
  | true => exact List.mem_singleton.1 hc

/-- A sign can stand in a number. -/
theorem signText_numberChar (negative : Bool) :
    ∀ c ∈ signText negative, NumberChar c :=
  fun c hc => .inr (.inr (.inr (eq_of_mem_signText c hc)))

/-- An integer is written with digits and a sign. -/
theorem digit_or_sign_of_mem_toString (i : Int) :
    ∀ c ∈ (toString i).toList, isDigit c = true ∨ c = '-' := by
  rw [toString_toList]
  exact List.forall_mem_append.2
    ⟨fun c hc => .inr (eq_of_mem_signText c hc),
      fun c hc => .inl (digits_toDigits _ c hc)⟩

/-- The text of an integer can stand in a number, as the exponent does. -/
theorem toString_numberChar (i : Int) :
    ∀ c ∈ (toString i).toList, NumberChar c :=
  fun c hc => (digit_or_sign_of_mem_toString i c hc).imp_right fun h =>
    .inr (.inr h)

/-- An integer is not written as nothing. -/
theorem toString_ne_nil (i : Int) : (toString i).toList ≠ [] := by
  rw [toString_toList]
  exact List.append_ne_nil_of_right_ne_nil _ Nat.toDigits_ne_nil

end Numeral

namespace Binary64

open Numeral

-- =============================================================== layout

/-- The zeros taken off the end of digits can be put back. -/
theorem trimZeros_append (ds : List Char) :
    (trimZeros ds).1 ++ List.replicate (trimZeros ds).2 '0' = ds := by
  have hsplit : ds.reverse.takeWhile (· = '0') ++ ds.reverse.dropWhile (· = '0')
      = ds.reverse :=
    List.takeWhile_append_dropWhile
  obtain ⟨zeros, hzeros⟩ : ∃ zeros, zeros = ds.reverse.takeWhile (· = '0') :=
    ⟨_, rfl⟩
  obtain ⟨others, hothers⟩ : ∃ others,
      others = ds.reverse.dropWhile (· = '0') := ⟨_, rfl⟩
  -- What is taken off consists of zeros only, so it can be told by its length.
  have hall : zeros = List.replicate zeros.length '0' := by
    refine List.eq_replicate_of_mem fun c hc => ?_
    rw [hzeros] at hc
    exact of_decide_eq_true (mem_takeWhile c hc)
  rw [← hzeros, ← hothers] at hsplit
  have hds : ds = others.reverse ++ zeros.reverse := by
    rw [← List.reverse_append, hsplit, List.reverse_reverse]
  have hlength : ds.length - zeros.length = others.reverse.length := by
    rw [hds, List.length_append, List.length_reverse, List.length_reverse,
      Nat.add_sub_cancel]
  unfold trimZeros
  dsimp only
  -- What is left is written as a prefix of the digits. It is all that stands
  -- before the zeros.
  rw [← hzeros, hlength]
  conv_lhs => rw [hds, List.take_left]
  rw [hds]
  congr 1
  rw [hall, List.reverse_replicate, List.length_replicate]

section

variable {ds : List Char} (hds : Digits ds) (hne : ds ≠ [])
include hds

/-- Digits with a point between them can stand in a number. -/
theorem positional_numberChar (e : Int) :
    ∀ c ∈ positional ds e, NumberChar c := by
  unfold positional
  split
  -- Either no digit is behind the point but a zero, or the point is set between
  -- padded digits.
  · rw [List.forall_mem_append, List.forall_mem_append]
    exact ⟨⟨hds.numberChar, (digits_zeros _).numberChar⟩, forall_numberChar rfl⟩
  · have hpadded := (digits_zeros ((-e).toNat + 1 - ds.length)).append hds
    dsimp only
    rw [List.forall_mem_append]
    refine ⟨fun c hc => .inl (hpadded c (List.mem_of_mem_take hc)),
      fun c hc => ?_⟩
    rcases List.mem_cons.1 hc with rfl | hc
    · exact .inr (.inl rfl)
    · exact .inl (hpadded c (List.mem_of_mem_drop hc))

/-- Digits with an exponent can stand in a number, with their point if there is
more than one. -/
theorem scientific_numberChar (e : Int) :
    ∀ c ∈ scientific ds e, NumberChar c := by
  unfold scientific
  dsimp only
  rw [List.forall_mem_append]
  refine ⟨?_, fun c hc => ?_⟩
  · split
    · exact fun c hc => absurd hc List.not_mem_nil
    · exact hds.numberChar
    · rename_i d rest _
      intro c hc
      rcases List.mem_cons.1 hc with rfl | hc
      · exact .inl (hds _ List.mem_cons_self)
      · rcases List.mem_cons.1 hc with rfl | hc
        · exact .inr (.inl rfl)
        · exact .inl (hds c (List.mem_cons_of_mem d hc))
  · rcases List.mem_cons.1 hc with rfl | hc
    · exact .inr (.inr (.inl rfl))
    · exact toString_numberChar _ c hc

include hne

/-- Digits with a point among them or after them. A number without places is the
digits, zeros in place of the exponent, and a zero behind the point. -/
theorem positional_spells (e : Int) :
    Spells (positional ds e) (ofDigits ds * 10 ^ e) := by
  intro negative
  unfold positional
  split
  · rename_i he
    obtain ⟨n, rfl⟩ := Int.eq_ofNat_of_zero_le he
    have hwhole := hds.append (digits_zeros n)
    have hread :=
      read_point negative hwhole (List.append_ne_nil_of_left_ne_nil hne _)
        (digits_zeros 1) (stops_nil _) (e := 0) rfl
    refine ⟨_, hread, rfl, ?_⟩
    unfold magnitude
    dsimp only
    rw [ofDigits_append, ofDigits_append, ofDigits_zeros, ofDigits_zeros,
      List.length_replicate, List.length_replicate, zpow_natCast]
    push_cast
    ring
  -- Otherwise the point is set that many places before the end, with zeros in
  -- front where the digits are too few.
  · rename_i he
    obtain ⟨places, hplaces⟩ : ∃ places, places = (-e).toNat := ⟨_, rfl⟩
    obtain ⟨padded, hpadded⟩ :
        ∃ padded, padded = List.replicate (places + 1 - ds.length) '0' ++ ds :=
      ⟨_, rfl⟩
    have hdigits : Digits padded := hpadded ▸ (digits_zeros _).append hds
    -- At least one digit is before the point.
    have hlength : places < padded.length := by
      rw [hpadded, List.length_append, List.length_replicate]
      omega
    have hvalue : ofDigits padded = ofDigits ds := by
      rw [hpadded, ofDigits_append, ofDigits_zeros, Nat.mul_zero, Nat.zero_add]
    have hwhole : padded.take (padded.length - places) ≠ [] := by
      rw [← List.length_pos_iff, List.length_take]
      omega
    have hbefore : Digits (padded.take (padded.length - places)) := fun c hc =>
      hdigits c (List.mem_of_mem_take hc)
    have hafter : Digits (padded.drop (padded.length - places)) := fun c hc =>
      hdigits c (List.mem_of_mem_drop hc)
    have hread :=
      read_point negative hbefore hwhole hafter (stops_nil _) (e := 0) rfl
    rw [List.append_nil] at hread
    dsimp only
    rw [← hplaces, ← hpadded]
    refine ⟨_, hread, rfl, ?_⟩
    -- The exponent read is minus the number of places behind the point.
    have hexponent : (0 : Int)
        - (padded.drop (padded.length - places)).length = e := by
      rw [List.length_drop]
      omega
    unfold magnitude
    dsimp only
    rw [List.take_append_drop, hvalue, hexponent]

/-- One digit before the point, and an exponent. There are no digits, one
without a point, or a point stands behind the first. -/
theorem scientific_spells (e : Int) :
    Spells (scientific ds e) (ofDigits ds * 10 ^ e) := by
  intro negative
  have hends : ∀ power : Int, Stops isDigit ('e' :: (toString power).toList) :=
    fun power => stops_cons rfl _
  unfold scientific
  dsimp only
  split
  · exact absurd rfl hne
  · rename_i d
    have hpoint : ('e' :: (toString (e + 1 - 1)).toList).head? ≠ some '.' := by
      rw [List.head?_cons]
      decide
    have hread :=
      read_whole negative hds hne (hends _) hpoint
        (readExponent_toString (e + 1 - 1))
    refine ⟨_, hread, rfl, ?_⟩
    unfold magnitude
    dsimp only
    rw [add_sub_cancel_right]
  · rename_i d rest _
    have hrest : Digits rest := fun c hc => hds c (List.mem_cons_of_mem d hc)
    have hfirst : Digits [d] := fun c hc => hds c (by
      rw [List.mem_singleton.1 hc]
      exact List.mem_cons_self)
    obtain ⟨power, hpower⟩ : ∃ power : Int,
        power = e + (d :: rest).length - 1 := ⟨_, rfl⟩
    -- The exponent written counts the digits behind the point as well.
    have hread :=
      read_point negative hfirst (List.cons_ne_nil d []) hrest (hends power)
        (readExponent_toString power)
    rw [← hpower]
    refine ⟨_, hread, rfl, ?_⟩
    have hexponent : power - (rest.length : Int) = e := by
      rw [hpower, List.length_cons]
      push_cast
      ring
    unfold magnitude
    dsimp only
    rw [hexponent, List.singleton_append]

end

/-- There is always a point in the positional text. -/
theorem positional_marked (ds : List Char) (e : Int) :
    '.' ∈ positional ds e := by
  unfold positional
  split
  · exact List.mem_append_right _ List.mem_cons_self
  · exact List.mem_append_right _ List.mem_cons_self

/-- There is always an exponent in the scientific one. -/
theorem scientific_marked (ds : List Char) (e : Int) : 'e' ∈ scientific ds e :=
  List.mem_append_right _ List.mem_cons_self

/-- Digits stay digits when their last zeros are taken off. -/
theorem digits_trimZeros {ds : List Char} (h : Digits ds) :
    Digits (trimZeros ds).1 := by
  intro d hd
  refine h d ?_
  rw [← trimZeros_append ds]
  exact List.mem_append_left _ hd

/-- A digit row of a positive number, without the zeros at its end. -/
theorem trimZeros_toDigits {c : Nat} (hc : 0 < c) :
    (trimZeros (Nat.toDigits 10 c)).1 ≠ []
      ∧ ofDigits (trimZeros (Nat.toDigits 10 c)).1 * 10
        ^ (trimZeros (Nat.toDigits 10 c)).2
        = c := by
  have happend := trimZeros_append (Nat.toDigits 10 c)
  have hvalue := ofDigits_toDigits c
  rw [← happend, ofDigits_append, ofDigits_zeros, List.length_replicate,
    Nat.add_zero, Nat.mul_comm]
    at hvalue
  refine ⟨fun hnil => ?_, hvalue⟩
  rw [hnil] at hvalue
  have hzero : 0 * 10 ^ (trimZeros (Nat.toDigits 10 c)).2 = c := hvalue
  omega

section

variable {significand : Nat} {exponent : Int}

/-- How a positive magnitude is written. -/
theorem finiteText_eq (hpos : 0 < significand) (exponent : Int) :
    ∃ ds zeros,
      trimZeros (Nat.toDigits 10 (shortest significand exponent).coefficient)
        = (ds, zeros)
      ∧ (finiteText significand exponent
          = positional ds ((shortest significand exponent).exponent + zeros)
        ∨ finiteText significand exponent
          = scientific ds ((shortest significand exponent).exponent
            + zeros)) := by
  refine ⟨_, _, rfl, ?_⟩
  unfold finiteText
  rw [if_neg hpos.ne']
  dsimp only
  split
  · exact .inl rfl
  · exact .inr rfl

/-- Every finite text is made of characters that can stand in a number. Zero has
a text of its own; any other number is laid out from its shortest digits in one
of the two ways. -/
theorem finiteText_numberChar (significand : Nat) (exponent : Int) :
    ∀ c ∈ finiteText significand exponent, NumberChar c := by
  rcases Nat.eq_zero_or_pos significand with rfl | hpos
  · have hall : ∀ c ∈ ['0', '.', '0'], NumberChar c := forall_numberChar rfl
    exact hall
  · obtain ⟨ds, zeros, htrim, htext⟩ := finiteText_eq hpos exponent
    have hds :=
      digits_trimZeros
        (digits_toDigits (shortest significand exponent).coefficient)
    rw [htrim] at hds
    rcases htext with htext | htext
    · rw [htext]
      exact positional_numberChar hds _
    · rw [htext]
      exact scientific_numberChar hds _

/-- A finite text has a point or an exponent, so it is not the text of an
integer. -/
theorem finiteText_marked (significand : Nat) (exponent : Int) :
    '.' ∈ finiteText significand exponent
      ∨ 'e' ∈ finiteText significand exponent := by
  rcases Nat.eq_zero_or_pos significand with rfl | hpos
  · have hmem : '.' ∈ ['0', '.', '0'] := by decide
    exact .inl hmem
  · obtain ⟨ds, zeros, -, htext | htext⟩ := finiteText_eq hpos exponent
    · rw [htext]
      exact .inl (positional_marked ds _)
    · rw [htext]
      exact .inr (scientific_marked ds _)

/-- A positive magnitude is written as a decimal near it. -/
theorem finiteText_spells (hmag : Magnitude significand exponent) :
    ∃ x, Spells (finiteText significand exponent) x
      ∧ Near significand exponent x := by
  have hnear := shortest_near hmag
  have hcoefficient : 0 < (shortest significand exponent).coefficient := by
    refine Nat.pos_of_ne_zero fun hzero => ?_
    have hpos := hnear.pos hmag.pos
    rw [hzero, Nat.cast_zero, zero_mul] at hpos
    exact lt_irrefl _ hpos
  obtain ⟨ds, zeros, htrim, htext⟩ := finiteText_eq hmag.pos exponent
  have hds :=
    digits_trimZeros
      (digits_toDigits (shortest significand exponent).coefficient)
  obtain ⟨hne, hvalue⟩ := trimZeros_toDigits hcoefficient
  rw [htrim] at hds hne hvalue
  have hsize : (ofDigits ds : ℚ) * 10
      ^ ((shortest significand exponent).exponent + zeros)
      = (shortest significand exponent).coefficient
        * 10 ^ (shortest significand exponent).exponent := by
    rw [← hvalue, zpow_add₀ (by norm_num), zpow_natCast]
    push_cast
    ring
  rw [← hsize] at hnear
  rcases htext with htext | htext
  · rw [htext]
    exact ⟨_, positional_spells hds hne _, hnear⟩
  · rw [htext]
    exact ⟨_, scientific_spells hds hne _, hnear⟩

end

-- ================================================================ texts

section

variable {x : Float} {significand : Nat} {exponent : Int}

theorem text_toList (h : shape x = .finite significand exponent) :
    (text x).toList = signText (isNegative x)
      ++ finiteText significand exponent := by
  unfold text
  rw [h, String.toList_ofList]
  rfl

/-- A finite number is read back from its text. -/
theorem read_text (h : shape x = .finite significand exponent) :
    ∃ n, Numeral.read (text x).toList = some n ∧ n.toFloat = x := by
  rw [text_toList h]
  rcases Nat.eq_zero_or_pos significand with rfl | hpos
  · have hread : Numeral.read (signText (isNegative x) ++ ['0', '.', '0'])
        = some { negative := isNegative x, coefficient := 0,
                 exponent := -1 } := by
      cases isNegative x <;> rfl
    refine ⟨_, hread, ?_⟩
    have hzero := ofMagnitude_eq h
    rw [bitsOf_zero h] at hzero
    exact hzero
  · have hmag := magnitude_of_shape h hpos
    obtain ⟨y, hspells, hnear⟩ := finiteText_spells hmag
    obtain ⟨n, hread, hnegative, hmagnitude⟩ := hspells (isNegative x)
    refine ⟨n, hread, ?_⟩
    rw [← hmagnitude] at hnear
    rw [toFloat_of_near hmag hnear, hnegative, ofMagnitude_eq h]

/-- The text of a finite number is made of digits and a few marks. -/
theorem text_numberChar (h : shape x = .finite significand exponent) :
    ∀ c ∈ (text x).toList, NumberChar c := by
  rw [text_toList h, List.forall_mem_append]
  exact ⟨signText_numberChar _, finiteText_numberChar significand exponent⟩

/-- The text of a finite number has a point or an exponent. -/
theorem text_marked (h : shape x = .finite significand exponent) :
    '.' ∈ (text x).toList ∨ 'e' ∈ (text x).toList := by
  rw [text_toList h]
  exact (finiteText_marked significand exponent).imp (List.mem_append_right _)
    (List.mem_append_right _)

end

end Binary64

end TaskTree
