/-
Words are read as the grammar spells them.

For every reader of a word there are two facts. What it takes from the
front of a text is a word of the grammar (`_sound`); and a word of the
grammar at the front of a text is what it takes (`_complete`), where the
end of a word without a closing sign needs a character after it that cannot
belong to the word, or the end of the line.
-/
import TaskTree.Proofs.Outline.Grammar
import TaskTree.Proofs.Spans

namespace TaskTree.Outline

open Grammar (Separating Indenting NameStart NameChar TokenChar HexDigit DigitOf
  Space)

-- ============================================================ characters

/-- The test for a separator accepts exactly the separators of the grammar. -/
theorem isSpace_iff {c : Char} : isSpace c = true ↔ Separating c := by
  simp [isSpace, Separating, or_assoc]

/-- The test for an indenting character accepts exactly space and tab. -/
theorem isIndent_iff {c : Char} : isIndent c = true ↔ Indenting c := by
  simp [isIndent, Indenting]

/-- A name can start where the grammar lets it: at a letter or at an
underscore. -/
theorem startsName_iff {c : Char} : startsName c = true ↔ NameStart c := by
  simp [startsName, isLetter, NameStart, Grammar.Letter, or_assoc]

/-- The characters that carry a name on are those of the grammar: the letters,
the digits, underscore and hyphen. -/
theorem isNameChar_iff {c : Char} : isNameChar c = true ↔ NameChar c := by
  simp [isNameChar, isLetter, Numeral.isDigit, NameChar, Grammar.Letter,
    Grammar.Digit, or_assoc]

/-- The test is the other way round: what ends a bare token is what the grammar
keeps out of one. -/
theorem endsToken_iff {c : Char} : endsToken c = false ↔ TokenChar c := by
  simp [endsToken, isSpace, TokenChar, Separating, and_assoc]

/-- The digits of an escape are the hexadecimal ones, in either case of the
letters. -/
theorem isHex_iff {c : Char} : Quoted.isHex c = true ↔ HexDigit c := by
  simp [Quoted.isHex, HexDigit, Grammar.Digit, or_assoc]

-- ================================================================ digits

/-- The hexadecimal digits of both cases. -/
def hexDigits : List Char :=
  (List.range' 48 10 ++ (List.range' 97 6 ++ List.range' 65 6)).map Char.ofNat

/-- The order of characters is the order of their codes. -/
theorem toNat_le_of_le {c d : Char} (h : c ≤ d) : c.toNat ≤ d.toNat :=
  UInt32.le_iff_toNat_le.1 (Char.le_def.1 h)

/-- A hexadecimal digit is one of a list of twenty-two characters, so a fact
about all of them can be decided character by character. -/
theorem mem_hexDigits {d : Char} (h : HexDigit d) : d ∈ hexDigits := by
  have hranges : ∀ {first count : Nat}, first ≤ d.toNat →
      d.toNat < first + count →
      d.toNat ∈ List.range' first count :=
    fun hlow hhigh => List.mem_range'_1.2 ⟨hlow, hhigh⟩
  -- The codes of the three ranges of the grammar, one interval each.
  have hcode : d.toNat
      ∈ List.range' 48 10 ++ (List.range' 97 6 ++ List.range' 65 6) := by
    rcases h with ⟨hlow, hhigh⟩ | ⟨hlow, hhigh⟩ | ⟨hlow, hhigh⟩
    · exact List.mem_append_left _
        (hranges (toNat_le_of_le hlow)
          (Nat.lt_succ_of_le (toNat_le_of_le hhigh)))
    · exact List.mem_append_right _ (List.mem_append_left _
        (hranges (toNat_le_of_le hlow)
          (Nat.lt_succ_of_le (toNat_le_of_le hhigh))))
    · exact List.mem_append_right _ (List.mem_append_right _
        (hranges (toNat_le_of_le hlow)
          (Nat.lt_succ_of_le (toNat_le_of_le hhigh))))
  exact List.mem_map.2 ⟨d.toNat, hcode, Char.ofNat_toNat d⟩

/-- What the reader computes for a hexadecimal digit is below sixteen, and the
digit is one that the grammar tells from that number. -/
theorem digitOf_hexDigit {d : Char} (h : HexDigit d) :
    Quoted.hexDigit d < 16 ∧ DigitOf (Quoted.hexDigit d) d := by
  have hall : (hexDigits.all fun d => decide (Quoted.hexDigit d < 16
      ∧ (d = Nat.digitChar (Quoted.hexDigit d)
        ∨ d = (Nat.digitChar (Quoted.hexDigit d)).toUpper))) = true := by decide
  have hd := of_decide_eq_true (List.all_eq_true.1 hall d (mem_hexDigits h))
  exact hd

/-- The other direction: a digit told from a number below sixteen is
hexadecimal, and the reader computes that number back. -/
theorem Grammar.DigitOf.hexDigit {n : Nat} {d : Char} (hn : n < 16)
    (h : DigitOf n d) :
    HexDigit d ∧ Quoted.hexDigit d = n := by
  have hlower : ∀ n < 16, Quoted.isHex (Nat.digitChar n) = true
      ∧ Quoted.hexDigit (Nat.digitChar n) = n := by decide
  have hupper : ∀ n < 16, Quoted.isHex (Nat.digitChar n).toUpper = true
      ∧ Quoted.hexDigit (Nat.digitChar n).toUpper = n := by decide
  rcases h with rfl | rfl
  · exact (hlower n hn).imp_left isHex_iff.1
  · exact (hupper n hn).imp_left isHex_iff.1

/-- The fold over four digits, written out by place. -/
theorem hexValue_four (a b c d : Char) :
    Quoted.hexValue [a, b, c, d]
      = 0x1000 * Quoted.hexDigit a + 0x100 * Quoted.hexDigit b
      + 0x10 * Quoted.hexDigit c + Quoted.hexDigit d := by
  simp only [Quoted.hexValue, List.foldl_cons, List.foldl_nil]
  omega

/-- What the grammar takes for the digits of a code unit are four hexadecimal
digits that add up to it. -/
theorem code_iff {ds : List Char} {n : Nat} :
    Grammar.Code ds n
      ↔ ds.length = 4 ∧ (∀ d ∈ ds, HexDigit d) ∧ Quoted.hexValue ds = n := by
  constructor
  · rintro ⟨hn, hdigits⟩
    cases hdigits with
    -- The grammar spells four digits, one for each place of the number.
    | @cons _ a _ _ ha hdigits =>
    cases hdigits with
    | @cons _ b _ _ hb hdigits =>
    cases hdigits with
    | @cons _ c _ _ hc hdigits =>
    cases hdigits with
    | @cons _ d _ _ hd hdigits =>
    cases hdigits
    obtain ⟨ha, ha'⟩ := ha.hexDigit (by omega)
    obtain ⟨hb, hb'⟩ := hb.hexDigit (by omega)
    obtain ⟨hc, hc'⟩ := hc.hexDigit (by omega)
    obtain ⟨hd, hd'⟩ := hd.hexDigit (by omega)
    refine ⟨rfl, ?_, ?_⟩
    · simp only [List.forall_mem_cons]
      exact ⟨ha, hb, hc, hd, List.forall_mem_nil _⟩
    · rw [hexValue_four, ha', hb', hc', hd']
      omega
  · rintro ⟨hfour, hhex, hvalue⟩
    match ds, hfour with
    | [a, b, c, d], _ =>
        simp only [List.forall_mem_cons] at hhex
        obtain ⟨ha, hb, hc, hd, -⟩ := hhex
        obtain ⟨ha', hadigit⟩ := digitOf_hexDigit ha
        obtain ⟨hb', hbdigit⟩ := digitOf_hexDigit hb
        obtain ⟨hc', hcdigit⟩ := digitOf_hexDigit hc
        obtain ⟨hd', hddigit⟩ := digitOf_hexDigit hd
        -- The value fixes each of its four places, and each place fixes its
        -- digit, since every digit is below sixteen.
        rw [hexValue_four] at hvalue
        have h₁ : n / 0x1000 = Quoted.hexDigit a := by omega
        have h₂ : n / 0x100 % 0x10 = Quoted.hexDigit b := by omega
        have h₃ : n / 0x10 % 0x10 = Quoted.hexDigit c := by omega
        have h₄ : n % 0x10 = Quoted.hexDigit d := by omega
        refine ⟨by omega, ?_⟩
        rw [Grammar.UnitDigits, h₁, h₂, h₃, h₄]
        exact .cons hadigit (.cons hbdigit (.cons hcdigit (.cons hddigit .nil)))

/-- The digits of an escape are four. -/
theorem Grammar.Code.four {ds : List Char} {n : Nat} (h : Grammar.Code ds n) :
    ds.length = 4 :=
  (code_iff.1 h).1

/-- Each digit of an escape is hexadecimal. -/
theorem Grammar.Code.hex {ds : List Char} {n : Nat} (h : Grammar.Code ds n) :
    ∀ d ∈ ds, HexDigit d :=
  (code_iff.1 h).2.1

/-- The reader adds the digits up to the number that they were told from. -/
theorem Grammar.Code.value {ds : List Char} {n : Nat} (h : Grammar.Code ds n) :
    Quoted.hexValue ds = n :=
  (code_iff.1 h).2.2

-- ================================================================ spaces

/-- Skipping separators takes them off the front of a text. -/
theorem skipSpace_sound (cs : List Char) :
    ∃ space, Space space ∧ cs = space ++ skipSpace cs
      ∧ Stops isSpace (skipSpace cs) :=
  ⟨cs.takeWhile isSpace, fun c hc => isSpace_iff.1 (mem_takeWhile c hc),
    List.takeWhile_append_dropWhile.symm, stops_dropWhile isSpace cs⟩

theorem skipSpace_complete {space rest : List Char} (h : Space space)
    (hrest : Stops isSpace rest) :
    skipSpace (space ++ rest) = rest :=
  dropWhile_append (fun c hc => isSpace_iff.2 (h c hc)) hrest

-- ================================================================= names

/-- What is read as a name is one, and it stands at the front of the text. -/
theorem readName_sound {cs name rest : List Char}
    (h : readName cs = .ok (name, rest)) :
    Grammar.Name name ∧ cs = name ++ rest := by
  cases cs with
  | nil => cases h
  | cons c more =>
      rw [readName] at h
      by_cases hstart : startsName c = true
      · rw [if_pos hstart] at h
        cases h
        refine ⟨.mk (startsName_iff.1 hstart) fun d hd =>
            isNameChar_iff.1 (mem_takeWhile d hd), ?_⟩
        rw [List.cons_append, List.takeWhile_append_dropWhile]
      · rw [if_neg hstart] at h
        cases h

/-- A name is read whole when no character that could carry it on follows. -/
theorem readName_complete {name rest : List Char} (h : Grammar.Name name)
    (hrest : Stops isNameChar rest) :
    readName (name ++ rest) = .ok (name, rest) := by
  cases h with
  | mk hstart hmore =>
      have hmore := fun d hd => isNameChar_iff.2 (hmore d hd)
      rw [List.cons_append, readName, if_pos (startsName_iff.2 hstart),
        takeWhile_append hmore hrest, dropWhile_append hmore hrest]

-- =============================================================== escapes

/-- Whatever the text, at most four hexadecimal digits are taken from its
front. -/
theorem fourHex_sound (cs : List Char) :
    cs = (Quoted.fourHex cs).1 ++ (Quoted.fourHex cs).2
      ∧ (∀ d ∈ (Quoted.fourHex cs).1, HexDigit d)
      ∧ (Quoted.fourHex cs).1.length ≤ 4 := by
  have hprefix : (cs.take 4).takeWhile Quoted.isHex <+: cs :=
    (List.takeWhile_prefix _).trans (List.take_prefix 4 cs)
  refine ⟨?_, fun d hd => isHex_iff.1 (mem_takeWhile d hd), ?_⟩
  · exact (List.prefix_iff_eq_append.1 hprefix).symm
  · exact Nat.le_trans (List.takeWhile_prefix _).length_le
      (List.length_take_le 4 cs)

/-- Four hexadecimal digits are taken whole, also when a fifth follows. -/
theorem fourHex_complete {ds rest : List Char} (hfour : ds.length = 4)
    (hhex : ∀ d ∈ ds, HexDigit d) :
    Quoted.fourHex (ds ++ rest) = (ds, rest) := by
  have htake : (ds ++ rest).take 4 = ds := List.take_left' hfour
  have hrun : ds.takeWhile Quoted.isHex = ds :=
    List.takeWhile_eq_self_iff.2 fun d hd => isHex_iff.2 (hhex d hd)
  unfold Quoted.fourHex
  rw [htake, hrun]
  exact congrArg (Prod.mk ds) List.drop_left

/-- The first half of a pair is told by the range of the grammar. -/
theorem isHigh_iff {n : Nat} : Quoted.isHigh n = true ↔ Grammar.High n := by
  simp [Quoted.isHigh, Grammar.High]

/-- The second half of a pair is told by the range of the grammar. -/
theorem isLow_iff {n : Nat} : Quoted.isLow n = true ↔ Grammar.Low n := by
  simp [Quoted.isLow, Grammar.Low]

/-- A letter with a short escape stands for the character that the grammar gives
it. -/
theorem shortEscape?_sound {c value : Char}
    (h : Quoted.shortEscape? c = some value) :
    Grammar.Short c value := by
  unfold Quoted.shortEscape? at h
  split at h <;> cases h <;> constructor

/-- What is read behind the letter of a long escape is either one code that is
no half of a pair, or two codes that make one. A first half must be followed by
a second one; a second half on its own is refused, and any other code stands for
itself. -/
theorem readUnicode_sound {cs rest : List Char} {value : Char}
    (h : Quoted.readUnicode cs = .ok (value, rest)) :
    ∃ es, Grammar.Escape ('u' :: es) value ∧ cs = es ++ rest := by
  obtain ⟨hsplit, hhex, hlength⟩ := fourHex_sound cs
  rw [Quoted.readUnicode] at h
  dsimp only at h
  by_cases hshort : (Quoted.fourHex cs).1.length < 4
  · rw [if_pos hshort] at h
    cases h
  rw [if_neg hshort] at h
  have hcode : Grammar.Code (Quoted.fourHex cs).1
      (Quoted.hexValue (Quoted.fourHex cs).1) :=
    code_iff.2 ⟨by omega, hhex, rfl⟩
  by_cases hhigh : Quoted.isHigh (Quoted.hexValue (Quoted.fourHex cs).1) = true
  · rw [if_pos hhigh] at h
    split at h
    · rename_i more hmore
      obtain ⟨hsplit', hhex', hlength'⟩ := fourHex_sound more
      by_cases hlow : ((Quoted.fourHex more).1.length < 4
          || !Quoted.isLow (Quoted.hexValue (Quoted.fourHex more).1)) = true
      · rw [if_pos hlow] at h
        cases h
      · rw [if_neg hlow] at h
        -- The tests for the second code, split into the two facts that the
        -- grammar asks for.
        obtain ⟨rfl, rfl⟩ := Prod.mk.inj (Except.ok.inj h)
        simp only [Bool.or_eq_true, decide_eq_true_eq, Bool.not_eq_true',
          not_or, Bool.not_eq_false] at hlow
        have hcode' : Grammar.Code (Quoted.fourHex more).1
            (Quoted.hexValue (Quoted.fourHex more).1) :=
          code_iff.2 ⟨by omega, hhex', rfl⟩
        unfold Quoted.pairValue
        refine ⟨_, .pair hcode (isHigh_iff.1 hhigh) hcode' (isLow_iff.1 hlow.2),
          ?_⟩
        rw [List.append_assoc, List.cons_append, List.cons_append, ← hsplit',
          ← hmore]
        exact hsplit
    · cases h
  · rw [if_neg hhigh] at h
    by_cases hlow : Quoted.isLow (Quoted.hexValue (Quoted.fourHex cs).1) = true
    · rw [if_pos hlow] at h
      cases h
    · rw [if_neg hlow] at h
      cases h
      exact ⟨_, .unicode hcode (mt isHigh_iff.2 hhigh) (mt isLow_iff.2 hlow),
        hsplit⟩

/-- What is read behind a backslash is an escape of the grammar. -/
theorem readEscape_sound {whole cs rest : List Char} {value : Char}
    (h : Quoted.readEscape whole cs = .ok (value, rest)) :
    ∃ es, Grammar.Escape es value ∧ cs = es ++ rest := by
  cases cs with
  | nil => cases h
  | cons c more =>
      rw [Quoted.readEscape] at h
      cases hshort : Quoted.shortEscape? c with
      | some short =>
          rw [hshort] at h
          cases h
          exact ⟨[c], .short (shortEscape?_sound hshort), rfl⟩
      | none =>
          rw [hshort] at h
          dsimp only at h
          -- No short escape is spelt with this letter, so only the long one is
          -- left.
          by_cases hu : c = 'u'
          · rw [if_pos hu] at h
            obtain ⟨es, hescape, rfl⟩ := readUnicode_sound h
            rw [hu]
            exact ⟨'u' :: es, hescape, rfl⟩
          · rw [if_neg hu] at h
            cases h

/-- A `\\u` escape is left to the reader of code units. -/
theorem readEscape_u (whole rest : List Char) :
    Quoted.readEscape whole ('u' :: rest) = Quoted.readUnicode rest := rfl

theorem readEscape_complete {es : List Char} {value : Char}
    (h : Grammar.Escape es value) (whole rest : List Char) :
    Quoted.readEscape whole (es ++ rest) = .ok (value, rest) := by
  cases h with
  | short hshort => cases hshort <;> rfl
  | unicode hcode hhigh hlow =>
      have hlong : ¬ List.length _ < 4 :=
        Nat.not_lt.2 (Nat.le_of_eq hcode.four.symm)
      rw [List.cons_append, readEscape_u, Quoted.readUnicode,
        fourHex_complete hcode.four hcode.hex]
      dsimp only
      rw [if_neg hlong, hcode.value, if_neg (mt isHigh_iff.1 hhigh),
        if_neg (mt isLow_iff.1 hlow)]
  | @pair ds es high low hcode hhigh hcode' hlow =>
      have hlong : ¬ ds.length < 4 :=
        Nat.not_lt.2 (Nat.le_of_eq hcode.four.symm)
      have hlong' : ¬ (es.length < 4 || !Quoted.isLow (Quoted.hexValue es))
          = true := by
        rw [hcode'.four, hcode'.value, isLow_iff.2 hlow]
        exact Bool.false_ne_true
      -- The rest of the text moves behind the second half, so that the reader
      -- finds the backslash right after the first four digits.
      have hsplit : 'u' :: (ds ++ '\\' :: 'u' :: es) ++ rest
          = 'u' :: (ds ++ '\\' :: 'u' :: (es ++ rest)) := by
        rw [List.cons_append, List.append_assoc, List.cons_append,
          List.cons_append]
      rw [hsplit, readEscape_u, Quoted.readUnicode,
        fourHex_complete hcode.four hcode.hex]
      dsimp only
      rw [if_neg hlong, hcode.value, if_pos (isHigh_iff.2 hhigh)]
      split
      · rename_i more hmore
        cases hmore
        rw [fourHex_complete hcode'.four hcode'.hex, if_neg hlong',
          hcode'.value]
        rfl
      -- The text behind the first half does begin with a backslash.
      · rename_i hnone
        exact absurd rfl (hnone (es ++ rest))

-- ================================================================ values

/-- What is read after an opening quote is what stands before the closing one.
By induction along the reader's own recursion; only the cases where it gives a
result (a closing sign, an escape, a plain character) are left to show. -/
theorem readQuoted_sound {whole cs values rest : List Char}
    (h : Quoted.read whole cs = .ok (values, rest)) :
    ∃ body, Grammar.Body body values ∧ cs = body ++ '"' :: rest := by
  fun_induction Quoted.read whole cs generalizing values rest with
  | case1 => cases h
  | case2 more =>
      cases h
      exact ⟨[], .nil, rfl⟩
  | case3 => cases h
  | case4 => cases h
  | case5 more value after hread hlt values' after' hmore hquote ih =>
      cases h
      obtain ⟨es, hescape, rfl⟩ := readEscape_sound hread
      obtain ⟨body, hbody, rfl⟩ := ih hmore
      refine ⟨'\\' :: (es ++ body), .escape hescape hbody, ?_⟩
      rw [List.cons_append, List.append_assoc]
  | case6 => cases h
  | case7 c more hquote hslash values' after' hmore ih =>
      cases h
      obtain ⟨body, hbody, rfl⟩ := ih hmore
      exact ⟨c :: body, .raw hquote hslash hbody, rfl⟩

/-- A body of the grammar with its closing sign is read to its end, whatever
follows. -/
theorem readQuoted_complete {body values : List Char}
    (h : Grammar.Body body values) (whole rest : List Char) :
    Quoted.read whole (body ++ '"' :: rest) = .ok (values, rest) := by
  induction h with
  | nil =>
      rw [List.nil_append, Quoted.read, if_pos rfl]
  | raw hquote hslash hbody ih =>
      rw [List.cons_append, Quoted.read, if_neg hquote, if_neg hslash, ih]
  | @escape es cs values value hescape hbody ih =>
      -- The escape is read whole, so the recursion goes on behind it.
      have hread := readEscape_complete hescape whole (cs ++ '"' :: rest)
      have hquote : ¬ '\\' = '"' := by decide
      rw [List.cons_append, List.append_assoc, Quoted.read, if_neg hquote,
        if_pos rfl]
      split
      · rename_i hfault
        rw [hread] at hfault
        cases hfault
      · rename_i value' after hvalue
        rw [hread] at hvalue
        cases hvalue
        rw [ih]

/-- What is read as a value is one: the quoted text with both its signs, or a
token up to its end. -/
theorem readValue_sound {name cs rest : List Char} {value : Literal}
    (h : readValue name cs = .ok (value, rest)) :
    ∃ word, Grammar.Value word value ∧ cs = word ++ rest := by
  cases cs with
  | nil => cases h
  | cons c more =>
      rw [readValue] at h
      by_cases hclose : c = ')'
      · rw [if_pos hclose] at h
        cases h
      rw [if_neg hclose] at h
      by_cases hquote : c = '"'
      · rw [if_pos hquote] at h
        split at h
        · cases h
        · rename_i values after hread
          cases h
          obtain ⟨body, hbody, hmore⟩ := readQuoted_sound hread
          refine ⟨'"' :: (body ++ ['"']), .quoted hbody, ?_⟩
          rw [hquote, hmore, List.cons_append, List.append_assoc]
          rfl
      rw [if_neg hquote] at h
      -- A token cannot begin with a sign that separates words.
      by_cases hstray : c = '#' ∨ c = ':' ∨ c = '('
      · rw [if_pos hstray] at h
        cases h
      rw [if_neg hstray, readToken] at h
      split at h
      · rename_i literal htoken
        cases h
        have hall : ∀ d ∈ (c :: more).takeWhile (fun d => !endsToken d),
            TokenChar d :=
          fun d hd => endsToken_iff.1 (by simpa using mem_takeWhile d hd)
        refine ⟨_, ?_, List.takeWhile_append_dropWhile.symm⟩
        -- If the token ended at once it would be empty, and the empty token
        -- stands for nothing.
        cases hend : endsToken c with
        | true =>
            rw [List.takeWhile_cons_of_neg
                (by rw [hend]; exact Bool.false_ne_true)] at htoken
            cases htoken
        | false =>
            rw [List.takeWhile_cons_of_pos (by rw [hend]; rfl)] at htoken hall ⊢
            exact .token hall (fun h => hstray (.inl h))
              (fun h => hstray (.inr (.inl h))) hquote htoken
      · cases h

/-- What may come after a bare value. -/
def EndsValue (rest : List Char) : Prop :=
  ∀ c, rest.head? = some c → endsToken c = true

/-- No bare token stands for a text. -/
theorem ofToken?_ne_text (cs : List Char) (text : String) :
    Literal.ofToken? cs ≠ some (.text text) := by
  unfold Literal.ofToken?
  intro h
  split_ifs at h
  · cases h
  · cases h
  · cases h
  · obtain ⟨_, -, hfloat⟩ := Option.map_eq_some_iff.1 h
    cases hfloat
  · obtain ⟨_, -, hint⟩ := Option.map_eq_some_iff.1 h
    cases hint

/-- A bare value needs something behind it that cannot belong to it. A quoted
one has its own end, so that anything may come behind it. -/
theorem readValue_complete {word rest : List Char} {value : Literal}
    (h : Grammar.Value word value)
    (hrest : EndsValue rest ∨ ∃ text, value = .text text) (name : List Char) :
    readValue name (word ++ rest) = .ok (value, rest) := by
  cases h with
  | @quoted cs values hbody =>
      have hsplit : '"' :: (cs ++ ['"']) ++ rest
          = '"' :: (cs ++ '"' :: rest) := by
        rw [List.cons_append, List.append_assoc]
        rfl
      have hclose : ¬ '"' = ')' := by decide
      rw [hsplit, readValue, if_neg hclose, if_pos rfl,
        readQuoted_complete hbody]
  | @token c more value hall hhash hcolon hquote htoken =>
      -- Only a token needs its end marked, and a token never stands for a text.
      have hends : EndsValue rest := by
        rcases hrest with hrest | ⟨text, rfl⟩
        · exact hrest
        · exact absurd htoken (ofToken?_ne_text _ text)
      obtain ⟨hopen, hclose, -⟩ := hall c List.mem_cons_self
      -- None of the signs that the reader looks for first can begin a token.
      have hstray : ¬ (c = '#' ∨ c = ':' ∨ c = '(') := by
        rintro (h | h | h)
        · exact hhash h
        · exact hcolon h
        · exact hopen h
      have hinside : ∀ d ∈ c :: more, (!endsToken d) = true := fun d hd => by
        rw [endsToken_iff.2 (hall d hd)]
        rfl
      have hstop : Stops (fun d => !endsToken d) rest := fun d hd =>
        congrArg (! ·) (hends d hd)
      rw [List.cons_append, readValue, if_neg hclose, if_neg hquote,
        if_neg hstray, readToken, ← List.cons_append,
        takeWhile_append hinside hstop, dropWhile_append hinside hstop, htoken]

-- ============================================================ attributes

/-- A word also ends where a separator follows it, if no separator can carry it
on. -/
theorem stops_append {p : Char → Bool} {space rest : List Char}
    (h : Space space) (hseparating : ∀ c, Separating c → p c = false)
    (hrest : Stops p rest) :
    Stops p (space ++ rest) := by
  cases space with
  | nil => exact hrest
  | cons c space =>
      intro d hd
      cases hd
      exact hseparating c (h c List.mem_cons_self)

/-- No separator can carry a name on. -/
theorem not_isNameChar_of_separating :
    ∀ c, Separating c → isNameChar c = false := by
  rintro c (rfl | rfl | rfl) <;> rfl

/-- No name begins with a separator. -/
theorem not_isSpace_of_nameStart {c : Char} (h : NameStart c) :
    isSpace c = false := by
  have hstart := startsName_iff.2 h
  refine eq_false_of_ne_true fun hspace => ?_
  rcases isSpace_iff.1 hspace with rfl | rfl |
      rfl <;> exact absurd hstart (by decide)

/-- A value does not begin with a separator. -/
theorem Grammar.Value.stops {word : List Char} {value : Literal}
    (h : Grammar.Value word value) (rest : List Char) :
    Stops isSpace (word ++ rest) := by
  intro c hc
  cases h with
  | quoted =>
      cases hc
      rfl
  | token hall =>
      cases hc
      exact eq_false_of_ne_true fun hspace =>
        (hall c List.mem_cons_self).2.2 (isSpace_iff.1 hspace)

/-- What is read as an attribute is a name and a value around a colon, with
separators before and after it. -/
theorem readAttribute_sound {cs name rest : List Char} {value : Literal}
    (h : readAttribute cs = .ok ((name, value), rest)) :
    ∃ word, Grammar.Attribute word [.attr (String.ofList name) value]
      ∧ cs = word ++ rest := by
  rw [readAttribute] at h
  split at h
  -- The name, the separators and the colon, each split off the front of what
  -- the one before it left.
  · cases h
  · rename_i name' afterName hname
    obtain ⟨hword, rfl⟩ := readName_sound hname
    obtain ⟨before, hbefore, hafterName, -⟩ := skipSpace_sound afterName
    split at h
    · cases h
    · rename_i c more hmore
      by_cases hcolon : c = ':'
      · rw [if_pos hcolon] at h
        obtain ⟨after, hafter, hmore', -⟩ := skipSpace_sound more
        split at h
        · cases h
        · rename_i value' rest' hvalue
          cases h
          obtain ⟨word, hvalue, hrest⟩ := readValue_sound hvalue
          refine ⟨_, .mk hword hbefore hafter hvalue, ?_⟩
          rw [hafterName, hmore, hcolon, hmore', hrest]
          simp only [List.append_assoc, List.cons_append]
      · rw [if_neg hcolon] at h
        cases h

/-- An attribute is one event. -/
theorem Grammar.Attribute.event {word : List Char} {es : List Event}
    (h : Grammar.Attribute word es) :
    ∃ name value, es = [.attr name value] := by
  cases h with
  | mk => exact ⟨_, _, rfl⟩

/-- An attribute of the grammar is read whole. Its value may need its end
marked, exactly as for a value on its own. -/
theorem readAttribute_complete {word rest : List Char} {name : String}
    {value : Literal} (h : Grammar.Attribute word [.attr name value])
    (hrest : EndsValue rest ∨ ∃ text, value = .text text) :
    readAttribute (word ++ rest) = .ok ((name.toList, value), rest) := by
  cases h with
  | @mk name before after cs value hname hbefore hafter hvalue =>
      have hsplit : name ++ (before ++ ':' :: (after ++ cs)) ++ rest
          = name ++ (before ++ ':' :: (after ++ (cs ++ rest))) := by
        simp only [List.append_assoc, List.cons_append]
      -- The name ends at the separators or at the colon, the separators before
      -- the colon end at it, and those after it end at the value.
      have hname' : Stops isNameChar
          (before ++ ':' :: (after ++ (cs ++ rest))) := by
        refine stops_append hbefore not_isNameChar_of_separating fun c hc => ?_
        cases hc
        rfl
      have hcolon : Stops isSpace (':' :: (after ++ (cs ++ rest))) :=
        fun c hc => by
          cases hc
          rfl
      have hvalue' : Stops isSpace (cs ++ rest) := hvalue.stops rest
      rw [hsplit, readAttribute, readName_complete hname hname']
      dsimp only
      rw [skipSpace_complete hbefore hcolon]
      dsimp only
      rw [if_pos rfl, skipSpace_complete hafter hvalue',
        readValue_complete hvalue hrest, String.toList_ofList]

/-- An attribute begins with its name. -/
theorem Grammar.Attribute.start {word : List Char} {es : List Event}
    (h : Grammar.Attribute word es) :
    ∃ c more, word = c :: more ∧ NameStart c := by
  cases h with
  | mk hname =>
      cases hname with
      | mk hstart => exact ⟨_, _, rfl, hstart⟩

end TaskTree.Outline
