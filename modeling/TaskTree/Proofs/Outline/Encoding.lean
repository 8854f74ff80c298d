/-
Quoted texts and the ways of writing them.

Every character has a few spellings between quotes: itself, if it is no
quote, backslash or line feed, its short escape, if it has one, and one or
two `\u` escapes with the digits of its UTF-16 code units in either case
(`Spelling`). A text is written by writing its characters one after another,
each in any of its spellings (`Encodes`).

The grammar of quoted texts goes the other way, from what is written to the
character, so that it has to tell surrogates from other code units. What it
derives between quotes are exactly the encodings (`body_iff`). Hence
`readValue_quoted`: the reader takes the encodings and nothing else, and a
surrogate that is not half of a pair stops it.
-/
import TaskTree.Proofs.Outline.LineEndings
import TaskTree.Proofs.Outline.Writing

namespace TaskTree.Outline

open Grammar (UnitDigits)

-- ============================================================== spellings

/-- The first UTF-16 code unit of a character above U+FFFF. -/
def highUnit (c : Char) : Nat := 0xD800 + (c.toNat - 0x10000) / 0x400

/-- The second UTF-16 code unit of a character above U+FFFF. -/
def lowUnit (c : Char) : Nat := 0xDC00 + (c.toNat - 0x10000) % 0x400

/-- How a character may be written between quotes. -/
inductive Spelling (c : Char) : List Char → Prop where
  | raw : c ≠ '"' → c ≠ '\\' → c ≠ '\n' → Spelling c [c]
  | short {e : Char} : Grammar.Short e c → Spelling c ['\\', e]
  | unit {ds : List Char} :
      c.toNat ≤ 0xFFFF → UnitDigits c.toNat ds → Spelling c ('\\' :: 'u' :: ds)
  | pair {ds es : List Char} :
      0xFFFF < c.toNat → UnitDigits (highUnit c) ds →
        UnitDigits (lowUnit c) es →
      Spelling c ('\\' :: 'u' :: (ds ++ '\\' :: 'u' :: es))

/-- A text, and what may be written for it between quotes. -/
inductive Encodes : List Char → List Char → Prop where
  | nil : Encodes [] []
  | cons {c : Char} {word values cs : List Char} :
      Spelling c word → Encodes values cs → Encodes (c :: values) (word ++ cs)

-- ============================================================= characters

/-- No character is a surrogate. -/
theorem not_surrogate (c : Char) :
    ¬ Grammar.High c.toNat ∧ ¬ Grammar.Low c.toNat := by
  have hvalid : c.toNat < 0xD800 ∨ (0xDFFF < c.toNat ∧ c.toNat < 0x110000) :=
    c.valid
  unfold Grammar.High Grammar.Low
  omega

/-- A number that is no surrogate and not too large is the code point of a
character. -/
theorem toNat_ofNat_of_not_surrogate {n : Nat} (hn : n < 0x110000)
    (hhigh : ¬ Grammar.High n) (hlow : ¬ Grammar.Low n) :
    (Char.ofNat n).toNat = n := by
  have hvalid : n.isValidChar := by
    unfold Grammar.High at hhigh
    unfold Grammar.Low at hlow
    unfold Nat.isValidChar
    omega
  rw [Char.ofNat, dif_pos hvalid]
  rfl

/-- The two code units of a character above U+FFFF, and back. -/
theorem pair_iff {c : Char} {high low : Nat} :
    (Grammar.High high ∧ Grammar.Low low
        ∧ c = Char.ofNat (0x10000 + (high - 0xD800) * 0x400 + (low - 0xDC00)))
      ↔ 0xFFFF < c.toNat ∧ high = highUnit c ∧ low = lowUnit c := by
  unfold highUnit lowUnit
  constructor
  -- The two halves carry twenty bits, so what they name lies below the end of
  -- the code space and beyond the surrogates.
  · intro h
    obtain ⟨⟨hhigh, hhigh'⟩, ⟨hlow, hlow'⟩, hc⟩ := h
    have hcode := toNat_ofNat_of_not_surrogate
      (n := 0x10000 + (high - 0xD800) * 0x400 + (low - 0xDC00)) (by omega)
      (by unfold Grammar.High; omega) (by unfold Grammar.Low; omega)
    rw [hc, hcode]
    omega
  · intro h
    obtain ⟨habove, hhigh, hlow⟩ := h
    have hvalid : c.toNat.isValidChar := c.valid
    unfold Nat.isValidChar at hvalid
    have hcode : 0x10000 + (high - 0xD800) * 0x400 + (low - 0xDC00)
        = c.toNat := by omega
    refine ⟨by unfold Grammar.High; omega, by unfold Grammar.Low; omega, ?_⟩
    rw [hcode, Char.ofNat_toNat]

/-- An escape is a spelling of the character that it denotes. -/
theorem Grammar.Escape.spelling {es : List Char} {c : Char}
    (h : Grammar.Escape es c) :
    Spelling c ('\\' :: es) := by
  cases h with
  | short hshort => exact .short hshort
  | @unicode ds n hcode hhigh hlow =>
      obtain ⟨hn, hdigits⟩ := hcode
      have htoNat := toNat_ofNat_of_not_surrogate (by omega) hhigh hlow
      exact .unit (by rw [htoNat]; exact hn) (by rw [htoNat]; exact hdigits)
  | @pair ds es high low hcode hhigh hcode' hlow =>
      obtain ⟨habove, hfirst, hsecond⟩ := pair_iff.1 ⟨hhigh, hlow, rfl⟩
      exact .pair habove (hfirst ▸ hcode.digits) (hsecond ▸ hcode'.digits)

/-- A spelling is the character itself or an escape. -/
theorem Spelling.cases_escape {c : Char} {word : List Char}
    (h : Spelling c word) :
    (word = [c] ∧ c ≠ '"' ∧ c ≠ '\\' ∧ c ≠ '\n')
      ∨ ∃ es, word = '\\' :: es ∧ Grammar.Escape es c := by
  cases h with
  | raw hquote hbackslash hline => exact .inl ⟨rfl, hquote, hbackslash, hline⟩
  | @short e hshort => exact .inr ⟨[e], rfl, .short hshort⟩
  | @unit ds hcode hdigits =>
      have hescape :=
        Grammar.Escape.unicode ⟨hcode, hdigits⟩ (not_surrogate c).1
          (not_surrogate c).2
      rw [Char.ofNat_toNat] at hescape
      exact .inr ⟨_, rfl, hescape⟩
  | @pair ds es habove hfirst hsecond =>
      obtain ⟨hhigh, hlow, hc⟩ := pair_iff.2 ⟨habove, rfl, rfl⟩
      have hhigh' : highUnit c ≤ 0xFFFF := by
        unfold Grammar.High at hhigh
        omega
      have hlow' : lowUnit c ≤ 0xFFFF := by
        unfold Grammar.Low at hlow
        omega
      have hescape :=
        Grammar.Escape.pair ⟨hhigh', hfirst⟩ hhigh ⟨hlow', hsecond⟩ hlow
      rw [← hc] at hescape
      exact .inr ⟨_, rfl, hescape⟩

-- ================================================================== texts

/-- No hexadecimal digit is a line feed. -/
theorem newline_not_mem_digits {ds : List Char}
    (h : ∀ d ∈ ds, Grammar.HexDigit d) : '\n' ∉ ds :=
  fun hmem => absurd (isHex_iff.2 (h _ hmem)) (by decide)

/-- No escape spans two lines. -/
theorem Grammar.Escape.newline_not_mem {es : List Char} {c : Char}
    (h : Grammar.Escape es c) :
    '\n' ∉ es := by
  cases h with
  | short hshort => cases hshort <;> decide
  | unicode hcode =>
      rw [List.mem_cons, not_or]
      exact ⟨by decide, newline_not_mem_digits hcode.hex⟩
  | pair hcode _ hcode' =>
      simp only [List.mem_cons, List.mem_append, not_or]
      exact ⟨by decide, newline_not_mem_digits hcode.hex, by decide, by decide,
        newline_not_mem_digits hcode'.hex⟩

/-- What the grammar derives between quotes are the encodings. -/
theorem body_iff {cs values : List Char} :
    Grammar.Body cs values ∧ '\n' ∉ cs ↔ Encodes values cs := by
  constructor
  -- A spelling of the grammar is split at its escapes. The line feed is the
  -- only character that the grammar allows and a line cannot hold.
  · rintro ⟨hbody, hline⟩
    induction hbody with
    | nil => exact .nil
    | raw hquote hbackslash _ ih =>
        rw [List.mem_cons, not_or] at hline
        exact .cons (.raw hquote hbackslash (Ne.symm hline.1)) (ih hline.2)
    | escape hescape _ ih =>
        rw [List.mem_cons, List.mem_append, not_or, not_or] at hline
        exact .cons hescape.spelling (ih hline.2.2)
  · intro h
    induction h with
    | nil => exact ⟨.nil, List.not_mem_nil⟩
    | cons hspelling _ ih =>
        rcases hspelling.cases_escape with ⟨rfl, hquote, hbackslash, hline⟩ |
            ⟨es, rfl, hescape⟩
        · refine ⟨.raw hquote hbackslash ih.1, ?_⟩
          rw [List.singleton_append, List.mem_cons, not_or]
          exact ⟨Ne.symm hline, ih.2⟩
        · refine ⟨.escape hescape ih.1, ?_⟩
          rw [List.cons_append, List.mem_cons, List.mem_append, not_or, not_or]
          exact ⟨by decide, hescape.newline_not_mem, ih.2⟩

-- ============================================================= surrogates

/-- A surrogate that is not half of a pair, where `rest` follows its escape: a
low one, or a high one that no escape of a low one follows. -/
def Unpaired (n : Nat) (rest : List Char) : Prop :=
  Grammar.Low n
    ∨ (Grammar.High n ∧ ∀ es low more, rest = '\\' :: 'u' :: (es ++ more) →
    low ≤ 0xFFFF → UnitDigits low es → ¬ Grammar.Low low)

/-- A code unit that stands alone denotes nothing. -/
theorem readUnicode_of_unpaired {ds rest : List Char} {n : Nat}
    (hn : n ≤ 0xFFFF) (hds : UnitDigits n ds) (h : Unpaired n rest) :
    ∃ escape, Quoted.readUnicode (ds ++ rest)
      = .error (.badCodePoint escape, '\\' :: 'u' :: (ds ++ rest)) := by
  have hcode : Grammar.Code ds n := ⟨hn, hds⟩
  rw [Quoted.readUnicode, fourHex_complete hcode.four hcode.hex]
  dsimp only
  rw [hcode.value, if_neg (Nat.not_lt.2 (Nat.le_of_eq hcode.four.symm))]
  -- A low surrogate is refused where it stands, and a high one for what follows
  -- it.
  rcases h with hlow | ⟨hhigh, hnone⟩
  · have hnot : ¬ Quoted.isHigh n = true := by
      rw [isHigh_iff]
      unfold Grammar.High
      unfold Grammar.Low at hlow
      omega
    rw [if_neg hnot, if_pos (isLow_iff.2 hlow)]
    exact ⟨_, rfl⟩
  rw [if_pos (isHigh_iff.2 hhigh)]
  split
  · rename_i more
    obtain ⟨hsplit, hhex', hlength⟩ := fourHex_sound more
    split
    · exact ⟨_, rfl⟩
    · rename_i hlow
      simp only [Bool.or_eq_true, decide_eq_true_eq, Bool.not_eq_true', not_or,
        Bool.not_eq_false, isLow_iff] at hlow
      obtain ⟨hle, hdigits⟩ := code_iff.2 ⟨by omega, hhex', rfl⟩
      exact absurd hlow.2
        (hnone _ _ _ (congrArg _ (congrArg _ hsplit)) hle hdigits)
  · exact ⟨_, rfl⟩

/-- A text that is read as far as an unpaired surrogate is refused there. -/
theorem read_of_unpaired {values cs ds rest : List Char} {n : Nat}
    (hcs : Encodes values cs) (hn : n ≤ 0xFFFF) (hds : UnitDigits n ds)
    (h : Unpaired n rest) (whole : List Char) :
    ∃ escape, Quoted.read whole (cs ++ '\\' :: 'u' :: (ds ++ rest))
      = .error (.badCodePoint escape, '\\' :: 'u' :: (ds ++ rest)) := by
  obtain ⟨escape, hread⟩ := readUnicode_of_unpaired hn hds h
  refine ⟨escape, readQuoted_append (body_iff.2 hcs).1 ?_⟩
  rw [Quoted.read_backslash, readEscape_u, hread]
  rfl

-- ============================================================== the reader

/-- A value that begins with a quote is what the reader of quoted texts makes of
it. -/
theorem readValue_of_quote (name cs : List Char) :
    readValue name ('"' :: cs)
      = (Quoted.read ('"' :: cs) cs).map fun x =>
        (.text (String.ofList x.1), x.2) := by
  rw [readValue, if_neg (by decide), if_pos rfl]
  cases Quoted.read ('"' :: cs) cs <;> rfl

/-- A quoted value is read as a text exactly if an encoding of that text stands
before the closing quote, and the line goes on right behind this quote. No other
value is read of it, and after the encodings of some characters a surrogate that
is not half of a pair is a fault, at its own place. -/
theorem readValue_quoted (name : List Char) {cs : List Char}
    (hline : '\n' ∉ cs) :
    (∀ (text : String) (rest : List Char),
      readValue name ('"' :: cs) = .ok (.text text, rest) ↔
        ∃ enc, Encodes text.toList enc ∧ cs = enc ++ '"' :: rest)
      ∧ (∀ value rest, readValue name ('"' :: cs) = .ok (value, rest) →
        ∃ text, value = .text text)
      ∧ ∀ values enc n ds rest, Encodes values enc → n ≤ 0xFFFF →
        UnitDigits n ds →
        Unpaired n rest → cs = enc ++ '\\' :: 'u' :: (ds ++ rest) →
          ∃ escape, readValue name ('"' :: cs)
            = .error (.badCodePoint escape, '\\' :: 'u' :: (ds ++ rest)) := by
  rw [readValue_of_quote]
  -- What is read has a spelling in front of the quote; each spelling is read;
  -- nothing but texts is read after a quote; and an unpaired surrogate is
  -- refused.
  refine ⟨fun text rest => ⟨fun h => ?_, fun h => ?_⟩, fun value rest h => ?_,
    fun values enc n ds rest henc hn hds hunpaired hcs => ?_⟩
  · cases hread : Quoted.read ('"' :: cs) cs with
    | error fault =>
        rw [hread] at h
        cases h
    | ok x =>
        obtain ⟨values, rest'⟩ := x
        rw [hread] at h
        cases h
        -- The reader stops at the first quote that is not escaped, so the
        -- spelling is all that lies before it.
        obtain ⟨enc, hbody, hcs⟩ := readQuoted_sound hread
        have henc : '\n' ∉ enc :=
          fun hmem => hline (hcs ▸ List.mem_append_left _ hmem)
        refine ⟨enc, ?_, hcs⟩
        rw [String.toList_ofList]
        exact body_iff.1 ⟨hbody, henc⟩
  · obtain ⟨enc, henc, rfl⟩ := h
    rw [readQuoted_complete (body_iff.2 henc).1]
    exact congrArg (fun t => Except.ok (Literal.text t, rest))
      String.ofList_toList
  · cases hread : Quoted.read ('"' :: cs) cs with
    | error fault =>
        rw [hread] at h
        cases h
    | ok x =>
        rw [hread] at h
        cases h
        exact ⟨_, rfl⟩
  · obtain ⟨escape, hread⟩ := read_of_unpaired henc hn hds hunpaired ('"' :: cs)
    rw [← hcs] at hread
    rw [hread]
    exact ⟨escape, rfl⟩

/-- A raw character, a short escape, a pair with digits of both cases and a code
unit, one after another. -/
theorem encodes_smile :
    Encodes "é\"😀A".toList
      ['é', '\\', '"', '\\', 'u', 'D', '8', '3', 'd', '\\', 'u', 'd', 'E', '0',
        '0', '\\', 'u', '0', '0', '4', '1'] := by
  have hunits : highUnit '😀' = 0xD83D ∧ lowUnit '😀' = 0xDE00 := by decide
  have hhigh : UnitDigits 0xD83D ['D', '8', '3', 'd'] :=
    .cons (.inr rfl)
      (.cons (.inl rfl) (.cons (.inl rfl) (.cons (.inl rfl) .nil)))
  have hlow : UnitDigits 0xDE00 ['d', 'E', '0', '0'] :=
    .cons (.inl rfl)
      (.cons (.inr rfl) (.cons (.inl rfl) (.cons (.inl rfl) .nil)))
  have hletter : UnitDigits 'A'.toNat ['0', '0', '4', '1'] :=
    .cons (.inl rfl)
      (.cons (.inl rfl) (.cons (.inl rfl) (.cons (.inl rfl) .nil)))
  have hchars : "é\"😀A".toList = ['é', '"', '😀', 'A'] := by decide
  rw [hchars]
  exact .cons (.raw (by decide) (by decide) (by decide)) (.cons (.short .quote)
    (.cons (.pair (by decide) (hunits.1 ▸ hhigh) (hunits.2 ▸ hlow))
      (.cons (.unit (by decide) hletter) .nil)))

/-- A text with a pair of surrogates, and one whose pair is broken off. -/
theorem readValue_quoted_smile :
    readValue ['s'] ('"'
      :: (['é', '\\', '"', '\\', 'u', 'D', '8', '3', 'd', '\\', 'u', 'd', 'E',
        '0', '0', '\\', 'u', '0', '0', '4', '1'] ++ '"' :: [')']))
        = .ok (.text "é\"😀A", [')'])
      ∧ ∃ escape, readValue ['s']
        ('"' :: (['\\', '"'] ++ '\\' :: 'u' :: (['D', '8', '3', 'd']
          ++ ['\\', 'n', '"', ')'])))
        = .error (.badCodePoint escape,
          ['\\', 'u', 'D', '8', '3', 'd', '\\', 'n', '"', ')']) := by
  have hquote : Encodes ['"'] ['\\', '"'] := .cons (.short .quote) .nil
  have hdigits : UnitDigits 0xD83D ['D', '8', '3', 'd'] :=
    .cons (.inr rfl)
      (.cons (.inl rfl) (.cons (.inl rfl) (.cons (.inl rfl) .nil)))
  have hunpaired : Unpaired 0xD83D ['\\', 'n', '"', ')'] :=
    .inr ⟨⟨by omega, by omega⟩, fun es low more hsplit => nomatch hsplit⟩
  refine ⟨((readValue_quoted ['s'] (by decide)).1 _ _).2
      ⟨_, encodes_smile, rfl⟩, ?_⟩
  exact (readValue_quoted ['s'] (by decide)).2.2 _ _ _ _ _ hquote (by decide)
    hdigits hunpaired rfl

end TaskTree.Outline
